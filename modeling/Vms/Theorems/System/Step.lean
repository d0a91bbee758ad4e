import Vms.Lib.System
import Vms.SystemSession
import Vms.Theorems.Guard

/-! What the operations on system accounts do to the sessions of the accounts: one rule for each operation, and
    what may become of one account in one call. -/

namespace Vms.SystemService
open Relational HttpException

inductive Operation where
  | registerSystemUser (io : Io) (orgId userId role : String) (dto : RegisterSystemUserDto)
  | loginSystemUser (io : SessionIo) (email password : String)
  | refreshSystemAccessToken (io : SessionIo) (token : String)
  | editSystemAccount (orgId role systemId : String) (dto : EditSystemUserDto)
  | deleteSystemAccount (systemId orgId userId role : String)
  | resetPassword (hash : String → String) (dto : ResetPasswordDto)
  | logoutSystemAccount (orgId systemId role : String)
  | logoutSystemAccountWeb (systemId orgId userId role : String)
  | logoutAllSystemAccounts (orgId role userId : String)

/-- The operation, with the tokens that it returns. -/
def serve (jwt : Jwt) (js : Js) (compare : String → String → Bool) : Operation → Service (Option TokenReply)
  | .registerSystemUser io orgId userId role dto => do let _ ← registerSystemUser js io orgId userId role dto; return none
  | .loginSystemUser io email password => do return some (← loginSystemUser jwt js compare io email password)
  | .refreshSystemAccessToken io token => do return some (← refreshSystemAccessToken jwt io token)
  | .editSystemAccount orgId role systemId dto => do let _ ← editSystemAccount orgId role systemId dto; return none
  | .deleteSystemAccount systemId orgId userId role => do let _ ← deleteSystemAccount systemId orgId userId role; return none
  | .resetPassword hash dto => do let _ ← resetPassword js compare hash dto; return none
  | .logoutSystemAccount orgId systemId role => do let _ ← logoutSystemAccount orgId systemId role; return none
  | .logoutSystemAccountWeb systemId orgId userId role => do
    let _ ← logoutSystemAccountWeb systemId orgId userId role
    return none
  | .logoutAllSystemAccounts orgId role userId => do let _ ← logoutAllSystemAccounts orgId role userId; return none

abbrev Reply := Except HttpException (Option TokenReply)

abbrev Entry := System.Entry Db Operation Reply

/-! ### One rule for each operation -/

section Rules
variable {s : Db} {jwt : Jwt} {js : Js} {compare : String → String → Bool} {systemId orgId userId role : String}

theorem returns_updateSystem {change : SystemCredential → SystemCredential} {keys : Row.Fixes change}
    {Q : Except HttpException Unit → Db → Prop} (fails : ∀ e, Q (.error e) s)
    (done : Q (.ok ()) { s with systemCredential := s.systemCredential.update (·.id == systemId) change keys }) :
    (updateSystem systemId change keys).Returns Q s := by
  simp only [updateSystem, returns_mutate, fails, implies_true, true_and]
  intro _ t ht
  split at ht
  · cases ht
  · cases ht
    exact done

theorem returns_registerSystemUser {io : Io} {dto : RegisterSystemUserDto}
    {Q : Except HttpException SystemAccountDetails → Db → Prop} (fails : ∀ e, Q (.error e) s)
    (done : ∀ details system u, system.id = io.systemId → s.systemCredential.insert system = some u →
      Q (.ok details) { s with systemCredential := u }) :
    (registerSystemUser js io orgId userId role dto).Returns Q s := by
  simp only [registerSystemUser, createSystem, Prog.returns_bind, Prog.returns_failIf, Prog.returns_orFail, Prog.returns_pure,
    Prog.then_ok, Prog.then_error, returns_query, returns_mutate, created_eq_ok, fails, implies_true, true_and]
  rintro - organization - user - - - - system t ⟨-, rfl, u, hu, rfl⟩
  exact done _ _ u rfl hu

theorem returns_loginSystemUser {io : SessionIo} {email password : String} {Q : Except HttpException TokenReply → Db → Prop}
    (fails : ∀ e t, t.systemCredential = s.systemCredential → Q (.error e) t)
    (done : ∀ account t, s.systemCredential.findBy (·.email == js.trim (js.toLowerCase email)) = some account →
      account.activityStatus ≠ .loggedIn →
      t.systemCredential = s.systemCredential.update (·.id == account.id) (fun system =>
        { system with activityStatus := .loggedIn, sessionId := some io.sessionId }) →
      Q (.ok {
        accessToken := jwt.sign "7d" io.now {
          systemId := some account.id, orgId := some account.orgId, role := some account.role, sessionId := some io.sessionId }
        refreshToken := io.refreshToken }) t) :
    (loginSystemUser jwt js compare io email password).Returns Q s := by
  have failsHere : ∀ e, Q (.error e) s := fun e => fails e s rfl
  simp only [loginSystemUser, createRefreshToken, Prog.returns_bind, Prog.returns_failIf, Prog.returns_orFail, Prog.then_ok,
    Prog.then_error, returns_query, returns_mutate, created_eq_ok, failsHere, implies_true, true_and]
  rintro account haccount - hidle token t ⟨-, -, u, -, rfl⟩
  refine returns_updateSystem (fun e => fails e _ rfl) ?_
  simp only [Prog.then_ok, Prog.returns_pure]
  exact done account _ haccount hidle rfl

theorem returns_refreshSystemAccessToken {io : SessionIo} {token : String} {Q : Except HttpException TokenReply → Db → Prop}
    (fails : ∀ e, Q (.error e) s)
    (done : ∀ row t, s.refreshToken.findBy (·.token == token) = some row → t.systemCredential = s.systemCredential →
      Q (.ok {
        accessToken := jwt.sign "15m" io.now {
          systemId := (row.systemId.bind s.systemCredential.find).map (·.id)
          orgId := (row.systemId.bind s.systemCredential.find).map (·.orgId)
          role := (row.systemId.bind s.systemCredential.find).map (·.role) }
        refreshToken := io.refreshToken }) t) :
    (refreshSystemAccessToken jwt io token).Returns Q s := by
  simp only [refreshSystemAccessToken, rotateRefreshToken, Prog.returns_bind, Prog.returns_orFail, Prog.returns_pure,
    Prog.then_ok, Prog.then_error, returns_query, returns_mutate, fails, implies_true, true_and, Option.filter_eq_some_iff]
  rintro row ⟨hrow, -⟩ _ t ht
  refine done row t hrow ?_
  split at ht
  · cases ht
  · split at ht
    · cases ht
    · cases ht
      rfl

/-- A stored token that has not expired is exchanged for a new one. -/
theorem refreshSystemAccessToken_ok {row : RefreshToken} (jwt : Jwt) (io : SessionIo) (hrow : row ∈ s.refreshToken)
    (hlive : io.now ≤ row.expiryDate) (fresh : ∀ r ∈ s.refreshToken, r.token ≠ io.refreshToken) :
    ∃ reply, ((refreshSystemAccessToken jwt io row.token).run s).1 = .ok reply := by
  obtain ⟨u, hu⟩ := exists_rotation (refreshTokenExpiry io.now) hrow fresh
  have hfound := findBy_token hrow
  have hstored : s.refreshToken.find row.id = some row := Table.find_of_mem hrow
  change (refreshSystemAccessToken jwt io row.token).Returns (fun r _ => ∃ reply, r = .ok reply) s
  simp only [refreshSystemAccessToken, rotateRefreshToken, Prog.returns_bind, Prog.returns_orFail, Prog.returns_pure,
    Prog.then_ok, Prog.then_error, returns_query, returns_mutate, hfound]
  simp [hlive, hstored, hu]

theorem returns_editSystemAccount {dto : EditSystemUserDto} {Q : Except HttpException String → Db → Prop}
    (fails : ∀ e, Q (.error e) s)
    (done : ∀ message t, t.systemCredential = s.systemCredential.update (·.id == systemId) (fun system =>
        { system with secretCode := some dto.secretCode }) → Q (.ok message) t) :
    (editSystemAccount orgId role systemId dto).Returns Q s := by
  simp only [editSystemAccount, Prog.returns_bind, Prog.returns_failIf, Prog.returns_orFail, Prog.then_ok, Prog.then_error,
    returns_query, fails, implies_true, true_and, Table.find_eq_some]
  rintro - system ⟨-, rfl⟩ -
  refine returns_updateSystem (fun e => fails e) ?_
  exact done _ _ rfl

theorem returns_deleteSystemAccount {Q : Except HttpException String → Db → Prop} (fails : ∀ e, Q (.error e) s)
    (done : ∀ message t, t.systemCredential = s.systemCredential.delete (·.id == systemId) → Q (.ok message) t) :
    (deleteSystemAccount systemId orgId userId role).Returns Q s := by
  simp only [deleteSystemAccount, deleteSystem, Prog.returns_bind, Prog.returns_failIf, Prog.returns_orFail, Prog.returns_pure,
    Prog.then_ok, Prog.then_error, returns_query, returns_mutate, fails, implies_true, true_and]
  intro _ _ _ _ _ _ _ _ t ht
  split at ht
  · cases ht
  · cases ht
    exact done _ _ rfl

theorem returns_resetPassword {hash : String → String} {dto : ResetPasswordDto} {Q : Except HttpException String → Db → Prop}
    (done : ∀ r id t, t.systemCredential = s.systemCredential ∨
      t.systemCredential = s.systemCredential.update (·.id == id) (fun system =>
        { system with password := hash dto.newPassword }) → Q r t) : (resetPassword js compare hash dto).Returns Q s := by
  have fails : ∀ e, Q (.error e) s := fun e => done _ "" s (Or.inl rfl)
  simp only [resetPassword, deleteResetToken, Prog.returns_bind, Prog.returns_failIf, Prog.returns_orFail, Prog.then_ok,
    Prog.then_error, returns_query, fails, implies_true, true_and]
  intro system _ token _ _
  refine returns_updateSystem (fun e => fails e) ?_
  simp only [Prog.then_ok, Prog.then_error, Prog.returns_bind, Prog.returns_pure, returns_mutate]
  refine ⟨fun e _ => done _ system.id _ (Or.inr rfl), fun _ t ht => ?_⟩
  split at ht
  · cases ht
  · cases ht
    exact done _ system.id _ (Or.inr rfl)

theorem returns_logoutSystemAccount {Q : Except HttpException String → Db → Prop} (fails : ∀ e, Q (.error e) s)
    (done : ∀ message t, t.systemCredential = s.systemCredential.update (·.id == systemId) loggedOut loggedOut_keys →
      Q (.ok message) t) : (logoutSystemAccount orgId systemId role).Returns Q s := by
  simp only [logoutSystemAccount, deleteRefreshTokens, Prog.returns_bind, Prog.returns_failIf, Prog.returns_orFail, Prog.then_ok,
    Prog.then_error, returns_query, fails, implies_true, true_and]
  intro _ _ _ _ _ _ _
  refine returns_updateSystem (fun e => fails e) ?_
  simp only [Prog.then_ok, Prog.returns_bind, Prog.returns_pure, returns_mutate, reduceCtorEq, false_implies, implies_true,
    true_and]
  intro _ t ht
  cases ht
  exact done _ _ rfl

theorem returns_logoutSystemAccountWeb {Q : Except HttpException String → Db → Prop} (fails : ∀ e, Q (.error e) s)
    (done : ∀ message t, t.systemCredential = s.systemCredential.update (·.id == systemId) loggedOut loggedOut_keys →
      Q (.ok message) t) : (logoutSystemAccountWeb systemId orgId userId role).Returns Q s := by
  simp only [logoutSystemAccountWeb, Prog.returns_bind, Prog.returns_failIf, Prog.returns_orFail, Prog.then_ok, Prog.then_error,
    returns_query, fails, implies_true, true_and]
  intro _ _ _ _ _ _ _ _ _
  refine returns_updateSystem (fun e => fails e) ?_
  exact done _ _ rfl

theorem returns_logoutAllSystemAccounts {Q : Except HttpException String → Db → Prop} (fails : ∀ e, Q (.error e) s)
    (done : ∀ message t, t.systemCredential = s.systemCredential.update
      (fun system => system.orgId == orgId && system.activityStatus == .loggedIn) loggedOut loggedOut_keys →
      Q (.ok message) t) : (logoutAllSystemAccounts orgId role userId).Returns Q s := by
  simp only [logoutAllSystemAccounts, deleteRefreshTokens, logOutSystems, Prog.returns_bind, Prog.returns_failIf,
    Prog.returns_orFail, Prog.returns_pure, Prog.then_ok, Prog.then_error, returns_query, returns_mutate, fails, implies_true,
    true_and, reduceCtorEq, false_implies]
  intro _ _ _ _ _ _ _ _ t ht _ u hu
  cases ht
  cases hu
  exact done _ _ rfl

end Rules

/-! ### One account in one call -/

/-- The identifier that a registration draws. -/
def Operation.systemId? : Operation → Option String
  | .registerSystemUser io .. => some io.systemId
  | _ => none

/-- The session that a login draws. -/
def Operation.sessionId? : Operation → Option String
  | .loginSystemUser io .. => some io.sessionId
  | _ => none

/-- The three logouts of an account. -/
def Operation.LogsOut (account : SystemCredential) : Operation → Prop
  | .logoutSystemAccount _ systemId _ => systemId = account.id
  | .logoutSystemAccountWeb systemId .. => systemId = account.id
  | .logoutAllSystemAccounts orgId .. => orgId = account.orgId
  | _ => False

/-- A logout of the account succeeds. -/
def LogsOut (account : SystemCredential) (entry : Entry) : Prop :=
  entry.call.LogsOut account ∧ ∃ reply, entry.reply = .ok reply

/-- A login succeeds: the account enters the session, and the caller gets the token. -/
structure LogsIn (js : Js) (account : SystemCredential) (session token : String) (entry : Entry) : Prop where
  call : ∃ io email password, entry.call = .loginSystemUser io email password ∧ io.sessionId = session ∧
    entry.before.systemCredential.findBy (·.email == js.trim (js.toLowerCase email)) = some account
  reply : ∃ refreshToken, entry.reply = .ok (some { accessToken := token, refreshToken })

/-- What one call may make of an account `a`. -/
inductive Move (entry : Entry) (a b : SystemCredential) : Prop where
  | stays (noLogout : ¬LogsOut a entry) (status : b.activityStatus = a.activityStatus) (session : b.sessionId = a.sessionId)
  | leaves (logout : LogsOut a entry) (status : b.activityStatus ≠ .loggedIn)
  | enters (idle : a.activityStatus ≠ .loggedIn) (status : b.activityStatus = .loggedIn) {session : String}
      (drawn : entry.call.sessionId? = some session) (session : b.sessionId = some session)

/-- Every account after a call is new, or comes from one of before. -/
def Moved (entry : Entry) (t : Db) : Prop :=
  ∀ b ∈ t.systemCredential, entry.call.systemId? = some b.id ∨
    ∃ a ∈ entry.before.systemCredential, a.id = b.id ∧ a.orgId = b.orgId ∧ Move entry a b

section Moved
variable {s t : Db} {op : Operation} {r : Reply}

/-- An update that leaves the sessions alone, or touches no row. -/
theorem Moved.quiet {p : SystemCredential → Bool} {change : SystemCredential → SystemCredential} {keys : Row.Fixes change}
    (noLogout : ∀ a, ¬LogsOut a ⟨s, op, r⟩) (ht : t.systemCredential = s.systemCredential.update p change keys)
    (org : ∀ a, (change a).orgId = a.orgId) (status : ∀ a, (change a).activityStatus = a.activityStatus)
    (session : ∀ a, (change a).sessionId = a.sessionId) : Moved ⟨s, op, r⟩ t := by
  intro b hb
  rw [ht] at hb
  right
  rcases Table.mem_update_cases hb with ⟨hb, -⟩ | ⟨a, ha, -, rfl⟩
  · exact ⟨b, hb, rfl, rfl, .stays (noLogout b) rfl rfl⟩
  · exact ⟨a, ha, (keys.1 a).symm, (org a).symm, .stays (noLogout a) (status a) (session a)⟩

theorem Moved.of_subset (noLogout : ∀ a, ¬LogsOut a ⟨s, op, r⟩) (ht : ∀ b ∈ t.systemCredential, b ∈ s.systemCredential) :
    Moved ⟨s, op, r⟩ t :=
  fun b hb => Or.inr ⟨b, ht b hb, rfl, rfl, .stays (noLogout b) rfl rfl⟩

theorem Moved.fails {e : HttpException} (ht : t.systemCredential = s.systemCredential) : Moved ⟨s, op, .error e⟩ t := by
  refine .of_subset (fun a h => ?_) fun b hb => ht ▸ hb
  obtain ⟨reply, hreply⟩ := h.2
  cases hreply

theorem Moved.registered {system : SystemCredential} {u : Table SystemCredential} (noLogout : ∀ a, ¬LogsOut a ⟨s, op, r⟩)
    (hop : op.systemId? = some system.id) (hu : s.systemCredential.insert system = some u) :
    Moved ⟨s, op, r⟩ { s with systemCredential := u } := by
  intro b hb
  rcases (Table.mem_insert hu).mp hb with hb | rfl
  · exact Or.inr ⟨b, hb, rfl, rfl, .stays (noLogout b) rfl rfl⟩
  · exact Or.inl hop

theorem Moved.loggedIn {account : SystemCredential} {session : String} (noLogout : ∀ a, ¬LogsOut a ⟨s, op, r⟩)
    (hop : op.sessionId? = some session) (haccount : account ∈ s.systemCredential) (idle : account.activityStatus ≠ .loggedIn)
    (ht : t.systemCredential = s.systemCredential.update (·.id == account.id) fun system =>
      { system with activityStatus := .loggedIn, sessionId := some session }) : Moved ⟨s, op, r⟩ t := by
  intro b hb
  rw [ht] at hb
  right
  rcases Table.mem_update_cases hb with ⟨hb, -⟩ | ⟨a, ha, hid, rfl⟩
  · exact ⟨b, hb, rfl, rfl, .stays (noLogout b) rfl rfl⟩
  · obtain rfl : a = account := Table.eq_of_id ha haccount (beq_iff_eq.mp hid)
    exact ⟨a, ha, rfl, rfl, .enters idle rfl hop rfl⟩

/-- A logout of the accounts that a condition picks, and of no other account that is logged in. -/
theorem Moved.loggedOut {p : SystemCredential → Bool} {reply : Option TokenReply}
    (ht : t.systemCredential = s.systemCredential.update p loggedOut loggedOut_keys) (hp : ∀ a, p a = true → op.LogsOut a)
    (others : ∀ a ∈ s.systemCredential, p a = false → op.LogsOut a → a.activityStatus ≠ .loggedIn) :
    Moved ⟨s, op, .ok reply⟩ t := by
  intro b hb
  rw [ht] at hb
  right
  rcases Table.mem_update_cases hb with ⟨hb, hpb⟩ | ⟨a, ha, hpa, rfl⟩
  · refine ⟨b, hb, rfl, rfl, ?_⟩
    by_cases hlogout : op.LogsOut b
    · exact .leaves ⟨hlogout, reply, rfl⟩ (others b hb hpb hlogout)
    · exact .stays (fun h => hlogout h.1) rfl rfl
  · exact ⟨a, ha, rfl, rfl, .leaves ⟨hp a hpa, reply, rfl⟩ (by simp [SystemService.loggedOut])⟩

theorem Moved.loggedOutOne {systemId : String} {reply : Option TokenReply} (hop : ∀ a, op.LogsOut a ↔ systemId = a.id)
    (ht : t.systemCredential = s.systemCredential.update (·.id == systemId) SystemService.loggedOut loggedOut_keys) :
    Moved ⟨s, op, .ok reply⟩ t := by
  refine .loggedOut ht (fun a ha => (hop a).mpr (beq_iff_eq.mp ha).symm) fun a _ ha hlogout => ?_
  exact absurd ((hop a).mp hlogout).symm (beq_eq_false_iff_ne.mp ha)

end Moved

section Serve
variable {s t : Db} {jwt : Jwt} {js : Js} {compare : String → String → Bool} {op : Operation}

theorem serve_moved : (serve jwt js compare op).Returns (fun r t => Moved ⟨s, op, r⟩ t) s := by
  have fails : ∀ e, Moved ⟨s, op, .error e⟩ s := fun e => .fails rfl
  cases op with
  | registerSystemUser io orgId userId role dto =>
    simp only [serve, Prog.returns_bind]
    exact returns_registerSystemUser fails fun _ system u hid hu => .registered (fun _ => And.left) (congrArg some hid.symm) hu
  | loginSystemUser io email password =>
    simp only [serve, Prog.returns_bind]
    exact returns_loginSystemUser (fun e t ht => .fails ht) fun account t haccount hidle ht =>
      .loggedIn (fun _ => And.left) rfl (Table.mem_of_findBy haccount).1 hidle ht
  | refreshSystemAccessToken io token =>
    simp only [serve, Prog.returns_bind]
    exact returns_refreshSystemAccessToken fails fun _ t _ ht => .of_subset (fun _ => And.left) fun b hb => ht ▸ hb
  | editSystemAccount orgId role systemId dto =>
    simp only [serve, Prog.returns_bind]
    exact returns_editSystemAccount fails fun _ t ht =>
      .quiet (fun _ => And.left) ht (fun _ => rfl) (fun _ => rfl) fun _ => rfl
  | deleteSystemAccount systemId orgId userId role =>
    simp only [serve, Prog.returns_bind]
    refine returns_deleteSystemAccount fails fun _ t ht => .of_subset (fun _ => And.left) fun b hb => ?_
    change b ∈ t.systemCredential at hb
    rw [ht] at hb
    exact (Table.mem_delete.mp hb).1
  | resetPassword hash dto =>
    simp only [serve, Prog.returns_bind]
    refine returns_resetPassword fun r id t ht => ?_
    have noLogout : ∀ r a, ¬LogsOut a ⟨s, .resetPassword hash dto, r⟩ := fun _ _ => And.left
    have moved : ∀ r, Moved ⟨s, .resetPassword hash dto, r⟩ t := fun r => by
      rcases ht with ht | ht
      · exact .of_subset (noLogout r) fun b hb => ht ▸ hb
      · exact .quiet (noLogout r) ht (fun _ => rfl) (fun _ => rfl) fun _ => rfl
    cases r with
    | error e => exact moved (.error e)
    | ok message => exact moved (.ok none)
  | logoutSystemAccount orgId systemId role =>
    simp only [serve, Prog.returns_bind]
    exact returns_logoutSystemAccount fails fun _ t ht => .loggedOutOne (fun _ => Iff.rfl) ht
  | logoutSystemAccountWeb systemId orgId userId role =>
    simp only [serve, Prog.returns_bind]
    exact returns_logoutSystemAccountWeb fails fun _ t ht => .loggedOutOne (fun _ => Iff.rfl) ht
  | logoutAllSystemAccounts orgId role userId =>
    simp only [serve, Prog.returns_bind]
    refine returns_logoutAllSystemAccounts fails fun _ t ht => .loggedOut ht (fun a ha => ?_) fun a _ ha hlogout hactive => ?_
    · exact (beq_iff_eq.mp (Bool.and_eq_true_iff.mp ha).1).symm
    · rw [← show orgId = a.orgId from hlogout, hactive] at ha
      simp at ha

/-- What a login leaves behind: the account is in the new session, and the token is signed for it. -/
theorem serve_logsIn {session token : String} {account : SystemCredential} :
    (serve jwt js compare op).Returns (fun r t => LogsIn js account session token ⟨s, op, r⟩ →
      account ∈ s.systemCredential ∧
      (∃ issued, token = jwt.sign "7d" issued {
        systemId := some account.id, orgId := some account.orgId, role := some account.role, sessionId := some session }) ∧
      ∀ b ∈ t.systemCredential, b.id = account.id →
        b.orgId = account.orgId ∧ b.activityStatus = .loggedIn ∧ b.sessionId = some session) s := by
  by_cases hop : ∃ io email password, op = .loginSystemUser io email password
  · obtain ⟨io, email, password, rfl⟩ := hop
    simp only [serve, Prog.returns_bind]
    refine returns_loginSystemUser (fun e t _ hlogin => ?_) fun found t hfound _ ht hlogin => ?_
    · obtain ⟨_, hreply⟩ := hlogin.reply
      cases hreply
    · obtain ⟨_, _, _, hcall, rfl, hfind⟩ := hlogin.call
      obtain ⟨rfl, rfl, rfl⟩ := Operation.loginSystemUser.inj hcall
      obtain rfl : found = account := Option.some.inj (hfound.symm.trans hfind)
      obtain ⟨_, hreply⟩ := hlogin.reply
      obtain ⟨rfl, -⟩ := TokenReply.mk.inj (Option.some.inj (Except.ok.inj hreply))
      obtain ⟨hmem, -⟩ := Table.mem_of_findBy hfound
      refine ⟨hmem, ⟨io.now, rfl⟩, fun b hb hid => ?_⟩
      change b ∈ t.systemCredential at hb
      rw [ht] at hb
      rcases Table.mem_update_cases hb with ⟨-, hne⟩ | ⟨a, ha, hida, rfl⟩
      · exact absurd hid (beq_eq_false_iff_ne.mp hne)
      · obtain rfl : a = found := Table.eq_of_id ha hmem (beq_iff_eq.mp hida)
        exact ⟨rfl, rfl, rfl⟩
  · intro hlogin
    obtain ⟨io, email, password, hcall, -⟩ := hlogin.call
    exact absurd ⟨io, email, password, hcall⟩ hop

end Serve

end Vms.SystemService
