import Vms.Auth
import Vms.Theorems.Guard
import Vms.Theorems.Staff.Step

/-! Whether a disabled account gets access. A login looks at the status of the account; the exchange of a
    refresh token for an access token does not. -/

namespace Vms.AuthService
open Relational HttpException

/-! ### Runs -/

inductive Operation where
  | loginUser (io : Io) (email password : String) (newPassword : Option String)
  | refreshAccessToken (io : Io) (refreshToken : String)
  | resetPassword (io : Io) (dto : ResetPasswordDto)
  | changeOldPassword (io : Io) (userId oldPassword newPassword : String)
  | logout (userId role : String)
  | editStaffMemberDetails (io : StaffService.Io) (orgId : Option String) (role staffId : String)
      (dto : StaffService.EditStaffMemberDto) (qOrgId : Option String)

def LoginReply.accessToken : LoginReply → Option String
  | .firstTimeLogin => none
  | .loggedIn accessToken _ _ => some accessToken

/-- The operation, with the access token that it returns. -/
def serve (jwt : Jwt) (js : Js) (compare : String → String → Bool) : Operation → Service (Option String)
  | .loginUser io email password newPassword => do return (← loginUser jwt compare io email password newPassword).accessToken
  | .refreshAccessToken io refreshToken => do return some (← refreshAccessToken jwt io refreshToken).accessToken
  | .resetPassword io dto => do let _ ← resetPassword js compare io dto; return none
  | .changeOldPassword io userId oldPassword newPassword => do
    let _ ← changeOldPassword compare io userId oldPassword newPassword
    return none
  | .logout userId role => do let _ ← logout userId role; return none
  | .editStaffMemberDetails io orgId role staffId dto qOrgId => do
    let _ ← StaffService.editStaffMemberDetails io orgId role staffId dto qOrgId
    return none

/-- One operation after another, on any store. -/
def accounts (jwt : Jwt) (js : Js) (compare : String → String → Bool) :
    System (System.Run Db Operation (Except HttpException (Option String))) Operation :=
  System.logged (fun _ => True) fun s op r t => (serve jwt js compare op).Answers s r t

/-! ### Tokens of enabled accounts -/

/-- The token gives access to an account. -/
def GivesAccess (jwt : Jwt) (token userId : String) : Prop :=
  ∃ now payload, jwt.verify now token = .ok payload ∧ payload.userId = some userId

/-- The token is signed for an account that is not disabled. -/
def ForEnabled (jwt : Jwt) (s : Db) (token : String) : Prop :=
  ∃ user ∈ s.userCredential, user.accountStatus ≠ .disabled ∧
    ∃ issued payload, token = jwt.sign "15m" issued payload ∧ payload.userId = some user.id

section Tokens
variable {jwt : Jwt} {s : Db} {io : Io} {compare : String → String → Bool}

/-- A token gives access to the one account that it is signed for. -/
theorem ForEnabled.noAccess {token : String} (h : ForEnabled jwt s token) {user : UserCredential}
    (huser : user ∈ s.userCredential) (hdisabled : user.accountStatus = .disabled) : ¬GivesAccess jwt token user.id := by
  rintro ⟨now, payload, hverify, hid⟩
  obtain ⟨own, hown, henabled, issued, signed, rfl, hownId⟩ := h
  rcases jwt.verify_sign "15m" issued signed now with hok | hexpired
  · obtain rfl : signed = payload := Except.ok.inj (hok.symm.trans hverify)
    obtain rfl : own = user := Table.eq_of_id hown huser (Option.some.inj (hownId.symm.trans hid))
    exact henabled hdisabled
  · rw [hexpired] at hverify
    cases hverify

/-- A user comes from one with the same status, where passwords and first logins change. -/
theorem status_of_mem_update {t : Table UserCredential} {p : UserCredential → Bool} {change : UserCredential → UserCredential}
    {keys : Row.Fixes change} {b : UserCredential} (hb : b ∈ t.update p change keys)
    (hchange : ∀ user, (change user).accountStatus = user.accountStatus) :
    ∃ a ∈ t, a.id = b.id ∧ a.accountStatus = b.accountStatus := by
  rcases Table.mem_update_cases hb with ⟨hb, -⟩ | ⟨a, ha, -, rfl⟩
  · exact ⟨b, hb, rfl, rfl⟩
  · exact ⟨a, ha, (keys.1 a).symm, (hchange a).symm⟩

/-- The user of a login, as the store has it before. -/
def Enabled (s : Db) (user : UserCredential) : Prop :=
  ∃ before ∈ s.userCredential, before.id = user.id ∧ before.accountStatus ≠ .disabled

theorem returns_issueTokens {user : Option UserCredential} {t : Db} {Q : Except HttpException LoginReply → Db → Prop}
    (h : ∀ u, user = some u → Enabled s u) (fails : ∀ e t, Q (.error e) t)
    (done : ∀ reply t, (∀ token, reply.accessToken = some token → ForEnabled jwt s token) → Q (.ok reply) t) :
    (issueTokens jwt io user).Returns Q t := by
  cases user with
  | none => exact done .firstTimeLogin t fun _ htoken => by cases htoken
  | some user =>
    obtain ⟨before, hbefore, hid, henabled⟩ := h user rfl
    simp only [issueTokens, createRefreshToken, Prog.returns_bind, returns_mutate, Prog.then_ok, Prog.then_error,
      Prog.returns_pure, fails, implies_true, true_and]
    refine fun _ u _ => done _ u fun token htoken => ?_
    obtain rfl := Option.some.inj htoken
    exact ⟨before, hbefore, henabled, io.now, _, rfl, congrArg some hid.symm⟩

theorem returns_firstLogin {user : UserCredential} {password : String} {newPassword : Option String}
    {Q : Except HttpException (Option UserCredential) → Db → Prop} (fails : ∀ e t, Q (.error e) t)
    (done : ∀ user t, (∀ u, user = some u → Enabled s u) → Q (.ok user) t) :
    (firstLogin compare io user password newPassword).Returns Q s := by
  simp only [firstLogin, Prog.returns_bind, Prog.returns_failIf, Prog.then_ok, Prog.then_error, fails, implies_true, true_and]
  intro _
  cases truthy newPassword with
  | none => exact done none s fun _ h => by cases h
  | some newPassword =>
    simp only [changePassword, updateUser, checkEnabled, Prog.returns_bind, returns_mutate, Prog.then_ok, Prog.then_error, fails,
      implies_true, true_and]
    intro _ t ht _ u hu
    split at ht
    · cases ht
    obtain ⟨-, rfl⟩ := Prod.mk.inj (Except.ok.inj ht)
    split at hu
    · cases hu
    obtain ⟨-, rfl⟩ := Prod.mk.inj (Except.ok.inj hu)
    simp only [Prog.returns_bind, returns_query, Prog.returns_orFail, Prog.returns_failIf, Prog.returns_pure, Prog.then_ok,
      Prog.then_error, fails, implies_true, true_and, Table.find_eq_some]
    rintro now ⟨hmem, -⟩ henabled _
    refine done _ _ fun v hv => ?_
    obtain rfl := Option.some.inj hv
    obtain ⟨a, ha, haid, hastatus⟩ := status_of_mem_update hmem fun _ => rfl
    obtain ⟨b, hb, hbid, hbstatus⟩ := status_of_mem_update ha fun _ => rfl
    refine ⟨b, hb, hbid.trans haid, ?_⟩
    rw [hbstatus, hastatus]
    exact henabled

/-- A login returns a token for nobody but an enabled user. -/
theorem returns_loginUser {email password : String} {newPassword : Option String}
    {Q : Except HttpException LoginReply → Db → Prop} (fails : ∀ e t, Q (.error e) t)
    (done : ∀ reply t, (∀ token, reply.accessToken = some token → ForEnabled jwt s token) → Q (.ok reply) t) :
    (loginUser jwt compare io email password newPassword).Returns Q s := by
  simp only [loginUser, identify, Prog.returns_bind, returns_query, Prog.returns_orFail, Prog.then_ok, Prog.then_error, fails,
    implies_true, true_and]
  intro user huser
  split
  · refine returns_firstLogin ?_ fun _ _ henabled => ?_
    · exact fails
    · exact returns_issueTokens henabled fails done
  · simp only [laterLogin, checkEnabled, Prog.returns_bind, Prog.returns_failIf, Prog.returns_pure, Prog.then_ok,
      Prog.then_error, fails, implies_true, true_and]
    intro henabled _
    refine returns_issueTokens (fun u hu => ?_) fails done
    obtain rfl := Option.some.inj hu
    exact ⟨_, (Table.mem_of_findBy huser).1, rfl, henabled⟩

/-- No unexpired refresh token with this text belongs to a disabled user. -/
def NoneDisabled (s : Db) (now : Date) (refreshToken : String) : Prop :=
  ∀ row ∈ s.refreshToken, row.token = refreshToken → ¬row.expiryDate < now →
    ∀ user ∈ s.userCredential, row.userId = some user.id → user.accountStatus ≠ .disabled

/-- A refresh token is exchanged for an access token of its own user, whatever the status. -/
theorem returns_refreshAccessToken {refreshToken : String} {Q : Except HttpException RefreshReply → Db → Prop}
    (none : NoneDisabled s io.now refreshToken) (fails : ∀ e t, Q (.error e) t)
    (done : ∀ reply t, ForEnabled jwt s reply.accessToken → Q (.ok reply) t) :
    (refreshAccessToken jwt io refreshToken).Returns Q s := by
  simp only [refreshAccessToken, rotateRefreshToken, Prog.returns_bind, returns_query, returns_mutate, Prog.returns_orFail,
    Prog.returns_failIf, Prog.returns_pure, Prog.then_ok, Prog.then_error, fails, implies_true, true_and, truthy_eq_some,
    Table.find_eq_some]
  rintro row hrow hfresh userId ⟨hof, -⟩ user ⟨huser, hid⟩ _ t -
  obtain ⟨hmem, htoken⟩ := Table.mem_of_findBy hrow
  refine done _ t ⟨user, huser, ?_, io.now, _, rfl, rfl⟩
  exact none row hmem (beq_iff_eq.mp htoken) hfresh user huser (hof.trans (congrArg some hid.symm))

/-- The exchange of an unexpired refresh token, where the new one is not in use: its user gets an access token. -/
theorem refreshAccessToken_reply (jwt : Jwt) (io : Io) {refreshToken : String} {row : RefreshToken} {user : UserCredential}
    (hrow : s.refreshToken.findBy (·.token == refreshToken) = some row) (hfresh : ¬row.expiryDate < io.now)
    (hof : row.userId = some user.id) (hne : user.id ≠ "") (huser : user ∈ s.userCredential)
    (hrotates : (s.refreshToken.modify (·.id == row.id) fun row =>
      { row with token := io.refreshToken, expiryDate := refreshTokenExpiry io.now }).isSome = true) :
    ((refreshAccessToken jwt io refreshToken).run s).1 = .ok {
      accessToken := jwt.sign "15m" io.now { orgId := user.orgId, userId := some user.id, role := some user.role.name }
      newRefreshToken := io.refreshToken
      newRole := user.role } := by
  obtain ⟨u, hu⟩ := Option.isSome_iff_exists.mp hrotates
  have hfind : s.userCredential.find user.id = some user := Table.find_of_mem huser
  have hstored : s.refreshToken.find row.id = some row := Table.find_of_mem (Table.mem_of_findBy hrow).1
  change (refreshAccessToken jwt io refreshToken).Returns (fun r _ => r = _) s
  simp only [refreshAccessToken, rotateRefreshToken, Prog.returns_bind, returns_query, returns_mutate, Prog.returns_orFail,
    Prog.returns_failIf, Prog.returns_pure, Prog.then_ok, hrow, hfresh, truthy_eq_some.mpr ⟨hof, hne⟩, hfind, hstored, hu,
    Option.some.injEq, forall_eq', reduceCtorEq, false_implies, true_and, not_false_eq_true, true_implies]
  simp

end Tokens

/-! ### Disabled accounts -/

/-- No refresh token of a disabled account is presented. -/
def PresentsNone (s : Db) : Operation → Prop
  | .refreshAccessToken io refreshToken => NoneDisabled s io.now refreshToken
  | _ => True

/-- The call returns no access token for an account that is disabled at the time. -/
def NoAccess (jwt : Jwt) (entry : System.Entry Db Operation (Except HttpException (Option String))) : Prop :=
  ∀ token, entry.reply = .ok (some token) → ∀ user ∈ entry.before.userCredential, user.accountStatus = .disabled →
    ¬GivesAccess jwt token user.id

/-- No call of a run returns one. -/
def AllNoAccess (jwt : Jwt) (c : System.Run Db Operation (Except HttpException (Option String))) : Prop :=
  ∀ entry ∈ c.log, NoAccess jwt entry

section Runs
variable {jwt : Jwt} {js : Js} {compare : String → String → Bool} {s : Db}

/-- Operations but the two that issue tokens return none. -/
theorem returns_noToken {α : Type} {p : Service α} {Q : Except HttpException (Option String) → Db → Prop}
    (fails : ∀ e t, Q (.error e) t) (done : ∀ t, Q (.ok none) t) :
    (do let _ ← p; return none : Service (Option String)).Returns Q s := by
  rw [Prog.returns_bind]
  change Prog.Then _ _ _ (p.run s).1 (p.run s).2
  cases (p.run s).1 with
  | error e => exact fails e _
  | ok a => exact done _

theorem returns_serve {op : Operation} (presents : PresentsNone s op) :
    (serve jwt js compare op).Returns (fun r _ => NoAccess jwt ⟨s, op, r⟩) s := by
  have fails : ∀ e, NoAccess jwt ⟨s, op, .error e⟩ := by
    intro e token h
    cases h
  have noToken : NoAccess jwt ⟨s, op, .ok none⟩ := by
    intro token h
    cases h
  have enabled : ∀ token, ForEnabled jwt s token → NoAccess jwt ⟨s, op, .ok (some token)⟩ := by
    intro token henabled _ h user huser hdisabled
    obtain rfl := Option.some.inj (Except.ok.inj h)
    exact henabled.noAccess huser hdisabled
  cases op with
  | loginUser io email password newPassword =>
    simp only [serve, Prog.returns_bind]
    refine returns_loginUser (fun e _ => fails e) fun reply t htoken => ?_
    simp only [Prog.then_ok, Prog.returns_pure]
    cases haccess : reply.accessToken with
    | none => exact noToken
    | some token => exact enabled token (htoken token haccess)
  | refreshAccessToken io refreshToken =>
    simp only [serve, Prog.returns_bind]
    exact returns_refreshAccessToken presents (fun e _ => fails e) fun reply t henabled => enabled reply.accessToken henabled
  | resetPassword io dto => exact returns_noToken (fun e _ => fails e) fun _ => noToken
  | changeOldPassword io userId oldPassword newPassword => exact returns_noToken (fun e _ => fails e) fun _ => noToken
  | logout userId role => exact returns_noToken (fun e _ => fails e) fun _ => noToken
  | editStaffMemberDetails io orgId role staffId dto qOrgId => exact returns_noToken (fun e _ => fails e) fun _ => noToken

end Runs

/-- In a run that presents no refresh token of a disabled account, no call returns an access token for an
    account that is disabled at the time. -/
theorem disabled_no_access (jwt : Jwt) (js : Js) (compare : String → String → Bool)
    (c : System.Run Db Operation (Except HttpException (Option String)))
    (h : (accounts jwt js compare).Reach (fun c op => PresentsNone c.state op) c) : AllNoAccess jwt c := by
  refine h.entries fun c op r t presents hr => ?_
  exact hr.of_returns (Q := fun r _ => NoAccess jwt ⟨c.state, op, r⟩) (fun e token h => by cases h) (returns_serve presents)

/-! ### A demoted admin -/

namespace Demoted

def ann : Staff := { id := "ann", orgId := "org", userId := some "ann-user", name := "Ann", email := "ann@mail.com", role := .admin }

def db : Db where
  organization := {{ id := "org", name := "Org", email := "org@mail.com" }}
  staff := {ann}
  userCredential := {{ id := "ann-user", orgId := some "org", email := "ann@mail.com", password := "secret", role := .admin,
                       firstTimeLogin := some false }}

def io (refreshTokenId refreshToken : String) : Io := { now := 0, refreshTokenId, refreshToken, hash := id }

def staffIo : StaffService.Io where
  staffId _ := ""
  userId _ := "user"
  userId_ne _ := by decide
  employeeCodeDigits _ := []
  passwordDigits _ := 0
  workingHoursId _ := ""
  hash := id
  toUpperCase := id
  users := .stored
  departments := .stored

def js : Js := { toLowerCase := id, trim := id, toLocaleString := fun _ => "" }

/-- The credential of Ann after the demotion. -/
def demoted : UserCredential where
  id := "ann-user"
  orgId := some "org"
  email := "ann@mail.com"
  password := "secret"
  role := .staff
  firstTimeLogin := some false
  accountStatus := .disabled

/-- Ann logs in, is made staff, which disables the account, and logs in or asks for a new access token. -/
def login : Operation := .loginUser (io "1" "first") "ann@mail.com" "secret" none

def demote : Operation := .editStaffMemberDetails staffIo (some "org") "SuperAdmin" "ann" { role := some .staff } none

def refresh : Operation := .refreshAccessToken (io "2" "second") "first"

end Demoted

section Demoted
open Demoted

/-- The state and the log after some operations, each of which ends as it does without failures. -/
def after (ops : List Operation) : System.Run Db Operation (Except HttpException (Option String)) :=
  .replay (fun op => (serve Jwt.readable Demoted.js (· == ·) op).run) db ops

/-- After the demotion Ann cannot log in. -/
theorem disabled_no_access_demoted : AllNoAccess Jwt.readable (after [login, demote, login]) := by
  refine disabled_no_access Jwt.readable Demoted.js (· == ·) _ (.call (.call (.call (.init ⟨trivial, rfl⟩) ?_
    (Prog.answers_run _ _)) ?_ (Prog.answers_run _ _)) ?_ (Prog.answers_run _ _))
  all_goals trivial

theorem user_demoted : demoted ∈ (after [login, demote]).state.userCredential := by decide

theorem token_demoted : (after [login, demote]).state.refreshToken.findBy (·.token == "first") =
    some { id := "1", userId := some demoted.id, token := "first", expiryDate := refreshTokenExpiry 0 } := by decide

/-- With a refresh token from before, Ann gets an access token. -/
theorem refreshed_after_demotion : ¬∀ c, (accounts Jwt.readable Demoted.js (· == ·)).Reachable c →
    AllNoAccess Jwt.readable c := fun h => by
  have reached : (accounts Jwt.readable Demoted.js (· == ·)).Reachable (after [login, demote]) :=
    .call (.call (.init ⟨trivial, rfl⟩) trivial (Prog.answers_run _ _)) trivial (Prog.answers_run _ _)
  have noAccess := h _ (reached.call (k := refresh) trivial (Prog.answers_run _ _)) _ List.mem_cons_self
  have reply := refreshAccessToken_reply Jwt.readable (io "2" "second") token_demoted (by decide) rfl (by decide) user_demoted
    (by decide)
  have served : (serve Jwt.readable Demoted.js (· == ·) refresh).Returns (fun r _ => r = .ok (some
      (Jwt.readable.sign "15m" 0 { orgId := demoted.orgId, userId := some demoted.id, role := some demoted.role.name })))
      (after [login, demote]).state := by
    refine Prog.returns_map.mpr ?_
    change Except.map _ ((refreshAccessToken Jwt.readable (io "2" "second") "first").run _).1 = _
    rw [reply]
    rfl
  exact noAccess _ served _ user_demoted rfl ⟨0, _, Jwt.readable_verify, rfl⟩

end Demoted

end Vms.AuthService
