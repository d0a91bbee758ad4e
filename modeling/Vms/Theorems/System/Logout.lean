import Mathlib.Data.Fintype.EquivFin
import Vms.Theorems.System.Session

/-! The three logouts of a system account leave the account alike. The one from the web keeps its refresh
    tokens, which `refreshSystemAccessToken` accepts without a look at the account. -/

namespace Vms.SystemService
open Relational HttpException

/-- The logout from the web. -/
def Operation.FromWeb : Operation → Prop
  | .logoutSystemAccountWeb .. => True
  | _ => False

/-- The refresh token is one of the account. -/
def IssuedTo (account : SystemCredential) (token : RefreshToken) : Prop := token.systemId = some account.id

/-- The account is in the same state, with the same refresh tokens. -/
structure Alike (account : SystemCredential) (t u : Db) : Prop where
  status : (t.systemCredential.find account.id).map (·.activityStatus) = (u.systemCredential.find account.id).map (·.activityStatus)
  session : (t.systemCredential.find account.id).map (·.sessionId) = (u.systemCredential.find account.id).map (·.sessionId)
  tokens : Table.Same (IssuedTo account) t.refreshToken u.refreshToken

/-- From a moment on, no refresh accepts a token that the account had in `s`. -/
def Revoked (jwt : Jwt) (since : Date) (account : SystemCredential) (s t : Db) : Prop :=
  ∀ token ∈ s.refreshToken, IssuedTo account token → ∀ io : SessionIo, since ≤ io.now →
    ∀ reply u, ¬Prog.Exec (refreshSystemAccessToken jwt io token.token) t (.ok reply) u

/-- What a logout leaves of the account and its tokens. -/
structure Leaves (op : Operation) (account : SystemCredential) (s t : Db) : Prop where
  status : t.systemCredential.find account.id = some (loggedOut account)
  old : ∀ token ∈ t.refreshToken, token ∈ s.refreshToken
  tokens : ∀ token ∈ s.refreshToken, IssuedTo account token → (token ∈ t.refreshToken ↔ op.FromWeb)

section Logouts
variable {s t : Db} {jwt : Jwt} {js : Js} {compare : String → String → Bool} {op : Operation} {account : SystemCredential}

theorem post_updateSystem {systemId : String} {change : SystemCredential → SystemCredential} {keys : Row.Fixes change}
    {Q : Except HttpException Unit → Db → Prop} (fails : ∀ e, Q (.error e) s)
    (done : Q (.ok ()) { s with systemCredential := s.systemCredential.update (·.id == systemId) change keys }) :
    (updateSystem systemId change keys).Post Q s := by
  rw [updateSystem, post_mutate_ite]
  exact ⟨⟨fun _ => fails _, fun _ => done⟩, fails _⟩

theorem find_loggedOut (hmem : account ∈ s.systemCredential) {p : SystemCredential → Bool} (hp : p account = true) :
    (s.systemCredential.update p loggedOut loggedOut_keys).find account.id = some (loggedOut account) :=
  Table.find_eq_some.mpr ⟨Table.mem_update_of_mem hmem hp, rfl⟩

/-- The tokens of the accounts are gone, and no others come. -/
theorem tokens_deleted {systemIds : List String} (hid : account.id ∈ systemIds) {token : RefreshToken}
    (hissued : IssuedTo account token) : token ∉ s.refreshToken.delete fun token => token.systemId.any fun id => systemIds.contains id := by
  intro hmem
  have hkept := (Table.mem_delete.mp hmem).2
  simp [show token.systemId = some account.id from hissued, hid] at hkept

/-- What an operation leaves if it succeeds. -/
def Finally {α : Type} (P : Db → Prop) (r : Except HttpException α) (t : Db) : Prop := ∀ reply, r = .ok reply → P t

@[simp] theorem finally_ok {α : Type} {P : Db → Prop} {a : α} : Finally P (.ok a) t ↔ P t := by simp [Finally]

@[simp] theorem finally_error {α : Type} {P : Db → Prop} {e : HttpException} : Finally P (.error e : Except HttpException α) t := by
  simp [Finally]

theorem logoutSystemAccount_leaves {orgId role : String} (hmem : account ∈ s.systemCredential) :
    (logoutSystemAccount orgId account.id role).Post (Finally (Leaves (.logoutSystemAccount orgId account.id role) account s)) s := by
  simp only [logoutSystemAccount, Prog.post_bind, Prog.post_failIf, Prog.post_orFail, Prog.then_ok, Prog.then_error, post_query,
    finally_error, implies_true, true_and, and_true]
  intro _ _ _ _ _ _ _
  refine post_updateSystem (fun _ => finally_error) ?_
  rw [Prog.then_ok, deleteRefreshTokens, Prog.post_bind, post_mutate_ok]
  refine ⟨finally_ok.mpr ⟨find_loggedOut hmem (beq_self_eq_true _), fun _ h => (Table.mem_delete.mp h).1, fun token _ hissued => ?_⟩,
    finally_error⟩
  exact iff_of_false (tokens_deleted List.mem_cons_self hissued) id

theorem logoutSystemAccountWeb_leaves {orgId userId role : String} (hmem : account ∈ s.systemCredential) :
    (logoutSystemAccountWeb account.id orgId userId role).Post
      (Finally (Leaves (.logoutSystemAccountWeb account.id orgId userId role) account s)) s := by
  simp only [logoutSystemAccountWeb, Prog.post_bind, Prog.post_failIf, Prog.post_orFail, Prog.then_ok, Prog.then_error, post_query,
    finally_error, implies_true, true_and, and_true]
  intro _ _ _ _ _ _ _ _ _
  refine post_updateSystem (fun _ => finally_error) ?_
  exact finally_ok.mpr ⟨find_loggedOut hmem (beq_self_eq_true _), fun _ h => h, fun token htoken _ => iff_of_true htoken trivial⟩

theorem logoutAllSystemAccounts_leaves {role userId : String} (hmem : account ∈ s.systemCredential)
    (active : account.activityStatus = .loggedIn) : (logoutAllSystemAccounts account.orgId role userId).Post
      (Finally (Leaves (.logoutAllSystemAccounts account.orgId role userId) account s)) s := by
  have covered : (account.orgId == account.orgId && account.activityStatus == .loggedIn) = true := by simp [active]
  simp only [logoutAllSystemAccounts, deleteRefreshTokens, logOutSystems, Prog.post_bind, Prog.post_failIf, Prog.post_orFail,
    Prog.then_ok, Prog.then_error, post_query, post_mutate_ok, Prog.post_pure, finally_error, finally_ok, implies_true, true_and,
    and_true]
  intro _ _ _ _ _ _ _
  refine ⟨find_loggedOut hmem covered, fun _ h => (Table.mem_delete.mp h).1, fun token _ hissued => ?_⟩
  exact iff_of_false (tokens_deleted (List.mem_map_of_mem (Table.mem_filter.mpr ⟨hmem, covered⟩)) hissued) id

/-- A successful logout, whichever it is. -/
theorem serve_leaves (hop : op.LogsOut account) (hmem : account ∈ s.systemCredential) (active : account.activityStatus = .loggedIn)
    {reply : Option TokenReply} (h : Prog.Exec (serve jwt js compare op) s (.ok reply) t) : Leaves op account s t := by
  suffices hpost : (serve jwt js compare op).Post (Finally (Leaves op account s)) s from hpost.of_exec h reply rfl
  have keep : ∀ {p : Service String}, p.Post (Finally (Leaves op account s)) s →
      (do let _ ← p; return none : Service (Option TokenReply)).Post (Finally (Leaves op account s)) s := by
    intro p hp
    rw [Prog.post_bind]
    refine hp.mono fun r u hr => ?_
    cases r with
    | error e => exact finally_error
    | ok a => exact finally_ok.mpr (finally_ok.mp hr)
  cases op with
  | logoutSystemAccount orgId systemId role =>
    obtain rfl : systemId = account.id := hop
    exact keep (logoutSystemAccount_leaves hmem)
  | logoutSystemAccountWeb systemId orgId userId role =>
    obtain rfl : systemId = account.id := hop
    exact keep (logoutSystemAccountWeb_leaves hmem)
  | logoutAllSystemAccounts orgId role userId =>
    obtain rfl : orgId = account.orgId := hop
    exact keep (logoutAllSystemAccounts_leaves hmem active)
  | _ => exact hop.elim

end Logouts

/-! ### Redeeming a token -/

section Redeem
variable {s t : Db} {jwt : Jwt} {op : Operation} {account : SystemCredential} {since : Date} {token : RefreshToken}

/-- Only a stored token that has not expired is accepted. -/
theorem refresh_accepts {io : SessionIo} {value : String} : (refreshSystemAccessToken jwt io value).Post
    (fun r _ => ∀ reply, r = .ok reply → ∃ row ∈ t.refreshToken, row.token = value ∧ io.now ≤ row.expiryDate) t := by
  simp only [refreshSystemAccessToken, Prog.post_bind, Prog.post_orFail, Prog.then_ok, Prog.then_error, post_query, reduceCtorEq,
    false_implies, implies_true, true_and, and_true, Option.filter_eq_some_iff, decide_eq_true_eq]
  rintro row ⟨hrow, hlive⟩
  obtain ⟨hmem, hvalue⟩ := Table.mem_of_findBy hrow
  refine Prog.post_iff.mpr fun r u _ => ?_
  cases r with
  | error e => exact fun reply h => by cases h
  | ok _ => exact fun _ _ => ⟨row, hmem, beq_iff_eq.mp hvalue, hlive⟩

/-- A stored token that has not expired is accepted, in exchange for a new one. -/
theorem refresh_redeems (jwt : Jwt) (io : SessionIo) (htoken : token ∈ t.refreshToken) (hlive : io.now ≤ token.expiryDate)
    (fresh : ∀ row ∈ t.refreshToken, row.token ≠ io.refreshToken) :
    ∃ reply u, Prog.Exec (refreshSystemAccessToken jwt io token.token) t (.ok reply) u := by
  obtain ⟨reply, hreply⟩ := refreshSystemAccessToken_ok jwt io htoken hlive fresh
  exact ⟨reply, _, Prog.exec_of_run (Prod.ext hreply rfl)⟩

/-- After a logout from the web, the tokens have to expire. -/
theorem Leaves.revoked_iff (h : Leaves op account s t) : Revoked jwt since account s t ↔
    (op.FromWeb → ∀ token ∈ s.refreshToken, IssuedTo account token → token.expiryDate < since) := by
  constructor
  · intro revoked web token htoken hissued
    by_contra hexpiry
    classical
    obtain ⟨value, hvalue⟩ := Infinite.exists_notMem_finset (t.refreshToken.rows.map (·.token)).toFinset
    have fresh : ∀ row ∈ t.refreshToken, row.token ≠ value := fun row hrow heq =>
      hvalue (List.mem_toFinset.mpr (List.mem_map.mpr ⟨row, hrow, heq⟩))
    obtain ⟨reply, u, hexec⟩ := refresh_redeems jwt
      { now := since, sessionId := "", refreshTokenId := "", refreshToken := value }
      ((h.tokens token htoken hissued).mpr web) (not_lt.mp hexpiry) fresh
    exact revoked token htoken hissued _ le_rfl reply u hexec
  · intro expired token htoken hissued io hsince reply u hexec
    obtain ⟨row, hrow, hvalue, hlive⟩ := refresh_accepts.of_exec hexec reply rfl
    obtain rfl : row = token := Table.eq_of_clash (h.old row hrow) htoken (beq_iff_eq.mpr hvalue)
    have hexpiry := expired ((h.tokens row htoken hissued).mp hrow) row htoken hissued
    exact absurd (hlive.trans_lt hexpiry) (not_lt.mpr hsince)

theorem alike_iff {u : Db} {op' : Operation} (h : Leaves op account s t) (h' : Leaves op' account s u) :
    Alike account t u ↔ (∀ token ∈ s.refreshToken, ¬IssuedTo account token) ∨ (op.FromWeb ↔ op'.FromWeb) := by
  constructor
  · intro alike
    refine or_iff_not_imp_left.mpr fun hsome => ?_
    push Not at hsome
    obtain ⟨token, htoken, hissued⟩ := hsome
    rw [← h.tokens token htoken hissued, ← h'.tokens token htoken hissued]
    exact (alike.tokens token hissued).symm
  · intro hcases
    refine ⟨by rw [h.status, h'.status], by rw [h.status, h'.status], fun token hissued => ?_⟩
    rcases hcases with hnone | hweb
    · exact iff_of_false (fun hu => hnone token (h'.old token hu) hissued) fun ht => hnone token (h.old token ht) hissued
    · constructor
      · exact fun hu => (h.tokens token (h'.old token hu) hissued).mpr (hweb.mpr ((h'.tokens token (h'.old token hu) hissued).mp hu))
      · exact fun ht => (h'.tokens token (h.old token ht) hissued).mpr (hweb.mp ((h.tokens token (h.old token ht) hissued).mp ht))

end Redeem

/-- Both logouts delete the refresh tokens of the account, or there are none, or both are from the web and the tokens
    have expired. -/
def Agreeing (since : Date) (account : SystemCredential) (s : Db) (op op' : Operation) : Prop :=
  (¬op.FromWeb ∧ ¬op'.FromWeb) ∨ (∀ token ∈ s.refreshToken, ¬IssuedTo account token) ∨
    (op.FromWeb ∧ op'.FromWeb ∧ ∀ token ∈ s.refreshToken, IssuedTo account token → token.expiryDate < since)

/-- Two successful logouts of an account that is logged in, from the same state: they leave the account alike and no
    refresh token of before is accepted from then on, exactly if they agree about its tokens. -/
theorem logouts_agree_iff (jwt : Jwt) (js : Js) (compare : String → String → Bool) (since : Date) (s : Db)
    (account : SystemCredential) (hmem : account ∈ s.systemCredential) (active : account.activityStatus = .loggedIn)
    (op op' : Operation) (hop : op.LogsOut account) (hop' : op'.LogsOut account) (reply reply' : Option TokenReply) (t u : Db)
    (h : Prog.Exec (serve jwt js compare op) s (.ok reply) t) (h' : Prog.Exec (serve jwt js compare op') s (.ok reply') u) :
    (Alike account t u ∧ Revoked jwt since account s t ∧ Revoked jwt since account s u) ↔ Agreeing since account s op op' := by
  have leaves := serve_leaves hop hmem active h
  have leaves' := serve_leaves hop' hmem active h'
  rw [alike_iff leaves leaves', leaves.revoked_iff, leaves'.revoked_iff, Agreeing]
  by_cases hnone : ∀ token ∈ s.refreshToken, ¬IssuedTo account token
  · refine iff_of_true ⟨Or.inl hnone, fun _ token htoken hissued => absurd hissued (hnone token htoken),
      fun _ token htoken hissued => absurd hissued (hnone token htoken)⟩ (Or.inr (Or.inl hnone))
  · tauto

/-! ### A kiosk that its super admin logs out -/

namespace Lobby

def boss : UserCredential := { id := "boss", orgId := some "org", email := "boss@mail.com", role := .superAdmin }

/-- The kiosk has logged in. -/
def occupied : System.Run Db Operation Reply :=
  .replay (fun op => (serve Jwt.readable Kiosk.js (· == ·) op).run) { Kiosk.db with userCredential := {boss} }
    [Kiosk.login "1" "first"]

def account : SystemCredential := { Kiosk.kiosk with activityStatus := .loggedIn, sessionId := some "1" }

def fromWeb : Operation := .logoutSystemAccountWeb "kiosk" "org" "boss" "SuperAdmin"

def allOut : Operation := .logoutAllSystemAccounts "org" "SuperAdmin" "boss"

/-- The state after a logout that nothing disturbs. -/
def vacated (op : Operation) : Db := ((serve Jwt.readable Kiosk.js (· == ·) op).run occupied.state).2

end Lobby

section Lobby
open Lobby

theorem occupied_reach : (accounts Jwt.readable Kiosk.js (· == ·)).Reachable occupied := by
  have identified : Identified { Kiosk.db with userCredential := {boss} } := kiosk_identified
  exact .call (.init ⟨identified, rfl⟩) trivial (Prog.answers_run _ _)

theorem account_mem : account ∈ occupied.state.systemCredential := by decide

theorem exec_vacated {op : Operation} (h : ((serve Jwt.readable Kiosk.js (· == ·) op).run occupied.state).1 = .ok none) :
    Prog.Exec (serve Jwt.readable Kiosk.js (· == ·) op) occupied.state (.ok none) (vacated op) :=
  Prog.exec_of_run (Prod.ext h rfl)

/-- The kiosk that logs itself out leaves no refresh token, and neither does the logout of all kiosks. -/
theorem logouts_agree_iff_desk : (Alike account (vacated Kiosk.logout) (vacated allOut) ∧
    Revoked Jwt.readable 0 account occupied.state (vacated Kiosk.logout) ∧
    Revoked Jwt.readable 0 account occupied.state (vacated allOut)) ↔
      Agreeing 0 account occupied.state Kiosk.logout allOut :=
  logouts_agree_iff Jwt.readable Kiosk.js (· == ·) 0 occupied.state account account_mem rfl Kiosk.logout allOut rfl rfl none none
    _ _ (exec_vacated (by decide)) (exec_vacated (by decide))

/-- The logout from the web keeps the refresh token, which is then still accepted. -/
theorem web_logout_keeps_token : ¬∀ c, (accounts Jwt.readable Kiosk.js (· == ·)).Reachable c →
    ∀ account ∈ c.state.systemCredential, account.activityStatus = .loggedIn → ∀ op op', op.LogsOut account → op'.LogsOut account →
      ∀ reply reply' t u, Prog.Exec (serve Jwt.readable Kiosk.js (· == ·) op) c.state (.ok reply) t →
        Prog.Exec (serve Jwt.readable Kiosk.js (· == ·) op') c.state (.ok reply') u →
          Alike account t u ∧ Revoked Jwt.readable 0 account c.state t ∧ Revoked Jwt.readable 0 account c.state u := fun h => by
  have hexec : Prog.Exec (serve Jwt.readable Kiosk.js (· == ·) fromWeb) occupied.state (.ok none) (vacated fromWeb) :=
    exec_vacated (by decide)
  have revoked := (h occupied occupied_reach account account_mem rfl fromWeb fromWeb rfl rfl none none _ _ hexec hexec).2.1
  have expired := (serve_leaves (show fromWeb.LogsOut account from rfl) account_mem rfl hexec).revoked_iff.mp revoked trivial
    { id := "first", token := "first", systemId := some "kiosk", expiryDate := refreshTokenExpiry 0 } (by decide) rfl
  exact absurd expired (by decide)

end Lobby

end Vms.SystemService
