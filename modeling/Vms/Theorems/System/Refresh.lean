import Vms.Theorems.System.Session

/-! The access token that a refresh returns names no session, and the guard asks for one. -/

namespace Vms.SystemService
open Relational HttpException

/-- A refresh succeeds with a refresh token of an account that is in a session. -/
structure Refreshes (account : SystemCredential) (session token : String) (entry : Entry) : Prop where
  mem : account ∈ entry.before.systemCredential
  active : account.activityStatus = .loggedIn
  inSession : account.sessionId = some session
  call : ∃ io refreshToken row, entry.call = .refreshSystemAccessToken io refreshToken ∧
    entry.before.refreshToken.findBy (·.token == refreshToken) = some row ∧ row.systemId = some account.id
  reply : ∃ refreshToken, entry.reply = .ok (some { accessToken := token, refreshToken })

/-- The unexpired token of a refresh is accepted until the account is logged out or deleted. -/
def KeepsWorking (jwt : Jwt) (c : System.Run Db Operation Reply) : Prop :=
  ∀ later entry earlier, c.log = later ++ entry :: earlier → ∀ account session token, Refreshes account session token entry →
    (∃ system ∈ c.state.systemCredential, system.id = account.id) → (∀ e ∈ later, ¬LogsOut account e) →
      ∀ now, jwt.verify now token ≠ .error tokenExpired → Accepts jwt now c.state token

section Refresh
variable {s : Db} {compare : String → String → Bool}

theorem serve_refreshes {jwt : Jwt} {js : Js} {op : Operation} {account : SystemCredential} {session token : String} :
    (serve jwt js compare op).Returns (fun r _ => Refreshes account session token ⟨s, op, r⟩ →
      ∃ issued payload, token = jwt.sign "15m" issued payload ∧ payload.userId = none ∧ payload.sessionId = none) s := by
  by_cases hop : ∃ io refreshToken, op = .refreshSystemAccessToken io refreshToken
  · obtain ⟨io, refreshToken, rfl⟩ := hop
    simp only [serve, Prog.returns_bind]
    refine returns_refreshSystemAccessToken (fun e hrefresh => ?_) fun row t hrow _ hrefresh => ?_
    · obtain ⟨_, hreply⟩ := hrefresh.reply
      cases hreply
    · obtain ⟨_, hreply⟩ := hrefresh.reply
      obtain ⟨rfl, -⟩ := TokenReply.mk.inj (Option.some.inj (Except.ok.inj hreply))
      exact ⟨io.now, _, rfl, rfl, rfl⟩
  · intro hrefresh
    obtain ⟨io, refreshToken, _, hcall, -⟩ := hrefresh.call
    exact absurd ⟨io, refreshToken, hcall⟩ hop

/-- A refresh with an unexpired refresh token of an account, where the new refresh token is not in use. -/
theorem refreshSystemAccessToken_refreshes (jwt : Jwt) (js : Js) (io : SessionIo) {refreshToken session : String}
    {row : RefreshToken} {account : SystemCredential}
    (hrow : s.refreshToken.findBy (·.token == refreshToken) = some row) (hlive : row.expiryDate ≥ io.now)
    (hof : row.systemId = some account.id) (hmem : account ∈ s.systemCredential) (active : account.activityStatus = .loggedIn)
    (hsession : account.sessionId = some session) (hrotates : (s.refreshToken.modify (·.id == row.id) fun row =>
      { row with token := io.refreshToken, expiryDate := refreshTokenExpiry io.now }).isSome = true) :
    Refreshes account session (jwt.sign "15m" io.now {
        systemId := some account.id, orgId := some account.orgId, role := some account.role })
      ⟨s, .refreshSystemAccessToken io refreshToken,
        ((serve jwt js compare (.refreshSystemAccessToken io refreshToken)).run s).1⟩ := by
  refine ⟨hmem, active, hsession, ⟨io, refreshToken, row, rfl, hrow, hof⟩, io.refreshToken, ?_⟩
  obtain ⟨u, hu⟩ := Option.isSome_iff_exists.mp hrotates
  have hfind : s.systemCredential.find account.id = some account := Table.find_of_mem hmem
  have hstored : s.refreshToken.find row.id = some row := Table.find_of_mem (Table.mem_of_findBy hrow).1
  change (serve jwt js compare (.refreshSystemAccessToken io refreshToken)).Returns (fun r _ => r = _) s
  simp only [serve, refreshSystemAccessToken, rotateRefreshToken, Prog.returns_bind, Prog.returns_orFail, Prog.returns_pure,
    Prog.then_ok, Prog.then_error, returns_query, returns_mutate, hrow]
  simp [hlive, hof, hfind, hstored, hu]

end Refresh

/-- In no run does the guard ever accept the access token of a refresh. -/
theorem refreshed_refused (jwt : Jwt) (js : Js) (compare : String → String → Bool) (c : System.Run Db Operation Reply)
    (h : (accounts jwt js compare).Reachable c) (entry : Entry) (hentry : entry ∈ c.log) (account : SystemCredential)
    (session token : String) (hrefresh : Refreshes account session token entry) (now : Date) (s : Db) :
    ¬Accepts jwt now s token := by
  have hsigned := h.entries (P := fun entry => Refreshes account session token entry →
    ∃ issued payload, token = jwt.sign "15m" issued payload ∧ payload.userId = none ∧ payload.sessionId = none)
    (fun c op r t _ hr => hr.of_returns (Q := fun r _ => Refreshes account session token ⟨c.state, op, r⟩ → _)
      (fun e hfailed => by obtain ⟨_, hreply⟩ := hfailed.reply; cases hreply) serve_refreshes) entry hentry hrefresh
  obtain ⟨issued, payload, rfl, huser, hsession⟩ := hsigned
  exact not_accepts_sign huser hsession

section Kiosk
open Kiosk

def refresh : Operation := .refreshSystemAccessToken (Kiosk.io "3" "third") "first"

def refreshed : Entry := call [login "1" "first"] refresh

theorem refresh_reach : (accounts Jwt.readable Kiosk.js (· == ·)).Reach Fresh (after [login "1" "first", refresh]) := by
  refine .call (.call (.init ⟨kiosk_identified, rfl⟩) ?_ (Prog.answers_run _ _)) ?_ (Prog.answers_run _ _)
  · simp [Fresh, login, Kiosk.io, Operation.systemId?, Operation.sessionId?]
  · simp [Fresh, refresh, Operation.systemId?, Operation.sessionId?]

/-- The access token of the refresh. -/
def refreshedToken : String := Jwt.readable.sign "15m" 0 { systemId := some "kiosk", orgId := some "org", role := some "System" }

/-- The account in its session. -/
def busy : SystemCredential := { kiosk with activityStatus := .loggedIn, sessionId := some "1" }

theorem kiosk_refreshes : Refreshes busy "1" refreshedToken refreshed := by
  have hrow : (after [login "1" "first"]).state.refreshToken.findBy (·.token == "first") =
      some { id := "first", token := "first", systemId := some "kiosk", expiryDate := refreshTokenExpiry 0 } := by decide
  have hmem : busy ∈ (after [login "1" "first"]).state.systemCredential := by decide
  exact refreshSystemAccessToken_refreshes Jwt.readable Kiosk.js (Kiosk.io "3" "third") hrow (by decide) rfl hmem rfl rfl
    (by decide)

/-- While the kiosk is in its session, the guard refuses the token of the refresh. -/
theorem refreshed_refused_kiosk : ¬Accepts Jwt.readable 0 (after [login "1" "first", refresh]).state refreshedToken :=
  refreshed_refused Jwt.readable Kiosk.js (· == ·) (after [login "1" "first", refresh]) refresh_reach.reachable refreshed
    List.mem_cons_self busy "1" refreshedToken kiosk_refreshes 0 _

/-- The refreshed session of the kiosk does not keep working. -/
theorem refreshed_session_stops : ¬∀ c, (accounts Jwt.readable Kiosk.js (· == ·)).Reach Fresh c →
    KeepsWorking Jwt.readable c := fun h => by
  have hunexpired : Jwt.readable.verify 0 refreshedToken ≠ .error tokenExpired := by
    rw [refreshedToken, Jwt.readable_verify]
    simp
  have hstays : ∃ system ∈ (after [login "1" "first", refresh]).state.systemCredential, system.id = "kiosk" := by decide
  have accepted := h _ refresh_reach [] refreshed [first] rfl busy "1" refreshedToken kiosk_refreshes hstays (by simp) 0 hunexpired
  exact not_accepts_sign rfl rfl accepted

end Kiosk

end Vms.SystemService
