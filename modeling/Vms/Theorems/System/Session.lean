import Vms.Theorems.Guard
import Vms.Theorems.System.Step

/-! Which access tokens of a system account the guard accepts: that of the latest login, until a logout. -/

namespace Vms.SystemService
open Relational HttpException

/-! ### Runs -/

/-- Accounts have identifiers. -/
def Identified (s : Db) : Prop := ∀ system ∈ s.systemCredential, system.id ≠ ""

/-- One operation after another. -/
def accounts (jwt : Jwt) (js : Js) (compare : String → String → Bool) : System (System.Run Db Operation Reply) Operation :=
  System.logged Identified fun s op r t => (serve jwt js compare op).Answers s r t

/-- What is drawn at random is not empty, and was not there before. -/
def Fresh (c : System.Run Db Operation Reply) (op : Operation) : Prop :=
  (∀ id, op.systemId? = some id → id ≠ "" ∧ ∀ entry ∈ c.log, ∀ system ∈ entry.before.systemCredential, system.id ≠ id) ∧
  ∀ session, op.sessionId? = some session → session ≠ "" ∧ ∀ entry ∈ c.log, entry.call.sessionId? ≠ some session

/-- What holds of a login after some later calls, in the state that they lead to. -/
structure Tracked (jwt : Jwt) (account : SystemCredential) (session token : String) (entry : Entry) (later : List Entry)
    (s : Db) : Prop where
  mem : account ∈ entry.before.systemCredential
  named : account.id ≠ ""
  drawn : entry.call.sessionId? = some session
  session_ne : session ≠ ""
  signed : ∃ issued, token = jwt.sign "7d" issued {
    systemId := some account.id, orgId := some account.orgId, role := some account.role, sessionId := some session }
  fresh : ∀ e ∈ later, e.call.sessionId? ≠ some session
  org : ∀ b ∈ s.systemCredential, b.id = account.id → b.orgId = account.orgId
  inSession_iff : ∀ b ∈ s.systemCredential, b.id = account.id →
    (b.activityStatus = .loggedIn ∧ b.sessionId = some session ↔ ∀ e ∈ later, ¬LogsOut account e)

section Runs
variable {jwt : Jwt} {js : Js} {compare : String → String → Bool} {c : System.Run Db Operation Reply} {s t : Db}
  {op : Operation} {r : Reply} {account : SystemCredential} {session token : String} {entry : Entry} {later : List Entry}

theorem moved_of_answers (h : (serve jwt js compare op).Answers s r t) : Moved ⟨s, op, r⟩ t :=
  h.of_returns (Q := fun r t => Moved ⟨s, op, r⟩ t) (fun _ => .fails rfl) serve_moved

theorem identified (h : (accounts jwt js compare).Reach Fresh c) : Identified c.state := by
  refine h.invariant (I := fun c => Identified c.state) (fun c hinit => hinit.1) fun c op d _ inv fresh hstep b hb => ?_
  obtain ⟨r, hr, -⟩ := hstep
  rcases moved_of_answers hr b hb with hnew | ⟨a, ha, hid, -⟩
  · exact (fresh.1 _ hnew).1
  · exact hid ▸ inv a ha

theorem LogsIn.drawn (h : LogsIn js account session token entry) : entry.call.sessionId? = some session := by
  obtain ⟨io, email, password, hcall, rfl, -⟩ := h.call
  rw [hcall]
  rfl

/-- A login starts a session. -/
theorem LogsIn.tracked (hlogin : LogsIn js account session token ⟨s, op, r⟩) (hs : Identified s) (fresh : Fresh c op)
    (hr : (serve jwt js compare op).Answers s r t) : Tracked jwt account session token ⟨s, op, r⟩ [] t := by
  have fails : ∀ e, ¬LogsIn js account session token ⟨s, op, .error e⟩ := fun e h => by
    obtain ⟨_, hreply⟩ := h.reply
    cases hreply
  obtain ⟨hmem, hsigned, hafter⟩ := hr.of_returns (Q := fun r t => LogsIn js account session token ⟨s, op, r⟩ → _)
    (fun e h => absurd h (fails e)) serve_logsIn hlogin
  exact {
    mem := hmem
    named := hs account hmem
    drawn := hlogin.drawn
    session_ne := (fresh.2 session hlogin.drawn).1
    signed := hsigned
    fresh := by simp
    org := fun b hb hid => (hafter b hb hid).1
    inSession_iff := fun b hb hid => by simpa using (hafter b hb hid).2 }

theorem logsOut_congr {a : SystemCredential} (hid : a.id = account.id) (horg : a.orgId = account.orgId) :
    LogsOut a entry ↔ LogsOut account entry := by
  unfold LogsOut Operation.LogsOut
  rw [hid, horg]

/-- A later call keeps track of it: a logout ends the session, and a login starts another. -/
theorem Tracked.keeps (h : Tracked jwt account session token entry later s) (hentry : entry ∈ c.log) (fresh : Fresh c op)
    (moved : Moved ⟨s, op, r⟩ t) : Tracked jwt account session token entry (⟨s, op, r⟩ :: later) t := by
  have drawsOther : op.sessionId? ≠ some session := fun hdrawn => (fresh.2 session hdrawn).2 entry hentry h.drawn
  have origin : ∀ b ∈ t.systemCredential, b.id = account.id →
      ∃ a ∈ s.systemCredential, a.id = account.id ∧ a.orgId = b.orgId ∧ Move ⟨s, op, r⟩ a b := by
    intro b hb hid
    rcases moved b hb with hnew | ⟨a, ha, hab, horg, move⟩
    · exact absurd hid.symm ((fresh.1 _ hnew).2 entry hentry account h.mem)
    · exact ⟨a, ha, hab.trans hid, horg, move⟩
  refine { h with
    fresh := fun e he => ?_
    org := fun b hb hid => ?_
    inSession_iff := fun b hb hid => ?_ }
  · rcases List.mem_cons.mp he with rfl | he
    · exact drawsOther
    · exact h.fresh e he
  · obtain ⟨a, ha, haid, horg, -⟩ := origin b hb hid
    exact horg.symm.trans (h.org a ha haid)
  · obtain ⟨a, ha, haid, -, move⟩ := origin b hb hid
    have haorg := h.org a ha haid
    rw [List.forall_mem_cons, ← h.inSession_iff a ha haid, ← logsOut_congr haid haorg]
    cases move with
    | stays noLogout status session => rw [status, session, and_iff_right noLogout]
    | leaves logout status => exact iff_of_false (fun h => status h.1) fun h => h.1 logout
    | enters idle status drawn hsession =>
      refine iff_of_false (fun h => drawsOther ?_) fun h => idle h.2.1
      rw [drawn, ← hsession, h.2]

/-- Every login of a run is kept track of. -/
theorem tracked (h : (accounts jwt js compare).Reach Fresh c) {earlier : List Entry} (hlog : c.log = later ++ entry :: earlier)
    (hlogin : LogsIn js account session token entry) : Tracked jwt account session token entry later c.state := by
  refine System.Reach.after (J := fun entry later s => LogsIn js account session token entry →
    Tracked jwt account session token entry later s) h (fun c op r t hr fresh ht hlogin => ?_)
    (fun c op r t entry later hr hentry inv fresh ht hlogin => ?_) later entry earlier hlog hlogin
  · exact hlogin.tracked (identified hr) fresh ht
  · exact (inv hlogin).keeps hentry fresh (moved_of_answers ht)

/-- The guard accepts the token of a login as long as it has not expired and the account is in its session. -/
theorem Tracked.accepts_iff (h : Tracked jwt account session token entry later s) {now : Date} :
    Accepts jwt now s token ↔ jwt.verify now token ≠ .error tokenExpired ∧
      (∃ system ∈ s.systemCredential, system.id = account.id) ∧ ∀ e ∈ later, ¬LogsOut account e := by
  obtain ⟨issued, rfl⟩ := h.signed
  rw [accepts_system_iff rfl h.named rfl h.session_ne]
  refine and_congr_right fun _ => ⟨?_, ?_⟩
  · rintro ⟨system, hmem, hid, hin⟩
    exact ⟨⟨system, hmem, hid⟩, (h.inSession_iff system hmem hid).mp hin⟩
  · rintro ⟨⟨system, hmem, hid⟩, noLogout⟩
    exact ⟨system, hmem, hid, (h.inSession_iff system hmem hid).mpr noLogout⟩

/-- An account is in one session only. -/
theorem Tracked.superseded (h : Tracked jwt account session token entry later s) {other : SystemCredential}
    {session' token' : String} {newer : Entry} {latest : List Entry}
    (hnewer : Tracked jwt other session' token' newer latest s) (hmem : newer ∈ later)
    (hlatest : ∀ e ∈ latest, e ∈ later) (hid : other.id = account.id) {now : Date} : ¬Accepts jwt now s token := by
  intro haccepts
  obtain ⟨-, ⟨system, hsystem, hsystemId⟩, noLogout⟩ := h.accepts_iff.mp haccepts
  have hotherId : system.id = other.id := hsystemId.trans hid.symm
  have horg : other.orgId = account.orgId := (hnewer.org system hsystem hotherId).symm.trans (h.org system hsystem hsystemId)
  have noLogout' : ∀ e ∈ latest, ¬LogsOut other e := fun e he hlogout =>
    noLogout e (hlatest e he) ((logsOut_congr hid horg).mp hlogout)
  have hold := ((h.inSession_iff system hsystem hsystemId).mpr noLogout).2
  have hnew := ((hnewer.inSession_iff system hsystem hotherId).mpr noLogout').2
  exact h.fresh newer hmem (hnewer.drawn.trans (hnew.symm.trans hold))

end Runs

/-- In every run, the guard accepts the unexpired token of a login if and only if the account still exists
    and has not been logged out since; and never again after another login of the account, or a logout. -/
theorem sessions_exclusive (jwt : Jwt) (js : Js) (compare : String → String → Bool) (c : System.Run Db Operation Reply)
    (h : (accounts jwt js compare).Reach Fresh c) (later earlier : List Entry) (entry : Entry)
    (hlog : c.log = later ++ entry :: earlier) (account : SystemCredential) (session token : String)
    (hlogin : LogsIn js account session token entry) :
    (∀ now, jwt.verify now token ≠ .error tokenExpired → (Accepts jwt now c.state token ↔
      (∃ system ∈ c.state.systemCredential, system.id = account.id) ∧ ∀ e ∈ later, ¬LogsOut account e)) ∧
    (∀ newer ∈ later, ∀ other session' token', LogsIn js other session' token' newer → other.id = account.id →
      ∀ now, ¬Accepts jwt now c.state token) ∧
    ((∃ e ∈ later, LogsOut account e) → ∀ now, ¬Accepts jwt now c.state token) := by
  have htracked := tracked h hlog hlogin
  refine ⟨fun now hunexpired => ?_, fun newer hnewer other session' token' hother hid now => ?_, ?_⟩
  · rw [htracked.accepts_iff, and_iff_right hunexpired]
  · obtain ⟨latest, between, rfl⟩ := List.append_of_mem hnewer
    have hlog' : c.log = latest ++ newer :: (between ++ entry :: earlier) := by simpa using hlog
    exact htracked.superseded (tracked h hlog' hother) hnewer (fun e he => List.mem_append_left _ he) hid
  · rintro ⟨e, he, hlogout⟩ now haccepts
    exact (htracked.accepts_iff.mp haccepts).2.2 e he hlogout

/-! ### A kiosk that logs in twice -/

section Reply
variable {s : Db} {compare : String → String → Bool}

/-- A login of an idle account with its password, where the refresh token is not in use. -/
theorem loginSystemUser_logsIn (jwt : Jwt) (js : Js) (io : SessionIo) {email password : String} {account : SystemCredential}
    (hfind : s.systemCredential.findBy (·.email == js.trim (js.toLowerCase email)) = some account)
    (hpassword : compare password account.password = true) (idle : account.activityStatus ≠ .loggedIn)
    (hinsert : (s.refreshToken.insert {
      id := io.refreshTokenId, token := io.refreshToken, expiryDate := refreshTokenExpiry io.now
      systemId := some account.id }).isSome = true) :
    LogsIn js account io.sessionId (jwt.sign "7d" io.now {
        systemId := some account.id, orgId := some account.orgId, role := some account.role, sessionId := some io.sessionId })
      ⟨s, .loginSystemUser io email password, ((serve jwt js compare (.loginSystemUser io email password)).run s).1⟩ := by
  refine ⟨⟨io, email, password, rfl, rfl, hfind⟩, io.refreshToken, ?_⟩
  obtain ⟨u, hu⟩ := Option.isSome_iff_exists.mp hinsert
  have hstored : s.systemCredential.find account.id = some account := Table.find_of_mem (Table.mem_of_findBy hfind).1
  change (serve jwt js compare (.loginSystemUser io email password)).Returns (fun r _ => r = _) s
  simp only [serve, loginSystemUser, createRefreshToken, updateSystem, Prog.returns_bind, Prog.returns_failIf,
    Prog.returns_orFail, Prog.returns_pure, Prog.then_ok, Prog.then_error, returns_query, returns_mutate, created, hfind]
  simp [hpassword, idle, hstored, hu]

end Reply

namespace Kiosk

def kiosk : SystemCredential := { id := "kiosk", orgId := "org", email := "kiosk@mail.com", password := "secret" }

def db : Db where
  organization := {{ id := "org", name := "Org", email := "org@mail.com" }}
  systemCredential := {kiosk}

def js : Js := { toLowerCase := id, trim := id, toLocaleString := fun _ => "" }

def io (sessionId refreshToken : String) : SessionIo := { now := 0, sessionId, refreshTokenId := refreshToken, refreshToken }

def login (sessionId refreshToken : String) : Operation := .loginSystemUser (io sessionId refreshToken) "kiosk@mail.com" "secret"

def logout : Operation := .logoutSystemAccount "org" "kiosk" "System"

/-- The access token of the session. -/
def token (sessionId : String) : String := Jwt.readable.sign "7d" 0 {
  systemId := some "kiosk", orgId := some "org", role := some "System", sessionId := some sessionId }

end Kiosk

section Kiosk
open Kiosk

theorem kiosk_identified : Identified db := fun system h => by
  obtain rfl := Table.mem_singleton.mp h
  decide

/-- The kiosk after some operations, each of which ends as it does without failures. -/
def after (ops : List Operation) : System.Run Db Operation Reply :=
  .replay (fun op => (serve Jwt.readable Kiosk.js (· == ·) op).run) db ops

theorem kiosk_reach : (accounts Jwt.readable Kiosk.js (· == ·)).Reach Fresh
    (after [login "1" "first", logout, login "2" "second"]) := by
  refine .call (.call (.call (.init ⟨kiosk_identified, rfl⟩) ?_ (Prog.answers_run _ _)) ?_ (Prog.answers_run _ _)) ?_
    (Prog.answers_run _ _)
  · simp [Fresh, login, Kiosk.io, Operation.systemId?, Operation.sessionId?]
  · simp [Fresh, logout, Operation.systemId?, Operation.sessionId?]
  · simp [Fresh, login, logout, Kiosk.io, Operation.systemId?, Operation.sessionId?]

/-- An operation, called after some others. -/
def call (ops : List Operation) (op : Operation) : Entry where
  before := (after ops).state
  call := op
  reply := ((serve Jwt.readable Kiosk.js (· == ·) op).run (after ops).state).1

/-- The calls of the run. -/
def first : Entry := call [] (login "1" "first")

def left : Entry := call [login "1" "first"] logout

def second : Entry := call [login "1" "first", logout] (login "2" "second")

/-- After a logout and another login, the guard refuses the token of the first login, and accepts the other. -/
theorem sessions_exclusive_kiosk :
    ¬Accepts Jwt.readable 0 (after [login "1" "first", logout, login "2" "second"]).state (token "1") ∧
    Accepts Jwt.readable 0 (after [login "1" "first", logout, login "2" "second"]).state (token "2") := by
  have hfirst : LogsIn Kiosk.js kiosk "1" (token "1") first :=
    loginSystemUser_logsIn Jwt.readable Kiosk.js (Kiosk.io "1" "first") (by decide) (by decide) (by decide) (by decide)
  have hsecond : LogsIn Kiosk.js kiosk "2" (token "2") second :=
    loginSystemUser_logsIn Jwt.readable Kiosk.js (Kiosk.io "2" "second") (by decide) (by decide) (by decide) (by decide)
  have hleft : LogsOut kiosk left := ⟨rfl, none, rfl⟩
  have hstays : ∃ system ∈ (after [login "1" "first", logout, login "2" "second"]).state.systemCredential,
      system.id = kiosk.id := by decide
  have hunexpired : Jwt.readable.verify 0 (token "2") ≠ .error tokenExpired := by
    rw [token, Jwt.readable_verify]
    simp
  have ended := sessions_exclusive Jwt.readable Kiosk.js (· == ·) _ kiosk_reach [second, left] [] first rfl
    kiosk "1" (token "1") hfirst
  have current := sessions_exclusive Jwt.readable Kiosk.js (· == ·) _ kiosk_reach [] [left, first] second rfl
    kiosk "2" (token "2") hsecond
  exact ⟨ended.2.2 ⟨left, by simp, hleft⟩ 0, (current.1 0 hunexpired).mpr ⟨hstays, by simp⟩⟩

end Kiosk

end Vms.SystemService
