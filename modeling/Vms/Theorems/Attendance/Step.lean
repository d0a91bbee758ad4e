import Vms.Attendance
import Vms.Lib.System

/-! What one call of `action` does. Whatever fails, a refused call changes nothing; an accepted call
    opens a session, marks an open one, closes one, or closes one and opens another. Everything later
    about runs of attendance actions rests on `action_inv`. -/

namespace Vms.Attendance
open Relational HttpException

/-! ### Elementary updates -/

/-- `t` is `s` with a new session and its first event. -/
structure Opens (s t : Db) (x : AttendanceSession) (e : AttendanceEvent) : Prop where
  session : s.attendanceSession.insert x = some t.attendanceSession
  event : s.attendanceEvent.insert e = some t.attendanceEvent
  rest : t = { s with attendanceSession := t.attendanceSession, attendanceEvent := t.attendanceEvent }

/-- `t` is `s` with one more event. -/
structure Marks (s t : Db) (e : AttendanceEvent) : Prop where
  event : s.attendanceEvent.insert e = some t.attendanceEvent
  rest : t = { s with attendanceEvent := t.attendanceEvent }

/-- `t` is `s` with the session `x` closed as `x'` at the event `e`. -/
structure Closes (s t : Db) (x x' : AttendanceSession) (e : AttendanceEvent) : Prop where
  sessions : ∀ y, y ∈ t.attendanceSession ↔ y = x' ∨ (y ∈ s.attendanceSession ∧ y.id ≠ x.id)
  row : ∃ closureType isLateClosure latePunchOutReason latePunchOutRecordedAt, x' = { x with
    status := .closed, lastPunchOutAt := some e.timestamp, totalWorkSeconds := x'.totalWorkSeconds,
    totalBreakSeconds := x'.totalBreakSeconds, closureType, isLateClosure, latePunchOutReason, latePunchOutRecordedAt }
  totals : ∃ events, events.Perm (eventsOf s x.id) ∧ events.Pairwise (·.timestamp ≤ ·.timestamp) ∧
    (x'.totalWorkSeconds, x'.totalBreakSeconds) = recalcTotals ((events ++ [e]).map (·.mark))
  event : s.attendanceEvent.insert e = some t.attendanceEvent
  rest : t = { s with attendanceSession := t.attendanceSession, attendanceEvent := t.attendanceEvent }

/-! ### Guards -/

/-- The zone of an organisation, if it has a valid one. -/
def orgZone (luxon : Luxon) (s : Db) (orgId : String) : Option Zone :=
  (truthy ((s.organization.find orgId).bind (·.timezone))).bind luxon

/-- The system account may act for the organisation, and the code is that of an active badge of it. -/
structure Badge (s : Db) (orgId systemId role code : String) (staff : Staff) : Prop where
  isSystem : role = "System"
  organization : (s.organization.find orgId).isSome
  system : ∃ system, s.systemCredential.find systemId = some system ∧ system.orgId = orgId
  given : code ≠ ""
  found : s.staff.findBy (·.employeeCode == some code) = some staff
  active : staff.badgeActive = true
  org : staff.orgId = orgId

/-- A request names an open session of the staff member. -/
structure Names (s : Db) (staffId : String) (sessionId : Option String) (x : AttendanceSession) : Prop where
  mem : x ∈ s.attendanceSession
  id : truthy sessionId = some x.id
  owner : x.staffId = staffId
  isOpen : x.status = .open

/-- A punch-in at `time` passes: no session of the staff member up to that day is open. -/
structure MayPunchIn (luxon : Luxon) (s : Db) (io : Io) (dto : AttendanceActionDto) (staff : Staff) (zone : Zone)
    (time : Date) : Prop where
  atTime : dto.time.getD (some io.now) = some time
  inZone : orgZone luxon s staff.orgId = some zone
  noneOpen : ∀ x ∈ s.attendanceSession, x.staffId = staff.id → x.status = .open → zone.startOfDay time < x.date

/-- A break mark at `time` passes: the last event of the session admits it. -/
structure MayMark (s : Db) (io : Io) (dto : AttendanceActionDto) (staff : Staff)
    (admits : AttendanceEventType → Bool) (x : AttendanceSession) (time : Date) : Prop where
  atTime : dto.time.getD (some io.now) = some time
  names : Names s staff.id dto.sessionId x
  last : ∃ last, lastEvent io s x.id = some last ∧ admits last.eventType = true

/-- A punch-out at `time` passes. -/
structure MayPunchOut (s : Db) (io : Io) (dto : AttendanceActionDto) (staff : Staff) (x : AttendanceSession)
    (time : Date) : Prop where
  atTime : dto.time.getD (some io.now) = some time
  names : Names s staff.id dto.sessionId x

/-- A late punch-out at `approxOut` followed by a punch-in at `punchIn` passes. -/
structure MayPunchOutLate (luxon : Luxon) (s : Db) (dto : AttendanceActionDto) (staff : Staff)
    (x : AttendanceSession) (zone : Zone) (approxOut punchIn : Date) : Prop where
  outTime : dto.approxPunchOutTime = some (some approxOut)
  inTime : dto.currentPunchInTime = some (some punchIn)
  inZone : orgZone luxon s staff.orgId = some zone
  before : approxOut < punchIn
  names : Names s staff.id dto.previousSessionId x
  after : ∀ first, x.firstPunchInAt = some first → first < approxOut

/-! ### Accepted actions -/

/-- One request to `action`. -/
structure Request where
  io : Io
  orgId : String
  systemId : String
  role : String
  dto : AttendanceActionDto

def Request.call (luxon : Luxon) (q : Request) : Service ActionReply :=
  action luxon q.io q.orgId q.systemId q.role q.dto

/-- The staff member for whom a request may act. -/
abbrev Request.Badge (q : Request) (s : Db) (staff : Staff) : Prop :=
  Attendance.Badge s q.orgId q.systemId q.role q.dto.employeeCode staff

/-- What an accepted request of a staff member does. -/
inductive Acted (luxon : Luxon) (s : Db) (q : Request) (staff : Staff) (t : Db) : Prop where
  | punchIn (zone : Zone) (time : Date) (action : q.dto.action = .punchIn)
    (may : MayPunchIn luxon s q.io q.dto staff zone time)
    (opens : Opens s t (newSession q.io.sessionId staff.orgId staff.id (zone.startOfDay time) time)
      (newEvent q.io.eventId staff.orgId staff.id q.io.sessionId .punchIn time))
  | breakStart (x : AttendanceSession) (time : Date) (action : q.dto.action = .breakStart)
    (may : MayMark s q.io q.dto staff (fun last => last == .punchIn || last == .breakEnd) x time)
    (marks : Marks s t (newEvent q.io.eventId staff.orgId staff.id x.id .breakStart time))
  | breakEnd (x : AttendanceSession) (time : Date) (action : q.dto.action = .breakEnd)
    (may : MayMark s q.io q.dto staff (fun last => last == .breakStart) x time)
    (marks : Marks s t (newEvent q.io.eventId staff.orgId staff.id x.id .breakEnd time))
  | punchOut (x x' : AttendanceSession) (time : Date) (action : q.dto.action = .punchOut)
    (may : MayPunchOut s q.io q.dto staff x time)
    (closes : Closes s t x x' (newEvent q.io.eventId staff.orgId staff.id x.id .punchOut time))
  | late (x x' : AttendanceSession) (zone : Zone) (approxOut punchIn : Date) (u : Db)
    (action : q.dto.action = .latePunchOutAndPunchIn)
    (may : MayPunchOutLate luxon s q.dto staff x zone approxOut punchIn)
    (closes : Closes s u x x' (newLateEvent q.io.lateEventId staff.orgId staff.id x.id approxOut q.dto.reason))
    (opens : Opens u t (newSession q.io.sessionId staff.orgId staff.id (zone.startOfDay punchIn) punchIn)
      (newEvent q.io.eventId staff.orgId staff.id q.io.sessionId .punchIn punchIn))

/-! ### Checks -/

section Checks
variable {s : Db} {orgId systemId role code staffId sessionId missing notOpen : String}

theorem checkSystem_spec : (checkSystem orgId systemId role).Post (AllOrNothing s fun _ t => t = s ∧
    role = "System" ∧ (s.organization.find orgId).isSome ∧
      ∃ system, s.systemCredential.find systemId = some system ∧ system.orgId = orgId) s := by
  simp only [checkSystem, Prog.post_bind, Prog.post_failIf, Prog.then_ok, Prog.then_error, post_query,
    Prog.post_orFail, Prog.post_pure, allOrNothing_ok, allOrNothing_error, and_true, implies_true,
    Option.filter_eq_some_iff, beq_iff_eq, true_and]
  intro hrole org horg system hsystem
  exact ⟨by simpa using hrole, by rw [horg]; rfl, system, hsystem.1, hsystem.2⟩

theorem getStaffByEmployeeCode_spec : (getStaffByEmployeeCode orgId (some code) none).Post
    (AllOrNothing s fun staff t => t = s ∧ code ≠ "" ∧ s.staff.findBy (·.employeeCode == some code) = some staff ∧
      staff.badgeActive = true ∧ staff.orgId = orgId) s := by
  simp only [getStaffByEmployeeCode, Prog.post_bind, post_query, Prog.then_ok, Prog.then_error, Prog.post_orFail,
    allOrNothing_error, and_true, implies_true, true_and]
  intro org horg
  rw [Table.find_eq_some] at horg
  split
  · rename_i given hgiven
    obtain ⟨hcode, hne⟩ := truthy_eq_some.mp hgiven
    obtain rfl := Option.some.inj hcode
    simp only [post_query, Prog.then_ok, Prog.then_error, Prog.post_bind, Prog.post_orFail, Prog.post_failIf,
      Prog.post_pure, allOrNothing_ok, allOrNothing_error, and_true, implies_true, true_and]
    intro staff hstaff hactive horgId
    exact ⟨hne, hstaff, by simpa using hactive, by rw [← not_not.mp horgId]; exact horg.2⟩
  · simp [truthy]

theorem openSession_spec {Q : Except HttpException AttendanceSession → Db → Prop} (refused : ∀ e, Q (.error e) s)
    (found : ∀ x, x ∈ s.attendanceSession → x.id = sessionId → x.staffId = staffId → x.status = .open → Q (.ok x) s) :
    (openSession staffId sessionId missing notOpen).Returns Q s := by
  simp only [openSession, Prog.returns_bind, returns_query, Prog.then_ok, Prog.then_error, Prog.returns_orFail,
    Prog.returns_failIf, Prog.returns_pure, Option.filter_eq_some_iff, beq_iff_eq]
  refine ⟨fun _ => refused _, fun x hx => ⟨fun _ => refused _, fun hopen => ?_⟩⟩
  obtain ⟨hmem, hid⟩ := Table.find_eq_some.mp hx.1
  exact found x hmem hid hx.2 (not_not.mp hopen)

end Checks

/-! ### Statements -/

section Statements
variable {s : Db}

theorem createSession_spec {x : AttendanceSession} {Q : Except HttpException AttendanceSession → Db → Prop}
    (refused : ∀ e, Q (.error e) s)
    (added : ∀ u, s.attendanceSession.insert x = some u → Q (.ok x) { s with attendanceSession := u }) :
    (createSession x).Returns Q s := by
  rw [createSession, returns_mutate]
  refine ⟨fun e _ => refused e, fun a t h => ?_⟩
  obtain ⟨-, rfl, u, hu, rfl⟩ := created_eq_ok.mp h
  exact added u hu

theorem createEvent_spec {a : AttendanceEvent} {Q : Except HttpException AttendanceEvent → Db → Prop}
    (refused : ∀ e, Q (.error e) s)
    (added : ∀ u, s.attendanceEvent.insert a = some u → Q (.ok a) { s with attendanceEvent := u }) :
    (createEvent a).Returns Q s := by
  rw [createEvent, returns_mutate]
  refine ⟨fun e _ => refused e, fun a t h => ?_⟩
  obtain ⟨-, rfl, u, hu, rfl⟩ := created_eq_ok.mp h
  exact added u hu

theorem closeSession_spec {x : AttendanceSession} {totals : Int × Int} {close : AttendanceSession → AttendanceSession}
    {keys : Row.Fixes close} {Q : Except HttpException Unit → Db → Prop} (hx : x ∈ s.attendanceSession)
    (refused : ∀ e, Q (.error e) s)
    (closed : ∀ u : Table AttendanceSession, (∀ y, y ∈ u ↔ y = close x ∨ (y ∈ s.attendanceSession ∧ y.id ≠ x.id)) →
      Q (.ok ()) { s with attendanceSession := u }) : (closeSession x.id totals close keys).Returns Q s := by
  rw [closeSession, returns_mutate]
  refine ⟨fun e _ => refused e, fun _ t h => ?_⟩
  split at h
  · cases h
  · split at h
    · cases h
    · obtain ⟨-, rfl⟩ := Prod.mk.inj (Except.ok.inj h)
      exact closed _ (Table.mem_update_one keys hx fun _ _ => beq_iff_eq)

end Statements

/-! ### Handlers -/

section Handlers
variable {luxon : Luxon} {s : Db} {io : Io} {dto : AttendanceActionDto} {staff : Staff}

/-- A query for the first row finds nothing only where no row qualifies. -/
theorem not_mem_of_first {o : RowOrder AttendanceSession} {p : AttendanceSession → Bool}
    (h : ¬(o.first (s.attendanceSession.filter p)).isSome = true) {x : AttendanceSession}
    (hx : x ∈ s.attendanceSession) : p x = false := by
  rw [Bool.not_eq_true, Option.isSome_eq_false_iff, Option.isNone_iff_eq_none, RowOrder.first_eq_none] at h
  by_contra hp
  have hmem := Table.mem_filter.mpr ⟨hx, by simpa using hp⟩
  rw [h] at hmem
  cases hmem

theorem orgZone_of {org : Option Organization} {tz : String} {zone : Zone} (horg : s.organization.find staff.orgId = org)
    (htz : truthy (org.bind (·.timezone)) = some tz) (hzone : luxon tz = some zone) :
    orgZone luxon s staff.orgId = some zone := by
  rw [orgZone, horg, htz]
  exact hzone

theorem handlePunchIn_spec : (handlePunchIn luxon io staff.id staff.orgId dto).Post (AllOrNothing s fun _ t =>
    ∃ zone time, MayPunchIn luxon s io dto staff zone time ∧
      Opens s t (newSession io.sessionId staff.orgId staff.id (zone.startOfDay time) time)
        (newEvent io.eventId staff.orgId staff.id io.sessionId .punchIn time)) s := by
  simp only [handlePunchIn, actionTime, Prog.post_bind, Prog.post_orFail, Prog.then_ok, Prog.then_error, post_query,
    post_transaction, allOrNothing_error, and_true, implies_true, true_and, Prog.returns_bind, Prog.returns_orFail,
    Prog.rollback_error, returns_query, Prog.returns_failIf]
  intro time htime tz htz today htoday
  obtain ⟨zone, hzone, rfl⟩ := Option.map_eq_some_iff.mp htoday
  intro hold htoday
  refine createSession_spec (fun _ => rfl) fun u hu => ?_
  rw [Prog.then_ok, Prog.returns_bind]
  refine createEvent_spec (fun _ => rfl) fun v hv => ?_
  refine ⟨zone, time, ⟨htime, orgZone_of rfl htz hzone, fun x hx howner hopen => ?_⟩, ⟨hu, hv, rfl⟩⟩
  have h1 := not_mem_of_first hold hx
  have h2 := not_mem_of_first htoday hx
  simp only [howner, hopen, beq_self_eq_true, Bool.true_and, decide_eq_false_iff_not, beq_eq_false_iff_ne] at h1 h2
  exact lt_of_le_of_ne (not_lt.mp h1) h2.symm

theorem handleBreak_spec {eventType : AttendanceEventType} {admits : AttendanceEventType → Bool}
    {required refused : String} {reply : Date → ActionReply} :
    (handleBreak eventType admits required refused reply io staff.id staff.orgId dto).Post (AllOrNothing s fun _ t =>
      ∃ x time, MayMark s io dto staff admits x time ∧
        Marks s t (newEvent io.eventId staff.orgId staff.id x.id eventType time)) s := by
  simp only [handleBreak, actionTime, Prog.post_bind, Prog.post_orFail, Prog.then_ok, Prog.then_error,
    post_transaction, allOrNothing_error, and_true, implies_true, true_and, Prog.returns_bind]
  intro sessionId hsession time htime
  refine openSession_spec (fun _ => rfl) fun x hx hid howner hopen => ?_
  simp only [Prog.then_ok, returns_query, Prog.returns_bind, Prog.returns_orFail, Prog.then_error,
    Prog.rollback_error, allOrNothing_error, implies_true, true_and, Option.filter_eq_some_iff]
  rintro last ⟨hlast, hadmits⟩
  refine createEvent_spec (fun _ => rfl) fun u hu => ?_
  exact ⟨x, time, ⟨htime, ⟨hx, by rw [hsession, hid], howner, hopen⟩, last, hlast, hadmits⟩, ⟨hu, rfl⟩⟩

theorem handlePunchOut_spec : (handlePunchOut io staff.id staff.orgId dto).Post (AllOrNothing s fun _ t =>
    ∃ x x' time, MayPunchOut s io dto staff x time ∧
      Closes s t x x' (newEvent io.eventId staff.orgId staff.id x.id .punchOut time)) s := by
  simp only [handlePunchOut, actionTime, Prog.post_bind, Prog.post_orFail, Prog.then_ok, Prog.then_error,
    post_transaction, allOrNothing_error, and_true, implies_true, true_and, Prog.returns_bind]
  intro sessionId hsession time htime
  refine openSession_spec (fun _ => rfl) fun x hx hid howner hopen => ?_
  simp only [Prog.then_ok, returns_query, Prog.returns_bind]
  refine createEvent_spec (fun _ => rfl) fun u hu => ?_
  rw [Prog.then_ok, Prog.returns_bind]
  refine closeSession_spec hx (fun _ => rfl) fun v hv => ?_
  refine ⟨x, _, time, ⟨htime, hx, by rw [hsession, hid], howner, hopen⟩, hv, ⟨_, _, _, _, rfl⟩,
    ⟨_, RowOrder.perm_asc, RowOrder.pairwise_asc, rfl⟩, hu, rfl⟩

theorem handleLatePunchOutAndPunchIn_spec : (handleLatePunchOutAndPunchIn luxon io staff.id staff.orgId dto).Post
    (AllOrNothing s fun _ t => ∃ x x' zone approxOut punchIn u,
      MayPunchOutLate luxon s dto staff x zone approxOut punchIn ∧
      Closes s u x x' (newLateEvent io.lateEventId staff.orgId staff.id x.id approxOut dto.reason) ∧
      Opens u t (newSession io.sessionId staff.orgId staff.id (zone.startOfDay punchIn) punchIn)
        (newEvent io.eventId staff.orgId staff.id io.sessionId .punchIn punchIn)) s := by
  simp only [handleLatePunchOutAndPunchIn, Prog.post_bind, Prog.post_orFail, Prog.then_ok, Prog.then_error, post_query,
    Prog.post_failIf, post_transaction, allOrNothing_error, and_true, implies_true, true_and, Prog.returns_bind]
  rintro ⟨sessionId, approx, current⟩ hgiven
  split at hgiven
  swap
  · cases hgiven
  rename_i hsession happrox hcurrent
  cases hgiven
  intro hbefore approxOut hout punchIn hin tz htz
  subst hout hin
  refine openSession_spec (fun _ => rfl) fun x hx hid howner hopen => ?_
  simp only [Prog.then_ok, returns_query, Prog.returns_bind, Prog.returns_failIf, Prog.then_error,
    Prog.rollback_error, allOrNothing_error, implies_true, true_and]
  intro hafter
  refine createEvent_spec (fun _ => rfl) fun e he => ?_
  rw [Prog.then_ok, Prog.returns_bind]
  refine closeSession_spec hx (fun _ => rfl) fun w hw => ?_
  simp only [Prog.then_ok, Prog.returns_bind, Prog.returns_orFail, Prog.then_error, Prog.rollback_error,
    allOrNothing_error, implies_true, true_and]
  intro today htoday
  obtain ⟨zone, hzone, rfl⟩ := Option.map_eq_some_iff.mp htoday
  refine createSession_spec (fun _ => rfl) fun u hu => ?_
  rw [Prog.then_ok, Prog.returns_bind]
  refine createEvent_spec (fun _ => rfl) fun v hv => ?_
  refine ⟨x, _, zone, approxOut, punchIn, _, ⟨happrox, hcurrent, orgZone_of rfl htz hzone, ?_,
    ⟨hx, by rw [hsession, hid], howner, hopen⟩, fun first hfirst => ?_⟩, ⟨hw, ⟨_, _, _, _, rfl⟩,
    ⟨_, RowOrder.perm_asc, RowOrder.pairwise_asc, rfl⟩, he, rfl⟩, ⟨hu, hv, rfl⟩⟩
  · simpa [notBefore] using hbefore
  · simpa [hfirst] using hafter

/-- A refused request changes nothing; an accepted one has its badge checked and acts. -/
theorem action_spec {q : Request} : (q.call luxon).Post
    (AllOrNothing s fun _ t => ∃ staff, q.Badge s staff ∧ Acted luxon s q staff t) s := by
  rw [Request.call, action, Prog.post_bind]
  refine checkSystem_spec.mono fun r t hr => ?_
  cases r with
  | error e => exact hr
  | ok org =>
    obtain ⟨rfl, hrole, horg, hsystem⟩ := hr
    rw [Prog.then_ok, Prog.post_bind]
    refine getStaffByEmployeeCode_spec.mono fun r u hr => ?_
    cases r with
    | error e => exact hr
    | ok staff =>
      obtain ⟨rfl, hne, hfound, hactive, hstaff⟩ := hr
      have badge : q.Badge u staff := ⟨hrole, horg, hsystem, hne, hfound, hactive, hstaff⟩
      rw [Prog.then_ok]
      split
      · rename_i haction
        exact Post.allOrNothing handlePunchIn_spec fun _ _ ⟨zone, time, may, opens⟩ =>
          ⟨staff, badge, .punchIn zone time haction may opens⟩
      · rename_i haction
        exact Post.allOrNothing handleBreak_spec fun _ _ ⟨x, time, may, marks⟩ =>
          ⟨staff, badge, .breakStart x time haction may marks⟩
      · rename_i haction
        exact Post.allOrNothing handleBreak_spec fun _ _ ⟨x, time, may, marks⟩ =>
          ⟨staff, badge, .breakEnd x time haction may marks⟩
      · rename_i haction
        exact Post.allOrNothing handlePunchOut_spec fun _ _ ⟨x, x', time, may, closes⟩ =>
          ⟨staff, badge, .punchOut x x' time haction may closes⟩
      · rename_i haction
        exact Post.allOrNothing handleLatePunchOutAndPunchIn_spec
          fun _ _ ⟨x, x', zone, approxOut, punchIn, v, may, closes, opens⟩ =>
            ⟨staff, badge, .late x x' zone approxOut punchIn v haction may closes opens⟩

end Handlers

/-! ### Runs -/

/-- The runs of attendance actions, one after another, in which any access may fail. They start
    without sessions and events, over any organisations, staff members and accounts. -/
def attendance (luxon : Luxon) : System Db Request where
  init s := s.attendanceSession = ∅ ∧ s.attendanceEvent = ∅
  step s q t := ∃ r, Prog.Exec (q.call luxon) s r t

theorem action_inv {luxon : Luxon} {s t : Db} {q : Request} (h : (attendance luxon).step s q t) :
    t = s ∨ ∃ staff, q.Badge s staff ∧ Acted luxon s q staff t := by
  obtain ⟨r, hexec⟩ := h
  have hpost := action_spec.of_exec hexec
  cases r with
  | error e => exact Or.inl hpost
  | ok reply => exact Or.inr hpost

theorem action_accepted {luxon : Luxon} {s t : Db} {q : Request} {reply : ActionReply}
    (h : Prog.Exec (q.call luxon) s (.ok reply) t) : ∃ staff, q.Badge s staff ∧ Acted luxon s q staff t :=
  action_spec.of_exec h

/-- What holds without sessions and is kept by every accepted action, holds along every run. -/
theorem attendance_invariant {luxon : Luxon} {C : Db → Request → Prop} {I : Db → Prop} {s : Db}
    (h : (attendance luxon).Reach C s) (init : ∀ s, s.attendanceSession = ∅ → s.attendanceEvent = ∅ → I s)
    (keeps : ∀ s q staff t, (attendance luxon).Reach C s → I s → C s q → q.Badge s staff → Acted luxon s q staff t → I t) :
    I s := by
  refine h.invariant (fun s hinit => init s hinit.1 hinit.2) fun s q t hr inv meets step => ?_
  rcases action_inv step with rfl | ⟨staff, badge, acted⟩
  · exact inv
  · exact keeps s q staff t hr inv meets badge acted

/-- The state after some requests, each of them run without failures. -/
def runAll (luxon : Luxon) (s : Db) (qs : List Request) : Db := qs.foldl (fun s q => ((q.call luxon).run s).2) s

theorem reachable_runAll {luxon : Luxon} {s : Db} (h : (attendance luxon).Reachable s) (qs : List Request) :
    (attendance luxon).Reachable (runAll luxon s qs) := by
  have hrun : ∀ s q, (attendance luxon).step s q ((q.call luxon).run s).2 := fun s q => ⟨_, Prog.exec_run (q.call luxon) s⟩
  exact h.foldl hrun fun _ _ _ => trivial

/-! ### An office in UTC with one staff member -/

namespace Office

def hour : Date := 3600000

def zone : Zone where
  startOfDay t := t / (24 * hour) * (24 * hour)
  toISODate t := if t < 24 * hour then "1970-01-01" else "1970-01-02"

def utc : Luxon := fun name => if name = "UTC" then some zone else none

def ann : Staff := { id := "ann", orgId := "org", name := "Ann", email := "ann@mail.com", employeeCode := some "ANN1" }

def db : Db where
  organization := {{ id := "org", name := "Org", email := "org@mail.com", timezone := some "UTC" }}
  staff := {ann}
  systemCredential := {{ id := "kiosk", orgId := "org", email := "kiosk@mail.com" }}

/-- A request of the kiosk, whose rows are named after `n`. -/
def request (n : String) (action : Action) (time : Date) (sessionId : Option String := none) : Request where
  io := { now := time, sessionId := "s" ++ n, eventId := "e" ++ n, lateEventId := "l" ++ n, sessions := .stored,
          events := .stored }
  orgId := "org"
  systemId := "kiosk"
  role := "System"
  dto := { employeeCode := "ANN1", action, time := some (some time), sessionId }

/-- Ann comes and leaves on the first day. -/
def firstDay : List Request := [request "1" .punchIn (9 * hour), request "2" .punchOut (17 * hour) (some "s1")]

theorem reachable (qs : List Request) : (attendance utc).Reachable (runAll utc db qs) :=
  reachable_runAll (.init ⟨rfl, rfl⟩) qs

end Office

end Vms.Attendance
