import Vms.Theorems.Server.Authority

/-! What becomes of a visit, and of the attendance log, while requests run at the same time. -/

namespace Vms.Server
open Relational Table HttpException Prog

/-! ### Visits -/

/-- Where the status of a visit may go: a pending visit starts or is rejected, and any visit may be completed. -/
def Moves (a b : MeetingStatus) : Prop := b = a ∨ b = .completed ∨ a = .pending ∧ (b = .ongoing ∨ b = .rejected)

theorem Moves.trans {a b c : MeetingStatus} (h : Moves a b) (h' : Moves b c) : Moves a c := by
  rcases h' with rfl | rfl | ⟨rfl, hc⟩
  · exact h
  · exact Or.inr (Or.inl rfl)
  · rcases h with rfl | hb | ⟨-, hb | hb⟩
    · exact Or.inr (Or.inr ⟨rfl, hc⟩)
    all_goals cases hb

/-- A later state of the same visit. Once it is no longer pending, its start and the remarks are settled. -/
structure Continues (v w : Visit) : Prop where
  same : ∃ reasonId startTime endTime status remarks, w = { v with reasonId, startTime, endTime, status, remarks }
  reason : w.reasonId = v.reasonId ∨ w.reasonId = none
  moves : Moves v.status w.status
  settled : v.status ≠ .pending → w.startTime = v.startTime ∧ w.remarks = v.remarks
  ended : v.endTime.isSome → w.endTime.isSome

namespace Continues
variable {u v w : Visit}

theorem refl (v : Visit) : Continues v v where
  same := ⟨_, _, _, _, _, rfl⟩
  reason := Or.inl rfl
  moves := Or.inl rfl
  settled _ := ⟨rfl, rfl⟩
  ended h := h

theorem trans (h : Continues u v) (h' : Continues v w) : Continues u w where
  same := by
    obtain ⟨_, _, _, _, _, rfl⟩ := h.same
    obtain ⟨_, _, _, _, _, rfl⟩ := h'.same
    exact ⟨_, _, _, _, _, rfl⟩
  reason := by
    rcases h'.reason with hw | hw
    · rw [hw]
      exact h.reason
    · exact Or.inr hw
  moves := h.moves.trans h'.moves
  settled hu := by
    have hv : v.status ≠ .pending := by
      rcases h.moves with hv | hv | ⟨hpending, -⟩
      · rwa [hv]
      · rw [hv]
        decide
      · exact absurd hpending hu
    obtain ⟨hstart, hremarks⟩ := h.settled hu
    obtain ⟨hstart', hremarks'⟩ := h'.settled hv
    exact ⟨hstart'.trans hstart, hremarks'.trans hremarks⟩
  ended hu := h'.ended (h.ended hu)

theorem columns (h : Continues v w) : w.id = v.id ∧ w.orgId = v.orgId ∧ w.staffId = v.staffId := by
  obtain ⟨_, _, _, _, _, rfl⟩ := h.same
  exact ⟨rfl, rfl, rfl⟩

theorem of_ended (h : Ended v w) : Continues v w := by
  rcases h with rfl | ⟨endTime, rfl⟩
  · exact refl w
  · exact ⟨⟨_, _, _, _, _, rfl⟩, Or.inl rfl, Or.inr (Or.inl rfl), fun _ => ⟨rfl, rfl⟩, fun _ => rfl⟩

theorem of_decided (h : Decided v w) : Continues v w := by
  rcases h with rfl | ⟨hpending, ⟨remarks, startTime, rfl⟩ | ⟨remarks, rfl⟩⟩
  · exact refl w
  · exact ⟨⟨_, _, _, _, _, rfl⟩, Or.inl rfl, Or.inr (Or.inr ⟨hpending, Or.inl rfl⟩), fun hv => absurd hpending hv, id⟩
  · exact ⟨⟨_, _, _, _, _, rfl⟩, Or.inl rfl, Or.inr (Or.inr ⟨hpending, Or.inr rfl⟩), fun hv => absurd hpending hv, id⟩

theorem of_reasonless : Continues v { v with reasonId := none } :=
  ⟨⟨_, _, _, _, _, rfl⟩, Or.inr rfl, Or.inl rfl, fun _ => ⟨rfl, rfl⟩, fun h => h⟩

theorem of_withoutReason {id : String} (h : WithoutReason id v w) : Continues v w := by
  rcases h with rfl | ⟨rfl, -⟩
  · exact of_reasonless
  · exact refl w

end Continues

/-- A visit's times tell its status: it has ended if and only if it is completed, it has a start while it goes on, and
    only then or afterwards. -/
structure Timed (v : Visit) : Prop where
  status : v.status ≠ .accepted
  ended : v.endTime.isSome ↔ v.status = .completed
  began : v.startTime.isSome → v.status = .ongoing ∨ v.status = .completed
  goesOn : v.status = .ongoing → v.startTime.isSome

namespace Timed
variable {v w : Visit}

theorem of_pending (h : v.status = .pending ∧ v.startTime = none ∧ v.endTime = none) : Timed v := by
  obtain ⟨hstatus, hstart, hend⟩ := h
  constructor <;> simp [hstatus, hstart, hend]

theorem of_ended (hv : Timed v) (h : Ended v w) : Timed w := by
  rcases h with rfl | ⟨endTime, rfl⟩
  · exact hv
  · constructor <;> simp

theorem of_decided (hv : Timed v) (h : Decided v w) : Timed w := by
  rcases h with rfl | ⟨hpending, ⟨remarks, startTime, rfl⟩ | ⟨remarks, rfl⟩⟩
  · exact hv
  -- a pending visit has neither a start nor an end
  · have hend : v.endTime = none := by simpa [hpending] using hv.ended
    constructor <;> simp [hend]
  · have hend : v.endTime = none := by simpa [hpending] using hv.ended
    have hstart : v.startTime = none := by simpa [hpending] using hv.began
    constructor <;> simp [hend, hstart]

theorem reasonless (hv : Timed v) : Timed { v with reasonId := none } := ⟨hv.status, hv.ended, hv.began, hv.goesOn⟩

theorem of_withoutReason {id : String} (hv : Timed v) (h : WithoutReason id v w) : Timed w := by
  rcases h with rfl | ⟨rfl, -⟩
  · exact hv.reasonless
  · exact hv

end Timed

/-- A visit that checks in. -/
def CheckIn (v : Visit) : Prop := v.status = .pending ∧ v.startTime = none ∧ v.endTime = none

/-- Every visit goes back to one that was there, or to a check-in, and none is lost unless rows are deleted. -/
structure VisitsContinue (deletes : Prop) (s t : Db) : Prop where
  origin : ∀ w ∈ t.visit, ∃ v, (v ∈ s.visit ∨ CheckIn v) ∧ Continues v w
  kept : deletes ∨ ∀ v ∈ s.visit, ∃ w ∈ t.visit, Continues v w
  timed : (∀ v ∈ s.visit, Timed v) → ∀ w ∈ t.visit, Timed w

namespace VisitsContinue
variable {deletes : Prop} {s t u : Db}

theorem of_same (h : t.visit = s.visit) : VisitsContinue deletes s t where
  origin w hw := ⟨w, Or.inl (h ▸ hw), .refl w⟩
  kept := Or.inr fun v hv => ⟨v, h ▸ hv, .refl v⟩
  timed hs w hw := hs w (h ▸ hw)

theorem trans (h : VisitsContinue deletes s t) (h' : VisitsContinue deletes t u) : VisitsContinue deletes s u where
  origin w hw := by
    obtain ⟨v, hv | hv, hvw⟩ := h'.origin w hw
    · obtain ⟨v₀, hv₀, hcont⟩ := h.origin v hv
      exact ⟨v₀, hv₀, hcont.trans hvw⟩
    · exact ⟨v, Or.inr hv, hvw⟩
  kept := by
    rcases h.kept with hdel | hkept
    · exact Or.inl hdel
    · rcases h'.kept with hdel | hkept'
      · exact Or.inl hdel
      · refine Or.inr fun v hv => ?_
        obtain ⟨w, hw, hvw⟩ := hkept v hv
        obtain ⟨x, hx, hwx⟩ := hkept' w hw
        exact ⟨x, hx, hvw.trans hwx⟩
  timed hs := h'.timed (h.timed hs)

theorem of_evolves {R : Visit → Visit → Prop} (h : s.visit.Evolves R t.visit) (continues : ∀ v w, R v w → Continues v w)
    (timed : ∀ v w, Timed v → R v w → Timed w) : VisitsContinue deletes s t where
  origin w hw := by
    obtain ⟨v, hv, hvw⟩ := h.only w hw
    exact ⟨v, Or.inl hv, continues v w hvw⟩
  kept := Or.inr fun v hv => by
    obtain ⟨w, hw, hvw⟩ := h.kept v hv
    exact ⟨w, hw, continues v w hvw⟩
  timed hs w hw := by
    obtain ⟨v, hv, hvw⟩ := h.only w hw
    exact timed v w (hs v hv) hvw

/-- Visits are deleted, and some of the others lose their reason. -/
theorem of_deleted (hdel : deletes) (h : ∀ w ∈ t.visit, ∃ v ∈ s.visit, w = v ∨ w = { v with reasonId := none }) :
    VisitsContinue deletes s t where
  origin w hw := by
    obtain ⟨v, hv, rfl | rfl⟩ := h w hw
    · exact ⟨w, Or.inl hv, .refl w⟩
    · exact ⟨v, Or.inl hv, .of_reasonless⟩
  kept := Or.inl hdel
  timed hs w hw := by
    obtain ⟨v, hv, rfl | rfl⟩ := h w hw
    · exact hs w hv
    · exact (hs v hv).reasonless

end VisitsContinue

/-- The changes that delete staff members, and with them their visits and sessions. -/
def Kind.Deletes (k : Kind) : Prop := k = dropStaff ∨ k = dropUser ∨ k = dropOrganization

theorem Request.May.not_deletes {server : Server} {now : Date} {authorization : Option String} {endpoint : Endpoint} {k : Kind}
    (hmay : (Request.authorized now authorization endpoint).May server k) (h : ∀ k ∈ endpoint.kinds, ¬k.Deletes) : ¬k.Deletes := by
  obtain ⟨-, -, hk, -⟩ := hmay
  exact h k hk

/-- The visits that are left when an organisation is deleted. -/
theorem visit_of_deleteOrganization {s : Db} {orgId : String} {w : Visit} (hw : w ∈ (s.deleteOrganization orgId).visit) :
    ∃ v ∈ s.visit, w = v ∨ w = { v with reasonId := none } := by
  have stripped : (s.visit.delete _).Evolves (fun v w => w = v ∨ w = { v with reasonId := none }) (s.deleteOrganization orgId).visit :=
    .of_rows rfl (fun _ => Or.inl rfl) fun _ _ _ => Or.inr rfl
  obtain ⟨v, hv, hvw⟩ := stripped.only w hw
  exact ⟨v, (mem_delete.mp hv).1, hvw⟩

theorem Change.visitsContinue {deletes : Prop} {s t : Db} {k : Kind} (h : Change s k t) (hdel : k.Deletes → deletes) :
    VisitsContinue deletes s t := by
  cases h <;> first
    | exact .of_same rfl
    | skip
  case addVisit v u pending org staff reason stored =>
    refine ⟨fun w hw => ?_, Or.inr fun w hw => ⟨w, (mem_insert stored).mpr (Or.inl hw), .refl w⟩, fun hs w hw => ?_⟩
    · rcases (mem_insert stored).mp hw with hw | rfl
      · exact ⟨w, Or.inl hw, .refl w⟩
      · exact ⟨w, Or.inr pending, .refl w⟩
    · rcases (mem_insert stored).mp hw with hw | rfl
      · exact hs w hw
      · exact .of_pending pending
  case endVisit u visits => exact .of_evolves visits (fun _ _ => .of_ended) fun _ _ => Timed.of_ended
  case decideVisit u visits => exact .of_evolves visits (fun _ _ => .of_decided) fun _ _ => Timed.of_decided
  case dropReason id u visits => exact .of_evolves visits (fun _ _ => .of_withoutReason) fun _ _ => Timed.of_withoutReason
  case dropStaff id => exact .of_deleted (hdel (Or.inl rfl)) fun w hw => ⟨w, (mem_delete.mp hw).1, Or.inl rfl⟩
  case dropUser id => exact .of_deleted (hdel (Or.inr (Or.inl rfl))) fun w hw => ⟨w, (mem_delete.mp hw).1, Or.inl rfl⟩
  case dropOrganization id => exact .of_deleted (hdel (Or.inr (Or.inr rfl))) fun w hw => visit_of_deleteOrganization hw

/-- Every visit goes back to one that was there, unless it has just checked in. -/
theorem Change.goesBack {s t : Db} {k : Kind} (h : Change s k t) (hk : k ≠ .addVisit) {w : Visit} (hw : w ∈ t.visit) :
    ∃ v ∈ s.visit, Continues v w := by
  cases h <;> first
    | exact absurd rfl hk
    | exact ⟨w, hw, .refl w⟩
    | exact ⟨w, (mem_delete.mp hw).1, .refl w⟩
    | skip
  case endVisit u visits =>
    obtain ⟨v, hv, hvw⟩ := visits.only w hw
    exact ⟨v, hv, .of_ended hvw⟩
  case decideVisit u visits =>
    obtain ⟨v, hv, hvw⟩ := visits.only w hw
    exact ⟨v, hv, .of_decided hvw⟩
  case dropReason id u visits =>
    obtain ⟨v, hv, hvw⟩ := visits.only w hw
    exact ⟨v, hv, .of_withoutReason hvw⟩
  case dropOrganization id =>
    obtain ⟨v, hv, rfl | rfl⟩ := visit_of_deleteOrganization hw
    · exact ⟨w, hv, .refl w⟩
    · exact ⟨v, hv, .of_reasonless⟩

/-! ### Attendance -/

namespace ClosedAs
variable {x y z : AttendanceSession}

theorem refl (x : AttendanceSession) : ClosedAs x x := ⟨rfl, rfl, rfl, rfl, rfl, Or.inl rfl⟩

theorem trans (h : ClosedAs x y) (h' : ClosedAs y z) : ClosedAs x z := by
  obtain ⟨hid, horg, hstaff, hdate, hfirst, hclosed⟩ := h
  obtain ⟨hid', horg', hstaff', hdate', hfirst', hclosed'⟩ := h'
  refine ⟨hid'.trans hid, horg'.trans horg, hstaff'.trans hstaff, hdate'.trans hdate, hfirst'.trans hfirst, ?_⟩
  rcases hclosed' with rfl | hz
  · exact hclosed
  · exact Or.inr hz

end ClosedAs

/-- The log only grows, unless rows are deleted: events stay as they were recorded, sessions stay or are closed. -/
structure Logged (deletes : Prop) (s t : Db) : Prop where
  events : deletes ∨ ∀ e ∈ s.attendanceEvent, e ∈ t.attendanceEvent
  sessions : deletes ∨ ∀ x ∈ s.attendanceSession, ∃ y ∈ t.attendanceSession, ClosedAs x y
  origin : ∀ y ∈ t.attendanceSession, ∃ x, (x ∈ s.attendanceSession ∨ x.status = .open) ∧ ClosedAs x y

namespace Logged
variable {deletes : Prop} {s t u : Db}

theorem of_same (h : t.attendanceEvent = s.attendanceEvent ∧ t.attendanceSession = s.attendanceSession) : Logged deletes s t where
  events := Or.inr fun _ he => h.1 ▸ he
  sessions := Or.inr fun x hx => ⟨x, h.2 ▸ hx, .refl x⟩
  origin y hy := ⟨y, Or.inl (h.2 ▸ hy), .refl y⟩

theorem trans (h : Logged deletes s t) (h' : Logged deletes t u) : Logged deletes s u where
  events := h.events.elim Or.inl fun kept => h'.events.imp id fun kept' e he => kept' e (kept e he)
  sessions := h.sessions.elim Or.inl fun kept => h'.sessions.imp id fun kept' x hx => by
    obtain ⟨y, hy, hxy⟩ := kept x hx
    obtain ⟨z, hz, hyz⟩ := kept' y hy
    exact ⟨z, hz, hxy.trans hyz⟩
  origin z hz := by
    obtain ⟨y, hy | hy, hyz⟩ := h'.origin z hz
    · obtain ⟨x, hx, hxy⟩ := h.origin y hy
      exact ⟨x, hx, hxy.trans hyz⟩
    · exact ⟨y, Or.inr hy, hyz⟩

theorem of_deleted (hdel : deletes) (h : s.attendanceSession.Shrinks t.attendanceSession) : Logged deletes s t where
  events := Or.inl hdel
  sessions := Or.inl hdel
  origin y hy := ⟨y, Or.inl (h y hy), .refl y⟩

end Logged

theorem Change.logged {deletes : Prop} {s t : Db} {k : Kind} (h : Change s k t) (hdel : k.Deletes → deletes) :
    Logged deletes s t := by
  cases h <;> first
    | exact .of_same ⟨rfl, rfl⟩
    | skip
  case openSession x u isOpen org staff stored =>
    refine ⟨Or.inr fun _ he => he, Or.inr fun y hy => ⟨y, (mem_insert stored).mpr (Or.inl hy), .refl y⟩, fun y hy => ?_⟩
    rcases (mem_insert stored).mp hy with hy | rfl
    · exact ⟨y, Or.inl hy, .refl y⟩
    · exact ⟨y, Or.inr isOpen, .refl y⟩
  case closeSession u sessions =>
    refine ⟨Or.inr fun _ he => he, Or.inr sessions.kept, fun y hy => ?_⟩
    obtain ⟨x, hx, hxy⟩ := sessions.only y hy
    exact ⟨x, Or.inl hx, hxy⟩
  case recordEvent e u org staff session stored =>
    exact ⟨Or.inr fun a ha => (mem_insert stored).mpr (Or.inl ha), Or.inr fun x hx => ⟨x, hx, .refl x⟩,
      fun y hy => ⟨y, Or.inl hy, .refl y⟩⟩
  case dropStaff id => exact .of_deleted (hdel (Or.inl rfl)) shrinks_delete
  case dropUser id => exact .of_deleted (hdel (Or.inr (Or.inl rfl))) shrinks_delete
  case dropOrganization id => exact .of_deleted (hdel (Or.inr (Or.inr rfl))) shrinks_delete

/-! ### Interleavings -/

section Interleavings
variable {server : Server} {ι : Type} [DecidableEq ι] {requests : ι → Request} {s : Db} {d : Threads ι Db HttpException Unit}

end Interleavings

/-! ### A visitor -/

namespace FrontDesk

def visit : Visit where
  id := "visit"
  orgId := "office"
  fullName := "Bob"
  visitorOrganization := "Elsewhere"
  email := "bob@mail.com"
  reasonId := none
  staffId := "1"
  createdAt := 0

def db : Db := { Office.db with visit := {visit} }

def io : VisitService.Io where
  now := 60000
  repliedAt := 60000
  visitId := ""
  visitCreatedAt := 0
  notificationId := ""
  notificationCreatedAt := 0
  imageUrl := ""
  visits := .stored
  notifications := .stored

/-- Ann accepts the visit on one device and rejects it on another. -/
def requests : Bool → Request
  | false => .authorized 60000 (Office.bearer Office.admin) (.acceptVisit io "visit" {})
  | true => .authorized 60000 (Office.bearer Office.admin) (.rejectVisit "visit" { reason := "No time" })

def after : Threads Bool Db HttpException Unit :=
  Threads.schedule ⟨db, fun i => serve Office.server (requests i)⟩ [false, true, false, true, true, false]

theorem reachable_after : (Threads.interleaving ⟨db, fun i => serve Office.server (requests i)⟩).Reachable after :=
  Threads.reachable_schedule (.init rfl) _

theorem not_deletes : ¬∃ i k, (requests i).May Office.server k ∧ k.Deletes := by
  rintro ⟨i, k, hmay, hdel⟩
  cases i <;> exact hmay.not_deletes (by simp [Endpoint.kinds, Kind.Deletes]) hdel

end FrontDesk

namespace Kiosk

def session : AttendanceSession :=
  { id := "session", orgId := "office", staffId := "1", date := 0, status := .open, firstPunchInAt := some 0 }

def event : AttendanceEvent :=
  { id := "event", orgId := "office", staffId := "1", sessionId := some "session", eventType := .punchIn, timestamp := 0 }

def db : Db where
  organization := Office.db.organization
  staff := {{ id := "1", orgId := "office", name := "Ann", email := "ann@mail.com", employeeCode := some "ANN1" }}
  systemCredential :=
    {{ id := "kiosk", orgId := "office", email := "kiosk@mail.com", activityStatus := .loggedIn, sessionId := some "on" }}
  attendanceSession := {session}
  attendanceEvent := {event}

def payload : JwtPayload :=
  { orgId := some "office", systemId := some "kiosk", role := some "System", sessionId := some "on" }

def io (eventId : String) : Attendance.Io where
  now := 60000
  sessionId := ""
  eventId := eventId
  lateEventId := ""
  sessions := .stored
  events := .stored

/-- Ann takes a break, and punches out before the first tap is through. -/
def requests : Bool → Request
  | false => .authorized 60000 (Office.bearer payload)
      (.action (io "break") { employeeCode := "ANN1", action := .breakStart, sessionId := some "session" })
  | true => .authorized 60000 (Office.bearer payload)
      (.action (io "out") { employeeCode := "ANN1", action := .punchOut, sessionId := some "session" })

def after : Threads Bool Db HttpException Unit :=
  Threads.schedule ⟨db, fun i => serve Office.server (requests i)⟩
    [false, true, false, true, false, true, false, true, false, true, true, false]

theorem reachable_after : (Threads.interleaving ⟨db, fun i => serve Office.server (requests i)⟩).Reachable after :=
  Threads.reachable_schedule (.init rfl) _

theorem not_deletes : ¬∃ i k, (requests i).May Office.server k ∧ k.Deletes := by
  rintro ⟨i, k, hmay, hdel⟩
  cases i <;> exact hmay.not_deletes (by simp [Endpoint.kinds, Kind.Deletes]) hdel

end Kiosk

end Vms.Server
