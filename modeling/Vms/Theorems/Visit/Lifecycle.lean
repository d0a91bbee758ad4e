import Vms.Theorems.Visit.Step

/-! The life of a visit: it waits, is rejected or goes on, and ends, with the times that belong to each
    status. It holds as long as no check-out by QR code scans a visit that is not ongoing. -/

namespace Vms.VisitService
open Relational

/-- How the status of a visit may change. -/
inductive Moves : MeetingStatus → MeetingStatus → Prop where
  | accept : Moves .pending .ongoing
  | reject : Moves .pending .rejected
  | finish : Moves .ongoing .completed

/-- The times of a visit are those of its status. -/
def Timed (v : Visit) : Prop :=
  match v.status with
  | .pending | .rejected => v.startTime = none ∧ v.endTime = none
  | .ongoing => v.startTime.isSome ∧ v.endTime = none
  | .completed => ∃ start stop, v.startTime = some start ∧ v.endTime = some stop ∧ start ≤ stop
  | .accepted => False

def AllTimed (s : Db) : Prop := ∀ v ∈ s.visit, Timed v

/-- Every visit is kept and its status stays or moves; a new visit is pending. -/
structure Evolves (s t : Db) : Prop where
  moves : ∀ v ∈ s.visit, ∃ w ∈ t.visit, w.id = v.id ∧ (w.status = v.status ∨ Moves v.status w.status)
  starts : ∀ w ∈ t.visit, (∃ v ∈ s.visit, v.id = w.id) ∨ w.status = .pending

/-- A check-out by QR code that passes its checks scans an ongoing visit. -/
def QrOngoing (s : Db) (q : Request) : Prop :=
  ∀ role visitId v, q.op = .endVisitQr role visitId → MayScan s q.orgId role visitId v → v.status = .ongoing

/-! ### With a clock -/

/-- The database and the time of the last request. -/
structure Clocked where
  db : Db
  clock : Date

/-- Requests one after another on a clock that never goes back. -/
def clocked (js : Js) : System Clocked Request where
  init c := (visiting js).init c.db
  step c q d := c.clock ≤ q.io.now ∧ d.clock = q.io.now ∧ (visiting js).step c.db q d.db

/-- No visit started later than the clock. -/
def Started (c : Clocked) : Prop := ∀ v ∈ c.db.visit, ∀ start, v.startTime = some start → start ≤ c.clock

/-! ### What one update keeps -/

section Updates
variable {js : Js} {s t : Db} {q : Request} {v v' w : Visit} {endTime now : Date}

theorem evolves_of_eq (h : t.visit = s.visit) : Evolves s t where
  moves v hv := ⟨v, by rw [h]; exact hv, rfl, Or.inl rfl⟩
  starts w hw := by
    rw [h] at hw
    exact Or.inl ⟨w, hw, rfl⟩

theorem allTimed_of_eq (timed : AllTimed s) (h : t.visit = s.visit) : AllTimed t := by
  unfold AllTimed
  rw [h]
  exact timed

theorem evolves_of_add (h : s.visit.insert v = some t.visit) (hpending : v.status = .pending) : Evolves s t where
  moves w hw := ⟨w, (Table.mem_insert h).mpr (Or.inl hw), rfl, Or.inl rfl⟩
  starts w hw := by
    rcases (Table.mem_insert h).mp hw with hw | rfl
    · exact Or.inl ⟨w, hw, rfl⟩
    · exact Or.inr hpending

/-- Replacing a visit lets the visits evolve exactly if its status does. -/
theorem Replaces.evolves (h : Replaces s t v v') (hid : v'.id = v.id) :
    Evolves s t ↔ v'.status = v.status ∨ Moves v.status v'.status := by
  have hv' : v' ∈ t.visit := (h.visits v').mpr (Or.inl rfl)
  constructor
  · intro evolves
    obtain ⟨w, hw, hwid, hmove⟩ := evolves.moves v h.mem
    rcases (h.visits w).mp hw with rfl | ⟨-, hne⟩
    · exact hmove
    · exact absurd hwid hne
  · intro hmove
    refine ⟨fun w hw => ?_, fun w hw => ?_⟩
    · by_cases hwid : w.id = v.id
      · obtain rfl : w = v := Table.eq_of_id hw h.mem hwid
        exact ⟨v', hv', hid, hmove⟩
      · exact ⟨w, (h.visits w).mpr (Or.inr ⟨hw, hwid⟩), rfl, Or.inl rfl⟩
    · rcases (h.visits w).mp hw with rfl | ⟨hw, -⟩
      · exact Or.inl ⟨v, h.mem, hid.symm⟩
      · exact Or.inl ⟨w, hw, rfl⟩

theorem Replaces.allTimed (timed : AllTimed s) (h : Replaces s t v v') (hv' : Timed v') : AllTimed t := by
  intro w hw
  rcases (h.visits w).mp hw with rfl | ⟨hw, -⟩
  · exact hv'
  · exact timed w hw

theorem Replaces.started (h : Replaces s t v v') (hnow : ∀ w ∈ s.visit, ∀ start, w.startTime = some start → start ≤ now)
    (hv' : ∀ start, v'.startTime = some start → start ≤ now) : ∀ w ∈ t.visit, ∀ start, w.startTime = some start → start ≤ now := by
  intro w hw start hstart
  rcases (h.visits w).mp hw with rfl | ⟨hw, -⟩
  · exact hv' start hstart
  · exact hnow w hw start hstart

/-- A visit that moves on with its times. -/
theorem Replaces.moves (timed : AllTimed s) (h : Replaces s t v v') (hid : v'.id = v.id) (move : Moves v.status v'.status)
    (hv' : Timed v') : Evolves s t ∧ AllTimed t := ⟨(h.evolves hid).mpr (Or.inr move), h.allTimed timed hv'⟩

/-- An ongoing visit that ends, ends after it started. -/
theorem timed_completed (timed : Timed v) (hongoing : v.status = .ongoing)
    (hstart : ∀ start, v.startTime = some start → start ≤ endTime) :
    Timed { v with status := .completed, endTime := some endTime } := by
  rw [Timed, hongoing] at timed
  obtain ⟨start, hs⟩ := Option.isSome_iff_exists.mp timed.1
  exact ⟨start, endTime, hs, rfl, hstart start hs⟩

/-- The times of a visit that goes on, and of one that is refused. -/
theorem timed_ongoing {remarks : Option String} (timed : Timed v) (hpending : v.status = .pending) :
    Timed { v with status := .ongoing, remarks, startTime := some now } := by
  rw [Timed, hpending] at timed
  exact ⟨rfl, timed.2⟩

theorem timed_rejected {remarks : Option String} (timed : Timed v) (hpending : v.status = .pending) :
    Timed { v with status := .rejected, remarks } := by
  rw [Timed, hpending] at timed
  exact timed

/-- The visit that a QR code names is the only one that it can end. -/
theorem MayScan.unique {orgId role visitId role' visitId' : String} (h : MayScan s orgId role visitId v)
    (h' : MayScan s orgId role' visitId' w) (hid : visitId = visitId') : v = w :=
  Table.eq_of_id h.mem h'.mem (h.id.trans (hid.trans h'.id.symm))

/-- Other requests scan nothing. -/
theorem qrOngoing_of_op {op : Operation} (h : q.op = op) (hne : ∀ role visitId, op ≠ .endVisitQr role visitId) : QrOngoing s q :=
  fun role visitId _ hop => absurd (h.symm.trans hop) (hne role visitId)

/-- An effect lets the visits evolve with their times exactly if it ends no visit by QR code that is not
    ongoing. -/
theorem Acted.evolves_iff (timed : AllTimed s) (hnow : ∀ v ∈ s.visit, ∀ start, v.startTime = some start → start ≤ q.io.now)
    (h : Acted js s q t) : Evolves s t ∧ AllTimed t ↔ QrOngoing s q := by
  cases h with
  | checkIn systemId dto checkInPicture picture u op adds rest =>
    refine iff_of_true ?_ (qrOngoing_of_op op nofun)
    have added := adds.visits_of_rest rest
    refine ⟨evolves_of_add added rfl, fun w hw => ?_⟩
    rcases (Table.mem_insert added).mp hw with hw | rfl
    · exact timed w hw
    · exact ⟨rfl, rfl⟩
  | checkOut dto systemId role v op org ongoing completes =>
    refine iff_of_true (completes.moves timed rfl ?_ ?_) (qrOngoing_of_op op nofun)
    swap
    · exact timed_completed (timed v completes.mem) ongoing (hnow v completes.mem)
    rw [ongoing]
    exact .finish
  | checkOutQr role visitId v op may completes =>
    constructor
    · rintro ⟨evolves, -⟩ role' visitId' w op' may'
      have hid : visitId = visitId' := by
        rw [op] at op'
        exact (Operation.endVisitQr.inj op').2
      obtain rfl := may.unique may' hid
      rcases (completes.evolves rfl).mp evolves with hsame | hmove
      · exact absurd hsame.symm may.status
      · generalize hstatus : v.status = before at hmove
        cases hmove
        rfl
    · intro hqr
      have ongoing := hqr role visitId v op may
      refine completes.moves timed rfl ?_ (timed_completed (timed v completes.mem) ongoing (hnow v completes.mem))
      rw [ongoing]
      exact .finish
  | accept userId role visitId dto v op may decides =>
    refine iff_of_true (decides.moves timed rfl ?_ (timed_ongoing (timed v decides.mem) decides.pending)) (qrOngoing_of_op op nofun)
    rw [decides.pending]
    exact .accept
  | reject userId role visitId dto v op may decides =>
    refine iff_of_true (decides.moves timed rfl ?_ (timed_rejected (timed v decides.mem) decides.pending)) (qrOngoing_of_op op nofun)
    rw [decides.pending]
    exact .reject
  | remind systemId role visitId v n op mem org of notifies =>
    have hvisit : t.visit = s.visit := by rw [notifies.rest]
    refine iff_of_true ⟨evolves_of_eq hvisit, ?_⟩ (qrOngoing_of_op op nofun)
    exact allTimed_of_eq timed hvisit
  | delete userId role notificationId staff n op caller own org removes =>
    have hvisit : t.visit = s.visit := by rw [removes.rest]
    refine iff_of_true ⟨evolves_of_eq hvisit, ?_⟩ (qrOngoing_of_op op nofun)
    exact allTimed_of_eq timed hvisit

/-- No effect starts a visit later than its own time. -/
theorem Acted.started (hnow : ∀ v ∈ s.visit, ∀ start, v.startTime = some start → start ≤ q.io.now)
    (h : Acted js s q t) : ∀ v ∈ t.visit, ∀ start, v.startTime = some start → start ≤ q.io.now := by
  cases h with
  | checkIn systemId dto checkInPicture picture u op adds rest =>
    intro w hw start hstart
    rcases (Table.mem_insert (adds.visits_of_rest rest)).mp hw with hw | rfl
    · exact hnow w hw start hstart
    · cases hstart
  | checkOut dto systemId role v op org ongoing completes => exact completes.started hnow (hnow v completes.mem)
  | checkOutQr role visitId v op may completes => exact completes.started hnow (hnow v completes.mem)
  | accept userId role visitId dto v op may decides =>
    exact decides.started hnow fun start hstart => le_of_eq (Option.some.inj hstart).symm
  | reject userId role visitId dto v op may decides => exact decides.started hnow (hnow v decides.mem)
  | remind systemId role visitId v n op mem org of notifies =>
    rw [notifies.rest]
    exact hnow
  | delete userId role notificationId staff n op caller own org removes =>
    rw [removes.rest]
    exact hnow

end Updates

/-! ### Runs -/

section Runs
variable {js : Js} {c : Clocked}

theorem started_of_reach (h : (clocked js).Reachable c) : Started c := by
  refine h.invariant (fun c init => ?_) fun c q d _ started _ step => ?_
  · intro v hv
    rw [init.1] at hv
    exact absurd hv Table.not_mem_empty
  · obtain ⟨hclock, hd, hstep⟩ := step
    have hnow : ∀ v ∈ c.db.visit, ∀ start, v.startTime = some start → start ≤ q.io.now := fun v hv start hstart =>
      le_trans (started v hv start hstart) hclock
    unfold Started
    rw [hd]
    rcases request_inv hstep with hsame | acted
    · rw [hsame]
      exact hnow
    · exact acted.started hnow

/-- One step of a run whose requests scan ongoing visits only. -/
theorem step_evolves {q : Request} {d : Clocked} (h : (clocked js).Reachable c) (timed : AllTimed c.db)
    (hqr : QrOngoing c.db q) (step : (clocked js).step c q d) : Evolves c.db d.db ∧ AllTimed d.db := by
  obtain ⟨hclock, -, hstep⟩ := step
  rcases request_inv hstep with hsame | acted
  · rw [hsame]
    exact ⟨evolves_of_eq rfl, timed⟩
  · exact (acted.evolves_iff timed fun v hv start hstart =>
      le_trans (started_of_reach h v hv start hstart) hclock).mpr hqr

theorem allTimed_of_reach (h : (clocked js).Reach (fun c q => QrOngoing c.db q) c) : AllTimed c.db := by
  refine h.invariant (I := fun c => AllTimed c.db) (fun c init => ?_) fun c q d hr timed hqr step => ?_
  · intro v hv
    rw [init.1] at hv
    exact absurd hv Table.not_mem_empty
  · exact (step_evolves hr.reachable timed hqr step).2

end Runs

/-- In a run whose check-outs by QR code scan ongoing visits only, every visit has the times of its
    status and moves only along its life; and a request that succeeds keeps this only if it does so. -/
theorem visit_lifecycle (js : Js) :
    (∀ c, (clocked js).Reach (fun c q => QrOngoing c.db q) c → AllTimed c.db) ∧
    (∀ c q d, (clocked js).Reach (fun c q => QrOngoing c.db q) c → QrOngoing c.db q → (clocked js).step c q d →
      Evolves c.db d.db) ∧
    ∀ c q t, (clocked js).Reachable c → AllTimed c.db → c.clock ≤ q.io.now → Prog.Exec (q.call js) c.db (.ok ()) t →
      (Evolves c.db t ∧ AllTimed t ↔ QrOngoing c.db q) := by
  refine ⟨fun c h => allTimed_of_reach h, fun c q d h hqr step => ?_, fun c q t h timed hclock hexec => ?_⟩
  · exact (step_evolves h.reachable (allTimed_of_reach h) hqr step).1
  · exact (request_succeeded hexec).evolves_iff timed fun v hv start hstart =>
      le_trans (started_of_reach h v hv start hstart) hclock

section Reception
open Reception

/-- A request that runs without failures is a step. -/
theorem clocked_step {js : Js} {c : Clocked} {q : Request} (h : c.clock ≤ q.io.now) :
    (clocked js).step c q ⟨((q.call js).run c.db).2, q.io.now⟩ := ⟨h, rfl, _, Prog.exec_run (q.call js) c.db⟩

/-- Bob waits. -/
def waiting : Clocked := ⟨((Request.call js (request "1" 10 checkIn)).run db).2, 10⟩

/-- Bob is with Ann. -/
def meeting : Clocked := ⟨((Request.call js (request "2" 20 (accept "v1"))).run waiting.db).2, 20⟩

theorem reach_waiting : (clocked js).Reach (fun c q => QrOngoing c.db q) waiting := by
  refine .step (s := ⟨db, 0⟩) (c := request "1" 10 checkIn) (.init ⟨rfl, rfl⟩) ?_ (clocked_step (by decide))
  intro role visitId v op
  cases op

theorem reach_meeting : (clocked js).Reach (fun c q => QrOngoing c.db q) meeting := by
  refine .step (c := request "2" 20 (accept "v1")) reach_waiting ?_ (clocked_step (by decide))
  intro role visitId v op
  cases op

theorem qrOngoing_meeting : QrOngoing meeting.db (request "3" 30 (scan "v1")) := by
  have ongoing : ∀ v ∈ meeting.db.visit, v.status = .ongoing := by decide
  exact fun role visitId v _ may => ongoing v may.mem

theorem visit_lifecycle_reception : AllTimed meeting.db ∧
    Evolves meeting.db ((Request.call js (request "3" 30 (scan "v1"))).run meeting.db).2 ∧
    (Evolves waiting.db ((Request.call js (request "3" 30 (scan "v1"))).run waiting.db).2 ∧
        AllTimed ((Request.call js (request "3" 30 (scan "v1"))).run waiting.db).2 ↔
      QrOngoing waiting.db (request "3" 30 (scan "v1"))) :=
  ⟨(visit_lifecycle js).1 _ reach_meeting,
    (visit_lifecycle js).2.1 meeting (request "3" 30 (scan "v1")) ⟨_, 30⟩ reach_meeting qrOngoing_meeting
      (clocked_step (by decide)),
    (visit_lifecycle js).2.2 waiting (request "3" 30 (scan "v1")) _ reach_waiting.reachable
      ((visit_lifecycle js).1 _ reach_waiting) (by decide)
      (Prog.exec_run (Request.call js (request "3" 30 (scan "v1"))) _)⟩

/-- The front desk scans the code of a visit that the host has not accepted: it ends without having
    started. -/
theorem scanned_while_waiting : ¬∀ c, (clocked js).Reachable c → AllTimed c.db := fun h => by
  have timed := h ⟨((Request.call js (request "3" 30 (scan "v1"))).run waiting.db).2, 30⟩
    (.step (c := request "3" 30 (scan "v1")) reach_waiting.reachable trivial (clocked_step (by decide)))
  have ended : ∃ v ∈ ((Request.call js (request "3" 30 (scan "v1"))).run waiting.db).2.visit,
      v.status = .completed ∧ v.startTime = none := by decide
  obtain ⟨v, hv, hstatus, hstart⟩ := ended
  have htimed := timed v hv
  rw [Timed, hstatus] at htimed
  obtain ⟨start, stop, hstart', -⟩ := htimed
  rw [hstart] at hstart'
  cases hstart'

end Reception

end Vms.VisitService
