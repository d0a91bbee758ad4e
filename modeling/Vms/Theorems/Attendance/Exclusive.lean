import Mathlib.Order.ConditionallyCompleteLattice.Basic
import Mathlib.Data.Int.ConditionallyCompleteOrder
import Vms.Theorems.Attendance.Invariant

/-! At most one open session per staff member. A punch-in asks for open sessions up to its own day, and the
    late flow for none but the session that it closes. That is enough as long as nobody is punched in
    before an earlier punch-in: then no open session is dated after the day of a punch-in. -/

namespace Vms.Attendance
open Relational

def OneOpen (s : Db) : Prop := ∀ x ∈ s.attendanceSession, ∀ y ∈ s.attendanceSession,
  x.staffId = y.staffId → x.status = .open → y.status = .open → x = y

/-- The request passes all checks and punches the staff member in at a time. -/
inductive PunchesIn (luxon : Luxon) (s : Db) (q : Request) (staff : Staff) : Date → Prop where
  | punchIn {zone : Zone} {time : Date} (badge : q.Badge s staff) (action : q.dto.action = .punchIn)
    (may : MayPunchIn luxon s q.io q.dto staff zone time) : PunchesIn luxon s q staff time
  | late {x : AttendanceSession} {zone : Zone} {approxOut punchIn : Date} (badge : q.Badge s staff)
    (action : q.dto.action = .latePunchOutAndPunchIn)
    (may : MayPunchOutLate luxon s q.dto staff x zone approxOut punchIn) : PunchesIn luxon s q staff punchIn

/-- A request punches nobody in before an earlier punch-in of the same staff member. -/
def NonDecreasing (luxon : Luxon) (s : Db) (q : Request) : Prop := ∀ staff time, PunchesIn luxon s q staff time →
  ∀ x ∈ s.attendanceSession, x.staffId = staff.id → ∀ first, x.firstPunchInAt = some first → first ≤ time

/-- A session is dated the day of its punch-in, in the zone of the staff member's organisation. -/
def Dated (luxon : Luxon) (s : Db) : Prop := ∀ x ∈ s.attendanceSession, ∀ staff ∈ s.staff, staff.id = x.staffId →
  ∃ zone first, orgZone luxon s staff.orgId = some zone ∧ x.firstPunchInAt = some first ∧ x.date = zone.startOfDay first

section Exclusive
variable {luxon : Luxon} {s t : Db} {q : Request} {staff : Staff} {x x' : AttendanceSession} {e : AttendanceEvent}

/-! ### Dates -/

theorem Opens.dated (dated : Dated luxon s) (h : Opens s t x e) {zone : Zone} {time : Date} (hmem : staff ∈ s.staff)
    (hzone : orgZone luxon s staff.orgId = some zone) (howner : x.staffId = staff.id)
    (hfirst : x.firstPunchInAt = some time) (hdate : x.date = zone.startOfDay time) : Dated luxon t := by
  intro y hy other hother hid
  rw [h.rest] at hother ⊢
  rcases h.mem_session.mp hy with hy | rfl
  · exact dated y hy other hother hid
  · obtain rfl : other = staff := Table.eq_of_id hother hmem (hid.trans howner)
    exact ⟨zone, time, hzone, hfirst, hdate⟩

theorem Marks.dated (dated : Dated luxon s) (h : Marks s t e) : Dated luxon t := by
  intro y hy other hother hid
  rw [h.sessions] at hy
  rw [h.rest] at hother ⊢
  exact dated y hy other hother hid

theorem Closes.dated (dated : Dated luxon s) (h : Closes s t x x' e) (hx : x ∈ s.attendanceSession) : Dated luxon t := by
  intro y hy other hother hid
  rw [h.rest] at hother ⊢
  obtain ⟨y₀, hy₀, -, hstaff, hdate, hfirst, -⟩ := h.origin hx hy
  obtain ⟨zone, first, hzone, hfirst₀, hdate₀⟩ := dated y₀ hy₀ other hother (hid.trans hstaff.symm)
  exact ⟨zone, first, hzone, hfirst.symm.trans hfirst₀, hdate.symm.trans hdate₀⟩

theorem Acted.dated (dated : Dated luxon s) (badge : q.Badge s staff) (h : Acted luxon s q staff t) : Dated luxon t := by
  cases h with
  | punchIn zone time action may opens => exact opens.dated dated badge.mem.1 may.inZone rfl rfl rfl
  | breakStart x time action may marks => exact marks.dated dated
  | breakEnd x time action may marks => exact marks.dated dated
  | punchOut x x' time action may closes => exact closes.dated dated may.names.mem
  | late x x' zone approxOut punchIn u action may closes opens =>
    have hmem : staff ∈ u.staff := by
      rw [closes.rest]
      exact badge.mem.1
    have hzone : orgZone luxon u staff.orgId = some zone := by
      rw [closes.rest]
      exact may.inZone
    exact opens.dated (closes.dated dated may.names.mem) hmem hzone rfl rfl rfl

/-! ### Open sessions -/

theorem Opens.oneOpen (one : OneOpen s) (h : Opens s t x e)
    (none : ∀ y ∈ s.attendanceSession, y.staffId = x.staffId → y.status ≠ .open) : OneOpen t := by
  intro y hy z hz hstaff hyopen hzopen
  rcases h.mem_session.mp hy with hy | rfl <;> rcases h.mem_session.mp hz with hz | rfl
  · exact one y hy z hz hstaff hyopen hzopen
  · exact absurd hyopen (none y hy hstaff)
  · exact absurd hzopen (none z hz hstaff.symm)
  · rfl

theorem Marks.oneOpen (one : OneOpen s) (h : Marks s t e) : OneOpen t := by
  unfold OneOpen
  rw [h.sessions]
  exact one

/-- The open sessions after one was closed were open before. -/
theorem Closes.open_origin (h : Closes s t x x' e) {y : AttendanceSession} (hy : y ∈ t.attendanceSession)
    (hopen : y.status = .open) : y ∈ s.attendanceSession ∧ y.id ≠ x.id := by
  rcases (h.sessions y).mp hy with rfl | hy
  · rw [h.same.2.2.2.2.1] at hopen
    cases hopen
  · exact hy

theorem Closes.oneOpen (one : OneOpen s) (h : Closes s t x x' e) : OneOpen t := by
  intro y hy z hz hstaff hyopen hzopen
  exact one y (h.open_origin hy hyopen).1 z (h.open_origin hz hzopen).1 hstaff hyopen hzopen

/-- Closing the one open session of a staff member leaves none. -/
theorem Closes.noneOpen (one : OneOpen s) (h : Closes s t x x' e) (hx : x ∈ s.attendanceSession) (hopen : x.status = .open)
    {y : AttendanceSession} (hy : y ∈ t.attendanceSession) (hstaff : y.staffId = x.staffId) : y.status ≠ .open := by
  intro hyopen
  obtain ⟨hmem, hne⟩ := h.open_origin hy hyopen
  exact hne (congrArg AttendanceSession.id (one y hmem x hx hstaff hyopen hopen))

/-- A punch-in that is no earlier than the earlier ones finds no open session at all. -/
theorem MayPunchIn.noneOpen_of_le {zone : Zone} {time : Date} (may : MayPunchIn luxon s q.io q.dto staff zone time)
    (mono : Monotone zone.startOfDay) (dated : Dated luxon s) (hmem : staff ∈ s.staff)
    (hle : ∀ y ∈ s.attendanceSession, y.staffId = staff.id → ∀ first, y.firstPunchInAt = some first → first ≤ time)
    {y : AttendanceSession} (hy : y ∈ s.attendanceSession) (howner : y.staffId = staff.id) : y.status ≠ .open := by
  intro hopen
  obtain ⟨zone', first, hzone, hfirst, hdate⟩ := dated y hy staff hmem howner.symm
  obtain rfl := Option.some.inj (may.inZone.symm.trans hzone)
  have hafter : zone.startOfDay time < zone.startOfDay first := hdate ▸ may.noneOpen y hy howner hopen
  exact absurd (mono (hle y hy howner first hfirst)) (not_le.mpr hafter)

theorem orgZone_mono (mono : ∀ tz zone, luxon tz = some zone → Monotone zone.startOfDay) {orgId : String} {zone : Zone}
    (h : orgZone luxon s orgId = some zone) : Monotone zone.startOfDay := by
  obtain ⟨tz, -, hzone⟩ := Option.bind_eq_some_iff.mp h
  exact mono tz zone hzone

theorem Acted.oneOpen (mono : ∀ tz zone, luxon tz = some zone → Monotone zone.startOfDay) (dated : Dated luxon s)
    (one : OneOpen s) (ordered : NonDecreasing luxon s q) (badge : q.Badge s staff) (h : Acted luxon s q staff t) :
    OneOpen t := by
  cases h with
  | punchIn zone time action may opens =>
    have hle := ordered staff time (.punchIn badge action may)
    exact opens.oneOpen one fun y hy howner =>
      may.noneOpen_of_le (orgZone_mono mono may.inZone) dated badge.mem.1 hle hy howner
  | breakStart x time action may marks => exact marks.oneOpen one
  | breakEnd x time action may marks => exact marks.oneOpen one
  | punchOut x x' time action may closes => exact closes.oneOpen one
  | late x x' zone approxOut punchIn u action may closes opens =>
    refine opens.oneOpen (closes.oneOpen one) fun y hy howner => ?_
    exact closes.noneOpen one may.names.mem may.names.isOpen hy (howner.trans may.names.owner.symm)

end Exclusive

/-- In a run whose punch-ins of each staff member do not go back in time, no staff member has two open
    sessions. -/
theorem one_open_session (luxon : Luxon) (mono : ∀ tz zone, luxon tz = some zone → Monotone zone.startOfDay) (s : Db)
    (h : (attendance luxon).Reach (NonDecreasing luxon) s) : OneOpen s := by
  have both : Dated luxon s ∧ OneOpen s := by
    refine attendance_invariant (I := fun s => Dated luxon s ∧ OneOpen s) h (fun s hsessions _ => ?_)
      fun s q staff t _ inv ordered badge acted => ?_
    · constructor <;> intro x hx <;> rw [hsessions] at hx <;> exact absurd hx Table.not_mem_empty
    · exact ⟨acted.dated inv.1 badge, acted.oneOpen mono inv.1 inv.2 ordered badge⟩
  exact both.2

section Office
open Office

theorem utc_mono (tz : String) (zone' : Zone) (h : utc tz = some zone') : Monotone zone'.startOfDay := by
  have hzone : zone' = zone := by
    unfold utc at h
    split at h
    · exact (Option.some.inj h).symm
    · cases h
  intro a b hab
  rw [hzone]
  exact Int.mul_le_mul_of_nonneg_right (Int.ediv_le_ediv (by decide) hab) (by decide)

/-- Ann comes on the first day, forgets to leave, and comes late on the second. -/
def forgotten : Request :=
  { request "5" .latePunchOutAndPunchIn (33 * hour) with
    dto := { employeeCode := "ANN1", action := .latePunchOutAndPunchIn, previousSessionId := some "s1",
             approxPunchOutTime := some (some (17 * hour)), currentPunchInTime := some (some (33 * hour)) } }

theorem reach_forgotten : (attendance utc).Reach (NonDecreasing utc) (runAll utc db [request "1" .punchIn (9 * hour), forgotten]) := by
  refine .step (.step (.init ⟨rfl, rfl⟩) ?_ ⟨_, Prog.exec_run (Request.call utc (request "1" .punchIn (9 * hour))) _⟩)
    ?_ ⟨_, Prog.exec_run (Request.call utc forgotten) _⟩
  · exact fun _ _ _ x hx => absurd hx Table.not_mem_empty
  · intro staff time hpunch x hx _ first hfirst
    have firsts : ∀ x ∈ (runAll utc db [request "1" .punchIn (9 * hour)]).attendanceSession,
        x.firstPunchInAt = some (9 * hour) := by decide
    obtain rfl := Option.some.inj ((firsts x hx).symm.trans hfirst)
    cases hpunch with
    | punchIn _ action _ => cases action
    | late _ _ may =>
      obtain rfl := Option.some.inj (Option.some.inj may.inTime)
      decide

theorem one_open_session_office : OneOpen (runAll utc db [request "1" .punchIn (9 * hour), forgotten]) :=
  one_open_session utc utc_mono _ reach_forgotten

end Office

end Vms.Attendance
