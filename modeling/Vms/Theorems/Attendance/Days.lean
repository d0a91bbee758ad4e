import Vms.Theorems.Attendance.Invariant

/-! One session per staff member and day. The schema has no constraint for it: it holds as long as no
    request opens a session on a day that already has one, and breaks at the first that does. -/

namespace Vms.Attendance
open Relational

def OnePerDay (s : Db) : Prop := ∀ x ∈ s.attendanceSession, ∀ y ∈ s.attendanceSession,
  x.staffId = y.staffId → x.date = y.date → x = y

/-- The request passes all checks and opens a session of the staff member on that day. -/
inductive OpensDay (luxon : Luxon) (s : Db) (q : Request) (staff : Staff) : Date → Prop where
  | punchIn {zone : Zone} {time : Date} (badge : q.Badge s staff) (action : q.dto.action = .punchIn)
    (may : MayPunchIn luxon s q.io q.dto staff zone time) : OpensDay luxon s q staff (zone.startOfDay time)
  | late {x : AttendanceSession} {zone : Zone} {approxOut punchIn : Date} (badge : q.Badge s staff)
    (action : q.dto.action = .latePunchOutAndPunchIn)
    (may : MayPunchOutLate luxon s q.dto staff x zone approxOut punchIn) :
    OpensDay luxon s q staff (zone.startOfDay punchIn)

/-- No session of the staff member is dated the day that the request opens. -/
def FreshDay (luxon : Luxon) (s : Db) (q : Request) : Prop :=
  ∀ staff day, OpensDay luxon s q staff day → ∀ x ∈ s.attendanceSession, x.staffId = staff.id → x.date ≠ day

section Days
variable {luxon : Luxon} {s t u : Db} {q : Request} {staff staff' : Staff} {day day' : Date}
  {x x' : AttendanceSession} {e : AttendanceEvent}

/-- A request opens one day of one staff member. -/
theorem OpensDay.unique (h : OpensDay luxon s q staff day) (h' : OpensDay luxon s q staff' day') :
    staff = staff' ∧ day = day' := by
  have badges : ∀ {a b}, q.Badge s a → q.Badge s b → a = b := fun ha hb =>
    Option.some.inj (ha.found.symm.trans hb.found)
  cases h with
  | punchIn badge action may =>
    cases h' with
    | punchIn badge' _ may' =>
      obtain rfl := badges badge badge'
      obtain rfl := Option.some.inj (may.atTime.symm.trans may'.atTime)
      obtain rfl := Option.some.inj (may.inZone.symm.trans may'.inZone)
      exact ⟨rfl, rfl⟩
    | late _ action' _ =>
      rw [action] at action'
      cases action'
  | late badge action may =>
    cases h' with
    | punchIn _ action' _ =>
      rw [action] at action'
      cases action'
    | late badge' _ may' =>
      obtain rfl := badges badge badge'
      obtain rfl := Option.some.inj (Option.some.inj (may.inTime.symm.trans may'.inTime))
      obtain rfl := Option.some.inj (may.inZone.symm.trans may'.inZone)
      exact ⟨rfl, rfl⟩

theorem OpensDay.action (h : OpensDay luxon s q staff day) :
    q.dto.action = .punchIn ∨ q.dto.action = .latePunchOutAndPunchIn := by
  cases h with
  | punchIn _ action _ => exact Or.inl action
  | late _ action _ => exact Or.inr action

/-- Adding a session keeps the days apart exactly if its day is free. -/
theorem Opens.onePerDay (days : OnePerDay s) (h : Opens s t x e) :
    OnePerDay t ↔ ∀ y ∈ s.attendanceSession, y.staffId = x.staffId → y.date ≠ x.date := by
  constructor
  · intro days' y hy hstaff hdate
    have hyx := days' y (h.mem_session.mpr (Or.inl hy)) x (h.mem_session.mpr (Or.inr rfl)) hstaff hdate
    exact h.id_ne hy (by rw [hyx])
  · intro free y hy z hz hstaff hdate
    rcases h.mem_session.mp hy with hy | rfl <;> rcases h.mem_session.mp hz with hz | rfl
    · exact days y hy z hz hstaff hdate
    · exact absurd hdate (free y hy hstaff)
    · exact absurd hdate.symm (free z hz hstaff.symm)
    · rfl

theorem Marks.onePerDay (days : OnePerDay s) (h : Marks s t e) : OnePerDay t := by
  unfold OnePerDay
  rw [h.sessions]
  exact days

theorem Closes.onePerDay (days : OnePerDay s) (h : Closes s t x x' e) (hx : x ∈ s.attendanceSession) : OnePerDay t := by
  intro y hy z hz hstaff hdate
  obtain ⟨y₀, hy₀, hidy, hstaffy, hdatey, -⟩ := h.origin hx hy
  obtain ⟨z₀, hz₀, hidz, hstaffz, hdatez, -⟩ := h.origin hx hz
  have heq := days y₀ hy₀ z₀ hz₀ (by rw [hstaffy, hstaffz, hstaff]) (by rw [hdatey, hdatez, hdate])
  exact Table.eq_of_id hy hz (hidy.symm.trans ((congrArg AttendanceSession.id heq).trans hidz))

/-- A day is free after a session was closed if it was free before. -/
theorem Closes.free_iff (h : Closes s t x x' e) (hx : x ∈ s.attendanceSession) {staffId : String} :
    (∀ y ∈ t.attendanceSession, y.staffId = staffId → y.date ≠ day) ↔
      ∀ y ∈ s.attendanceSession, y.staffId = staffId → y.date ≠ day := by
  constructor
  · intro free y hy hstaff hdate
    obtain ⟨y', hy', -, hstaff', hdate'⟩ := h.kept hx hy
    exact free y' hy' (hstaff'.trans hstaff) (hdate'.trans hdate)
  · intro free y hy hstaff hdate
    obtain ⟨y₀, hy₀, -, hstaff', hdate', -⟩ := h.origin hx hy
    exact free y₀ hy₀ (hstaff'.trans hstaff) (hdate'.trans hdate)

/-- One accepted action keeps one session a day exactly if the day that it opens is free. -/
theorem Acted.onePerDay_iff (days : OnePerDay s) (badge : q.Badge s staff) (h : Acted luxon s q staff t) :
    OnePerDay t ↔ FreshDay luxon s q := by
  have fresh_iff : ∀ {day}, OpensDay luxon s q staff day →
      (FreshDay luxon s q ↔ ∀ y ∈ s.attendanceSession, y.staffId = staff.id → y.date ≠ day) := fun hday =>
    ⟨fun fresh => fresh _ _ hday, fun free staff' day' hday' => by
      obtain ⟨rfl, rfl⟩ := hday.unique hday'
      exact free⟩
  have fresh_of : ∀ {a}, q.dto.action = a → a ≠ .punchIn → a ≠ .latePunchOutAndPunchIn → FreshDay luxon s q :=
    fun action hin hlate staff day hday => by
      rcases hday.action with h | h
      · exact absurd (action.symm.trans h) hin
      · exact absurd (action.symm.trans h) hlate
  cases h with
  | punchIn zone time action may opens =>
    rw [opens.onePerDay days, fresh_iff (.punchIn badge action may)]
    exact Iff.rfl
  | breakStart x time action may marks =>
    exact iff_of_true (marks.onePerDay days) (fresh_of action nofun nofun)
  | breakEnd x time action may marks =>
    exact iff_of_true (marks.onePerDay days) (fresh_of action nofun nofun)
  | punchOut x x' time action may closes =>
    exact iff_of_true (closes.onePerDay days may.names.mem) (fresh_of action nofun nofun)
  | late x x' zone approxOut punchIn u action may closes opens =>
    rw [opens.onePerDay (closes.onePerDay days may.names.mem), fresh_iff (.late badge action may),
      ← closes.free_iff may.names.mem]
    exact Iff.rfl

/-- A step of a run keeps the sessions, under their keys. -/
theorem step_kept (h : (attendance luxon).step s q t) (hx : x ∈ s.attendanceSession) :
    ∃ x' ∈ t.attendanceSession, x'.id = x.id ∧ x'.staffId = x.staffId ∧ x'.date = x.date := by
  rcases action_inv h with rfl | ⟨staff, badge, acted⟩
  · exact ⟨x, hx, rfl, rfl, rfl⟩
  · cases acted with
    | punchIn zone time action may opens => exact ⟨x, opens.mem_session.mpr (Or.inl hx), rfl, rfl, rfl⟩
    | breakStart y time action may marks => exact ⟨x, by rw [marks.sessions]; exact hx, rfl, rfl, rfl⟩
    | breakEnd y time action may marks => exact ⟨x, by rw [marks.sessions]; exact hx, rfl, rfl, rfl⟩
    | punchOut y y' time action may closes => exact closes.kept may.names.mem hx
    | late y y' zone approxOut punchIn u action may closes opens =>
      obtain ⟨x', hx', same⟩ := closes.kept may.names.mem hx
      exact ⟨x', opens.mem_session.mpr (Or.inl hx'), same⟩

theorem onePerDay_of_reach (h : (attendance luxon).Reach (FreshDay luxon) s) : OnePerDay s := by
  refine attendance_invariant h (fun s hsessions _ => ?_) fun s q staff t _ days fresh badge acted => ?_
  · simp [OnePerDay, hsessions]
  · exact (acted.onePerDay_iff days badge).mpr fresh

end Days

/-- In a run whose requests open only free days, no staff member has two sessions of a day, and a
    closed day gets no other session; and a request that is accepted keeps the days apart only if the
    day that it opens is free. -/
theorem one_session_per_day (luxon : Luxon) :
    (∀ s, (attendance luxon).Reach (FreshDay luxon) s → OnePerDay s) ∧
    (∀ s q t, (attendance luxon).Reach (FreshDay luxon) s → FreshDay luxon s q → (attendance luxon).step s q t →
      ∀ x ∈ s.attendanceSession, x.status = .closed → ∀ y ∈ t.attendanceSession, y.staffId = x.staffId →
        y.date = x.date → y.id = x.id) ∧
    ∀ s q t reply, OnePerDay s → Prog.Exec (q.call luxon) s (.ok reply) t → (OnePerDay t ↔ FreshDay luxon s q) := by
  refine ⟨fun s h => onePerDay_of_reach h, fun s q t h fresh step x hx _ y hy hstaff hdate => ?_,
    fun s q t reply days hexec => ?_⟩
  · obtain ⟨x', hx', hid, hstaff', hdate'⟩ := step_kept step hx
    have days := onePerDay_of_reach (h.step fresh step)
    rw [days y hy x' hx' (hstaff.trans hstaff'.symm) (hdate.trans hdate'.symm), hid]
  · obtain ⟨staff, badge, acted⟩ := action_accepted hexec
    exact acted.onePerDay_iff days badge

section Office
open Office

/-- A punch-in on the second day finds no session of that day. -/
theorem freshDay_next : FreshDay utc (runAll utc db firstDay) (request "3" .punchIn (33 * hour)) := by
  intro staff day hday x hx _
  have dates : ∀ x ∈ (runAll utc db firstDay).attendanceSession, x.date = 0 := by decide
  rw [dates x hx]
  cases hday with
  | punchIn badge _ may =>
    have hzone := may.inZone
    rw [badge.org] at hzone
    obtain rfl := Option.some.inj (hzone.symm.trans (rfl : orgZone utc (runAll utc db firstDay) "org" = some zone))
    obtain rfl := Option.some.inj (may.atTime.symm.trans (rfl : _ = some (33 * hour)))
    decide
  | late _ action _ => cases action

theorem reach_firstDay : (attendance utc).Reach (FreshDay utc) (runAll utc db firstDay) := by
  refine .step (.step (.init ⟨rfl, rfl⟩) ?_ ⟨_, Prog.exec_run (Request.call utc (request "1" .punchIn (9 * hour))) _⟩)
    ?_ ⟨_, Prog.exec_run (Request.call utc (request "2" .punchOut (17 * hour) (some "s1"))) _⟩
  · exact fun _ _ _ x hx => absurd hx Table.not_mem_empty
  · intro _ _ hday
    rcases hday.action with action | action <;> cases action

theorem one_session_per_day_office : OnePerDay (runAll utc db firstDay) ∧
    (∀ y ∈ (runAll utc db (firstDay ++ [request "3" .punchIn (33 * hour)])).attendanceSession,
      y.staffId = "ann" → y.date = 0 → y.id = "s1") ∧
    (OnePerDay (runAll utc db (firstDay ++ [request "4" .punchIn (18 * hour)])) ↔
      FreshDay utc (runAll utc db firstDay) (request "4" .punchIn (18 * hour))) := by
  have closed : ∃ x ∈ (runAll utc db firstDay).attendanceSession, x.status = .closed ∧ x.id = "s1" ∧
      x.staffId = "ann" ∧ x.date = 0 := by decide
  obtain ⟨x, hx, hclosed, hid, hstaff, hdate⟩ := closed
  refine ⟨(one_session_per_day utc).1 _ reach_firstDay, fun y hy hy' hday => ?_,
    (one_session_per_day utc).2.2 _ _ _ (.punchIn "s4" (18 * hour)) ((one_session_per_day utc).1 _ reach_firstDay)
      (Prog.exec_run (Request.call utc (request "4" .punchIn (18 * hour))) _)⟩
  rw [← hid]
  exact (one_session_per_day utc).2.1 _ _ _ reach_firstDay freshDay_next
    ⟨_, Prog.exec_run (Request.call utc (request "3" .punchIn (33 * hour))) _⟩ x hx hclosed y hy (hy'.trans hstaff.symm)
    (hday.trans hdate.symm)

/-- Ann punches in, out, and in again on the same day. -/
theorem two_sessions_of_a_day : ¬∀ s, (attendance utc).Reachable s → OnePerDay s := fun h => by
  have days := h _ (reachable (firstDay ++ [request "4" .punchIn (18 * hour)]))
  have two : ∃ x ∈ (runAll utc db (firstDay ++ [request "4" .punchIn (18 * hour)])).attendanceSession,
      ∃ y ∈ (runAll utc db (firstDay ++ [request "4" .punchIn (18 * hour)])).attendanceSession,
        x.staffId = y.staffId ∧ x.date = y.date ∧ x ≠ y := by decide
  obtain ⟨x, hx, y, hy, hstaff, hdate, hne⟩ := two
  exact hne (days x hx y hy hstaff hdate)

end Office

end Vms.Attendance
