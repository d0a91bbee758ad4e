import Mathlib.Data.List.Induction
import Vms.AttendanceExport
import Vms.Theorems.Attendance.Step

/-! The attendance export. A row looks its session up under the UTC date of the local midnight, so it shows
    the session of its own day only if no other day of the range that has a session of the staff member
    begins on the same UTC date; and the last day of the range is missing if the clock change of an
    earlier one has moved the loop past its midnight. -/

namespace Vms.Attendance
open Relational HttpException

/-! ### The days of a range -/

section Days
variable {cal : Calendar} {startDT endDT d : Date}

/-- The days that the loop comes to. -/
def Visits (cal : Calendar) (startDT endDT d : Date) : Prop := ∃ n, d = cal.plusDay^[n] startDT ∧ d ≤ endDT

theorem le_iterate_plusDay (n : Nat) : startDT ≤ cal.plusDay^[n] startDT := by
  induction n with
  | zero => exact le_refl startDT
  | succ n ih =>
    rw [Function.iterate_succ_apply']
    exact le_of_lt (lt_of_le_of_lt ih (cal.later _))

theorem mem_days : d ∈ cal.days startDT endDT ↔ Visits cal startDT endDT d := by
  constructor
  · intro h
    fun_induction Calendar.days cal startDT endDT with
    | case1 cur hle ih =>
      rcases List.mem_cons.mp h with rfl | h
      · exact ⟨0, rfl, hle⟩
      · obtain ⟨n, hn, hd⟩ := ih h
        exact ⟨n + 1, hn, hd⟩
    | case2 cur hle => cases h
  · rintro ⟨n, rfl, hd⟩
    induction n generalizing startDT with
    | zero =>
      have hle : startDT ≤ endDT := hd
      rw [Calendar.days, dif_pos hle]
      exact List.mem_cons_self
    | succ n ih =>
      have hle : startDT ≤ endDT := le_trans (le_iterate_plusDay (n + 1)) hd
      rw [Calendar.days, dif_pos hle]
      exact List.mem_cons_of_mem _ (ih hd)

/-- Two days that the loop comes to and that begin at the same time are the same. -/
theorem Visits.inj {d' : Date} (h : Visits cal startDT endDT d) (h' : Visits cal startDT endDT d')
    (heq : cal.startOfDay d = cal.startOfDay d') : d = d' := by
  obtain ⟨n, rfl, -⟩ := h
  obtain ⟨m, rfl, -⟩ := h'
  have mono : StrictMono fun n => cal.startOfDay (cal.plusDay^[n] startDT) := strictMono_nat_of_lt_succ fun n => by
    rw [Function.iterate_succ_apply']
    exact cal.lt_plusDay _
  rw [mono.injective heq]

/-- From a day no later than a midnight, the loop would come to the day of that midnight. -/
theorem exists_iterate {u : Date} (hu : cal.startOfDay u = u) (cur : Date) (hle : cal.startOfDay cur ≤ u) :
    ∃ n, cal.startOfDay (cal.plusDay^[n] cur) = u := by
  rcases eq_or_lt_of_le hle with heq | hlt
  · exact ⟨0, heq⟩
  · have hnext : cal.startOfDay (cal.plusDay cur) ≤ u := hu ▸ cal.plusDay_le cur u (hu.symm ▸ hlt)
    obtain ⟨n, hn⟩ := exists_iterate hu (cal.plusDay cur) hnext
    exact ⟨n + 1, hn⟩
termination_by (u + 1 - cal.startOfDay cur).toNat
decreasing_by
  have hleft : 0 < u + 1 - cal.startOfDay cur := Int.sub_pos.mpr (Int.lt_add_one_iff.mpr hle)
  exact (Int.toNat_lt_toNat hleft).mpr (Int.sub_lt_sub_left (cal.lt_plusDay cur) _)

/-- The loop comes to the day of every midnight of the range but the last. -/
theorem visits_of_lt {u : Date} (hstart : cal.startOfDay startDT = startDT) (hend : cal.startOfDay endDT = endDT)
    (hu : cal.startOfDay u = u) (hle : startDT ≤ u) (hlt : u < endDT) :
    ∃ d, Visits cal startDT endDT d ∧ cal.startOfDay d = u := by
  obtain ⟨n, hn⟩ := exists_iterate hu startDT (hstart.symm ▸ hle)
  refine ⟨_, ⟨n, rfl, ?_⟩, hn⟩
  by_contra hafter
  have hmono := cal.startOfDay_mono _ _ (le_of_lt (not_le.mp hafter))
  rw [hn, hend] at hmono
  exact absurd hlt (not_lt.mpr hmono)

/-- A day of the loop that begins at the end of the range is the end of the range. -/
theorem Visits.of_end (h : Visits cal startDT endDT d) (hd : cal.startOfDay d = endDT) : d = endDT := by
  obtain ⟨n, -, hle⟩ := h
  exact le_antisymm hle (hd ▸ cal.startOfDay_le d)

end Days

/-! ### The map of sessions -/

section Map
variable {sessions : List ExportSession} {key : SessionKey} {y : ExportSession}

/-- The key of a session. -/
def keyOf (y : ExportSession) : SessionKey := (y.session.staffId, utcDate y.session.date)

theorem sessionsByKey_append : sessionsByKey (sessions ++ [y]) = Function.update (sessionsByKey sessions) (keyOf y) (some y) := by
  simp [sessionsByKey, keyOf]

/-- A session that the map gives is one of the sessions, under its own key. -/
theorem mem_of_sessionsByKey (h : sessionsByKey sessions key = some y) : y ∈ sessions ∧ keyOf y = key := by
  induction sessions using List.reverseRecOn with
  | nil => cases h
  | append_singleton sessions z ih =>
    rw [sessionsByKey_append] at h
    by_cases hkey : key = keyOf z
    · subst hkey
      rw [Function.update_self] at h
      obtain rfl := Option.some.inj h
      exact ⟨List.mem_append_right _ List.mem_cons_self, rfl⟩
    · rw [Function.update_of_ne hkey] at h
      exact ⟨List.mem_append_left _ (ih h).1, (ih h).2⟩

/-- The map gives some session under the key of every session. -/
theorem sessionsByKey_of_mem (hy : y ∈ sessions) : ∃ z, sessionsByKey sessions (keyOf y) = some z := by
  induction sessions using List.reverseRecOn with
  | nil => cases hy
  | append_singleton sessions z ih =>
    rw [sessionsByKey_append]
    by_cases hkey : keyOf y = keyOf z
    · rw [hkey, Function.update_self]
      exact ⟨z, rfl⟩
    · rw [Function.update_of_ne hkey]
      rcases List.mem_append.mp hy with hy | hy
      · exact ih hy
      · exact absurd (congrArg keyOf (List.mem_singleton.mp hy)) hkey

end Map

/-! ### What an export shows -/

/-- The range that a request asks for, in the time zone of the organisation. -/
def rangeOf (luxon : String → Option Calendar) (s : Db) (orgId startIso endIso : String) : Option (Calendar × Date × Date) :=
  (s.organization.find orgId).bind fun org => dateRange (luxon ((truthy org.timezone).getD "UTC")) startIso endIso

/-- The session of a staff member of the organisation on a day. -/
def IsOwn (s : Db) (orgId : String) (cal : Calendar) (staffId : String) (dt : Date) (x : AttendanceSession) : Prop :=
  x ∈ s.attendanceSession ∧ x.orgId = orgId ∧ x.staffId = staffId ∧ x.date = cal.startOfDay dt

/-- A session that an export should show: of a staff member of the organisation, on a day of the range. -/
structure Listed (s : Db) (orgId : String) (cal : Calendar) (startDT endDT : Date) (x : AttendanceSession) : Prop where
  mem : x ∈ s.attendanceSession
  org : x.orgId = orgId
  staff : ∃ staff ∈ s.staff, staff.orgId = orgId ∧ staff.id = x.staffId
  midnight : cal.startOfDay x.date = x.date
  start : startDT ≤ x.date
  finish : x.date ≤ endDT

/-- Every row shows the session of its staff member and its day, as absent or off only if there is none;
    and every session of the range is on exactly one day. -/
structure Faithful (s : Db) (orgId : String) (cal : Calendar) (startDT endDT : Date) (reply : Export) : Prop where
  own : ∀ day ∈ reply, ∀ row ∈ day.rows, ∀ x, row.session = some x ↔ IsOwn s orgId cal row.staff.id row.dt x
  absent : ∀ day ∈ reply, ∀ row ∈ day.rows, row.status = "Absent" ∨ row.status = "Off Day" ↔
    ¬∃ x, IsOwn s orgId cal row.staff.id row.dt x
  shown : ∀ x, Listed s orgId cal startDT endDT x → ∃ day ∈ reply, ∃ row ∈ day.rows, row.session = some x
  once : ∀ day ∈ reply, ∀ row ∈ day.rows, ∀ day' ∈ reply, ∀ row' ∈ day'.rows, ∀ x, row.session = some x →
    row'.session = some x → row.dt = row'.dt

/-- No day of the loop begins on the UTC date on which another one with a session does, and the loop comes
    to the last day if it has a session. -/
structure Distinct (s : Db) (orgId : String) (cal : Calendar) (startDT endDT : Date) : Prop where
  dates : ∀ x, Listed s orgId cal startDT endDT x → ∀ d, Visits cal startDT endDT d →
    utcDate (cal.startOfDay d) = utcDate x.date → cal.startOfDay d = x.date
  last : ∀ x, Listed s orgId cal startDT endDT x → x.date = endDT → Visits cal startDT endDT endDT

/-! ### The rows of an export -/

/-- What an export is made of: the staff of the organisation, and its sessions on the days of the loop. -/
structure MadeOf (s : Db) (orgId : String) (cal : Calendar) (startDT endDT : Date) (orgHours : List WorkingHours)
    (staffList : List ExportStaff) (sessions : List ExportSession) (reply : Export) : Prop where
  ofStaff : ∀ staff, (∃ e ∈ staffList, e.staff = staff) ↔ staff ∈ s.staff ∧ staff.orgId = orgId
  ofDays : ∀ x, (∃ y ∈ sessions, y.session = x) ↔
    x ∈ s.attendanceSession ∧ x.orgId = orgId ∧ ∃ d, Visits cal startDT endDT d ∧ x.date = cal.startOfDay d
  rows : reply = (cal.days startDT endDT).map (exportDay cal orgHours staffList sessions)

theorem mem_map_rows {α β : Type} [Row α] {order : RowOrder α} {l : List α} {f : α → β} {b : β} :
    b ∈ (order.rows l).map f ↔ ∃ a ∈ l, f a = b := by
  rw [List.mem_map]
  exact exists_congr fun a => and_congr_left fun _ => (order.perm l).mem_iff

theorem export_spec {luxon : String → Option Calendar} {order : ExportOrder} {orgId role startIso endIso : String} {s : Db} :
    (exportAttendanceRangeExcel luxon order orgId role startIso endIso).Post (AllOrNothing s fun reply t => t = s ∧
      ∀ cal startDT endDT, rangeOf luxon s orgId startIso endIso = some (cal, startDT, endDT) →
        startDT ≤ endDT ∧ ∃ orgHours staffList sessions,
          MadeOf s orgId cal startDT endDT orgHours staffList sessions reply) s := by
  simp only [exportAttendanceRangeExcel, Prog.post_bind, Prog.post_failIf, Prog.then_ok, Prog.then_error, post_query,
    Prog.post_orFail, allOrNothing_error, implies_true, true_and, and_true]
  rintro - ⟨org, orgHours⟩ hfound hrange
  obtain ⟨org', horg, hpair⟩ := Option.map_eq_some_iff.mp hfound
  obtain ⟨rfl, rfl⟩ := Prod.mk.inj hpair
  have hrangeOf : rangeOf luxon s orgId startIso endIso =
      dateRange (luxon ((truthy org'.timezone).getD "UTC")) startIso endIso := by
    rw [rangeOf, horg, Option.bind_some]
  rw [← hrangeOf] at hrange ⊢
  cases hcal : rangeOf luxon s orgId startIso endIso with
  | none => simp
  | some range =>
    obtain ⟨cal, startDT, endDT⟩ := range
    simp only [Prog.post_bind, post_query, Prog.then_ok, Prog.then_error, Prog.post_pure, allOrNothing_ok,
      allOrNothing_error, and_true, true_and]
    intro cal' startDT' endDT' heq
    obtain ⟨rfl, rfl, rfl⟩ := Prod.mk.inj (Option.some.inj heq)
    refine ⟨not_lt.mp (by simpa [hcal] using hrange), _, _, _, fun staff => ?_, fun x => ?_, rfl⟩
    · constructor
      · rintro ⟨e, he, rfl⟩
        obtain ⟨staff, hstaff, rfl⟩ := mem_map_rows.mp he
        simpa [Table.mem_filter] using hstaff
      · rintro ⟨hstaff, horg⟩
        exact ⟨_, mem_map_rows.mpr ⟨staff, Table.mem_filter.mpr ⟨hstaff, by simpa using horg⟩, rfl⟩, rfl⟩
    · have hdays : ((cal.days startDT endDT).map cal.startOfDay).contains x.date = true ↔
          ∃ d, Visits cal startDT endDT d ∧ x.date = cal.startOfDay d := by
        simp [List.mem_map, mem_days, eq_comm]
      constructor
      · rintro ⟨y, hy, rfl⟩
        obtain ⟨x, hx, rfl⟩ := mem_map_rows.mp hy
        obtain ⟨hmem, hcond⟩ := Table.mem_filter.mp hx
        rw [Bool.and_eq_true, beq_iff_eq] at hcond
        exact ⟨hmem, hcond.1, hdays.mp hcond.2⟩
      · rintro ⟨hmem, horg, hd⟩
        refine ⟨_, mem_map_rows.mpr ⟨x, Table.mem_filter.mpr ⟨hmem, ?_⟩, rfl⟩, rfl⟩
        rw [Bool.and_eq_true, beq_iff_eq]
        exact ⟨horg, hdays.mpr hd⟩

section Rows
variable {s : Db} {orgId : String} {cal : Calendar} {startDT endDT : Date} {orgHours : List WorkingHours}
  {staffList : List ExportStaff} {sessions : List ExportSession} {reply : Export} {x : AttendanceSession}

/-- The row of a staff member and a day, for any staff member of the organisation and any day of the loop. -/
theorem MadeOf.exists_row (h : MadeOf s orgId cal startDT endDT orgHours staffList sessions reply) {d : Date}
    (hd : Visits cal startDT endDT d) {staff : Staff} (hstaff : staff ∈ s.staff) (horg : staff.orgId = orgId) :
    ∃ day ∈ reply, ∃ row ∈ day.rows, row.staff = staff ∧ row.dt = d := by
  obtain ⟨e, he, rfl⟩ := (h.ofStaff staff).mpr ⟨hstaff, horg⟩
  refine ⟨exportDay cal orgHours staffList sessions d, ?_, _, List.mem_map_of_mem he, rfl, rfl⟩
  rw [h.rows]
  exact List.mem_map_of_mem (mem_days.mpr hd)

/-- Every row is that of a staff member of the organisation and of a day of the loop. -/
theorem MadeOf.row (h : MadeOf s orgId cal startDT endDT orgHours staffList sessions reply) {day : ExportDay}
    (hday : day ∈ reply) {row : ExportRow} (hrow : row ∈ day.rows) : row.staff ∈ s.staff ∧ row.staff.orgId = orgId ∧
      Visits cal startDT endDT row.dt ∧ row.session = (rowSession cal sessions row.staff.id row.dt).map (·.session) ∧
      ((row.status = "Absent" ∨ row.status = "Off Day") ↔ row.session = none) := by
  rw [h.rows] at hday
  obtain ⟨d, hd, rfl⟩ := List.mem_map.mp hday
  obtain ⟨e, he, rfl⟩ := List.mem_map.mp hrow
  obtain ⟨hstaff, horg⟩ := (h.ofStaff e.staff).mp ⟨e, he, rfl⟩
  refine ⟨hstaff, horg, mem_days.mp hd, rfl, ?_⟩
  show (rowStatus _ _ = "Absent" ∨ rowStatus _ _ = "Off Day") ↔ Option.map _ _ = none
  unfold rowStatus
  cases rowSession cal sessions e.staff.id d with
  | none =>
    refine iff_of_true ?_ rfl
    simp only [Option.isSome_none, Bool.false_eq_true, if_false]
    split
    · exact Or.inr rfl
    · exact Or.inl rfl
  | some y => simp

/-- What a row shows is a session of its staff member, on a day of the loop that begins on the same UTC date. -/
theorem MadeOf.of_rowSession (h : MadeOf s orgId cal startDT endDT orgHours staffList sessions reply) {staffId : String}
    {d : Date} {y : ExportSession} (hy : rowSession cal sessions staffId d = some y) :
    y.session ∈ s.attendanceSession ∧ y.session.orgId = orgId ∧ y.session.staffId = staffId ∧
      utcDate (cal.startOfDay d) = utcDate y.session.date ∧
      ∃ d', Visits cal startDT endDT d' ∧ y.session.date = cal.startOfDay d' := by
  obtain ⟨hmem, hkey⟩ := mem_of_sessionsByKey hy
  obtain ⟨hstaff, hdate⟩ := Prod.mk.inj hkey
  obtain ⟨hsession, horg, hd⟩ := (h.ofDays y.session).mp ⟨y, hmem, rfl⟩
  exact ⟨hsession, horg, hstaff, hdate.symm, hd⟩

/-- A row shows some session, if a session of its staff member is on the UTC date of its midnight. -/
theorem MadeOf.rowSession_of (h : MadeOf s orgId cal startDT endDT orgHours staffList sessions reply) {d d' : Date}
    (hx : x ∈ s.attendanceSession) (horg : x.orgId = orgId) (hd' : Visits cal startDT endDT d')
    (hdate : x.date = cal.startOfDay d') (hsame : utcDate (cal.startOfDay d) = utcDate x.date) :
    ∃ y, rowSession cal sessions x.staffId d = some y := by
  obtain ⟨y, hy, rfl⟩ := (h.ofDays x).mpr ⟨hx, horg, d', hd', hdate⟩
  obtain ⟨z, hz⟩ := sessionsByKey_of_mem hy
  refine ⟨z, ?_⟩
  rw [rowSession, hsame]
  exact hz

/-- A session on a day of the loop is one that an export should show. -/
theorem listed_of_visits (hend : cal.startOfDay endDT = endDT) (hstart : cal.startOfDay startDT = startDT) {d : Date}
    (hd : Visits cal startDT endDT d) (hx : x ∈ s.attendanceSession) (horg : x.orgId = orgId)
    (hstaff : ∃ staff ∈ s.staff, staff.orgId = orgId ∧ staff.id = x.staffId) (hdate : x.date = cal.startOfDay d) :
    Listed s orgId cal startDT endDT x := by
  obtain ⟨n, rfl, hle⟩ := hd
  refine ⟨hx, horg, hstaff, by rw [hdate, cal.startOfDay_idem], ?_, ?_⟩
  · have hle : startDT ≤ cal.plusDay^[n] startDT := le_iterate_plusDay n
    have hmono := cal.startOfDay_mono _ _ hle
    rwa [hstart, ← hdate] at hmono
  · have hmono := cal.startOfDay_mono _ _ hle
    rwa [hend, ← hdate] at hmono

/-- The loop comes to the day of a session, unless it is the last one and the loop misses it. -/
theorem Listed.visits (h : Listed s orgId cal startDT endDT x) (hstart : cal.startOfDay startDT = startDT)
    (hend : cal.startOfDay endDT = endDT) (last : x.date = endDT → Visits cal startDT endDT endDT) :
    ∃ d, Visits cal startDT endDT d ∧ cal.startOfDay d = x.date := by
  rcases eq_or_lt_of_le h.finish with heq | hlt
  · exact ⟨endDT, last heq, hend.trans heq.symm⟩
  · exact visits_of_lt hstart hend h.midnight h.start hlt

theorem MadeOf.distinct (h : MadeOf s orgId cal startDT endDT orgHours staffList sessions reply)
    (hstart : cal.startOfDay startDT = startDT) (hend : cal.startOfDay endDT = endDT)
    (faithful : Faithful s orgId cal startDT endDT reply) : Distinct s orgId cal startDT endDT := by
  have last : ∀ x, Listed s orgId cal startDT endDT x → x.date = endDT → Visits cal startDT endDT endDT := by
    intro x hx hlast
    obtain ⟨day, hday, row, hrow, hshown⟩ := faithful.shown x hx
    have hown := (faithful.own day hday row hrow x).mp hshown
    have hvisits := (h.row hday hrow).2.2.1
    rwa [hvisits.of_end (hown.2.2.2.symm.trans hlast)] at hvisits
  refine ⟨fun x hx d hd hsame => ?_, last⟩
  obtain ⟨staff, hstaff, horg, hid⟩ := hx.staff
  obtain ⟨d', hd', hmidnight⟩ := hx.visits hstart hend (last x hx)
  -- the rows of the two days look up the same key
  obtain ⟨day, hday, row, hrow, rfl, rfl⟩ := h.exists_row hd hstaff horg
  obtain ⟨day', hday', row', hrow', hstaff', rfl⟩ := h.exists_row hd' hstaff horg
  have hown' : row'.session = some x := (faithful.own day' hday' row' hrow' x).mpr
    ⟨hx.mem, hx.org, by rw [hstaff', hid], hmidnight.symm⟩
  have hown : row.session = some x := by
    rw [(h.row hday hrow).2.2.2.1, ← hown', (h.row hday' hrow').2.2.2.1, hstaff', rowSession, rowSession, hsame, hmidnight]
  exact ((faithful.own day hday row hrow x).mp hown).2.2.2.symm

theorem MadeOf.faithful (h : MadeOf s orgId cal startDT endDT orgHours staffList sessions reply)
    (hstart : cal.startOfDay startDT = startDT) (hend : cal.startOfDay endDT = endDT)
    (unique : ∀ x ∈ s.attendanceSession, ∀ y ∈ s.attendanceSession, x.staffId = y.staffId → x.date = y.date → x = y)
    (distinct : Distinct s orgId cal startDT endDT) : Faithful s orgId cal startDT endDT reply := by
  have own : ∀ day ∈ reply, ∀ row ∈ day.rows, ∀ x, row.session = some x ↔ IsOwn s orgId cal row.staff.id row.dt x := by
    intro day hday row hrow x
    obtain ⟨hstaff, horg, hvisits, hsession, -⟩ := h.row hday hrow
    -- whatever the row shows is on its own day
    have owned : ∀ y, rowSession cal sessions row.staff.id row.dt = some y → IsOwn s orgId cal row.staff.id row.dt y.session := by
      intro y hy
      obtain ⟨hmem, hyorg, hystaff, hsame, d', hd', hdate⟩ := h.of_rowSession hy
      have hlisted := listed_of_visits hend hstart hd' hmem hyorg ⟨row.staff, hstaff, horg, hystaff.symm⟩ hdate
      exact ⟨hmem, hyorg, hystaff, (distinct.dates y.session hlisted row.dt hvisits hsame).symm⟩
    rw [hsession]
    constructor
    · intro hx
      obtain ⟨y, hy, rfl⟩ := Option.map_eq_some_iff.mp hx
      exact owned y hy
    · rintro ⟨hmem, hxorg, hxstaff, hdate⟩
      obtain ⟨y, hy⟩ := h.rowSession_of (d := row.dt) hmem hxorg hvisits hdate (by rw [hdate])
      rw [hxstaff] at hy
      obtain ⟨hymem, -, hystaff, hydate⟩ := owned y hy
      rw [hy, Option.map_some]
      exact congrArg some (unique y.session hymem x hmem (hystaff.trans hxstaff.symm) (hydate.trans hdate.symm))
  refine ⟨own, fun day hday row hrow => ?_, fun x hx => ?_, fun day hday row hrow day' hday' row' hrow' x hx hx' => ?_⟩
  · rw [(h.row hday hrow).2.2.2.2, Option.eq_none_iff_forall_ne_some, not_exists]
    exact forall_congr' fun x => not_congr (own day hday row hrow x)
  · obtain ⟨staff, hstaff, horg, hid⟩ := hx.staff
    obtain ⟨d, hd, hmidnight⟩ := hx.visits hstart hend (distinct.last x hx)
    obtain ⟨day, hday, row, hrow, rfl, rfl⟩ := h.exists_row hd hstaff horg
    exact ⟨day, hday, row, hrow, (own day hday row hrow x).mpr ⟨hx.mem, hx.org, hid.symm, hmidnight.symm⟩⟩
  · have hdt := ((own day hday row hrow x).mp hx).2.2.2
    have hdt' := ((own day' hday' row' hrow' x).mp hx').2.2.2
    exact (h.row hday hrow).2.2.1.inj (h.row hday' hrow').2.2.1 (hdt.symm.trans hdt')

end Rows

theorem midnight_of_range {luxon : String → Option Calendar} {s : Db} {orgId startIso endIso : String} {cal : Calendar}
    {startDT endDT : Date} (h : rangeOf luxon s orgId startIso endIso = some (cal, startDT, endDT)) :
    cal.startOfDay startDT = startDT ∧ cal.startOfDay endDT = endDT := by
  obtain ⟨org, -, hrange⟩ := Option.bind_eq_some_iff.mp h
  simp only [dateRange, Option.bind_eq_bind, Option.bind_eq_some_iff, Option.pure_def, Option.some.injEq, Prod.mk.injEq] at hrange
  obtain ⟨cal', -, start, -, finish, -, rfl, rfl, rfl⟩ := hrange
  exact ⟨cal'.startOfDay_idem start, cal'.startOfDay_idem finish⟩

/-- An export shows each day's own sessions, all of them and none twice, exactly if no day of the range
    begins on the UTC date of another one that has a session, and the loop comes to the last day if it
    has one. -/
theorem export_faithful (luxon : String → Option Calendar) (order : ExportOrder) (orgId role startIso endIso : String) (s t : Db)
    (unique : ∀ x ∈ s.attendanceSession, ∀ y ∈ s.attendanceSession, x.staffId = y.staffId → x.date = y.date → x = y)
    (cal : Calendar) (startDT endDT : Date) (hrange : rangeOf luxon s orgId startIso endIso = some (cal, startDT, endDT))
    (reply : Export)
    (hexec : Prog.Exec (exportAttendanceRangeExcel luxon order orgId role startIso endIso) s (.ok reply) t) :
    Faithful s orgId cal startDT endDT reply ↔ Distinct s orgId cal startDT endDT := by
  obtain ⟨-, hmade⟩ := export_spec.of_exec hexec
  obtain ⟨-, orgHours, staffList, sessions, hmade⟩ := hmade cal startDT endDT hrange
  obtain ⟨hstart, hend⟩ := midnight_of_range hrange
  exact ⟨hmade.distinct hstart hend, hmade.faithful hstart hend unique⟩

/-! ### An office in London on the last weekend of March 2025 -/

namespace London

/-- Sunday, 30 March 2025, at midnight. -/
def sunday : Date := 1743292800000

/-- Monday, 31 March 2025, at midnight: the clocks have gone forward, and it is still Sunday in UTC. -/
def monday : Date := 1743375600000

def startOfDay (t : Int) : Int :=
  if t < 1743375600000 then t / 86400000 * 86400000 else 1743375600000 + (t - 1743375600000) / 86400000 * 86400000

/-- The same time of the next day, which comes an hour earlier across the change of the clocks. -/
def plusDay (t : Int) : Int := if 1743213600000 ≤ t ∧ t < 1743296400000 then t + 82800000 else t + 86400000

theorem startOfDay_le (t : Int) : startOfDay t ≤ t := by
  unfold startOfDay
  split <;> omega

theorem startOfDay_mono (t u : Int) (h : t ≤ u) : startOfDay t ≤ startOfDay u := by
  unfold startOfDay
  split <;> split <;> omega

theorem startOfDay_idem (t : Int) : startOfDay (startOfDay t) = startOfDay t := by
  unfold startOfDay
  split <;> split <;> omega

theorem lt_plusDay (t : Int) : startOfDay t < startOfDay (plusDay t) := by
  unfold startOfDay plusDay
  split <;> split <;> split <;> omega

theorem plusDay_le (t u : Int) (h : startOfDay t < startOfDay u) : startOfDay (plusDay t) ≤ startOfDay u := by
  revert h
  unfold startOfDay plusDay
  split <;> split <;> split <;> split <;> omega

def calendar : Calendar where
  startOfDay := startOfDay
  toISODate t := if t < monday then "2025-03-30" else "2025-03-31"
  fromISO iso := if iso = "2025-03-30" then some sunday else if iso = "2025-03-31" then some monday else none
  plusDay := plusDay
  weekday t := if t < monday then .sunday else .monday
  toFormat format t :=
    if format = "EEEE" then (if t < monday then "Sunday" else "Monday")
    else if t < monday then "30/03/2025" else "31/03/2025"
  startOfDay_le := startOfDay_le
  startOfDay_mono := startOfDay_mono
  startOfDay_idem := startOfDay_idem
  lt_plusDay := lt_plusDay
  plusDay_le := plusDay_le

def luxon : String → Option Calendar := fun tz => if tz = "Europe/London" then some calendar else none

/-- Ann's session on Monday, of which nothing is recorded but the day. -/
def session : AttendanceSession := { id := "s1", orgId := "org", staffId := "ann", date := monday }

def db : Db where
  organization := {{ id := "org", name := "Org", email := "org@mail.com", timezone := some "Europe/London" }}
  staff := {{ id := "ann", orgId := "org", name := "Ann", email := "ann@mail.com" }}
  attendanceSession := {session}

def order : ExportOrder := ⟨.stored, .stored, .stored⟩

/-- The export of some days by an administrator. -/
def exportOf (startIso endIso : String) : Service Export := exportAttendanceRangeExcel luxon order "org" "Admin" startIso endIso

theorem unique_db : ∀ x ∈ db.attendanceSession, ∀ y ∈ db.attendanceSession, x.staffId = y.staffId → x.date = y.date → x = y := by
  decide

/-- On Monday alone no other day is in the way. -/
theorem distinct_monday : Distinct db "org" calendar monday monday := by
  have only : ∀ d, Visits calendar monday monday d → d = monday := fun d ⟨n, hn, hle⟩ =>
    le_antisymm hle (hn ▸ le_iterate_plusDay n)
  refine ⟨fun x hx d hd _ => ?_, fun _ _ _ => ⟨0, rfl, le_refl _⟩⟩
  rw [only d hd]
  exact le_antisymm hx.start hx.finish

theorem exports_monday : ∃ reply, ((exportOf "2025-03-31" "2025-03-31").run db).1 = .ok reply := ⟨_, rfl⟩

theorem exports_weekend : ∃ reply, ((exportOf "2025-03-30" "2025-03-31").run db).1 = .ok reply := ⟨_, rfl⟩

theorem export_faithful_monday : ∃ reply, ((exportOf "2025-03-31" "2025-03-31").run db).1 = .ok reply ∧
    Faithful db "org" calendar monday monday reply := by
  obtain ⟨reply, hreply⟩ := exports_monday
  have hexec := Prog.exec_run (exportOf "2025-03-31" "2025-03-31") db
  rw [hreply] at hexec
  exact ⟨reply, hreply, (export_faithful luxon order "org" "Admin" "2025-03-31" "2025-03-31" db _ unique_db calendar monday monday
    rfl reply hexec).mpr distinct_monday⟩

/-- In London, Monday begins on the UTC date of Sunday. -/
theorem not_distinct_weekend : ¬Distinct db "org" calendar sunday monday := fun distinct => by
  have listed : Listed db "org" calendar sunday monday session :=
    ⟨by decide, rfl, ⟨_, Table.mem_singleton.mpr rfl, rfl, rfl⟩, by decide, by decide, by decide⟩
  have hdate : utcDate (calendar.startOfDay sunday) = utcDate session.date := by decide
  exact absurd (distinct.dates session listed sunday ⟨0, rfl, by decide⟩ hdate) (by decide)

/-- The export of the weekend shows Ann's session of Monday on Sunday as well. -/
theorem monday_on_sunday : ¬∀ (luxon : String → Option Calendar) (order : ExportOrder) (orgId role startIso endIso : String)
    (s t : Db) (cal : Calendar) (startDT endDT : Date) (reply : Export),
    (∀ x ∈ s.attendanceSession, ∀ y ∈ s.attendanceSession, x.staffId = y.staffId → x.date = y.date → x = y) →
    rangeOf luxon s orgId startIso endIso = some (cal, startDT, endDT) →
    Prog.Exec (exportAttendanceRangeExcel luxon order orgId role startIso endIso) s (.ok reply) t →
    Faithful s orgId cal startDT endDT reply := fun h => by
  obtain ⟨reply, hreply⟩ := exports_weekend
  have hexec := Prog.exec_run (exportOf "2025-03-30" "2025-03-31") db
  rw [hreply] at hexec
  have hrange : rangeOf luxon db "org" "2025-03-30" "2025-03-31" = some (calendar, sunday, monday) := rfl
  have faithful := h luxon order "org" "Admin" "2025-03-30" "2025-03-31" db _ calendar sunday monday reply unique_db hrange hexec
  obtain ⟨-, hmade⟩ := export_spec.of_exec hexec
  obtain ⟨-, orgHours, staffList, sessions, hmade⟩ := hmade calendar sunday monday hrange
  obtain ⟨hstart, hend⟩ := midnight_of_range hrange
  exact not_distinct_weekend (hmade.distinct hstart hend faithful)

end London

end Vms.Attendance
