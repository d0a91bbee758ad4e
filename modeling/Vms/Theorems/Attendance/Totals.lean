import Vms.Theorems.Attendance.Grammar

/-! The totals of events in any order: the loop of `recalcTotals` keeps at most one stretch open, so what it
    counts lies in disjoint stretches, and the totals never exceed the time from the first event to the
    last. -/

namespace Vms.Attendance
open Relational

/-- The seconds from the earliest floored time to the latest; none without events. -/
def span (events : List (AttendanceEventType × Date)) : Int :=
  let times := events.map fun e => floorToSecond e.2
  (times.max?.getD 0 - times.min?.getD 0) / 1000

section Sorted
variable {events : List (AttendanceEventType × Date)} {first last : AttendanceEventType × Date}

theorem perm_sortedMarks : (sortedMarks events).Perm (events.map floored) := List.perm_insertionSort _ _

theorem pairwise_sortedMarks : (sortedMarks events).Pairwise (·.2 ≤ ·.2) :=
  haveI : Std.Total fun a b : AttendanceEventType × Date => a.2 ≤ b.2 := ⟨fun a b => Int.le_total a.2 b.2⟩
  haveI : IsTrans (AttendanceEventType × Date) fun a b => a.2 ≤ b.2 := ⟨fun _ _ _ h h' => Int.le_trans h h'⟩
  List.pairwise_insertionSort _ _

theorem mem_times {t : Date} : t ∈ events.map (fun e => floorToSecond e.2) ↔ ∃ e ∈ sortedMarks events, e.2 = t := by
  have hmem : ∀ e, e ∈ sortedMarks events ↔ e ∈ events.map floored := fun e => perm_sortedMarks.mem_iff
  simp [hmem, floored]

/-- In the sorted list the earliest time comes first. -/
theorem first_le (hfirst : (sortedMarks events).head? = some first) : ∀ e ∈ sortedMarks events, first.2 ≤ e.2 := by
  obtain ⟨rest, hrest⟩ := List.head?_eq_some_iff.mp hfirst
  have hsorted : (sortedMarks events).Pairwise (·.2 ≤ ·.2) := pairwise_sortedMarks
  rw [hrest, List.pairwise_cons] at hsorted
  intro e he
  rcases List.mem_cons.mp (hrest ▸ he) with rfl | he
  · exact Int.le_refl _
  · exact hsorted.1 e he

/-- The latest time comes last. -/
theorem le_last (hlast : (sortedMarks events).getLast? = some last) : ∀ e ∈ sortedMarks events, e.2 ≤ last.2 := by
  obtain ⟨rest, hrest⟩ := List.getLast?_eq_some_iff.mp hlast
  have hsorted : (sortedMarks events).Pairwise (·.2 ≤ ·.2) := pairwise_sortedMarks
  rw [hrest, List.pairwise_append] at hsorted
  intro e he
  rcases List.mem_append.mp (hrest ▸ he) with he | he
  · exact hsorted.2.2 e he last List.mem_cons_self
  · rw [List.mem_singleton.mp he]

theorem span_eq (hfirst : (sortedMarks events).head? = some first) (hlast : (sortedMarks events).getLast? = some last) :
    span events = (last.2 - first.2) / 1000 := by
  have hmin : (events.map fun e => floorToSecond e.2).min? = some first.2 := by
    refine List.min?_eq_some_iff.mpr ⟨mem_times.mpr ⟨first, List.mem_of_head? hfirst, rfl⟩, fun t ht => ?_⟩
    obtain ⟨e, he, rfl⟩ := mem_times.mp ht
    exact first_le hfirst e he
  have hmax : (events.map fun e => floorToSecond e.2).max? = some last.2 := by
    refine List.max?_eq_some_iff.mpr ⟨mem_times.mpr ⟨last, List.mem_of_getLast? hlast, rfl⟩, fun t ht => ?_⟩
    obtain ⟨e, he, rfl⟩ := mem_times.mp ht
    exact le_last hlast e he
  simp [span, hmin, hmax]

end Sorted

/-! ### The loop -/

/-- The state of the loop at time `t`, when the first mark was at `first`: at most one stretch is open, and
    what is counted lies before it. -/
structure Counted (first t : Int) (acc : Totals) : Prop where
  work : 0 ≤ acc.totalWorkSeconds
  rest : 0 ≤ acc.totalBreakSeconds
  oneOpen : acc.currentWorkStart = none ∨ acc.currentBreakStart = none
  within : (acc.totalWorkSeconds + acc.totalBreakSeconds) * 1000 ≤ t - first
  before : ∀ start : Int, acc.currentWorkStart = some start ∨ acc.currentBreakStart = some start →
    start ≤ t ∧ (acc.totalWorkSeconds + acc.totalBreakSeconds) * 1000 ≤ start - first

section Counted
variable {first t u : Int} {acc : Totals} {start : Option Date} {e : AttendanceEventType × Date}

/-- A stretch that starts at or after `t` and ends at `u`. -/
theorem elapsed_le (h : ∀ c : Int, start = some c → t ≤ c ∧ c ≤ u) (htu : t ≤ u) :
    0 ≤ elapsed start u ∧ elapsed start u * 1000 ≤ u - t := by
  cases start with
  | none =>
    show (0 : Int) ≤ 0 ∧ (0 : Int) * 1000 ≤ u - t
    omega
  | some c =>
    obtain ⟨htc, hcu⟩ := h c rfl
    show 0 ≤ (u - (c : Int)) / 1000 ∧ (u - (c : Int)) / 1000 * 1000 ≤ u - t
    omega

/-- A stretch that is open when a mark comes adds the time since its start, after all that was counted. -/
theorem Counted.elapsed (h : Counted first t acc) (htu : t ≤ u)
    (hstart : start = acc.currentWorkStart ∨ start = acc.currentBreakStart) :
    0 ≤ Attendance.elapsed start u ∧
      (acc.totalWorkSeconds + acc.totalBreakSeconds + Attendance.elapsed start u) * 1000 ≤ u - first := by
  have hwithin := h.within
  have hopen : ∀ c : Int, start = some c → first + (acc.totalWorkSeconds + acc.totalBreakSeconds) * 1000 ≤ c ∧ c ≤ u := by
    intro c hc
    have hbefore := h.before c (hstart.imp (fun hs => hs.symm.trans hc) fun hs => hs.symm.trans hc)
    omega
  have helapsed := elapsed_le hopen (by omega)
  omega

theorem Counted.mono (h : Counted first t acc) (htu : t ≤ u) : Counted first u acc where
  work := h.work
  rest := h.rest
  oneOpen := h.oneOpen
  within := by
    have := h.within
    omega
  before start hstart := by
    have := h.before start hstart
    omega

/-- A mark that starts work ends a break. -/
theorem Counted.startWork (h : Counted first t acc) (htu : t ≤ u) : Counted first u { acc with
    totalBreakSeconds := acc.totalBreakSeconds + Attendance.elapsed acc.currentBreakStart u
    currentBreakStart := none
    currentWorkStart := some u } := by
  obtain ⟨hpos, hle⟩ := h.elapsed htu (Or.inr rfl)
  have hrest := h.rest
  refine ⟨h.work, ?_, Or.inr rfl, ?_, fun start hstart => ?_⟩
  · show 0 ≤ acc.totalBreakSeconds + Attendance.elapsed acc.currentBreakStart u
    omega
  · show (acc.totalWorkSeconds + (acc.totalBreakSeconds + Attendance.elapsed acc.currentBreakStart u)) * 1000 ≤ u - first
    omega
  · obtain rfl : u = start := by simpa using hstart
    show u ≤ u ∧ (acc.totalWorkSeconds + (acc.totalBreakSeconds + Attendance.elapsed acc.currentBreakStart u)) * 1000 ≤ u - first
    omega

theorem Counted.startBreak (h : Counted first t acc) (htu : t ≤ u) : Counted first u { acc with
    totalWorkSeconds := acc.totalWorkSeconds + Attendance.elapsed acc.currentWorkStart u
    currentWorkStart := none
    currentBreakStart := some u } := by
  obtain ⟨hpos, hle⟩ := h.elapsed htu (Or.inl rfl)
  have hwork := h.work
  refine ⟨?_, h.rest, Or.inl rfl, ?_, fun start hstart => ?_⟩
  · show 0 ≤ acc.totalWorkSeconds + Attendance.elapsed acc.currentWorkStart u
    omega
  · show (acc.totalWorkSeconds + Attendance.elapsed acc.currentWorkStart u + acc.totalBreakSeconds) * 1000 ≤ u - first
    omega
  · obtain rfl : u = start := by simpa using hstart
    show u ≤ u ∧ (acc.totalWorkSeconds + Attendance.elapsed acc.currentWorkStart u + acc.totalBreakSeconds) * 1000 ≤ u - first
    omega

/-- A punch-out ends the break that is on, if there is one; work is then not counted. -/
theorem Counted.stop (h : Counted first t acc) (htu : t ≤ u) {totals : Totals}
    (hwork : totals.currentWorkStart = none) (hbreak : totals.currentBreakStart = none)
    (ends : ∃ start, (start = acc.currentWorkStart ∨ start = acc.currentBreakStart) ∧
      ((totals.totalWorkSeconds = acc.totalWorkSeconds + Attendance.elapsed start u ∧
          totals.totalBreakSeconds = acc.totalBreakSeconds) ∨
        (totals.totalWorkSeconds = acc.totalWorkSeconds ∧
          totals.totalBreakSeconds = acc.totalBreakSeconds + Attendance.elapsed start u))) : Counted first u totals := by
  obtain ⟨start, hstart, ends⟩ := ends
  obtain ⟨hpos, hle⟩ := h.elapsed htu hstart
  have hwork' := h.work
  have hrest := h.rest
  refine ⟨?_, ?_, Or.inl hwork, ?_, fun start hopen => ?_⟩
  · rcases ends with ⟨hw, hb⟩ | ⟨hw, hb⟩ <;> rw [hw] <;> omega
  · rcases ends with ⟨hw, hb⟩ | ⟨hw, hb⟩ <;> rw [hb] <;> omega
  · rcases ends with ⟨hw, hb⟩ | ⟨hw, hb⟩ <;> rw [hw, hb] <;> omega
  · rw [hwork, hbreak] at hopen
    simp at hopen

/-- One mark. -/
theorem Counted.add (h : Counted first t acc) (hle : t ≤ e.2) : Counted first e.2 (acc.add e) := by
  obtain ⟨type, u⟩ := e
  cases type with
  | punchIn => exact h.startWork hle
  | breakEnd => exact h.startWork hle
  | breakStart => exact h.startBreak hle
  | punchOut | latePunchOut =>
    cases hbreak : acc.currentBreakStart with
    | some start =>
      -- at most one stretch is open, so no work is
      have hwork : acc.currentWorkStart = none := h.oneOpen.resolve_right fun hnone => by
        rw [hbreak] at hnone
        cases hnone
      refine h.stop hle ?_ ?_ ⟨acc.currentBreakStart, Or.inr rfl, Or.inr ⟨?_, ?_⟩⟩ <;> simp [Totals.add, hbreak, hwork]
    | none =>
      refine h.stop hle ?_ ?_ ⟨acc.currentWorkStart, Or.inl rfl, Or.inl ⟨?_, ?_⟩⟩ <;> simp [Totals.add, hbreak]

/-- The marks of a sorted list, from `t` to `u`. -/
theorem Counted.foldl {marks : List (AttendanceEventType × Date)} (h : Counted first t acc)
    (sorted : marks.Pairwise (·.2 ≤ ·.2)) (after : ∀ e ∈ marks, t ≤ e.2) (before : ∀ e ∈ marks, e.2 ≤ u) (htu : t ≤ u) :
    Counted first u (marks.foldl Totals.add acc) := by
  induction marks generalizing t acc with
  | nil => exact h.mono htu
  | cons e marks ih =>
    rw [List.pairwise_cons] at sorted
    exact ih (h.add (after e List.mem_cons_self)) sorted.2 sorted.1 (fun a ha => before a (List.mem_cons_of_mem _ ha))
      (before e List.mem_cons_self)

end Counted

/-! ### Marks that spell a day -/

section Spelled
variable {marks : List (AttendanceEventType × Date)} {last : AttendanceEventType × Date} {breaks : Nat} {onBreak : Bool}
  {out : AttendanceEventType}

theorem spelling_succ : spelling (breaks + 1) false none = spelling breaks false none ++ [.breakStart, .breakEnd] := by
  simp [spelling, List.replicate_succ']

theorem spelling_onBreak : spelling breaks true none = spelling breaks false none ++ [.breakStart] := by
  simp [spelling]

theorem spelling_out : spelling breaks onBreak (some out) = spelling breaks onBreak none ++ [out] := by
  simp [spelling]

/-- Marks that spell whole breaks are those of an open session that is not on a break. -/
theorem live_of_spelled_working (h : marks.map (·.1) = spelling breaks false none) :
    ∃ rest last, marks = rest ++ [last] ∧ Live rest last ∧ last.1 ≠ .breakStart := by
  induction breaks generalizing marks with
  | zero =>
    obtain ⟨⟨type, t⟩, rfl, rfl⟩ := List.map_eq_singleton_iff.mp h
    exact ⟨[], (.punchIn, t), rfl, .punchIn t, by simp⟩
  | succ breaks ih =>
    rw [spelling_succ] at h
    obtain ⟨marks, pair, rfl, hmarks, hpair⟩ := List.map_eq_append_iff.mp h
    obtain ⟨⟨type, t⟩, ends, rfl, rfl, hends⟩ := List.map_eq_cons_iff.mp hpair
    obtain ⟨⟨type, u⟩, rfl, rfl⟩ := List.map_eq_singleton_iff.mp hends
    obtain ⟨rest, last, rfl, live, working⟩ := ih hmarks
    exact ⟨rest ++ [last, (.breakStart, t)], (.breakEnd, u), by simp, by
      simpa using (live.breakStart working t).breakEnd rfl u, by simp⟩

theorem live_of_spelled (h : marks.map (·.1) = spelling breaks onBreak none) :
    ∃ rest last, marks = rest ++ [last] ∧ Live rest last := by
  cases onBreak with
  | false =>
    obtain ⟨rest, last, rfl, live, -⟩ := live_of_spelled_working h
    exact ⟨rest, last, rfl, live⟩
  | true =>
    rw [spelling_onBreak] at h
    obtain ⟨marks, rest, rfl, hmarks, hrest⟩ := List.map_eq_append_iff.mp h
    obtain ⟨⟨type, t⟩, rfl, rfl⟩ := List.map_eq_singleton_iff.mp hrest
    obtain ⟨rest, last, rfl, live, working⟩ := live_of_spelled_working hmarks
    exact ⟨rest ++ [last], (.breakStart, t), rfl, live.breakStart working t⟩

theorem floored_of_mem {events : List (AttendanceEventType × Date)} : ∀ e ∈ sortedMarks events, floored e = e := by
  intro e he
  obtain ⟨a, -, rfl⟩ := List.mem_map.mp (perm_sortedMarks.mem_iff.mp he)
  show (a.1, floorToSecond (floorToSecond a.2)) = (a.1, floorToSecond a.2)
  rw [floorToSecond, floorToSecond, Int.mul_ediv_cancel _ (by decide)]

/-- The totals depend on the sorted list alone. -/
theorem recalcTotals_sortedMarks {events : List (AttendanceEventType × Date)} :
    recalcTotals (sortedMarks events) = recalcTotals events := by
  have again : sortedMarks (sortedMarks events) = sortedMarks events := by
    rw [sortedMarks_of_pairwise pairwise_sortedMarks, List.map_congr_left floored_of_mem, List.map_id']
  rw [recalcTotals, again, recalcTotals]

end Spelled

/-! ### The totals of any events -/

section Totals
variable {events : List (AttendanceEventType × Date)} {first last : AttendanceEventType × Date}

/-- The state at the end of the loop. -/
theorem counted_sortedMarks (hfirst : (sortedMarks events).head? = some first) (hlast : (sortedMarks events).getLast? = some last) :
    Counted first.2 last.2 ((sortedMarks events).foldl Totals.add {}) := by
  have start : Counted first.2 first.2 {} := ⟨Int.le_refl 0, Int.le_refl 0, Or.inl rfl, by simp, by simp⟩
  exact start.foldl pairwise_sortedMarks (first_le hfirst) (le_last hlast) (le_last hlast first (List.mem_of_head? hfirst))

theorem recalcTotals_within : 0 ≤ (recalcTotals events).1 ∧ 0 ≤ (recalcTotals events).2 ∧
    (recalcTotals events).1 + (recalcTotals events).2 ≤ span events := by
  cases hfirst : (sortedMarks events).head? with
  | none =>
    have hnil : events = [] := by
      have hperm : (sortedMarks events).Perm (events.map floored) := perm_sortedMarks
      rw [List.head?_eq_none_iff.mp hfirst] at hperm
      exact List.map_eq_nil_iff.mp hperm.nil_eq.symm
    subst hnil
    decide
  | some first =>
    obtain ⟨last, hlast⟩ := Option.isSome_iff_exists.mp
      (List.getLast?_isSome.mpr (List.ne_nil_of_mem (List.mem_of_head? hfirst)))
    have counted := counted_sortedMarks hfirst hlast
    refine ⟨counted.work, counted.rest, ?_⟩
    rw [span_eq hfirst hlast]
    have hwithin := counted.within
    show ((sortedMarks events).foldl Totals.add {}).totalWorkSeconds +
      ((sortedMarks events).foldl Totals.add {}).totalBreakSeconds ≤ (last.2 - first.2 : Int) / 1000
    omega

/-- A whole day is work or break. -/
theorem recalcTotals_spelled {breaks : Nat} {onBreak : Bool} {out : AttendanceEventType} (hout : out = .punchOut ∨ out = .latePunchOut)
    (h : (sortedMarks events).map (·.1) = spelling breaks onBreak (some out)) :
    (recalcTotals events).1 + (recalcTotals events).2 = span events := by
  rw [spelling_out] at h
  obtain ⟨marks, ends, hsorted, hmarks, hends⟩ := List.map_eq_append_iff.mp h
  obtain ⟨e, rfl, rfl⟩ := List.map_eq_singleton_iff.mp hends
  obtain ⟨rest, last, rfl, live⟩ := live_of_spelled hmarks
  have hall : sortedMarks events = rest ++ [last, e] := by simpa using hsorted
  have hlast : (sortedMarks events).getLast? = some e := by simp [hall]
  cases hfirst : (sortedMarks events).head? with
  | none => simp [hall] at hfirst
  | some first =>
    have htotals := recalcTotals_out live hout (hall ▸ pairwise_sortedMarks)
    have hcover := workSeconds_add_breakSeconds hfirst hlast
    rw [← hall, recalcTotals_sortedMarks] at htotals
    have hfirst' : first.2 / 1000 * 1000 = first.2 := congrArg Prod.snd (floored_of_mem first (List.mem_of_head? hfirst))
    have hlast' : e.2 / 1000 * 1000 = e.2 := congrArg Prod.snd (floored_of_mem e (List.mem_of_getLast? hlast))
    rw [htotals, hcover, span_eq hfirst hlast, ← hfirst', ← hlast', ← Int.sub_mul, Int.mul_ediv_cancel _ (by decide),
      Int.mul_ediv_cancel _ (by decide), Int.mul_ediv_cancel _ (by decide)]

end Totals

/-- The totals of any events are not negative and together at most the time from the earliest event to the
    latest; if the sorted events spell a day, they are exactly that time. -/
theorem recalcTotals_bounds (events : List (AttendanceEventType × Date)) :
    0 ≤ (recalcTotals events).1 ∧ 0 ≤ (recalcTotals events).2 ∧
    (recalcTotals events).1 + (recalcTotals events).2 ≤ span events ∧
    ∀ breaks onBreak out, (out = .punchOut ∨ out = .latePunchOut) →
      (sortedMarks events).map (·.1) = spelling breaks onBreak (some out) →
      (recalcTotals events).1 + (recalcTotals events).2 = span events := by
  obtain ⟨hwork, hrest, hle⟩ : 0 ≤ (recalcTotals events).1 ∧ 0 ≤ (recalcTotals events).2 ∧
      (recalcTotals events).1 + (recalcTotals events).2 ≤ span events := recalcTotals_within
  exact ⟨hwork, hrest, hle, fun _ _ _ hout h => recalcTotals_spelled hout h⟩

/-- A day with one break, its events out of order. -/
theorem recalcTotals_bounds_day : (recalcTotals [(.punchOut, 9400), (.punchIn, 1700), (.breakEnd, 6000), (.breakStart, 3900)]).1 +
    (recalcTotals [(.punchOut, 9400), (.punchIn, 1700), (.breakEnd, 6000), (.breakStart, 3900)]).2 = 8 :=
  (recalcTotals_bounds [(.punchOut, 9400), (.punchIn, 1700), (.breakEnd, 6000), (.breakStart, 3900)]).2.2.2 1 false .punchOut
    (Or.inl rfl) (by decide)

end Vms.Attendance
