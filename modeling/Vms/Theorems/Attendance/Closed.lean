import Vms.Theorems.Attendance.Invariant

/-! Closed sessions: all events of a session lie between its first punch-in and its last punch-out, and
    the stored totals fit in between. It holds as long as no session is closed at a time that an event
    of it comes after, and breaks at the first that is. -/

namespace Vms.Attendance
open Relational

/-! ### Totals -/

/-- The totals after the marks up to `now` fit between `first` and the start of the open stretch, or
    `now` if no stretch is open. Work and a break are never both open. -/
structure Fits (first now : Int) (acc : Totals) : Prop where
  one : acc.currentWorkStart = none ∨ acc.currentBreakStart = none
  total : 1000 * (acc.totalWorkSeconds + acc.totalBreakSeconds) ≤ now - first
  stretch : ∀ start : Int, acc.currentWorkStart = some start ∨ acc.currentBreakStart = some start →
    start ≤ now ∧ 1000 * (acc.totalWorkSeconds + acc.totalBreakSeconds) ≤ start - first

section Totals
variable {first now t : Int} {acc : Totals}

/-- A stretch that is counted up to `t` keeps the totals within `t`. -/
theorem Fits.elapsed (h : Fits first now acc) (ht : now ≤ t) {start : Option Date}
    (hstart : start = acc.currentWorkStart ∨ start = acc.currentBreakStart) :
    1000 * (acc.totalWorkSeconds + acc.totalBreakSeconds + elapsed start t) ≤ t - first := by
  cases start with
  | none =>
    have := h.total
    simp only [Attendance.elapsed]
    omega
  | some start =>
    obtain ⟨-, hsum⟩ := h.stretch start (hstart.imp Eq.symm Eq.symm)
    have hdiv : (t - start) / 1000 * 1000 ≤ t - start := Int.ediv_mul_le _ (by decide)
    have helapsed : Attendance.elapsed (some start) t = (t - start) / 1000 := rfl
    rw [helapsed]
    simp only [Date] at hdiv hsum ⊢
    omega

theorem Fits.add (h : Fits first now acc) {e : AttendanceEventType × Date} (ht : now ≤ e.2) :
    Fits first e.2 (acc.add e) := by
  have work := h.elapsed ht (Or.inl rfl)
  have pause := h.elapsed ht (Or.inr rfl)
  have resumed : Fits first e.2 { acc with
      totalBreakSeconds := acc.totalBreakSeconds + Attendance.elapsed acc.currentBreakStart e.2
      currentBreakStart := none
      currentWorkStart := some e.2 } := by
    refine ⟨Or.inr rfl, by rw [← Int.add_assoc]; exact pause, fun start hstart => ?_⟩
    obtain rfl : e.2 = start := by simpa using hstart
    exact ⟨le_refl _, by rw [← Int.add_assoc]; exact pause⟩
  have endedBreak : ∀ start, acc.currentBreakStart = some start → Fits first e.2 { acc with
      totalBreakSeconds := acc.totalBreakSeconds + Attendance.elapsed acc.currentBreakStart e.2
      currentBreakStart := none } := fun start hbreak => by
    have hwork : acc.currentWorkStart = none := h.one.resolve_right (by rw [hbreak]; exact Option.some_ne_none start)
    refine ⟨Or.inr rfl, by rw [← Int.add_assoc]; exact pause, fun start hstart => ?_⟩
    simp [hwork] at hstart
  have endedWork : acc.currentBreakStart = none → Fits first e.2 { acc with
      totalWorkSeconds := acc.totalWorkSeconds + Attendance.elapsed acc.currentWorkStart e.2
      currentWorkStart := none } := fun hbreak => by
    refine ⟨Or.inl rfl, by rw [Int.add_right_comm]; exact work, fun start hstart => ?_⟩
    simp [hbreak] at hstart
  have paused : Fits first e.2 { acc with
      totalWorkSeconds := acc.totalWorkSeconds + Attendance.elapsed acc.currentWorkStart e.2
      currentWorkStart := none
      currentBreakStart := some e.2 } := by
    refine ⟨Or.inl rfl, by rw [Int.add_right_comm]; exact work, fun start hstart => ?_⟩
    obtain rfl : e.2 = start := by simpa using hstart
    exact ⟨le_refl _, by rw [Int.add_right_comm]; exact work⟩
  unfold Totals.add
  split
  · exact resumed
  · exact resumed
  · exact paused
  · split
    · exact endedBreak _ ‹_›
    · exact endedWork ‹_›
  · split
    · exact endedBreak _ ‹_›
    · exact endedWork ‹_›

/-- Marks in order of time, none before `now`. -/
theorem Fits.foldl {marks : List (AttendanceEventType × Date)} (sorted : marks.Pairwise (·.2 ≤ ·.2))
    (h : Fits first now acc) (hnow : ∀ e ∈ marks, now ≤ e.2) {last : Int} (hlast : ∀ e ∈ marks, e.2 ≤ last)
    (hle : now ≤ last) : Fits first last (marks.foldl Totals.add acc) := by
  induction marks generalizing acc now with
  | nil =>
    refine ⟨h.one, le_trans h.total (Int.sub_le_sub_right hle _), fun start hstart => ?_⟩
    obtain ⟨hstart', hsum⟩ := h.stretch start hstart
    exact ⟨le_trans hstart' hle, hsum⟩
  | cons e marks ih =>
    obtain ⟨hhead, htail⟩ := List.pairwise_cons.mp sorted
    exact ih htail (h.add (hnow e List.mem_cons_self)) hhead (fun a ha => hlast a (List.mem_cons_of_mem _ ha))
      (hlast e List.mem_cons_self)

theorem floorToSecond_mono {a b : Date} (h : a ≤ b) : floorToSecond a ≤ floorToSecond b :=
  Int.mul_le_mul_of_nonneg_right (Int.ediv_le_ediv (by decide) h) (by decide)

/-- The totals of marks between two times fit between them, in whole seconds. -/
theorem recalcTotals_le {marks : List (AttendanceEventType × Date)} {first last : Date} (hle : first ≤ last)
    (within : ∀ e ∈ marks, first ≤ e.2 ∧ e.2 ≤ last) : (recalcTotals marks).1 + (recalcTotals marks).2 ≤
      (floorToSecond last - floorToSecond first) / 1000 := by
  have sorted : (sortedMarks marks).Pairwise (·.2 ≤ ·.2) := by
    have : Std.Total fun a b : AttendanceEventType × Date => a.2 ≤ b.2 := ⟨fun a b => Int.le_total a.2 b.2⟩
    have : IsTrans _ fun a b : AttendanceEventType × Date => a.2 ≤ b.2 := ⟨fun _ _ _ h h' => Int.le_trans h h'⟩
    exact List.pairwise_insertionSort _ _
  have bounds : ∀ e ∈ sortedMarks marks, floorToSecond first ≤ e.2 ∧ e.2 ≤ floorToSecond last := by
    intro e he
    obtain ⟨a, ha, rfl⟩ := List.mem_map.mp ((List.perm_insertionSort _ _).subset he)
    exact ⟨floorToSecond_mono (within a ha).1, floorToSecond_mono (within a ha).2⟩
  have start : Fits (floorToSecond first) (floorToSecond first) {} := ⟨Or.inl rfl, by simp, nofun⟩
  have fits := start.foldl sorted (fun e he => (bounds e he).1) (fun e he => (bounds e he).2) (floorToSecond_mono hle)
  exact Int.le_ediv_of_mul_le (by decide) (by rw [Int.mul_comm]; exact fits.total)

end Totals

/-! ### Closed sessions -/

/-- The events of a closed session lie between its punch-in and its punch-out, and so do its totals. -/
def WellClosed (s : Db) (x : AttendanceSession) : Prop :=
  ∃ first last, x.firstPunchInAt = some first ∧ x.lastPunchOutAt = some last ∧ first ≤ last ∧
    (∀ e ∈ eventsOf s x.id, first ≤ e.timestamp ∧ e.timestamp ≤ last) ∧
    x.totalWorkSeconds + x.totalBreakSeconds ≤ (floorToSecond last - floorToSecond first) / 1000

def AllWellClosed (s : Db) : Prop := ∀ x ∈ s.attendanceSession, x.status = .closed → WellClosed s x

/-- The events of a session lie between its punch-in and `time`. -/
def Within (s : Db) (x : AttendanceSession) (time : Date) : Prop :=
  ∀ first, x.firstPunchInAt = some first → first ≤ time ∧ ∀ e ∈ eventsOf s x.id, first ≤ e.timestamp ∧ e.timestamp ≤ time

/-- The request passes all checks and closes the session at a time. -/
inductive ClosesAt (luxon : Luxon) (s : Db) (q : Request) (x : AttendanceSession) : Date → Prop where
  | punchOut {staff : Staff} {time : Date} (badge : q.Badge s staff) (action : q.dto.action = .punchOut)
    (may : MayPunchOut s q.io q.dto staff x time) : ClosesAt luxon s q x time
  | late {staff : Staff} {zone : Zone} {approxOut punchIn : Date} (badge : q.Badge s staff)
    (action : q.dto.action = .latePunchOutAndPunchIn)
    (may : MayPunchOutLate luxon s q.dto staff x zone approxOut punchIn) : ClosesAt luxon s q x approxOut

/-- A request closes no session at a time that an event of it comes after. -/
def InOrder (luxon : Luxon) (s : Db) (q : Request) : Prop := ∀ x time, ClosesAt luxon s q x time → Within s x time

section Closed
variable {luxon : Luxon} {s t : Db} {q : Request} {staff : Staff} {x x' y : AttendanceSession} {e : AttendanceEvent}
  {time time' : Date}

theorem ClosesAt.action (h : ClosesAt luxon s q x time) :
    q.dto.action = .punchOut ∨ q.dto.action = .latePunchOutAndPunchIn := by
  cases h with
  | punchOut _ action _ => exact Or.inl action
  | late _ action _ => exact Or.inr action

theorem Names.unique {staffId staffId' : String} {sessionId : Option String} (h : Names s staffId sessionId x)
    (h' : Names s staffId' sessionId y) : x = y :=
  Table.eq_of_id h.mem h'.mem (Option.some.inj (h.id.symm.trans h'.id))

/-- A request closes one session at one time. -/
theorem ClosesAt.unique (h : ClosesAt luxon s q x time) (h' : ClosesAt luxon s q y time') : x = y ∧ time = time' := by
  cases h with
  | punchOut _ action may =>
    cases h' with
    | punchOut _ _ may' => exact ⟨may.names.unique may'.names, Option.some.inj (may.atTime.symm.trans may'.atTime)⟩
    | late _ action' _ =>
      rw [action] at action'
      cases action'
  | late _ action may =>
    cases h' with
    | punchOut _ action' _ =>
      rw [action] at action'
      cases action'
    | late _ _ may' =>
      exact ⟨may.names.unique may'.names, Option.some.inj (Option.some.inj (may.outTime.symm.trans may'.outTime))⟩

theorem WellClosed.congr (h : ∀ e, e ∈ eventsOf t x.id ↔ e ∈ eventsOf s x.id) : WellClosed t x ↔ WellClosed s x := by
  unfold WellClosed
  simp only [h]

/-- An event of an open session leaves the closed ones alone. -/
theorem wellClosed_of_insert (hevent : s.attendanceEvent.insert e = some t.attendanceEvent)
    (hsession : e.sessionId = some x.id) (hid : y.id ≠ x.id) : WellClosed t y ↔ WellClosed s y := by
  refine WellClosed.congr fun a => ?_
  rw [mem_eventsOf_insert hevent, hsession]
  exact or_iff_left fun ⟨_, h⟩ => hid (Option.some.inj h).symm

theorem Opens.allWellClosed (h : Opens s t x e) (hsession : e.sessionId = some x.id) (hopen : x.status = .open) :
    AllWellClosed t ↔ AllWellClosed s := by
  constructor
  · intro all y hy hclosed
    exact (wellClosed_of_insert h.event hsession (h.id_ne hy)).mp (all y (h.mem_session.mpr (Or.inl hy)) hclosed)
  · intro all y hy hclosed
    rcases h.mem_session.mp hy with hy | rfl
    · exact (wellClosed_of_insert h.event hsession (h.id_ne hy)).mpr (all y hy hclosed)
    · rw [hopen] at hclosed
      cases hclosed

theorem Marks.allWellClosed (h : Marks s t e) (hx : x ∈ s.attendanceSession) (hsession : e.sessionId = some x.id)
    (hopen : x.status = .open) : AllWellClosed t ↔ AllWellClosed s := by
  have other : ∀ y ∈ s.attendanceSession, y.status = .closed → y.id ≠ x.id := fun y hy hclosed hid => by
    rw [Table.eq_of_id hy hx hid, hopen] at hclosed
    cases hclosed
  unfold AllWellClosed
  rw [h.sessions]
  exact forall₃_congr fun y hy hclosed => wellClosed_of_insert h.event hsession (other y hy hclosed)

/-- Closing a session keeps the closed sessions well closed exactly if its events lie in between. -/
theorem Closes.allWellClosed (inv : Inv luxon s) (all : AllWellClosed s) (h : Closes s t x x' e)
    (hx : x ∈ s.attendanceSession) (hsession : e.sessionId = some x.id) :
    AllWellClosed t ↔ Within s x e.timestamp := by
  obtain ⟨hid, -, -, hfirst, hclosed, hlast⟩ := h.same
  obtain ⟨first, hstart, _, _, _⟩ := inv.started x hx
  have events : ∀ a, a ∈ eventsOf t x.id ↔ a ∈ eventsOf s x.id ∨ a = e := fun a => by
    rw [mem_eventsOf_insert h.event]
    exact or_congr_right (and_iff_left hsession)
  constructor
  · intro all' first' hstart'
    obtain ⟨first'', last, hfirst'', hlast'', hle, hevents, -⟩ := all' x' ((h.sessions x').mpr (Or.inl rfl)) hclosed
    obtain rfl := Option.some.inj (hlast.symm.trans hlast'')
    obtain rfl := Option.some.inj (hstart'.symm.trans (hfirst.symm.trans hfirst''))
    rw [hid] at hevents
    exact ⟨hle, fun a ha => hevents a ((events a).mpr (Or.inl ha))⟩
  · intro within y hy hyclosed
    obtain ⟨hle, hbetween⟩ := within first hstart
    rcases (h.sessions y).mp hy with rfl | ⟨hy, hne⟩
    · have hall : ∀ a ∈ eventsOf t y.id, first ≤ a.timestamp ∧ a.timestamp ≤ e.timestamp := by
        intro a ha
        rw [hid] at ha
        rcases (events a).mp ha with ha | rfl
        · exact hbetween a ha
        · exact ⟨hle, le_refl _⟩
      obtain ⟨list, hperm, -, htotals⟩ := h.totals
      refine ⟨first, e.timestamp, hfirst.trans hstart, hlast, hle, hall, ?_⟩
      rw [show y.totalWorkSeconds = _ from congrArg Prod.fst htotals,
        show y.totalBreakSeconds = _ from congrArg Prod.snd htotals]
      refine recalcTotals_le hle fun m hm => ?_
      obtain ⟨a, ha, rfl⟩ := List.mem_map.mp hm
      refine hall a (hid ▸ (events a).mpr ?_)
      rcases List.mem_append.mp ha with ha | ha
      · exact Or.inl (hperm.mem_iff.mp ha)
      · exact Or.inr (List.mem_singleton.mp ha)
    · exact (wellClosed_of_insert h.event hsession hne).mpr (all y hy hyclosed)

/-- One accepted action keeps the closed sessions well closed exactly if it closes in order. -/
theorem Acted.allWellClosed_iff (inv : Inv luxon s) (all : AllWellClosed s) (badge : q.Badge s staff)
    (h : Acted luxon s q staff t) : AllWellClosed t ↔ InOrder luxon s q := by
  have order_iff : ∀ {x time}, ClosesAt luxon s q x time → (InOrder luxon s q ↔ Within s x time) := fun hcloses =>
    ⟨fun order => order _ _ hcloses, fun within y time' hcloses' => by
      obtain ⟨rfl, rfl⟩ := hcloses.unique hcloses'
      exact within⟩
  have order_of : ∀ {a}, q.dto.action = a → a ≠ .punchOut → a ≠ .latePunchOutAndPunchIn → InOrder luxon s q :=
    fun action hout hlate x time hcloses => by
      rcases hcloses.action with h | h
      · exact absurd (action.symm.trans h) hout
      · exact absurd (action.symm.trans h) hlate
  cases h with
  | punchIn zone time action may opens =>
    exact iff_of_true ((opens.allWellClosed rfl rfl).mpr all) (order_of action nofun nofun)
  | breakStart x time action may marks =>
    exact iff_of_true ((marks.allWellClosed may.names.mem rfl may.names.isOpen).mpr all) (order_of action nofun nofun)
  | breakEnd x time action may marks =>
    exact iff_of_true ((marks.allWellClosed may.names.mem rfl may.names.isOpen).mpr all) (order_of action nofun nofun)
  | punchOut x x' time action may closes =>
    rw [closes.allWellClosed inv all may.names.mem rfl, order_iff (.punchOut badge action may)]
    exact Iff.rfl
  | late x x' zone approxOut punchIn u action may closes opens =>
    rw [opens.allWellClosed rfl rfl, closes.allWellClosed inv all may.names.mem rfl, order_iff (.late badge action may)]
    exact Iff.rfl

theorem allWellClosed_of_reach (h : (attendance luxon).Reach (InOrder luxon) s) : AllWellClosed s := by
  refine attendance_invariant h (fun s hsessions _ => ?_) fun s q staff t hr all order badge acted => ?_
  · simp [AllWellClosed, hsessions]
  · exact (acted.allWellClosed_iff (reachable_inv hr.reachable) all badge).mpr order

end Closed

/-- In a run whose requests close sessions in order, every closed session has its events and its totals
    between its punch-in and its punch-out; and an accepted request keeps it so only if it closes in order. -/
theorem closed_between_punches (luxon : Luxon) :
    (∀ s, (attendance luxon).Reach (InOrder luxon) s → AllWellClosed s) ∧
    ∀ s q t reply, (attendance luxon).Reachable s → AllWellClosed s → Prog.Exec (q.call luxon) s (.ok reply) t →
      (AllWellClosed t ↔ InOrder luxon s q) := by
  refine ⟨fun s h => allWellClosed_of_reach h, fun s q t reply h all hexec => ?_⟩
  obtain ⟨staff, badge, acted⟩ := action_accepted hexec
  exact acted.allWellClosed_iff (reachable_inv h) all badge

section Office
open Office

/-- Ann comes at nine, takes a break at twelve, and leaves at five. -/
def atWork : List Request := [request "1" .punchIn (9 * hour), request "2" .breakStart (12 * hour) (some "s1")]

theorem inOrder_leaving : InOrder utc (runAll utc db atWork) (request "3" .punchOut (17 * hour) (some "s1")) := by
  intro x time hcloses first hfirst
  have times : ∀ x ∈ (runAll utc db atWork).attendanceSession, x.firstPunchInAt = some (9 * hour) ∧
      ∀ e ∈ eventsOf (runAll utc db atWork) x.id, 9 * hour ≤ e.timestamp ∧ e.timestamp ≤ 17 * hour := by decide
  cases hcloses with
  | punchOut _ _ may =>
    obtain ⟨hstart, hevents⟩ := times x may.names.mem
    obtain rfl := Option.some.inj (hstart.symm.trans hfirst)
    obtain rfl := Option.some.inj (may.atTime.symm.trans (rfl : _ = some (17 * hour)))
    exact ⟨by decide, hevents⟩
  | late _ action _ => cases action

theorem reach_atWork : (attendance utc).Reach (InOrder utc) (runAll utc db atWork) := by
  refine .step (.step (.init ⟨rfl, rfl⟩) ?_ ⟨_, Prog.exec_run (Request.call utc (request "1" .punchIn (9 * hour))) _⟩)
    ?_ ⟨_, Prog.exec_run (Request.call utc (request "2" .breakStart (12 * hour) (some "s1"))) _⟩
  · intro x time hcloses
    rcases hcloses.action with action | action <;> cases action
  · intro x time hcloses
    rcases hcloses.action with action | action <;> cases action

theorem closed_between_punches_office :
    AllWellClosed (runAll utc db (atWork ++ [request "3" .punchOut (17 * hour) (some "s1")])) ∧
    (AllWellClosed (runAll utc db (atWork ++ [request "3" .punchOut (11 * hour) (some "s1")])) ↔
      InOrder utc (runAll utc db atWork) (request "3" .punchOut (11 * hour) (some "s1"))) :=
  ⟨(closed_between_punches utc).1 _ (.step reach_atWork inOrder_leaving
      ⟨_, Prog.exec_run (Request.call utc (request "3" .punchOut (17 * hour) (some "s1"))) _⟩),
    (closed_between_punches utc).2 _ _ _ (.punchOut (11 * hour)) (reachable atWork)
      ((closed_between_punches utc).1 _ reach_atWork)
      (Prog.exec_run (Request.call utc (request "3" .punchOut (11 * hour) (some "s1"))) _)⟩

/-- Ann punches out at an hour before her break began. -/
theorem punch_out_before_break : ¬∀ s, (attendance utc).Reachable s → AllWellClosed s := fun h => by
  have all := h _ (reachable (atWork ++ [request "3" .punchOut (11 * hour) (some "s1")]))
  have early : ∃ x ∈ (runAll utc db (atWork ++ [request "3" .punchOut (11 * hour) (some "s1")])).attendanceSession,
      x.status = .closed ∧ x.lastPunchOutAt = some (11 * hour) ∧
      ∃ e ∈ eventsOf (runAll utc db (atWork ++ [request "3" .punchOut (11 * hour) (some "s1")])) x.id,
        11 * hour < e.timestamp := by decide
  obtain ⟨x, hx, hclosed, hlast, e, he, hlate⟩ := early
  obtain ⟨first, last, -, hlast', -, hevents, -⟩ := all x hx hclosed
  obtain rfl := Option.some.inj (hlast.symm.trans hlast')
  exact absurd (hevents e he).2 (not_le.mpr hlate)

end Office

end Vms.Attendance
