import Mathlib.Algebra.Ring.Int.Defs
import Mathlib.Data.List.Induction
import Vms.Theorems.Attendance.Closed

/-! How the events of a session follow each other. A session starts with a punch-in; breaks start and end
    in turn; a punch-out of either kind ends it, also during a break. The handlers look at the latest event
    alone, so this needs the recorded times of a staff member to increase. The totals of a closed session
    are then exact: every second between its first and its last event is a second of work or of a break. -/

namespace Vms.Attendance
open Relational

/-! ### Marks -/

/-- The types of a session's events: a punch-in, breaks that are over, perhaps a break that is on, and
    perhaps a punch-out. -/
def spelling (breaks : Nat) (onBreak : Bool) (out : Option AttendanceEventType) : List AttendanceEventType :=
  .punchIn :: (List.replicate breaks [.breakStart, .breakEnd]).flatten ++
    (if onBreak then [.breakStart] else []) ++ out.toList

/-- The seconds from one mark to the next, each floored to its second. -/
def seconds (interval : (AttendanceEventType × Date) × (AttendanceEventType × Date)) : Int :=
  interval.2.2 / 1000 - interval.1.2 / 1000

/-- The intervals between consecutive marks. -/
def intervals (marks : List (AttendanceEventType × Date)) : List ((AttendanceEventType × Date) × (AttendanceEventType × Date)) :=
  marks.zip marks.tail

/-- The seconds that follow the start of a break. -/
def breakSeconds (marks : List (AttendanceEventType × Date)) : Int :=
  (((intervals marks).filter fun i => i.1.1 == .breakStart).map seconds).sum

/-- The seconds of the other intervals. -/
def workSeconds (marks : List (AttendanceEventType × Date)) : Int :=
  (((intervals marks).filter fun i => i.1.1 != .breakStart).map seconds).sum

/-- The marks `marks`, then `last`, are those of an open session. -/
inductive Live : List (AttendanceEventType × Date) → AttendanceEventType × Date → Prop where
  | punchIn (t : Date) : Live [] (.punchIn, t)
  | breakStart {marks last} (h : Live marks last) (working : last.1 ≠ .breakStart) (t : Date) :
    Live (marks ++ [last]) (.breakStart, t)
  | breakEnd {marks last} (h : Live marks last) (onBreak : last.1 = .breakStart) (t : Date) :
    Live (marks ++ [last]) (.breakEnd, t)

section Marks
variable {marks : List (AttendanceEventType × Date)} {last e : AttendanceEventType × Date}

theorem Live.spelled (h : Live marks last) :
    ∃ breaks, (marks ++ [last]).map (·.1) = spelling breaks (last.1 == .breakStart) none := by
  induction h with
  | punchIn t => exact ⟨0, rfl⟩
  | breakStart h working t ih =>
    obtain ⟨breaks, ih⟩ := ih
    rw [beq_eq_false_iff_ne.mpr working] at ih
    refine ⟨breaks, ?_⟩
    rw [List.map_append, ih]
    simp [spelling]
  | breakEnd h onBreak t ih =>
    obtain ⟨breaks, ih⟩ := ih
    rw [beq_iff_eq.mpr onBreak] at ih
    refine ⟨breaks + 1, ?_⟩
    rw [List.map_append, ih]
    simp [spelling, List.replicate_succ']

/-- A mark at the end adds one interval. -/
theorem intervals_append : intervals (marks ++ [last, e]) = intervals (marks ++ [last]) ++ [(last, e)] := by
  induction marks with
  | nil => rfl
  | cons a marks ih =>
    cases marks with
    | nil => rfl
    | cons b marks => exact congrArg ((a, b) :: ·) ih

theorem breakSeconds_append : breakSeconds (marks ++ [last, e]) =
    breakSeconds (marks ++ [last]) + if last.1 = .breakStart then seconds (last, e) else 0 := by
  by_cases h : last.1 = .breakStart <;> simp [breakSeconds, intervals_append, h]

theorem workSeconds_append : workSeconds (marks ++ [last, e]) =
    workSeconds (marks ++ [last]) + if last.1 = .breakStart then 0 else seconds (last, e) := by
  by_cases h : last.1 = .breakStart <;> simp [workSeconds, intervals_append, h]

/-- Work and breaks cover the time from the first mark to the last. -/
theorem workSeconds_add_breakSeconds {first : AttendanceEventType × Date} (hfirst : marks.head? = some first)
    (hlast : marks.getLast? = some last) : workSeconds marks + breakSeconds marks = last.2 / 1000 - first.2 / 1000 := by
  induction marks using List.reverseRecOn generalizing last with
  | nil => cases hfirst
  | append_singleton marks e ih =>
    obtain rfl : e = last := by simpa using hlast
    rcases List.eq_nil_or_concat' marks with rfl | ⟨marks, a, rfl⟩
    · obtain rfl : e = first := by simpa using hfirst
      simp [workSeconds, breakSeconds, intervals]
    · have hprefix : (marks ++ [a]).head? = some first := by
        cases marks <;> simpa using hfirst
      have hlast' : (marks ++ [a]).getLast? = some a := by simp
      have hprev := ih hprefix hlast'
      rw [List.append_assoc, List.singleton_append, workSeconds_append, breakSeconds_append]
      have hinterval : seconds (a, e) = e.2 / 1000 - a.2 / 1000 := rfl
      split <;> omega

/-! ### Totals -/

theorem elapsed_floor {a b : Date} : elapsed (some (floorToSecond a)) (floorToSecond b) = b / 1000 - a / 1000 := by
  show (b / 1000 * 1000 - a / 1000 * 1000) / 1000 = b / 1000 - a / 1000
  rw [← Int.sub_mul, Int.mul_ediv_cancel _ (by decide)]

/-- A mark, floored to its second. -/
def floored (e : AttendanceEventType × Date) : AttendanceEventType × Date := (e.1, floorToSecond e.2)

/-- The totals of an open session: one stretch is open, of a break if the last mark starts one. -/
theorem Live.totals (h : Live marks last) : ((marks ++ [last]).map floored).foldl Totals.add {} = {
    totalWorkSeconds := workSeconds (marks ++ [last])
    totalBreakSeconds := breakSeconds (marks ++ [last])
    currentWorkStart := if last.1 = .breakStart then none else some (floorToSecond last.2)
    currentBreakStart := if last.1 = .breakStart then some (floorToSecond last.2) else none } := by
  induction h with
  | punchIn t => rfl
  | breakStart h working t ih =>
    rw [List.map_append, List.foldl_append, ih, List.append_assoc, List.singleton_append, workSeconds_append,
      breakSeconds_append]
    simp [Totals.add, floored, working, elapsed_floor, seconds]
  | breakEnd h onBreak t ih =>
    rw [List.map_append, List.foldl_append, ih, List.append_assoc, List.singleton_append, workSeconds_append,
      breakSeconds_append]
    simp [Totals.add, floored, onBreak, elapsed_floor, seconds]

/-- Marks in order of time stay as they are when they are floored and sorted. -/
theorem sortedMarks_of_pairwise (ordered : marks.Pairwise (·.2 ≤ ·.2)) : sortedMarks marks = marks.map floored := by
  refine List.Pairwise.insertionSort_eq (List.pairwise_map.mpr (ordered.imp fun h => ?_))
  exact floorToSecond_mono h

/-- The totals that a punch-out of either kind leaves. -/
theorem recalcTotals_out (h : Live marks last) (hout : e.1 = .punchOut ∨ e.1 = .latePunchOut)
    (ordered : (marks ++ [last, e]).Pairwise (·.2 ≤ ·.2)) :
    recalcTotals (marks ++ [last, e]) = (workSeconds (marks ++ [last, e]), breakSeconds (marks ++ [last, e])) := by
  have fold : ((marks ++ [last, e]).map floored).foldl Totals.add {} =
      Totals.add (((marks ++ [last]).map floored).foldl Totals.add {}) (floored e) := by
    rw [← List.singleton_append, ← List.append_assoc, List.map_append, List.foldl_append]
    rfl
  rw [recalcTotals, sortedMarks_of_pairwise ordered, fold, h.totals, workSeconds_append, breakSeconds_append]
  by_cases onBreak : last.1 = .breakStart <;> rcases hout with hout | hout <;>
    simp [Totals.add, floored, onBreak, hout, elapsed_floor, seconds]

end Marks

/-! ### Sessions -/

/-- The events of a session in order of time. -/
structure Chronicle (s : Db) (id : String) (events : List AttendanceEvent) : Prop where
  perm : events.Perm (eventsOf s id)
  ordered : events.Pairwise (·.timestamp < ·.timestamp)

/-- An open session, whose events are those of one that goes on. -/
def Running (s : Db) (x : AttendanceSession) : Prop :=
  x.status = .open ∧ ∃ events marks last, Chronicle s x.id events ∧ events.map (·.mark) = marks ++ [last] ∧ Live marks last

/-- A closed session, whose events end with the punch-out that the totals were computed at. -/
def Finished (s : Db) (x : AttendanceSession) : Prop :=
  x.status = .closed ∧ ∃ events marks last out, Chronicle s x.id events ∧ events.map (·.mark) = marks ++ [last, out] ∧
    Live marks last ∧ (out.1 = .punchOut ∨ out.1 = .latePunchOut) ∧
    (x.totalWorkSeconds, x.totalBreakSeconds) = recalcTotals (events.map (·.mark))

/-- Every session is running or finished, and its events are its staff member's. -/
structure Tracked (s : Db) : Prop where
  owned : ∀ x ∈ s.attendanceSession, ∀ e ∈ eventsOf s x.id, e.staffId = x.staffId
  phase : ∀ x ∈ s.attendanceSession, Running s x ∨ Finished s x

section Chronicle
variable {s t : Db} {id : String} {events : List AttendanceEvent} {e a l : AttendanceEvent} {io : Io}

theorem eventsOf_insert (h : s.attendanceEvent.insert e = some t.attendanceEvent) :
    eventsOf t id = eventsOf s id ++ if e.sessionId = some id then [e] else [] := by
  simp only [eventsOf, Table.filter, (Table.insert_eq_some.mp h).2, List.filter_append, List.filter_singleton]
  cases hsession : e.sessionId == some id with
  | true => rw [cond_true, if_pos (beq_iff_eq.mp hsession)]
  | false => rw [cond_false, if_neg (beq_eq_false_iff_ne.mp hsession)]

/-- An event of another session leaves the events of a session as they are. -/
theorem eventsOf_other (h : s.attendanceEvent.insert e = some t.attendanceEvent) {id' : String}
    (hsession : e.sessionId = some id') (hne : id ≠ id') : eventsOf t id = eventsOf s id := by
  rw [eventsOf_insert h, hsession, if_neg fun heq => hne (Option.some.inj heq).symm, List.append_nil]

theorem Chronicle.append (h : Chronicle s id events) (hinsert : s.attendanceEvent.insert e = some t.attendanceEvent)
    (hsession : e.sessionId = some id) (after : ∀ a ∈ eventsOf s id, a.timestamp < e.timestamp) :
    Chronicle t id (events ++ [e]) where
  perm := by
    rw [eventsOf_insert hinsert, if_pos hsession]
    exact h.perm.append_right [e]
  ordered := by
    refine List.pairwise_append.mpr ⟨h.ordered, List.pairwise_singleton _ _, fun a ha b hb => ?_⟩
    obtain rfl := List.mem_singleton.mp hb
    exact after a (h.perm.mem_iff.mp ha)

theorem Chronicle.mem (h : Chronicle s id events) : a ∈ events ↔ a ∈ eventsOf s id := h.perm.mem_iff

/-- The times tell the events apart. -/
theorem Chronicle.eq_of_timestamp (h : Chronicle s id events) (ha : a ∈ events) (hl : l ∈ events)
    (htime : a.timestamp = l.timestamp) : a = l := by
  have : Std.Symm fun a b : AttendanceEvent => a.timestamp ≠ b.timestamp := ⟨fun _ _ hne => hne.symm⟩
  have apart : events.Pairwise fun a b => a.timestamp ≠ b.timestamp := h.ordered.imp ne_of_lt
  by_contra hne
  exact apart.forall ha hl hne htime

/-- The store returns the events in this order. -/
theorem Chronicle.eq_of_perm (h : Chronicle s id events) {list : List AttendanceEvent} (hperm : list.Perm (eventsOf s id))
    (hordered : list.Pairwise (·.timestamp ≤ ·.timestamp)) : list = events := by
  have hpermEvents := hperm.trans h.perm.symm
  refine List.Perm.eq_of_pairwise (fun a b ha hb hab hba => ?_) hordered (h.ordered.imp le_of_lt) hpermEvents
  exact h.eq_of_timestamp (hpermEvents.mem_iff.mp ha) hb (le_antisymm hab hba)

/-- The event that a handler looks at is the last one. -/
theorem Chronicle.lastEvent (h : Chronicle s id (events ++ [l])) (hlast : lastEvent io s id = some a) : a = l := by
  obtain ⟨hmem, hmax⟩ := RowOrder.head_desc hlast
  have hl : l ∈ events ++ [l] := List.mem_append_right _ (List.mem_singleton.mpr rfl)
  rcases List.mem_append.mp (h.mem.mpr hmem) with ha | ha
  · have hbefore : a.timestamp < l.timestamp :=
      (List.pairwise_append.mp h.ordered).2.2 a ha l (List.mem_singleton.mpr rfl)
    exact absurd (hmax l (h.mem.mp hl)) (not_le.mpr hbefore)
  · exact List.mem_singleton.mp ha

end Chronicle

/-! ### Steps -/

/-- The request passes all checks, and this is the first time that it records for the staff member; a late
    flow goes on with a later one. -/
inductive Records (luxon : Luxon) (s : Db) (q : Request) (staff : Staff) : Date → Prop where
  | punchIn {zone : Zone} {time : Date} (badge : q.Badge s staff) (action : q.dto.action = .punchIn)
    (may : MayPunchIn luxon s q.io q.dto staff zone time) : Records luxon s q staff time
  | breakStart {x : AttendanceSession} {time : Date} (badge : q.Badge s staff) (action : q.dto.action = .breakStart)
    (may : MayMark s q.io q.dto staff (fun last => last == .punchIn || last == .breakEnd) x time) : Records luxon s q staff time
  | breakEnd {x : AttendanceSession} {time : Date} (badge : q.Badge s staff) (action : q.dto.action = .breakEnd)
    (may : MayMark s q.io q.dto staff (fun last => last == .breakStart) x time) : Records luxon s q staff time
  | punchOut {x : AttendanceSession} {time : Date} (badge : q.Badge s staff) (action : q.dto.action = .punchOut)
    (may : MayPunchOut s q.io q.dto staff x time) : Records luxon s q staff time
  | late {x : AttendanceSession} {zone : Zone} {approxOut punchIn : Date} (badge : q.Badge s staff)
    (action : q.dto.action = .latePunchOutAndPunchIn)
    (may : MayPunchOutLate luxon s q.dto staff x zone approxOut punchIn) : Records luxon s q staff approxOut

/-- What a request records for a staff member comes after all that is recorded for the same staff member. -/
def Increasing (luxon : Luxon) (s : Db) (q : Request) : Prop := ∀ staff time, Records luxon s q staff time →
  ∀ e ∈ s.attendanceEvent, e.staffId = staff.id → e.timestamp < time

section Steps
variable {luxon : Luxon} {s t : Db} {q : Request} {staff : Staff} {x x' y : AttendanceSession} {e : AttendanceEvent}

/-- An event of another session leaves a session in its phase. -/
theorem phase_of_other (h : Running s y ∨ Finished s y) (hinsert : s.attendanceEvent.insert e = some t.attendanceEvent)
    (hsession : e.sessionId = some x.id) (hne : y.id ≠ x.id) : Running t y ∨ Finished t y := by
  have chronicle : ∀ {events}, Chronicle s y.id events → Chronicle t y.id events := fun h =>
    ⟨by rw [eventsOf_other hinsert hsession hne]; exact h.perm, h.ordered⟩
  rcases h with ⟨hopen, events, marks, last, hevents, hrest⟩ | ⟨hclosed, events, marks, last, out, hevents, hrest⟩
  · exact Or.inl ⟨hopen, events, marks, last, chronicle hevents, hrest⟩
  · exact Or.inr ⟨hclosed, events, marks, last, out, chronicle hevents, hrest⟩

theorem owned_insert (tracked : Tracked s) (hinsert : s.attendanceEvent.insert e = some t.attendanceEvent)
    (howner : e.sessionId = some y.id → e.staffId = y.staffId) (hy : y ∈ s.attendanceSession) :
    ∀ a ∈ eventsOf t y.id, a.staffId = y.staffId := by
  intro a ha
  rcases (mem_eventsOf_insert hinsert).mp ha with ha | ⟨rfl, hsession⟩
  · exact tracked.owned y hy a ha
  · exact howner hsession

theorem Opens.tracked (inv : Inv luxon s) (tracked : Tracked s) (h : Opens s t x e) (hopen : x.status = .open)
    (hsession : e.sessionId = some x.id) (howner : e.staffId = x.staffId) (htype : e.eventType = .punchIn) : Tracked t := by
  have fresh : eventsOf s x.id = [] :=
    List.eq_nil_iff_forall_not_mem.mpr fun a => inv.eventsOf_fresh fun z hz => h.id_ne hz
  have own : eventsOf t x.id = [e] := by rw [eventsOf_insert h.event, fresh, if_pos hsession, List.nil_append]
  constructor
  · intro y hy
    rcases h.mem_session.mp hy with hy | rfl
    · exact owned_insert tracked h.event (fun hid => absurd (Option.some.inj (hid.symm.trans hsession)) (h.id_ne hy)) hy
    · rw [own]
      intro a ha
      rw [List.mem_singleton.mp ha, howner]
  · intro y hy
    rcases h.mem_session.mp hy with hy | rfl
    · exact phase_of_other (tracked.phase y hy) h.event hsession (h.id_ne hy)
    · refine Or.inl ⟨hopen, [e], [], e.mark, ⟨by rw [own], List.pairwise_singleton _ _⟩, rfl, ?_⟩
      have hmark : e.mark = (.punchIn, e.timestamp) := Prod.ext htype rfl
      rw [hmark]
      exact .punchIn e.timestamp

/-- The phase of an open session whose last event is known. -/
theorem Tracked.running (tracked : Tracked s) (hx : x ∈ s.attendanceSession) (hopen : x.status = .open) :
    ∃ events l, Chronicle s x.id (events ++ [l]) ∧ Live (events.map (·.mark)) l.mark := by
  rcases tracked.phase x hx with ⟨-, events, marks, last, hevents, hmarks, live⟩ | ⟨hclosed, -⟩
  · obtain ⟨events, rest, rfl, rfl, hrest⟩ := List.map_eq_append_iff.mp hmarks
    obtain ⟨l, rfl, rfl⟩ := List.map_eq_singleton_iff.mp hrest
    exact ⟨events, l, hevents, live⟩
  · rw [hopen] at hclosed
    cases hclosed

theorem Marks.tracked (tracked : Tracked s) (h : Marks s t e) (hx : x ∈ s.attendanceSession) (hopen : x.status = .open)
    (hsession : e.sessionId = some x.id) (howner : e.staffId = x.staffId)
    (after : ∀ a ∈ eventsOf s x.id, a.timestamp < e.timestamp)
    (goesOn : ∀ events l, Chronicle s x.id (events ++ [l]) → Live (events.map (·.mark)) l.mark →
      Live (events.map (·.mark) ++ [l.mark]) e.mark) : Tracked t := by
  constructor
  · intro y hy
    rw [h.sessions] at hy
    refine owned_insert tracked h.event (fun hid => ?_) hy
    rw [Table.eq_of_id hy hx (Option.some.inj (hid.symm.trans hsession)), howner]
  · intro y hy
    rw [h.sessions] at hy
    by_cases hid : y.id = x.id
    · obtain rfl : y = x := Table.eq_of_id hy hx hid
      obtain ⟨events, l, chronicle, live⟩ := tracked.running hy hopen
      refine Or.inl ⟨hopen, events ++ [l] ++ [e], events.map (·.mark) ++ [l.mark], e.mark,
        chronicle.append h.event hsession after, ?_, goesOn events l chronicle live⟩
      rw [List.map_append, List.map_append]
      rfl
    · exact phase_of_other (tracked.phase y hy) h.event hsession hid

theorem Closes.tracked (tracked : Tracked s) (h : Closes s t x x' e) (hx : x ∈ s.attendanceSession) (hopen : x.status = .open)
    (hsession : e.sessionId = some x.id) (howner : e.staffId = x.staffId)
    (after : ∀ a ∈ eventsOf s x.id, a.timestamp < e.timestamp)
    (htype : e.eventType = .punchOut ∨ e.eventType = .latePunchOut) : Tracked t := by
  obtain ⟨hid, hstaff, -, -, hclosed, -⟩ := h.same
  constructor
  · intro y hy
    rcases (h.sessions y).mp hy with rfl | ⟨hy, hne⟩
    · rw [hid, hstaff]
      exact owned_insert tracked h.event (fun _ => howner) hx
    · exact owned_insert tracked h.event (fun hid => absurd (Option.some.inj (hid.symm.trans hsession)) hne) hy
  · intro y hy
    rcases (h.sessions y).mp hy with rfl | ⟨hy, hne⟩
    · obtain ⟨events, l, chronicle, live⟩ := tracked.running hx hopen
      obtain ⟨list, hperm, hordered, htotals⟩ := h.totals
      obtain rfl := chronicle.eq_of_perm hperm hordered
      refine Or.inr ⟨hclosed, events ++ [l] ++ [e], events.map (·.mark), l.mark, e.mark, ?_, ?_, live, htype, htotals⟩
      · rw [hid]
        exact chronicle.append h.event hsession after
      · rw [List.map_append, List.map_append, List.append_assoc]
        rfl
    · exact phase_of_other (tracked.phase y hy) h.event hsession hne

theorem Acted.tracked (inv : Inv luxon s) (tracked : Tracked s) (increasing : Increasing luxon s q) (badge : q.Badge s staff)
    (h : Acted luxon s q staff t) : Tracked t := by
  -- all events of a session of the staff member come before what the request records
  have after : ∀ {y time}, y ∈ s.attendanceSession → y.staffId = staff.id → Records luxon s q staff time →
      ∀ a ∈ eventsOf s y.id, a.timestamp < time := fun hy howner records a ha =>
    increasing staff _ records a (mem_eventsOf.mp ha).1 ((tracked.owned _ hy a ha).trans howner)
  cases h with
  | punchIn zone time action may opens => exact opens.tracked inv tracked rfl rfl rfl rfl
  | breakStart x time action may marks =>
    have names := may.names
    refine marks.tracked tracked names.mem names.isOpen rfl names.owner.symm
      (after names.mem names.owner (.breakStart badge action may)) fun events l chronicle live => ?_
    obtain ⟨last, hlast, admits⟩ := may.last
    obtain rfl := chronicle.lastEvent hlast
    refine live.breakStart (fun hbreak => ?_) time
    have hbreak : last.eventType = .breakStart := hbreak
    simp [hbreak] at admits
  | breakEnd x time action may marks =>
    have names := may.names
    refine marks.tracked tracked names.mem names.isOpen rfl names.owner.symm
      (after names.mem names.owner (.breakEnd badge action may)) fun events l chronicle live => ?_
    obtain ⟨last, hlast, admits⟩ := may.last
    obtain rfl := chronicle.lastEvent hlast
    exact live.breakEnd (beq_iff_eq.mp admits) time
  | punchOut x x' time action may closes =>
    have names := may.names
    exact closes.tracked tracked names.mem names.isOpen rfl names.owner.symm
      (after names.mem names.owner (.punchOut badge action may)) (Or.inl rfl)
  | late x x' zone approxOut punchIn u action may closes opens =>
    have names := may.names
    have closed := closes.tracked tracked names.mem names.isOpen rfl names.owner.symm
      (after names.mem names.owner (.late badge action may)) (Or.inr rfl)
    exact opens.tracked (closes.inv inv names.mem rfl) closed rfl rfl rfl rfl

theorem tracked_of_reach (h : (attendance luxon).Reach (Increasing luxon) s) : Tracked s := by
  refine attendance_invariant h (fun s hsessions _ => ?_) fun s q staff t hr tracked increasing badge acted => ?_
  · constructor <;> intro x hx <;> rw [hsessions] at hx <;> exact absurd hx Table.not_mem_empty
  · exact acted.tracked (reachable_inv hr.reachable) tracked increasing badge

end Steps

/-! ### The accounts of a session -/

section Accounts
variable {s : Db} {x : AttendanceSession}

/-- What the phase of a session says in terms of its events. -/
theorem spelled_of_phase (h : Running s x ∨ Finished s x) : ∃ events : List AttendanceEvent,
    Chronicle s x.id events ∧
    (∃ breaks onBreak out, events.map (·.eventType) = spelling breaks onBreak out ∧
      (∀ type, out = some type → type = .punchOut ∨ type = .latePunchOut) ∧ (x.status = .closed ↔ out.isSome)) ∧
    (x.status = .closed → x.totalBreakSeconds = breakSeconds (events.map (·.mark)) ∧
      x.totalWorkSeconds = workSeconds (events.map (·.mark))) := by
  have types : ∀ events : List AttendanceEvent, events.map (·.eventType) = (events.map (·.mark)).map (·.1) := fun events => by
    rw [List.map_map]
    rfl
  rcases h with ⟨hopen, events, marks, last, chronicle, hmarks, live⟩ |
    ⟨hclosed, events, marks, last, out, chronicle, hmarks, live, hout, htotals⟩
  · obtain ⟨breaks, spelled⟩ := live.spelled
    have notClosed : ¬x.status = .closed := fun hclosed => by
      rw [hopen] at hclosed
      cases hclosed
    refine ⟨events, chronicle, ⟨breaks, last.1 == .breakStart, none, ?_, ?_, ?_⟩, fun hclosed => absurd hclosed notClosed⟩
    · rw [types, hmarks, spelled]
    · intro type htype
      cases htype
    · exact iff_of_false notClosed Bool.false_ne_true
  · obtain ⟨breaks, spelled⟩ := live.spelled
    refine ⟨events, chronicle, ⟨breaks, last.1 == .breakStart, some out.1, ?_, ?_, iff_of_true hclosed rfl⟩, fun _ => ?_⟩
    · have hsplit : marks ++ [last, out] = (marks ++ [last]) ++ [out] := by rw [List.append_assoc]; rfl
      rw [types, hmarks, hsplit, List.map_append, spelled]
      simp [spelling]
    · intro type htype
      obtain rfl := Option.some.inj htype
      exact hout
    · have hordered : (events.map (·.mark)).Pairwise (·.2 ≤ ·.2) :=
        List.pairwise_map.mpr (chronicle.ordered.imp le_of_lt)
      rw [hmarks] at hordered htotals ⊢
      rw [recalcTotals_out live hout hordered] at htotals
      exact ⟨congrArg Prod.snd htotals, congrArg Prod.fst htotals⟩

end Accounts

/-- In a run that records increasing times for each staff member, the events of every session, in order of
    time, are a punch-in, breaks, and a punch-out exactly if the session is closed; and the totals of a
    closed session are the seconds of its breaks and of the rest. -/
theorem sessions_spelled (luxon : Luxon) (s : Db) (h : (attendance luxon).Reach (Increasing luxon) s) :
    ∀ x ∈ s.attendanceSession, ∃ events : List AttendanceEvent,
      events.Perm (eventsOf s x.id) ∧ events.Pairwise (·.timestamp < ·.timestamp) ∧
      (∃ breaks onBreak out, events.map (·.eventType) = spelling breaks onBreak out ∧
        (∀ type, out = some type → type = .punchOut ∨ type = .latePunchOut) ∧ (x.status = .closed ↔ out.isSome)) ∧
      (x.status = .closed → x.totalBreakSeconds = breakSeconds (events.map (·.mark)) ∧
        x.totalWorkSeconds = workSeconds (events.map (·.mark)) ∧
        ∀ first last, events.head? = some first → events.getLast? = some last →
          x.totalWorkSeconds + x.totalBreakSeconds = last.timestamp / 1000 - first.timestamp / 1000) := by
  intro x hx
  obtain ⟨events, chronicle, spelled, totals⟩ := spelled_of_phase ((tracked_of_reach h).phase x hx)
  refine ⟨events, chronicle.perm, chronicle.ordered, spelled, fun hclosed => ?_⟩
  obtain ⟨hbreak, hwork⟩ := totals hclosed
  refine ⟨hbreak, hwork, fun first last hfirst hlast => ?_⟩
  have hhead : (events.map (·.mark)).head? = some first.mark := by rw [List.head?_map, hfirst]; rfl
  have hend : (events.map (·.mark)).getLast? = some last.mark := by rw [List.getLast?_map, hlast]; rfl
  rw [hbreak, hwork]
  exact workSeconds_add_breakSeconds hhead hend

section Office
open Office

/-- Ann comes, and goes home during a break. -/
def shortDay : List Request :=
  [request "1" .punchIn (9 * hour), request "2" .breakStart (12 * hour + 500) (some "s1"),
    request "3" .punchOut (13 * hour + 200) (some "s1")]

theorem reach_shortDay : (attendance utc).Reach (Increasing utc) (runAll utc db shortDay) := by
  have step : ∀ {s : Db} {q : Request} {now : Date}, (attendance utc).Reach (Increasing utc) s → q.io.now = now →
      q.dto.time = some (some now) → q.dto.action ≠ .latePunchOutAndPunchIn → (∀ e ∈ s.attendanceEvent, e.timestamp < now) →
      (attendance utc).Reach (Increasing utc) ((q.call utc).run s).2 := by
    intro s q now reach hnow htime haction before
    refine .step reach (fun staff time records e he _ => ?_) ⟨_, Prog.exec_run (q.call utc) s⟩
    have hat : ∀ {time}, q.dto.time.getD (some q.io.now) = some time → time = now := fun h => by
      rw [htime] at h
      exact (Option.some.inj h).symm
    cases records with
    | punchIn _ _ may => exact hat may.atTime ▸ before e he
    | breakStart _ _ may => exact hat may.atTime ▸ before e he
    | breakEnd _ _ may => exact hat may.atTime ▸ before e he
    | punchOut _ _ may => exact hat may.atTime ▸ before e he
    | late _ action _ => exact absurd action haction
  refine step (step (step (.init ⟨rfl, rfl⟩) rfl rfl ?_ ?_) rfl rfl ?_ ?_) rfl rfl ?_ ?_ <;> decide

/-- The session that the break leaves behind, with the seconds of the break. -/
theorem sessions_spelled_office : ∃ x ∈ (runAll utc db shortDay).attendanceSession, ∃ events : List AttendanceEvent,
    events.Perm (eventsOf (runAll utc db shortDay) x.id) ∧ x.totalBreakSeconds = breakSeconds (events.map (·.mark)) := by
  have closed : ∃ x ∈ (runAll utc db shortDay).attendanceSession, x.status = .closed := by decide
  obtain ⟨x, hx, hclosed⟩ := closed
  obtain ⟨events, hperm, -, -, htotals⟩ := sessions_spelled utc _ reach_shortDay x hx
  exact ⟨x, hx, events, hperm, (htotals hclosed).1⟩

end Office

end Vms.Attendance
