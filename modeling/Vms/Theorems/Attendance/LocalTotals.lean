import Vms.AttendanceExport
import Vms.Theorems.Attendance.Totals

/-! The two loops that total a session: `recalcTotals`, when a punch-out closes it, and `recalcTotalsLocal`, in
    the export. -/

namespace Vms.Attendance
open Relational

section Loops
variable {acc : Totals} {e : AttendanceEventType × Date} {events events' : List (AttendanceEventType × Date)}

/-- One event: where no stretch is open, the loop of `recalcTotals` adds no seconds. -/
theorem addLocal_eq_add : acc.addLocal e = acc.add e := by
  obtain ⟨type, t⟩ := e
  obtain ⟨work, rest, workStart, breakStart⟩ := acc
  cases type with
  | punchIn | breakEnd => cases breakStart <;> simp [Totals.addLocal, Totals.add, elapsed]
  | breakStart => cases workStart <;> simp [Totals.addLocal, Totals.add, elapsed]
  | punchOut | latePunchOut =>
    cases breakStart with
    | some start => simp [Totals.addLocal, Totals.add, elapsed]
    | none => cases workStart <;> simp [Totals.addLocal, Totals.add, elapsed]

theorem foldl_addLocal : events.foldl Totals.addLocal acc = events.foldl Totals.add acc := by
  induction events generalizing acc with
  | nil => rfl
  | cons e events ih => rw [List.foldl_cons, List.foldl_cons, addLocal_eq_add, ih]

theorem recalcTotalsLocal_eq : recalcTotalsLocal events = recalcTotals events := by
  simp only [recalcTotalsLocal, foldl_addLocal]
  rfl

/-- Marks at different seconds are sorted in one way only. -/
theorem sortedMarks_perm (hperm : events'.Perm events) (distinct : (events.map fun e => floorToSecond e.2).Nodup) :
    sortedMarks events' = sortedMarks events := by
  have hfloored : (sortedMarks events').Perm (sortedMarks events) :=
    (perm_sortedMarks.trans (hperm.map floored)).trans perm_sortedMarks.symm
  have times : ((sortedMarks events).map (·.2)).Nodup := by
    refine (perm_sortedMarks.map _).nodup_iff.mpr ?_
    simpa [floored, Function.comp_def] using distinct
  refine hfloored.eq_of_pairwise (fun a b ha hb hab hba => ?_) pairwise_sortedMarks pairwise_sortedMarks
  exact List.inj_on_of_nodup_map times (hfloored.mem_iff.mp ha) hb (Int.le_antisymm hab hba)

theorem recalcTotals_perm (hperm : events'.Perm events) (distinct : (events.map fun e => floorToSecond e.2).Nodup) :
    recalcTotals events' = recalcTotals events := by
  rw [recalcTotals, recalcTotals, sortedMarks_perm hperm distinct]

end Loops

/-- The two loops agree on every list, and on every order of a list in which no two events share a second: so
    the row of the export shows the hours that the punch-out left, in whatever order it reads the events. -/
theorem totals_agree :
    (∀ events : List (AttendanceEventType × Date), recalcTotalsLocal events = recalcTotals events) ∧
    (∀ events events' : List (AttendanceEventType × Date), (events.map fun e => floorToSecond e.2).Nodup →
      events'.Perm events → recalcTotals events' = recalcTotals events ∧ recalcTotalsLocal events' = recalcTotals events) ∧
    ∀ (order : RowOrder AttendanceEvent) (session stored : List AttendanceEvent) (punchOutEvent : AttendanceEvent),
      stored.Perm (session ++ [punchOutEvent]) →
      ((session ++ [punchOutEvent]).map fun e => floorToSecond e.timestamp).Nodup →
      recalcTotalsLocal ((order.asc (·.timestamp) stored).map (·.mark)) =
        recalcTotals ((session ++ [punchOutEvent]).map (·.mark)) := by
  refine ⟨fun events => recalcTotalsLocal_eq, fun events events' distinct hperm => ?_,
    fun order session stored punchOutEvent hstored distinct => ?_⟩
  · have htotals := recalcTotals_perm hperm distinct
    exact ⟨htotals, recalcTotalsLocal_eq.trans htotals⟩
  · have hrows : ((order.asc (·.timestamp) stored).map (·.mark)).Perm ((session ++ [punchOutEvent]).map (·.mark)) :=
      (RowOrder.perm_asc.trans hstored).map _
    rw [recalcTotalsLocal_eq]
    refine recalcTotals_perm hrows ?_
    rw [List.map_map]
    exact distinct

/-! ### A day with one break -/

namespace Day

def event (id : String) (eventType : AttendanceEventType) (timestamp : Date) : AttendanceEvent :=
  { id, orgId := "org", staffId := "ann", sessionId := some "day", eventType, timestamp }

def session : List AttendanceEvent := [event "1" .punchIn 1700, event "2" .breakStart 3900, event "3" .breakEnd 6000]

def punchOut : AttendanceEvent := event "4" .punchOut 9400

def marks : List (AttendanceEventType × Date) := (session ++ [punchOut]).map (·.mark)

end Day

section Day
open Day

/-- The marks in reverse give the same totals, and so does an export that reads the punch-out first. -/
theorem totals_agree_day :
    (recalcTotals marks.reverse = recalcTotals marks ∧ recalcTotalsLocal marks.reverse = recalcTotals marks) ∧
    recalcTotalsLocal (((RowOrder.front punchOut).asc (·.timestamp) (punchOut :: session)).map (·.mark)) =
      recalcTotals ((session ++ [punchOut]).map (·.mark)) := by
  have distinct : (marks.map fun e => floorToSecond e.2).Nodup := by decide
  exact ⟨totals_agree.2.1 marks marks.reverse distinct marks.reverse_perm,
    totals_agree.2.2 (RowOrder.front punchOut) session (punchOut :: session) punchOut
      (List.perm_append_singleton punchOut session).symm distinct⟩

example : recalcTotals marks = (5, 3) := by decide

end Day

end Vms.Attendance
