import Vms.Lib.Tally
import Vms.VisitAnalytics

/-! The leaderboards of an organisation: the ten employees that were visited most often, and the ten visitors that
    came most often. -/

namespace Vms.VisitAnalyticsService
open Relational

/-! ### Counting -/

/-- Each key of the entries is counted, with a value that was stored under it. -/
structure Recorded {α : Type} (entries : List (String × α)) (counts : List (Count α)) : Prop where
  tally : Tally.Counts (entries.map (·.1)) (counts.map fun c => (c.key, c.count))
  values : ∀ c ∈ counts, (c.key, c.value) ∈ entries

section Counting
variable {α : Type} {entries : List (String × α)} {counts : List (Count α)} {entry : String × α}

theorem Recorded.nil : Recorded ([] : List (String × α)) [] := ⟨Tally.Counts.nil, fun _ h => absurd h List.not_mem_nil⟩

theorem Recorded.record (h : Recorded entries counts) (entry : String × α) :
    Recorded (entries ++ [entry]) (record counts entry) := by
  have hkeys : entry.1 ∈ entries.map (·.1) ↔ counts.any (·.key == entry.1) = true := by
    rw [← h.tally.mem_iff, List.map_map]
    simp
  unfold VisitAnalyticsService.record
  split
  · rename_i hknown
    constructor
    · have htally := h.tally.concat_known (hkeys.mpr hknown)
      rw [List.map_map] at htally ⊢
      rw [List.map_append, List.map_singleton]
      convert htally using 2
      funext c
      by_cases hkey : c.key = entry.1 <;> simp [hkey]
    · intro c' hc'
      obtain ⟨c, hc, rfl⟩ := List.mem_map.mp hc'
      split
      · rename_i hkey
        rw [beq_iff_eq.mp hkey]
        exact List.mem_append_right _ List.mem_cons_self
      · exact List.mem_append_left _ (h.values c hc)
  · rename_i hnew
    constructor
    · rw [List.map_append, List.map_append]
      exact h.tally.concat_new fun hkey => hnew (hkeys.mp hkey)
    · intro c hc
      rcases List.mem_append.mp hc with hold | hlast
      · exact List.mem_append_left _ (h.values c hold)
      · rw [List.mem_singleton.mp hlast]
        exact List.mem_append_right _ List.mem_cons_self

/-- The induction is on the entries that are left; `entries` are the ones before them. -/
theorem Recorded.foldl (h : Recorded entries counts) (more : List (String × α)) :
    Recorded (entries ++ more) (more.foldl VisitAnalyticsService.record counts) := by
  induction more generalizing entries counts with
  | nil =>
    rw [List.append_nil]
    exact h
  | cons entry more ih =>
    rw [List.foldl_cons, ← List.singleton_append, ← List.append_assoc]
    exact ih (h.record entry)

theorem perm_objectValues : (objectValues counts).Perm counts := by
  have hindices := List.perm_insertionSort (fun a b : Count α => (arrayIndex a.key).getD 0 ≤ (arrayIndex b.key).getD 0)
    (counts.filter fun c => (arrayIndex c.key).isSome)
  refine (hindices.append_right _).trans ?_
  simpa [Option.not_isSome] using List.filter_append_perm (fun c : Count α => (arrayIndex c.key).isSome) counts

/-- The entries of `top` are ten of the most frequent ones. -/
theorem top_spec : Tally.Top 10 (entries.map (·.1)) ((top entries).map fun c => (c.key, c.count)) ∧
    ∀ c ∈ top entries, (c.key, c.value) ∈ entries := by
  have recorded : Recorded entries (entries.foldl record []) := Recorded.nil.foldl entries
  have hperm : ((objectValues (entries.foldl record [])).insertionSort fun a b => a.count ≥ b.count).Perm
      (entries.foldl record []) := (List.perm_insertionSort _ _).trans perm_objectValues
  have sorted : ((objectValues (entries.foldl record [])).insertionSort fun a b => a.count ≥ b.count).Pairwise
      fun a b => a.count ≥ b.count := by
    have : Std.Total fun a b : Count α => a.count ≥ b.count := ⟨fun a b => Nat.le_total b.count a.count⟩
    have : IsTrans (Count α) fun a b => a.count ≥ b.count := ⟨fun _ _ _ h h' => Nat.le_trans h' h⟩
    exact List.pairwise_insertionSort _ _
  constructor
  · rw [top, List.map_take]
    exact (recorded.tally.of_perm (hperm.map _)).top_take (List.pairwise_map.mpr sorted) 10
  · intro c hc
    exact recorded.values c (hperm.mem_iff.mp (List.mem_of_mem_take hc))

end Counting

/-! ### The two leaderboards -/

/-- The employees whom the visits of a period are to, once for each visit. -/
def hostsOf (clock : Clock) (orgId period : String) (s : Db) : List String :=
  ((s.visit.filter (whereClause clock orgId period)).filter fun visit => (s.staff.find visit.staffId).isSome).map (·.staffId)

/-- The addresses of the visitors of a period, once for each visit. -/
def visitorsOf (js : Js) (clock : Clock) (orgId period : String) (s : Db) : List String :=
  (s.visit.filter (whereClause clock orgId period)).map fun visit => js.toLowerCase visit.email

/-- The reply has one entry for each of ten of the most frequent groups, or of all if there are fewer. -/
def TopTen {ε : Type} (groups : List String) (OfGroup : String × Nat → ε → Prop) (reply : List ε) : Prop :=
  ∃ board, Tally.Top 10 groups board ∧ List.Forall₂ OfGroup board reply

/-- The entry of an employee has their name, and the number of their visits. -/
def EmployeeEntry (s : Db) (group : String × Nat) (entry : TopEntry) : Prop :=
  entry.count = group.2 ∧ ∃ staff ∈ s.staff, staff.id = group.1 ∧ entry.name = orElse (some staff.name) "Unknown"

/-- The entry of a visitor has the name and the address of one of their visits, and the number of them. -/
def VisitorEntry (js : Js) (clock : Clock) (orgId period : String) (s : Db) (group : String × Nat)
    (entry : TopVisitor) : Prop :=
  entry.count = group.2 ∧ ∃ visit ∈ s.visit, whereClause clock orgId period visit = true ∧
    js.toLowerCase visit.email = group.1 ∧ entry.name = visit.fullName ∧ entry.email = visit.email

section Boards
variable {α ε : Type} {entries : List (String × α)} {groups : List String} {OfGroup : String × Nat → ε → Prop}
  {reply : List ε}

theorem topTen_of_entries {display : Count α → ε} (hkeys : groups.Perm (entries.map (·.1)))
    (h : ∀ c : Count α, (c.key, c.value) ∈ entries → OfGroup (c.key, c.count) (display c)) :
    TopTen groups OfGroup ((top entries).map display) := by
  refine ⟨_, top_spec.1.of_perm hkeys, ?_⟩
  rw [List.forall₂_map_left_iff, List.forall₂_map_right_iff, List.forall₂_same]
  exact fun c hc => h c (top_spec.2 c hc)

theorem TopTen.counts (h : TopTen groups OfGroup reply) {count : ε → Nat}
    (hcount : ∀ e entry, OfGroup e entry → count entry = e.2) : reply.map count = (Tally.figures groups).take 10 := by
  obtain ⟨board, htop, hentries⟩ := h
  have hcounts : reply.map count = board.map (·.2) := by
    clear htop
    induction hentries with
    | nil => rfl
    | cons hentry _ ih => exact congrArg₂ List.cons (hcount _ _ hentry) ih
  rw [hcounts, htop.map_snd]

end Boards

section Queries
variable {s : Db}

def employeeEntries (s : Db) (visits : List Visit) : List (String × String) :=
  (visits.map fun visit => s.staff.find visit.staffId).filterMap fun staff =>
    staff.map fun staff => (staff.id, orElse (some staff.name) "Unknown")

theorem keys_employeeEntries (l : List Visit) : (employeeEntries s l).map (·.1) =
    (l.filter fun visit => (s.staff.find visit.staffId).isSome).map (·.staffId) := by
  induction l with
  | nil => rfl
  | cons visit l ih =>
    rw [employeeEntries, List.map_cons]
    cases hstaff : s.staff.find visit.staffId with
    | none =>
      rw [List.filterMap_cons_none rfl, List.filter_cons_of_neg (by simp [hstaff])]
      exact ih
    | some staff =>
      have hid : staff.id = visit.staffId := (Table.find_eq_some.mp hstaff).2
      rw [List.filter_cons_of_pos (by simp [hstaff]), List.map_cons, ← ih, ← hid]
      rfl

theorem mem_employeeEntries {l : List Visit} {key name : String} (h : (key, name) ∈ employeeEntries s l) :
    ∃ staff ∈ s.staff, staff.id = key ∧ name = orElse (some staff.name) "Unknown" := by
  obtain ⟨found, hfound, hentry⟩ := List.mem_filterMap.mp h
  obtain ⟨visit, -, rfl⟩ := List.mem_map.mp hfound
  obtain ⟨staff, hstaff, heq⟩ := Option.map_eq_some_iff.mp hentry
  obtain ⟨rfl, rfl⟩ := Prod.mk.inj heq
  exact ⟨staff, (Table.find_eq_some.mp hstaff).1, rfl, rfl⟩

theorem getTopEmployees_spec (clock : Clock) (visits : RowOrder Visit) (orgId period : String) (s : Db) :
    ∃ reply, (getTopEmployees clock visits orgId period).run s = (.ok reply, s) ∧
    TopTen (hostsOf clock orgId period s) (EmployeeEntry s) reply := by
  refine ⟨_, rfl, topTen_of_entries ?_ fun c hc => ⟨rfl, mem_employeeEntries hc⟩⟩
  show (hostsOf clock orgId period s).Perm
    ((employeeEntries s (visits.rows (s.visit.filter (whereClause clock orgId period)))).map (·.1))
  rw [keys_employeeEntries]
  exact (((visits.perm _).filter _).map _).symm

theorem getTopVisitors_spec (js : Js) (clock : Clock) (visits : RowOrder Visit) (orgId period : String) (s : Db) :
    ∃ reply, (getTopVisitors js clock visits orgId period).run s = (.ok reply, s) ∧
    TopTen (visitorsOf js clock orgId period s) (VisitorEntry js clock orgId period s) reply := by
  refine ⟨_, rfl, topTen_of_entries ?_ fun c hc => ⟨rfl, ?_⟩⟩
  · rw [List.map_map, List.map_map]
    exact ((visits.perm _).map _).symm
  · obtain ⟨_, hcopy, heq⟩ := List.mem_map.mp hc
    obtain ⟨visit, hvisit, rfl⟩ := List.mem_map.mp hcopy
    obtain ⟨hkey, hvalue⟩ := Prod.mk.inj heq
    obtain ⟨hmem, hwhere⟩ := Table.mem_filter.mp ((visits.perm _).mem_iff.mp hvisit)
    exact ⟨visit, hmem, hwhere, hkey, by rw [← hvalue], by rw [← hvalue]⟩

end Queries

/-- The leaderboards are the true top ten: one entry for each of the most frequent groups, with the number of its
    visits; and the numbers do not depend on the order in which the visits are read. -/
theorem leaderboards_top_ten (js : Js) (clock : Clock) (orgId period : String) (s : Db) (visits visits' : RowOrder Visit) :
    (∃ reply reply', (getTopEmployees clock visits orgId period).run s = (.ok reply, s) ∧
      (getTopEmployees clock visits' orgId period).run s = (.ok reply', s) ∧
      TopTen (hostsOf clock orgId period s) (EmployeeEntry s) reply ∧ reply'.map (·.count) = reply.map (·.count)) ∧
    ∃ reply reply', (getTopVisitors js clock visits orgId period).run s = (.ok reply, s) ∧
      (getTopVisitors js clock visits' orgId period).run s = (.ok reply', s) ∧
      TopTen (visitorsOf js clock orgId period s) (VisitorEntry js clock orgId period s) reply ∧
      reply'.map (·.count) = reply.map (·.count) := by
  constructor
  · obtain ⟨reply, hrun, htop⟩ := getTopEmployees_spec clock visits orgId period s
    obtain ⟨reply', hrun', htop'⟩ := getTopEmployees_spec clock visits' orgId period s
    refine ⟨reply, reply', hrun, hrun', htop, ?_⟩
    rw [htop.counts fun _ _ h => h.1, htop'.counts fun _ _ h => h.1]
  · obtain ⟨reply, hrun, htop⟩ := getTopVisitors_spec js clock visits orgId period s
    obtain ⟨reply', hrun', htop'⟩ := getTopVisitors_spec js clock visits' orgId period s
    refine ⟨reply, reply', hrun, hrun', htop, ?_⟩
    rw [htop.counts fun _ _ h => h.1, htop'.counts fun _ _ h => h.1]

end Vms.VisitAnalyticsService
