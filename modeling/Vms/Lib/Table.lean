import Mathlib.Data.List.Pairwise
import Mathlib.Data.List.Sort

/-! Tables of a relational store. A table is a list of rows no two of which violate a primary key or a
    unique constraint; the constraint is a field of the table, so a table that breaks it cannot be
    built. Reads that ask for no order may see the rows in any order (`RowOrder`). -/

namespace Relational

/-- The keys of a row type: its primary key, and when two rows share the value of another unique
    column. -/
class Row (α : Type) where
  id : α → String
  clash : α → α → Bool := fun _ _ => false
  clash_comm : ∀ a b, clash a b = clash b a := by intros; rfl

/-- Two rows that one table cannot hold. -/
def Row.conflict {α : Type} [Row α] (a b : α) : Bool := Row.id a == Row.id b || Row.clash a b

/-- A change of rows that leaves every key as it is. -/
def Row.Fixes {α : Type} [Row α] (f : α → α) : Prop :=
  (∀ a, Row.id (f a) = Row.id a) ∧ ∀ a b, Row.clash (f a) b = Row.clash a b

structure Table (α : Type) [Row α] where
  rows : List α
  distinct : rows.Pairwise fun a b => Row.conflict a b = false

namespace Table
variable {α : Type} [Row α]

theorem ext {t u : Table α} (h : t.rows = u.rows) : t = u := by
  cases t
  cases u
  cases h
  rfl

instance [DecidableEq α] : DecidableEq (Table α) := fun t u =>
  decidable_of_iff (t.rows = u.rows) ⟨ext, fun h => h ▸ rfl⟩

instance : EmptyCollection (Table α) := ⟨[], List.Pairwise.nil⟩

instance : Singleton α (Table α) := ⟨fun a => ⟨[a], List.pairwise_singleton _ _⟩⟩

instance : Membership α (Table α) := ⟨fun t a => a ∈ t.rows⟩

instance [DecidableEq α] (t : Table α) (a : α) : Decidable (a ∈ t) := inferInstanceAs (Decidable (a ∈ t.rows))

instance {P : α → Prop} [DecidablePred P] (t : Table α) : Decidable (∀ a ∈ t, P a) :=
  inferInstanceAs (Decidable (∀ a ∈ t.rows, P a))

instance {P : α → Prop} [DecidablePred P] (t : Table α) : Decidable (∃ a ∈ t, P a) :=
  inferInstanceAs (Decidable (∃ a ∈ t.rows, P a))

theorem mem_rows {t : Table α} {a : α} : a ∈ t.rows ↔ a ∈ t := Iff.rfl

@[simp] theorem not_mem_empty {a : α} : a ∉ (∅ : Table α) := List.not_mem_nil

@[simp] theorem mem_singleton {a b : α} : b ∈ ({a} : Table α) ↔ b = a := List.mem_singleton

/-! ### Keys -/

theorem conflict_comm (a b : α) : Row.conflict a b = Row.conflict b a := by
  simp only [Row.conflict, Row.clash_comm a b, Bool.beq_comm (a := Row.id a)]

instance : Std.Symm fun a b : α => Row.conflict a b = false := ⟨fun a b h => by rw [conflict_comm]; exact h⟩

theorem conflict_of_id {a b : α} (h : Row.id a = Row.id b) : Row.conflict a b = true := by
  simp [Row.conflict, h]

/-- The primary key determines the row. -/
theorem eq_of_id {t : Table α} {a b : α} (ha : a ∈ t) (hb : b ∈ t) (h : Row.id a = Row.id b) : a = b := by
  by_contra hne
  have hpair := t.distinct.forall ha hb hne
  rw [conflict_of_id h] at hpair
  cases hpair

/-- A unique column determines the row. -/
theorem eq_of_clash {t : Table α} {a b : α} (ha : a ∈ t) (hb : b ∈ t) (h : Row.clash a b = true) : a = b := by
  by_contra hne
  have hpair := t.distinct.forall ha hb hne
  simp [Row.conflict, h] at hpair

theorem nodup_rows (t : Table α) : t.rows.Nodup :=
  t.distinct.imp fun h hab => by
    rw [conflict_of_id (congrArg Row.id hab)] at h
    cases h

/-! ### Reads -/

/-- The row with a primary key. -/
def find (t : Table α) (id : String) : Option α := t.rows.find? fun a => Row.id a == id

/-- The first row that satisfies a condition, for a condition that fixes the value of a unique column. -/
def findBy (t : Table α) (p : α → Bool) : Option α := t.rows.find? p

/-- The rows that satisfy a condition. -/
def filter (t : Table α) (p : α → Bool) : List α := t.rows.filter p

theorem mem_filter {t : Table α} {p : α → Bool} {a : α} : a ∈ t.filter p ↔ a ∈ t ∧ p a = true :=
  List.mem_filter

theorem nodup_filter (t : Table α) {p : α → Bool} : (t.filter p).Nodup := t.nodup_rows.filter _

theorem find_eq_some {t : Table α} {id : String} {a : α} : t.find id = some a ↔ a ∈ t ∧ Row.id a = id := by
  constructor
  · intro h
    exact ⟨List.mem_of_find?_eq_some h, by simpa using List.find?_some h⟩
  · rintro ⟨ha, rfl⟩
    cases h : t.find (Row.id a) with
    | none =>
      have := List.find?_eq_none.mp h a ha
      simp at this
    | some b =>
      have hid : Row.id b = Row.id a := by simpa using List.find?_some h
      rw [eq_of_id (List.mem_of_find?_eq_some h) ha hid]

theorem mem_of_findBy {t : Table α} {p : α → Bool} {a : α} (h : t.findBy p = some a) : a ∈ t ∧ p a = true :=
  ⟨List.mem_of_find?_eq_some h, List.find?_some h⟩

/-- A condition that fixes the value of a unique column finds the row that satisfies it. -/
theorem findBy_eq_some {t : Table α} {p : α → Bool} {a : α}
    (unique : ∀ a b, p a = true → p b = true → Row.clash a b = true) : t.findBy p = some a ↔ a ∈ t ∧ p a = true := by
  refine ⟨mem_of_findBy, fun ⟨ha, hp⟩ => ?_⟩
  cases h : t.findBy p with
  | none => exact absurd hp (List.find?_eq_none.mp h a ha)
  | some b =>
    obtain ⟨hb, hpb⟩ := mem_of_findBy h
    rw [eq_of_clash hb ha (unique b a hpb hp)]

theorem find_of_mem {t : Table α} {a : α} (ha : a ∈ t) : t.find (Row.id a) = some a :=
  find_eq_some.mpr ⟨ha, rfl⟩

theorem isSome_find {t : Table α} {a : α} (ha : a ∈ t) {id : String} (h : Row.id a = id) : (t.find id).isSome := by
  rw [find_eq_some.mpr ⟨ha, h⟩]
  rfl

@[simp] theorem find_empty {id : String} : (∅ : Table α).find id = none := rfl

@[simp] theorem findBy_empty {p : α → Bool} : (∅ : Table α).findBy p = none := rfl

theorem find_singleton (a : α) : ({a} : Table α).find (Row.id a) = some a := find_of_mem (mem_singleton.mpr rfl)

theorem findBy_singleton {p : α → Bool} {a : α} (h : p a = true) : ({a} : Table α).findBy p = some a :=
  List.find?_cons_of_pos h

theorem filter_singleton {p : α → Bool} {a : α} (h : p a = true) : ({a} : Table α).filter p = [a] :=
  List.filter_cons_of_pos h

theorem filter_singleton_of_not {p : α → Bool} {a : α} (h : p a = false) : ({a} : Table α).filter p = [] :=
  List.filter_cons_of_neg (by rw [h]; exact Bool.false_ne_true)

/-- The identifiers in a column name rows of another table. -/
def References {β : Type} [Row β] (t : Table α) (column : α → Option String) (u : Table β) : Prop :=
  ∀ a ∈ t, ∀ id, column a = some id → ∃ b ∈ u, Row.id b = id

@[simp] theorem references_empty {β : Type} [Row β] {column : α → Option String} {u : Table β} :
    (∅ : Table α).References column u := fun _ ha => absurd ha not_mem_empty

theorem References.of_mem {β : Type} [Row β] {t : Table α} {column : α → Option String} {u : Table β} {b : β} (hb : b ∈ u)
    (h : ∀ a ∈ t, ∀ id, column a = some id → Row.id b = id) : t.References column u :=
  fun a ha id hid => ⟨b, hb, h a ha id hid⟩

theorem References.singleton {β : Type} [Row β] {a : α} {column : α → Option String} {u : Table β} {b : β} (hb : b ∈ u)
    (h : ∀ id, column a = some id → Row.id b = id) : ({a} : Table α).References column u :=
  .of_mem hb fun _ hc id hid => h id (mem_singleton.mp hc ▸ hid)

/-- The references of given rows can be looked up. -/
theorem References.of_find {β : Type} [Row β] {t : Table α} {column : α → Option String} {u : Table β}
    (h : ∀ a ∈ t, ∀ id ∈ column a, (u.find id).isSome) : t.References column u := by
  intro a ha id hid
  obtain ⟨b, hb⟩ := Option.isSome_iff_exists.mp (h a ha id hid)
  exact ⟨b, find_eq_some.mp hb⟩

/-! ### Writes -/

/-- Add a row, unless its keys are taken. -/
def insert (t : Table α) (a : α) : Option (Table α) :=
  if h : ∀ b ∈ t.rows, Row.conflict b a = false then
    some ⟨t.rows ++ [a], List.pairwise_append.mpr ⟨t.distinct, List.pairwise_singleton _ _, by simpa using h⟩⟩
  else none

/-- Add the rows whose keys are free, one after the other, and leave out the others. -/
def insertAll (t : Table α) (as : List α) : Table α := as.foldl (fun t a => (t.insert a).getD t) t

/-- Change the rows that satisfy a condition. -/
def update (t : Table α) (p : α → Bool) (f : α → α)
    (hf : Row.Fixes f := by exact ⟨fun _ => rfl, fun _ _ => rfl⟩) : Table α where
  rows := t.rows.map fun a => if p a then f a else a
  distinct := by
    refine List.pairwise_map.mpr (t.distinct.imp fun {a b} h => ?_)
    have keep : ∀ x y, Row.conflict (if p x then f x else x) y = Row.conflict x y := by
      intro x y
      split
      · simp only [Row.conflict, hf.1 x, hf.2 x y]
      · rfl
    rw [keep, conflict_comm, keep, conflict_comm]
    exact h

/-- Change the rows that satisfy a condition, unless two rows would then share a key. -/
def modify (t : Table α) (p : α → Bool) (f : α → α) : Option (Table α) :=
  if h : (t.rows.map fun a => if p a then f a else a).Pairwise fun a b => Row.conflict a b = false then some ⟨_, h⟩
  else none

/-- Remove the rows that satisfy a condition. -/
def delete (t : Table α) (p : α → Bool) : Table α := ⟨t.rows.filter fun a => !p a, t.distinct.filter _⟩

theorem insert_eq_some {t u : Table α} {a : α} :
    t.insert a = some u ↔ (∀ b ∈ t, Row.conflict b a = false) ∧ u.rows = t.rows ++ [a] := by
  unfold insert
  split
  · rename_i h
    constructor
    · intro hu
      obtain rfl := Option.some.inj hu
      exact ⟨h, rfl⟩
    · rintro ⟨-, hu⟩
      exact congrArg some (ext hu.symm)
  · rename_i h
    constructor
    · intro hu
      cases hu
    · rintro ⟨hu, -⟩
      exact absurd hu h

theorem insert_of_free {t : Table α} {a : α} (h : ∀ b ∈ t, Row.conflict b a = false) : ∃ u, t.insert a = some u :=
  ⟨_, dif_pos h⟩

theorem insert_eq_none {t : Table α} {a : α} (h : t.insert a = none) : ¬∀ b ∈ t, Row.conflict b a = false := by
  intro free
  obtain ⟨u, hu⟩ := insert_of_free free
  rw [h] at hu
  cases hu

theorem mem_insert {t u : Table α} {a b : α} (h : t.insert a = some u) : b ∈ u ↔ b ∈ t ∨ b = a := by
  rw [← mem_rows, (insert_eq_some.mp h).2, List.mem_append, List.mem_singleton, mem_rows]

/-- The key of an added row was free. -/
theorem id_ne_of_insert {t u : Table α} {a b : α} (h : t.insert a = some u) (hb : b ∈ t) :
    Row.id b ≠ Row.id a := fun hid => by
  have := (insert_eq_some.mp h).1 b hb
  rw [conflict_of_id hid] at this
  cases this

theorem mem_update {t : Table α} {p : α → Bool} {f : α → α} {hf : Row.Fixes f} {b : α} :
    b ∈ t.update p f hf ↔ ∃ a ∈ t, (if p a then f a else a) = b := List.mem_map

theorem mem_delete {t : Table α} {p : α → Bool} {a : α} : a ∈ t.delete p ↔ a ∈ t ∧ p a = false := by
  rw [← mem_rows, delete, List.mem_filter, mem_rows]
  simp

theorem length_filter_insert {t u : Table α} {a : α} (h : t.insert a = some u) (p : α → Bool) :
    (u.filter p).length = (t.filter p).length + if p a then 1 else 0 := by
  rw [filter, (insert_eq_some.mp h).2, List.filter_append, List.length_append, filter]
  cases hp : p a <;> simp [hp]

theorem length_filter_delete_le {t : Table α} {p q : α → Bool} : ((t.delete q).filter p).length ≤ (t.filter p).length :=
  (List.filter_sublist.filter p).length_le

theorem mem_getD_insert {t : Table α} {a b : α} :
    b ∈ (t.insert a).getD t ↔ b ∈ t ∨ (b = a ∧ (t.insert a).isSome) := by
  cases h : t.insert a with
  | none => simp
  | some u => simp [mem_insert h]

theorem mem_insertAll_of_mem {as : List α} {t : Table α} {b : α} (hb : b ∈ t) : b ∈ t.insertAll as := by
  induction as generalizing t with
  | nil => exact hb
  | cons a as ih => exact ih (mem_getD_insert.mpr (Or.inl hb))

theorem mem_of_mem_insertAll {as : List α} {t : Table α} {b : α} (hb : b ∈ t.insertAll as) : b ∈ t ∨ b ∈ as := by
  induction as generalizing t with
  | nil => exact Or.inl hb
  | cons a as ih =>
    rcases ih hb with h | h
    · rcases mem_getD_insert.mp h with h | ⟨rfl, -⟩
      · exact Or.inl h
      · exact Or.inr List.mem_cons_self
    · exact Or.inr (List.mem_cons_of_mem _ h)

/-- Rows whose keys are taken are not added. -/
theorem insertAll_eq_self {as : List α} {t : Table α} (taken : ∀ a ∈ as, ∃ b ∈ t, Row.conflict b a = true) :
    t.insertAll as = t := by
  induction as with
  | nil => rfl
  | cons a as ih =>
    obtain ⟨b, hb, hconflict⟩ := taken a List.mem_cons_self
    have hnone : t.insert a = none := dif_neg fun free => by
      rw [free b hb] at hconflict
      cases hconflict
    have hrest : t.insertAll (a :: as) = t.insertAll as := by simp [insertAll, hnone]
    rw [hrest]
    exact ih fun c hc => taken c (List.mem_cons_of_mem _ hc)

/-- Rows whose keys are free are all added, in their order. -/
theorem rows_insertAll {as : List α} {t : Table α} (free : ∀ a ∈ as, ∀ b ∈ t, Row.conflict b a = false)
    (distinct : as.Pairwise fun a b => Row.conflict a b = false) : (t.insertAll as).rows = t.rows ++ as := by
  induction as generalizing t with
  | nil => exact (List.append_nil _).symm
  | cons a as ih =>
    rw [List.pairwise_cons] at distinct
    obtain ⟨u, hu⟩ := insert_of_free (free a List.mem_cons_self)
    have hstep : t.insertAll (a :: as) = u.insertAll as := by simp [insertAll, hu]
    have hfree : ∀ c ∈ as, ∀ b ∈ u, Row.conflict b c = false := by
      intro c hc b hb
      rcases (mem_insert hu).mp hb with hb | rfl
      · exact free c (List.mem_cons_of_mem _ hc) b hb
      · exact distinct.1 c hc
    rw [hstep, ih hfree distinct.2, (insert_eq_some.mp hu).2, List.append_assoc, List.singleton_append]

/-- If the keys of one of some rows are free, one of them is added. -/
theorem exists_mem_insertAll {as : List α} {t : Table α} {a : α} (ha : a ∈ as) (free : ∀ b ∈ t, Row.conflict b a = false) :
    ∃ b ∈ as, b ∈ t.insertAll as ∧ b ∉ t := by
  induction as with
  | nil => exact absurd ha List.not_mem_nil
  | cons c as ih =>
    cases h : t.insert c with
    | some u =>
      refine ⟨c, List.mem_cons_self, ?_, fun hc => id_ne_of_insert h hc rfl⟩
      have hmem : c ∈ (t.insert c).getD t := mem_getD_insert.mpr (Or.inr ⟨rfl, Option.isSome_of_eq_some h⟩)
      show c ∈ ((t.insert c).getD t).insertAll as
      exact mem_insertAll_of_mem hmem
    | none =>
      have hrest : t.insertAll (c :: as) = t.insertAll as := by simp [insertAll, h]
      rcases List.mem_cons.mp ha with rfl | ha
      · obtain ⟨u, hu⟩ := insert_of_free free
        rw [hu] at h
        cases h
      · obtain ⟨b, hb, hmem, hnew⟩ := ih ha
        exact ⟨b, List.mem_cons_of_mem _ hb, hrest ▸ hmem, hnew⟩

theorem rows_modify {t u : Table α} {p : α → Bool} {f : α → α} (h : t.modify p f = some u) :
    u.rows = t.rows.map fun a => if p a then f a else a := by
  unfold modify at h
  split at h
  · obtain rfl := Option.some.inj h
    rfl
  · cases h

/-- A change that leaves every key as it is succeeds. -/
theorem modify_of_fixes {t : Table α} {p : α → Bool} {f : α → α} (hf : Row.Fixes f) : t.modify p f = some (t.update p f hf) :=
  dif_pos (t.update p f hf).distinct

theorem mem_modify {t u : Table α} {p : α → Bool} {f : α → α} (h : t.modify p f = some u) {b : α} :
    b ∈ u ↔ ∃ a ∈ t, (if p a then f a else a) = b := by
  rw [← mem_rows, rows_modify h]
  exact List.mem_map

theorem modify_singleton {p : α → Bool} {f : α → α} {a : α} (hp : p a = true) : ({a} : Table α).modify p f = some {f a} := by
  have hrows : ({a} : Table α).rows.map (fun b => if p b then f b else b) = [f a] := by
    show [if p a then f a else a] = [f a]
    rw [if_pos hp]
  unfold modify
  rw [dif_pos (by rw [hrows]; exact List.pairwise_singleton _ _)]
  exact congrArg some (ext hrows)

/-- A change that keeps a condition is found where the row was. -/
theorem findBy_modify {t u : Table α} {p q : α → Bool} {f : α → α} (h : t.modify p f = some u) (keeps : ∀ a, q (f a) = q a) :
    u.findBy q = (t.findBy q).map fun a => if p a then f a else a := by
  unfold modify at h
  split at h
  · obtain rfl := Option.some.inj h
    have hfun : (q ∘ fun a => if p a then f a else a) = q := by
      funext a
      rw [Function.comp_apply]
      split
      · rw [keeps]
      · rfl
    rw [findBy, List.find?_map, hfun, findBy]
  · cases h

theorem findBy_update {t : Table α} {p q : α → Bool} {f : α → α} {hf : Row.Fixes f} (keeps : ∀ a, q (f a) = q a) :
    (t.update p f hf).findBy q = (t.findBy q).map fun a => if p a then f a else a :=
  findBy_modify (modify_of_fixes hf) keeps

theorem findBy_insert {t u : Table α} {q : α → Bool} {a : α} (h : t.insert a = some u) :
    u.findBy q = (t.findBy q).or (if q a then some a else none) := by
  rw [findBy, (insert_eq_some.mp h).2, List.find?_append, findBy]
  cases hq : q a <;> simp [hq]

/-- Rows that stay are found as before. -/
theorem findBy_delete {t : Table α} {p q : α → Bool} (stays : ∀ a, q a = true → p a = false) :
    (t.delete p).findBy q = t.findBy q := by
  rw [findBy, delete, List.find?_filter, findBy]
  congr 1
  funext a
  by_cases hq : q a = true
  · simp [hq, stays a hq]
  · simp [hq]

theorem findBy_delete_eq_none {t : Table α} {p q : α → Bool} (gone : ∀ a, q a = true → p a = true) :
    (t.delete p).findBy q = none := by
  refine List.find?_eq_none.mpr fun a ha hq => ?_
  have hstays := (mem_delete.mp ha).2
  rw [gone a hq] at hstays
  cases hstays

theorem find_modify {t u : Table α} {p : α → Bool} {f : α → α} (h : t.modify p f = some u)
    (hid : ∀ a, Row.id (f a) = Row.id a) (id : String) : u.find id = (t.find id).map fun a => if p a then f a else a :=
  findBy_modify h fun a => by rw [hid]

/-- The rows after a change of the row `a`. -/
theorem mem_modify_one {t u : Table α} {p : α → Bool} {f : α → α} (h : t.modify p f = some u) {a : α} (ha : a ∈ t)
    (hp : ∀ b ∈ t, p b = true ↔ Row.id b = Row.id a) (b : α) : b ∈ u ↔ b = f a ∨ (b ∈ t ∧ Row.id b ≠ Row.id a) := by
  rw [mem_modify h]
  constructor
  · rintro ⟨c, hc, rfl⟩
    by_cases hid : Row.id c = Row.id a
    · obtain rfl := eq_of_id hc ha hid
      exact Or.inl (if_pos ((hp c hc).mpr rfl))
    · have hpc : ¬p c = true := fun hpc => hid ((hp c hc).mp hpc)
      exact Or.inr (by simpa only [if_neg hpc] using ⟨hc, hid⟩)
  · rintro (rfl | ⟨hb, hne⟩)
    · exact ⟨a, ha, if_pos ((hp a ha).mpr rfl)⟩
    · exact ⟨b, hb, if_neg fun hpb => hne ((hp b hb).mp hpb)⟩

/-- A change of the row `a` succeeds if its new keys are free. -/
theorem modify_of_free {t : Table α} {p : α → Bool} {f : α → α} {a : α} (hp : ∀ b ∈ t, p b = true ↔ Row.id b = Row.id a)
    (ha : a ∈ t) (free : ∀ b ∈ t, Row.id b ≠ Row.id a → Row.conflict b (f a) = false) : ∃ u, t.modify p f = some u := by
  refine ⟨_, dif_pos (List.pairwise_map.mpr (t.distinct.imp_of_mem fun {b c} hb hc h => ?_))⟩
  by_cases hpb : p b = true <;> by_cases hpc : p c = true
  · obtain rfl := eq_of_id hb ha ((hp b hb).mp hpb)
    obtain rfl := eq_of_id hc ha ((hp c hc).mp hpc)
    rw [conflict_of_id rfl] at h
    cases h
  · obtain rfl := eq_of_id hb ha ((hp b hb).mp hpb)
    rw [if_pos hpb, if_neg hpc, conflict_comm]
    exact free c hc fun hid => hpc ((hp c hc).mpr hid)
  · obtain rfl := eq_of_id hc ha ((hp c hc).mp hpc)
    rw [if_neg hpb, if_pos hpc]
    exact free b hb fun hid => hpb ((hp b hb).mpr hid)
  · rw [if_neg hpb, if_neg hpc]
    exact h

/-- To change the row that was added last is to add it as it will be. -/
theorem modify_inserted {t u : Table α} {p : α → Bool} {f : α → α} {a : α} (h : t.insert a = some u) (hp : p a = true)
    (others : ∀ b ∈ t, p b = false) : u.modify p f = t.insert (f a) := by
  have hrows : (u.rows.map fun b => if p b then f b else b) = t.rows ++ [f a] := by
    rw [(insert_eq_some.mp h).2, List.map_append]
    congr 1
    · refine (List.map_congr_left fun b hb => ?_).trans (List.map_id' _)
      rw [others b hb]
      rfl
    · simp [hp]
  unfold modify insert
  simp only [hrows, List.pairwise_append, t.distinct, List.pairwise_singleton, List.mem_singleton, forall_eq, true_and]

/-- Only the rows of the table count. -/
theorem update_congr {t : Table α} {p q : α → Bool} {f : α → α} {hf : Row.Fixes f} (h : ∀ a ∈ t, p a = q a) :
    t.update p f hf = t.update q f hf := by
  refine ext (List.map_congr_left fun a ha => ?_)
  rw [h a ha]

/-- The updated row of a table's row. -/
theorem mem_update_of_mem {t : Table α} {p : α → Bool} {f : α → α} {hf : Row.Fixes f} {a : α} (ha : a ∈ t)
    (hp : p a = true) : f a ∈ t.update p f hf := mem_update.mpr ⟨a, ha, by simp [hp]⟩

/-- A row that the condition leaves out stays. -/
theorem mem_update_of_not {t : Table α} {p : α → Bool} {f : α → α} {hf : Row.Fixes f} {a : α} (ha : a ∈ t)
    (hp : p a = false) : a ∈ t.update p f hf := mem_update.mpr ⟨a, ha, by simp [hp]⟩

/-- Every row of an updated table is an untouched or a changed row, under the same key. -/
theorem mem_update_cases {t : Table α} {p : α → Bool} {f : α → α} {hf : Row.Fixes f} {b : α}
    (hb : b ∈ t.update p f hf) : (b ∈ t ∧ p b = false) ∨ ∃ a ∈ t, p a = true ∧ b = f a := by
  obtain ⟨a, ha, rfl⟩ := mem_update.mp hb
  cases hp : p a
  · exact Or.inl ⟨by simpa using ha, by simpa using hp⟩
  · exact Or.inr ⟨a, ha, hp, by simp⟩

/-- Every row keeps its key. -/
theorem exists_mem_update {t : Table α} {p : α → Bool} {f : α → α} (hf : Row.Fixes f) {a : α} (ha : a ∈ t) :
    ∃ b ∈ t.update p f hf, Row.id b = Row.id a := by
  cases hp : p a
  · exact ⟨a, mem_update_of_not ha hp, rfl⟩
  · exact ⟨f a, mem_update_of_mem ha hp, hf.1 a⟩

/-- The rows after an update of the row `a`. -/
theorem mem_update_one {t : Table α} {p : α → Bool} {f : α → α} (hf : Row.Fixes f) {a : α} (ha : a ∈ t)
    (hp : ∀ b ∈ t, p b = true ↔ Row.id b = Row.id a) (b : α) :
    b ∈ t.update p f hf ↔ b = f a ∨ (b ∈ t ∧ Row.id b ≠ Row.id a) := by
  constructor
  · intro hb
    rcases mem_update_cases hb with ⟨hb, hne⟩ | ⟨c, hc, hpc, rfl⟩
    · exact Or.inr ⟨hb, fun hid => by rw [(hp b hb).mpr hid] at hne; cases hne⟩
    · exact Or.inl (congrArg f (eq_of_id hc ha ((hp c hc).mp hpc)))
  · rintro (rfl | ⟨hb, hne⟩)
    · exact mem_update_of_mem ha ((hp a ha).mpr rfl)
    · exact mem_update_of_not hb (by by_contra hpb; exact hne ((hp b hb).mp (by simpa using hpb)))

/-! ### Newcomers -/

/-- The rows of `u` under keys that `t` does not have. -/
def newcomers (t u : Table α) : List α := u.filter fun a => (t.find (Row.id a)).isNone

theorem newcomers_eq_nil {t u : Table α} (h : ∀ a ∈ u, ∃ b ∈ t, Row.id b = Row.id a) : t.newcomers u = [] := by
  rw [List.eq_nil_iff_forall_not_mem]
  intro a ha
  obtain ⟨hmem, hnone⟩ := mem_filter.mp ha
  obtain ⟨b, hb, hid⟩ := h a hmem
  rw [find_eq_some.mpr ⟨hb, hid⟩] at hnone
  cases hnone

theorem newcomers_insert {t u : Table α} {a : α} (h : t.insert a = some u) : t.newcomers u = [a] := by
  have hold : t.newcomers t = [] := newcomers_eq_nil fun b hb => ⟨b, hb, rfl⟩
  have hfree : t.find (Row.id a) = none := by
    rw [find, List.find?_eq_none]
    exact fun b hb hid => id_ne_of_insert h hb (beq_iff_eq.mp hid)
  rw [newcomers, filter] at hold
  rw [newcomers, filter, (insert_eq_some.mp h).2, List.filter_append, hold]
  simp [hfree]

theorem newcomers_update {t : Table α} {p : α → Bool} {f : α → α} (hf : Row.Fixes f) : t.newcomers (t.update p f hf) = [] := by
  refine newcomers_eq_nil fun a ha => ?_
  rcases mem_update_cases ha with ⟨ha, -⟩ | ⟨b, hb, -, rfl⟩
  · exact ⟨a, ha, rfl⟩
  · exact ⟨b, hb, (hf.1 b).symm⟩

theorem newcomers_delete {t : Table α} {p : α → Bool} : t.newcomers (t.delete p) = [] :=
  newcomers_eq_nil fun a ha => ⟨a, (mem_delete.mp ha).1, rfl⟩

/-! ### References within a scope -/

section Scoped
variable {β : Type} [Row β] {column : α → Option String} {scope : α → String} {owner : β → String} {t t' : Table α}
  {u u' : Table β}

/-- The identifiers in a column name rows of another table, and with the same owner. -/
def Scoped (t : Table α) (column : α → Option String) (scope : α → String) (u : Table β) (owner : β → String) : Prop :=
  ∀ a ∈ t, ∀ id, column a = some id → ∃ b ∈ u, Row.id b = id ∧ owner b = scope a

/-- Every row stays, under its identifier and its owner. -/
def Retains (owner : β → String) (u u' : Table β) : Prop := ∀ b ∈ u, ∃ b' ∈ u', Row.id b' = Row.id b ∧ owner b' = owner b

theorem Retains.modify {p : β → Bool} {f : β → β} (h : u.modify p f = some u')
    (hf : ∀ b, Row.id (f b) = Row.id b ∧ owner (f b) = owner b) : Retains owner u u' := by
  intro b hb
  refine ⟨_, (mem_modify h).mpr ⟨b, hb, rfl⟩, ?_⟩
  split
  · exact hf b
  · exact ⟨rfl, rfl⟩

theorem Scoped.retained (h : t.Scoped column scope u owner) (kept : Retains owner u u') : t.Scoped column scope u' owner := by
  intro a ha id hid
  obtain ⟨b, hb, rfl, howner⟩ := h a ha id hid
  obtain ⟨b', hb', hid', howner'⟩ := kept b hb
  exact ⟨b', hb', hid', howner'.trans howner⟩

/-- Every row refers as an old one does, or within its scope. -/
theorem Scoped.of_rows (h : t.Scoped column scope u owner) (rows : ∀ a ∈ t', (∃ a₀ ∈ t, column a₀ = column a ∧ scope a₀ = scope a) ∨
    ∀ id, column a = some id → ∃ b ∈ u, Row.id b = id ∧ owner b = scope a) : t'.Scoped column scope u owner := by
  intro a ha id hid
  rcases rows a ha with ⟨a₀, ha₀, hcolumn, hscope⟩ | own
  · rw [← hscope]
    exact h a₀ ha₀ id (hcolumn.trans hid)
  · exact own id hid

theorem Scoped.insert {a : α} (h : t.Scoped column scope u owner) (stored : t.insert a = some t')
    (own : ∀ id, column a = some id → ∃ b ∈ u, Row.id b = id ∧ owner b = scope a) : t'.Scoped column scope u owner := by
  refine h.of_rows fun c hc => ?_
  rcases (mem_insert stored).mp hc with hold | rfl
  · exact Or.inl ⟨c, hold, rfl, rfl⟩
  · exact Or.inr own

end Scoped

/-! ### Frames -/

/-- Two tables hold the same rows among those that satisfy `P`. -/
def Same (P : α → Prop) (t u : Table α) : Prop := ∀ a, P a → (a ∈ u ↔ a ∈ t)

namespace Same
variable {P : α → Prop} {t u v : Table α}

@[refl, simp] theorem refl (t : Table α) : Same P t t := fun _ _ => Iff.rfl

theorem of_eq (h : u = t) : Same P t u := by rw [h]

theorem symm (h : Same P t u) : Same P u t := fun a ha => (h a ha).symm

theorem trans (h : Same P t u) (h' : Same P u v) : Same P t v := fun a ha => (h' a ha).trans (h a ha)

theorem insert {a : α} (h : t.insert a = some u) (ha : ¬P a) : Same P t u := fun b hb => by
  rw [mem_insert h]
  exact or_iff_left fun hba => ha (hba ▸ hb)

theorem insertAll {as : List α} (ha : ∀ a ∈ as, ¬P a) : Same P t (t.insertAll as) := fun b hb =>
  ⟨fun h => (mem_of_mem_insertAll h).resolve_right fun h' => ha b h' hb, mem_insertAll_of_mem⟩

theorem update {p : α → Bool} {f : α → α} {hf : Row.Fixes f} (h : ∀ a ∈ t, p a = true → ¬P a ∧ ¬P (f a)) :
    Same P t (t.update p f hf) := fun b hb => by
  constructor
  · intro hbu
    rcases mem_update_cases hbu with ⟨hbt, -⟩ | ⟨a, ha, hp, rfl⟩
    · exact hbt
    · exact absurd hb (h a ha hp).2
  · intro hbt
    exact mem_update_of_not hbt (by by_contra hp; exact (h b hbt (by simpa using hp)).1 hb)

theorem modify {p : α → Bool} {f : α → α} (hu : t.modify p f = some u) (h : ∀ a ∈ t, p a = true → ¬P a ∧ ¬P (f a)) :
    Same P t u := fun b hb => by
  rw [mem_modify hu]
  constructor
  · rintro ⟨a, ha, rfl⟩
    by_cases hp : p a = true
    · rw [if_pos hp] at hb
      exact absurd hb (h a ha hp).2
    · rw [if_neg hp]
      exact ha
  · intro hbt
    exact ⟨b, hbt, if_neg fun hp => (h b hbt hp).1 hb⟩

theorem delete {p : α → Bool} (h : ∀ a ∈ t, p a = true → ¬P a) : Same P t (t.delete p) := fun b hb => by
  rw [mem_delete]
  exact and_iff_left_of_imp fun hbt => by
    by_contra hp
    exact h b hbt (by simpa using hp) hb

theorem singleton {a b : α} (ha : ¬P a) (hb : ¬P b) : Same P {a} {b} := fun c hc => by
  rw [mem_singleton, mem_singleton]
  exact iff_of_false (fun h => hb (h ▸ hc)) fun h => ha (h ▸ hc)

theorem empty_singleton {a : α} (ha : ¬P a) : Same P ∅ {a} := fun c hc => by
  rw [mem_singleton]
  exact iff_of_false (fun h => ha (h ▸ hc)) not_mem_empty

theorem not_insertAll {as : List α} {a : α} (ha : a ∈ as) (free : ∀ b ∈ t, Row.conflict b a = false)
    (hP : ∀ a ∈ as, P a) : ¬Same P t (t.insertAll as) := fun h => by
  obtain ⟨b, hb, hmem, hnew⟩ := exists_mem_insertAll ha free
  exact hnew ((h b (hP b hb)).mp hmem)

theorem not_of_delete {p : α → Bool} {a : α} (h : Same P t (t.delete p)) (ha : a ∈ t) (hp : p a = true) : ¬P a :=
  fun hP => by
    have := (mem_delete.mp ((h a hP).mpr ha)).2
    rw [hp] at this
    cases this

/-- Tables with the same rows find the same row. -/
theorem find_eq (h : Same P t u) {id : String} (hid : ∀ a, Row.id a = id → P a) : u.find id = t.find id :=
  Option.ext fun a => by
    rw [find_eq_some, find_eq_some]
    exact and_congr_left fun ha => h a (hid a ha)

theorem findBy_eq (h : Same P t u) {p : α → Bool} (unique : ∀ a b, p a = true → p b = true → Row.clash a b = true)
    (hp : ∀ a, p a = true → P a) : u.findBy p = t.findBy p :=
  Option.ext fun a => by
    rw [findBy_eq_some unique, findBy_eq_some unique]
    exact and_congr_left fun ha => h a (hp a ha)

/-- Tables with the same rows return the same rows to a query about them, in some order. -/
theorem perm_filter (h : Same P t u) {p : α → Bool} (hp : ∀ a, p a = true → P a) : (u.filter p).Perm (t.filter p) :=
  (List.perm_ext_iff_of_nodup u.nodup_filter t.nodup_filter).mpr fun a => by
    rw [mem_filter, mem_filter]
    exact and_congr_left fun ha => h a (hp a ha)

end Same

end Table

/-! ### The order in which rows are read -/

/-- An order in which a query returns the rows it finds: without an `orderBy`, and among rows that an
    `orderBy` does not separate, a store may return them in any order. -/
structure RowOrder (α : Type) where
  rows : List α → List α
  perm : ∀ l, (rows l).Perm l

namespace RowOrder
variable {α : Type}

/-- Rows in the order in which they are stored. -/
def stored : RowOrder α := ⟨id, fun _ => List.Perm.refl _⟩

/-- An order that puts a given row first. -/
def front [DecidableEq α] (a : α) : RowOrder α where
  rows l := if a ∈ l then a :: l.erase a else l
  perm l := by
    split
    · rename_i h
      exact (List.perm_cons_erase h).symm
    · exact List.Perm.refl _

/-- The first row of a query without an order. -/
def first (o : RowOrder α) (l : List α) : Option α := (o.rows l).head?

/-- The rows in increasing order of a column. -/
def asc (o : RowOrder α) (key : α → Int) (l : List α) : List α := (o.rows l).insertionSort (key · ≤ key ·)

/-- The rows in decreasing order of a column. -/
def desc (o : RowOrder α) (key : α → Int) (l : List α) : List α := (o.rows l).insertionSort (key · ≥ key ·)

/-- A store may return the rows of a permuted table in the same order. -/
theorem exists_rows (o : RowOrder α) {l l' : List α} (h : l'.Perm l) : ∃ o' : RowOrder α, o'.rows l' = o.rows l := by
  classical
  refine ⟨⟨fun m => if m = l' then o.rows l else m, fun m => ?_⟩, if_pos rfl⟩
  split
  · rename_i hm
    exact (o.perm l).trans (hm ▸ h.symm)
  · exact List.Perm.refl m

variable {o : RowOrder α} {l : List α} {key : α → Int} {a : α}

theorem rows_nil : o.rows [] = [] := (o.perm []).eq_nil

theorem rows_singleton {a : α} : o.rows [a] = [a] := List.perm_singleton.mp (o.perm [a])

theorem mem_of_first (h : o.first l = some a) : a ∈ l :=
  (o.perm l).subset (List.mem_of_head? h)

theorem first_eq_none : o.first l = none ↔ l = [] := by
  rw [first, List.head?_eq_none_iff]
  exact ⟨fun h => List.nil_perm.mp (h ▸ o.perm l), fun h => List.perm_nil.mp (h ▸ o.perm l)⟩

/-- A row that is the only one is the first in every order. -/
theorem first_of_unique (ha : a ∈ l) (only : ∀ b ∈ l, b = a) : o.first l = some a := by
  cases hfirst : o.first l with
  | none =>
    rw [first_eq_none.mp hfirst] at ha
    cases ha
  | some b => rw [only b (mem_of_first hfirst)]

theorem first_front [DecidableEq α] (ha : a ∈ l) : (front a).first l = some a := by
  simp [first, front, ha]

theorem perm_asc : (o.asc key l).Perm l := (List.perm_insertionSort _ _).trans (o.perm l)

theorem pairwise_asc : (o.asc key l).Pairwise (key · ≤ key ·) :=
  haveI : Std.Total fun a b : α => key a ≤ key b := ⟨fun a b => Int.le_total (key a) (key b)⟩
  haveI : IsTrans α fun a b => key a ≤ key b := ⟨fun _ _ _ h h' => Int.le_trans h h'⟩
  List.pairwise_insertionSort _ _

theorem mem_desc : a ∈ o.desc key l ↔ a ∈ l :=
  ((List.perm_insertionSort _ _).trans (o.perm l)).mem_iff

theorem pairwise_desc : (o.desc key l).Pairwise (key · ≥ key ·) :=
  haveI : Std.Total fun a b : α => key a ≥ key b := ⟨fun a b => Int.le_total (key b) (key a)⟩
  haveI : IsTrans α fun a b => key a ≥ key b := ⟨fun _ _ _ h h' => Int.le_trans h' h⟩
  List.pairwise_insertionSort _ _

/-- The first row in decreasing order has the largest key. -/
theorem head_desc (h : (o.desc key l).head? = some a) : a ∈ l ∧ ∀ b ∈ l, key b ≤ key a := by
  obtain ⟨rest, hrest⟩ := List.head?_eq_some_iff.mp h
  have hsorted : (o.desc key l).Pairwise (key · ≥ key ·) := pairwise_desc
  rw [hrest, List.pairwise_cons] at hsorted
  refine ⟨mem_desc.mp (hrest ▸ List.mem_cons_self), fun b hb => ?_⟩
  rcases List.mem_cons.mp (hrest ▸ mem_desc.mpr hb) with rfl | hb
  · exact Int.le_refl _
  · exact hsorted.1 b hb

theorem head_desc_eq_none : (o.desc key l).head? = none ↔ l = [] := by
  rw [List.head?_eq_none_iff]
  constructor
  · intro h
    exact List.nil_perm.mp (h ▸ (List.perm_insertionSort _ _).trans (o.perm l))
  · intro h
    exact List.perm_nil.mp (h ▸ (List.perm_insertionSort _ _).trans (o.perm l))

/-- A row with the largest key comes first in decreasing order, if the store returns it first. -/
theorem head_desc_front [DecidableEq α] (ha : a ∈ l) (hmax : ∀ b ∈ l, key b ≤ key a) :
    ((front a).desc key l).head? = some a := by
  have hfirst : (front a).rows l = a :: l.erase a := by simp [front, ha]
  rw [desc, hfirst, List.insertionSort_cons_of_forall_rel _ fun b hb => hmax b (List.mem_of_mem_erase hb)]
  rfl

end RowOrder

end Relational
