import Mathlib.Data.List.Perm.Subperm
import Vms.Lib.Table

/-! What a statement does to a table, as a relation between its rows before and after it: it keeps the rows, changed
    along a relation (`Evolves`), or only takes rows away (`Within`). References between tables survive both where they
    keep to the rows that are referred to. -/

namespace Relational.Table
variable {α β : Type} [Row α] [Row β]

/-- Every row of `t` is kept in `u`, changed by `R`, and `u` has no others. -/
structure Evolves (R : α → α → Prop) (t u : Table α) : Prop where
  kept : ∀ a ∈ t, ∃ b ∈ u, R a b
  only : ∀ b ∈ u, ∃ a ∈ t, R a b

namespace Evolves
variable {R R' : α → α → Prop} {t u v : Table α}

theorem refl (hR : ∀ a, R a a) : Evolves R t t := ⟨fun a ha => ⟨a, ha, hR a⟩, fun a ha => ⟨a, ha, hR a⟩⟩

theorem mono (h : Evolves R t u) (himp : ∀ a b, R a b → R' a b) : Evolves R' t u where
  kept a ha := by
    obtain ⟨b, hb, hab⟩ := h.kept a ha
    exact ⟨b, hb, himp a b hab⟩
  only b hb := by
    obtain ⟨a, ha, hab⟩ := h.only b hb
    exact ⟨a, ha, himp a b hab⟩

theorem trans (hR : ∀ {a b c}, R a b → R b c → R a c) (h : Evolves R t u) (h' : Evolves R u v) : Evolves R t v where
  kept a ha := by
    obtain ⟨b, hb, hab⟩ := h.kept a ha
    obtain ⟨c, hc, hbc⟩ := h'.kept b hb
    exact ⟨c, hc, hR hab hbc⟩
  only c hc := by
    obtain ⟨b, hb, hbc⟩ := h'.only c hc
    obtain ⟨a, ha, hab⟩ := h.only b hb
    exact ⟨a, ha, hR hab hbc⟩

/-- The rows of a table changed by a function. -/
theorem of_map {g : α → α} (h : u.rows = t.rows.map g) (hg : ∀ a ∈ t, R a (g a)) : Evolves R t u := by
  refine ⟨fun a ha => ⟨_, ?_, hg a ha⟩, fun b hb => ?_⟩
  · rw [← mem_rows, h]
    exact List.mem_map_of_mem ha
  · rw [← mem_rows, h] at hb
    obtain ⟨a, ha, rfl⟩ := List.mem_map.mp hb
    exact ⟨a, ha, hg a ha⟩

/-- Where a condition holds. -/
theorem of_rows {p : α → Bool} {f : α → α} (h : u.rows = t.rows.map fun a => if p a then f a else a) (hR : ∀ a, R a a)
    (hf : ∀ a ∈ t, p a = true → R a (f a)) : Evolves R t u :=
  of_map h fun a ha => by
    split
    · rename_i hp
      exact hf a ha hp
    · exact hR a

theorem update {p : α → Bool} {f : α → α} {keys : Row.Fixes f} (hR : ∀ a, R a a) (hf : ∀ a ∈ t, p a = true → R a (f a)) :
    Evolves R t (t.update p f keys) := of_rows rfl hR hf

theorem modify {p : α → Bool} {f : α → α} (h : t.modify p f = some u) (hR : ∀ a, R a a)
    (hf : ∀ a ∈ t, p a = true → R a (f a)) : Evolves R t u := of_rows (rows_modify h) hR hf

end Evolves

/-- Every row of `t` with the property is kept in `u`, changed by `R`, and `u` has no others with it. -/
structure EvolvesOn (p : α → Prop) (R : α → α → Prop) (t u : Table α) : Prop where
  kept : ∀ a ∈ t, p a → ∃ b ∈ u, R a b
  only : ∀ b ∈ u, p b → ∃ a ∈ t, R a b

/-- A row with the property has the identifier. -/
def Has (p : α → Prop) (t : Table α) (id : String) : Prop := ∃ a ∈ t, Row.id a = id ∧ p a

namespace EvolvesOn
variable {p q : α → Prop} {R : α → α → Prop} {t u v : Table α}

theorem refl (hR : ∀ a, R a a) : EvolvesOn p R t t := ⟨fun a ha _ => ⟨a, ha, hR a⟩, fun a ha _ => ⟨a, ha, hR a⟩⟩

theorem trans (hp : ∀ a b, R a b → (p b ↔ p a)) (hR : ∀ {a b c}, R a b → R b c → R a c) (h : EvolvesOn p R t u)
    (h' : EvolvesOn p R u v) : EvolvesOn p R t v where
  kept a ha hpa := by
    obtain ⟨b, hb, hab⟩ := h.kept a ha hpa
    obtain ⟨c, hc, hbc⟩ := h'.kept b hb ((hp a b hab).mpr hpa)
    exact ⟨c, hc, hR hab hbc⟩
  only c hc hpc := by
    obtain ⟨b, hb, hbc⟩ := h'.only c hc hpc
    obtain ⟨a, ha, hab⟩ := h.only b hb ((hp b c hbc).mp hpc)
    exact ⟨a, ha, hR hab hbc⟩

theorem congr (h : EvolvesOn p R t u) (hpq : ∀ a, q a ↔ p a) : EvolvesOn q R t u :=
  ⟨fun a ha hqa => h.kept a ha ((hpq a).mp hqa), fun b hb hqb => h.only b hb ((hpq b).mp hqb)⟩

theorem of_evolves {R' : α → α → Prop} (h : Evolves R' t u) (hR : ∀ a ∈ t, ∀ b, R' a b → p a ∨ p b → R a b) :
    EvolvesOn p R t u where
  kept a ha hpa := by
    obtain ⟨b, hb, hab⟩ := h.kept a ha
    exact ⟨b, hb, hR a ha b hab (Or.inl hpa)⟩
  only b hb hpb := by
    obtain ⟨a, ha, hab⟩ := h.only b hb
    exact ⟨a, ha, hR a ha b hab (Or.inr hpb)⟩

/-- A change to rows without the property. -/
theorem of_rows {c : α → Bool} {f : α → α} (h : u.rows = t.rows.map fun a => if c a then f a else a) (hR : ∀ a, R a a)
    (hf : ∀ a ∈ t, c a = true → ¬p a ∧ ¬p (f a)) : EvolvesOn p R t u :=
  of_evolves (Evolves.of_rows (R := fun a b => b = a ∨ ¬p a ∧ ¬p b) h (fun _ => Or.inl rfl) fun a ha hc => Or.inr (hf a ha hc))
    fun a _ b hab hp => by
      rcases hab with rfl | ⟨hpa, hpb⟩
      · exact hR b
      · exact absurd hp (not_or_intro hpa hpb)

theorem insert {a : α} (h : t.insert a = some u) (hR : ∀ a, R a a) (ha : ¬p a) : EvolvesOn p R t u where
  kept b hb _ := ⟨b, (mem_insert h).mpr (Or.inl hb), hR b⟩
  only b hb hpb := by
    rcases (mem_insert h).mp hb with hb | rfl
    · exact ⟨b, hb, hR b⟩
    · exact absurd hpb ha

theorem delete {c : α → Bool} (hR : ∀ a, R a a) (hc : ∀ a ∈ t, p a → c a = false) : EvolvesOn p R t (t.delete c) where
  kept a ha hpa := ⟨a, mem_delete.mpr ⟨ha, hc a ha hpa⟩, hR a⟩
  only a ha _ := ⟨a, (mem_delete.mp ha).1, hR a⟩

theorem has_iff (h : EvolvesOn p R t u) (hid : ∀ a b, R a b → Row.id b = Row.id a ∧ (p b ↔ p a)) {id : String} :
    u.Has p id ↔ t.Has p id := by
  constructor
  · rintro ⟨b, hb, rfl, hpb⟩
    obtain ⟨a, ha, hab⟩ := h.only b hb hpb
    exact ⟨a, ha, (hid a b hab).1.symm, (hid a b hab).2.mp hpb⟩
  · rintro ⟨a, ha, rfl, hpa⟩
    obtain ⟨b, hb, hab⟩ := h.kept a ha hpa
    exact ⟨b, hb, (hid a b hab).1, (hid a b hab).2.mpr hpa⟩

end EvolvesOn

/-- A row without the property has its identifier to itself. -/
theorem not_has_of_mem {p : α → Prop} {t : Table α} {a : α} (ha : a ∈ t) (hp : ¬p a) : ¬t.Has p (Row.id a) := by
  rintro ⟨b, hb, hid, hpb⟩
  rw [eq_of_id hb ha hid] at hpb
  exact hp hpb

/-- Every row of `u` is a row of `t`. -/
def Shrinks (t u : Table α) : Prop := ∀ a ∈ u, a ∈ t

/-- A condition on the row that an identifier names. -/
theorem mem_delete_find {t : Table α} {q : α → Bool} {a : α} :
    a ∈ t.delete (fun a => (t.find (Row.id a)).any q) ↔ a ∈ t ∧ q a = false := by
  rw [mem_delete]
  refine and_congr_right fun ha => ?_
  rw [find_of_mem ha, Option.any_some]

theorem shrinks_delete {t : Table α} {p : α → Bool} : Shrinks t (t.delete p) := fun _ ha => (mem_delete.mp ha).1

/-- Every row stays, perhaps changed, under its identifier. -/
def Stays (t u : Table α) : Prop := ∀ a ∈ t, ∃ b ∈ u, Row.id b = Row.id a

theorem stays_insert {t u : Table α} {a : α} (h : t.insert a = some u) : Stays t u :=
  fun b hb => ⟨b, (mem_insert h).mpr (Or.inl hb), rfl⟩

theorem Evolves.stays {R : α → α → Prop} {t u : Table α} (h : Evolves R t u) (ids : ∀ a b, R a b → Row.id b = Row.id a) :
    Stays t u := by
  intro a ha
  obtain ⟨b, hb, hab⟩ := h.kept a ha
  exact ⟨b, hb, ids a b hab⟩

namespace References
variable {t t' : Table α} {u u' : Table β} {column : α → Option String}

/-- References survive where the referring rows refer as before, and no row that is referred to is lost. -/
theorem transfer (h : t.References column u) (rows : ∀ a ∈ t', ∀ id, column a = some id → ∃ a₀ ∈ t, column a₀ = some id)
    (targets : ∀ b ∈ u, (∃ a ∈ t', column a = some (Row.id b)) → ∃ b' ∈ u', Row.id b' = Row.id b) : t'.References column u' := by
  intro a ha id hid
  obtain ⟨a₀, ha₀, hid₀⟩ := rows a ha id hid
  obtain ⟨b, hb, rfl⟩ := h a₀ ha₀ id hid₀
  exact targets b hb ⟨a, ha, hid⟩

/-- The references of a row are old, or name a row that is there. -/
theorem extend (h : t.References column u)
    (rows : ∀ a ∈ t', ∀ id, column a = some id → (∃ a₀ ∈ t, column a₀ = some id) ∨ (u.find id).isSome) :
    t'.References column u := by
  intro a ha id hid
  rcases rows a ha id hid with ⟨a₀, ha₀, hid₀⟩ | hfound
  · exact h a₀ ha₀ id hid₀
  · obtain ⟨b, hb⟩ := Option.isSome_iff_exists.mp hfound
    exact ⟨b, find_eq_some.mp hb⟩

/-- The same for a column without nulls. -/
theorem extend_some {column : α → String} (h : t.References (some <| column ·) u)
    (rows : ∀ a ∈ t', (∃ a₀ ∈ t, column a₀ = column a) ∨ (u.find (column a)).isSome) : t'.References (some <| column ·) u :=
  h.extend fun a ha id hid => by
    obtain rfl := Option.some.inj hid
    exact (rows a ha).imp (fun ⟨a₀, ha₀, hsame⟩ => ⟨a₀, ha₀, congrArg some hsame⟩) fun found => found

theorem insert {a : α} (h : t.References column u) (stored : t.insert a = some t')
    (found : ∀ id, column a = some id → (u.find id).isSome) : t'.References column u :=
  h.extend fun b hb id hid => by
    rcases (mem_insert stored).mp hb with hb | rfl
    · exact Or.inl ⟨b, hb, hid⟩
    · exact Or.inr (found id hid)

theorem shrinks (h : t.References column u) (hrows : Shrinks t t') : t'.References column u :=
  fun a ha id hid => h a (hrows a ha) id hid

theorem evolves {R : α → α → Prop} (h : t.References column u) (hrows : Evolves R t t')
    (columns : ∀ a b, R a b → column b = column a) : t'.References column u := by
  intro b hb id hid
  obtain ⟨a, ha, hab⟩ := hrows.only b hb
  exact h a ha id ((columns a b hab).symm.trans hid)

theorem stays (h : t.References column u) (ids : Stays u u') : t.References column u' := by
  intro a ha id hid
  obtain ⟨b, hb, rfl⟩ := h a ha id hid
  exact ids b hb

/-- Rows are deleted, and with them those that refer to them. -/
theorem delete {p : β → Bool} (h : t.References column u) (rows : Shrinks t t')
    (away : ∀ a ∈ t', ∀ b ∈ u, column a = some (Row.id b) → p b = false) : t'.References column (u.delete p) :=
  h.transfer (fun a ha _ hid => ⟨a, rows a ha, hid⟩) fun b hb ⟨a, ha, hid⟩ =>
    ⟨b, mem_delete.mpr ⟨hb, away a ha b hb hid⟩, rfl⟩

/-- A row is deleted, and with it all rows that refer to it. -/
theorem cascade {id : String} (h : t.References column u) :
    (t.delete (column · == some id)).References column (u.delete (Row.id · == id)) :=
  h.delete shrinks_delete fun a ha b _ hid => by
    have stays := (mem_delete.mp ha).2
    rw [hid] at stays
    exact stays

/-- A row is deleted when no row refers to it any more. -/
theorem cleared {id : String} (h : t.References column u)
    (rows : t.Evolves (fun a b => column b = none ∨ b = a ∧ column a ≠ some id) t') :
    t'.References column (u.delete (Row.id · == id)) := by
  have before {b : α} (hb : b ∈ t') {target : String} (hid : column b = some target) :
      target ≠ id ∧ ∃ a ∈ t, column a = some target := by
    obtain ⟨a, ha, hnone | ⟨rfl, hnot⟩⟩ := rows.only b hb
    · rw [hnone] at hid
      cases hid
    · exact ⟨fun heq => hnot (heq ▸ hid), b, ha, hid⟩
  refine h.transfer (fun b hb _ hid => (before hb hid).2) fun c hc ⟨b, hb, hid⟩ => ?_
  exact ⟨c, mem_delete.mpr ⟨hc, beq_eq_false_iff_ne.mpr (before hb hid).1⟩, rfl⟩

/-- A column without nulls, and a condition on the identifiers of the deleted rows. -/
theorem delete_id {column : α → String} {p : String → Bool} (h : t.References (some <| column ·) u) (rows : Shrinks t t')
    (away : ∀ a ∈ t', p (column a) = false) : t'.References (some <| column ·) (u.delete fun b => p (Row.id b)) :=
  h.delete rows fun a ha b _ hid => by
    rw [← Option.some.inj hid]
    exact away a ha

/-- A column without nulls, and a condition on the deleted rows. -/
theorem delete_find {column : α → String} {p : β → Bool} (h : t.References (some <| column ·) u) (rows : Shrinks t t')
    (away : ∀ a ∈ t', (u.find (column a)).any p = false) : t'.References (some <| column ·) (u.delete p) :=
  h.delete rows fun a ha b hb hid => by
    have hnone := away a ha
    rwa [Option.some.inj hid, find_of_mem hb] at hnone

/-- Rows are deleted, and references to them are set to null. -/
theorem set_null {q : α → Bool} {f : α → α} {p : β → Bool} (h : t.References column u)
    (rows : t'.rows = t.rows.map fun a => if q a then f a else a) (null : ∀ a, column (f a) = none)
    (away : ∀ a ∈ t, q a = false → ∀ b ∈ u, column a = some (Row.id b) → p b = false) : t'.References column (u.delete p) := by
  intro b hb _ hid
  rw [← mem_rows, rows] at hb
  obtain ⟨a, ha, rfl⟩ := List.mem_map.mp hb
  split at hid
  · rw [null a] at hid
    cases hid
  · rename_i hq
    obtain ⟨c, hc, rfl⟩ := h a ha _ hid
    exact ⟨c, mem_delete.mpr ⟨hc, away a ha (by simpa using hq) c hc hid⟩, rfl⟩

/-- A column that an update leaves alone. -/
theorem update {q : α → Bool} {f : α → α} (h : t.References column u)
    (rows : t'.rows = t.rows.map fun a => if q a then f a else a) (fixed : ∀ a, column (f a) = column a) :
    t'.References column u :=
  h.evolves (Evolves.of_rows (R := fun a b => column b = column a) rows (fun _ => rfl) fun a _ _ => fixed a) fun _ _ hab => hab

end References

/-! ### Counts -/

/-- No row comes to satisfy the condition. -/
theorem length_filter_le {t u : Table α} {p : α → Bool} (h : ∀ b ∈ u, p b = true → ∃ a ∈ t, Row.id a = Row.id b ∧ p a = true) :
    (u.filter p).length ≤ (t.filter p).length := by
  have distinct : ((u.filter p).map Row.id).Nodup := by
    refine List.pairwise_map.mpr ((u.distinct.filter p).imp fun {a b} hab hid => ?_)
    rw [conflict_of_id hid] at hab
    cases hab
  have sub : (u.filter p).map Row.id ⊆ (t.filter p).map Row.id := by
    intro id hid
    obtain ⟨b, hb, rfl⟩ := List.mem_map.mp hid
    obtain ⟨hmem, hp⟩ := mem_filter.mp hb
    obtain ⟨a, ha, hab, hpa⟩ := h b hmem hp
    exact List.mem_map.mpr ⟨a, mem_filter.mpr ⟨ha, hpa⟩, hab⟩
  have hlength := (List.subperm_of_subset distinct sub).length_le
  rwa [List.length_map, List.length_map] at hlength

end Relational.Table
