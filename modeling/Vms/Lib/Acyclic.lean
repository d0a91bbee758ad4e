import Mathlib.Logic.Relation

/-! Relations without cycles, and which pairs may be added to one. -/

namespace Relational
open Relation

def Acyclic {α : Type} (r : α → α → Prop) : Prop := ∀ a, ¬TransGen r a a

section Acyclic
variable {α : Type} {r r' added : α → α → Prop} {a b : α}

theorem Acyclic.mono (h : Acyclic r) (hsub : ∀ a b, r' a b → r a b) : Acyclic r' := fun a ha => h a (TransGen.mono hsub a a ha)

/-- A chain over a relation and some added pairs uses at most one of these, if no added pair leads to
    another. -/
theorem transGen_extend (hr' : ∀ a b, r' a b → r a b ∨ added a b)
    (apart : ∀ a b c d, added a b → added c d → ¬ReflTransGen r b c) (h : TransGen r' a b) :
    TransGen r a b ∨ ∃ c d, added c d ∧ ReflTransGen r a c ∧ ReflTransGen r d b := by
  induction h with
  | single hab =>
    rcases hr' _ _ hab with hr | hadded
    · exact Or.inl (.single hr)
    · exact Or.inr ⟨_, _, hadded, .refl, .refl⟩
  | tail _ hbc ih =>
    rcases hr' _ _ hbc with hr | hadded
    · rcases ih with ih | ⟨c, d, hcd, hac, hdb⟩
      · exact Or.inl (ih.tail hr)
      · exact Or.inr ⟨c, d, hcd, hac, hdb.tail hr⟩
    · rcases ih with ih | ⟨c, d, hcd, -, hdb⟩
      · exact Or.inr ⟨_, _, hadded, ih.to_reflTransGen, .refl⟩
      · exact absurd hdb (apart _ _ _ _ hcd hadded)

/-- Pairs may be added as long as no added pair leads back to an added pair. -/
theorem Acyclic.extend (h : Acyclic r) (hr' : ∀ a b, r' a b → r a b ∨ added a b)
    (apart : ∀ a b c d, added a b → added c d → ¬ReflTransGen r b c) : Acyclic r' := by
  intro a hcycle
  rcases transGen_extend hr' apart hcycle with hcycle | ⟨c, d, hcd, hac, hda⟩
  · exact h a hcycle
  · exact apart c d c d hcd hcd (hda.trans hac)

end Acyclic

end Relational
