import Mathlib.Data.Finset.Card
import Vms.Lib.RelyGuarantee

/-! Programs that run at the same time and take a place each, after they have seen a free one. Between the look and the
    taking, others may take theirs. The places are overdrawn by no more than one for each further program that takes one. -/

namespace Prog
variable {σ ε α β : Type} (taken : σ → Nat) (I : σ → Prop) (places : Nat)

/-- No place is taken. -/
def TakesNone (s t : σ) : Prop := taken t ≤ taken s

/-- The program takes one place at most. -/
def Takes : Prog σ ε α → Prop
  | ret _ => True
  | fail _ => True
  | stmt g k f => f.Takes ∧ ((∀ s, taken (g s) ≤ taken s ∧ (k s).Takes) ∨
      ∀ s, taken (g s) ≤ taken s + 1 ∧ (k s).Within (TakesNone taken))

/-- The program takes one place at most, and only after it has seen a free one. -/
def Looks : Prog σ ε α → Prop
  | ret _ => True
  | fail _ => True
  | stmt g k f => f.Looks ∧ ∀ s, taken (g s) ≤ taken s ∧ (I s → (k s).Looks ∨ taken s < places ∧ (k s).Takes taken)

section Rules
variable {taken I places} {p : Prog σ ε α} {h : α → Prog σ ε β}

theorem Within.takes (hp : p.Within (TakesNone taken)) : p.Takes taken := by
  induction p with
  | ret a => trivial
  | fail e => trivial
  | stmt g k f ihk ihf => exact ⟨ihf hp.2.2, Or.inl fun s => ⟨hp.1 s, ihk s (hp.2.1 s)⟩⟩

theorem Within.looks (hp : p.Within (TakesNone taken)) : p.Looks taken I places := by
  induction p with
  | ret a => trivial
  | fail e => trivial
  | stmt g k f ihk ihf => exact ⟨ihf hp.2.2, fun s => ⟨hp.1 s, fun _ => Or.inl (ihk s (hp.2.1 s))⟩⟩

/-- What comes before the taking. -/
theorem Within.bind_takes (hp : p.Within (TakesNone taken)) (hh : ∀ a, (h a).Takes taken) : (p >>= h).Takes taken := by
  induction p with
  | ret a => exact hh a
  | fail e => trivial
  | stmt g k f ihk ihf => exact ⟨ihf hp.2.2, Or.inl fun s => ⟨hp.1 s, ihk s (hp.2.1 s)⟩⟩

/-- What comes after the taking. -/
theorem Takes.bind (hp : p.Takes taken) (hh : ∀ a, (h a).Within (TakesNone taken)) : (p >>= h).Takes taken := by
  induction p with
  | ret a => exact (hh a).takes
  | fail e => trivial
  | stmt g k f ihk ihf =>
    obtain ⟨hf, hk⟩ := hp
    refine ⟨ihf hf, hk.imp (fun hk s => ⟨(hk s).1, ihk s (hk s).2⟩) fun hk s => ⟨(hk s).1, (hk s).2.bind hh⟩⟩

/-- What comes before the look. -/
theorem Within.bind_looks (hp : p.Within (TakesNone taken)) (hh : ∀ a, (h a).Looks taken I places) :
    (p >>= h).Looks taken I places := by
  induction p with
  | ret a => exact hh a
  | fail e => trivial
  | stmt g k f ihk ihf => exact ⟨ihf hp.2.2, fun s => ⟨hp.1 s, fun _ => Or.inl (ihk s (hp.2.1 s))⟩⟩

theorem Looks.bind (hp : p.Looks taken I places) (hh : ∀ a, (h a).Within (TakesNone taken)) :
    (p >>= h).Looks taken I places := by
  induction p with
  | ret a => exact (hh a).looks
  | fail e => trivial
  | stmt g k f ihk ihf =>
    obtain ⟨hf, hk⟩ := hp
    refine ⟨ihf hf, fun s => ⟨(hk s).1, fun hs => ((hk s).2 hs).imp (ihk s) fun ⟨hfree, htakes⟩ => ⟨hfree, htakes.bind hh⟩⟩⟩

theorem failIf_bind_looks {e : ε} {c : Prop} [Decidable c] {h : Unit → Prog σ ε β} (hh : ¬c → (h ()).Looks taken I places) :
    (failIf c e >>= h).Looks taken I places := by
  by_cases hc : c
  · rw [failIf_bind_of hc]
    trivial
  · rw [failIf_bind_of_not hc]
    exact hh hc

theorem orFail_bind_looks {e : ε} {o : Option α} (hh : ∀ a, o = some a → (h a).Looks taken I places) :
    (orFail e o >>= h).Looks taken I places := by
  cases o with
  | none => trivial
  | some a => exact hh a rfl

/-- The access takes the place. -/
theorem access_takes {op : σ → Except ε α × σ} {e : ε} (hop : ∀ s, taken (op s).2 ≤ taken s + 1) : (access op e).Takes taken :=
  ⟨trivial, Or.inr fun s => ⟨hop s, always_ofExcept⟩⟩

/-- The access sees a free place, or goes on to look for one. -/
theorem access_bind_looks {op : σ → Except ε α × σ} {e : ε} (hop : ∀ s, taken (op s).2 ≤ taken s)
    (hh : ∀ s a, I s → (op s).1 = .ok a → (h a).Looks taken I places ∨ taken s < places ∧ (h a).Takes taken) :
    (access op e >>= h).Looks taken I places := by
  refine ⟨trivial, fun s => ⟨hop s, fun hs => ?_⟩⟩
  show (Prog.bind (ofExcept (op s).1) h).Looks taken I places ∨ taken s < places ∧ (Prog.bind (ofExcept (op s).1) h).Takes taken
  cases hresult : (op s).1 with
  | ok a => exact hh s a hs hresult
  | error e => exact Or.inl trivial

end Rules

end Prog

namespace Threads
open Prog
variable {ι σ ε α : Type} [DecidableEq ι] {taken : σ → Nat} {I : σ → Prop} {places : Nat}

/-- Of the `takers`, those in `seen` have seen a free place and may take it. -/
structure Pending (taken : σ → Nat) (I : σ → Prop) (places : Nat) (takers : Finset ι) (bound : Nat) (d : Threads ι σ ε α)
    (seen : Finset ι) : Prop where
  keeps : ∀ i, (d.threads i).Keeps (Preserves I) d.state
  state : I d.state
  subset : seen ⊆ takers
  takes : ∀ i ∈ seen, (d.threads i).Takes taken
  looks : ∀ i ∉ seen, (d.threads i).Looks taken I places
  idle : ∀ i ∉ takers, (d.threads i).Within (TakesNone taken)
  bounded : taken d.state + seen.card ≤ bound

section Steps
variable {takers seen : Finset ι} {bound : Nat} {d : Threads ι σ ε α} {i : ι} {p : Prog σ ε α} {t : σ}

/-- The program goes on as `p`, and the others where they are. -/
theorem Pending.step {seen' : Finset ι} (hd : Pending taken I places takers bound d seen) (keeps : p.Keeps (Preserves I) t)
    (state : I t) (same : ∀ j ≠ i, j ∈ seen' ↔ j ∈ seen) (mem : i ∈ seen' → i ∈ takers ∧ p.Takes taken)
    (not_mem : i ∉ seen' → p.Looks taken I places) (idle : i ∉ takers → p.Within (TakesNone taken))
    (bounded : taken t + seen'.card ≤ bound) :
    Pending taken I places takers bound ⟨t, Function.update d.threads i p⟩ seen' where
  keeps := forall_update (P := fun _ q => q.Keeps (Preserves I) t) keeps fun j _ =>
    (hd.keeps j).after Preserves.trans (fun _ _ _ _ _ => trivial) fun _ => state
  state := state
  subset j hj := by
    by_cases hij : j = i
    · exact hij ▸ (mem (hij ▸ hj)).1
    · exact hd.subset ((same j hij).mp hj)
  takes := forall_update (P := fun j q => j ∈ seen' → q.Takes taken) (fun hi => (mem hi).2)
    fun j hij hj => hd.takes j ((same j hij).mp hj)
  looks := forall_update (P := fun j q => j ∉ seen' → q.Looks taken I places) not_mem
    fun j hij hj => hd.looks j (mt (same j hij).mpr hj)
  idle := forall_update (P := fun j q => j ∉ takers → q.Within (TakesNone taken)) idle fun j _ => hd.idle j
  bounded := bounded

/-- After each step those that have seen a free place are the same, or one more, or one less that has taken it. -/
theorem pending_step {d' : Threads ι σ ε α} (hbound : places + takers.card ≤ bound + 1)
    (hd : Pending taken I places takers bound d seen) (h : Step d i d') :
    ∃ seen', Pending taken I places takers bound d' seen' := by
  cases h with
  | @mk p t hstep =>
    have keeps := hd.keeps i
    have takes := hd.takes i
    have looks := hd.looks i
    have idle := hd.idle i
    have bounded := hd.bounded
    generalize d.threads i = q at keeps takes looks idle hstep
    have same (seen' : Finset ι) (hs : seen' = seen) : ∀ j ≠ i, j ∈ seen' ↔ j ∈ seen := fun j _ => by rw [hs]
    cases hstep with
    | @fault g k f =>
      exact ⟨seen, hd.step (keeps d.state id).2.2 hd.state (same _ rfl) (fun hi => ⟨hd.subset hi, (takes hi).1⟩) (fun hi => (looks hi).1)
        (fun hi => (idle hi).2.2) bounded⟩
    | @stmt g k f =>
      obtain ⟨hstate, keeps, -⟩ := keeps d.state id
      have state : I (g d.state) := hstate hd.state
      have idle (hi : i ∉ takers) := (idle hi).2.1 d.state
      by_cases hi : i ∈ seen
      · obtain ⟨-, hk⟩ := takes hi
        have htaker := hd.subset hi
        rcases hk with hk | hk
        · obtain ⟨hle, htakes⟩ := hk d.state
          refine ⟨seen, hd.step keeps state (same _ rfl) (fun _ => ⟨htaker, htakes⟩) (fun h => absurd hi h) idle ?_⟩
          omega
        · -- the place is taken
          obtain ⟨hle, hnone⟩ := hk d.state
          refine ⟨seen.erase i, hd.step keeps state (fun j hij => by simp [hij]) (fun h => by simp at h)
            (fun _ => hnone.looks) idle ?_⟩
          have hcard := Finset.card_erase_add_one hi
          omega
      · obtain ⟨hle, hk⟩ := (looks hi).2 d.state
        by_cases htaker : i ∈ takers
        · rcases hk hd.state with hlooks | ⟨hfree, htakes⟩
          · refine ⟨seen, hd.step keeps state (same _ rfl) (fun h => absurd h hi) (fun _ => hlooks) idle ?_⟩
            omega
          · -- a free place is seen
            have hcard : (insert i seen).card ≤ takers.card :=
              Finset.card_le_card (Finset.insert_subset htaker hd.subset)
            refine ⟨insert i seen, hd.step keeps state (fun j hij => by simp [hij]) (fun _ => ⟨htaker, htakes⟩)
              (fun h => by simp at h) idle ?_⟩
            omega
        · refine ⟨seen, hd.step keeps state (same _ rfl) (fun h => absurd h hi) (fun _ => Within.looks (idle htaker)) idle ?_⟩
          omega

/-- The places are overdrawn by less than the number of programs that take one. -/
theorem overdraft_of_reach {C : Threads ι σ ε α → ι → Prop} {c d : Threads ι σ ε α} (takers : Finset ι)
    (keeps : ∀ i, (c.threads i).Keeps (Preserves I) c.state) (state : I c.state) (looks : ∀ i, (c.threads i).Looks taken I places)
    (idle : ∀ i ∉ takers, (c.threads i).Within (TakesNone taken)) (h : (interleaving c).Reach C d) :
    taken d.state ≤ max (taken c.state) (places + takers.card - 1) := by
  have inv : ∃ seen, Pending taken I places takers (max (taken c.state) (places + takers.card - 1)) d seen := by
    refine h.invariant (I := fun d => ∃ seen, Pending taken I places takers (max (taken c.state) (places + takers.card - 1)) d
      seen) (fun d init => ?_) fun d i d' _ ⟨seen, inv⟩ _ step => pending_step (by omega) inv step
    obtain rfl : d = c := init
    have unseen (i : ι) (hi : i ∈ (∅ : Finset ι)) : (d.threads i).Takes taken := absurd hi (Finset.notMem_empty i)
    exact ⟨∅, keeps, state, Finset.empty_subset _, unseen, fun i _ => looks i, idle, by simp⟩
  obtain ⟨seen, inv⟩ := inv
  have bounded := inv.bounded
  omega

end Steps

end Threads
