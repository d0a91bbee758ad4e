import Mathlib.Logic.Relation
import Vms.Lib.Interleave

/-! Programs among others that all change the state within one relation. A program of which this is known whatever
    it reads is `Within` the relation; one that rests on what the others leave alone `Obeys` it. Programs that obey the
    relation one by one keep to it in every interleaving. -/

namespace Prog
variable {σ ε α β : Type}

/-- What is the case stays the case. -/
def Preserves (I : σ → Prop) (s t : σ) : Prop := I s → I t

namespace Preserves
variable {I : σ → Prop} {s t u : σ}

theorem refl (s : σ) : Preserves I s s := id

theorem trans (h : Preserves I s t) (h' : Preserves I t u) : Preserves I s u := h' ∘ h

end Preserves

/-- Every access, in whatever state it is made, is in `R`. -/
abbrev Within (R : σ → σ → Prop) (p : Prog σ ε α) : Prop := p.Always fun g => ∀ s, R s (g s)

/-- Every access is in `R`, and the program ends in `Q`, as long as the others keep to `R` as well. -/
def Obeys (R : σ → σ → Prop) : Prog σ ε α → (Except ε α → σ → Prop) → σ → Prop
  | ret a, Q, s => Q (.ok a) s
  | fail e, Q, s => Q (.error e) s
  | stmt g k f, Q, s => ∀ t, R s t → R t (g t) ∧ (k t).Obeys R Q (g t) ∧ f.Obeys R Q t

/-- Every access is in `R`, as long as the others keep to `R` as well. -/
abbrev Keeps (R : σ → σ → Prop) (p : Prog σ ε α) (s : σ) : Prop := p.Obeys R (fun _ _ => True) s

section Within
variable {R R' : σ → σ → Prop} {p : Prog σ ε α} {e : ε}

theorem Always.mono {G G' : (σ → σ) → Prop} (hp : p.Always G) (himp : ∀ g, G g → G' g) : p.Always G' := by
  induction p with
  | ret a => trivial
  | fail e => trivial
  | stmt g k f ihk ihf => exact ⟨himp g hp.1, fun s => ihk s (hp.2.1 s), ihf hp.2.2⟩

theorem Within.mono (hp : p.Within R) (himp : ∀ s t, R s t → R' s t) : p.Within R' :=
  Always.mono hp fun _ hg s => himp _ _ (hg s)

theorem Always.ofExcept_bind {G : (σ → σ) → Prop} {x : Except ε α} {h : α → Prog σ ε β} (hh : ∀ a, x = .ok a → (h a).Always G) :
    (ofExcept x >>= h).Always G := by
  cases x with
  | ok a => exact hh a rfl
  | error e => trivial

theorem failIf_bind_within {c : Prop} [Decidable c] {h : Unit → Prog σ ε β} (hh : ¬c → (h ()).Within R) :
    (failIf c e >>= h).Within R := by
  by_cases hc : c
  · rw [failIf_bind_of hc]
    trivial
  · rw [failIf_bind_of_not hc]
    exact hh hc

/-- A transaction is one access, whatever its body does on the way. -/
theorem transaction_within (hp : ∀ s, p.Returns (Rollback (fun _ t => R s t) s) s) : (transaction p e).Within R :=
  always_access fun s => rollback_commit.mpr (hp s)

section Preorder
variable (refl : ∀ s, R s s) (trans : ∀ {s t u}, R s t → R t u → R s u)
include refl trans

theorem Within.run (hp : p.Within R) (s : σ) : R s (p.run s).2 := by
  induction p generalizing s with
  | ret a => exact refl s
  | fail e => exact refl s
  | stmt g k f ihk _ => exact trans (hp.1 s) (ihk s (hp.2.1 s) (g s))

theorem Within.exec (hp : p.Within R) {s t : σ} {r : Except ε α} (h : Exec p s r t) : R s t := by
  induction h with
  | ret => exact refl _
  | fail => exact refl _
  | stmt _ ih => exact trans (hp.1 _) (ih (hp.2.1 _))
  | fault _ ih => exact ih hp.2.2

theorem Within.post (hp : p.Within R) (s : σ) : p.Post (fun _ t => R s t) s :=
  post_iff.mpr fun _ _ h => hp.exec refl trans h

theorem Within.transaction (hp : p.Within R) : (transaction p e).Within R := by
  refine always_access fun s => ?_
  show R s (p.commit s).2
  cases h : (p.run s).1 with
  | ok a =>
    rw [commit_of_ok h]
    exact hp.run refl trans s
  | error e =>
    rw [commit_of_error h]
    exact refl s

end Preorder

end Within

/-! ### Rules -/

section Obeys
variable {R : σ → σ → Prop} {p : Prog σ ε α} {Q Q' : Except ε α → σ → Prop} {s t : σ} {e : ε}

theorem Obeys.mono (hp : p.Obeys R Q s) (himp : ∀ r t, Q r t → Q' r t) : p.Obeys R Q' s := by
  induction p generalizing s with
  | ret a => exact himp _ _ hp
  | fail e => exact himp _ _ hp
  | stmt g k f ihk ihf =>
    intro t ht
    obtain ⟨hg, hk, hf⟩ := hp t ht
    exact ⟨hg, ihk t hk, ihf hf⟩

@[simp] theorem obeys_bind {h : α → Prog σ ε β} {Q : Except ε β → σ → Prop} :
    (p >>= h).Obeys R Q s ↔ p.Obeys R (Then h (fun q Q => q.Obeys R Q) Q) s := by
  induction p generalizing s with
  | ret a => exact Iff.rfl
  | fail e => exact Iff.rfl
  | stmt g k f ihk ihf =>
    exact forall₂_congr fun t _ => and_congr_right fun _ => and_congr (ihk t) ihf

@[simp] theorem obeys_orElse {h : ε → Prog σ ε α} :
    (p.orElse h).Obeys R Q s ↔ p.Obeys R (Else h (fun q Q => q.Obeys R Q) Q) s := by
  induction p generalizing s with
  | ret a => exact Iff.rfl
  | fail e => exact Iff.rfl
  | stmt g k f ihk ihf =>
    exact forall₂_congr fun t _ => and_congr_right fun _ => and_congr (ihk t) ihf

@[simp] theorem obeys_pure {a : α} : (pure a : Prog σ ε α).Obeys R Q s ↔ Q (.ok a) s := Iff.rfl
@[simp] theorem obeys_ret {a : α} : (ret a : Prog σ ε α).Obeys R Q s ↔ Q (.ok a) s := Iff.rfl
@[simp] theorem obeys_fail : (fail e : Prog σ ε α).Obeys R Q s ↔ Q (.error e) s := Iff.rfl

@[simp] theorem obeys_ofExcept {r : Except ε α} : (ofExcept r : Prog σ ε α).Obeys R Q s ↔ Q r s := by
  cases r <;> exact Iff.rfl

@[simp] theorem obeys_failIf {Q : Except ε Unit → σ → Prop} {c : Prop} [Decidable c] :
    (failIf c e : Prog σ ε Unit).Obeys R Q s ↔ (c → Q (.error e) s) ∧ (¬c → Q (.ok ()) s) := by
  unfold failIf
  split <;> simp [*]

@[simp] theorem obeys_orFail {o : Option α} :
    (orFail e o : Prog σ ε α).Obeys R Q s ↔ (o = none → Q (.error e) s) ∧ ∀ a, o = some a → Q (.ok a) s := by
  cases o <;> simp [orFail]

theorem obeys_access {op : σ → Except ε α × σ} : (access op e).Obeys R Q s ↔
    ∀ t, R s t → R t (op t).2 ∧ Q (op t).1 (op t).2 ∧ Q (.error e) t :=
  forall₂_congr fun _ _ => and_congr_right fun _ => and_congr obeys_ofExcept Iff.rfl

/-- A transaction runs alone. -/
theorem obeys_transaction (refl : ∀ s, R s s) : (transaction p e).Obeys R Q s ↔
    ∀ t, R s t → p.Returns (Rollback (fun r u => R t u ∧ Q r u) t) t ∧ Q (.error e) t := by
  rw [transaction, obeys_access]
  refine forall₂_congr fun t _ => ?_
  unfold Returns
  cases h : (p.run t).1 with
  | ok a => rw [commit_of_ok h, rollback_ok, and_assoc]
  | error e' => simp [commit_of_error h, refl t]

/-- A transaction is in the relation if its body is, alone, from whatever state it starts in. -/
theorem transaction_keeps (refl : ∀ s, R s s) (hp : ∀ t, R s t → p.Returns (fun _ u => R t u) t) :
    (transaction p e).Keeps R s :=
  (obeys_transaction refl).mpr fun t ht => ⟨(hp t ht).mono fun r u hu => by cases r <;> simp [hu, refl t], trivial⟩

theorem Within.keeps (hp : p.Within R) : p.Keeps R s := by
  induction p generalizing s with
  | ret a => trivial
  | fail e => trivial
  | stmt g k f ihk ihf => exact fun t _ => ⟨hp.1 t, ihk t (hp.2.1 t), ihf hp.2.2⟩

/-- What follows a program may rely on what it ends with, whatever the others do. -/
theorem Within.bind_obeys {h : α → Prog σ ε β} {ends : α → Prop} (hp : p.Within R)
    (hends : p.Obeys (fun _ _ => True) (fun r _ => ∀ a, r = .ok a → ends a) s) (hh : ∀ a, ends a → (h a).Within R) :
    (p >>= h).Within R := by
  induction p generalizing s with
  | ret a => exact hh a (hends a rfl)
  | fail e => trivial
  | stmt g k f ihk ihf =>
    exact ⟨hp.1, fun t => ihk t (hp.2.1 t) (hends t trivial).2.1, ihf hp.2.2 (hends s trivial).2.2⟩

/-- The program ends where it and the others have led from its start. -/
theorem Obeys.since (refl : ∀ s, R s s) (trans : ∀ {s t u}, R s t → R t u → R s u) (hp : p.Obeys R Q s) :
    p.Obeys R (fun r t => R s t ∧ Q r t) s := by
  induction p generalizing s with
  | ret a => exact ⟨refl s, hp⟩
  | fail e => exact ⟨refl s, hp⟩
  | stmt g k f ihk ihf =>
    intro t ht
    obtain ⟨hg, hk, hf⟩ := hp t ht
    refine ⟨hg, (ihk t hk).mono fun r u hu => ⟨trans ht (trans hg hu.1), hu.2⟩, (ihf hf).mono fun r u hu => ⟨trans ht hu.1, hu.2⟩⟩

section Bind
variable {h : α → Prog σ ε β} {Q : Except ε β → σ → Prop}

/-- What follows a program of which nothing but its effect is known. -/
theorem Keeps.bind_obeys (refl : ∀ s, R s s) (trans : ∀ {s t u}, R s t → R t u → R s u) (hp : p.Keeps R s)
    (error : ∀ e t, Q (.error e) t) (hh : ∀ a t, R s t → (h a).Obeys R Q t) : (p >>= h).Obeys R Q s := by
  refine obeys_bind.mpr ((hp.since refl trans).mono fun r t ht => ?_)
  cases r with
  | ok a => exact hh a t ht.1
  | error e => exact error e t

theorem Keeps.bind (refl : ∀ s, R s s) (trans : ∀ {s t u}, R s t → R t u → R s u) (hp : p.Keeps R s)
    (hh : ∀ a t, R s t → (h a).Keeps R t) : (p >>= h).Keeps R s :=
  hp.bind_obeys refl trans (fun _ _ => trivial) hh

theorem failIf_bind_obeys {c : Prop} [Decidable c] {h : Unit → Prog σ ε β} (error : Q (.error e) s)
    (hh : ¬c → (h ()).Obeys R Q s) : (failIf c e >>= h).Obeys R Q s :=
  obeys_bind.mpr (obeys_failIf.mpr ⟨fun _ => error, hh⟩)

theorem failIf_bind_keeps {c : Prop} [Decidable c] {h : Unit → Prog σ ε β} (hh : ¬c → (h ()).Keeps R s) :
    (failIf c e >>= h).Keeps R s := failIf_bind_obeys trivial hh

theorem orFail_bind_obeys {o : Option α} (error : Q (.error e) s) (hh : ∀ a, o = some a → (h a).Obeys R Q s) :
    (orFail e o >>= h).Obeys R Q s :=
  obeys_bind.mpr (obeys_orFail.mpr ⟨fun _ => error, hh⟩)

theorem orFail_bind_keeps {o : Option α} (hh : ∀ a, o = some a → (h a).Keeps R s) : (orFail e o >>= h).Keeps R s :=
  orFail_bind_obeys trivial hh

end Bind

/-- What the others do meanwhile. -/
theorem Obeys.after (trans : ∀ {s t u}, R s t → R t u → R s u) (stable : ∀ r s t, Q r s → R s t → Q r t)
    (hp : p.Obeys R Q s) (h : R s t) : p.Obeys R Q t := by
  cases p with
  | ret a => exact stable _ _ _ hp h
  | fail e => exact stable _ _ _ hp h
  | stmt g k f => exact fun u hu => hp u (trans h hu)

end Obeys

end Prog

namespace Threads
variable {ι σ ε α : Type} [DecidableEq ι] {R : σ → σ → Prop} {Q : ι → Except ε α → σ → Prop}

/-- Programs that obey a relation one by one keep to it together, and each of them ends as it should. -/
theorem obeys_of_reach (refl : ∀ s, R s s) (trans : ∀ {s t u}, R s t → R t u → R s u)
    (stable : ∀ i r s t, Q i r s → R s t → Q i r t) {C : Threads ι σ ε α → ι → Prop} {c d : Threads ι σ ε α}
    (hc : ∀ i, (c.threads i).Obeys R (Q i) c.state) (h : (interleaving c).Reach C d) :
    R c.state d.state ∧ ∀ i, (d.threads i).Obeys R (Q i) d.state := by
  refine h.invariant (I := fun d => R c.state d.state ∧ ∀ i, (d.threads i).Obeys R (Q i) d.state)
    (fun d init => ?_) fun d i d' _ inv _ step => ?_
  · obtain rfl : d = c := init
    exact ⟨refl _, hc⟩
  · obtain ⟨hstate, hthreads⟩ := inv
    cases step with
    | @mk p t hstep =>
      have hi := hthreads i
      generalize d.threads i = q at hi hstep
      have keeps : R d.state t ∧ p.Obeys R (Q i) t := by
        cases hstep with
        | stmt =>
          obtain ⟨hg, hk, -⟩ := hi d.state (refl _)
          exact ⟨hg, hk⟩
        | fault => exact ⟨refl _, (hi d.state (refl _)).2.2⟩
      exact ⟨trans hstate keeps.1, forall_update (P := fun j q => q.Obeys R (Q j) t) keeps.2 fun j _ =>
        (hthreads j).after trans (stable j) keeps.1⟩

/-- Programs that keep to a relation one by one keep to it together. -/
theorem keeps_of_reach (refl : ∀ s, R s s) (trans : ∀ {s t u}, R s t → R t u → R s u) {C : Threads ι σ ε α → ι → Prop}
    {c d : Threads ι σ ε α} (hc : ∀ i, (c.threads i).Keeps R c.state) (h : (interleaving c).Reach C d) : R c.state d.state :=
  (obeys_of_reach (Q := fun _ _ _ => True) refl trans (fun _ _ _ _ _ _ => trivial) hc h).1

end Threads
