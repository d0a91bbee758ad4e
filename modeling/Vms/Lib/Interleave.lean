import Mathlib.Logic.Function.Basic
import Vms.Lib.Prog
import Vms.Lib.System

/-! Programs that run at the same time over one state: in each step one of them takes one access. Programs
    that change the state at most once, and only while it is open, race for that one change: the state
    is the initial one, or the one that the winner alone leaves (`race`). -/

namespace Prog
variable {σ ε α β : Type}

/-! ### What the accesses of a program may do -/

/-- No access changes the state. -/
def Still : Prog σ ε α → Prop
  | ret _ => True
  | fail _ => True
  | stmt g k f => (∀ s, g s = s) ∧ (∀ s, (k s).Still) ∧ f.Still

/-- No access changes the state, and the program fails whatever happens. -/
def Doomed : Prog σ ε α → Prop
  | ret _ => False
  | fail _ => True
  | stmt g k f => (∀ s, g s = s) ∧ (∀ s, (k s).Doomed) ∧ f.Doomed

/-- No access changes the state, and the program succeeds with `a` whatever happens. -/
def Settled (a : α) : Prog σ ε α → Prop
  | ret b => b = a
  | fail _ => False
  | stmt g k f => (∀ s, g s = s) ∧ (∀ s, (k s).Settled a) ∧ f.Settled a

/-- The program fails, unless it makes one change: from an open state to one that is not open, after
    which it succeeds. -/
def OneShot (O : σ → Prop) : Prog σ ε α → Prop
  | ret _ => False
  | fail _ => True
  | stmt g k f => f.Doomed ∧ ((∀ s, g s = s ∧ (k s).OneShot O) ∨
      ∀ s, (O s → ¬O (g s) ∧ ∃ a, (k s).Settled a) ∧ (¬O s → g s = s ∧ (k s).Doomed))

def OrDoomed (P : Prog σ ε α → Prop) (p : Prog σ ε α) : Prop := p.Doomed ∨ P p

/-- The first access changes nothing; it dooms the program, or leads to what `next` says of the state. -/
def Awaits (next : σ → Prog σ ε α → Prop) : Prog σ ε α → Prop
  | stmt g k f => f.Doomed ∧ (∀ s, g s = s) ∧ ∀ s, (k s).OrDoomed (next s)
  | _ => False

/-- Every access of the program changes the state by a function that satisfies `G`. -/
def Always (G : (σ → σ) → Prop) : Prog σ ε α → Prop
  | ret _ => True
  | fail _ => True
  | stmt g k f => G g ∧ (∀ s, (k s).Always G) ∧ f.Always G

/-- Every access changes the state by a function that satisfies `G`, as long as the program reads states in `I`. -/
def AlwaysIn (I : σ → Prop) (G : (σ → σ) → Prop) : Prog σ ε α → Prop
  | ret _ => True
  | fail _ => True
  | stmt g k f => G g ∧ (∀ s, I s → (k s).AlwaysIn I G) ∧ f.AlwaysIn I G

section Always
variable {G : (σ → σ) → Prop} {p : Prog σ ε α} {h : α → Prog σ ε β} {e : ε}

theorem Always.bind (hp : p.Always G) (hh : ∀ a, (h a).Always G) : (p >>= h).Always G := by
  induction p with
  | ret a => exact hh a
  | fail e => trivial
  | stmt g k f ihk ihf => exact ⟨hp.1, fun s => ihk s (hp.2.1 s), ihf hp.2.2⟩

theorem Always.orElse {h : ε → Prog σ ε α} (hp : p.Always G) (hh : ∀ e, (h e).Always G) : (p.orElse h).Always G := by
  induction p with
  | ret a => trivial
  | fail e => exact hh e
  | stmt g k f ihk ihf => exact ⟨hp.1, fun s => ihk s (hp.2.1 s), ihf hp.2.2⟩

theorem always_failIf {c : Prop} [Decidable c] : (failIf c e : Prog σ ε Unit).Always G := by
  unfold failIf
  split <;> trivial

theorem always_orFail {o : Option α} : (orFail e o : Prog σ ε α).Always G := by
  cases o <;> trivial

theorem always_ofExcept {r : Except ε α} : (ofExcept r : Prog σ ε α).Always G := by
  cases r <;> trivial

theorem always_access {op : σ → Except ε α × σ} (hG : G fun s => (op s).2) : (access op e).Always G :=
  ⟨hG, fun _ => always_ofExcept, trivial⟩

/-- What follows an access may rely on what it reads. -/
theorem Always.access_bind {op : σ → Except ε α × σ} (hG : G fun s => (op s).2)
    (hh : ∀ s a, (op s).1 = .ok a → (h a).Always G) : (access op e >>= h).Always G := by
  refine ⟨hG, fun s => ?_, trivial⟩
  show (Prog.bind (ofExcept (op s).1) h).Always G
  cases hop : (op s).1 with
  | error e => trivial
  | ok a => exact hh s a hop

theorem Always.orFail_bind {o : Option α} (hh : ∀ a, o = some a → (h a).Always G) : (orFail e o >>= h).Always G := by
  cases o with
  | none => trivial
  | some a => exact hh a rfl

/-- A property of the state that every such function keeps. -/
theorem Always.post {P : σ → Prop} {s : σ} (hp : p.Always G) (keeps : ∀ g, G g → ∀ s, P s → P (g s)) (hs : P s) :
    p.Post (fun _ t => P t) s := by
  induction p generalizing s with
  | ret a => exact hs
  | fail e => exact hs
  | stmt g k f ihk ihf => exact ⟨ihk s (hp.2.1 s) (keeps g hp.1 s hs), ihf hp.2.2 hs⟩

/-! What a program does in states that satisfy `I`. -/

section AlwaysIn
variable {I : σ → Prop}

theorem Always.alwaysIn (hp : p.Always G) : p.AlwaysIn I G := by
  induction p with
  | ret a => trivial
  | fail e => trivial
  | stmt g k f ihk ihf => exact ⟨hp.1, fun s _ => ihk s (hp.2.1 s), ihf hp.2.2⟩

theorem AlwaysIn.bind (hp : p.AlwaysIn I G) (hh : ∀ a, (h a).AlwaysIn I G) : (p >>= h).AlwaysIn I G := by
  induction p with
  | ret a => exact hh a
  | fail e => trivial
  | stmt g k f ihk ihf => exact ⟨hp.1, fun s hs => ihk s (hp.2.1 s hs), ihf hp.2.2⟩

theorem AlwaysIn.access_bind {op : σ → Except ε α × σ} (hG : G fun s => (op s).2)
    (hh : ∀ s a, I s → (op s).1 = .ok a → (h a).AlwaysIn I G) : (access op e >>= h).AlwaysIn I G := by
  refine ⟨hG, fun s hs => ?_, trivial⟩
  show (Prog.bind (ofExcept (op s).1) h).AlwaysIn I G
  cases hop : (op s).1 with
  | error e => trivial
  | ok a => exact hh s a hs hop

end AlwaysIn

end Always

section Rules
variable {O : σ → Prop} {p : Prog σ ε α} {h : α → Prog σ ε β} {a : α} {b : β} {s : σ}

theorem Still.bind (hp : p.Still) (hh : ∀ a, (h a).Still) : (p >>= h).Still := by
  induction p with
  | ret a => exact hh a
  | fail e => trivial
  | stmt g k f ihk ihf => exact ⟨hp.1, fun s => ihk s (hp.2.1 s), ihf hp.2.2⟩

theorem Settled.bind (hp : p.Settled a) (hh : (h a).Settled b) : (p >>= h).Settled b := by
  induction p with
  | ret a' =>
    obtain rfl : a' = a := hp
    exact hh
  | fail e => exact hp.elim
  | stmt g k f ihk ihf => exact ⟨hp.1, fun s => ihk s (hp.2.1 s), ihf hp.2.2⟩

/-- A program without effect whose failures are caught. -/
theorem Still.settled {p : Prog σ ε Unit} (hp : p.Still) : (p.orElse fun _ => ret ()).Settled () := by
  induction p with
  | ret a => rfl
  | fail e => rfl
  | stmt g k f ihk ihf => exact ⟨hp.1, fun s => ihk s (hp.2.1 s), ihf hp.2.2⟩

theorem Settled.run (hp : p.Settled a) : p.run s = (.ok a, s) := by
  induction p generalizing s with
  | ret b =>
    obtain rfl : b = a := hp
    rfl
  | fail e => exact hp.elim
  | stmt g k f ihk ihf =>
    show (k s).run (g s) = (.ok a, s)
    rw [hp.1 s]
    exact ihk s (hp.2.1 s)

theorem Doomed.oneShot (hp : p.Doomed) : p.OneShot O := by
  induction p with
  | ret a => exact hp
  | fail e => trivial
  | stmt g k f ihk ihf => exact ⟨hp.2.2, Or.inl fun s => ⟨hp.1 s, ihk s (hp.2.1 s)⟩⟩

theorem oneShot_failIf {c : Prop} [Decidable c] {e : ε} {h : Unit → Prog σ ε β} (hh : ¬c → (h ()).OneShot O) :
    (failIf c e >>= h).OneShot O := by
  unfold failIf
  split
  · trivial
  · rename_i hc
    exact hh hc

theorem oneShot_orFail {e : ε} {o : Option α} (hh : ∀ a, o = some a → (h a).OneShot O) : (orFail e o >>= h).OneShot O := by
  cases o with
  | none => trivial
  | some a => exact hh a rfl

/-- An access that only reads. -/
theorem oneShot_access {op : σ → Except ε α × σ} {e : ε} (still : ∀ s, (op s).2 = s)
    (hh : ∀ a, (h a).OneShot O) : (access op e >>= h).OneShot O := by
  refine ⟨trivial, Or.inl fun s => ⟨still s, ?_⟩⟩
  show (Prog.bind (ofExcept (op s).1) h).OneShot O
  cases (op s).1 with
  | error e => trivial
  | ok a => exact hh a

/-- A transaction that closes an open state and fails on any other. -/
theorem oneShot_transaction {e : ε} (opened : ∀ s, O s → ∃ a, (p.run s).1 = .ok a ∧ ¬O (p.run s).2)
    (closed : ∀ s, ¬O s → ∃ e, (p.run s).1 = .error e) : (transaction p e).OneShot O := by
  refine ⟨trivial, Or.inr fun s => ⟨fun hO => ?_, fun hO => ?_⟩⟩
  · obtain ⟨a, hrun, hclosed⟩ := opened s hO
    show ¬O (p.commit s).2 ∧ ∃ b, (ofExcept (p.commit s).1 : Prog σ ε α).Settled b
    rw [commit_of_ok hrun]
    exact ⟨hclosed, a, rfl⟩
  · obtain ⟨e', hrun⟩ := closed s hO
    show (p.commit s).2 = s ∧ (ofExcept (p.commit s).1 : Prog σ ε α).Doomed
    rw [commit_of_error hrun]
    exact ⟨rfl, trivial⟩

/-- A check, and what holds after it. -/
theorem orDoomed_orFail {P : Prog σ ε β → Prop} {e : ε} {o : Option α} (hh : ∀ a, o = some a → (h a).OrDoomed P) :
    (orFail e o >>= h).OrDoomed P := by
  cases o with
  | none => exact Or.inl trivial
  | some a => exact hh a rfl

theorem orDoomed_failIf {P : Prog σ ε β → Prop} {c : Prop} [Decidable c] {e : ε} {h : Unit → Prog σ ε β}
    (hh : ¬c → (h ()).OrDoomed P) : (failIf c e >>= h).OrDoomed P := by
  by_cases hc : c
  · rw [failIf_bind_of hc]
    exact Or.inl trivial
  · rw [failIf_bind_of_not hc]
    exact hh hc

/-- An access that only reads. -/
theorem awaits_access {op : σ → Except ε α × σ} {e : ε} {next : σ → Prog σ ε β → Prop} (still : ∀ s, (op s).2 = s)
    (hh : ∀ s a, (op s).1 = .ok a → (h a).OrDoomed (next s)) : (access op e >>= h).Awaits next := by
  refine ⟨trivial, still, fun s => ?_⟩
  show (Prog.bind (ofExcept (op s).1) h).OrDoomed (next s)
  cases hop : (op s).1 with
  | error e => exact Or.inl trivial
  | ok a => exact hh s a hop

theorem Doomed.bind (hp : p.Doomed) : (p >>= h).Doomed := by
  induction p with
  | ret a => exact hp.elim
  | fail e => trivial
  | stmt g k f ihk ihf => exact ⟨hp.1, fun s => ihk s (hp.2.1 s), ihf hp.2.2⟩

/-- What follows the shot has to settle. -/
theorem OneShot.bind (hp : p.OneShot O) (settles : ∀ a, ∃ b, (h a).Settled b) : (p >>= h).OneShot O := by
  induction p with
  | ret a => exact hp.elim
  | fail e => trivial
  | stmt g k f ihk ihf =>
    refine ⟨hp.1.bind, hp.2.imp (fun read s => ⟨(read s).1, ihk s (read s).2⟩) fun shot s => ⟨fun hO => ?_, fun hO => ?_⟩⟩
    · obtain ⟨hclosed, a, ha⟩ := (shot s).1 hO
      obtain ⟨b, hb⟩ := settles a
      exact ⟨hclosed, b, ha.bind hb⟩
    · obtain ⟨hsame, hdoomed⟩ := (shot s).2 hO
      exact ⟨hsame, hdoomed.bind⟩

end Rules

/-! ### One access at a time -/

section Steps
variable {O : σ → Prop} {p p' : Prog σ ε α} {s s' : σ} {a : α}

/-- An access with an effect has the effect of its function. -/
theorem Step.effect {g : σ → σ} {k : σ → Prog σ ε α} {f : Prog σ ε α} (h : Step p s p' s') (hp : p = .stmt g k f)
    (changed : s' ≠ s) : s' = g s := by
  subst hp
  cases h with
  | stmt => rfl
  | fault => exact absurd rfl changed

theorem Doomed.step (hp : p.Doomed) (h : Step p s p' s') : p'.Doomed ∧ s' = s := by
  cases h with
  | stmt => exact ⟨hp.2.1 s, hp.1 s⟩
  | fault => exact ⟨hp.2.2, rfl⟩

theorem Awaits.step {next : σ → Prog σ ε α → Prop} (hp : p.Awaits next) (h : Step p s p' s') :
    s' = s ∧ p'.OrDoomed (next s) := by
  cases h with
  | stmt => exact ⟨hp.2.1 s, hp.2.2 s⟩
  | fault => exact ⟨rfl, Or.inl hp.1⟩

theorem Settled.step (hp : p.Settled a) (h : Step p s p' s') : p'.Settled a ∧ s' = s := by
  cases h with
  | stmt => exact ⟨hp.2.1 s, hp.1 s⟩
  | fault => exact ⟨hp.2.2, rfl⟩

/-- An access fails and changes nothing, or changes the state by its function. -/
theorem Always.step {G : (σ → σ) → Prop} (hp : p.Always G) (h : Step p s p' s') :
    p'.Always G ∧ (s' = s ∨ ∃ g k f, p = .stmt g k f ∧ G g ∧ s' = g s) := by
  cases h with
  | @stmt g k f => exact ⟨hp.2.1 s, Or.inr ⟨g, k, f, rfl, hp.1, rfl⟩⟩
  | fault => exact ⟨hp.2.2, Or.inl rfl⟩

theorem AlwaysIn.step {I : σ → Prop} {G : (σ → σ) → Prop} (hp : p.AlwaysIn I G) (hs : I s) (h : Step p s p' s') :
    p'.AlwaysIn I G ∧ (s' = s ∨ ∃ g, G g ∧ s' = g s) := by
  cases h with
  | @stmt g => exact ⟨hp.2.1 s hs, Or.inr ⟨g, hp.1, rfl⟩⟩
  | fault => exact ⟨hp.2.2, Or.inl rfl⟩

/-- An access of a program with one shot dooms it, leaves it as it was, or is the shot. -/
theorem OneShot.step (hp : p.OneShot O) (h : Step p s p' s') :
    (p'.Doomed ∧ s' = s) ∨ (p'.OneShot O ∧ s' = s ∧ p'.run s = p.run s) ∨
      (O s ∧ ¬O s' ∧ ∃ a, p'.Settled a ∧ p.run s = (.ok a, s')) := by
  cases h with
  | fault => exact Or.inl ⟨hp.1, rfl⟩
  | @stmt g k f =>
    rcases hp.2 with read | shot
    · obtain ⟨hsame, hk⟩ := read s
      refine Or.inr (Or.inl ⟨hk, hsame, ?_⟩)
      show (k s).run s = (k s).run (g s)
      rw [hsame]
    · by_cases hO : O s
      · obtain ⟨hclosed, a, ha⟩ := (shot s).1 hO
        exact Or.inr (Or.inr ⟨hO, hclosed, a, ha, ha.run⟩)
      · obtain ⟨hsame, hdoomed⟩ := (shot s).2 hO
        exact Or.inl ⟨hdoomed, hsame⟩

end Steps

end Prog

/-! ### Interleaving -/

/-- Programs that still run, over a shared state. -/
structure Threads (ι σ ε α : Type) where
  state : σ
  threads : ι → Prog σ ε α

namespace Threads
variable {ι σ ε α : Type} [DecidableEq ι]

inductive Step : Threads ι σ ε α → ι → Threads ι σ ε α → Prop where
  | mk {c i p s} (h : Prog.Step (c.threads i) c.state p s) : Step c i ⟨s, Function.update c.threads i p⟩

/-- What holds of the program that took the access, and of the others. -/
theorem forall_update {P : ι → Prog σ ε α → Prop} {ps : ι → Prog σ ε α} {i : ι} {p : Prog σ ε α} (hp : P i p)
    (others : ∀ j, j ≠ i → P j (ps j)) : ∀ j, P j (Function.update ps i p j) :=
  (Function.forall_update_iff ps P).mpr ⟨hp, others⟩

/-- The interleavings of the programs that still run. -/
def interleaving (c : Threads ι σ ε α) : System (Threads ι σ ε α) ι where
  init d := d = c
  step := Step

/-- One access of program `i` that does not fail, if it has one left. -/
def advance (c : Threads ι σ ε α) (i : ι) : Threads ι σ ε α :=
  match c.threads i with
  | .stmt g k _ => ⟨g c.state, Function.update c.threads i (k c.state)⟩
  | _ => c

theorem step_advance {c : Threads ι σ ε α} {i : ι} {g : σ → σ} {k : σ → Prog σ ε α} {f : Prog σ ε α}
    (h : c.threads i = .stmt g k f) : Step c i (advance c i) := by
  unfold advance
  rw [h]
  exact .mk (by rw [h]; exact .stmt)

/-- Accesses that do not fail, of the programs in a given order. -/
def schedule (c : Threads ι σ ε α) (is : List ι) : Threads ι σ ε α := is.foldl advance c

/-- Every access of a schedule meets a condition where it is taken. -/
def Meets (C : Threads ι σ ε α → ι → Prop) : Threads ι σ ε α → List ι → Prop
  | _, [] => True
  | c, i :: is => C c i ∧ Meets C (advance c i) is

theorem reach_schedule {C : Threads ι σ ε α → ι → Prop} {c d : Threads ι σ ε α} (h : (interleaving c).Reach C d)
    {is : List ι} (meets : Meets C d is) : (interleaving c).Reach C (schedule d is) := by
  induction is generalizing d with
  | nil => exact h
  | cons i is ih =>
    refine ih ?_ meets.2
    cases hi : d.threads i with
    | stmt g k f => exact h.step meets.1 (step_advance hi)
    | ret a =>
      unfold advance
      rw [hi]
      exact h
    | fail e =>
      unfold advance
      rw [hi]
      exact h

theorem reachable_schedule {c d : Threads ι σ ε α} (h : (interleaving c).Reachable d) (is : List ι) :
    (interleaving c).Reachable (schedule d is) := by
  refine reach_schedule h ?_
  induction is generalizing d with
  | nil => trivial
  | cons i is ih =>
    have hstep : (interleaving c).Reachable (schedule d [i]) := reach_schedule h ⟨trivial, trivial⟩
    exact ⟨trivial, ih hstep⟩

/-- What the accesses of the programs may do at the start, they may do throughout. -/
theorem always_of_reach {G : (σ → σ) → Prop} {C : Threads ι σ ε α → ι → Prop} {c d : Threads ι σ ε α}
    (hc : ∀ i, (c.threads i).Always G) (h : (interleaving c).Reach C d) : ∀ i, (d.threads i).Always G := by
  refine h.invariant (I := fun d => ∀ i, (d.threads i).Always G) (fun d init => ?_) fun d i e _ hd _ step j => ?_
  · obtain rfl : d = c := init
    exact hc
  · cases step with
    | @mk p s hstep => exact forall_update (P := fun _ q => q.Always G) ((hd i).step hstep).1 (fun j _ => hd j) j

/-! ### Races -/

section Race
variable {O : σ → Prop} {s₀ : σ} {ps : ι → Prog σ ε α} {c d : Threads ι σ ε α} {i : ι} {a : α}

/-- Nobody has won: every program is doomed or still has its shot, as alone from the start. -/
structure Open (O : σ → Prop) (s₀ : σ) (ps : ι → Prog σ ε α) (c : Threads ι σ ε α) : Prop where
  state : c.state = s₀
  isOpen : O s₀
  threads : ∀ j, (c.threads j).Doomed ∨ ((c.threads j).OneShot O ∧ (c.threads j).run s₀ = (ps j).run s₀)

/-- Program `i` has won with `a`: the state is the one that it alone leaves, and the others have lost. -/
structure Won (O : σ → Prop) (s₀ : σ) (ps : ι → Prog σ ε α) (i : ι) (a : α) (c : Threads ι σ ε α) : Prop where
  alone : (ps i).run s₀ = (.ok a, c.state)
  closed : ¬O c.state
  winner : (c.threads i).Settled a
  losers : ∀ j, j ≠ i → (c.threads j).OneShot O

theorem Open.step (hc : Open O s₀ ps c) (h : Step c i d) :
    (Open O s₀ ps d ∧ d.state = c.state) ∨ ∃ a, Won O s₀ ps i a d := by
  cases h with
  | @mk p s h =>
    rw [hc.state] at h
    have others : ∀ {q : Prog σ ε α}, (q.Doomed ∨ (q.OneShot O ∧ q.run s₀ = (ps i).run s₀)) → ∀ j,
        (Function.update c.threads i q j).Doomed ∨
          ((Function.update c.threads i q j).OneShot O ∧ (Function.update c.threads i q j).run s₀ = (ps j).run s₀) :=
      fun hq => forall_update (P := fun j q => q.Doomed ∨ (q.OneShot O ∧ q.run s₀ = (ps j).run s₀)) hq fun j _ => hc.threads j
    rcases hc.threads i with hdoomed | ⟨hshot, hrun⟩
    · obtain ⟨hp, rfl⟩ := hdoomed.step h
      exact Or.inl ⟨⟨rfl, hc.isOpen, others (Or.inl hp)⟩, hc.state.symm⟩
    · rcases hshot.step h with ⟨hp, rfl⟩ | ⟨hp, rfl, hrun'⟩ | ⟨-, hclosed, a, ha, hrun'⟩
      · exact Or.inl ⟨⟨rfl, hc.isOpen, others (Or.inl hp)⟩, hc.state.symm⟩
      · exact Or.inl ⟨⟨rfl, hc.isOpen, others (Or.inr ⟨hp, hrun'.trans hrun⟩)⟩, hc.state.symm⟩
      · refine Or.inr ⟨a, hrun.symm.trans hrun', hclosed, ?_, fun j hj => ?_⟩
        · show (Function.update c.threads i p i).Settled a
          rw [Function.update_self]
          exact ha
        · show (Function.update c.threads i p j).OneShot O
          rw [Function.update_of_ne hj]
          rcases hc.threads j with hj' | ⟨hj', -⟩
          · exact hj'.oneShot
          · exact hj'

theorem Won.step {j : ι} (hc : Won O s₀ ps i a c) (h : Step c j d) : Won O s₀ ps i a d ∧ d.state = c.state := by
  cases h with
  | @mk p s h =>
    -- the winner has its result, and every other program may still read, but its shot is gone
    have rivals : ∀ l, (l = i → (c.threads l).Settled a) ∧ (l ≠ i → (c.threads l).OneShot O) := fun l =>
      ⟨fun hl => hl ▸ hc.winner, hc.losers l⟩
    have hp : ((j = i → p.Settled a) ∧ (j ≠ i → p.OneShot O)) ∧ s = c.state := by
      by_cases hji : j = i
      · subst hji
        obtain ⟨hp, hsame⟩ := hc.winner.step h
        exact ⟨⟨fun _ => hp, absurd rfl⟩, hsame⟩
      · rcases (hc.losers j hji).step h with ⟨hp, hsame⟩ | ⟨hp, hsame, -⟩ | ⟨hO, -⟩
        · exact ⟨⟨fun hj => absurd hj hji, fun _ => hp.oneShot⟩, hsame⟩
        · exact ⟨⟨fun hj => absurd hj hji, fun _ => hp⟩, hsame⟩
        · exact absurd hO hc.closed
    obtain ⟨hp, rfl⟩ := hp
    have after := forall_update (P := fun l q => (l = i → q.Settled a) ∧ (l ≠ i → q.OneShot O)) hp fun l _ => rivals l
    exact ⟨⟨hc.alone, hc.closed, (after i).1 rfl, fun l => (after l).2⟩, rfl⟩

/-- In a race, nobody has won or exactly one program has. -/
theorem race (hO : O s₀) (shots : ∀ i, (ps i).OneShot O) (h : (interleaving ⟨s₀, ps⟩).Reachable c) :
    Open O s₀ ps c ∨ ∃ i a, Won O s₀ ps i a c := by
  refine h.invariant (I := fun c => Open O s₀ ps c ∨ ∃ i a, Won O s₀ ps i a c) (fun c init => ?_)
    fun c i d _ hc _ step => ?_
  · obtain rfl : c = ⟨s₀, ps⟩ := init
    exact Or.inl ⟨rfl, hO, fun j => Or.inr ⟨shots j, rfl⟩⟩
  · rcases hc with hc | ⟨j, a, hc⟩
    · rcases hc.step step with ⟨hd, -⟩ | ⟨a, hd⟩
      · exact Or.inl hd
      · exact Or.inr ⟨i, a, hd⟩
    · exact Or.inr ⟨j, a, (hc.step step).1⟩

omit [DecidableEq ι] in
theorem Open.ne_ret (hc : Open O s₀ ps c) : c.threads i ≠ .ret a := fun h => by
  rcases hc.threads i with hi | ⟨hi, -⟩ <;> rw [h] at hi <;> exact hi

/-- Only the winner succeeds, with the result that it has alone. -/
theorem Won.of_ret {j : ι} {b : α} (hc : Won O s₀ ps i a c) (h : c.threads j = .ret b) : j = i ∧ b = a := by
  by_cases hji : j = i
  · subst hji
    have hwinner := hc.winner
    rw [h] at hwinner
    exact ⟨rfl, hwinner⟩
  · have hloser := hc.losers j hji
    rw [h] at hloser
    exact hloser.elim

/-- After a win the state stays and the winner does not fail. -/
theorem Won.final (hc : Won O s₀ ps i a c) (h : (interleaving c).Reachable d) :
    Won O s₀ ps i a d ∧ d.state = c.state := by
  refine h.invariant (I := fun d => Won O s₀ ps i a d ∧ d.state = c.state) (fun d init => ?_)
    fun d j e _ ⟨hd, hstate⟩ _ step => ?_
  · obtain rfl : d = c := init
    exact ⟨hc, rfl⟩
  · obtain ⟨he, hsame⟩ := hd.step step
    exact ⟨he, hsame.trans hstate⟩

omit [DecidableEq ι] in
theorem Won.ne_fail {e : ε} (hc : Won O s₀ ps i a c) : c.threads i ≠ .fail e := fun h => by
  have hwinner := hc.winner
  rw [h] at hwinner
  exact hwinner

end Race

end Threads
