import Mathlib.Logic.Function.Basic
import Vms.Lib.Prog
import Vms.Lib.System

/-! Transactions that run at the same time under the isolation level READ COMMITTED: a statement sees what
    is committed before it and what its own transaction has written. The writes of a transaction are
    published when it commits and lost when it rolls back. A check that a transaction makes holds when it
    commits only if no rival commits in between (`invariant_of_apart`). -/

namespace Prog
variable {σ ε α β : Type}

/-- Whatever the program reads, what it has written when it succeeds, after `w`, satisfies `W`. -/
def Writes (W : (σ → σ) → Prop) : Prog σ ε α → (σ → σ) → Prop
  | ret _, w => W w
  | fail _, _ => True
  | stmt g k f, w => (∀ s, (k s).Writes W (g ∘ w)) ∧ ∃ e, f = fail e

/-- The program only reads up to its check, which is its statement `n`: where the check sees a state that
    is not free the program fails, and what it writes afterwards satisfies `W`. -/
def Guarded (free : σ → Prop) (W : (σ → σ) → Prop) : Nat → Prog σ ε α → Prop
  | _, ret _ => False
  | _, fail _ => True
  | 0, stmt g k f => (∀ s, g s = s) ∧ (∀ s, (free s ∧ (k s).Writes W id) ∨ ∃ e, k s = fail e) ∧ ∃ e, f = fail e
  | n + 1, stmt g k f => (∀ s, g s = s) ∧ (∀ s, (k s).Guarded free W n) ∧ ∃ e, f = fail e

section Rules
variable {W : (σ → σ) → Prop} {free : σ → Prop} {w : σ → σ} {e : ε} {n : Nat} {op : σ → Except ε α × σ} {h : α → Prog σ ε β}

theorem writes_access {g : σ → σ} (hg : ∀ s, (op s).2 = g s) (hh : ∀ s a, (op s).1 = .ok a → (h a).Writes W (g ∘ w)) :
    (access op e >>= h).Writes W w := by
  obtain rfl : (fun s => (op s).2) = g := funext hg
  refine ⟨fun s => ?_, e, rfl⟩
  show (Prog.bind (ofExcept (op s).1) h).Writes W _
  cases hop : (op s).1 with
  | error e => trivial
  | ok a => exact hh s a hop

theorem guarded_access (still : ∀ s, (op s).2 = s) (hh : ∀ s a, (op s).1 = .ok a → (h a).Guarded free W n) :
    (access op e >>= h).Guarded free W (n + 1) := by
  refine ⟨still, fun s => ?_, e, rfl⟩
  show (Prog.bind (ofExcept (op s).1) h).Guarded free W n
  cases hop : (op s).1 with
  | error e => cases n <;> trivial
  | ok a => exact hh s a hop

theorem guarded_check (still : ∀ s, (op s).2 = s)
    (hh : ∀ s a, (op s).1 = .ok a → (free s ∧ (h a).Writes W id) ∨ ∃ e, h a = fail e) :
    (access op e >>= h).Guarded free W 0 := by
  refine ⟨still, fun s => ?_, e, rfl⟩
  show (free s ∧ (Prog.bind (ofExcept (op s).1) h).Writes W id) ∨ ∃ e, Prog.bind (ofExcept (op s).1) h = fail e
  cases hop : (op s).1 with
  | error e => exact Or.inr ⟨e, rfl⟩
  | ok a => exact hh s a hop

theorem guarded_failIf {c : Prop} [Decidable c] {h : Unit → Prog σ ε β} (hh : ¬c → (h ()).Guarded free W n) :
    (failIf c e >>= h).Guarded free W n := by
  by_cases hc : c
  · rw [failIf_bind_of hc]
    cases n <;> trivial
  · rw [failIf_bind_of_not hc]
    exact hh hc

theorem guarded_orFail {o : Option α} (hh : ∀ a, o = some a → (h a).Guarded free W n) :
    (orFail e o >>= h).Guarded free W n := by
  cases o with
  | none => cases n <;> trivial
  | some a => exact hh a rfl

end Rules

end Prog

/-- A transaction: what it has left to do, how many statements it has taken, and what it has written. -/
structure Txn (σ ε α : Type) where
  rest : Prog σ ε α
  taken : Nat
  writes : σ → σ
  committed : Bool

namespace Txn
variable {σ ε α : Type}

def start (p : Prog σ ε α) : Txn σ ε α := ⟨p, 0, id, false⟩

/-- The transaction has neither committed nor rolled back. -/
def Open (t : Txn σ ε α) : Prop := t.committed = false ∧ ∀ e, t.rest ≠ .fail e

/-- The transaction has taken its statement `n`, and may still commit. -/
def Past (n : Nat) (t : Txn σ ε α) : Prop := n < t.taken ∧ t.Open

end Txn

/-- Transactions over one store. -/
structure Txns (ι σ ε α : Type) where
  store : σ
  txn : ι → Txn σ ε α

namespace Txns
variable {ι σ ε α : Type} [DecidableEq ι]

/-- Change one of the transactions. -/
def set (c : Txns ι σ ε α) (i : ι) (store : σ) (t : Txn σ ε α) : Txns ι σ ε α := ⟨store, Function.update c.txn i t⟩

/-- A statement, which sees the committed rows and the writes of its transaction. -/
def statement (c : Txns ι σ ε α) (i : ι) (g : σ → σ) (k : σ → Prog σ ε α) : Txns ι σ ε α :=
  c.set i c.store { c.txn i with
    rest := k ((c.txn i).writes c.store)
    taken := (c.txn i).taken + 1
    writes := g ∘ (c.txn i).writes }

def commit (c : Txns ι σ ε α) (i : ι) : Txns ι σ ε α :=
  c.set i ((c.txn i).writes c.store) { c.txn i with committed := true }

/-- Any statement may fail, and so may the commit. -/
inductive Step : Txns ι σ ε α → ι → Txns ι σ ε α → Prop where
  | stmt {c i g k f} (h : (c.txn i).rest = .stmt g k f) : Step c i (c.statement i g k)
  | fault {c i g k f} (h : (c.txn i).rest = .stmt g k f) :
    Step c i (c.set i c.store { c.txn i with rest := f, taken := (c.txn i).taken + 1 })
  | commit {c i a} (h : (c.txn i).rest = .ret a) (isOpen : (c.txn i).committed = false) : Step c i (c.commit i)
  | lost {c i a} (h : (c.txn i).rest = .ret a) (isOpen : (c.txn i).committed = false) (e : ε) :
    Step c i (c.set i c.store { c.txn i with rest := .fail e })

def initial (s : σ) (ps : ι → Prog σ ε α) : Txns ι σ ε α := ⟨s, fun i => .start (ps i)⟩

/-- The interleavings of the statements of some transactions. -/
def readCommitted (s : σ) (ps : ι → Prog σ ε α) : System (Txns ι σ ε α) ι where
  init c := c = initial s ps
  step := Step

/-! ### Schedules -/

/-- One statement of transaction `i` that does not fail, or its commit. -/
def advance (c : Txns ι σ ε α) (i : ι) : Txns ι σ ε α :=
  match (c.txn i).rest with
  | .stmt g k _ => c.statement i g k
  | .ret _ => if (c.txn i).committed then c else c.commit i
  | .fail _ => c

theorem advance_step (c : Txns ι σ ε α) (i : ι) : advance c i = c ∨ Step c i (advance c i) := by
  unfold advance
  cases hrest : (c.txn i).rest with
  | stmt g k f => exact Or.inr (.stmt hrest)
  | fail e => exact Or.inl rfl
  | ret a =>
    cases hcommitted : (c.txn i).committed
    · exact Or.inr (.commit hrest hcommitted)
    · exact Or.inl rfl

/-- The statements of the transactions in a given order. -/
def schedule (s : σ) (ps : ι → Prog σ ε α) (is : List ι) : Txns ι σ ε α := is.foldl advance (initial s ps)

theorem reachable_schedule (s : σ) (ps : ι → Prog σ ε α) (is : List ι) :
    (readCommitted s ps).Reachable (schedule s ps is) :=
  System.Reach.schedule advance_step (.init rfl) (System.meets_of_forall fun _ _ => trivial)

/-! ### Windows -/

section Windows
variable {J : σ → Prop} {free : ι → σ → Prop} {W : ι → (σ → σ) → Prop} {check : ι → Nat} {rival : ι → ι → Prop}
  {s : σ} {ps : ι → Prog σ ε α} {c d : Txns ι σ ε α} {i : ι}

/-- If this is the check of transaction `i`, no rival has made its check and may still commit. -/
def Apart (check : ι → Nat) (rival : ι → ι → Prop) (c : Txns ι σ ε α) (i : ι) : Prop :=
  (c.txn i).taken = check i → ∀ j, rival i j → ¬(c.txn j).Past (check j)

/-- A transaction has ended, or has its check before it, or what it checked holds of the store. -/
def Fits (free : σ → Prop) (W : (σ → σ) → Prop) (n : Nat) (s : σ) (t : Txn σ ε α) : Prop :=
  ¬t.Open ∨ (t.taken ≤ n ∧ t.writes = id ∧ t.rest.Guarded free W (n - t.taken)) ∨
    (n < t.taken ∧ free s ∧ t.rest.Writes W t.writes)

/-- Every transaction fits, and no two rivals are past their checks. -/
structure Separate (J : σ → Prop) (free : ι → σ → Prop) (W : ι → (σ → σ) → Prop) (check : ι → Nat)
    (rival : ι → ι → Prop) (c : Txns ι σ ε α) : Prop where
  store : J c.store
  fits : ∀ i, Fits (free i) (W i) (check i) c.store (c.txn i)
  apart : ∀ i j, rival i j → ¬((c.txn i).Past (check i) ∧ (c.txn j).Past (check j))

section Fits
variable {free : σ → Prop} {W : (σ → σ) → Prop} {n : Nat} {t : Txn σ ε α} {g : σ → σ} {k : σ → Prog σ ε α} {f : Prog σ ε α}

theorem not_open_fail {e : ε} (h : t.rest = .fail e) : ¬t.Open := fun hopen => hopen.2 e h

theorem Fits.stmt (h : Fits free W n s t) (hrest : t.rest = .stmt g k f) :
    Fits free W n s { t with rest := k (t.writes s), taken := t.taken + 1, writes := g ∘ t.writes } := by
  rcases h with hended | ⟨htaken, hwrites, hguarded⟩ | ⟨htaken, hfree, hw⟩
  · exact Or.inl fun hopen => hended ⟨hopen.1, fun e he => by rw [hrest] at he; cases he⟩
  · rw [hrest] at hguarded
    obtain hlt | heq := Nat.lt_or_eq_of_le htaken
    · -- a read before the check
      obtain ⟨m, hm⟩ : ∃ m, n - t.taken = m + 1 := ⟨n - t.taken - 1, by omega⟩
      rw [hm] at hguarded
      refine Or.inr (Or.inl ⟨hlt, ?_, ?_⟩)
      · rw [hwrites]
        exact funext hguarded.1
      · have hm' : n - (t.taken + 1) = m := by omega
        rw [hm']
        exact hguarded.2.1 _
    · -- the check itself
      rw [heq, Nat.sub_self] at hguarded
      have hread : g ∘ t.writes = id := by
        rw [hwrites]
        exact funext hguarded.1
      rcases hguarded.2.1 (t.writes s) with ⟨hfree, hw⟩ | ⟨e, he⟩
      · rw [hread]
        refine Or.inr (Or.inr ⟨heq ▸ Nat.lt_succ_self _, ?_, hw⟩)
        simpa [hwrites] using hfree
      · exact Or.inl (not_open_fail he)
  · rw [hrest] at hw
    exact Or.inr (Or.inr ⟨Nat.lt_succ_of_lt htaken, hfree, hw.1 _⟩)

theorem Fits.fault (h : Fits free W n s t) (hrest : t.rest = .stmt g k f) :
    ¬({ t with rest := f, taken := t.taken + 1 } : Txn σ ε α).Open := by
  rcases h with hended | ⟨-, -, hguarded⟩ | ⟨-, -, hw⟩
  · exact fun hopen => hended ⟨hopen.1, fun e he => by rw [hrest] at he; cases he⟩
  · rw [hrest] at hguarded
    obtain ⟨e, rfl⟩ : ∃ e, f = .fail e := by
      cases hm : n - t.taken with
      | zero =>
        rw [hm] at hguarded
        exact hguarded.2.2
      | succ m =>
        rw [hm] at hguarded
        exact hguarded.2.2
    exact not_open_fail rfl
  · rw [hrest] at hw
    obtain ⟨e, rfl⟩ := hw.2
    exact not_open_fail rfl

/-- A transaction that commits is past its check, which still holds, and has made its writes. -/
theorem Fits.commit {a : α} (h : Fits free W n s t) (hrest : t.rest = .ret a) (hopen : t.committed = false) :
    t.Past n ∧ free s ∧ W t.writes := by
  have isOpen : t.Open := ⟨hopen, fun e he => by rw [hrest] at he; cases he⟩
  rcases h with hended | ⟨-, -, hguarded⟩ | ⟨htaken, hfree, hw⟩
  · exact absurd isOpen hended
  · rw [hrest] at hguarded
    cases hm : n - t.taken <;> rw [hm] at hguarded <;> exact hguarded.elim
  · rw [hrest] at hw
    exact ⟨⟨htaken, isOpen⟩, hfree, hw⟩

end Fits

/-- A change of one transaction, and of the store if what the others have checked survives it. -/
theorem Separate.set {t : Txn σ ε α} {u : σ} (h : Separate J free W check rival c) (hu : J u)
    (hfits : Fits (free i) (W i) (check i) u t) (hothers : ∀ j, j ≠ i → Fits (free j) (W j) (check j) u (c.txn j))
    (symm : ∀ i j, rival i j → rival j i) (irrefl : ∀ i, ¬rival i i)
    (hpast : t.Past (check i) → ∀ j, rival i j → ¬(c.txn j).Past (check j)) :
    Separate J free W check rival (c.set i u t) := by
  have hself : (c.set i u t).txn i = t := Function.update_self ..
  have hother : ∀ j, j ≠ i → (c.set i u t).txn j = c.txn j := fun j hj => Function.update_of_ne hj ..
  refine ⟨hu, fun j => ?_, fun j k hrival ⟨hj, hk⟩ => ?_⟩
  · by_cases hji : j = i
    · subst hji
      rw [hself]
      exact hfits
    · rw [hother j hji]
      exact hothers j hji
  · by_cases hji : j = i
    · subst hji
      by_cases hkj : k = j
      · exact irrefl j (hkj ▸ hrival)
      · rw [hself] at hj
        rw [hother k hkj] at hk
        exact hpast hj k hrival hk
    · rw [hother j hji] at hj
      by_cases hki : k = i
      · subst hki
        rw [hself] at hk
        exact hpast hk j (symm _ _ hrival) hj
      · rw [hother k hki] at hk
        exact h.apart j k hrival ⟨hj, hk⟩

theorem Separate.step (h : Separate J free W check rival c) (hstep : Step c i d) (apart : Apart check rival c i)
    (symm : ∀ i j, rival i j → rival j i) (irrefl : ∀ i, ¬rival i i)
    (keeps : ∀ i w s, J s → free i s → W i w → J (w s))
    (frees : ∀ i j w s, i ≠ j → ¬rival i j → J s → free i s → W i w → free j s → free j (w s)) :
    Separate J free W check rival d := by
  have ended : ∀ {t : Txn σ ε α}, ¬t.Open → Separate J free W check rival (c.set i c.store t) := fun hended =>
    h.set h.store (Or.inl hended) (fun j _ => h.fits j) symm irrefl fun hpast => absurd hpast.2 hended
  cases hstep with
  | @stmt g k f hrest =>
    refine h.set h.store ((h.fits i).stmt hrest) (fun j _ => h.fits j) symm irrefl fun hpast j hrival hj => ?_
    have isOpen : (c.txn i).Open := ⟨hpast.2.1, fun e he => by rw [hrest] at he; cases he⟩
    obtain hlt | heq := Nat.lt_or_eq_of_le (Nat.le_of_lt_succ hpast.1)
    · exact h.apart i j hrival ⟨⟨hlt, isOpen⟩, hj⟩
    · exact apart heq.symm j hrival hj
  | @fault g k f hrest => exact ended ((h.fits i).fault hrest)
  | @lost a hrest hopen e => exact ended (not_open_fail rfl)
  | @commit a hrest hopen =>
    obtain ⟨hpast, hfree, hw⟩ := (h.fits i).commit hrest hopen
    have hended : ¬({ c.txn i with committed := true } : Txn σ ε α).Open := fun hopen => nomatch hopen.1
    refine h.set (keeps i _ _ h.store hfree hw) (Or.inl hended) (fun j hji => ?_) symm irrefl
      fun hpast => absurd hpast.2 hended
    rcases h.fits j with hj | hj | ⟨htaken, hfreej, hwj⟩
    · exact Or.inl hj
    · exact Or.inr (Or.inl hj)
    · by_cases hopenj : (c.txn j).Open
      · -- both are past their checks, so they are no rivals
        have hrival : ¬rival i j := fun hrival => h.apart i j hrival ⟨hpast, htaken, hopenj⟩
        exact Or.inr (Or.inr ⟨htaken, frees i j _ _ (Ne.symm hji) hrival h.store hfree hw hfreej, hwj⟩)
      · exact Or.inl hopenj

/-- A property that each transaction keeps where its check passes holds in every run in which no
    transaction makes its check while a rival is between its check and its commit. -/
theorem invariant_of_apart (hs : J s) (guarded : ∀ i, (ps i).Guarded (free i) (W i) (check i))
    (symm : ∀ i j, rival i j → rival j i) (irrefl : ∀ i, ¬rival i i)
    (keeps : ∀ i w s, J s → free i s → W i w → J (w s))
    (frees : ∀ i j w s, i ≠ j → ¬rival i j → J s → free i s → W i w → free j s → free j (w s))
    (h : (readCommitted s ps).Reach (Apart check rival) c) : J c.store := by
  have separate : Separate J free W check rival c := by
    refine h.invariant (fun c hinit => ?_) fun c i d _ inv apart hstep => inv.step hstep apart symm irrefl keeps frees
    obtain rfl : c = initial s ps := hinit
    exact ⟨hs, fun i => Or.inr (Or.inl ⟨Nat.zero_le _, rfl, guarded i⟩), fun i j _ ⟨hi, _⟩ => absurd hi.1 (Nat.not_lt_zero _)⟩
  exact separate.store

end Windows

end Txns
