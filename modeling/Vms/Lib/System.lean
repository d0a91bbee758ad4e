/-! Labelled transition systems: runs whose steps all meet a condition, and the invariants of such runs. -/

structure System (σ κ : Type) where
  init : σ → Prop
  step : σ → κ → σ → Prop

namespace System
variable {σ κ : Type} {M : System σ κ} {C D : σ → κ → Prop} {I : σ → Prop}

/-- The states of the runs of `M` in which every step meets `C` where it is taken. -/
inductive Reach (M : System σ κ) (C : σ → κ → Prop) : σ → Prop where
  | init {s} (h : M.init s) : Reach M C s
  | step {s c t} (reached : Reach M C s) (meets : C s c) (h : M.step s c t) : Reach M C t

/-- The states of all runs. -/
abbrev Reachable (M : System σ κ) : σ → Prop := M.Reach fun _ _ => True

theorem Reach.mono {s : σ} (h : M.Reach C s) (hCD : ∀ s c, C s c → D s c) : M.Reach D s := by
  induction h with
  | init h => exact .init h
  | step _ meets h ih => exact .step ih (hCD _ _ meets) h

theorem Reach.reachable {s : σ} (h : M.Reach C s) : M.Reachable s := h.mono fun _ _ _ => trivial

/-- An invariant of the initial states that every step keeps. -/
theorem Reach.invariant {s : σ} (h : M.Reach C s) (init : ∀ s, M.init s → I s)
    (step : ∀ s c t, M.Reach C s → I s → C s c → M.step s c t → I t) : I s := by
  induction h with
  | init h => exact init _ h
  | step hr meets h ih => exact step _ _ _ hr ih meets h

/-- Labels taken one after another, each with a step that a function gives. -/
theorem Reach.foldl {run : σ → κ → σ} (hrun : ∀ s c, M.step s c (run s c)) {s : σ} (h : M.Reach C s) {calls : List κ}
    (meets : ∀ t, ∀ c ∈ calls, C t c) : M.Reach C (calls.foldl run s) := by
  induction calls generalizing s with
  | nil => exact h
  | cons c calls ih =>
    exact ih (h.step (meets s c List.mem_cons_self) (hrun s c)) fun t d hd => meets t d (List.mem_cons_of_mem _ hd)

/-- Every label of a sequence meets a condition where it is taken. -/
def Meets (advance : σ → κ → σ) (C : σ → κ → Prop) : σ → List κ → Prop
  | _, [] => True
  | s, c :: cs => C s c ∧ Meets advance C (advance s c) cs

theorem meets_of_forall {advance : σ → κ → σ} (h : ∀ s c, C s c) {s : σ} {cs : List κ} : Meets advance C s cs := by
  induction cs generalizing s with
  | nil => trivial
  | cons c cs ih => exact ⟨h s c, ih⟩

/-- Labels taken one after another, some of which may have no step left. -/
theorem Reach.schedule {advance : σ → κ → σ} (hadvance : ∀ s c, advance s c = s ∨ M.step s c (advance s c)) {s : σ}
    (h : M.Reach C s) {cs : List κ} (meets : Meets advance C s cs) : M.Reach C (cs.foldl advance s) := by
  induction cs generalizing s with
  | nil => exact h
  | cons c cs ih =>
    refine ih ?_ meets.2
    rcases hadvance s c with hstay | hstep
    · rw [hstay]
      exact h
    · exact h.step meets.1 hstep

/-! ### Runs with a log -/

/-- A call of a run: the state before it, and the reply. -/
structure Entry (σ κ ρ : Type) where
  before : σ
  call : κ
  reply : ρ

/-- A state and the calls that led to it, the latest first. -/
structure Run (σ κ ρ : Type) where
  state : σ
  log : List (Entry σ κ ρ)

/-- The run of some calls, each of them answered by a function of the state. -/
def Run.replay {ρ : Type} (answer : κ → σ → ρ × σ) (s : σ) (calls : List κ) : Run σ κ ρ :=
  calls.foldl (fun c k => ⟨(answer k c.state).2, ⟨c.state, k, (answer k c.state).1⟩ :: c.log⟩) ⟨s, []⟩

/-- Calls that reply, with a log of them. -/
def logged {ρ : Type} (init : σ → Prop) (step : σ → κ → ρ → σ → Prop) : System (Run σ κ ρ) κ where
  init c := init c.state ∧ c.log = []
  step c k d := ∃ r, step c.state k r d.state ∧ d.log = ⟨c.state, k, r⟩ :: c.log

theorem Reach.call {ρ : Type} {init : σ → Prop} {step : σ → κ → ρ → σ → Prop} {C : Run σ κ ρ → κ → Prop} {c : Run σ κ ρ}
    {k : κ} {r : ρ} {t : σ} (h : (logged init step).Reach C c) (meets : C c k) (hstep : step c.state k r t) :
    (logged init step).Reach C ⟨t, ⟨c.state, k, r⟩ :: c.log⟩ := h.step meets ⟨r, hstep, rfl⟩

/-- What holds of every call holds of the calls in the log. -/
theorem Reach.entries {ρ : Type} {init : σ → Prop} {step : σ → κ → ρ → σ → Prop} {C : Run σ κ ρ → κ → Prop}
    {P : Entry σ κ ρ → Prop} {c : Run σ κ ρ} (h : (logged init step).Reach C c)
    (calls : ∀ c k r t, C c k → step c.state k r t → P ⟨c.state, k, r⟩) : ∀ entry ∈ c.log, P entry := by
  refine h.invariant (I := fun c => ∀ entry ∈ c.log, P entry) (fun c hinit entry hentry => ?_) fun c k d _ inv meets hstep => ?_
  · rw [hinit.2] at hentry
    cases hentry
  · obtain ⟨r, hr, hlog⟩ := hstep
    rw [hlog]
    intro entry hentry
    rcases List.mem_cons.mp hentry with rfl | hentry
    · exact calls c k r d.state meets hr
    · exact inv entry hentry

/-- What every call establishes about itself, and every later call keeps. -/
theorem Reach.after {ρ : Type} {init : σ → Prop} {step : σ → κ → ρ → σ → Prop} {C : Run σ κ ρ → κ → Prop}
    {J : Entry σ κ ρ → List (Entry σ κ ρ) → σ → Prop} {c : Run σ κ ρ} (h : (logged init step).Reach C c)
    (calls : ∀ c k r t, (logged init step).Reach C c → C c k → step c.state k r t → J ⟨c.state, k, r⟩ [] t)
    (keeps : ∀ c k r t entry later, (logged init step).Reach C c → entry ∈ c.log → J entry later c.state → C c k →
      step c.state k r t → J entry (⟨c.state, k, r⟩ :: later) t) :
    ∀ later entry earlier, c.log = later ++ entry :: earlier → J entry later c.state := by
  refine h.invariant (I := fun c => ∀ later entry earlier, c.log = later ++ entry :: earlier → J entry later c.state)
    (fun c hinit later entry earlier hlog => ?_) fun c k d hr inv meets hstep later entry earlier hlog => ?_
  · rw [hinit.2] at hlog
    simp at hlog
  · obtain ⟨r, hr', hd⟩ := hstep
    rw [hd] at hlog
    cases later with
    | nil =>
      obtain ⟨rfl, -⟩ := List.cons.inj hlog
      exact calls c k r d.state hr meets hr'
    | cons first later =>
      obtain ⟨rfl, hrest⟩ := List.cons.inj hlog
      exact keeps c k r d.state entry later hr (by simp [hrest]) (inv later entry earlier hrest) meets hr'

end System
