import Vms.Lib.System

/-! Codes that are stored until they are used. A new code takes the place of an unused one, so a code that opens
    is the latest, and nobody has used it. -/

namespace System
variable {σ κ ρ τ : Type}

/-- Where a code is stored, which codes open what is stored, and the calls that issue and redeem them. -/
structure OneTimeCode (σ κ ρ τ : Type) where
  stored : σ → Option τ
  opens : τ → String → Prop
  issues : String → Entry σ κ ρ → Prop
  redeems : String → Entry σ κ ρ → Prop

namespace OneTimeCode
variable {M : OneTimeCode σ κ ρ τ} {log later earlier : List (Entry σ κ ρ)} {entry : Entry σ κ ρ} {s t : σ} {code : String}

/-- What is stored opens with the code alone. -/
def Seals (M : OneTimeCode σ κ ρ τ) (code : String) (row : τ) : Prop := ∀ code', M.opens row code' ↔ code' = code

/-- How a call treats the code. -/
structure Handles (M : OneTimeCode σ κ ρ τ) (entry : Entry σ κ ρ) (t : σ) : Prop where
  issued : ∀ code, M.issues code entry → ∃ row, M.stored t = some row ∧ M.Seals code row
  redeemed : ∀ code, M.redeems code entry → M.stored t = none ∧ ∃ row, M.stored entry.before = some row ∧ M.opens row code
  kept : (∀ code, ¬M.issues code entry) → (∀ code, ¬M.redeems code entry) → M.stored t = M.stored entry.before

/-- The code was issued by the latest call that issued or redeemed one. -/
def Latest (M : OneTimeCode σ κ ρ τ) (code : String) (log : List (Entry σ κ ρ)) : Prop :=
  ∃ between issue before, log = between ++ issue :: before ∧ M.issues code issue ∧
    ∀ e ∈ between, ∀ code', ¬M.issues code' e ∧ ¬M.redeems code' e

theorem latest_of_issues (h : M.issues code entry) : M.Latest code (entry :: log) := by
  refine ⟨[], entry, log, rfl, h, fun e he => ?_⟩
  cases he

theorem Latest.cons (h : M.Latest code log) (quiet : ∀ code', ¬M.issues code' entry ∧ ¬M.redeems code' entry) :
    M.Latest code (entry :: log) := by
  obtain ⟨between, issue, before, rfl, issued, hbetween⟩ := h
  refine ⟨entry :: between, issue, before, rfl, issued, fun e he => ?_⟩
  rcases List.mem_cons.mp he with rfl | he
  · exact quiet
  · exact hbetween e he

/-- A stored code is the latest, and every code that was redeemed was the latest. -/
structure InOrder (M : OneTimeCode σ κ ρ τ) (c : Run σ κ ρ) : Prop where
  stored : ∀ row, M.stored c.state = some row → ∃ code, M.Seals code row ∧ M.Latest code c.log
  redeemed : ∀ later entry earlier, c.log = later ++ entry :: earlier → ∀ code, M.redeems code entry → M.Latest code earlier

theorem InOrder.init (hs : M.stored s = none) : M.InOrder ⟨s, []⟩ where
  stored row hrow := by
    rw [hs] at hrow
    cases hrow
  redeemed later entry earlier hlog := by simp at hlog

theorem InOrder.step {k : κ} {r : ρ} (h : M.InOrder ⟨s, log⟩) (handles : M.Handles ⟨s, k, r⟩ t) :
    M.InOrder ⟨t, ⟨s, k, r⟩ :: log⟩ := by
  constructor
  · intro row hrow
    by_cases hissues : ∃ code, M.issues code ⟨s, k, r⟩
    · obtain ⟨code, hcode⟩ := hissues
      obtain ⟨row', hrow', seals⟩ := handles.issued code hcode
      obtain rfl := Option.some.inj (hrow.symm.trans hrow')
      exact ⟨code, seals, latest_of_issues hcode⟩
    · have noIssue : ∀ code, ¬M.issues code ⟨s, k, r⟩ := fun code hcode => hissues ⟨code, hcode⟩
      have noRedeem : ∀ code, ¬M.redeems code ⟨s, k, r⟩ := fun code hcode => by
        have hnone := (handles.redeemed code hcode).1
        rw [hrow] at hnone
        cases hnone
      have hbefore : M.stored s = some row := (handles.kept noIssue noRedeem).symm.trans hrow
      obtain ⟨code, seals, latest⟩ := h.stored row hbefore
      exact ⟨code, seals, latest.cons fun code' => ⟨noIssue code', noRedeem code'⟩⟩
  · intro later entry earlier hlog code hcode
    cases later with
    | nil =>
      obtain ⟨rfl, rfl⟩ := List.cons.inj hlog
      obtain ⟨-, row, hrow, hopens⟩ := handles.redeemed code hcode
      obtain ⟨code', seals, latest⟩ := h.stored row hrow
      obtain rfl := (seals code).mp hopens
      exact latest
    | cons first later =>
      obtain ⟨-, hrest⟩ := List.cons.inj hlog
      exact h.redeemed later entry earlier hrest code hcode

/-- In a run whose calls all treat the code so, it is always the latest code that is redeemed. -/
theorem inOrder_of_reach {init : σ → Prop} {step : σ → κ → ρ → σ → Prop} {C : Run σ κ ρ → κ → Prop} {c : Run σ κ ρ}
    (h : (logged init step).Reach C c) (none : ∀ s, init s → M.stored s = none)
    (handles : ∀ c k r t, C c k → step c.state k r t → M.Handles ⟨c.state, k, r⟩ t) : M.InOrder c := by
  refine h.invariant (fun c hinit => ?_) fun c k d _ inv meets hstep => ?_
  · obtain ⟨s, log⟩ := c
    obtain ⟨hs, rfl⟩ : init s ∧ log = [] := hinit
    exact .init (none s hs)
  · obtain ⟨s, log⟩ := c
    obtain ⟨t, log'⟩ := d
    obtain ⟨r, hr, rfl⟩ : ∃ r, step s k r t ∧ log' = ⟨s, k, r⟩ :: log := hstep
    exact inv.step (handles _ k r t meets hr)

end OneTimeCode
end System
