/-! Programs over a shared state, one atomic access after another. The same program has three readings:
    `run` follows it alone and without failures, `Exec` follows it alone while any access may fail, and
    `Step` takes one access at a time, so that programs can be interleaved. `Post` and `Returns` are
    the postconditions of the first two. -/

/-- `stmt g k f` changes the state `s` to `g s` and goes on with `k s`; if the access fails, the state
    stays and the program goes on with `f`. -/
inductive Prog (σ ε α : Type) : Type where
  | ret (a : α)
  | fail (e : ε)
  | stmt (g : σ → σ) (k : σ → Prog σ ε α) (f : Prog σ ε α)

namespace Prog
variable {σ ε α β : Type}

protected def bind : Prog σ ε α → (α → Prog σ ε β) → Prog σ ε β
  | ret a, h => h a
  | fail e, _ => fail e
  | stmt g k f, h => stmt g (fun s => (k s).bind h) (f.bind h)

instance : Monad (Prog σ ε) where
  pure := ret
  bind := Prog.bind

/-- Goes on with `h` where `p` fails. -/
def orElse : Prog σ ε α → (ε → Prog σ ε α) → Prog σ ε α
  | ret a, _ => ret a
  | fail e, h => h e
  | stmt g k f, h => stmt g (fun s => (k s).orElse h) (f.orElse h)

def ofExcept : Except ε α → Prog σ ε α
  | .ok a => ret a
  | .error e => fail e

/-- One access to the state: it reads and writes at once, and it may fail with `e`. -/
def access (op : σ → Except ε α × σ) (e : ε) : Prog σ ε α :=
  stmt (fun s => (op s).2) (fun s => ofExcept (op s).1) (fail e)

def failIf (c : Prop) [Decidable c] (e : ε) : Prog σ ε Unit := if c then fail e else ret ()

/-- The value, which the program goes on with, or the failure for its absence. -/
def orFail (e : ε) : Option α → Prog σ ε α
  | some a => ret a
  | none => fail e

/-! ### Sequences -/

theorem bind_assoc {γ : Type} {p : Prog σ ε α} {h : α → Prog σ ε β} {h' : β → Prog σ ε γ} :
    (p >>= h) >>= h' = p >>= fun a => h a >>= h' := by
  induction p with
  | ret a => rfl
  | fail e => rfl
  | stmt g k f ihk ihf =>
    show stmt g (fun s => (k s >>= h) >>= h') ((f >>= h) >>= h') = _
    rw [funext ihk, ihf]
    rfl

theorem failIf_bind_of {c : Prop} [Decidable c] {e : ε} {h : Unit → Prog σ ε β} (hc : c) : (failIf c e >>= h) = fail e := by
  unfold failIf
  rw [if_pos hc]
  rfl

theorem failIf_bind_of_not {c : Prop} [Decidable c] {e : ε} {h : Unit → Prog σ ε β} (hc : ¬c) :
    (failIf c e >>= h) = h () := by
  unfold failIf
  rw [if_neg hc]
  rfl

/-! ### Running alone -/

def run : Prog σ ε α → σ → Except ε α × σ
  | ret a, s => (.ok a, s)
  | fail e, s => (.error e, s)
  | stmt g k _, s => (k s).run (g s)

theorem run_access {op : σ → Except ε α × σ} {e : ε} {s : σ} : (access op e).run s = op s := by
  show (ofExcept (op s).1 : Prog σ ε α).run (op s).2 = op s
  rcases op s with ⟨_ | _, t⟩ <;> rfl

/-- An access and what follows it, by what the access does alone. -/
theorem access_bind {op : σ → Except ε α × σ} {e : ε} {h : α → Prog σ ε β} : (access op e >>= h) =
    stmt (fun s => ((access op e).run s).2) (fun s => ofExcept ((access op e).run s).1 >>= h) (fail e) := by
  simp only [run_access]
  rfl

theorem run_bind_ok {p : Prog σ ε α} {h : α → Prog σ ε β} {s t : σ} {a : α} (hp : p.run s = (.ok a, t)) :
    (p >>= h).run s = (h a).run t := by
  induction p generalizing s with
  | ret b =>
    cases hp
    rfl
  | fail e => cases hp
  | stmt g k f ihk _ => exact ihk s hp

theorem run_bind_error {p : Prog σ ε α} {h : α → Prog σ ε β} {s t : σ} {e : ε} (hp : p.run s = (.error e, t)) :
    (p >>= h).run s = (.error e, t) := by
  induction p generalizing s with
  | ret b => cases hp
  | fail e' =>
    cases hp
    rfl
  | stmt g k f ihk _ => exact ihk s hp

theorem run_bind_congr {p q : Prog σ ε α} {h h' : α → Prog σ ε β} {s : σ} (hp : p.run s = q.run s)
    (hh : ∀ a t, p.run s = (.ok a, t) → (h a).run t = (h' a).run t) : (p >>= h).run s = (q >>= h').run s := by
  rcases hrun : p.run s with ⟨e | a, t⟩
  · rw [run_bind_error hrun, run_bind_error (hp.symm.trans hrun)]
  · rw [run_bind_ok hrun, run_bind_ok (hp.symm.trans hrun)]
    exact hh a t hrun

/-- The effect of `p` as one access: none of its accesses has an effect unless `p` succeeds. -/
def commit (p : Prog σ ε α) (s : σ) : Except ε α × σ :=
  match p.run s with
  | (.ok a, t) => (.ok a, t)
  | (.error e, _) => (.error e, s)

def transaction (p : Prog σ ε α) (e : ε) : Prog σ ε α := access p.commit e

/-- A check changes nothing. -/
theorem state_of_failIf {c : Prop} [Decidable c] {e : ε} {s t : σ} {r : Except ε Unit}
    (h : (failIf c e : Prog σ ε Unit).run s = (r, t)) : t = s := by
  unfold failIf at h
  split at h <;> cases h <;> rfl

theorem run_transaction {p : Prog σ ε α} {e : ε} {s : σ} : (transaction p e).run s = p.commit s := run_access

theorem commit_congr {p q : Prog σ ε α} {s : σ} (h : p.run s = q.run s) : p.commit s = q.commit s := by
  unfold commit
  rw [h]

theorem commit_of_ok {p : Prog σ ε α} {s : σ} {a : α} (h : (p.run s).1 = .ok a) : p.commit s = (.ok a, (p.run s).2) := by
  unfold commit
  rcases hrun : p.run s with ⟨_ | _, t⟩ <;> rw [hrun] at h <;> cases h
  rfl

theorem commit_of_error {p : Prog σ ε α} {s : σ} {e : ε} (h : (p.run s).1 = .error e) : p.commit s = (.error e, s) := by
  unfold commit
  rcases hrun : p.run s with ⟨_ | _, t⟩ <;> rw [hrun] at h <;> cases h
  rfl

/-- `p`, run alone from `s`, may end with `r` in `t`: any of its accesses may fail. -/
inductive Exec : Prog σ ε α → σ → Except ε α → σ → Prop where
  | ret {a s} : Exec (ret a) s (.ok a) s
  | fail {e s} : Exec (fail e) s (.error e) s
  | stmt {g k f s r t} (h : Exec (k s) (g s) r t) : Exec (stmt g k f) s r t
  | fault {g k f s r t} (h : Exec f s r t) : Exec (stmt g k f) s r t

/-- `p`, run alone from `s`, ends with `r` in `t` where either none of its accesses fails, or what fails
    leaves no effect behind. -/
def Settles (p : Prog σ ε α) (s : σ) (r : Except ε α) (t : σ) : Prop := (r, t) = p.run s ∨ (Exec p s r t ∧ t = s)

/-- `p`, run alone from `s`, ends with `r` in `t`, or fails without an effect. -/
def Answers (p : Prog σ ε α) (s : σ) (r : Except ε α) (t : σ) : Prop := (r, t) = p.run s ∨ ((∃ e, r = .error e) ∧ t = s)

theorem settles_run (p : Prog σ ε α) (s : σ) : p.Settles s (p.run s).1 (p.run s).2 := Or.inl rfl

theorem exec_run (p : Prog σ ε α) (s : σ) : Exec p s (p.run s).1 (p.run s).2 := by
  induction p generalizing s with
  | ret a => exact .ret
  | fail e => exact .fail
  | stmt g k f ihk _ => exact .stmt (ihk s (g s))

theorem exec_of_run {p : Prog σ ε α} {s t : σ} {r : Except ε α} (h : p.run s = (r, t)) : Exec p s r t := by
  have hexec := exec_run p s
  rwa [h] at hexec

/-- Where the result is discarded, a success is a success of `p`. -/
theorem Exec.of_discard {p : Prog σ ε α} {s t : σ} (h : Exec (do let _ ← p : Prog σ ε Unit) s (.ok ()) t) :
    ∃ a, Exec p s (.ok a) t := by
  induction p generalizing s with
  | ret a =>
    cases h
    exact ⟨a, .ret⟩
  | fail e => cases h
  | stmt g k f ihk ihf =>
    cases h with
    | stmt h =>
      obtain ⟨a, ha⟩ := ihk s h
      exact ⟨a, .stmt ha⟩
    | fault h =>
      obtain ⟨a, ha⟩ := ihf h
      exact ⟨a, .fault ha⟩

/-- It fails as `p` does. -/
theorem exec_discard_error {p : Prog σ ε α} {s t : σ} {e : ε} :
    Exec (do let _ ← p : Prog σ ε Unit) s (.error e) t ↔ Exec p s (.error e) t := by
  induction p generalizing s with
  | ret a => exact iff_of_false (by intro h; cases h) (by intro h; cases h)
  | fail e' =>
    constructor <;> (intro h; cases h; exact .fail)
  | stmt g k f ihk ihf =>
    constructor
    · intro h
      cases h with
      | stmt h => exact .stmt ((ihk s).mp h)
      | fault h => exact .fault (ihf.mp h)
    · intro h
      cases h with
      | stmt h => exact .stmt ((ihk s).mpr h)
      | fault h => exact .fault (ihf.mpr h)

/-! ### Postconditions -/

/-- Every execution of `p` from `s` ends in `Q`. -/
def Post : Prog σ ε α → (Except ε α → σ → Prop) → σ → Prop
  | ret a, Q, s => Q (.ok a) s
  | fail e, Q, s => Q (.error e) s
  | stmt g k f, Q, s => (k s).Post Q (g s) ∧ f.Post Q s

/-- The execution of `p` from `s` in which no access fails ends in `Q`. -/
def Returns (p : Prog σ ε α) (Q : Except ε α → σ → Prop) (s : σ) : Prop := Q (p.run s).1 (p.run s).2

variable {p : Prog σ ε α} {h : α → Prog σ ε β} {Q Q' : Except ε α → σ → Prop} {s t : σ} {r : Except ε α}

theorem Post.of_exec (hQ : p.Post Q s) (he : Exec p s r t) : Q r t := by
  induction he with
  | ret => exact hQ
  | fail => exact hQ
  | stmt _ ih => exact ih hQ.1
  | fault _ ih => exact ih hQ.2

theorem post_iff : p.Post Q s ↔ ∀ r t, Exec p s r t → Q r t := by
  refine ⟨fun hQ r t he => hQ.of_exec he, fun hQ => ?_⟩
  induction p generalizing s with
  | ret a => exact hQ _ _ .ret
  | fail e => exact hQ _ _ .fail
  | stmt g k f ihk ihf =>
    exact ⟨ihk s fun r t he => hQ r t (.stmt he), ihf fun r t he => hQ r t (.fault he)⟩

/-- What no postcondition can rule out may happen. -/
theorem exec_of_not_post (h : ¬p.Post (fun r' t' => ¬(r' = r ∧ t' = t)) s) : Exec p s r t := by
  refine Classical.byContradiction fun hexec => h (post_iff.mpr fun r' t' he heq => hexec ?_)
  obtain ⟨rfl, rfl⟩ := heq
  exact he

theorem Post.mono (hQ : p.Post Q s) (himp : ∀ r t, Q r t → Q' r t) : p.Post Q' s :=
  post_iff.mpr fun r t he => himp r t (hQ.of_exec he)

theorem Post.returns (hQ : p.Post Q s) : p.Returns Q s := hQ.of_exec (exec_run p s)

theorem Returns.mono (hQ : p.Returns Q s) (himp : ∀ r t, Q r t → Q' r t) : p.Returns Q' s := himp _ _ hQ

/-- Where what fails leaves no effect behind, a property of the state has only to survive an execution
    without failures. -/
theorem Settles.of_returns {P : σ → Prop} (h : p.Settles s r t) (hs : P s) (hp : p.Returns (fun _ t => P t) s) : P t := by
  rcases h with hrun | ⟨-, rfl⟩
  · rw [show t = (p.run s).2 from congrArg Prod.snd hrun]
    exact hp
  · exact hs

theorem answers_run (p : Prog σ ε α) (s : σ) : p.Answers s (p.run s).1 (p.run s).2 := Or.inl rfl

theorem Answers.of_returns (h : p.Answers s r t) (fails : ∀ e, Q (.error e) s) (hp : p.Returns Q s) : Q r t := by
  rcases h with hrun | ⟨⟨e, rfl⟩, rfl⟩
  · obtain ⟨rfl, rfl⟩ := Prod.mk.inj hrun
    exact hp
  · exact fails e

/-- How the postcondition of `p >>= h` reads at the end of `p`. -/
def Then (h : α → Prog σ ε β) (post : Prog σ ε β → (Except ε β → σ → Prop) → σ → Prop)
    (Q : Except ε β → σ → Prop) (r : Except ε α) (t : σ) : Prop :=
  match r with
  | .ok a => post (h a) Q t
  | .error e => Q (.error e) t

@[simp] theorem then_ok {post : Prog σ ε β → (Except ε β → σ → Prop) → σ → Prop} {Q : Except ε β → σ → Prop} {a : α} :
    Then h post Q (.ok a) t = post (h a) Q t := rfl

@[simp] theorem then_error {post : Prog σ ε β → (Except ε β → σ → Prop) → σ → Prop} {Q : Except ε β → σ → Prop} {e : ε} :
    Then h post Q (.error e) t = Q (.error e) t := rfl

section Bind
variable {Q : Except ε β → σ → Prop}

@[simp] theorem post_bind : (p >>= h).Post Q s ↔ p.Post (Then h Post Q) s := by
  induction p generalizing s with
  | ret a => exact Iff.rfl
  | fail e => exact Iff.rfl
  | stmt g k f ihk ihf => exact and_congr (ihk s) ihf

@[simp] theorem returns_bind : (p >>= h).Returns Q s ↔ p.Returns (Then h Returns Q) s := by
  induction p generalizing s with
  | ret a => exact Iff.rfl
  | fail e => exact Iff.rfl
  | stmt g k f ihk ihf => exact ihk s

end Bind

/-- How the postcondition of `p.orElse h` reads at the end of `p`. -/
def Else (h : ε → Prog σ ε α) (post : Prog σ ε α → (Except ε α → σ → Prop) → σ → Prop)
    (Q : Except ε α → σ → Prop) (r : Except ε α) (t : σ) : Prop :=
  match r with
  | .ok a => Q (.ok a) t
  | .error e => post (h e) Q t

section OrElse
variable {h : ε → Prog σ ε α}

@[simp] theorem else_ok {post : Prog σ ε α → (Except ε α → σ → Prop) → σ → Prop} {a : α} :
    Else h post Q (.ok a) t = Q (.ok a) t := rfl

@[simp] theorem else_error {post : Prog σ ε α → (Except ε α → σ → Prop) → σ → Prop} {e : ε} :
    Else h post Q (.error e) t = post (h e) Q t := rfl

@[simp] theorem post_orElse : (p.orElse h).Post Q s ↔ p.Post (Else h Post Q) s := by
  induction p generalizing s with
  | ret a => exact Iff.rfl
  | fail e => exact Iff.rfl
  | stmt g k f ihk ihf => exact and_congr (ihk s) ihf

@[simp] theorem returns_orElse : (p.orElse h).Returns Q s ↔ p.Returns (Else h Returns Q) s := by
  induction p generalizing s with
  | ret a => exact Iff.rfl
  | fail e => exact Iff.rfl
  | stmt g k f ihk ihf => exact ihk s

end OrElse

@[simp] theorem post_pure {a : α} : (pure a : Prog σ ε α).Post Q s ↔ Q (.ok a) s := Iff.rfl
@[simp] theorem post_ret {a : α} : (ret a : Prog σ ε α).Post Q s ↔ Q (.ok a) s := Iff.rfl
@[simp] theorem post_fail {e : ε} : (fail e : Prog σ ε α).Post Q s ↔ Q (.error e) s := Iff.rfl
@[simp] theorem returns_pure {a : α} : (pure a : Prog σ ε α).Returns Q s ↔ Q (.ok a) s := Iff.rfl
@[simp] theorem returns_ret {a : α} : (ret a : Prog σ ε α).Returns Q s ↔ Q (.ok a) s := Iff.rfl
@[simp] theorem returns_fail {e : ε} : (fail e : Prog σ ε α).Returns Q s ↔ Q (.error e) s := Iff.rfl

@[simp] theorem post_ofExcept {x : Except ε α} : (ofExcept x : Prog σ ε α).Post Q s ↔ Q x s := by cases x <;> exact Iff.rfl

@[simp] theorem returns_ofExcept {x : Except ε α} : (ofExcept x : Prog σ ε α).Returns Q s ↔ Q x s := by
  cases x <;> exact Iff.rfl

@[simp] theorem post_access {op : σ → Except ε α × σ} {e : ε} :
    (access op e).Post Q s ↔ Q (op s).1 (op s).2 ∧ Q (.error e) s := and_congr post_ofExcept Iff.rfl

@[simp] theorem returns_access {op : σ → Except ε α × σ} {e : ε} :
    (access op e).Returns Q s ↔ Q (op s).1 (op s).2 :=
  returns_ofExcept (x := (op s).1) (s := (op s).2) (Q := Q)

@[simp] theorem post_failIf {Q : Except ε Unit → σ → Prop} {c : Prop} [Decidable c] {e : ε} :
    (failIf c e : Prog σ ε Unit).Post Q s ↔ (c → Q (.error e) s) ∧ (¬c → Q (.ok ()) s) := by
  unfold failIf
  split <;> simp [*]

@[simp] theorem returns_failIf {Q : Except ε Unit → σ → Prop} {c : Prop} [Decidable c] {e : ε} :
    (failIf c e : Prog σ ε Unit).Returns Q s ↔ (c → Q (.error e) s) ∧ (¬c → Q (.ok ()) s) := by
  unfold failIf
  split <;> simp [*]

/-- A program that starts with a check: the check fails, or the program goes on. -/
theorem returns_refused {c : Prop} [Decidable c] {e : ε} {h : Unit → Prog σ ε β} {Q : Except ε β → σ → Prop} (hc : c) :
    (failIf c e >>= h).Returns Q s ↔ Q (.error e) s := by
  simp [hc]

theorem returns_allowed {c : Prop} [Decidable c] {e : ε} {h : Unit → Prog σ ε β} {Q : Except ε β → σ → Prop} (hc : ¬c) :
    (failIf c e >>= h).Returns Q s ↔ (h ()).Returns Q s := by
  simp [hc]

@[simp] theorem post_orFail {o : Option α} {e : ε} :
    (orFail e o : Prog σ ε α).Post Q s ↔ (o = none → Q (.error e) s) ∧ ∀ a, o = some a → Q (.ok a) s := by
  cases o <;> simp [orFail]

@[simp] theorem returns_orFail {o : Option α} {e : ε} :
    (orFail e o : Prog σ ε α).Returns Q s ↔ (o = none → Q (.error e) s) ∧ ∀ a, o = some a → Q (.ok a) s := by
  cases o <;> simp [orFail]

/-- A postcondition about the state alone does not ask for the result. -/
theorem post_discard {P : σ → Prop} :
    (do let _ ← p : Prog σ ε Unit).Post (fun _ t => P t) s ↔ p.Post (fun _ t => P t) s := by
  rw [post_bind]
  exact iff_of_eq (congrArg (p.Post · s) (funext fun r => by cases r <;> rfl))

theorem returns_discard {P : σ → Prop} :
    (do let _ ← p : Prog σ ε Unit).Returns (fun _ t => P t) s ↔ p.Returns (fun _ t => P t) s := by
  rw [returns_bind]
  exact iff_of_eq (congrArg (p.Returns · s) (funext fun r => by cases r <;> rfl))

/-- A property of the state that both parts of a sequence keep. -/
theorem Returns.bind_state {P : σ → Prop} (hp : p.Returns (fun _ t => P t) s)
    (hh : ∀ a t, P t → (h a).Returns (fun _ u => P u) t) : (p >>= h).Returns (fun _ t => P t) s := by
  rw [returns_bind]
  refine Returns.mono hp fun r t ht => ?_
  cases r with
  | error e => exact ht
  | ok a => exact hh a t ht

theorem Returns.orElse_state {P : σ → Prop} {h : ε → Prog σ ε α} (hp : p.Returns (fun _ t => P t) s)
    (hh : ∀ e t, P t → (h e).Returns (fun _ u => P u) t) : (p.orElse h).Returns (fun _ t => P t) s := by
  rw [returns_orElse]
  refine Returns.mono hp fun r t ht => ?_
  cases r with
  | error e => exact hh e t ht
  | ok a => exact ht

/-- A postcondition about the result of a program whose result is mapped. -/
theorem returns_map {f : α → β} {P : Except ε β → Prop} :
    (do let a ← p; return f a : Prog σ ε β).Returns (fun r _ => P r) s ↔ p.Returns (fun r _ => P (r.map f)) s := by
  rw [returns_bind]
  exact iff_of_eq (congrArg (p.Returns · s) (funext fun r => by cases r <;> rfl))

/-- At the end of a transaction: what a success leaves, or the state before. -/
def Rollback (Q : Except ε α → σ → Prop) (s : σ) (r : Except ε α) (t : σ) : Prop :=
  match r with
  | .ok a => Q (.ok a) t
  | .error e => Q (.error e) s

@[simp] theorem rollback_ok {a : α} : Rollback Q s (.ok a) t = Q (.ok a) t := rfl
@[simp] theorem rollback_error {e : ε} : Rollback Q s (.error e) t = Q (.error e) s := rfl

theorem rollback_commit : Q (p.commit s).1 (p.commit s).2 ↔ p.Returns (Rollback Q s) s := by
  unfold Returns
  cases h : (p.run s).1 with
  | ok a => rw [commit_of_ok h, rollback_ok]
  | error e => rw [commit_of_error h, rollback_error]

theorem returns_transaction {e : ε} : (transaction p e).Returns Q s ↔ p.Returns (Rollback Q s) s := by
  rw [transaction, returns_access]
  exact rollback_commit

theorem post_transaction {e : ε} :
    (transaction p e).Post Q s ↔ p.Returns (Rollback Q s) s ∧ Q (.error e) s := by
  rw [transaction, post_access]
  exact and_congr_left fun _ => rollback_commit

/-! ### What an execution may change -/

section Relation
variable {R : σ → σ → Prop} (trans : ∀ {a b c}, R a b → R b c → R a c)
include trans

/-- A transitive relation between the states before and after holds of a sequence if it holds of its parts. -/
theorem Post.bind_rel (hp : p.Post (fun _ t => R s t) s) (hh : ∀ a t, R s t → (h a).Post (fun _ u => R t u) t) :
    (p >>= h).Post (fun _ t => R s t) s := by
  rw [post_bind]
  refine hp.mono fun r t ht => ?_
  cases r with
  | error e => exact ht
  | ok a => exact (hh a t ht).mono fun _ _ hu => trans ht hu

theorem Post.orElse_rel {h : ε → Prog σ ε α} (hp : p.Post (fun _ t => R s t) s)
    (hh : ∀ e t, R s t → (h e).Post (fun _ u => R t u) t) : (p.orElse h).Post (fun _ t => R s t) s := by
  rw [post_orElse]
  refine hp.mono fun r t ht => ?_
  cases r with
  | error e => exact (hh e t ht).mono fun _ _ hu => trans ht hu
  | ok a => exact ht

end Relation

theorem Post.transaction_rel {R : σ → σ → Prop} {e : ε} (refl : R s s) (hp : p.Post (fun _ t => R s t) s) :
    (transaction p e).Post (fun _ t => R s t) s :=
  post_transaction.mpr ⟨hp.returns.mono fun r _ ht => by cases r <;> assumption, refl⟩

/-! ### Programs that only read -/

/-- `p` leaves the state as it is, and ends with `e` if an access fails. -/
def Reads (e : ε) : Prog σ ε α → Prop
  | ret _ => True
  | fail _ => True
  | stmt g k f => (∀ s, g s = s) ∧ f = fail e ∧ ∀ s, (k s).Reads e

section Reads
variable {e : ε}

theorem Reads.bind (hp : p.Reads e) (hh : ∀ a, (h a).Reads e) : (p >>= h).Reads e := by
  induction p with
  | ret a => exact hh a
  | fail e => trivial
  | stmt g k f ihk _ =>
    obtain ⟨hg, rfl, hk⟩ := hp
    exact ⟨hg, rfl, fun s => ihk s (hk s)⟩

theorem reads_pure {a : α} : (pure a : Prog σ ε α).Reads e := trivial

theorem reads_failIf {c : Prop} [Decidable c] {e' : ε} : (failIf c e' : Prog σ ε Unit).Reads e := by
  unfold failIf
  split <;> trivial

theorem reads_orFail {o : Option α} {e' : ε} : (orFail e' o : Prog σ ε α).Reads e := by cases o <;> trivial

theorem reads_ofExcept {x : Except ε α} : (ofExcept x : Prog σ ε α).Reads e := by cases x <;> trivial

theorem reads_access {x : σ → Except ε α} : (access (fun s => (x s, s)) e).Reads e :=
  ⟨fun _ => rfl, rfl, fun _ => reads_ofExcept⟩

/-- A program that only reads ends as it does without failures, or with `e`, and then it may end so
    in every state. -/
theorem Reads.exec (hp : p.Reads e) (he : Exec p s r t) : r = (p.run s).1 ∨ (r = .error e ∧ ∀ u, Exec p u (.error e) u) := by
  induction he with
  | ret => exact Or.inl rfl
  | fail => exact Or.inl rfl
  | stmt _ ih =>
    obtain ⟨hg, rfl, hk⟩ := hp
    rcases ih (hk _) with hr | ⟨hr, -⟩
    · exact Or.inl hr
    · exact Or.inr ⟨hr, fun u => .fault .fail⟩
  | fault he =>
    obtain ⟨hg, rfl, hk⟩ := hp
    cases he
    exact Or.inr ⟨rfl, fun u => .fault .fail⟩

end Reads

/-! ### Taking one access at a time -/

inductive Step : Prog σ ε α → σ → Prog σ ε α → σ → Prop where
  | stmt {g k f s} : Step (stmt g k f) s (k s) (g s)
  | fault {g k f s} : Step (stmt g k f) s f s

end Prog
