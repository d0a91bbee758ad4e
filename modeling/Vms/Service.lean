import Vms.Lib.Prog
import Vms.Schema

/-! What the services are written with: the exceptions they throw, the statements they send to the
    database, and their calls to the services outside. Any statement and any outside call may fail. -/

namespace Vms
open Relational

/-- The exceptions of `@nestjs/common`, a plain `Error`, and the errors of the database client by code. -/
inductive HttpException where
  | badRequest (message : String)
  | unauthorized (message : String)
  | forbidden (message : String)
  | notFound (message : String)
  | conflict (message : String)
  | internalServerError (message : String)
  | error (message : String)
  | prisma (code : String)
  deriving DecidableEq, Repr

abbrev Service (α : Type) := Prog Db HttpException α

namespace HttpException

/-- The database does not answer. -/
def connectionLost : HttpException := .prisma "P1001"

/-- A unique constraint failed. -/
def uniqueViolation : HttpException := .prisma "P2002"

/-- A row that the statement refers to does not exist. -/
def foreignKeyViolation : HttpException := .prisma "P2003"

/-- A value does not fit its column. -/
def outOfRange : HttpException := .prisma "P2020"

/-- The row to change does not exist. -/
def rowNotFound : HttpException := .prisma "P2025"

/-- A query argument that the client refuses to send: an undefined key or an Invalid Date. -/
def invalidArgument : HttpException := .prisma "PrismaClientValidationError"

end HttpException

open HttpException

/-- `!value` of an optional string: undefined, null and the empty string are all falsy. -/
def truthy (value : Option String) : Option String := value.filter (· ≠ "")

@[simp] theorem truthy_eq_some {value : Option String} {v : String} :
    truthy value = some v ↔ value = some v ∧ v ≠ "" := by
  simp [truthy, Option.filter_eq_some_iff]

/-- The text functions of JavaScript that the services use. -/
structure Js where
  toLowerCase : String → String
  trim : String → String
  toLocaleString : Date → String

/-! ### Statements -/

def query {α : Type} (f : Db → α) : Service α := .access (fun s => (.ok (f s), s)) connectionLost

/-- A statement that changes the database, or is refused and leaves it as it is. -/
def mutate {α : Type} (op : Db → Except HttpException (α × Db)) : Service α :=
  .access (fun s => match op s with
    | .ok (a, t) => (.ok a, t)
    | .error e => (.error e, s)) connectionLost

/-- The outcome of `create`: the unique keys are checked, then the foreign keys. -/
def created {α : Type} [Row α] (references : Bool) (a : α) (table : Option (Table α)) (store : Table α → Db) :
    Except HttpException (α × Db) :=
  match table with
  | some u => if references then .ok (a, store u) else .error foreignKeyViolation
  | none => .error uniqueViolation

theorem created_eq_ok {α : Type} [Row α] {references : Bool} {a b : α} {table : Option (Table α)}
    {store : Table α → Db} {t : Db} : created references a table store = .ok (b, t) ↔
      references = true ∧ b = a ∧ ∃ u, table = some u ∧ t = store u := by
  unfold created
  cases references <;> cases table <;> simp [eq_comm]

/-- A row is stored, and something is read of it. -/
theorem created_map_eq_ok {α β : Type} [Row α] {references : Bool} {a : α} {table : Option (Table α)} {store : Table α → Db}
    {f : α × Db → β × Db} {x : β × Db} : (created references a table store).map f = .ok x ↔
      references = true ∧ ∃ u, table = some u ∧ f (a, store u) = x := by
  unfold created
  cases references <;> cases table <;> simp [Except.map]

theorem created_eq_error {α : Type} [Row α] {references : Bool} {a : α} {table : Option (Table α)}
    {store : Table α → Db} {e : HttpException} (h : created references a table store = .error e) :
    references = false ∨ table = none := by
  unfold created at h
  cases references
  · exact Or.inl rfl
  · cases table
    · exact Or.inr rfl
    · cases h

/-- A call to a service outside, which has no effect on the database; it fails with `e`. -/
def outside (e : HttpException) : Service Unit := .access (fun s => (.ok (), s)) e

/-- An interactive transaction, as one access: nothing comes between its statements. Postgres runs it at READ COMMITTED
    unless it is told otherwise, where others may commit in between (`Lib/ReadCommitted.lean`). -/
def transaction {α : Type} (p : Service α) : Service α := Prog.transaction p connectionLost

section Rules
variable {α : Type} {Q : Except HttpException α → Db → Prop} {s : Db}

@[simp] theorem post_query {f : Db → α} :
    (query f).Post Q s ↔ Q (.ok (f s)) s ∧ Q (.error connectionLost) s := Prog.post_access

@[simp] theorem returns_query {f : Db → α} : (query f).Returns Q s ↔ Q (.ok (f s)) s := Prog.returns_access

@[simp] theorem post_mutate {op : Db → Except HttpException (α × Db)} :
    (mutate op).Post Q s ↔ ((∀ e, op s = .error e → Q (.error e) s) ∧ ∀ a t, op s = .ok (a, t) → Q (.ok a) t) ∧
      Q (.error connectionLost) s := by
  rw [mutate, Prog.post_access]
  rcases op s with e | ⟨a, t⟩ <;> simp

@[simp] theorem returns_mutate {op : Db → Except HttpException (α × Db)} :
    (mutate op).Returns Q s ↔ (∀ e, op s = .error e → Q (.error e) s) ∧ ∀ a t, op s = .ok (a, t) → Q (.ok a) t := by
  rw [mutate, Prog.returns_access]
  rcases op s with e | ⟨a, t⟩ <;> simp

theorem post_mutate_ok {a : α} {g : Db → Db} :
    (mutate fun s => .ok (a, g s)).Post Q s ↔ Q (.ok a) (g s) ∧ Q (.error connectionLost) s := by simp

/-- A statement that is refused on a condition. -/
theorem post_mutate_ite {c : Db → Prop} [DecidablePred c] {e : HttpException} {a : α} {g : Db → Db} :
    (mutate fun s => if c s then .error e else .ok (a, g s)).Post Q s ↔
      ((c s → Q (.error e) s) ∧ (¬c s → Q (.ok a) (g s))) ∧ Q (.error connectionLost) s := by
  rw [post_mutate]
  split <;> simp [*]

@[simp] theorem post_outside {Q : Except HttpException Unit → Db → Prop} {e : HttpException} :
    (outside e).Post Q s ↔ Q (.ok ()) s ∧ Q (.error e) s := Prog.post_access

@[simp] theorem returns_outside {Q : Except HttpException Unit → Db → Prop} {e : HttpException} :
    (outside e).Returns Q s ↔ Q (.ok ()) s := Prog.returns_access

theorem reads_query {f : Db → α} : (query f).Reads connectionLost := Prog.reads_access (x := fun s => .ok (f s))

@[simp] theorem post_transaction {p : Service α} :
    (transaction p).Post Q s ↔ p.Returns (Prog.Rollback Q s) s ∧ Q (.error connectionLost) s := Prog.post_transaction

@[simp] theorem returns_transaction {p : Service α} :
    (transaction p).Returns Q s ↔ p.Returns (Prog.Rollback Q s) s := Prog.returns_transaction

end Rules

/-- The postcondition of an operation that changes nothing unless it succeeds, and then does `done`. -/
def AllOrNothing {α : Type} (s : Db) (done : α → Db → Prop) (r : Except HttpException α) (t : Db) : Prop :=
  match r with
  | .ok a => done a t
  | .error _ => t = s

section AllOrNothing
variable {α : Type} {s t : Db} {done : α → Db → Prop}

@[simp] theorem allOrNothing_ok {a : α} : AllOrNothing s done (.ok a) t ↔ done a t := Iff.rfl

@[simp] theorem allOrNothing_error {e : HttpException} : AllOrNothing s done (.error e) t ↔ t = s := Iff.rfl

theorem Post.allOrNothing {p : Service α} {done' : α → Db → Prop} (h : p.Post (AllOrNothing s done) s)
    (himp : ∀ a t, done a t → done' a t) : p.Post (AllOrNothing s done') s := by
  refine h.mono fun r t hr => ?_
  cases r with
  | error e => exact hr
  | ok a => exact himp a t hr

/-- A property of the state survives such an operation if it survives a success. -/
theorem Post.state_of_allOrNothing {p : Service α} {P : Db → Prop} (h : p.Post (AllOrNothing s done) s) (hs : P s)
    (himp : ∀ a t, done a t → P t) : p.Post (fun _ t => P t) s := by
  refine h.mono fun r t hr => ?_
  cases r with
  | error e =>
    rw [allOrNothing_error] at hr
    rw [hr]
    exact hs
  | ok a => exact himp a t hr

/-- The postcondition of an operation that does `done`, after which it may still fail, or fails and
    changes nothing. -/
def Attempt (s : Db) (done : Db → Prop) (r : Except HttpException α) (t : Db) : Prop :=
  done t ∨ (t = s ∧ ∃ e, r = .error e)

theorem Attempt.refused {e : HttpException} {done : Db → Prop} : Attempt s done (.error e : Except HttpException α) s :=
  Or.inr ⟨rfl, e, rfl⟩

theorem Attempt.effect {r : Except HttpException α} {done : Db → Prop} (h : done t) : Attempt s done r t := Or.inl h

end AllOrNothing

end Vms
