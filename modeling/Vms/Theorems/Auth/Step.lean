import Vms.Auth
import Vms.Lib.Interleave

/-! What the statements of the operations on users may do. A property of single statements holds of an operation if
    it holds of reading, and of what the operation writes. -/

namespace Vms.AuthService
open Relational HttpException

section Statements
variable {G : (Db → Db) → Prop} {compare : String → String → Bool} {io : Io}

theorem always_query {α : Type} {f : Db → α} (still : G id) : (query f).Always G := Prog.always_access still

/-- A statement that does what `P` says, where it is not refused. -/
theorem always_mutate {α : Type} {P : Db → Db → Prop} {op : Db → Except HttpException (α × Db)} (refl : ∀ s, P s s)
    (h : ∀ s a t, op s = .ok (a, t) → P s t) : (mutate op).Always fun g => ∀ s, P s (g s) := by
  have hpost : ∀ s, (mutate op).Returns (fun _ t => P s t) s := fun s => returns_mutate.mpr ⟨fun _ _ => refl s, h s⟩
  refine Prog.always_access fun s => ?_
  have hs := hpost s
  rw [mutate, Prog.returns_access] at hs
  exact hs

theorem always_changeOldPassword {userId oldPassword newPassword : String} (still : G id)
    (updates : ∀ id change keys, (updateUser id change keys).Always G) :
    (changeOldPassword compare io userId oldPassword newPassword).Always G := by
  refine (always_query still).bind fun _ => Prog.always_orFail.bind fun _ => Prog.always_failIf.bind fun _ => ?_
  exact (updates _ _ _).bind fun _ => trivial

theorem always_identify {user : UserCredential} {password : String} {newPassword : Option String} (still : G id)
    (updates : ∀ id change keys, (updateUser id change keys).Always G) :
    (identify compare io user password newPassword).Always G := by
  unfold identify
  split
  · refine Prog.always_failIf.bind fun _ => ?_
    split
    · trivial
    · refine (updates _ _ _).bind fun _ => (updates _ _ _).bind fun _ => (always_query still).bind fun _ => ?_
      exact Prog.always_orFail.bind fun _ => Prog.always_failIf.bind fun _ => Prog.always_failIf.bind fun _ => trivial
  · exact Prog.always_failIf.bind fun _ => Prog.always_failIf.bind fun _ => trivial

theorem always_resetPassword {js : Js} {dto : ResetPasswordDto} (still : G id)
    (updates : ∀ id change keys, (updateUser id change keys).Always G) (deletes : ∀ id, (deleteResetToken id).Always G) :
    (resetPassword js compare io dto).Always G := by
  refine (always_query still).bind fun _ => Prog.always_orFail.bind fun _ => (always_query still).bind fun _ => ?_
  refine Prog.always_orFail.bind fun _ => Prog.always_failIf.bind fun _ => (updates _ _ _).bind fun _ => ?_
  exact (deletes _).bind fun _ => trivial

end Statements

end Vms.AuthService
