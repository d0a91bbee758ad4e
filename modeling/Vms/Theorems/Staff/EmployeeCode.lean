import Vms.Theorems.Staff.InStep

/-! The employee codes that `generateUniqueEmployeeCode` returns: it asks for a code that nobody in the
    organisation has, and the table for one that nobody has. -/

namespace Vms.StaffService
open Relational HttpException

/-- A number that `Math.floor(1000 + Math.random() * 9000)` can be. -/
def FourDigits (n : Nat) : Prop := 1000 ≤ n ∧ n < 10000

instance : DecidablePred FourDigits := fun _ => inferInstanceAs (Decidable (_ ∧ _))

/-- The code that an organisation makes of a number. -/
def codeOf (io : Io) (organization : Organization) (n : Nat) : String := s!"{codePrefix io organization.name}{n}"

/-- A staff member of the organisation has the code. -/
def TakenIn (s : Db) (orgId code : String) : Prop := ∃ staff ∈ s.staff, staff.orgId = orgId ∧ staff.employeeCode = some code

section Codes
variable {s : Db} {io : Io} {i : Nat} {organization : Organization} {orgId codePrefix : String} {digits : List Nat}

theorem takenIn_iff {code : String} : TakenIn s orgId code ↔
    (!(s.staff.filter fun staff => staff.employeeCode == some code && staff.orgId == orgId).isEmpty) = true := by
  rw [Bool.not_eq_true', List.isEmpty_eq_false_iff_exists_mem]
  simp only [Table.mem_filter, Bool.and_eq_true, beq_iff_eq, TakenIn]
  exact exists_congr fun staff => and_congr_right fun _ => and_comm

instance {code : String} : Decidable (TakenIn s orgId code) := decidable_of_iff _ takenIn_iff.symm

/-- Different numbers give different codes. -/
theorem codeOf_inj {n m : Nat} (h : codeOf io organization n = codeOf io organization m) : n = m := by
  have digits : toString n = toString m := (String.append_right_inj _).mp h
  have hchars : Nat.toDigits 10 n = Nat.toDigits 10 m := by
    rw [← Nat.toList_repr, ← Nat.toList_repr]
    exact congrArg String.toList digits
  rw [← Nat.ofDigitChars_ten_toDigits (n := n), hchars, Nat.ofDigitChars_ten_toDigits]

/-- The loop returns a code that is free in the organisation, the first one drawn if it is. -/
theorem pickEmployeeCode_spec {Q : Except HttpException String → Db → Prop}
    (expired : (∀ n ∈ digits, TakenIn s orgId s!"{codePrefix}{n}") → Q (.error transactionExpired) s)
    (picked : ∀ n ∈ digits, ¬TakenIn s orgId s!"{codePrefix}{n}" →
      (∀ m, digits.head? = some m → m = n ∨ TakenIn s orgId s!"{codePrefix}{m}") → Q (.ok s!"{codePrefix}{n}") s) :
    (pickEmployeeCode orgId codePrefix digits).Returns Q s := by
  induction digits with
  | nil => exact expired fun n hn => absurd hn List.not_mem_nil
  | cons random rest ih =>
    simp only [pickEmployeeCode, Prog.returns_bind, Prog.then_ok, returns_query]
    split
    · rename_i taken
      have first : TakenIn s orgId s!"{codePrefix}{random}" := takenIn_iff.mpr taken
      refine ih (fun hrest => expired fun n hn => ?_) fun n hn free _ => picked n (List.mem_cons_of_mem _ hn) free ?_
      · rcases List.mem_cons.mp hn with rfl | hn
        · exact first
        · exact hrest n hn
      · rintro _ ⟨⟩
        exact Or.inr first
    · rename_i free
      refine picked random List.mem_cons_self (fun taken => free (takenIn_iff.mp taken)) ?_
      rintro _ ⟨⟩
      exact Or.inl rfl

theorem generateUniqueEmployeeCode_spec {Q : Except HttpException String → Db → Prop} (horg : organization ∈ s.organization)
    (expired : (∀ n ∈ io.employeeCodeDigits i, TakenIn s organization.id (codeOf io organization n)) →
      Q (.error transactionExpired) s)
    (picked : ∀ n ∈ io.employeeCodeDigits i, ¬TakenIn s organization.id (codeOf io organization n) →
      (∀ m, (io.employeeCodeDigits i).head? = some m → m = n ∨ TakenIn s organization.id (codeOf io organization m)) →
      Q (.ok (codeOf io organization n)) s) :
    (generateUniqueEmployeeCode io i organization.id).Returns Q s := by
  have hfind : s.organization.find organization.id = some organization := Table.find_of_mem horg
  simp only [generateUniqueEmployeeCode, Prog.returns_bind, Prog.then_ok, Prog.then_error, returns_query,
    Prog.returns_orFail, hfind, reduceCtorEq, false_implies, true_and, Option.some.injEq]
  rintro _ rfl
  exact pickEmployeeCode_spec expired picked

end Codes

namespace Acme

def io : Io := { Firm.io "1" .stored with employeeCodeDigits := fun _ => [1000] }

def sales : Organization := { id := "sales", name := "Acme Sales", email := "sales@acme.com" }

def labs : Organization := { id := "labs", name := "Acme Labs", email := "labs@acme.com" }

def db : Db where
  organization := ⟨[sales, labs], by decide⟩
  department := {{ id := "desk", orgId := "sales", name := "Desk" }}

/-- Ann is added to the first. -/
def hire : Request where
  orgId := some "sales"
  role := "Admin"
  op := .addStaffMember io { name := "Ann", email := "ann@mail.com", designation := "Clerk", departmentId := "desk" }

end Acme

section Acme
open Acme

end Acme

end Vms.StaffService
