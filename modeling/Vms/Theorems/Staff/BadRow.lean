import Mathlib.Data.Finset.Card
import Mathlib.Order.Interval.Finset.Nat
import Vms.Theorems.Auth.Email
import Vms.Theorems.Staff.BulkImport

/-! When a bulk import gets past its rows. A row that is refused by one of the two checks is reported; one that
    the table refuses sinks the import: its email may belong to a credential alone, and its employee code to
    another organisation. -/

namespace Vms.StaffService
open Relational HttpException

/-! ### The rows that succeed, alone -/

/-- The draws of the entries `f 0`, `f 1` and so on. -/
def Io.reindex (io : Io) (f : Nat → Nat) : Io :=
  { io with
    staffId := io.staffId ∘ f
    userId := io.userId ∘ f
    userId_ne := fun i => io.userId_ne (f i)
    employeeCodeDigits := io.employeeCodeDigits ∘ f
    passwordDigits := io.passwordDigits ∘ f }

/-- The rows of a request that succeeded, each with its place. -/
def kept (staffList : List (AddStaffMemberDto × Nat)) (details : List Result) : List (AddStaffMemberDto × Nat) :=
  ((staffList.zip details).filter (·.2.success)).map (·.1)

section Alone
variable {js : Js} {s t : Db} {io : Io} {organization : Organization} {staffList : List AddStaffMemberDto}
  {rows : List (AddStaffMemberDto × Nat)} {results : List Result} {i : Nat}

end Alone

/-! ### Rows that are not refused -/

/-- The row passes both checks. -/
def needed (js : Js) (s : Db) (organization : Organization) (dto : AddStaffMemberDto) : Bool :=
  (s.staff.findBy (·.email == emailOf js dto)).isNone &&
    !(s.department.filter fun department => department.name == dto.departmentId && department.orgId == organization.id).isEmpty

/-- The emails of the rows that pass both checks. -/
def newEmails (js : Js) (s : Db) (organization : Organization) (staffList : List AddStaffMemberDto) : Finset String :=
  ((staffList.filter (needed js s organization)).map (emailOf js)).toFinset

/-- The numbers whose codes nobody in the organisation has. -/
def freeNumbers (s : Db) (io : Io) (organization : Organization) : Finset Nat :=
  (Finset.Ico 1000 10000).filter fun n => ¬TakenIn s organization.id (codeOf io organization n)

/-- The new emails belong to no credential, and there is a number for each of them. -/
structure RoomFor (js : Js) (s : Db) (io : Io) (organization : Organization) (staffList : List AddStaffMemberDto) : Prop where
  emails : ∀ email ∈ newEmails js s organization staffList, ∀ user ∈ s.userCredential, user.email ≠ email
  enough : (newEmails js s organization staffList).card ≤ (freeNumbers s io organization).card

/-- No other organisation has a code of the making of this one. -/
def Apart (s : Db) (io : Io) (organization : Organization) : Prop :=
  ∀ n, FourDigits n → ∀ staff ∈ s.staff, staff.orgId ≠ organization.id → staff.employeeCode ≠ some (codeOf io organization n)

/-- The identifiers that are drawn are fresh, and every number of four digits is drawn at some time. -/
structure Sound (s : Db) (io : Io) (i : Nat) : Prop where
  staffId : ∀ j, i ≤ j → ∀ staff ∈ s.staff, staff.id ≠ io.staffId j
  linked : ∀ j, i ≤ j → ∀ staff ∈ s.staff, staff.userId ≠ some (io.userId j)
  userId : ∀ j, i ≤ j → ∀ user ∈ s.userCredential, user.id ≠ io.userId j
  staffId_inj : Function.Injective io.staffId
  userId_inj : Function.Injective io.userId
  digits : ∀ j n, n ∈ io.employeeCodeDigits j ↔ FourDigits n

section Step
variable {js : Js} {s t : Db} {io : Io} {i n : Nat} {organization : Organization} {dto : AddStaffMemberDto}
  {departmentId : String} {staffList : List AddStaffMemberDto}

theorem mem_newEmails {email : String} : email ∈ newEmails js s organization staffList ↔
    ∃ dto ∈ staffList, needed js s organization dto = true ∧ emailOf js dto = email := by
  simp only [newEmails, List.mem_toFinset, List.mem_map, List.mem_filter, and_assoc]

theorem mem_freeNumbers : n ∈ freeNumbers s io organization ↔
    FourDigits n ∧ ¬TakenIn s organization.id (codeOf io organization n) := by
  rw [freeNumbers, Finset.mem_filter, Finset.mem_Ico]
  exact Iff.rfl

theorem newEmails_cons_of_not (h : needed js s organization dto = false) :
    newEmails js s organization (dto :: staffList) = newEmails js s organization staffList := by
  simp [newEmails, h]

theorem mem_newEmails_cons (h : needed js s organization dto = true) :
    emailOf js dto ∈ newEmails js s organization (dto :: staffList) :=
  mem_newEmails.mpr ⟨dto, List.mem_cons_self, h, rfl⟩

/-- A row is refused, or adds its two rows if their keys are free. -/
theorem addOne_spec {Q : Except HttpException Result → Db → Prop} (horg : organization ∈ s.organization)
    (skipped : needed js s organization dto = false → ∀ result, Q (.ok result) s)
    (expired : needed js s organization dto = true →
      (∀ n ∈ io.employeeCodeDigits i, TakenIn s organization.id (codeOf io organization n)) → Q (.error transactionExpired) s)
    (refused : needed js s organization dto = true → ∀ n ∈ io.employeeCodeDigits i,
      ¬TakenIn s organization.id (codeOf io organization n) →
      ¬Free s io i (emailOf js dto) (codeOf io organization n) → ∀ e t, Q (.error e) t)
    (stored : needed js s organization dto = true → ∀ n ∈ io.employeeCodeDigits i,
      Free s io i (emailOf js dto) (codeOf io organization n) →
      (∀ m, (io.employeeCodeDigits i).head? = some m → m = n ∨ TakenIn s organization.id (codeOf io organization m)) →
      ∀ departmentId t, Added s (newStaff io i organization dto (emailOf js dto) departmentId (codeOf io organization n))
        (newUser io i organization (emailOf js dto)) t → ∀ result, Q (.ok result) t) :
    (addOne js io organization dto i).Returns Q s := by
  simp only [addOne, Prog.returns_bind, returns_query, Prog.then_ok]
  split
  · rename_i hexists
    have hnot : needed js s organization dto = false := by
      rw [needed, emailOf, Option.isNone_eq_false_iff.mpr hexists, Bool.false_and]
    exact skipped hnot _
  · rename_i hfree
    simp only [Prog.returns_bind, returns_query, Prog.then_ok]
    split
    · rename_i hnone
      have hnot : needed js s organization dto = false := by
        rw [needed, RowOrder.first_eq_none.mp hnone, List.isEmpty_nil, Bool.not_true, Bool.and_false]
      exact skipped hnot _
    · rename_i department hsome
      have hmem := RowOrder.mem_of_first hsome
      have hneeded : needed js s organization dto = true := by
        have hnone := Option.not_isSome_iff_eq_none.mp hfree
        have hlisted := List.isEmpty_eq_false_iff_exists_mem.mpr ⟨department, hmem⟩
        rw [needed, emailOf, hnone, hlisted]
        rfl
      simp only [Prog.returns_bind]
      refine returns_createMember_iff horg (Table.isSome_find (Table.mem_filter.mp hmem).1 rfl) (expired hneeded)
        (refused hneeded)
        fun n hn free first t ht => ?_
      exact stored hneeded n hn free first department.id t ht _

section Added
variable (added : Added s (newStaff io i organization dto (emailOf js dto) departmentId (codeOf io organization n))
  (newUser io i organization (emailOf js dto)) t)
include added

theorem Added.organization_eq : t.organization = s.organization := by
  rw [added.rest]

theorem Added.mem_staff {staff : Staff} : staff ∈ t.staff ↔
    staff ∈ s.staff ∨ staff = linkedStaff io i organization dto (emailOf js dto) departmentId (codeOf io organization n) := by
  rw [← Table.mem_rows, added.staffs, List.mem_append, List.mem_singleton, Table.mem_rows]
  rfl

theorem Added.mem_user {user : UserCredential} : user ∈ t.userCredential ↔
    user ∈ s.userCredential ∨ user = newUser io i organization (emailOf js dto) := by
  rw [← Table.mem_rows, added.users, List.mem_append, List.mem_singleton, Table.mem_rows]

/-- A later row passes the checks if it did before, and has another email. -/
theorem Added.needed_iff {other : AddStaffMemberDto} : needed js t organization other = true ↔
    needed js s organization other = true ∧ emailOf js other ≠ emailOf js dto := by
  have hdepartments : t.department = s.department := by rw [added.rest]
  have habsent : ∀ u : Db, (u.staff.findBy (·.email == emailOf js other)).isNone = true ↔
      ∀ staff ∈ u.staff, staff.email ≠ emailOf js other := by
    intro u
    rw [Option.isNone_iff_eq_none, ← Option.not_isSome_iff_eq_none, findBy_email_isSome]
    simp only [not_exists, not_and]
  have hstaff : (∀ staff ∈ t.staff, staff.email ≠ emailOf js other) ↔
      (∀ staff ∈ s.staff, staff.email ≠ emailOf js other) ∧ emailOf js other ≠ emailOf js dto := by
    simp only [added.mem_staff, or_imp, forall_and, forall_eq]
    exact and_congr_right fun _ => ne_comm
  simp only [needed, hdepartments, Bool.and_eq_true, habsent, hstaff]
  exact and_right_comm

theorem Added.newEmails_eq (hneeded : needed js s organization dto = true) : newEmails js t organization staffList =
    (newEmails js s organization (dto :: staffList)).erase (emailOf js dto) := by
  ext email
  rw [Finset.mem_erase, mem_newEmails, mem_newEmails]
  constructor
  · rintro ⟨other, hother, hnew, rfl⟩
    obtain ⟨hold, hne⟩ := added.needed_iff.mp hnew
    exact ⟨hne, other, List.mem_cons_of_mem _ hother, hold, rfl⟩
  · rintro ⟨hne, other, hother, hold, rfl⟩
    rcases List.mem_cons.mp hother with rfl | hother
    · exact absurd rfl hne
    · exact ⟨other, hother, added.needed_iff.mpr ⟨hold, hne⟩, rfl⟩

theorem Added.freeNumbers_eq : freeNumbers t io organization = (freeNumbers s io organization).erase n := by
  ext m
  have taken : TakenIn t organization.id (codeOf io organization m) ↔
      TakenIn s organization.id (codeOf io organization m) ∨ m = n := by
    constructor
    · rintro ⟨staff, hstaff, horg, hcode⟩
      rcases added.mem_staff.mp hstaff with hold | rfl
      · exact Or.inl ⟨staff, hold, horg, hcode⟩
      · exact Or.inr (codeOf_inj (Option.some.inj hcode).symm)
    · rintro (⟨staff, hstaff, horg, hcode⟩ | rfl)
      · exact ⟨staff, added.mem_staff.mpr (Or.inl hstaff), horg, hcode⟩
      · exact ⟨_, added.mem_staff.mpr (Or.inr rfl), rfl, rfl⟩
  rw [Finset.mem_erase, mem_freeNumbers, mem_freeNumbers, taken]
  tauto

/-- There was room for the row and the others if and only if there is room for the others now. -/
theorem Added.roomFor_iff (hneeded : needed js s organization dto = true) (hn : FourDigits n)
    (free : Free s io i (emailOf js dto) (codeOf io organization n)) :
    RoomFor js t io organization staffList ↔ RoomFor js s io organization (dto :: staffList) := by
  have hemail : emailOf js dto ∈ newEmails js s organization (dto :: staffList) := mem_newEmails_cons hneeded
  have hnumber : n ∈ freeNumbers s io organization := by
    refine mem_freeNumbers.mpr ⟨hn, ?_⟩
    rintro ⟨staff, hstaff, -, hcode⟩
    exact free.code staff hstaff hcode
  have cards : (newEmails js t organization staffList).card ≤ (freeNumbers t io organization).card ↔
      (newEmails js s organization (dto :: staffList)).card ≤ (freeNumbers s io organization).card := by
    have hemails := Finset.card_pos.mpr ⟨_, hemail⟩
    have hnumbers := Finset.card_pos.mpr ⟨_, hnumber⟩
    rw [added.newEmails_eq hneeded, added.freeNumbers_eq, Finset.card_erase_of_mem hemail, Finset.card_erase_of_mem hnumber]
    omega
  constructor
  · intro room
    refine ⟨fun email hmem user huser => ?_, cards.mp room.enough⟩
    by_cases hown : email = emailOf js dto
    · rw [hown]
      exact free.userEmail user huser
    · have hlater : email ∈ newEmails js t organization staffList := by
        rw [added.newEmails_eq hneeded]
        exact Finset.mem_erase.mpr ⟨hown, hmem⟩
      exact room.emails email hlater user (added.mem_user.mpr (Or.inl huser))
  · intro room
    refine ⟨fun email hmem user huser => ?_, cards.mpr room.enough⟩
    rw [added.newEmails_eq hneeded, Finset.mem_erase] at hmem
    rcases added.mem_user.mp huser with hold | rfl
    · exact room.emails email hmem.2 user hold
    · exact hmem.1.symm

theorem Added.apart (apart : Apart s io organization) : Apart t io organization := by
  intro m hm staff hstaff hother
  rcases added.mem_staff.mp hstaff with hold | rfl
  · exact apart m hm staff hold hother
  · exact absurd rfl hother

theorem Added.sound (sound : Sound s io i) : Sound t io (i + 1) where
  staffId j hj staff hstaff := by
    rcases added.mem_staff.mp hstaff with hold | rfl
    · exact sound.staffId j (Nat.le_of_succ_le hj) staff hold
    · exact fun h => absurd (sound.staffId_inj h) (Nat.ne_of_lt hj)
  linked j hj staff hstaff := by
    rcases added.mem_staff.mp hstaff with hold | rfl
    · exact sound.linked j (Nat.le_of_succ_le hj) staff hold
    · exact fun h => absurd (sound.userId_inj (Option.some.inj h)) (Nat.ne_of_lt hj)
  userId j hj user huser := by
    rcases added.mem_user.mp huser with hold | rfl
    · exact sound.userId j (Nat.le_of_succ_le hj) user hold
    · exact fun h => absurd (sound.userId_inj h) (Nat.ne_of_lt hj)
  staffId_inj := sound.staffId_inj
  userId_inj := sound.userId_inj
  digits := sound.digits

end Added

/-- Where there is room for all rows, there is for the first. -/
theorem RoomFor.row (room : RoomFor js s io organization (dto :: staffList))
    (apart : (newEmails js s organization (dto :: staffList)).Nonempty → Apart s io organization) (sound : Sound s io i)
    (horg : organization ∈ s.organization) : (addOne js io organization dto i).Returns
      (fun r t => (∃ result, r = .ok result) ∧ RoomFor js t io organization staffList ∧
        ((newEmails js t organization staffList).Nonempty → Apart t io organization) ∧ Sound t io (i + 1) ∧
        organization ∈ t.organization) s := by
  refine addOne_spec horg (fun hnot result => ?_) (fun hneeded expired => ?_) (fun hneeded n hn free hrefused e t => ?_)
    fun hneeded n hn free _ departmentId t added result => ?_
  · rw [newEmails_cons_of_not hnot] at apart
    have later : RoomFor js s io organization staffList := by
      refine ⟨fun email hemail => room.emails email ?_, Nat.le_trans ?_ room.enough⟩
      · rwa [newEmails_cons_of_not hnot]
      · rw [newEmails_cons_of_not hnot]
    have fresh : Sound s io (i + 1) := { sound with
      staffId := fun j hj => sound.staffId j (Nat.le_of_succ_le hj)
      linked := fun j hj => sound.linked j (Nat.le_of_succ_le hj)
      userId := fun j hj => sound.userId j (Nat.le_of_succ_le hj) }
    exact ⟨⟨result, rfl⟩, later, apart, fresh, horg⟩
  · have hemail : emailOf js dto ∈ newEmails js s organization (dto :: staffList) := mem_newEmails_cons hneeded
    have hsome := Nat.lt_of_lt_of_le (Finset.card_pos.mpr ⟨_, hemail⟩) room.enough
    obtain ⟨n, hn⟩ := Finset.card_pos.mp hsome
    obtain ⟨hdigits, free⟩ := mem_freeNumbers.mp hn
    exact absurd (expired n ((sound.digits i n).mpr hdigits)) free
  · have hemail : emailOf js dto ∈ newEmails js s organization (dto :: staffList) := mem_newEmails_cons hneeded
    have hstaffEmail : ∀ staff ∈ s.staff, staff.email ≠ emailOf js dto := by
      simp only [needed, Bool.and_eq_true] at hneeded
      intro staff hstaff heq
      have hsome := findBy_email_isSome.mpr ⟨staff, hstaff, heq⟩
      rw [Option.isNone_iff_eq_none.mp hneeded.1] at hsome
      cases hsome
    have hcode : ∀ staff ∈ s.staff, staff.employeeCode ≠ some (codeOf io organization n) := by
      intro staff hstaff hcode
      by_cases hown : staff.orgId = organization.id
      · exact free ⟨staff, hstaff, hown, hcode⟩
      · exact apart ⟨_, hemail⟩ n ((sound.digits i n).mp hn) staff hstaff hown hcode
    exact absurd ⟨sound.staffId i (Nat.le_refl i), hstaffEmail, hcode, sound.linked i (Nat.le_refl i),
      sound.userId i (Nat.le_refl i), room.emails _ hemail⟩ hrefused
  · have hdigits : FourDigits n := (sound.digits i n).mp hn
    refine ⟨⟨result, rfl⟩, (added.roomFor_iff hneeded hdigits free).mpr room, fun _ => ?_, added.sound sound, ?_⟩
    · exact added.apart (apart ⟨_, mem_newEmails_cons hneeded⟩)
    · rwa [added.organization_eq]

theorem RoomFor.each {results : List Result} (room : RoomFor js s io organization staffList)
    (apart : (newEmails js s organization staffList).Nonempty → Apart s io organization) (sound : Sound s io i)
    (horg : organization ∈ s.organization) :
    (addEach js io organization staffList i results).Returns (fun r _ => ∃ all, r = .ok all) s := by
  induction staffList generalizing s i results with
  | nil => exact ⟨results, rfl⟩
  | cons dto staffList ih =>
    rw [addEach, Prog.returns_bind]
    refine (room.row apart sound horg).mono fun r t hrow => ?_
    obtain ⟨⟨result, rfl⟩, later, hapart, fresh, horg⟩ := hrow
    exact ih later hapart fresh horg

end Step

/-- The draws of the rows alone that succeeded. -/
def Io.alone (io : Io) (rows : List (AddStaffMemberDto × Nat)) : Io := io.reindex fun k => (rows[k]?.map (·.2)).getD k

section Request
variable {js : Js} {s t : Db} {io drawn : Io} {organization : Organization} {orgId qOrgId : Option String} {role : String}
  {staffList : List AddStaffMemberDto}

/-- The codes depend on the draws by nothing but the numbers. -/
theorem codeOf_congr (hcodes : drawn.toUpperCase = io.toUpperCase) : codeOf drawn organization = codeOf io organization := by
  funext n
  rw [codeOf, codeOf, codePrefix, codePrefix, hcodes]

theorem RoomFor.congr (hcodes : drawn.toUpperCase = io.toUpperCase) (room : RoomFor js s drawn organization staffList) :
    RoomFor js s io organization staffList := by
  have hcode : codeOf drawn organization = codeOf io organization := codeOf_congr hcodes
  have hnumbers : freeNumbers s drawn organization = freeNumbers s io organization := by
    ext n
    rw [mem_freeNumbers, mem_freeNumbers, hcode]
  exact ⟨room.emails, hnumbers ▸ room.enough⟩

end Request

/-- The requests of the staff service, and the registration of the root user. -/
inductive Call where
  | registerRootUser (hash : String → String) (userId : String) (dto : RegisterRootDto)
  | staff (q : Request)

def serve (js : Js) : Call → Service Unit
  | .registerRootUser hash userId dto => do let _ ← AuthService.registerRootUser js hash userId dto
  | .staff q => q.call js

/-- One call after another, from a store without accounts. -/
def accounts (js : Js) : System Db Call where
  init s := s.staff = ∅ ∧ s.userCredential = ∅
  step s c t := ∃ r, (serve js c).Settles s r t

namespace Acme

/-- The root user registers with Bob's email. -/
def rooted : Db := ((serve Firm.js (.registerRootUser id "root" { email := "bob@mail.com", password := "password" })).run db).2

/-- Bob and Cat are to be added. -/
def newcomers : List AddStaffMemberDto :=
  [{ name := "Bob", email := "bob@mail.com", designation := "Clerk", departmentId := "Desk" },
    { name := "Cat", email := "cat@mail.com", designation := "Clerk", departmentId := "Desk" }]

end Acme

section Acme
open Acme

end Acme

end Vms.StaffService
