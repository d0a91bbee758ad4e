import Vms.Lib.System
import Vms.Staff

/-! What adding, editing and deleting staff members does to the staff members and their credentials: one rule
    for each operation. -/

namespace Vms.StaffService
open Relational HttpException

/-! ### Statements -/

section Statements
variable {s : Db} {id : String} {Q : Except HttpException Unit → Db → Prop}

theorem returns_updateStaff {change : Staff → Staff}
    (fails : (∀ staff u, s.staff.find id = some staff →
      (∀ d, (change staff).departmentId = some d → (s.department.find d).isSome) →
      s.staff.modify (·.id == id) change ≠ some u) → ∀ e, Q (.error e) s)
    (done : ∀ staff u, s.staff.find id = some staff → (∀ d, (change staff).departmentId = some d → (s.department.find d).isSome) →
      s.staff.modify (·.id == id) change = some u → Q (.ok ()) { s with staff := u }) :
    (updateStaff id change).Returns Q s := by
  refine returns_mutate.mpr ⟨fun e he => fails (fun staff u hfind stored hmodify => ?_) e, fun _ t ht => ?_⟩
  · rw [updatedStaff_eq_ok.mpr ⟨staff, u, hfind, stored, hmodify, rfl⟩] at he
    cases he
  · obtain ⟨staff, u, hfind, stored, hmodify, rfl⟩ := updatedStaff_eq_ok.mp ht
    exact done staff u hfind stored hmodify

theorem returns_updateUser {change : UserCredential → UserCredential}
    (fails : (∀ user u, s.userCredential.find id = some user → s.userCredential.modify (·.id == id) change ≠ some u) →
      ∀ e, Q (.error e) s)
    (done : ∀ user u, s.userCredential.find id = some user → s.userCredential.modify (·.id == id) change = some u →
      Q (.ok ()) { s with userCredential := u }) : (updateUser id change).Returns Q s := by
  simp only [updateUser, returns_mutate]
  cases hfind : s.userCredential.find id with
  | none =>
    rw [hfind] at fails
    exact ⟨fun e _ => fails (fun _ _ h => by cases h) e, fun _ _ h => by cases h⟩
  | some user =>
    simp only [Option.isNone_some, Bool.false_eq_true, if_false]
    cases hmodify : s.userCredential.modify (·.id == id) change with
    | none =>
      rw [hmodify] at fails
      exact ⟨fun e _ => fails (fun _ _ _ h => by cases h) e, fun _ _ h => by cases h⟩
    | some u =>
      refine ⟨fun _ h => (by cases h), fun _ t ht => ?_⟩
      obtain ⟨-, rfl⟩ := Prod.mk.inj (Except.ok.inj ht)
      exact done user u hfind hmodify

theorem returns_createUser {user : UserCredential} (fails : ∀ e, Q (.error e) s)
    (done : ∀ users staff, s.userCredential.insert user = some users →
      s.staff.modify (·.id == id) (fun staff => { staff with userId := some user.id }) = some staff →
      Q (.ok ()) { s with userCredential := users, staff }) :
    (createUser user id).Returns Q s := by
  refine returns_mutate.mpr ⟨fun e _ => fails e, fun _ t ht => ?_⟩
  obtain ⟨-, -, users, staff, hinsert, hmodify, rfl⟩ := createdUser_eq_ok.mp ht
  exact done users staff hinsert hmodify

end Statements

/-! ### Adding -/

/-- A new staff member and a new credential, which name each other. -/
structure Joined (s : Db) (staff : Staff) (user : UserCredential) (t : Db) : Prop where
  staff_mem : ∀ b, b ∈ t.staff ↔ b ∈ s.staff ∨ b = staff
  user_mem : ∀ b, b ∈ t.userCredential ↔ b ∈ s.userCredential ∨ b = user
  fresh : ∀ b ∈ s.userCredential, b.id ≠ user.id
  linked : staff.userId = some user.id
  named : user.id ≠ ""
  org : user.orgId = some staff.orgId
  email : user.email = staff.email
  staffRole : staff.role = .staff
  userRole : user.role = .staff

/-- The rows of a new staff member of an organisation and a department, and nothing else. -/
structure Hired (s : Db) (io : Io) (i : Nat) (target normalizedEmail departmentId : String) (staff : Staff)
    (user : UserCredential) (t : Db) : Prop extends Joined s staff user t where
  staffOrg : staff.orgId = target
  staffEmail : staff.email = normalizedEmail
  userId : user.id = io.userId i
  department : staff.departmentId = some departmentId
  stored : (s.department.find departmentId).isSome
  rest : t = { s with staff := t.staff, userCredential := t.userCredential }

section Add
variable {s : Db} {io : Io}

theorem returns_pickEmployeeCode {orgId codePrefix : String} {codes : List Nat} {Q : Except HttpException String → Db → Prop}
    (fails : ∀ e, Q (.error e) s) (done : ∀ code, Q (.ok code) s) : (pickEmployeeCode orgId codePrefix codes).Returns Q s := by
  induction codes with
  | nil => exact fails transactionExpired
  | cons random rest ih =>
    simp only [pickEmployeeCode, Prog.returns_bind, Prog.then_ok, returns_query]
    split
    · exact ih
    · exact done _

theorem returns_createMember {i : Nat} {organization : Organization} {dto : AddStaffMemberDto} {email departmentId : String}
    {Q : Except HttpException Staff → Db → Prop} (fails : ∀ e t, Q (.error e) t)
    (hired : ∀ staff user t a, Hired s io i organization.id email departmentId staff user t → Q (.ok a) t) :
    (createMember io i organization dto email departmentId).Returns Q s := by
  simp only [createMember, generateUniqueEmployeeCode, Prog.returns_bind, Prog.then_ok, Prog.then_error, returns_query,
    Prog.returns_orFail, fails, implies_true, true_and]
  intro _ _
  refine returns_pickEmployeeCode (fun e => fails e s) fun code => ?_
  simp only [createStaff, Prog.then_ok, Prog.then_error, Prog.returns_bind, returns_mutate, created_eq_ok, fails,
    implies_true, true_and]
  rintro staff t ⟨hstored, hstaff, u, hu, rfl⟩
  rw [← hstaff] at hu
  have stored : (s.department.find departmentId).isSome = true := by
    rw [Bool.and_eq_true] at hstored
    exact hstored.2
  refine returns_createUser (fun e => fails e _) fun users v hinsert hmodify => ?_
  simp only [Prog.then_ok, Prog.returns_pure]
  refine hired { staff with userId := some (io.userId i) } _ _ _
    ⟨⟨fun b => ?_, fun b => Table.mem_insert hinsert, fun b hb => Table.id_ne_of_insert hinsert hb, rfl, io.userId_ne i,
      by rw [hstaff], by rw [hstaff], by rw [hstaff], rfl⟩, by rw [hstaff], by rw [hstaff], rfl, by rw [hstaff], stored, rfl⟩
  rw [Table.mem_modify hmodify]
  constructor
  · rintro ⟨a, ha, rfl⟩
    rcases (Table.mem_insert hu).mp ha with hold | rfl
    · have hother : (a.id == staff.id) = false := beq_eq_false_iff_ne.mpr (Table.id_ne_of_insert hu hold)
      exact Or.inl (by simpa only [hother, Bool.false_eq_true, if_false] using hold)
    · exact Or.inr (if_pos (beq_iff_eq.mpr rfl))
  · rintro (hold | rfl)
    · have hother : (b.id == staff.id) = false := beq_eq_false_iff_ne.mpr (Table.id_ne_of_insert hu hold)
      exact ⟨b, (Table.mem_insert hu).mpr (Or.inl hold), by simp only [hother, Bool.false_eq_true, if_false]⟩
    · exact ⟨staff, (Table.mem_insert hu).mpr (Or.inr rfl), if_pos (beq_iff_eq.mpr rfl)⟩

variable {js : Js} {orgId qOrgId : Option String} {role : String} {Q : Db → Prop}

/-- `addStaffMember` passes its checks for an organisation. -/
structure MayAdd (js : Js) (s : Db) (orgId : Option String) (role : String) (dto : AddStaffMemberDto)
    (qOrgId : Option String) (target : String) : Prop where
  inOrg : truthy (targetOrgId orgId role qOrgId) = some target
  allowed : role ∈ ["Root", "SuperAdmin", "Admin"]
  organization : ∃ organization ∈ s.organization, organization.id = target
  absent : ∀ staff ∈ s.staff, staff.email = js.trim (js.toLowerCase dto.email) → staff.orgId ≠ target

theorem addStaffMember_post {dto : AddStaffMemberDto} :
    (addStaffMember js io orgId role dto qOrgId).Post (AllOrNothing s fun _ t => ∃ target staff user,
      MayAdd js s orgId role dto qOrgId target ∧
      Hired s io 0 target (js.trim (js.toLowerCase dto.email)) dto.departmentId staff user t) s := by
  simp only [addStaffMember, Prog.post_bind, Prog.post_failIf, Prog.post_orFail, post_query, Prog.then_ok,
    Prog.then_error, post_transaction, allOrNothing_error, implies_true, true_and, and_true, not_not]
  intro target htarget hrole organization horganization hnone
  obtain ⟨hmem, rfl⟩ := Table.find_eq_some.mp horganization
  have may : MayAdd js s orgId role dto qOrgId (Row.id organization) := by
    refine ⟨htarget, hrole, ⟨organization, hmem, rfl⟩, fun staff hstaff hemail horg => hnone ?_⟩
    exact List.find?_isSome.mpr ⟨staff, hstaff, by simp [hemail, horg]⟩
  exact returns_createMember (fun _ _ => rfl) fun staff user t _ hired => ⟨_, staff, user, may, hired⟩

theorem returns_addStaffMember {dto : AddStaffMemberDto} (hs : Q s)
    (joined : ∀ staff user t, Joined s staff user t → Q t) :
    (addStaffMember js io orgId role dto qOrgId).Returns (fun _ t => Q t) s := by
  refine (Post.state_of_allOrNothing addStaffMember_post hs fun _ t ht => ?_).returns
  obtain ⟨_, staff, user, -, hired⟩ := ht
  exact joined staff user t hired.toJoined

/-- Every entry that is not skipped adds a staff member to a department of the organisation; a failure undoes
    all of them. -/
theorem returns_addEach {s₀ : Db} {organization : Organization} {staffList : List AddStaffMemberDto} {i : Nat}
    {results : List Result} (hs₀ : Q s₀) (hs : Q s)
    (hired : ∀ t i email department staff user u, Q t → department ∈ t.department → department.orgId = organization.id →
      Hired t io i organization.id email department.id staff user u → Q u) :
    (addEach js io organization staffList i results).Returns (Prog.Rollback (fun _ t => Q t) s₀) s := by
  induction staffList generalizing s i results with
  | nil => exact hs
  | cons staffDto staffList ih =>
    simp only [addEach, addOne, Prog.returns_bind, returns_query, Prog.then_ok]
    split
    · exact ih hs
    · simp only [Prog.returns_bind, returns_query, Prog.then_ok]
      split
      · exact ih hs
      · rename_i department hdepartment
        obtain ⟨hmem, hof⟩ := Table.mem_filter.mp (RowOrder.mem_of_first hdepartment)
        simp only [Bool.and_eq_true, beq_iff_eq] at hof
        simp only [Prog.returns_bind]
        refine returns_createMember (fun _ _ => hs₀) fun staff user t _ hhired => ?_
        simp only [Prog.then_ok, Prog.returns_pure]
        exact ih (hired s i _ department staff user t hs hmem hof.2 hhired)

theorem addStaffBulk_post {staffList : List AddStaffMemberDto} (hs : Q s)
    (hired : ∀ t i email department staff user u, Q t → department ∈ t.department →
      truthy (targetOrgId orgId role qOrgId) = some department.orgId →
      Hired t io i department.orgId email department.id staff user u → Q u) :
    (addStaffBulk js io orgId role staffList qOrgId).Post (fun _ t => Q t) s := by
  simp only [addStaffBulk, Prog.post_bind, Prog.post_failIf, Prog.post_orFail, post_query, Prog.then_ok,
    Prog.then_error, post_transaction, hs, implies_true, true_and, and_true]
  intro target htarget _ organization horganization
  obtain ⟨-, rfl⟩ := Table.find_eq_some.mp horganization
  refine (returns_addEach hs hs fun t i email department staff user u ht hmem horg hhired => ?_).mono fun r t ht => ?_
  · refine hired t i email department staff user u ht hmem ?_ ?_
    · rw [horg]
      exact htarget
    · rw [horg]
      exact hhired
  · cases r with
    | error e => exact ht
    | ok results => exact ht

theorem returns_addStaffBulk {staffList : List AddStaffMemberDto} (hs : Q s)
    (joined : ∀ t staff user u, Q t → Joined t staff user u → Q u) :
    (addStaffBulk js io orgId role staffList qOrgId).Returns (fun _ t => Q t) s :=
  (addStaffBulk_post hs fun t _ _ _ staff user u ht _ _ hired => joined t staff user u ht hired.toJoined).returns

end Add

/-! ### Editing -/

/-- `editStaffMemberDetails` passes its checks for a staff member. -/
structure MayEdit (s : Db) (orgId : Option String) (role staffId : String) (qOrgId : Option String) (staff : Staff) :
    Prop where
  mem : staff ∈ s.staff
  id : staff.id = staffId
  allowed : role ∈ ["Root", "SuperAdmin", "Admin"]
  inOrg : truthy (targetOrgId orgId role qOrgId) = some staff.orgId

/-- What is left to do in the place of a superadmin: none is found, or one whose staff member is the given one. -/
def NoneToDemote (s : Db) (orgId staffId : String) : Prop :=
  ∀ user ∈ s.userCredential, user.orgId = some orgId → user.role = .superAdmin →
    ∃ user ∈ s.userCredential, user.orgId = some orgId ∧ user.role = .superAdmin ∧
      ∀ old ∈ s.staff, old.userId = some user.id → old.id = staffId

/-- Before the rows of the staff member change, the working hours are written, and another superadmin is
    demoted if the staff member becomes one. -/
inductive MadeRoom (s : Db) (staff : Staff) (role : Option MemberRoleEnum) : Db → Prop
  | kept (hours : Table WorkingHours) (none : role = some .superAdmin → staff.role ≠ .superAdmin →
      NoneToDemote s staff.orgId staff.id) : MadeRoom s staff role { s with workingHours := hours }
  | demoted (hours : Table WorkingHours) (user : UserCredential) (old : Staff) (users : Table UserCredential)
      (staffs : Table Staff) (promoted : role = some .superAdmin ∧ staff.role ≠ .superAdmin) (user_mem : user ∈ s.userCredential)
      (org : user.orgId = some staff.orgId) (superAdmin : user.role = .superAdmin) (old_mem : old ∈ s.staff)
      (linked : old.userId = some user.id) (other : old.id ≠ staff.id)
      (husers : s.userCredential.modify (·.id == user.id) (fun user => { user with role := .admin }) = some users)
      (hstaffs : s.staff.modify (·.id == old.id) (fun staff => { staff with role := .admin }) = some staffs) :
      MadeRoom s staff role { s with workingHours := hours, userCredential := users, staff := staffs }

/-- The update of a staff member. -/
def editedStaff (dto : EditStaffMemberDto) (staff : Staff) : Staff :=
  { staff with
    name := dto.name.getD staff.name
    email := dto.email.getD staff.email
    role := dto.role.getD staff.role
    departmentId := dto.departmentId.or staff.departmentId
    designation := dto.designation.getD staff.designation }

/-- The update of the credential of a staff member with a role. -/
def editedUser (role : MemberRoleEnum) (dto : EditStaffMemberDto) (user : UserCredential) : UserCredential :=
  { user with
    role := (dto.role.map (·.auth)).getD user.role
    email := dto.email.getD user.email
    accountStatus := (newAccountStatus role dto.role).getD user.accountStatus }

section Edit
variable {s : Db} {io : Io} {orgId qOrgId : Option String} {role staffId : String} {dto : EditStaffMemberDto}

theorem returns_upsertWorkingHours {hoursDto : WorkingHoursDto} {day : Weekday} {Q : Except HttpException Unit → Db → Prop}
    (fails : ∀ e, Q (.error e) s) (done : ∀ hours, Q (.ok ()) { s with workingHours := hours }) :
    (upsertWorkingHours io staffId hoursDto day).Returns Q s := by
  simp only [upsertWorkingHours, returns_mutate, fails, implies_true, true_and]
  intro _ t ht
  split at ht
  · obtain ⟨-, rfl⟩ := Prod.mk.inj (Except.ok.inj ht)
    exact done _
  · obtain ⟨-, u, -, hx⟩ := created_map_eq_ok.mp ht
    cases hx
    exact done u

theorem returns_upsertEach {hoursDto : WorkingHoursDto} {days : List Weekday} {Q : Except HttpException Unit → Db → Prop}
    (fails : ∀ e t, Q (.error e) t) (done : ∀ hours, Q (.ok ()) { s with workingHours := hours }) :
    (upsertEach io staffId hoursDto days).Returns Q s := by
  induction days generalizing s with
  | nil => exact done s.workingHours
  | cons day days ih =>
    simp only [upsertEach, Prog.returns_bind]
    refine returns_upsertWorkingHours (fun e => fails e s) fun hours => ?_
    exact ih fun later => done later

/-- A write of working hours that succeeds changes nothing else. -/
theorem editWorkingHours_ok {hoursDto : Option WorkingHoursDto} {t : Db}
    (h : (editWorkingHours io staffId hoursDto).run s = (.ok (), t)) : ∃ hours, t = { s with workingHours := hours } := by
  have written : (editWorkingHours io staffId hoursDto).Returns
      (fun r t => r = .ok () → ∃ hours, t = { s with workingHours := hours }) s := by
    cases hoursDto with
    | none => exact fun _ => ⟨s.workingHours, rfl⟩
    | some hoursDto =>
      simp only [editWorkingHours, Prog.returns_bind, Prog.returns_failIf, Prog.then_ok, Prog.then_error, reduceCtorEq,
        false_implies, implies_true, true_and]
      intro _ _
      exact returns_upsertEach (fun _ _ h => by cases h) fun hours _ => ⟨hours, rfl⟩
  rw [Prog.Returns, h] at written
  exact written rfl

/-- Only a staff member whose department is gone cannot be demoted. -/
theorem returns_makeRoom {staff : Staff} {newRole : Option MemberRoleEnum} (hours : Table WorkingHours)
    {Q : Except HttpException Unit → Db → Prop} (fails : ¬s.staff.References (·.departmentId) s.department → ∀ e t, Q (.error e) t)
    (room : ∀ t, MadeRoom s staff newRole t → t.workingHours = hours → Q (.ok ()) t) :
    (makeRoom io staff.orgId staff newRole).Returns Q { s with workingHours := hours } := by
  unfold makeRoom
  split
  swap
  · rename_i hrole
    exact room _ (.kept hours fun h h' => absurd ⟨h, h'⟩ hrole) rfl
  rename_i promoted
  simp only [demoteSuperAdmin, Prog.returns_bind, returns_query, Prog.then_ok]
  cases hfirst : io.users.first (s.userCredential.filter fun user =>
      user.orgId == some staff.orgId && user.role == .superAdmin) with
  | none =>
    refine room _ (.kept hours fun _ _ user hmem horg hsuper => ?_) rfl
    have hnil := RowOrder.first_eq_none.mp hfirst
    have hin : user ∈ s.userCredential.filter fun user => user.orgId == some staff.orgId && user.role == .superAdmin :=
      Table.mem_filter.mpr ⟨hmem, by simp [horg, hsuper]⟩
    rw [hnil] at hin
    exact absurd hin List.not_mem_nil
  | some user =>
    obtain ⟨hmem, hof⟩ := Table.mem_filter.mp (RowOrder.mem_of_first hfirst)
    simp only [Bool.and_eq_true, beq_iff_eq] at hof
    have unique : ∀ a b : Staff, (a.userId == some user.id) = true → (b.userId == some user.id) = true →
        Row.clash a b = true := by
      intro a b ha hb
      simp [Row.clash, beq_iff_eq.mp ha, beq_iff_eq.mp hb, sameValue]
    simp only [Option.bind_some]
    cases hfind : s.staff.findBy (·.userId == some user.id) with
    | none =>
      simp only [Option.map_none, Option.filter_none]
      refine room _ (.kept hours fun _ _ _ _ _ _ => ⟨user, hmem, hof.1, hof.2, fun old hold hlinked => ?_⟩) rfl
      rw [(Table.findBy_eq_some unique).mpr ⟨hold, beq_iff_eq.mpr hlinked⟩] at hfind
      cases hfind
    | some old =>
      obtain ⟨hold, hlinked⟩ := Table.mem_of_findBy hfind
      simp only [Option.map_some]
      by_cases hid : old.id = staff.id
      · simp only [Option.filter_some, hid, bne_self_eq_false, Bool.false_eq_true, if_false]
        refine room _ (.kept hours fun _ _ _ _ _ _ => ⟨user, hmem, hof.1, hof.2, fun other hother hlinked' => ?_⟩) rfl
        rw [Table.eq_of_clash hother hold (unique other old (beq_iff_eq.mpr hlinked') hlinked)]
        exact hid
      · have hne : (old.id != staff.id) = true := bne_iff_ne.mpr hid
        simp only [Option.filter_some, hne, if_true, Prog.returns_bind]
        have userFixes : Row.Fixes fun user : UserCredential => { user with role := .admin } := ⟨fun _ => rfl, fun _ _ => rfl⟩
        have staffFixes : Row.Fixes fun staff : Staff => { staff with role := .admin } := ⟨fun _ => rfl, fun _ _ => rfl⟩
        refine returns_updateUser (fun stuck => ?_) fun _ users _ husers => ?_
        · exact absurd (Table.modify_of_fixes userFixes) (stuck user _ (Table.find_of_mem hmem))
        refine returns_updateStaff (fun stuck e => fails (fun references => ?_) e _) fun _ staffs _ _ hstaffs => ?_
        · refine stuck old _ (Table.find_of_mem hold) (fun d hd => ?_) (Table.modify_of_fixes staffFixes)
          obtain ⟨department, hdepartment, hid⟩ := references old hold d hd
          exact Table.isSome_find hdepartment hid
        exact room _ (.demoted hours user old users staffs promoted hmem hof.1 hof.2 hold (beq_iff_eq.mp hlinked) hid
          husers hstaffs) rfl

/-- The rows of the staff member and the credential change together, or the staff member gets a credential. -/
inductive Edited (s : Db) (io : Io) (orgId : Option String) (role staffId : String) (dto : EditStaffMemberDto)
    (qOrgId : Option String) : Db → Prop
  | changed (staff : Staff) (t : Db) (user : UserCredential) (staffs : Table Staff) (users : Table UserCredential)
      (may : MayEdit s orgId role staffId qOrgId staff) (room : MadeRoom s staff dto.role t)
      (department : ∀ d, dto.departmentId = some d → (t.department.find d).isSome)
      (linked : truthy staff.userId = some user.id) (user_mem : user ∈ t.userCredential)
      (hstaffs : t.staff.modify (·.id == staffId) (editedStaff dto) = some staffs)
      (husers : t.userCredential.modify (·.id == user.id) (editedUser staff.role dto) = some users) :
      Edited s io orgId role staffId dto qOrgId { t with staff := staffs, userCredential := users }
  | created (staff : Staff) (t : Db) (staffs : Table Staff) (user : UserCredential) (users : Table UserCredential)
      (linkeds : Table Staff) (may : MayEdit s orgId role staffId qOrgId staff) (room : MadeRoom s staff dto.role t)
      (department : ∀ d, dto.departmentId = some d → (t.department.find d).isSome)
      (unlinked : truthy staff.userId = none) (id : user.id = io.userId 0) (email : dto.email = some user.email)
      (hstaffs : t.staff.modify (·.id == staffId) (editedStaff dto) = some staffs)
      (husers : t.userCredential.insert user = some users)
      (hlinked : staffs.modify (·.id == staff.id) (fun staff => { staff with userId := some user.id }) = some linkeds) :
      Edited s io orgId role staffId dto qOrgId { t with staff := linkeds, userCredential := users }

/-- The working hours are written first, by statements that all succeed. -/
structure Edits (s : Db) (io : Io) (orgId : Option String) (role staffId : String) (dto : EditStaffMemberDto)
    (qOrgId : Option String) (t : Db) : Prop where
  edited : Edited s io orgId role staffId dto qOrgId t
  hours : (editWorkingHours io staffId dto.workingHours).run s = (.ok (), { s with workingHours := t.workingHours })

theorem editStaffMemberDetails_edits : (editStaffMemberDetails io orgId role staffId dto qOrgId).Post
    (AllOrNothing s fun _ t => Edits s io orgId role staffId dto qOrgId t) s := by
  simp only [editStaffMemberDetails, Prog.post_bind, Prog.post_failIf, Prog.then_ok, Prog.then_error, post_query,
    Prog.post_orFail, Table.find_eq_some, not_not, post_transaction, allOrNothing_error, implies_true, true_and, and_true]
  intro hrole targetOrg htarget organization _ staff hstaff horg
  obtain ⟨hmem, hid⟩ := hstaff
  subst horg
  have may : MayEdit s orgId role staffId qOrgId staff := ⟨hmem, hid, hrole, htarget⟩
  rw [Prog.returns_bind, Prog.Returns]
  rcases hrun : (editWorkingHours io staffId dto.workingHours).run s with ⟨_ | _, after⟩
  · rfl
  obtain ⟨hours, rfl⟩ := editWorkingHours_ok hrun
  rw [Prog.then_ok, Prog.returns_bind]
  refine returns_makeRoom _ (fun _ _ _ => rfl) fun t room hkept => ?_
  subst hkept
  simp only [updateMember, Prog.then_ok, Prog.then_error, Prog.returns_bind, Prog.returns_failIf, Prog.rollback_error,
    allOrNothing_error, implies_true, true_and]
  intro _
  refine returns_updateStaff (fun _ _ => rfl) fun old staffs _ hstored hstaffs => ?_
  have department : ∀ d, dto.departmentId = some d → (t.department.find d).isSome := fun d hd =>
    hstored d (by rw [hd, Option.some_or])
  simp only [Prog.then_ok, updateCredential]
  cases huser : truthy staff.userId with
  | some userId =>
    simp only [Prog.returns_bind]
    refine returns_updateUser (fun _ _ => rfl) fun user users hfind husers => ?_
    obtain ⟨huserMem, rfl⟩ := Table.find_eq_some.mp hfind
    exact ⟨.changed staff t user staffs users may room department huser huserMem hstaffs husers, hrun⟩
  | none =>
    simp only [Prog.returns_bind, Prog.returns_orFail, Prog.then_ok, Prog.then_error, Prog.rollback_error,
      allOrNothing_error, implies_true, true_and]
    intro email hemail newRole _
    refine returns_createUser (fun _ => rfl) fun users linkeds husers hlinked => ?_
    simp only [Prog.then_ok, Prog.returns_bind, returns_outside]
    exact ⟨.created staff t staffs _ users linkeds may room department huser rfl hemail hstaffs husers hlinked, hrun⟩

theorem editStaffMemberDetails_post : (editStaffMemberDetails io orgId role staffId dto qOrgId).Post
    (AllOrNothing s fun _ t => Edited s io orgId role staffId dto qOrgId t) s :=
  Post.allOrNothing editStaffMemberDetails_edits fun _ _ edits => edits.edited

theorem returns_editStaffMemberDetails {Q : Db → Prop} (hs : Q s)
    (changed : ∀ staff t userId staffs users, MayEdit s orgId role staffId qOrgId staff → MadeRoom s staff dto.role t →
      truthy staff.userId = some userId → t.staff.modify (·.id == staffId) (editedStaff dto) = some staffs →
      t.userCredential.modify (·.id == userId) (editedUser staff.role dto) = some users →
      Q { t with staff := staffs, userCredential := users })
    (created : ∀ staff t staffs user users linked, MayEdit s orgId role staffId qOrgId staff → MadeRoom s staff dto.role t →
      truthy staff.userId = none → t.staff.modify (·.id == staffId) (editedStaff dto) = some staffs →
      t.userCredential.insert user = some users →
      staffs.modify (·.id == staff.id) (fun staff => { staff with userId := some user.id }) = some linked →
      Q { t with staff := linked, userCredential := users }) :
    (editStaffMemberDetails io orgId role staffId dto qOrgId).Returns (fun _ t => Q t) s := by
  refine (Post.state_of_allOrNothing editStaffMemberDetails_post hs fun _ t ht => ?_).returns
  cases ht with
  | changed staff u user staffs users may room _ linked _ hstaffs husers =>
    exact changed staff u _ staffs users may room linked hstaffs husers
  | created staff u staffs user users linkeds may room _ unlinked _ _ hstaffs husers hlinked =>
    exact created staff u staffs user users linkeds may room unlinked hstaffs husers hlinked

end Edit

/-! ### Deleting -/

section Delete
variable {s : Db} {orgId qOrgId : Option String} {role staffId : String} {Q : Db → Prop}

/-- `deleteStaffMember` passes its checks for a staff member. -/
structure MayDelete (s : Db) (orgId : Option String) (role staffId : String) (qOrgId : Option String) (staff : Staff) :
    Prop where
  mem : staff ∈ s.staff
  id : staff.id = staffId
  inOrg : role = "Root" ∨ truthy (targetOrgId orgId role qOrgId) = some staff.orgId
  superAdmin : role = "SuperAdmin" → staff.role ≠ .superAdmin
  admin : role = "Admin" → staff.role = .staff

theorem returns_checkDeletion {staff : Staff} {Q : Except HttpException Unit → Db → Prop} (fails : ∀ e, Q (.error e) s)
    (allowed : (role = "SuperAdmin" → staff.role ≠ .superAdmin) → (role = "Admin" → staff.role = .staff) → Q (.ok ()) s) :
    (checkDeletion role staff).Returns Q s := by
  unfold checkDeletion
  split
  · rename_i hroot
    exact allowed (fun h => absurd (hroot.symm.trans h) (by decide)) fun h => absurd (hroot.symm.trans h) (by decide)
  · split
    · rename_i hsuper
      simp only [Prog.returns_failIf, fails, implies_true, true_and]
      exact fun h => allowed (fun _ => h) fun h' => absurd (hsuper.symm.trans h') (by decide)
    · rename_i hsuper
      split
      · simp only [Prog.returns_failIf, fails, implies_true, true_and, not_not]
        exact fun h => allowed (fun h' => absurd h' hsuper) fun _ => h
      · rename_i hadmin
        exact allowed (fun h => absurd h hsuper) fun h => absurd h hadmin

/-- The staff member goes, and then the credential if there is one. -/
theorem returns_deleteStaffMember (hs : Q s)
    (alone : ∀ staff, MayDelete s orgId role staffId qOrgId staff →
      (∀ userId, truthy staff.userId = some userId → s.userCredential.find userId = none) →
      Q (s.deleteStaff (· == staffId)))
    (both : ∀ staff userId, MayDelete s orgId role staffId qOrgId staff → truthy staff.userId = some userId →
      Q ((s.deleteStaff (· == staffId)).deleteUser userId)) :
    (deleteStaffMember orgId role staffId qOrgId).Returns (fun _ t => Q t) s := by
  simp only [deleteStaffMember, Prog.returns_bind, Prog.returns_failIf, Prog.then_ok, Prog.then_error, returns_query,
    Prog.returns_orFail, hs, implies_true, true_and, Table.find_eq_some, not_and_or, not_not]
  rintro - org horg _ - staff ⟨hmem, hid⟩ hinOrg
  refine returns_checkDeletion (fun _ => hs) fun hsuper hadmin => ?_
  have may : MayDelete s orgId role staffId qOrgId staff := by
    refine ⟨hmem, hid, hinOrg.imp_right fun h => ?_, hsuper, hadmin⟩
    rw [h]
    exact horg
  simp only [Prog.then_ok, Prog.returns_bind, deleteStaff, returns_mutate]
  constructor
  · exact fun _ _ => hs
  · intro _ t ht
    split at ht
    · cases ht
    · obtain ⟨-, rfl⟩ := Prod.mk.inj (Except.ok.inj ht)
      cases huser : truthy staff.userId with
      | none => exact alone staff may fun userId h => by rw [huser] at h; cases h
      | some userId =>
        simp only [deleteCredential, deleteUser, returns_mutate]
        constructor
        · intro e he
          split at he
          · rename_i hnone
            refine alone staff may fun userId' h => ?_
            obtain rfl := Option.some.inj (huser.symm.trans h)
            exact Option.isNone_iff_eq_none.mp hnone
          · cases he
        · intro _ u hu
          split at hu
          · cases hu
          · obtain ⟨-, rfl⟩ := Prod.mk.inj (Except.ok.inj hu)
            exact both staff userId may huser

end Delete

/-! ### Runs -/

inductive Operation where
  | addStaffMember (io : Io) (dto : AddStaffMemberDto)
  | addStaffBulk (io : Io) (staffList : List AddStaffMemberDto)
  | editStaffMemberDetails (io : Io) (staffId : String) (dto : EditStaffMemberDto)
  | deleteStaffMember (staffId : String)

/-- A request with a token of a role, in an organisation unless it is a root token. -/
structure Request where
  orgId : Option String
  role : String
  qOrgId : Option String := none
  op : Operation

def Request.call (js : Js) (q : Request) : Service Unit :=
  match q.op with
  | .addStaffMember io dto => do let _ ← addStaffMember js io q.orgId q.role dto q.qOrgId
  | .addStaffBulk io staffList => do let _ ← addStaffBulk js io q.orgId q.role staffList q.qOrgId
  | .editStaffMemberDetails io staffId dto => do let _ ← editStaffMemberDetails io q.orgId q.role staffId dto q.qOrgId
  | .deleteStaffMember staffId => do let _ ← deleteStaffMember q.orgId q.role staffId q.qOrgId

/-- One request after another, from some of the stores. -/
def administration (js : Js) (init : Db → Prop) : System Db Request where
  init := init
  step s q t := ∃ r, (q.call js).Settles s r t

end Vms.StaffService
