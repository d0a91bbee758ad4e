import Vms.Theorems.Staff.EmployeeCode

/-! What a bulk import reports: one result for each row, in order, and a staff member with a credential for
    each row that succeeded. -/

namespace Vms.StaffService
open Relational HttpException

/-! ### One new staff member -/

def newStaff (io : Io) (i : Nat) (organization : Organization) (dto : AddStaffMemberDto)
    (email departmentId code : String) : Staff :=
  { id := io.staffId i, orgId := organization.id, name := dto.name, email, departmentId := some departmentId
    designation := dto.designation, employeeCode := some code }

def newUser (io : Io) (i : Nat) (organization : Organization) (email : String) : UserCredential :=
  { id := io.userId i, orgId := some organization.id, email
    password := io.hash (generateOneTimePassword io i organization.name), role := .staff, firstTimeLogin := some true }

/-- The keys of both rows are free. -/
structure Free (s : Db) (io : Io) (i : Nat) (email code : String) : Prop where
  staffId : ∀ staff ∈ s.staff, staff.id ≠ io.staffId i
  staffEmail : ∀ staff ∈ s.staff, staff.email ≠ email
  code : ∀ staff ∈ s.staff, staff.employeeCode ≠ some code
  linked : ∀ staff ∈ s.staff, staff.userId ≠ some (io.userId i)
  userId : ∀ user ∈ s.userCredential, user.id ≠ io.userId i
  userEmail : ∀ user ∈ s.userCredential, user.email ≠ email

/-- Both rows are stored, after the others. -/
structure Added (s : Db) (staff : Staff) (user : UserCredential) (t : Db) : Prop where
  rest : t = { s with staff := t.staff, userCredential := t.userCredential }
  staffs : t.staff.rows = s.staff.rows ++ [{ staff with userId := some user.id }]
  users : t.userCredential.rows = s.userCredential.rows ++ [user]

section Member
variable {s : Db} {io : Io} {i : Nat} {organization : Organization} {dto : AddStaffMemberDto} {email departmentId code : String}

/-- The staff member as stored, with the credential. -/
def linkedStaff (io : Io) (i : Nat) (organization : Organization) (dto : AddStaffMemberDto)
    (email departmentId code : String) : Staff :=
  { newStaff io i organization dto email departmentId code with userId := some (io.userId i) }

theorem free_iff (organization : Organization) (dto : AddStaffMemberDto) (departmentId : String) : Free s io i email code ↔
    (∀ staff ∈ s.staff, Row.conflict staff (linkedStaff io i organization dto email departmentId code) = false) ∧
    ∀ user ∈ s.userCredential, Row.conflict user (newUser io i organization email) = false := by
  have same : ∀ (a : Option String) (b : String), sameValue a (some b) = false ↔ a ≠ some b := by
    intro a b
    cases a <;> simp [sameValue]
  have staff_iff : ∀ staff : Staff, Row.conflict staff (linkedStaff io i organization dto email departmentId code) = false ↔
      staff.id ≠ io.staffId i ∧ staff.userId ≠ some (io.userId i) ∧ staff.email ≠ email ∧ staff.employeeCode ≠ some code := by
    intro staff
    simp only [Row.conflict, Row.id, Row.clash, linkedStaff, newStaff, Bool.or_eq_false_iff, same, beq_eq_false_iff_ne, and_assoc]
  have user_iff : ∀ user : UserCredential, Row.conflict user (newUser io i organization email) = false ↔
      user.id ≠ io.userId i ∧ user.email ≠ email := by
    intro user
    simp only [Row.conflict, Row.id, Row.clash, newUser, Bool.or_eq_false_iff, beq_eq_false_iff_ne]
  simp only [staff_iff, user_iff]
  constructor
  · intro h
    exact ⟨fun a ha => ⟨h.staffId a ha, h.linked a ha, h.staffEmail a ha, h.code a ha⟩,
      fun a ha => ⟨h.userId a ha, h.userEmail a ha⟩⟩
  · rintro ⟨hstaff, huser⟩
    exact ⟨fun a ha => (hstaff a ha).1, fun a ha => (hstaff a ha).2.2.1, fun a ha => (hstaff a ha).2.2.2,
      fun a ha => (hstaff a ha).2.1, fun a ha => (huser a ha).1, fun a ha => (huser a ha).2⟩

theorem conflict_newStaff (free : Free s io i email code) {staff : Staff} (hstaff : staff ∈ s.staff) :
    Row.conflict staff (newStaff io i organization dto email departmentId code) = false := by
  have hcode := free.code staff hstaff
  cases hc : staff.employeeCode with
  | none => simp [Row.conflict, Row.id, Row.clash, newStaff, sameValue, hc, free.staffId staff hstaff,
    free.staffEmail staff hstaff]
  | some c =>
    rw [hc] at hcode
    have hne : c ≠ code := fun h => hcode (congrArg some h)
    simp [Row.conflict, Row.id, Row.clash, newStaff, sameValue, hc, hne, free.staffId staff hstaff, free.staffEmail staff hstaff]

/-- The rows are stored if and only if their keys are free. -/
theorem returns_createRows {Q : Except HttpException Staff → Db → Prop} (horg : organization ∈ s.organization)
    (hdepartment : (s.department.find departmentId).isSome) (refused : ¬Free s io i email code → ∀ e t, Q (.error e) t)
    (added : Free s io i email code → ∀ t, Added s (newStaff io i organization dto email departmentId code)
      (newUser io i organization email) t → Q (.ok (newStaff io i organization dto email departmentId code)) t) :
    (do
      let staff ← createStaff (newStaff io i organization dto email departmentId code)
      createUser (newUser io i organization email) staff.id
      return staff : Service Staff).Returns Q s := by
  have horgFound : (s.organization.find organization.id).isSome := Table.isSome_find horg rfl
  have links : ∀ u, s.staff.insert (newStaff io i organization dto email departmentId code) = some u →
      u.modify (·.id == io.staffId i) (fun staff => { staff with userId := some (io.userId i) }) =
        s.staff.insert (linkedStaff io i organization dto email departmentId code) := fun u hu =>
    Table.modify_inserted hu (beq_iff_eq.mpr rfl) fun b hb => beq_eq_false_iff_ne.mpr (Table.id_ne_of_insert hu hb)
  simp only [createStaff, createUser, createdUser, Prog.returns_bind, returns_mutate, Prog.then_ok, Prog.then_error, Prog.returns_pure]
  have hrefs : ((s.organization.find (newStaff io i organization dto email departmentId code).orgId).isSome &&
      (newStaff io i organization dto email departmentId code).departmentId.all fun id => (s.department.find id).isSome) = true :=
    Bool.and_eq_true_iff.mpr ⟨horgFound, hdepartment⟩
  simp only [created, hrefs, if_true]
  cases hu : s.staff.insert (newStaff io i organization dto email departmentId code) with
  | none =>
    have taken : ¬Free s io i email code := fun free =>
      Table.insert_eq_none hu fun staff hstaff => conflict_newStaff free hstaff
    exact ⟨fun e _ => refused taken e s, fun _ _ h => (by cases h)⟩
  | some u =>
    refine ⟨fun _ h => (by cases h), fun staff t ht => ?_⟩
    obtain ⟨rfl, rfl⟩ := Prod.mk.inj (Except.ok.inj ht)
    have hstored : (u.find (newStaff io i organization dto email departmentId code).id).isNone = false :=
      Option.isNone_eq_false_iff.mpr (Table.isSome_find ((Table.mem_insert hu).mpr (Or.inr rfl)) rfl)
    have horgUser : (newUser io i organization email).orgId.all (fun id => (s.organization.find id).isSome) = true := horgFound
    cases hv : s.userCredential.insert (newUser io i organization email) with
    | none =>
      have taken : ¬Free s io i email code := fun free =>
        Table.insert_eq_none hv ((free_iff organization dto departmentId).mp free).2
      exact ⟨fun e _ => refused taken e _, fun _ _ h => (by cases h)⟩
    | some v =>
      have hlinks : u.modify (·.id == (newStaff io i organization dto email departmentId code).id)
          (fun staff => { staff with userId := some (newUser io i organization email).id }) = _ := links u hu
      simp only [horgUser, if_true, hstored, Bool.false_eq_true, if_false, hlinks]
      cases hw : s.staff.insert (linkedStaff io i organization dto email departmentId code) with
      | none =>
        have taken : ¬Free s io i email code := fun free =>
          Table.insert_eq_none hw ((free_iff organization dto departmentId).mp free).1
        exact ⟨fun e _ => refused taken e _, fun _ _ h => (by cases h)⟩
      | some w =>
        have free : Free s io i email code := (free_iff organization dto departmentId).mpr
          ⟨(Table.insert_eq_some.mp hw).1, (Table.insert_eq_some.mp hv).1⟩
        refine ⟨fun _ h => (by cases h), fun _ t ht => ?_⟩
        obtain ⟨-, rfl⟩ := Prod.mk.inj (Except.ok.inj ht)
        exact added free _ ⟨rfl, (Table.insert_eq_some.mp hw).2, (Table.insert_eq_some.mp hv).2⟩

/-- The rows of a new staff member, under the code that was drawn. -/
theorem returns_createMember_iff {Q : Except HttpException Staff → Db → Prop} (horg : organization ∈ s.organization)
    (hdepartment : (s.department.find departmentId).isSome)
    (expired : (∀ n ∈ io.employeeCodeDigits i, TakenIn s organization.id (codeOf io organization n)) →
      Q (.error transactionExpired) s)
    (refused : ∀ n ∈ io.employeeCodeDigits i, ¬TakenIn s organization.id (codeOf io organization n) →
      ¬Free s io i email (codeOf io organization n) → ∀ e t, Q (.error e) t)
    (added : ∀ n ∈ io.employeeCodeDigits i, Free s io i email (codeOf io organization n) →
      (∀ m, (io.employeeCodeDigits i).head? = some m → m = n ∨ TakenIn s organization.id (codeOf io organization m)) →
      ∀ t, Added s (newStaff io i organization dto email departmentId (codeOf io organization n))
        (newUser io i organization email) t →
        Q (.ok (newStaff io i organization dto email departmentId (codeOf io organization n))) t) :
    (createMember io i organization dto email departmentId).Returns Q s := by
  rw [createMember, Prog.returns_bind]
  refine generateUniqueEmployeeCode_spec horg expired fun n hn left first => ?_
  exact returns_createRows horg hdepartment (refused n hn left) fun free t => added n hn free first t

end Member

/-! ### One row -/

/-- The email that a row is stored under. -/
def emailOf (js : Js) (dto : AddStaffMemberDto) : String := js.trim (js.toLowerCase dto.email)

def alreadyExists (dto : AddStaffMemberDto) : Result :=
  { success := false, message := s!"{dto.name} already exists.", email := some dto.email }

def noDepartment (dto : AddStaffMemberDto) : Result :=
  { success := false, message := s!"Department {dto.departmentId} not found.", email := some dto.email }

def added (dto : AddStaffMemberDto) (staff : Staff) : Result :=
  { success := true, message := s!"{dto.name} has been added successfully.", staffMemberDetails := some staff }

/-- A row of the request with its result, and what it added. -/
structure Line where
  dto : AddStaffMemberDto
  result : Result
  member : Option (Staff × UserCredential)

/-- The email of a row is that of a staff member, or of an earlier row that succeeded. -/
def EmailTaken (js : Js) (s : Db) (before : List Line) (dto : AddStaffMemberDto) : Prop :=
  (∃ staff ∈ s.staff, staff.email = emailOf js dto) ∨ ∃ line ∈ before, line.member.isSome ∧ emailOf js line.dto = emailOf js dto

/-- The two rows that a row of the request adds name each other, under its email, in a department of the
    organisation that has the name given. -/
structure Enrolled (js : Js) (s : Db) (io : Io) (organization : Organization) (dto : AddStaffMemberDto) (staff : Staff)
    (user : UserCredential) : Prop where
  linked : staff.userId = some user.id
  staffEmail : staff.email = emailOf js dto
  userEmail : user.email = emailOf js dto
  staffOrg : staff.orgId = organization.id
  userOrg : user.orgId = some organization.id
  department : ∃ department ∈ s.department, department.orgId = organization.id ∧ department.name = dto.departmentId ∧
    staff.departmentId = some department.id
  code : ∃ i, ∃ n ∈ io.employeeCodeDigits i, staff.employeeCode = some (codeOf io organization n)

/-- What a row of the request is told, after the rows before it. -/
structure Told (js : Js) (s : Db) (io : Io) (organization : Organization) (before : List Line) (line : Line) : Prop where
  exists_iff : line.result = alreadyExists line.dto ↔ EmailTaken js s before line.dto
  success : line.result.success = line.member.isSome
  enrolled : ∀ staff user, line.member = some (staff, user) → Enrolled js s io organization line.dto staff user ∧
    line.result = added line.dto { staff with userId := none }
  missing : line.result = noDepartment line.dto → ∀ department ∈ s.department, department.orgId = organization.id →
    department.name ≠ line.dto.departmentId
  told : line.result = alreadyExists line.dto ∨ line.result = noDepartment line.dto ∨ line.member.isSome

/-- The rows of the request so far led from `s` to `t`. -/
structure Imported (js : Js) (s : Db) (io : Io) (organization : Organization) (lines : List Line) (t : Db) : Prop where
  rest : t = { s with staff := t.staff, userCredential := t.userCredential }
  staffs : t.staff.rows = s.staff.rows ++ (lines.filterMap (·.member)).map (·.1)
  users : t.userCredential.rows = s.userCredential.rows ++ (lines.filterMap (·.member)).map (·.2)
  told : ∀ before line after, lines = before ++ line :: after → Told js s io organization before line

section Rows
variable {js : Js} {s t : Db} {io : Io} {organization : Organization} {lines : List Line} {dto : AddStaffMemberDto} {i : Nat}

/-- The two refusals are never the same text. -/
theorem noDepartment_ne : noDepartment dto ≠ alreadyExists dto := by
  intro h
  have hmessage := congrArg (fun result => result.message.toList.reverse) h
  simp [noDepartment, alreadyExists, toString] at hmessage

theorem Told.of_taken (taken : EmailTaken js s lines dto) : Told js s io organization lines ⟨dto, alreadyExists dto, none⟩ where
  exists_iff := ⟨fun _ => taken, fun _ => rfl⟩
  success := rfl
  enrolled := by
    rintro staff user ⟨⟩
  missing hmissing := absurd hmissing.symm noDepartment_ne
  told := Or.inl rfl

theorem Told.of_missing (free : ¬EmailTaken js s lines dto)
    (missing : ∀ department ∈ s.department, department.orgId = organization.id → department.name ≠ dto.departmentId) :
    Told js s io organization lines ⟨dto, noDepartment dto, none⟩ where
  exists_iff := ⟨fun hexists => absurd hexists noDepartment_ne, fun taken => absurd taken free⟩
  success := rfl
  enrolled := by
    rintro staff user ⟨⟩
  missing _ := missing
  told := Or.inr (Or.inl rfl)

theorem Told.of_enrolled (free : ¬EmailTaken js s lines dto) {staff : Staff} {user : UserCredential}
    (enrolled : Enrolled js s io organization dto staff user) :
    Told js s io organization lines ⟨dto, added dto { staff with userId := none }, some (staff, user)⟩ where
  exists_iff := ⟨fun hexists => (by cases hexists), fun taken => absurd taken free⟩
  success := rfl
  enrolled := by
    rintro staff user ⟨⟩
    exact ⟨enrolled, rfl⟩
  missing hmissing := by cases hmissing
  told := Or.inr (Or.inr rfl)

/-- What is stored now is what was stored before, and what the earlier rows of the request added. -/
theorem Imported.emailTaken_iff (h : Imported js s io organization lines t) :
    (∃ staff ∈ t.staff, staff.email = emailOf js dto) ↔ EmailTaken js s lines dto := by
  have each : ∀ line ∈ lines, ∀ staff user, line.member = some (staff, user) → staff.email = emailOf js line.dto := by
    intro line hline staff user hmember
    obtain ⟨before, after, rfl⟩ := List.append_of_mem hline
    exact ((h.told before line after rfl).enrolled staff user hmember).1.staffEmail
  simp only [← Table.mem_rows, h.staffs, List.mem_append, List.mem_map, List.mem_filterMap, EmailTaken]
  constructor
  · rintro ⟨staff, hold | ⟨⟨_, user⟩, ⟨line, hline, hmember⟩, rfl⟩, hemail⟩
    · exact Or.inl ⟨staff, hold, hemail⟩
    · exact Or.inr ⟨line, hline, Option.isSome_of_eq_some hmember, (each line hline _ user hmember).symm.trans hemail⟩
  · rintro (⟨staff, hold, hemail⟩ | ⟨line, hline, hsome, hemail⟩)
    · exact ⟨staff, Or.inl hold, hemail⟩
    · obtain ⟨⟨staff, user⟩, hmember⟩ := Option.isSome_iff_exists.mp hsome
      exact ⟨staff, Or.inr ⟨(staff, user), ⟨line, hline, hmember⟩, rfl⟩, (each line hline staff user hmember).trans hemail⟩

/-- One more row. -/
theorem Imported.concat (h : Imported js s io organization lines t) {u : Db} {line : Line}
    (rest : u = { t with staff := u.staff, userCredential := u.userCredential })
    (staffs : u.staff.rows = t.staff.rows ++ (line.member.map (·.1)).toList)
    (users : u.userCredential.rows = t.userCredential.rows ++ (line.member.map (·.2)).toList)
    (told : Told js s io organization lines line) : Imported js s io organization (lines ++ [line]) u where
  rest := by rw [rest, h.rest]
  staffs := by
    rw [staffs, h.staffs, List.filterMap_append, List.map_append, List.append_assoc]
    cases hmember : line.member <;> simp [hmember]
  users := by
    rw [users, h.users, List.filterMap_append, List.map_append, List.append_assoc]
    cases hmember : line.member <;> simp [hmember]
  told before line' after hsplit := by
    rcases List.eq_nil_or_concat after with rfl | ⟨after, last, rfl⟩
    · obtain ⟨rfl, hlast⟩ := List.append_inj' hsplit rfl
      cases hlast
      exact told
    · rw [List.concat_eq_append, ← List.cons_append, ← List.append_assoc] at hsplit
      exact h.told before line' after (List.append_inj' hsplit rfl).1

theorem findBy_email_isSome {email : String} :
    (t.staff.findBy (·.email == email)).isSome = true ↔ ∃ staff ∈ t.staff, staff.email = email := by
  simp only [Table.findBy, List.find?_isSome, beq_iff_eq]
  exact Iff.rfl

/-- What the import of a row leaves. -/
theorem Imported.row (h : Imported js s io organization lines t) (horg : organization ∈ s.organization) :
    (addOne js io organization dto i).Returns
      (fun r u => ∀ result, r = .ok result → ∃ line, line.dto = dto ∧ line.result = result ∧
      Imported js s io organization (lines ++ [line]) u) t := by
  have horgNow : organization ∈ t.organization := by
    rw [h.rest]
    exact horg
  have hdepartments : t.department = s.department := by rw [h.rest]
  have unchanged : ∀ result, Told js s io organization lines ⟨dto, result, none⟩ →
      Imported js s io organization (lines ++ [⟨dto, result, none⟩]) t := fun result told =>
    h.concat rfl (List.append_nil _).symm (List.append_nil _).symm told
  simp only [addOne, Prog.returns_bind, returns_query, Prog.then_ok]
  split
  · rename_i hexists
    have taken : EmailTaken js s lines dto := h.emailTaken_iff.mp (findBy_email_isSome.mp hexists)
    rintro _ ⟨⟩
    exact ⟨⟨dto, alreadyExists dto, none⟩, rfl, rfl, unchanged _ (Told.of_taken taken)⟩
  · rename_i hfree
    have free : ¬EmailTaken js s lines dto := fun taken => hfree (findBy_email_isSome.mpr (h.emailTaken_iff.mpr taken))
    simp only [Prog.returns_bind, returns_query, Prog.then_ok]
    split
    · rename_i hnone
      have missing : ∀ department ∈ s.department, department.orgId = organization.id → department.name ≠ dto.departmentId := by
        intro department hdepartment hof hname
        have hmem : department ∈ t.department.filter fun department =>
            department.name == dto.departmentId && department.orgId == organization.id :=
          Table.mem_filter.mpr ⟨hdepartments ▸ hdepartment, by simp [hname, hof]⟩
        rw [RowOrder.first_eq_none.mp hnone] at hmem
        exact absurd hmem List.not_mem_nil
      rintro _ ⟨⟩
      exact ⟨⟨dto, noDepartment dto, none⟩, rfl, rfl, unchanged _ (Told.of_missing free missing)⟩
    · rename_i department hsome
      obtain ⟨hdepartment, hof⟩ := Table.mem_filter.mp (RowOrder.mem_of_first hsome)
      simp only [Bool.and_eq_true, beq_iff_eq] at hof
      simp only [Prog.returns_bind]
      refine returns_createMember_iff horgNow (Table.isSome_find hdepartment rfl) (fun _ _ h => by cases h)
        (fun _ _ _ _ _ _ _ h => by cases h) fun n hn _ _ u hu => ?_
      have enrolled : Enrolled js s io organization dto
          (linkedStaff io i organization dto (emailOf js dto) department.id (codeOf io organization n))
          (newUser io i organization (emailOf js dto)) :=
        ⟨rfl, rfl, rfl, rfl, rfl, ⟨department, hdepartments ▸ hdepartment, hof.2, hof.1, rfl⟩, ⟨i, n, hn, rfl⟩⟩
      have told : Told js s io organization lines _ := Told.of_enrolled free enrolled
      rintro _ ⟨⟩
      exact ⟨⟨dto, _, some (_, _)⟩, rfl, rfl, h.concat hu.rest hu.staffs hu.users told⟩

/-- The induction is on the rows of the request that are left; `lines` are the ones before them. -/
theorem Imported.each {staffList : List AddStaffMemberDto} (h : Imported js s io organization lines t)
    (horg : organization ∈ s.organization) :
    (addEach js io organization staffList i (lines.map (·.result))).Returns (fun r u => ∀ results, r = .ok results →
      ∃ more, more.map (·.dto) = staffList ∧ results = (lines ++ more).map (·.result) ∧
        Imported js s io organization (lines ++ more) u) t := by
  induction staffList generalizing t lines i with
  | nil =>
    rintro _ ⟨⟩
    exact ⟨[], rfl, by rw [List.append_nil], by rwa [List.append_nil]⟩
  | cons dto staffList ih =>
    rw [addEach, Prog.returns_bind]
    refine (h.row horg).mono fun r u hrow => ?_
    cases r with
    | error e => exact fun _ herror => by cases herror
    | ok result =>
      obtain ⟨line, rfl, rfl, hnext⟩ := hrow result rfl
      have hresults : lines.map (·.result) ++ [line.result] = (lines ++ [line]).map (·.result) := by simp
      rw [Prog.then_ok, hresults]
      refine (ih hnext).mono fun r v hrest results hresults => ?_
      obtain ⟨more, hmore, rfl, hv⟩ := hrest results hresults
      refine ⟨line :: more, by rw [List.map_cons, hmore], ?_, ?_⟩
      · rw [List.append_assoc, List.singleton_append]
      · rwa [List.append_assoc, List.singleton_append] at hv

/-- Results are successes where members were added. -/
theorem Imported.length_filter (h : Imported js s io organization lines t) :
    ((lines.map (·.result)).filter (·.success)).length = (lines.filterMap (·.member)).length := by
  have success : ∀ line ∈ lines, line.result.success = line.member.isSome := by
    intro line hline
    obtain ⟨before, after, rfl⟩ := List.append_of_mem hline
    exact (h.told before line after rfl).success
  clear h
  induction lines with
  | nil => rfl
  | cons line lines ih =>
    have hline := success line List.mem_cons_self
    have hrest := ih fun line hline => success line (List.mem_cons_of_mem _ hline)
    cases hmember : line.member <;> rw [hmember] at hline <;> simp [hmember, hline, hrest]

end Rows

/-- What a bulk import that returns reports: one result for each row, in order; the successes are the staff
    members that were added, each with a credential; and a row is told that it exists exactly when its email
    was taken before the import, or by an earlier row that succeeded. -/
theorem addStaffBulk_accounts (js : Js) (io : Io) (orgId : Option String) (role : String) (staffList : List AddStaffMemberDto)
    (qOrgId : Option String) (s t : Db) (reply : BulkReply)
    (hexec : Prog.Exec (addStaffBulk js io orgId role staffList qOrgId) s (.ok reply) t) :
    ∃ organization ∈ s.organization, truthy (targetOrgId orgId role qOrgId) = some organization.id ∧
      ∃ lines : List Line, lines.map (·.dto) = staffList ∧ lines.map (·.result) = reply.details ∧
        Imported js s io organization lines t ∧ reply.imported = (lines.filterMap (·.member)).length ∧
        reply.imported + reply.failed = staffList.length ∧ reply.details.length = staffList.length ∧
        t.staff.rows.length = s.staff.rows.length + reply.imported ∧
        t.userCredential.rows.length = s.userCredential.rows.length + reply.imported := by
  have accounts : (addStaffBulk js io orgId role staffList qOrgId).Post (fun r t => ∀ reply, r = .ok reply →
      ∃ organization ∈ s.organization, truthy (targetOrgId orgId role qOrgId) = some organization.id ∧
        ∃ lines : List Line, lines.map (·.dto) = staffList ∧ lines.map (·.result) = reply.details ∧
          Imported js s io organization lines t ∧ reply.imported = ((lines.map (·.result)).filter (·.success)).length ∧
          reply.failed = ((lines.map (·.result)).filter (!·.success)).length) s := by
    simp only [addStaffBulk, Prog.post_bind, Prog.post_failIf, Prog.post_orFail, post_query, Prog.then_ok,
      Prog.then_error, post_transaction, reduceCtorEq, false_implies, implies_true, true_and, and_true]
    intro target htarget _ organization horganization
    obtain ⟨horg, rfl⟩ := Table.find_eq_some.mp horganization
    have start : Imported js s io organization [] s :=
      ⟨rfl, (List.append_nil _).symm, (List.append_nil _).symm, fun before line after h => by simp at h⟩
    refine (start.each horg).mono fun r t hall => ?_
    cases r with
    | error e => exact fun _ herror => by cases herror
    | ok results =>
      rintro _ ⟨⟩
      obtain ⟨lines, hdtos, rfl, imported⟩ := hall results rfl
      exact ⟨organization, horg, htarget, lines, hdtos, rfl, imported, rfl, rfl⟩
  obtain ⟨organization, horg, htarget, lines, rfl, hdetails, imported, himported, hfailed⟩ := accounts.of_exec hexec reply rfl
  have htotal : reply.imported + reply.failed = (lines.map (·.result)).length := by
    rw [himported, hfailed, ← List.length_eq_length_filter_add]
  rw [imported.length_filter] at himported
  refine ⟨organization, horg, htarget, lines, rfl, hdetails, imported, himported, ?_, ?_, ?_, ?_⟩
  · rw [htotal, List.length_map, List.length_map]
  · rw [← hdetails, List.length_map, List.length_map]
  · rw [imported.staffs, List.length_append, List.length_map, himported]
  · rw [imported.users, List.length_append, List.length_map, himported]

namespace Acme

/-- Bob comes twice, and Cat in no department. -/
def importing : Service BulkReply :=
  addStaffBulk Firm.js io (some "sales") "Admin"
    [{ name := "Bob", email := "bob@mail.com", designation := "Clerk", departmentId := "Desk" },
      { name := "Bob", email := "bob@mail.com", designation := "Clerk", departmentId := "Desk" },
      { name := "Cat", email := "cat@mail.com", designation := "Clerk", departmentId := "Field" }] none

end Acme

section Acme
open Acme

theorem addStaffBulk_accounts_acme : ∃ organization ∈ db.organization, ∃ lines,
    Imported Firm.js db io organization lines (importing.run db).2 := by
  have returned : (importing.run db).1 = .ok {
      imported := 1
      failed := 2
      details := ((importing.run db).1.toOption.map (·.details)).getD [] } := by rfl
  obtain ⟨organization, horg, -, lines, -, -, imported, -⟩ :=
    addStaffBulk_accounts _ _ _ _ _ _ _ _ _ (Prog.exec_of_run (Prod.ext returned rfl))
  exact ⟨organization, horg, lines, imported⟩

end Acme

end Vms.StaffService
