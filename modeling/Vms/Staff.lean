import Vms.Configuration

/-! The staff service (`src/staff/staff.service.ts`): staff members and the credentials they log in with.
    A staff member and the credential are two rows, each with an email and a role of its own. -/

namespace Vms
open Relational HttpException

/-- The role of a credential for a role of a staff member. -/
def MemberRoleEnum.auth : MemberRoleEnum → AuthRoleEnum
  | .superAdmin => .superAdmin
  | .admin => .admin
  | .staff => .staff

/-! ### Cascades -/

/-- The staff members whose identifiers satisfy a condition are deleted, and with them all that refers to
    them: visits, attendance, working hours, notifications, memberships, the teams whose master manager they
    are, and what refers to these in turn. -/
def Db.deleteStaff (s : Db) (gone : String → Bool) : Db :=
  let teamGone (id : String) : Bool := (s.team.find id).any (gone ·.masterManagerId)
  let memberGone (member : TeamMember) : Bool := gone member.staffId || teamGone member.teamId
  { s with
    staff := s.staff.delete (gone ·.id)
    visit := s.visit.delete (gone ·.staffId)
    notification := s.notification.delete fun notification =>
      gone notification.staffId || (s.visit.find notification.visitId).any (gone ·.staffId)
    attendanceSession := s.attendanceSession.delete (gone ·.staffId)
    attendanceEvent := (s.attendanceEvent.delete (gone ·.staffId)).update
      (fun event => (event.sessionId.bind s.attendanceSession.find).any (gone ·.staffId))
      fun event => { event with sessionId := none }
    workingHours := s.workingHours.delete fun hours => hours.staffId.any gone
    team := s.team.delete (gone ·.masterManagerId)
    teamMember := s.teamMember.delete memberGone
    teamReporting := s.teamReporting.delete fun link => gone link.staffId || gone link.managerId || teamGone link.teamId ||
      (link.teamMemberId.bind s.teamMember.find).any memberGone }

/-- A credential is deleted, and with it its tokens and its staff member. -/
def Db.deleteUser (s : Db) (id : String) : Db :=
  let t := s.deleteStaff fun staffId => (s.staff.find staffId).any (·.userId == some id)
  { t with
    userCredential := s.userCredential.delete (·.id == id)
    refreshToken := s.refreshToken.delete (·.userId == some id)
    resetToken := s.resetToken.delete (·.userId == id) }

namespace StaffService

structure AddStaffMemberDto where
  name : String
  email : String
  designation : String
  departmentId : String

structure WorkingHoursDto where
  startsAt : String
  endsAt : String
  days : List Weekday

/-- A number of two digits below a bound. -/
def twoDigits (c d : Char) (bound : Nat) : Option Nat :=
  let n := (c.toNat - '0'.toNat) * 10 + (d.toNat - '0'.toNat)
  if c.isDigit && d.isDigit && n < bound then some n else none

/-- The minute of the day of a text in HH:mm format (`/^([01]\d|2[0-3]):([0-5]\d)$/`). -/
def minuteOfDay (text : String) : Option Nat :=
  match text.toList with
  | [h, h', ':', m, m'] => do
    let hour ← twoDigits h h' 24
    let minute ← twoDigits m m' 60
    return 60 * hour + minute
  | _ => none

/-- What passes the validation of a request. -/
structure WorkingHoursDto.Valid (dto : WorkingHoursDto) : Prop where
  startsAt : (minuteOfDay dto.startsAt).isSome
  endsAt : (minuteOfDay dto.endsAt).isSome
  days : dto.days ≠ []

structure EditStaffMemberDto where
  name : Option String := none
  email : Option String := none
  role : Option MemberRoleEnum := none
  departmentId : Option String := none
  designation : Option String := none
  accountStatus : Option AccountStatusEnum := none
  workingHours : Option WorkingHoursDto := none

/-- What a request draws from outside: the identifiers of the rows it creates and the digits of codes and
    passwords, for the entry `i` of a bulk request; salted hashes; the case of letters, by the tables of Unicode; the
    orders in which rows are read. -/
structure Io where
  staffId : Nat → String
  userId : Nat → String
  userId_ne : ∀ i, userId i ≠ ""
  employeeCodeDigits : Nat → List Nat
  passwordDigits : Nat → Nat
  workingHoursId : Weekday → String
  hash : String → String
  toUpperCase : String → String
  users : RowOrder UserCredential
  departments : RowOrder Department

/-- The result for one entry of a bulk request. -/
structure Result where
  success : Bool
  message : String
  email : Option String := none
  staffMemberDetails : Option Staff := none
  deriving DecidableEq, Repr

structure BulkReply where
  imported : Nat
  failed : Nat
  details : List Result
  deriving DecidableEq, Repr

/-- A transaction that took too long is rolled back. -/
def transactionExpired : HttpException := .prisma "P2028"

/-! ### Statements -/

def createStaff (staff : Staff) : Service Staff :=
  mutate fun s => created ((s.organization.find staff.orgId).isSome &&
      staff.departmentId.all fun id => (s.department.find id).isSome) staff
    (s.staff.insert staff) fun u => { s with staff := u }

/-- The outcome of `update` of a staff member. -/
def updatedStaff (id : String) (change : Staff → Staff) (s : Db) : Except HttpException (Unit × Db) :=
  match s.staff.find id with
  | none => .error rowNotFound
  | some staff =>
    match s.staff.modify (·.id == id) change with
    | none => .error uniqueViolation
    | some u =>
      if (change staff).departmentId.all fun id => (s.department.find id).isSome then .ok ((), { s with staff := u })
      else .error foreignKeyViolation

theorem updatedStaff_eq_ok {id : String} {change : Staff → Staff} {s t : Db} : updatedStaff id change s = .ok ((), t) ↔
    ∃ staff u, s.staff.find id = some staff ∧
      (∀ d, (change staff).departmentId = some d → (s.department.find d).isSome) ∧
      s.staff.modify (·.id == id) change = some u ∧ { s with staff := u } = t := by
  unfold updatedStaff
  cases s.staff.find id with
  | none => simp
  | some staff =>
    cases s.staff.modify (·.id == id) change with
    | none => simp
    | some u =>
      by_cases hrefs : (change staff).departmentId.all (fun id => (s.department.find id).isSome) = true <;>
        simp [hrefs, ← Option.all_eq_true]

def updateStaff (id : String) (change : Staff → Staff) : Service Unit := mutate (updatedStaff id change)

/-- The outcome of `create` of a credential with `staff: { connect: { id: staffId } }`. -/
def createdUser (user : UserCredential) (staffId : String) (s : Db) : Except HttpException (Unit × Db) :=
  match s.userCredential.insert user with
  | none => .error uniqueViolation
  | some users =>
    if user.orgId.all fun id => (s.organization.find id).isSome then
      if (s.staff.find staffId).isNone then .error rowNotFound
      else match s.staff.modify (·.id == staffId) fun staff => { staff with userId := some user.id } with
        | none => .error uniqueViolation
        | some staff => .ok ((), { s with userCredential := users, staff })
    else .error foreignKeyViolation

theorem createdUser_eq_ok {user : UserCredential} {staffId : String} {s t : Db} : createdUser user staffId s = .ok ((), t) ↔
    (∀ id, user.orgId = some id → (s.organization.find id).isSome) ∧ (s.staff.find staffId).isSome ∧
      ∃ users staff, s.userCredential.insert user = some users ∧
        s.staff.modify (·.id == staffId) (fun staff => { staff with userId := some user.id }) = some staff ∧
        { s with userCredential := users, staff } = t := by
  unfold createdUser
  rw [← Option.all_eq_true]
  cases user.orgId.all fun id => (s.organization.find id).isSome <;> cases s.userCredential.insert user <;>
    cases s.staff.find staffId <;>
    cases s.staff.modify (·.id == staffId) (fun staff => { staff with userId := some user.id }) <;> simp

def createUser (user : UserCredential) (staffId : String) : Service Unit := mutate (createdUser user staffId)

def updateUser (id : String) (change : UserCredential → UserCredential) : Service Unit :=
  mutate fun s =>
    if (s.userCredential.find id).isNone then .error rowNotFound
    else match s.userCredential.modify (·.id == id) change with
      | none => .error uniqueViolation
      | some u => .ok ((), { s with userCredential := u })

/-- The hours of a day on which a staff member works, or does not. -/
def newHours (io : Io) (staffId : String) (dto : WorkingHoursDto) (day : Weekday) : WorkingHours :=
  let isSelected := dto.days.contains day
  { id := io.workingHoursId day, dayOfWeek := day, staffId := some staffId, isClosed := !isSelected
    startsAt := if isSelected then dto.startsAt else "09:00"
    endsAt := if isSelected then dto.endsAt else "18:00" }

def upsertWorkingHours (io : Io) (staffId : String) (dto : WorkingHoursDto) (day : Weekday) : Service Unit :=
  let isSelected := dto.days.contains day
  let ofDay (hours : WorkingHours) : Bool := hours.dayOfWeek == day && hours.staffId == some staffId
  mutate fun s =>
    match s.workingHours.findBy ofDay with
    | some _ => .ok ((), { s with workingHours := s.workingHours.update ofDay fun hours => { hours with
        isClosed := !isSelected
        startsAt := if isSelected then dto.startsAt else hours.startsAt
        endsAt := if isSelected then dto.endsAt else hours.endsAt } })
    | none => (created (s.staff.find staffId).isSome (newHours io staffId dto day)
        (s.workingHours.insert (newHours io staffId dto day)) fun u => { s with workingHours := u }).map fun (_, t) => ((), t)

def deleteStaff (id : String) : Service Unit :=
  mutate fun s => if (s.staff.find id).isNone then .error rowNotFound else .ok ((), s.deleteStaff (· == id))

def deleteUser (id : String) : Service Unit :=
  mutate fun s => if (s.userCredential.find id).isNone then .error rowNotFound else .ok ((), s.deleteUser id)

/-! ### Adding staff members -/

/-- `\s` of a regular expression. -/
def isSpace (c : Char) : Bool :=
  let code := c.toNat
  (9 ≤ code && code ≤ 13) || (0x2000 ≤ code && code ≤ 0x200a) ||
    [0x20, 0xa0, 0x1680, 0x2028, 0x2029, 0x202f, 0x205f, 0x3000, 0xfeff].contains code

/-- The first code units of a text. Half of a surrogate pair is stored as the replacement character. -/
def firstUnits : Nat → List Char → List Char
  | 0, _ => []
  | _, [] => []
  | 1, c :: _ => [if c.toNat < 0x10000 then c else Char.ofNat 0xfffd]
  | n + 2, c :: cs => c :: firstUnits (if c.toNat < 0x10000 then n + 1 else n) cs

/-- The first three letters of an organisation's name in upper case, for an employee code without its spaces. -/
def codePrefix (io : Io) (orgName : String) : String :=
  io.toUpperCase (.ofList (firstUnits 3 (orgName.toList.filter fun c => !isSpace c)))

def passwordPrefix (io : Io) (orgName : String) : String := io.toUpperCase (.ofList (firstUnits 3 orgName.toList))

/-- The first of the drawn codes that no staff member of the organisation has. -/
def pickEmployeeCode (orgId codePrefix : String) : List Nat → Service String
  | [] => .fail transactionExpired
  | random :: rest => do
    let employeeCode := s!"{codePrefix}{random}"
    let taken ← query fun s => !(s.staff.filter fun staff => staff.employeeCode == some employeeCode && staff.orgId == orgId).isEmpty
    if taken then pickEmployeeCode orgId codePrefix rest else return employeeCode

def generateUniqueEmployeeCode (io : Io) (i : Nat) (orgId : String) : Service String := do
  let org ← Prog.orFail (.error s!"Organization not found: {orgId}") (← query (·.organization.find orgId))
  pickEmployeeCode orgId (codePrefix io org.name) (io.employeeCodeDigits i)

def generateOneTimePassword (io : Io) (i : Nat) (orgName : String) : String :=
  let digits := io.passwordDigits i
  passwordPrefix io orgName ++ s!"{digits}"

/-- The two rows of a new staff member. -/
def createMember (io : Io) (i : Nat) (organization : Organization) (dto : AddStaffMemberDto)
    (normalizedEmail departmentId : String) : Service Staff := do
  let employeeCode ← generateUniqueEmployeeCode io i organization.id
  let staff ← createStaff {
    id := io.staffId i, orgId := organization.id, name := dto.name, email := normalizedEmail
    departmentId := some departmentId, designation := dto.designation, employeeCode := some employeeCode }
  createUser {
    id := io.userId i, orgId := some organization.id, email := normalizedEmail
    password := io.hash (generateOneTimePassword io i organization.name), role := .staff, firstTimeLogin := some true } staff.id
  return staff

def addStaffMember (js : Js) (io : Io) (orgId : Option String) (role : String) (addStaffMemberDto : AddStaffMemberDto)
    (qOrgId : Option String) : Service Staff := do
  let targetOrgId ← Prog.orFail (.badRequest "Organization ID is required.") (truthy (targetOrgId orgId role qOrgId))
  let normalizedEmail := js.trim (js.toLowerCase addStaffMemberDto.email)
  Prog.failIf (role ∉ ["Root", "SuperAdmin", "Admin"]) (.unauthorized "Only root, superadmin and admin can add employee")
  let organizationExists ← Prog.orFail (.notFound "Organization doesn't exist.") (← query (·.organization.find targetOrgId))
  let staffMemberExists ← query fun s => s.staff.findBy fun staff => staff.email == normalizedEmail && staff.orgId == targetOrgId
  Prog.failIf staffMemberExists.isSome (.badRequest "Member already exist.")
  -- that the QR code or the mail fails is only logged
  transaction (createMember io 0 organizationExists addStaffMemberDto normalizedEmail addStaffMemberDto.departmentId)

/-- One entry of a bulk request, whose `departmentId` is the name of a department. -/
def addOne (js : Js) (io : Io) (organization : Organization) (staffDto : AddStaffMemberDto) (i : Nat) : Service Result := do
  let name := staffDto.name
  let normalizedEmail := js.trim (js.toLowerCase staffDto.email)
  let departmentName := staffDto.departmentId
  let staffMemberExists ← query fun s => s.staff.findBy (·.email == normalizedEmail)
  if staffMemberExists.isSome then
    return { success := false, message := s!"{name} already exists.", email := some staffDto.email }
  else
    let department ← query fun s => io.departments.first (s.department.filter fun department =>
      department.name == departmentName && department.orgId == organization.id)
    match department with
    | none => return { success := false, message := s!"Department {departmentName} not found.", email := some staffDto.email }
    | some department =>
      let staffMember ← createMember io i organization staffDto normalizedEmail department.id
      return { success := true, message := s!"{name} has been added successfully.", staffMemberDetails := some staffMember }

def addEach (js : Js) (io : Io) (organization : Organization) : List AddStaffMemberDto → Nat → List Result →
    Service (List Result)
  | [], _, results => return results
  | staffDto :: staffList, i, results => do
    let result ← addOne js io organization staffDto i
    addEach js io organization staffList (i + 1) (results ++ [result])

def addStaffBulk (js : Js) (io : Io) (orgId : Option String) (role : String) (staffList : List AddStaffMemberDto)
    (qOrgId : Option String) : Service BulkReply := do
  let targetOrgId ← Prog.orFail (.badRequest "Organization ID is required.") (truthy (targetOrgId orgId role qOrgId))
  Prog.failIf (role ∉ ["Root", "SuperAdmin", "Admin"]) (.unauthorized "Only root, superadmin and admin can add employee")
  let organizationExists ← Prog.orFail (.notFound "Organization doesn't exist.") (← query (·.organization.find targetOrgId))
  let results ← transaction (addEach js io organizationExists staffList 0 [])
  return {
    imported := (results.filter (·.success)).length
    failed := (results.filter (!·.success)).length
    details := results }

/-! ### Editing and deleting staff members -/

def allDays : List Weekday := [.monday, .tuesday, .wednesday, .thursday, .friday, .saturday, .sunday]

def upsertEach (io : Io) (staffId : String) (dto : WorkingHoursDto) : List Weekday → Service Unit
  | [] => return ()
  | day :: days => do
    upsertWorkingHours io staffId dto day
    upsertEach io staffId dto days

def editWorkingHours (io : Io) (staffId : String) : Option WorkingHoursDto → Service Unit
  | none => return ()
  | some workingHours => do
    Prog.failIf (¬workingHours.startsAt < workingHours.endsAt) (.badRequest "Working hours start time must be before end time")
    Prog.failIf (workingHours.days = []) (.badRequest "At least one working day must be selected")
    upsertEach io staffId workingHours allDays

/-- Another staff member who is superadmin becomes an admin; a superadmin without a staff member stays. -/
def demoteSuperAdmin (io : Io) (orgId staffId : String) : Service Unit := do
  let existingSuperAdmin ← query fun s =>
    (io.users.first (s.userCredential.filter fun user => user.orgId == some orgId && user.role == .superAdmin)).bind fun user =>
      (s.staff.findBy (·.userId == some user.id)).map fun staff => (user, staff)
  match existingSuperAdmin.filter fun (_, staff) => staff.id != staffId with
  | none => return ()
  | some (user, staff) => do
    updateUser user.id fun user => { user with role := .admin }
    updateStaff staff.id fun staff => { staff with role := .admin }

/-- A demotion to staff disables the account, a promotion activates it. -/
def newAccountStatus (role : MemberRoleEnum) (newRole : Option MemberRoleEnum) : Option AccountStatusEnum :=
  let demoted := if (role = .admin ∨ role = .superAdmin) ∧ newRole = some .staff then some AccountStatusEnum.disabled else none
  if (role = .staff ∧ newRole = some .admin) ∨ newRole = some .superAdmin then some .active else demoted

/-- A staff member who becomes superadmin takes the place of another one. -/
def makeRoom (io : Io) (orgId : String) (staff : Staff) (role : Option MemberRoleEnum) : Service Unit :=
  if role = some .superAdmin ∧ staff.role ≠ .superAdmin then demoteSuperAdmin io orgId staff.id else return ()

/-- The update of the staff member; the table has no column for an account status. -/
def updateMember (staffId : String) (dto : EditStaffMemberDto) : Service Unit := do
  Prog.failIf dto.accountStatus.isSome invalidArgument
  updateStaff staffId fun staff => { staff with
    name := dto.name.getD staff.name
    email := dto.email.getD staff.email
    role := dto.role.getD staff.role
    departmentId := dto.departmentId.or staff.departmentId
    designation := dto.designation.getD staff.designation }

/-- The update of the credential, or a new one for a staff member without. -/
def updateCredential (io : Io) (organization : Organization) (staff : Staff) (dto : EditStaffMemberDto) : Service String :=
  match truthy staff.userId with
  | some userId => do
    updateUser userId fun user => { user with
      role := (dto.role.map (·.auth)).getD user.role
      email := dto.email.getD user.email
      accountStatus := (newAccountStatus staff.role dto.role).getD user.accountStatus }
    return "Staff details updated successfully."
  | none => do
    let email ← Prog.orFail invalidArgument dto.email
    let role ← Prog.orFail invalidArgument dto.role
    createUser {
      id := io.userId 0, orgId := some organization.id, email, role := role.auth, firstTimeLogin := some true
      password := io.hash (generateOneTimePassword io 0 organization.name) } staff.id
    outside (.error "Failed to send email")
    return "Staff updated and one-time password sent to email."

def editStaffMemberDetails (io : Io) (orgId : Option String) (role staffId : String) (editStaffMemberDto : EditStaffMemberDto)
    (qOrgId : Option String) : Service String := do
  Prog.failIf (role ∉ ["Root", "SuperAdmin", "Admin"]) (.unauthorized "You are not allowed to edit staff.")
  let targetOrgId ← Prog.orFail (.badRequest "Organization ID is required.") (truthy (targetOrgId orgId role qOrgId))
  let organization ← Prog.orFail (.notFound "Organization doesn't exist.") (← query (·.organization.find targetOrgId))
  let staff ← Prog.orFail (.notFound "Staff member doesn't exist.") (← query (·.staff.find staffId))
  Prog.failIf (staff.orgId ≠ targetOrgId) (.unauthorized "Staff does not belong to this organization.")
  transaction do
    editWorkingHours io staffId editStaffMemberDto.workingHours
    makeRoom io targetOrgId staff editStaffMemberDto.role
    updateMember staffId editStaffMemberDto
    updateCredential io organization staff editStaffMemberDto

/-- Who may delete whom. -/
def checkDeletion (role : String) (staff : Staff) : Service Unit :=
  if role = "Root" then return ()
  else if role = "SuperAdmin" then
    Prog.failIf (staff.role = .superAdmin) (.unauthorized "SuperAdmin cannot delete another SuperAdmin.")
  else if role = "Admin" then Prog.failIf (staff.role ≠ .staff) (.unauthorized "Admin can only delete Staff.")
  else return ()

def deleteCredential : Option String → Service Unit
  | some userId => deleteUser userId
  | none => return ()

def deleteStaffMember (orgId : Option String) (role staffId : String) (qOrgId : Option String) : Service String := do
  Prog.failIf (role ∉ ["Root", "SuperAdmin", "Admin"]) (.unauthorized "You are not allowed to delete staff.")
  let targetOrgId ← Prog.orFail (.badRequest "Organization ID is required.") (truthy (targetOrgId orgId role qOrgId))
  let _ ← Prog.orFail (.notFound "Organization doesn't exist.") (← query (·.organization.find targetOrgId))
  let staff ← Prog.orFail (.notFound "Staff member doesn't exist.") (← query (·.staff.find staffId))
  Prog.failIf (role ≠ "Root" ∧ staff.orgId ≠ targetOrgId) (.unauthorized "Staff does not belong to this organization.")
  checkDeletion role staff
  deleteStaff staffId
  deleteCredential (truthy staff.userId)
  return "Staff member deleted successfully."

end StaffService
end Vms
