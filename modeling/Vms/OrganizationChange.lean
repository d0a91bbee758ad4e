import Vms.Attendance
import Vms.Staff

/-! What the organisation service (`src/organization/organization.service.ts`) changes: an organisation is
    created with a subscription, edited, moved to another plan, and deleted with all that it has. -/

namespace Vms
open Relational HttpException

/-! ### Cascades -/

/-- The references that are set to null. -/
def withoutDepartment (staff : Staff) : Staff := { staff with departmentId := none }

def withoutReason (visit : Visit) : Visit := { visit with reasonId := none }

def withoutSession (event : AttendanceEvent) : AttendanceEvent := { event with sessionId := none }

theorem withoutDepartment_keys : Row.Fixes withoutDepartment := ⟨fun _ => rfl, fun _ _ => rfl⟩

theorem withoutReason_keys : Row.Fixes withoutReason := ⟨fun _ => rfl, fun _ _ => rfl⟩

theorem withoutSession_keys : Row.Fixes withoutSession := ⟨fun _ => rfl, fun _ _ => rfl⟩

/-- An organisation is deleted, and with it all that refers to it, and what refers to these in turn. -/
def Db.deleteOrganization (s : Db) (orgId : String) : Db :=
  let userGone (id : String) : Bool := (s.userCredential.find id).any (·.orgId == some orgId)
  let systemGone (id : String) : Bool := (s.systemCredential.find id).any (·.orgId == orgId)
  let departmentGone (id : String) : Bool := (s.department.find id).any (·.orgId == orgId)
  let reasonGone (id : String) : Bool := (s.reasonOfVisit.find id).any (·.orgId == orgId)
  let staffGone (id : String) : Bool :=
    (s.staff.find id).any fun staff => staff.orgId == orgId || staff.userId.any userGone
  let visitGone (id : String) : Bool :=
    (s.visit.find id).any fun visit => visit.orgId == orgId || staffGone visit.staffId
  let sessionGone (id : String) : Bool :=
    (s.attendanceSession.find id).any fun session => session.orgId == orgId || staffGone session.staffId
  let teamGone (id : String) : Bool :=
    (s.team.find id).any fun team => team.orgId == orgId || staffGone team.masterManagerId
  let memberGone (id : String) : Bool :=
    (s.teamMember.find id).any fun member => teamGone member.teamId || staffGone member.staffId
  { s with
    organization := s.organization.delete (·.id == orgId)
    userCredential := s.userCredential.delete (userGone ·.id)
    systemCredential := s.systemCredential.delete (systemGone ·.id)
    department := s.department.delete (departmentGone ·.id)
    reasonOfVisit := s.reasonOfVisit.delete (reasonGone ·.id)
    staff := (s.staff.delete (staffGone ·.id)).update (fun staff => staff.departmentId.any departmentGone)
      withoutDepartment withoutDepartment_keys
    visit := (s.visit.delete (visitGone ·.id)).update (fun visit => visit.reasonId.any reasonGone)
      withoutReason withoutReason_keys
    notification := s.notification.delete fun notification =>
      notification.orgId == orgId || staffGone notification.staffId || visitGone notification.visitId
    attendanceSession := s.attendanceSession.delete (sessionGone ·.id)
    attendanceEvent := (s.attendanceEvent.delete fun event => event.orgId == orgId || staffGone event.staffId).update
      (fun event => event.sessionId.any sessionGone) withoutSession withoutSession_keys
    workingHours := s.workingHours.delete fun hours => hours.orgId == some orgId || hours.staffId.any staffGone
    refreshToken := s.refreshToken.delete fun token => token.userId.any userGone || token.systemId.any systemGone
    resetToken := s.resetToken.delete (userGone ·.userId)
    resetTokenSystem := s.resetTokenSystem.delete (systemGone ·.systemId)
    team := s.team.delete (teamGone ·.id)
    teamMember := s.teamMember.delete (memberGone ·.id)
    teamReporting := s.teamReporting.delete fun link => teamGone link.teamId || staffGone link.staffId ||
      staffGone link.managerId || link.teamMemberId.any memberGone
    subscription := s.subscription.delete (·.orgId == orgId) }

/-- The encryption of Node (`aes-256-gcm`), with the initialisation vector it draws; a key of the wrong
    length throws. The result is the authentication tag and the encrypted text. -/
structure Cipher where
  iv : String
  cipher : (key iv text : String) → Except HttpException (String × String)

def encrypt (cipher : Cipher) (text key : String) : Except HttpException String :=
  (cipher.cipher key cipher.iv text).map fun (authTag, encrypted) => cipher.iv ++ ":" ++ authTag ++ ":" ++ encrypted

namespace OrganizationService
open StaffService (WorkingHoursDto allDays)
open Attendance (fitsInt)

/-- The smallest account limit that passes the validation of a request (`@Min(1)`). -/
def minAccountLimit : Int := 1

structure CreateOrganizationDto where
  name : String
  email : String
  timezone : String
  address : String
  contactNumber : String
  contactPerson : String
  gst : Option String := none
  settingCode : String
  accountLimit : Int
  accountLimit_min : minAccountLimit ≤ accountLimit := by decide
  planId : String
  startsAt : String
  endsAt : String

/-- An optional field of a request may be left out, or be null. -/
structure EditOrganizationDto where
  name : Option (Option String) := none
  email : Option (Option String) := none
  timezone : String
  address : Option (Option String) := none
  contactNumber : Option (Option String) := none
  contactPerson : Option (Option String) := none
  gst : Option (Option String) := none
  settingCode : String
  accountLimit : Option Int := none
  accountLimit_min : ∀ limit ∈ accountLimit, minAccountLimit ≤ limit := by decide
  workingHours : Option WorkingHoursDto := none

structure UpdateSubscriptionDto where
  planId : String
  startsAt : String
  endsAt : String

/-- What a change draws from outside: identifiers of the rows it creates, the address of an uploaded logo,
    and the cipher. `newDate` is `new Date` of JavaScript (`none` for an Invalid Date), `dateTime` reads a
    text for a column of the database, which takes fewer of them. -/
structure ChangeIo where
  organizationId : String
  subscriptionId : String
  workingHoursId : Weekday → String
  logoUrl : String
  encryptionKey : Option String
  cipher : Cipher
  newDate : String → Option Date
  dateTime : String → Option Date

structure CreateOrganizationReply where
  organizationDetails : Organization
  subscriptionDetails : Subscription
  deriving DecidableEq

/-! ### Statements -/

def insertOrganization (organization : Organization) : Service Organization :=
  mutate fun s =>
    if !fitsInt organization.accountLimit then .error outOfRange
    else created true organization (s.organization.insert organization) fun u => { s with organization := u }

def insertSubscription (subscription : Subscription) : Service Subscription :=
  mutate fun s => created
    ((s.organization.find subscription.orgId).isSome && (s.plan.find subscription.planId).isSome) subscription
    (s.subscription.insert subscription) fun u => { s with subscription := u }

def updateOrganization (id : String) (change : Organization → Organization) : Service Unit :=
  mutate fun s =>
    if (s.organization.find id).isNone then .error rowNotFound
    else match s.organization.modify (·.id == id) change with
      | none => .error uniqueViolation
      | some u => .ok ((), { s with organization := u })

/-- The hours of a day on which the organisation works, or does not. -/
def newHours (io : ChangeIo) (orgId : String) (dto : WorkingHoursDto) (day : Weekday) : WorkingHours :=
  let isSelected := dto.days.contains day
  { id := io.workingHoursId day, dayOfWeek := day, orgId := some orgId, isClosed := !isSelected
    startsAt := if isSelected then dto.startsAt else "09:00"
    endsAt := if isSelected then dto.endsAt else "18:00" }

/-- The hours of a day change; a day that is not selected is closed, and keeps its times. -/
def setHours (dto : WorkingHoursDto) (isSelected : Bool) (hours : WorkingHours) : WorkingHours :=
  { hours with
    isClosed := !isSelected
    startsAt := if isSelected then dto.startsAt else hours.startsAt
    endsAt := if isSelected then dto.endsAt else hours.endsAt }

theorem setHours_keys (dto : WorkingHoursDto) (isSelected : Bool) : Row.Fixes (setHours dto isSelected) :=
  ⟨fun _ => rfl, fun _ _ => rfl⟩

def upsertWorkingHours (io : ChangeIo) (orgId : String) (dto : WorkingHoursDto) (day : Weekday) : Service Unit :=
  let isSelected := dto.days.contains day
  let ofDay (hours : WorkingHours) : Bool := hours.dayOfWeek == day && hours.orgId == some orgId
  mutate fun s =>
    match s.workingHours.findBy ofDay with
    | some _ => .ok ((), { s with
        workingHours := s.workingHours.update ofDay (setHours dto isSelected) (setHours_keys dto isSelected) })
    | none => (created (s.organization.find orgId).isSome (newHours io orgId dto day)
        (s.workingHours.insert (newHours io orgId dto day)) fun u => { s with workingHours := u }).map fun (_, t) => ((), t)

def upsertSubscription (io : ChangeIo) (orgId planId : String) (startsAt endsAt : Date) : Service Unit :=
  mutate fun s =>
    match s.subscription.findBy (·.orgId == orgId) with
    | some _ =>
      if (s.plan.find planId).isNone then .error foreignKeyViolation
      else .ok ((), { s with subscription := s.subscription.update (·.orgId == orgId) fun subscription =>
        { subscription with planId, startsAt, endsAt } })
    | none => (created ((s.plan.find planId).isSome && (s.organization.find orgId).isSome)
        { id := io.subscriptionId, orgId, planId, status := .active, startsAt, endsAt : Subscription }
        (s.subscription.insert { id := io.subscriptionId, orgId, planId, status := .active, startsAt, endsAt })
        fun u => { s with subscription := u }).map fun (_, t) => ((), t)

def removeOrganization (orgId : String) : Service Unit :=
  mutate fun s => if (s.organization.find orgId).isNone then .error rowNotFound else .ok ((), s.deleteOrganization orgId)

/-! ### Creation -/

/-- The address of the uploaded logo, if the request has one. -/
def uploadLogo (io : ChangeIo) (logo : Bool) : Service (Option String) :=
  if logo then do
    outside (.badRequest "Image upload failed")
    return some io.logoUrl
  else return none

/-- The dates of a new subscription. -/
def subscriptionDates (io : ChangeIo) (startsAt endsAt : String) : Service (Date × Date) := do
  let startsAtDate ← Prog.orFail (.badRequest "Invalid start or end date") (io.newDate startsAt)
  let endsAtDate ← Prog.orFail (.badRequest "Invalid start or end date") (io.newDate endsAt)
  Prog.failIf (endsAtDate ≤ startsAtDate) (.badRequest "End date must be after start date")
  return (startsAtDate, endsAtDate)

def createOrganization (js : Js) (io : ChangeIo) (role : String) (createOrganizationDto : CreateOrganizationDto) (logo : Bool) :
    Service CreateOrganizationReply := do
  Prog.failIf (role ∉ ["Root"]) (.unauthorized "Only root user can create an organization.")
  let normalizedEmail := js.trim (js.toLowerCase createOrganizationDto.email)
  let organizationExists ← query fun s => s.organization.findBy (·.email == normalizedEmail)
  Prog.failIf organizationExists.isSome (.badRequest "Organization already exist.")
  let logoUrl ← uploadLogo io logo
  let encryptionKey ← Prog.orFail (.error "Encryption key is not set in environment variables") (truthy io.encryptionKey)
  let settingCodeEncrypted ← Prog.ofExcept (encrypt io.cipher createOrganizationDto.settingCode encryptionKey)
  let (startsAtDate, endsAtDate) ← subscriptionDates io createOrganizationDto.startsAt createOrganizationDto.endsAt
  let _ ← Prog.orFail (.badRequest "Invalid plan selected") (← query (·.plan.find createOrganizationDto.planId))
  let result ← transaction do
    let organization ← insertOrganization {
      id := io.organizationId
      name := createOrganizationDto.name, email := normalizedEmail, address := createOrganizationDto.address
      contactNumber := createOrganizationDto.contactNumber, contactPerson := createOrganizationDto.contactPerson
      gst := truthy createOrganizationDto.gst, logo := logoUrl, accountLimit := createOrganizationDto.accountLimit
      settingCodeEncrypted := some settingCodeEncrypted, timezone := some createOrganizationDto.timezone }
    let subscription ← insertSubscription {
      id := io.subscriptionId, orgId := organization.id, planId := createOrganizationDto.planId
      startsAt := startsAtDate, endsAt := endsAtDate }
    return { organizationDetails := organization, subscriptionDetails := subscription : CreateOrganizationReply }
  outside (.error "Mail server error")
  return result

/-! ### Edits -/

/-- A superadmin edits their own organisation, and not its account limit; the result is the limit that the
    request is left with. -/
def editableLimit (role userId : String) (organization : Organization) (accountLimit : Option Int) : Service (Option Int) :=
  if role = "SuperAdmin" then do
    let superAdminExist ← Prog.orFail (.badRequest "Invalid request. SuperAdmin does not exist.")
      (← query (·.userCredential.find userId))
    Prog.failIf (superAdminExist.orgId ≠ some organization.id)
      (.unauthorized "Unauthorized update attempt. SuperAdmin belongs to a different organization.")
    return none
  else return accountLimit

/-- An account limit below the number of accounts is refused. -/
def checkAccountLimit (orgId : String) : Option Int → Service Unit
  | none => return ()
  | some accountLimit => do
    let systemAccountCount ← query fun s => (s.systemCredential.filter (·.orgId == orgId)).length
    Prog.failIf ((systemAccountCount : Int) > accountLimit)
      (.badRequest s!"Account limit too low. Number of current system accounts: {systemAccountCount}")

def checkWorkingHours : Option WorkingHoursDto → Service Unit
  | none => return ()
  | some workingHours => do
    Prog.failIf (¬workingHours.startsAt < workingHours.endsAt) (.badRequest "Working hours start time must be before end time")
    Prog.failIf (workingHours.days = []) (.badRequest "At least one working day must be selected")

/-- The setting code of a request, encrypted, unless it is blank. -/
def newSettingCode (js : Js) (io : ChangeIo) (settingCode encryptionKey : String) : Except HttpException (Option String) :=
  if js.trim settingCode ≠ "" then (encrypt io.cipher settingCode encryptionKey).map some else .ok none

/-- The columns of a request for which null is no value. -/
def refusesNull (dto : EditOrganizationDto) : Bool :=
  [dto.name, dto.email, dto.address, dto.contactNumber, dto.contactPerson].any (· == some none)

/-- The new value of a column, unless the request leaves it out. -/
def given (value : Option (Option String)) (old : String) : String := value.join.getD old

/-- The update of an organisation by a request that leaves the account limit as it is, or sets it. -/
def editedOrganization (dto : EditOrganizationDto) (accountLimit : Option Int) (settingCodeEncrypted logoUrl : Option String)
    (organization : Organization) : Organization :=
  { organization with
    name := given dto.name organization.name
    email := given dto.email organization.email
    timezone := some dto.timezone
    address := given dto.address organization.address
    contactNumber := given dto.contactNumber organization.contactNumber
    contactPerson := given dto.contactPerson organization.contactPerson
    gst := dto.gst.getD organization.gst
    accountLimit := accountLimit.getD organization.accountLimit
    settingCodeEncrypted := settingCodeEncrypted.or organization.settingCodeEncrypted
    logo := (truthy logoUrl).or organization.logo }

def upsertEach (io : ChangeIo) (orgId : String) (dto : WorkingHoursDto) : List Weekday → Service Unit
  | [] => return ()
  | day :: days => do
    upsertWorkingHours io orgId dto day
    upsertEach io orgId dto days

def editWorkingHours (io : ChangeIo) (orgId : String) : Option WorkingHoursDto → Service Unit
  | none => return ()
  | some workingHours => upsertEach io orgId workingHours allDays

def editOrganizationDetails (js : Js) (io : ChangeIo) (orgId role : String) (editOrganizationDto : EditOrganizationDto)
    (userId : String) (logo : Bool) : Service String := do
  Prog.failIf (role ∉ ["Root", "SuperAdmin"])
    (.unauthorized "Only root and superadmin are allowed to edit organization details.")
  Prog.failIf (orgId = "") (.badRequest "Organization ID is required.")
  let orgExists ← Prog.orFail (.notFound "Organization doesn't exist.") (← query (·.organization.find orgId))
  let accountLimit ← editableLimit role userId orgExists editOrganizationDto.accountLimit
  checkAccountLimit orgId accountLimit
  let logoUrl ← uploadLogo io logo
  let encryptionKey ← Prog.orFail (.internalServerError "ENCRYPTION_KEY is not set in environment variables")
    (truthy io.encryptionKey)
  let settingCodeEncrypted ← Prog.ofExcept (newSettingCode js io editOrganizationDto.settingCode encryptionKey)
  checkWorkingHours editOrganizationDto.workingHours
  transaction do
    Prog.failIf (refusesNull editOrganizationDto = true) invalidArgument
    Prog.failIf (¬accountLimit.all fitsInt) outOfRange
    updateOrganization orgId (editedOrganization editOrganizationDto accountLimit settingCodeEncrypted logoUrl)
    editWorkingHours io orgId editOrganizationDto.workingHours
  return "Organization details have been updated successfully."

/-! ### Subscription and deletion -/

/-- `startsAt >= endsAt` of two dates; an Invalid Date compares with none. -/
def notBefore (startsAt endsAt : Option Date) : Bool :=
  match startsAt, endsAt with
  | some startsAt, some endsAt => decide (endsAt ≤ startsAt)
  | _, _ => false

def updateSubscription (io : ChangeIo) (userId role orgId : String) (dto : UpdateSubscriptionDto) : Service String := do
  Prog.failIf (role ∉ ["Root"]) (.unauthorized "Only root user is allowed to change plan.")
  let userExistsAndIsRoot ← query fun s => (s.userCredential.find userId).filter (·.role == .root)
  let _ ← Prog.orFail (.notFound "User doesn't exists.") userExistsAndIsRoot
  let organizationExists ← query (·.organization.find orgId)
  Prog.failIf (notBefore (io.newDate dto.startsAt) (io.newDate dto.endsAt) = true)
    (.badRequest "startsAt must be before endsAt")
  let _ ← Prog.orFail (.notFound "Organization doesn't exists.") organizationExists
  transaction do
    let planExists ← query fun s => (s.plan.find dto.planId).filter (·.isActive)
    let _ ← Prog.orFail (.notFound "Plan doesn't exists.") planExists
    let startsAt ← Prog.orFail invalidArgument (io.dateTime dto.startsAt)
    let endsAt ← Prog.orFail invalidArgument (io.dateTime dto.endsAt)
    upsertSubscription io orgId dto.planId startsAt endsAt
  return "Plan updated successfully."

def deleteOrganization (orgId role : String) : Service String := do
  Prog.failIf (role ∉ ["Root"]) (.unauthorized "Only root user can delete organization.")
  let _ ← Prog.orFail (.notFound "Organization doesn't exist.") (← query (·.organization.find orgId))
  removeOrganization orgId
  return "Organization has been deleted successfully."

end OrganizationService
end Vms
