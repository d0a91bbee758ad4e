import Vms.Service

/-! The visit service (`src/visit/visit.service.ts`): a visitor checks in at the front desk, the host
    accepts or rejects the visit, and the visitor checks out by name or by QR code. -/

namespace Vms
open Relational HttpException

namespace VisitService

structure StartVisitDto where
  fullName : String
  visitorOrganization : String
  email : String
  reasonId : String
  staffId : String

structure EndVisitDto where
  fullName : String
  email : String

structure AcceptVisitDto where
  reason : Option String := none

structure RejectVisitDto where
  reason : String

/-- What a request draws from outside: the clock, the identifiers and default times of the rows it
    creates, the address of an uploaded picture, and the order in which the store returns rows. -/
structure Io where
  now : Date
  repliedAt : Date
  visitId : String
  visitCreatedAt : Date
  notificationId : String
  notificationCreatedAt : Date
  imageUrl : String
  visits : RowOrder Visit
  notifications : RowOrder Notification

/-- A visit with the rows that a query includes. -/
structure VisitDetails where
  visit : Visit
  staff : Option Staff
  department : Option Department
  organization : Option Organization
  reasonOfVisit : Option ReasonOfVisit
  deriving DecidableEq

structure StartVisitReply where
  message : String
  id : String
  visitorId : String
  fullName : String
  email : String
  visitorOrganization : String
  hostName : Option String
  hostDepartment : Option String
  hostDesignation : Option String
  reasonName : Option String
  deriving DecidableEq

structure EndVisitReply where
  message : String
  updatedVisitStatus : VisitDetails
  deriving DecidableEq

/-! ### Statements -/

def includeDetails (s : Db) (visit : Visit) : VisitDetails :=
  let staff := s.staff.find visit.staffId
  { visit, staff
    department := (staff.bind (·.departmentId)).bind s.department.find
    organization := s.organization.find visit.orgId
    reasonOfVisit := visit.reasonId.bind s.reasonOfVisit.find }

def createVisit (visit : Visit) : Service VisitDetails :=
  mutate fun s => (created
    ((s.organization.find visit.orgId).isSome && (s.staff.find visit.staffId).isSome &&
      visit.reasonId.all fun id => (s.reasonOfVisit.find id).isSome) visit
    (s.visit.insert visit) fun u => { s with visit := u }).map fun (visit, t) => (includeDetails t visit, t)

def createNotification (notification : Notification) : Service Notification :=
  mutate fun s => created
    ((s.organization.find notification.orgId).isSome && (s.staff.find notification.staffId).isSome &&
      (s.visit.find notification.visitId).isSome) notification
    (s.notification.insert notification) fun u => { s with notification := u }

/-- The update with which a visit ends. -/
def completeVisit (id : String) (endTime : Date) : Service VisitDetails :=
  mutate fun s => match s.visit.find id with
    | none => .error rowNotFound
    | some visit => .ok (includeDetails s { visit with status := .completed, endTime := some endTime },
        { s with visit := s.visit.update (·.id == id) fun visit =>
            { visit with status := .completed, endTime := some endTime } })

/-- Change a visit if it is still pending; the result is the number of visits changed. -/
def updatePending (visitId : String) (change : Visit → Visit)
    (keys : Row.Fixes change := by exact ⟨fun _ => rfl, fun _ _ => rfl⟩) : Service Nat :=
  mutate fun s => .ok ((s.visit.filter fun visit => visit.id == visitId && visit.status == .pending).length,
    { s with visit := s.visit.update (fun visit => visit.id == visitId && visit.status == .pending) change keys })

def updateNotifications (visitId : String) (action : NotificationAction) : Service Unit :=
  mutate fun s => .ok ((), { s with notification := s.notification.update (·.visitId == visitId) fun notification =>
    { notification with action, isRead := true } })

/-- A mail that the mail server may refuse. -/
def sendMail : Service Unit := outside (.error "Mail server error")

/-! ### Check-in -/

/-- A visit that has not ended. -/
def isActive (status : MeetingStatus) : Bool := status == .pending || status == .accepted || status == .ongoing

def newVisit (io : Io) (orgId fullName email : String) (dto : StartVisitDto) (checkInPicture : Option String) : Visit where
  id := io.visitId
  orgId := orgId
  fullName := fullName
  email := email
  visitorOrganization := dto.visitorOrganization
  reasonId := some dto.reasonId
  staffId := dto.staffId
  checkInPicture := checkInPicture
  status := .pending
  createdAt := io.visitCreatedAt

/-- The address of the uploaded picture, if the request has one. -/
def uploadImage (io : Io) (checkInPicture : Bool) : Service (Option String) :=
  if checkInPicture then do
    outside (.badRequest "Image upload failed")
    return some io.imageUrl
  else return none

def startVisit (js : Js) (io : Io) (orgId : String) (systemId : Option String) (dto : StartVisitDto)
    (checkInPicture : Bool) : Service StartVisitReply := do
  let normalizedEmail := js.trim (js.toLowerCase dto.email)
  let normalizedFullName := js.trim dto.fullName
  let systemId ← Prog.orFail invalidArgument systemId
  let systemCredentialsExists ← Prog.orFail (.badRequest "Invalid user id.") (← query (·.systemCredential.find systemId))
  Prog.failIf (systemCredentialsExists.orgId ≠ orgId) (.badRequest "Invalid credentials.")
  let staffExists ← query fun s => (s.staff.find dto.staffId).filter (·.orgId == orgId)
  let _ ← Prog.orFail (.unauthorized "Invalid staff id or staff doesn't belong to your organization") staffExists
  -- check for an existing active visit for this email
  let activeVisit ← query fun s => io.visits.first (s.visit.filter fun visit =>
    visit.email == normalizedEmail && visit.orgId == orgId && isActive visit.status)
  Prog.failIf activeVisit.isSome (.badRequest "Visitor already has an active visit.")
  let imageUrl ← uploadImage io checkInPicture
  let startVisitDetails ← createVisit (newVisit io orgId normalizedFullName normalizedEmail dto imageUrl)
  let _ ← createNotification {
    id := io.notificationId
    orgId, staffId := dto.staffId, visitId := startVisitDetails.visit.id, type := .visitRequest
    title := "New visitor", message := s!"{dto.fullName} is here to see you.", createdAt := io.notificationCreatedAt }
  sendMail
  sendMail
  return {
    message := s!"{dto.fullName} is waiting for host approval."
    id := startVisitDetails.visit.id
    visitorId := startVisitDetails.visit.id
    fullName := dto.fullName
    email := normalizedEmail
    visitorOrganization := dto.visitorOrganization
    hostName := startVisitDetails.staff.map (·.name)
    hostDepartment := startVisitDetails.staff.bind (·.departmentId)
    hostDesignation := startVisitDetails.staff.map (·.designation)
    reasonName := startVisitDetails.reasonOfVisit.map (·.name) }

/-! ### Check-out -/

/-- A system account, if one asks, belongs to the organisation. -/
def checkSystemAccount (orgId : String) (systemId : Option String) : Service Unit :=
  match truthy systemId with
  | none => return ()
  | some systemId => do
    let systemCredentialsExists ← Prog.orFail (.badRequest "Invalid user id.") (← query (·.systemCredential.find systemId))
    Prog.failIf (systemCredentialsExists.orgId ≠ orgId) (.badRequest "Invalid credentials.")

def endVisit (js : Js) (io : Io) (orgId : String) (dto : EndVisitDto) (systemId role : Option String) :
    Service EndVisitReply := do
  let allowedRoles := ["SuperAdmin", "Admin", "System", "Staff"]
  let normalizedEmail := js.trim (js.toLowerCase dto.email)
  let normalizedFullName := js.trim dto.fullName
  checkSystemAccount orgId systemId
  let visitExists ← query fun s => io.visits.first (s.visit.filter fun visit =>
    visit.fullName == normalizedFullName && visit.orgId == orgId && visit.email == normalizedEmail &&
      visit.status == .ongoing)
  let visitExists ← Prog.orFail (.badRequest "No such visit is on-going.") visitExists
  -- only allow the update if the role is permitted
  Prog.failIf ((truthy role).any fun role => decide (role ∉ allowedRoles)) (.badRequest "You are not allowed to end this visit.")
  let updatedVisitStatus ← completeVisit visitExists.id io.now
  sendMail
  sendMail
  return { message := s!"{normalizedFullName} has checked-out at {js.toLocaleString io.repliedAt}.", updatedVisitStatus }

def endVisitQr (io : Io) (orgId role visitId : String) : Service String := do
  Prog.failIf (orgId = "") (.badRequest "Provide valid orgId.")
  Prog.failIf (visitId = "") (.badRequest "Please scan a valid checkout QR code.")
  let allowedRoles := ["System"]
  Prog.failIf (role ∉ allowedRoles) (.unauthorized "Unauthorized checkout attempt. Invalid role.")
  let _ ← Prog.orFail (.notFound "Organization does not exists.") (← query (·.organization.find orgId))
  let visitExists ← query (·.visit.find visitId)
  let visitExists ← Prog.orFail (.badRequest "Please scan a valid checkout QR code.")
    (visitExists.filter (·.status != .completed))
  Prog.failIf (visitExists.orgId ≠ orgId) (.unauthorized "Unauthorized checkout attempt.")
  let _ ← completeVisit visitExists.id io.now
  sendMail
  sendMail
  return "Visit completed successfully."

/-! ### Decision -/

/-- The transaction of a decision: it moves a pending visit and answers its notifications. -/
def decision (visitId : String) (action : NotificationAction) (change : Visit → Visit)
    (keys : Row.Fixes change := by exact ⟨fun _ => rfl, fun _ _ => rfl⟩) : Service Visit := do
  let count ← updatePending visitId change keys
  Prog.failIf (count = 0) (.conflict "Visit already processed or invalid.")
  updateNotifications visitId action
  Prog.orFail (.internalServerError "Visit updated but not found.") (← query (·.visit.find visitId))

/-- What `acceptVisit` and `rejectVisit` share: the caller's checks and the transaction. -/
def decideVisit (orgId userId role visitId : String) (action : NotificationAction) (change : Visit → Visit)
    (keys : Row.Fixes change := by exact ⟨fun _ => rfl, fun _ _ => rfl⟩) : Service Visit := do
  let allowedRoles := ["SuperAdmin", "Admin", "Staff"]
  Prog.failIf (role ∉ allowedRoles) (.unauthorized "Unauthorized role.")
  let staffExists ← query fun s => (s.staff.findBy (·.userId == some userId)).filter (·.orgId == orgId)
  let staffExists ← Prog.orFail (.notFound "Staff doesn't exists.") staffExists
  let visitExists ← query fun s => (s.visit.find visitId).filter (·.status == .pending)
  let visitExists ← Prog.orFail (.notFound "No such visit found.") (visitExists.filter (·.orgId == orgId))
  Prog.failIf (visitExists.staffId ≠ staffExists.id ∧ role ∉ ["SuperAdmin", "Admin"])
    (.unauthorized "Unauthorised update attempt.")
  transaction (decision visitId action change keys)

def acceptVisit (io : Io) (orgId userId role visitId : String) (dto : AcceptVisitDto) : Service String := do
  let _ ← decideVisit orgId userId role visitId .accepted fun visit =>
    { visit with status := .ongoing, remarks := dto.reason, startTime := some io.now }
  -- the QR code of the visit
  (outside (.error "Failed to generate QR code")).orElse fun _ => pure ()
  (do sendMail; sendMail : Service Unit).orElse fun _ => pure ()
  return "Host has accepted the visit request."

def rejectVisit (orgId userId role visitId : String) (dto : RejectVisitDto) : Service String := do
  let _ ← decideVisit orgId userId role visitId .rejected fun visit =>
    { visit with status := .rejected, remarks := some dto.reason }
  sendMail.orElse fun _ => pure ()
  return "Host has rejected the visit request."

/-! ### Status -/

/-- The first and the last moment of the day of a moment, in the time zone of the server (`setHours`). -/
structure ServerDay where
  startOf : Date → Date
  endOf : Date → Date

structure MeetingStatusReply where
  status : MeetingStatus
  visitId : String
  deriving DecidableEq, Repr

/-- The latest visit of today under an email. -/
def checkMeetingStatus (day : ServerDay) (io : Io) (systemId : Option String) (role orgId email : String) :
    Service MeetingStatusReply := do
  Prog.failIf (role ≠ "System") (.unauthorized "Invalid role.")
  let systemId ← Prog.orFail invalidArgument systemId
  let _ ← Prog.orFail (.notFound "Invalid credentials.") (← query (·.systemCredential.find systemId))
  Prog.failIf (orgId = "" ∨ email = "") (.badRequest "Invalid visit details.")
  let startOfToday := day.startOf io.now
  let endOfToday := day.endOf io.now
  let visit ← query fun s => (io.visits.desc (·.createdAt) (s.visit.filter fun visit =>
    visit.email == email && visit.orgId == orgId && decide (startOfToday ≤ visit.createdAt ∧ visit.createdAt ≤ endOfToday))).head?
  let visit ← Prog.orFail (.notFound "Visit not found.") visit
  Prog.failIf (visit.status = .accepted) (.badRequest "Invalid visit status.")
  return { status := visit.status, visitId := visit.id }

/-! ### Reminder -/

def resendVisitNotification (io : Io) (systemId : Option String) (role orgId visitId : String) : Service Notification := do
  -- authorize the system account
  Prog.failIf (role ≠ "System") (.unauthorized "Invalid role.")
  let systemId ← Prog.orFail invalidArgument systemId
  let _ ← Prog.orFail (.notFound "Invalid credentials.") (← query (·.systemCredential.find systemId))
  let visit ← query (·.visit.find visitId)
  let visit ← Prog.orFail (.notFound "Visit not found.") (visit.filter (·.orgId == orgId))
  Prog.failIf (visit.status ≠ .pending) (.badRequest "Notification can only be resent for pending visits.")
  let lastNotification ← query fun s => (io.notifications.desc (·.createdAt) (s.notification.filter fun notification =>
    notification.visitId == visit.id && (notification.type == .visitRequest || notification.type == .reminder))).head?
  Prog.failIf (lastNotification.any fun last => decide (io.now - last.createdAt < 5 * 60 * 1000))
    (.badRequest "Please wait before resending notification.")
  createNotification {
    id := io.notificationId
    orgId, staffId := visit.staffId, visitId := visit.id, type := .reminder
    title := "Visitor waiting", message := s!"{visit.fullName} is waiting for your approval."
    createdAt := io.notificationCreatedAt }

end VisitService

/-! ### Notifications (`src/notifications/notifications.service.ts`) -/

namespace NotificationsService

def deleteNotification (userId orgId role notificationId : String) : Service String := do
  let allowedRoles := ["SuperAdmin", "Admin", "Staff"]
  Prog.failIf (role ∉ allowedRoles) (.unauthorized "Invalid role.")
  let staffExists ← query fun s => (s.staff.findBy (·.userId == some userId)).filter (·.orgId == orgId)
  let staffExists ← Prog.orFail (.notFound "Staff memeber do not exists.") staffExists
  transaction do
    let notificationExists ← query fun s => (s.notification.find notificationId).filter fun notification =>
      notification.staffId == staffExists.id && notification.orgId == orgId && notification.isRead
    let _ ← Prog.orFail (.notFound "Notification not found.")
      (notificationExists.filter (·.action != .pending))
    mutate fun s =>
      if (s.notification.find notificationId).isNone then .error rowNotFound
      else .ok ((), { s with notification := s.notification.delete (·.id == notificationId) })
  return "Notification deleted successfully."

end NotificationsService
end Vms
