import Vms.Lib.Table

/-! The stored data (`prisma/schema.prisma`): its enumerations, the rows of its tables with their primary
    and unique keys, and the database. Columns that no operation reads or writes are left out. -/

namespace Vms
open Relational

/-- Milliseconds since the epoch. -/
abbrev Date := Int

/-! ### Enumerations -/

inductive MeetingStatus where
  | ongoing | completed | pending | rejected | accepted
  deriving DecidableEq, Repr

inductive AuthRoleEnum where
  | root | superAdmin | admin | staff
  deriving DecidableEq, Repr

inductive MemberRoleEnum where
  | superAdmin | admin | staff
  deriving DecidableEq, Repr

inductive AccountStatusEnum where
  | active | disabled
  deriving DecidableEq, Repr

inductive LoginStatus where
  | loggedIn | loggedOut
  deriving DecidableEq, Repr

inductive AttendanceEventType where
  | punchIn | punchOut | breakStart | breakEnd | latePunchOut
  deriving DecidableEq, Repr

inductive AttendanceSessionStatus where
  | open | closed
  deriving DecidableEq, Repr

inductive AttendanceClosureType where
  | normal | late
  deriving DecidableEq, Repr

inductive AttendanceEventSource where
  | qr | employeeId
  deriving DecidableEq, Repr

inductive NotificationType where
  | visitRequest | system | reminder
  deriving DecidableEq, Repr

inductive NotificationAction where
  | pending | accepted | rejected
  deriving DecidableEq, Repr

inductive Weekday where
  | monday | tuesday | wednesday | thursday | friday | saturday | sunday
  deriving DecidableEq, Repr

inductive BillingCycle where
  | yearly | monthly | weekly
  deriving DecidableEq, Repr

inductive FeatureCode where
  | vmsAccess | staffManagementAccess
  deriving DecidableEq, Repr

inductive SubscriptionStatus where
  | trial | active | expired | canceled
  deriving DecidableEq, Repr

/-! ### Rows -/

structure Organization where
  id : String
  logo : Option String := none
  name : String
  email : String
  address : String := ""
  contactNumber : String := ""
  contactPerson : String := ""
  gst : Option String := none
  accountLimit : Int := 5
  settingCodeEncrypted : Option String := none
  timezone : Option String := none
  deriving DecidableEq, Repr

structure Visit where
  id : String
  orgId : String
  fullName : String
  visitorOrganization : String
  email : String
  reasonId : Option String
  staffId : String
  startTime : Option Date := none
  endTime : Option Date := none
  status : MeetingStatus := .pending
  checkInPicture : Option String := none
  remarks : Option String := none
  createdAt : Date
  deriving DecidableEq, Repr

structure Staff where
  id : String
  orgId : String
  userId : Option String := none
  name : String
  email : String
  designation : String := ""
  departmentId : Option String := none
  role : MemberRoleEnum := .staff
  employeeCode : Option String := none
  badgeActive : Bool := true
  deriving DecidableEq, Repr

structure WorkingHours where
  id : String
  dayOfWeek : Weekday
  startsAt : String
  endsAt : String
  isClosed : Bool := false
  orgId : Option String := none
  staffId : Option String := none
  deriving DecidableEq, Repr

structure AttendanceSession where
  id : String
  orgId : String
  staffId : String
  date : Date
  status : AttendanceSessionStatus := .open
  closureType : Option AttendanceClosureType := none
  isLateClosure : Bool := false
  latePunchOutReason : Option String := none
  latePunchOutRecordedAt : Option Date := none
  firstPunchInAt : Option Date := none
  lastPunchOutAt : Option Date := none
  totalWorkSeconds : Int := 0
  totalBreakSeconds : Int := 0
  deriving DecidableEq, Repr

structure AttendanceEvent where
  id : String
  orgId : String
  staffId : String
  sessionId : Option String
  eventType : AttendanceEventType
  source : AttendanceEventSource := .qr
  timestamp : Date
  isCorrection : Bool := false
  correctionNote : Option String := none
  deriving DecidableEq, Repr

structure RefreshToken where
  id : String
  token : String
  userId : Option String := none
  systemId : Option String := none
  expiryDate : Date
  deriving DecidableEq, Repr

structure UserCredential where
  id : String
  orgId : Option String := none
  email : String
  password : String := ""
  role : AuthRoleEnum
  firstTimeLogin : Option Bool := some true
  accountStatus : AccountStatusEnum := .active
  deriving DecidableEq, Repr

structure SystemCredential where
  id : String
  orgId : String
  email : String
  password : String := ""
  secretCode : Option String := none
  activityStatus : LoginStatus := .loggedOut
  sessionId : Option String := none
  role : String := "System"
  deriving DecidableEq, Repr

structure Department where
  id : String
  orgId : String
  name : String
  deriving DecidableEq, Repr

structure ReasonOfVisit where
  id : String
  orgId : String
  name : String
  deriving DecidableEq, Repr

structure ResetToken where
  id : String
  token : String
  userId : String
  deriving DecidableEq, Repr

structure ResetTokenSystem where
  id : String
  token : String
  systemId : String
  deriving DecidableEq, Repr

structure Team where
  id : String
  orgId : String
  name : String
  masterManagerId : String
  deriving DecidableEq, Repr

structure TeamMember where
  id : String
  teamId : String
  staffId : String
  deriving DecidableEq, Repr

structure TeamReporting where
  id : String
  teamId : String
  staffId : String
  managerId : String
  teamMemberId : Option String := none
  deriving DecidableEq, Repr

structure Plan where
  id : String
  code : String
  name : String
  billingCycle : BillingCycle
  price : Int
  isActive : Bool := true
  description : Option String := none
  deriving DecidableEq, Repr

structure PlanFeature where
  id : String
  planId : String
  feature : FeatureCode
  limit : Option Int := none
  deriving DecidableEq, Repr

structure Subscription where
  id : String
  orgId : String
  planId : String
  status : SubscriptionStatus := .active
  paidAmount : Option Int := none
  startsAt : Date
  endsAt : Date
  trialEndsAt : Option Date := none
  deriving DecidableEq, Repr

structure Notification where
  id : String
  orgId : String
  staffId : String
  visitId : String
  type : NotificationType
  title : String
  message : String
  isRead : Bool := false
  action : NotificationAction := .pending
  createdAt : Date
  deriving DecidableEq, Repr

/-! ### Keys -/

/-- Two values of a unique column that may be null: nulls never clash. -/
def sameValue {α : Type} [DecidableEq α] : Option α → Option α → Bool
  | some a, some b => a == b
  | _, _ => false

theorem sameValue_comm {α : Type} [DecidableEq α] (a b : Option α) : sameValue a b = sameValue b a := by
  cases a <;> cases b <;> simp [sameValue, Bool.beq_comm]

instance : Row Organization where
  id := Organization.id
  clash a b := a.email == b.email
  clash_comm _ _ := Bool.beq_comm

instance : Row Visit where
  id := Visit.id

instance : Row Staff where
  id := Staff.id
  clash a b := sameValue a.userId b.userId || a.email == b.email || sameValue a.employeeCode b.employeeCode
  clash_comm a b := by
    rw [sameValue_comm a.userId, Bool.beq_comm (a := a.email), sameValue_comm a.employeeCode]

instance : Row WorkingHours where
  id := WorkingHours.id
  clash a b := a.dayOfWeek == b.dayOfWeek && (sameValue a.orgId b.orgId || sameValue a.staffId b.staffId)
  clash_comm a b := by
    rw [Bool.beq_comm (a := a.dayOfWeek), sameValue_comm a.orgId, sameValue_comm a.staffId]

instance : Row AttendanceSession where
  id := AttendanceSession.id

instance : Row AttendanceEvent where
  id := AttendanceEvent.id

instance : Row RefreshToken where
  id := RefreshToken.id
  clash a b := a.token == b.token
  clash_comm _ _ := Bool.beq_comm

instance : Row UserCredential where
  id := UserCredential.id
  clash a b := a.email == b.email
  clash_comm _ _ := Bool.beq_comm

instance : Row SystemCredential where
  id := SystemCredential.id
  clash a b := a.email == b.email
  clash_comm _ _ := Bool.beq_comm

instance : Row Department where
  id := Department.id

instance : Row ReasonOfVisit where
  id := ReasonOfVisit.id

instance : Row ResetToken where
  id := ResetToken.id
  clash a b := a.token == b.token || a.userId == b.userId
  clash_comm a b := by rw [Bool.beq_comm (a := a.token), Bool.beq_comm (a := a.userId)]

instance : Row ResetTokenSystem where
  id := ResetTokenSystem.id
  clash a b := a.token == b.token || a.systemId == b.systemId
  clash_comm a b := by rw [Bool.beq_comm (a := a.token), Bool.beq_comm (a := a.systemId)]

instance : Row Team where
  id := Team.id

instance : Row TeamMember where
  id := TeamMember.id
  clash a b := a.teamId == b.teamId && a.staffId == b.staffId
  clash_comm a b := by rw [Bool.beq_comm (a := a.teamId), Bool.beq_comm (a := a.staffId)]

instance : Row TeamReporting where
  id := TeamReporting.id

instance : Row Plan where
  id := Plan.id
  clash a b := a.code == b.code
  clash_comm _ _ := Bool.beq_comm

instance : Row PlanFeature where
  id := PlanFeature.id
  clash a b := a.planId == b.planId && a.feature == b.feature
  clash_comm a b := by rw [Bool.beq_comm (a := a.planId), Bool.beq_comm (a := a.feature)]

instance : Row Subscription where
  id := Subscription.id
  clash a b := a.orgId == b.orgId
  clash_comm _ _ := Bool.beq_comm

instance : Row Notification where
  id := Notification.id

/-! ### The database -/

structure Db where
  organization : Table Organization := ∅
  visit : Table Visit := ∅
  staff : Table Staff := ∅
  workingHours : Table WorkingHours := ∅
  attendanceSession : Table AttendanceSession := ∅
  attendanceEvent : Table AttendanceEvent := ∅
  refreshToken : Table RefreshToken := ∅
  userCredential : Table UserCredential := ∅
  systemCredential : Table SystemCredential := ∅
  department : Table Department := ∅
  reasonOfVisit : Table ReasonOfVisit := ∅
  resetToken : Table ResetToken := ∅
  resetTokenSystem : Table ResetTokenSystem := ∅
  team : Table Team := ∅
  teamMember : Table TeamMember := ∅
  teamReporting : Table TeamReporting := ∅
  plan : Table Plan := ∅
  planFeature : Table PlanFeature := ∅
  subscription : Table Subscription := ∅
  notification : Table Notification := ∅
  deriving DecidableEq

/-- Every foreign key (`@relation`) names a row. -/
structure Db.WellFormed (s : Db) : Prop where
  visit_org : s.visit.References (some ·.orgId) s.organization :=
    by exact Table.references_empty
  visit_reason : s.visit.References (·.reasonId) s.reasonOfVisit :=
    by exact Table.references_empty
  visit_staff : s.visit.References (some ·.staffId) s.staff :=
    by exact Table.references_empty
  staff_org : s.staff.References (some ·.orgId) s.organization :=
    by exact Table.references_empty
  staff_user : s.staff.References (·.userId) s.userCredential :=
    by exact Table.references_empty
  staff_department : s.staff.References (·.departmentId) s.department :=
    by exact Table.references_empty
  workingHours_org : s.workingHours.References (·.orgId) s.organization :=
    by exact Table.references_empty
  workingHours_staff : s.workingHours.References (·.staffId) s.staff :=
    by exact Table.references_empty
  attendanceSession_org : s.attendanceSession.References (some ·.orgId) s.organization :=
    by exact Table.references_empty
  attendanceSession_staff : s.attendanceSession.References (some ·.staffId) s.staff :=
    by exact Table.references_empty
  attendanceEvent_org : s.attendanceEvent.References (some ·.orgId) s.organization :=
    by exact Table.references_empty
  attendanceEvent_staff : s.attendanceEvent.References (some ·.staffId) s.staff :=
    by exact Table.references_empty
  attendanceEvent_session : s.attendanceEvent.References (·.sessionId) s.attendanceSession :=
    by exact Table.references_empty
  refreshToken_user : s.refreshToken.References (·.userId) s.userCredential :=
    by exact Table.references_empty
  refreshToken_system : s.refreshToken.References (·.systemId) s.systemCredential :=
    by exact Table.references_empty
  userCredential_org : s.userCredential.References (·.orgId) s.organization :=
    by exact Table.references_empty
  systemCredential_org : s.systemCredential.References (some ·.orgId) s.organization :=
    by exact Table.references_empty
  department_org : s.department.References (some ·.orgId) s.organization :=
    by exact Table.references_empty
  reasonOfVisit_org : s.reasonOfVisit.References (some ·.orgId) s.organization :=
    by exact Table.references_empty
  resetToken_user : s.resetToken.References (some ·.userId) s.userCredential :=
    by exact Table.references_empty
  resetTokenSystem_system : s.resetTokenSystem.References (some ·.systemId) s.systemCredential :=
    by exact Table.references_empty
  team_org : s.team.References (some ·.orgId) s.organization :=
    by exact Table.references_empty
  team_masterManager : s.team.References (some ·.masterManagerId) s.staff :=
    by exact Table.references_empty
  teamMember_team : s.teamMember.References (some ·.teamId) s.team :=
    by exact Table.references_empty
  teamMember_staff : s.teamMember.References (some ·.staffId) s.staff :=
    by exact Table.references_empty
  teamReporting_team : s.teamReporting.References (some ·.teamId) s.team :=
    by exact Table.references_empty
  teamReporting_staff : s.teamReporting.References (some ·.staffId) s.staff :=
    by exact Table.references_empty
  teamReporting_manager : s.teamReporting.References (some ·.managerId) s.staff :=
    by exact Table.references_empty
  teamReporting_teamMember : s.teamReporting.References (·.teamMemberId) s.teamMember :=
    by exact Table.references_empty
  planFeature_plan : s.planFeature.References (some ·.planId) s.plan :=
    by exact Table.references_empty
  subscription_org : s.subscription.References (some ·.orgId) s.organization :=
    by exact Table.references_empty
  subscription_plan : s.subscription.References (some ·.planId) s.plan :=
    by exact Table.references_empty
  notification_org : s.notification.References (some ·.orgId) s.organization :=
    by exact Table.references_empty
  notification_staff : s.notification.References (some ·.staffId) s.staff :=
    by exact Table.references_empty
  notification_visit : s.notification.References (some ·.visitId) s.visit :=
    by exact Table.references_empty

end Vms
