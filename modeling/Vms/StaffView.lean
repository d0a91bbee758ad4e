import Vms.Staff

/-! The views of staff members (`src/staff/staff.service.ts`) with what they did today. Today is the day of a fixed
    time zone, 'Asia/Kolkata'. -/

namespace Vms
open Relational HttpException

namespace StaffService

/-- What dayjs does in that time zone: the beginning of a day, and the same time of the next day. -/
structure Dayjs where
  startOfDay : Date → Date
  addDay : Date → Date
  lt_startOfDay_addDay : ∀ t, t < startOfDay (addDay t)

/-- What a view draws from outside: the clock, and the orders in which rows are read; sessions are read in the
    order of their creation, the latest first. -/
structure ViewIo where
  now : Date
  staff : RowOrder Staff
  events : RowOrder AttendanceEvent
  sessions : RowOrder AttendanceSession
  hours : RowOrder WorkingHours

/-- `{ gte: startOfToday, lt: startOfTomorrow }`. -/
def isToday (dayjs : Dayjs) (now moment : Date) : Bool :=
  decide (dayjs.startOfDay now ≤ moment ∧ moment < dayjs.startOfDay (dayjs.addDay now))

def eventsToday (dayjs : Dayjs) (now : Date) (staffId : String) (s : Db) : List AttendanceEvent :=
  s.attendanceEvent.filter fun event => event.staffId == staffId && isToday dayjs now event.timestamp

def sessionsToday (dayjs : Dayjs) (now : Date) (staffId : String) (s : Db) : List AttendanceSession :=
  s.attendanceSession.filter fun session => session.staffId == staffId && isToday dayjs now session.date

structure StaffView where
  staff : Staff
  department : Option Department
  attendanceEvents : List AttendanceEvent
  attendanceSessions : List AttendanceSession
  deriving DecidableEq

structure StaffDetails extends StaffView where
  organization : Option Organization
  organizationHours : List WorkingHours
  workingHours : List WorkingHours
  deriving DecidableEq

inductive AllStaffReply where
  | noStaff (message : String)
  | staff (numberOfStaff : Nat) (staffDetails : List StaffView)
  deriving DecidableEq

/-- A staff member with the events of today, the latest first, and the session of today that was created last. -/
def viewOf (dayjs : Dayjs) (io : ViewIo) (s : Db) (staff : Staff) : StaffView where
  staff := staff
  department := staff.departmentId.bind s.department.find
  attendanceEvents := io.events.desc (·.timestamp) (eventsToday dayjs io.now staff.id s)
  attendanceSessions := (io.sessions.rows (sessionsToday dayjs io.now staff.id s)).take 1

def detailsOf (dayjs : Dayjs) (io : ViewIo) (s : Db) (staff : Staff) : StaffDetails where
  toStaffView := viewOf dayjs io s staff
  organization := s.organization.find staff.orgId
  organizationHours := io.hours.rows (s.workingHours.filter (·.orgId == some staff.orgId))
  workingHours := io.hours.rows (s.workingHours.filter (·.staffId == some staff.id))

def getAllStaffMemberDetails (dayjs : Dayjs) (io : ViewIo) (orgId : Option String) (role : String) (qOrgId : Option String) :
    Service AllStaffReply := do
  Prog.failIf (role ∉ ["Root", "SuperAdmin", "Admin", "System"])
    (.unauthorized "Only root, superadmin, and admin can access the staff members of an organization.")
  let named := (role = "Root" ∨ role = "System") ∧ (truthy qOrgId).isSome
  let targetOrgId ← Prog.orFail (.badRequest "Organization ID is required.") (truthy (if named then qOrgId else orgId))
  let _ ← Prog.orFail (.notFound "Organization doesn't exist.") (← query (·.organization.find targetOrgId))
  let allStaffMembers ← query fun s => (io.staff.rows (s.staff.filter (·.orgId == targetOrgId))).map (viewOf dayjs io s)
  if allStaffMembers = [] then return .noStaff "There is no staff in this organization currently."
  else return .staff allStaffMembers.length allStaffMembers

def getStaffMemberDetails (dayjs : Dayjs) (io : ViewIo) (orgId : Option String) (role staffId : String) (qOrgId : Option String) :
    Service StaffDetails := do
  Prog.failIf (role ∉ ["Root", "SuperAdmin", "Admin", "System", "Staff"])
    (.unauthorized "Only root, superadmin, and admin can access the staff members of an organization.")
  let targetOrgId ← Prog.orFail (.badRequest "Organization ID is required.") (truthy (targetOrgId orgId role qOrgId))
  let _ ← Prog.orFail (.notFound "Organization doesn't exist.") (← query (·.organization.find targetOrgId))
  let staffExists ← Prog.orFail (.notFound "Staff member doesn't exist.")
    (← query fun s => (s.staff.find staffId).map (detailsOf dayjs io s))
  Prog.failIf (staffExists.staff.orgId ≠ targetOrgId)
    (.badRequest "This staff member does not belong to the specified organization.")
  return staffExists

end StaffService
end Vms
