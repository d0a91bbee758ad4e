import Vms.OrganizationChange
import Vms.Plan
import Vms.SystemSession
import Vms.Team
import Vms.Visit

/-! The endpoints that write (`src/*/*.controller.ts`): what each of them takes from the request and from its caller,
    and the guards before it. Requests that run at the same time take turns by accesses; an interactive transaction is one of
    these (`transaction`), so what Postgres lets happen between its statements at READ COMMITTED is left out. -/

namespace Vms
open Relational HttpException

/-! ### The role guard -/

/-- The guard of an endpoint that requires a role (`src/guard/user-role.guard.ts`): the role that is stored, not the one
    in the token. -/
def requireRole (requiredRole : AuthRoleEnum) (userId : Option String) : Service Unit := do
  let userId ← Prog.orFail (.unauthorized "User not authenticated") (truthy userId)
  let user ← query fun s => (s.userCredential.find userId).filter (·.role == requiredRole)
  let _ ← Prog.orFail (.forbidden s!"User doesn't have required role: {requiredRole.name}") user

/-! ### Endpoints -/

/-- What the server is set up with. -/
structure Server where
  jwt : Jwt
  js : Js
  luxon : Attendance.Luxon
  compare : String → String → Bool

namespace Server

/-- The endpoints without a guard. -/
inductive OpenEndpoint where
  -- `src/auth/auth.controller.ts`
  | registerRoot (hash : String → String) (userId : String) (registerRootDto : RegisterRootDto)
  | loginUser (io : AuthService.Io) (email password : String) (newPassword : Option String)
  | refreshAccessToken (io : AuthService.Io) (refreshToken : String)
  | forgotPassword (hash : String → String) (resetTokenId otp email : String)
  | resetPassword (io : AuthService.Io) (resetPasswordDto : ResetPasswordDto)
  -- `src/system/system.controller.ts`
  | loginSystemUser (io : SystemService.SessionIo) (email password : String)
  | refreshSystemAccessToken (io : SystemService.SessionIo) (token : String)
  | forgotSystemPassword (hash : String → String) (resetTokenId otp email : String)
  | resetSystemPassword (hash : String → String) (resetPasswordDto : ResetPasswordDto)

/-- The endpoints behind the guard. -/
inductive Endpoint where
  -- `src/auth/auth.controller.ts`
  | changePassword (io : AuthService.Io) (oldPassword newPassword : String)
  | logout
  -- `src/system/system.controller.ts`
  | registerSystemUser (io : SystemService.Io) (registerSystemUserDto : SystemService.RegisterSystemUserDto)
  | logoutSystemAccount
  | deleteSystemAccount (systemId : String)
  | logoutAllSystemAccounts
  | logoutSystemAccountWeb (systemId : String)
  | updateSystemDetails (systemId : String) (editSystemUserDto : SystemService.EditSystemUserDto)
  -- `src/visit/visit.controller.ts`
  | startVisit (io : VisitService.Io) (startVisitDto : VisitService.StartVisitDto) (checkInPicture : Bool)
  | endVisit (io : VisitService.Io) (endVisitDto : VisitService.EndVisitDto)
  | resendNotification (io : VisitService.Io) (visitId : String)
  | checkoutQr (io : VisitService.Io) (visitId : String)
  | acceptVisit (io : VisitService.Io) (visitId : String) (dto : VisitService.AcceptVisitDto)
  | rejectVisit (visitId : String) (dto : VisitService.RejectVisitDto)
  -- `src/notifications/notifications.controller.ts`
  | deleteNotification (notificationId : String)
  -- `src/attendance/attendance.controller.ts`
  | action (io : Attendance.Io) (dto : Attendance.AttendanceActionDto)
  -- `src/department/department.controller.ts`
  | createDepartment (io : Listing.Io Department) (createDepartmentDto : DepartmentService.CreateDepartmentDto)
      (qOrgId : Option String)
  | addDepartmentBulk (io : Listing.Io Department) (departmentList : List DepartmentService.CreateDepartmentDto)
      (qOrgId : Option String)
  | deleteDepartment (departmentId : String) (qOrgId : Option String)
  -- `src/reason/reason.controller.ts`
  | addReason (io : Listing.Io ReasonOfVisit) (addReasonDto : ReasonService.AddReasonDto) (qOrgId : Option String)
  | addReasonBulk (io : Listing.Io ReasonOfVisit) (reasonList : List ReasonService.AddReasonDto) (qOrgId : Option String)
  | deleteReason (reasonId : String) (qOrgId : Option String)
  -- `src/staff/staff.controller.ts`
  | addStaffMember (io : StaffService.Io) (addStaffMemberDto : StaffService.AddStaffMemberDto) (qOrgId : Option String)
  | addStaffBulk (io : StaffService.Io) (addStaff : List StaffService.AddStaffMemberDto) (qOrgId : Option String)
  | updateStaffMember (io : StaffService.Io) (staffId : String) (editStaffMemberDto : StaffService.EditStaffMemberDto)
      (qOrgId : Option String)
  | deleteStaffMember (staffId : String) (qOrgId : Option String)
  -- `src/team/team.controller.ts`
  | createTeam (io : TeamService.Io) (dto : TeamService.CreateTeamDto)
  | addMembers (io : TeamService.Io) (teamId : String) (dto : TeamService.AddMembersDto)
  | editTeam (teamId : String) (dto : TeamService.EditTeamDto)
  | removeReporting (io : TeamService.Io) (teamId : String) (dto : TeamService.RemoveReportingDto)
  | deleteMember (teamId memberId : String)
  | setReportingBulk (io : Nat → TeamService.Io) (teamId : String) (dto : TeamService.BulkSetReportingDto)
  | deleteTeam (teamId : String)
  -- `src/organization/organization.controller.ts`
  | createOrganization (io : OrganizationService.ChangeIo) (createOrganizationDto : OrganizationService.CreateOrganizationDto)
      (logo : Bool)
  | editOrganizationDetails (io : OrganizationService.ChangeIo) (orgId : String)
      (editOrganizationDto : OrganizationService.EditOrganizationDto) (logo : Bool)
  | updateOrganizationPlan (io : OrganizationService.ChangeIo) (orgId : String)
      (dto : OrganizationService.UpdateSubscriptionDto)
  | deleteOrganization (orgId : String)
  -- `src/plan/plan.controller.ts`
  | createPlan (io : PlanService.Io) (dto : PlanService.CreatePlanDto)
  | updatePlan (io : PlanService.Io) (planId : String) (dto : PlanService.UpdatePlanDto)
  | softDeletePlan (planId : String)

/-- The reply is dropped. -/
def answer {α : Type} (p : Service α) : Service Unit := do let _ ← p

/-- A value that a query looks up; the database client refuses an undefined one. -/
def given (value : Option String) : Service String := Prog.orFail invalidArgument value

/-- A list that a bulk endpoint takes is not empty. -/
def nonEmpty {α : Type} (list : List α) : Service Unit :=
  Prog.failIf (list.isEmpty = true) (.badRequest "Staff list must be a non-empty array.")

def OpenEndpoint.handle (server : Server) : OpenEndpoint → Service Unit
  | registerRoot hash userId dto => answer (AuthService.registerRootUser server.js hash userId dto)
  | loginUser io email password newPassword =>
    answer (AuthService.loginUser server.jwt server.compare io email password newPassword)
  | refreshAccessToken io refreshToken => answer (AuthService.refreshAccessToken server.jwt io refreshToken)
  | forgotPassword hash resetTokenId otp email => answer (AuthService.forgotPassword server.js hash resetTokenId otp email)
  | resetPassword io dto => answer (AuthService.resetPassword server.js server.compare io dto)
  | loginSystemUser io email password =>
    answer (SystemService.loginSystemUser server.jwt server.js server.compare io email password)
  | refreshSystemAccessToken io token => answer (SystemService.refreshSystemAccessToken server.jwt io token)
  | forgotSystemPassword hash resetTokenId otp email =>
    answer (SystemService.forgotPassword server.js hash resetTokenId otp email)
  | resetSystemPassword hash dto => answer (SystemService.resetPassword server.js server.compare hash dto)

/-- The endpoints of the plan controller require the role of the root user. -/
def asRoot (caller : Caller) (p : Service Unit) : Service Unit := do
  requireRole .root caller.userId
  p

/-- The organisation and the user of the caller, whom most endpoints act for. -/
def withUser (caller : Caller) (p : (orgId userId : String) → Service Unit) : Service Unit := do
  let orgId ← given caller.orgId
  let userId ← given caller.userId
  p orgId userId

def Endpoint.handle (server : Server) (caller : Caller) : Endpoint → Service Unit :=
  let role := caller.role.getD ""
  fun
  | changePassword io oldPassword newPassword => do
    let userId ← given caller.userId
    answer (AuthService.changeOldPassword server.compare io userId oldPassword newPassword)
  | logout => do
    let userId ← given caller.userId
    answer (AuthService.logout userId role)
  | registerSystemUser io dto =>
    withUser caller fun orgId userId => answer (SystemService.registerSystemUser server.js io orgId userId role dto)
  | logoutSystemAccount => do
    let orgId ← given caller.orgId
    let systemId ← given caller.systemId
    answer (SystemService.logoutSystemAccount orgId systemId role)
  | deleteSystemAccount systemId =>
    withUser caller fun orgId userId => answer (SystemService.deleteSystemAccount systemId orgId userId role)
  | logoutAllSystemAccounts =>
    withUser caller fun orgId userId => answer (SystemService.logoutAllSystemAccounts orgId role userId)
  | logoutSystemAccountWeb systemId =>
    withUser caller fun orgId userId => answer (SystemService.logoutSystemAccountWeb systemId orgId userId role)
  | updateSystemDetails systemId dto => do
    let orgId ← given caller.orgId
    answer (SystemService.editSystemAccount orgId role systemId dto)
  | startVisit io dto checkInPicture => do
    let orgId ← given caller.orgId
    answer (VisitService.startVisit server.js io orgId caller.systemId dto checkInPicture)
  | endVisit io dto => do
    let orgId ← given caller.orgId
    answer (VisitService.endVisit server.js io orgId dto caller.systemId caller.role)
  | resendNotification io visitId => do
    let orgId ← given caller.orgId
    answer (VisitService.resendVisitNotification io caller.systemId role orgId visitId)
  | checkoutQr io visitId => answer (VisitService.endVisitQr io (caller.orgId.getD "") role visitId)
  | acceptVisit io visitId dto =>
    withUser caller fun orgId userId => answer (VisitService.acceptVisit io orgId userId role visitId dto)
  | rejectVisit visitId dto =>
    withUser caller fun orgId userId => answer (VisitService.rejectVisit orgId userId role visitId dto)
  | deleteNotification notificationId =>
    withUser caller fun orgId userId => answer (NotificationsService.deleteNotification userId orgId role notificationId)
  | action io dto => do
    let orgId ← given caller.orgId
    let systemId ← given caller.systemId
    answer (Attendance.action server.luxon io orgId systemId role dto)
  | createDepartment io dto qOrgId => do
    let userId ← given caller.userId
    answer (DepartmentService.createDepartment server.js io caller.orgId userId role dto qOrgId)
  | addDepartmentBulk io departmentList qOrgId => do
    nonEmpty departmentList
    answer (DepartmentService.addDepartmentBulk server.js io caller.orgId role departmentList qOrgId)
  | deleteDepartment departmentId qOrgId => do
    let userId ← given caller.userId
    answer (DepartmentService.deleteDepartment caller.orgId userId role departmentId qOrgId)
  | addReason io dto qOrgId => do
    let userId ← given caller.userId
    answer (ReasonService.addReason server.js io caller.orgId userId role dto qOrgId)
  | addReasonBulk io reasonList qOrgId => do
    nonEmpty reasonList
    answer (ReasonService.addReasonBulk server.js io caller.orgId role reasonList qOrgId)
  | deleteReason reasonId qOrgId => do
    let userId ← given caller.userId
    answer (ReasonService.deleteReason caller.orgId userId role reasonId qOrgId)
  | addStaffMember io dto qOrgId => answer (StaffService.addStaffMember server.js io caller.orgId role dto qOrgId)
  | addStaffBulk io addStaff qOrgId => do
    nonEmpty addStaff
    answer (StaffService.addStaffBulk server.js io caller.orgId role addStaff qOrgId)
  | updateStaffMember io staffId dto qOrgId =>
    answer (StaffService.editStaffMemberDetails io caller.orgId role staffId dto qOrgId)
  | deleteStaffMember staffId qOrgId => answer (StaffService.deleteStaffMember caller.orgId role staffId qOrgId)
  | createTeam io dto => withUser caller fun orgId userId => answer (TeamService.addTeam io orgId userId role dto)
  | addMembers io teamId dto =>
    withUser caller fun orgId userId => answer (TeamService.addMembers io orgId userId role teamId dto)
  | editTeam teamId dto => withUser caller fun orgId userId => answer (TeamService.editTeam orgId userId role teamId dto)
  | removeReporting io teamId dto =>
    withUser caller fun orgId userId => answer (TeamService.removeReporting io orgId userId role teamId dto)
  | deleteMember teamId memberId =>
    withUser caller fun orgId userId => answer (TeamService.removeMember orgId userId role teamId memberId)
  | setReportingBulk io teamId dto =>
    withUser caller fun orgId userId => answer (TeamService.setReportingBulk io orgId userId role teamId dto)
  | deleteTeam teamId => withUser caller fun orgId userId => answer (TeamService.deleteTeam orgId userId role teamId)
  | createOrganization io dto logo => answer (OrganizationService.createOrganization server.js io role dto logo)
  | editOrganizationDetails io orgId dto logo => do
    let userId ← given caller.userId
    answer (OrganizationService.editOrganizationDetails server.js io orgId role dto userId logo)
  | updateOrganizationPlan io orgId dto => do
    let userId ← given caller.userId
    answer (OrganizationService.updateSubscription io userId role orgId dto)
  | deleteOrganization orgId => answer (OrganizationService.deleteOrganization orgId role)
  | createPlan io dto => asRoot caller (answer (PlanService.createPlan io dto))
  | updatePlan io planId dto => asRoot caller (answer (PlanService.updatePlan io planId dto))
  | softDeletePlan planId => asRoot caller (answer (PlanService.softDeletePlan planId))

/-! ### Requests -/

inductive Request where
  | anyone (endpoint : OpenEndpoint)
  | authorized (now : Date) (authorization : Option String) (endpoint : Endpoint)

def serve (server : Server) : Request → Service Unit
  | .anyone endpoint => endpoint.handle server
  | .authorized now authorization endpoint => do
    let caller ← canActivate server.jwt now authorization
    endpoint.handle server caller

end Server
end Vms
