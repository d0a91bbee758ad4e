import Vms.Theorems.Guard
import Vms.Theorems.Server.Step

/-! What each endpoint may change, and for whom. Requests that run at the same time change no table but those
    that one of them may change, whatever they read and whichever of their accesses fail. -/

namespace Vms.Server
open Relational HttpException Prog

/-! ### Endpoints and callers -/

def OpenEndpoint.kinds : OpenEndpoint → List Kind
  | registerRoot .. => [.addRoot]
  | loginUser .. => [.setPassword, .setReady, .addToken]
  | refreshAccessToken .. | refreshSystemAccessToken .. => [.rotateToken]
  | forgotPassword .. => [.setResetCode]
  | resetPassword .. => [.setPassword, .dropResetCode]
  | loginSystemUser .. => [.addToken, .updateSystem]
  | forgotSystemPassword .. => [.setSystemResetCode]
  | resetSystemPassword .. => [.updateSystem, .dropSystemResetCode]

def Endpoint.kinds : Endpoint → List Kind
  | changePassword .. => [.setPassword]
  | logout => [.dropTokens]
  | registerSystemUser .. => [.addSystem]
  | logoutSystemAccount | logoutAllSystemAccounts => [.updateSystem, .dropTokens]
  | deleteSystemAccount .. => [.dropSystem]
  | logoutSystemAccountWeb .. | updateSystemDetails .. => [.updateSystem]
  | startVisit .. => [.addVisit, .notify]
  | endVisit .. | checkoutQr .. => [.endVisit]
  | resendNotification .. => [.notify]
  | acceptVisit .. | rejectVisit .. => [.decideVisit, .answerNotifications]
  | deleteNotification .. => [.dropNotification]
  | action .. => [.openSession, .recordEvent, .closeSession]
  | createDepartment .. | addDepartmentBulk .. => [.addDepartment]
  | deleteDepartment .. => [.dropDepartment]
  | addReason .. | addReasonBulk .. => [.addReason]
  | deleteReason .. => [.dropReason]
  | addStaffMember .. | addStaffBulk .. => [.addStaff, .addUser]
  | updateStaffMember .. => [.setStaffHours, .updateStaff, .addUser, .updateUser]
  | deleteStaffMember .. => [.dropStaff, .dropUser]
  | createTeam .. => [.addTeam, .addMembers]
  | addMembers .. => [.addMembers]
  | editTeam .. => [.updateTeam, .dropReporting]
  | removeReporting .. => [.dropReporting]
  | deleteMember .. => [.dropMember, .dropReporting]
  | setReportingBulk .. => [.addReporting]
  | deleteTeam .. => [.dropTeam]
  | createOrganization .. => [.addOrganization, .addSubscription]
  | editOrganizationDetails .. => [.editOrganization, .limitOrganization, .setOrganizationHours]
  | updateOrganizationPlan .. => [.setSubscription]
  | deleteOrganization .. => [.dropOrganization]
  | createPlan .. => [.addPlan, .setFeature]
  | updatePlan .. => [.updatePlan, .setFeature, .dropFeatures]
  | softDeletePlan .. => [.updatePlan]

/-- What the token says of a caller whose request makes the change. The plan endpoints ask for the stored role. -/
def Endpoint.Admits (caller : Caller) (k : Kind) : Endpoint → Prop :=
  let role := caller.role.getD ""
  fun
  | changePassword .. | createPlan .. | updatePlan .. | softDeletePlan .. => caller.userId.isSome
  | logout => role ∈ ["Root", "SuperAdmin", "Admin"]
  | registerSystemUser .. | deleteSystemAccount .. | logoutAllSystemAccounts | logoutSystemAccountWeb ..
  | updateSystemDetails .. => role ∈ ["SuperAdmin"]
  | logoutSystemAccount | checkoutQr .. | action .. => role ∈ ["System"]
  | startVisit .. | resendNotification .. => caller.systemId.isSome
  | endVisit .. => role ∈ ["", "SuperAdmin", "Admin", "System", "Staff"]
  | acceptVisit .. | rejectVisit .. | deleteNotification .. => role ∈ ["SuperAdmin", "Admin", "Staff"]
  | createDepartment .. | addDepartmentBulk .. | addReason .. | addReasonBulk .. | deleteReason ..
  | addStaffMember .. | addStaffBulk .. | updateStaffMember .. | deleteStaffMember .. => role ∈ ["Root", "SuperAdmin", "Admin"]
  | deleteDepartment .. => role ∈ ["Root", "SuperAdmin"]
  | createTeam .. | addMembers .. | editTeam .. | removeReporting .. | deleteMember .. | setReportingBulk .. =>
    role ∈ ["SuperAdmin"]
  | deleteTeam .. => role ∈ ["SuperAdmin", "Admin", "Root", "Staff"]
  | createOrganization .. | updateOrganizationPlan .. | deleteOrganization .. => role ∈ ["Root"]
  | editOrganizationDetails .. =>
    -- a superadmin's edit leaves the account limit, a root user's may set it
    if k = .editOrganization then role ∈ ["SuperAdmin"]
    else if k = .limitOrganization then role ∈ ["Root"]
    else role ∈ ["Root", "SuperAdmin"]

/-- The endpoint makes the change, for such a caller. -/
def Endpoint.May (endpoint : Endpoint) (caller : Caller) (k : Kind) : Prop := k ∈ endpoint.kinds ∧ endpoint.Admits caller k

section Handlers
variable {server : Server} {caller : Caller}

theorem within_withUser {K : Kind → Prop} {p : (orgId userId : String) → Service Unit}
    (h : ∀ orgId userId, caller.userId = some userId → (p orgId userId).Within (Changes K)) :
    (withUser caller p).Within (Changes K) :=
  within_given fun orgId _ => within_given fun userId huser => h orgId userId huser

theorem within_asRoot {K : Kind → Prop} {p : Service Unit} (h : caller.userId.isSome → p.Within (Changes K)) :
    (asRoot caller p).Within (Changes K) := by
  unfold asRoot requireRole
  rw [Prog.bind_assoc]
  refine Always.orFail_bind fun userId huser => ?_
  rw [Prog.bind_assoc]
  refine within_query.bind fun _ => ?_
  rw [Prog.bind_assoc]
  refine always_orFail.bind fun _ => h ?_
  rw [(truthy_eq_some.mp huser).1]
  rfl

theorem OpenEndpoint.handle_within (endpoint : OpenEndpoint) : (endpoint.handle server).Within (Changes (· ∈ endpoint.kinds)) := by
  cases endpoint <;> refine within_answer ?_
  case registerRoot => exact registerRootUser_within (by simp [kinds])
  case loginUser => exact loginUser_within (by simp [kinds]) (by simp [kinds]) (by simp [kinds])
  case refreshAccessToken => exact refreshAccessToken_within (by simp [kinds])
  case forgotPassword => exact forgotPassword_within (by simp [kinds])
  case resetPassword => exact resetPassword_within (by simp [kinds]) (by simp [kinds])
  case loginSystemUser => exact loginSystemUser_within (by simp [kinds]) (by simp [kinds])
  case refreshSystemAccessToken => exact refreshSystemAccessToken_within (by simp [kinds])
  case forgotSystemPassword => exact forgotSystemPassword_within (by simp [kinds])
  case resetSystemPassword => exact resetSystemPassword_within (by simp [kinds]) (by simp [kinds])

theorem Endpoint.handle_within (endpoint : Endpoint) : (endpoint.handle server caller).Within (Changes (endpoint.May caller)) := by
  cases endpoint
  case changePassword =>
    exact within_given fun _ h => within_answer (changeOldPassword_within ⟨by simp [kinds], by simp [Admits, h]⟩)
  case logout =>
    refine within_given fun _ _ => within_answer (logout_within fun h => ⟨by simp [kinds], h⟩)
  case registerSystemUser =>
    exact within_withUser fun _ _ _ => within_answer (registerSystemUser_within fun h => ⟨by simp [kinds], h⟩)
  case logoutSystemAccount =>
    refine within_given fun _ _ => within_given fun _ _ => within_answer (logoutSystemAccount_within fun h => ⟨?_, ?_⟩)
    · exact ⟨by simp [kinds], h⟩
    · exact ⟨by simp [kinds], h⟩
  case deleteSystemAccount =>
    exact within_withUser fun _ _ _ => within_answer (deleteSystemAccount_within fun h => ⟨by simp [kinds], h⟩)
  case logoutAllSystemAccounts =>
    refine within_withUser fun _ _ _ => within_answer (logoutAllSystemAccounts_within fun h => ⟨?_, ?_⟩)
    · exact ⟨by simp [kinds], h⟩
    · exact ⟨by simp [kinds], h⟩
  case logoutSystemAccountWeb =>
    exact within_withUser fun _ _ _ => within_answer (logoutSystemAccountWeb_within fun h => ⟨by simp [kinds], h⟩)
  case updateSystemDetails =>
    exact within_given fun _ _ => within_answer (editSystemAccount_within fun h => ⟨by simp [kinds], h⟩)
  case startVisit =>
    exact within_given fun _ _ => within_answer (startVisit_within fun h => ⟨⟨by simp [kinds], h⟩, by simp [kinds], h⟩)
  case endVisit => exact within_given fun _ _ => within_answer (endVisit_within fun h => ⟨by simp [kinds], h⟩)
  case resendNotification =>
    exact within_given fun _ _ => within_answer (resendVisitNotification_within fun h => ⟨by simp [kinds], h⟩)
  case checkoutQr => exact within_answer (endVisitQr_within fun h => ⟨by simp [kinds], h⟩)
  case acceptVisit =>
    exact within_withUser fun _ _ _ => within_answer (acceptVisit_within fun h => ⟨⟨by simp [kinds], h⟩, by simp [kinds], h⟩)
  case rejectVisit =>
    exact within_withUser fun _ _ _ => within_answer (rejectVisit_within fun h => ⟨⟨by simp [kinds], h⟩, by simp [kinds], h⟩)
  case deleteNotification =>
    exact within_withUser fun _ _ _ => within_answer (deleteNotification_within fun h => ⟨by simp [kinds], h⟩)
  case action =>
    refine within_given fun _ _ => within_given fun _ _ => within_answer (action_within fun h => ⟨?_, ?_, ?_⟩)
    · exact ⟨by simp [kinds], h⟩
    · exact ⟨by simp [kinds], h⟩
    · exact ⟨by simp [kinds], h⟩
  case createDepartment =>
    exact within_given fun _ _ => within_answer (add_within fun h _ => createDepartment_within ⟨by simp [kinds], h⟩)
  case addDepartmentBulk =>
    exact always_failIf.bind fun _ => within_answer (addBulk_within fun h _ => createDepartment_within ⟨by simp [kinds], h⟩)
  case deleteDepartment =>
    exact within_given fun _ _ => within_answer (remove_within fun h => deleteDepartment_within ⟨by simp [kinds], h⟩)
  case addReason =>
    exact within_given fun _ _ => within_answer (add_within fun h _ => createReason_within ⟨by simp [kinds], h⟩)
  case addReasonBulk =>
    exact always_failIf.bind fun _ => within_answer (addBulk_within fun h _ => createReason_within ⟨by simp [kinds], h⟩)
  case deleteReason =>
    exact within_given fun _ _ => within_answer (remove_within fun h => deleteReason_within ⟨by simp [kinds], h⟩)
  case addStaffMember =>
    exact within_answer (addStaffMember_within .refl .trans fun h _ _ => hires ⟨by simp [kinds], h⟩ ⟨by simp [kinds], h⟩)
  case addStaffBulk =>
    exact always_failIf.bind fun _ =>
      within_answer (addStaffBulk_within .refl .trans fun h _ _ => hires ⟨by simp [kinds], h⟩ ⟨by simp [kinds], h⟩)
  case updateStaffMember =>
    refine within_answer (edit_within fun h => ⟨?_, ?_, ?_, ?_⟩)
    all_goals exact ⟨by simp [kinds], h⟩
  case deleteStaffMember =>
    exact within_answer (deleteStaffMember_within fun h => ⟨⟨by simp [kinds], h⟩, by simp [kinds], h⟩)
  case createTeam =>
    exact within_withUser fun _ _ _ => within_answer (addTeam_within fun h => ⟨⟨by simp [kinds], h⟩, by simp [kinds], h⟩)
  case addMembers =>
    exact within_withUser fun _ _ _ => within_answer (addMembers_within fun h => ⟨by simp [kinds], h⟩)
  case editTeam =>
    refine within_withUser fun _ _ _ => within_answer (editTeam_within fun h => ⟨?_, ?_⟩)
    all_goals exact ⟨by simp [kinds], List.mem_singleton.mpr h⟩
  case removeReporting =>
    exact within_withUser fun _ _ _ => within_answer (removeReporting_within fun h => ⟨by simp [kinds], List.mem_singleton.mpr h⟩)
  case deleteMember =>
    exact within_withUser fun _ _ _ => within_answer (removeMember_within fun h => ⟨⟨by simp [kinds], h⟩, by simp [kinds], h⟩)
  case setReportingBulk =>
    refine within_withUser fun _ _ _ => within_answer (setReportingEach_within fun h => ?_)
    exact ⟨by simp [kinds], List.mem_singleton.mpr h⟩
  case deleteTeam => exact within_withUser fun _ _ _ => within_answer (deleteTeam_within fun h => ⟨by simp [kinds], h⟩)
  case createOrganization =>
    exact within_answer (createOrganization_within fun h => ⟨⟨by simp [kinds], h⟩, by simp [kinds], h⟩)
  case editOrganizationDetails =>
    refine within_given fun _ _ => within_answer (editOrganizationDetails_within fun h => ⟨?_, by simp [kinds], h⟩)
    split
    · rename_i hsuper
      exact ⟨by simp [kinds], List.mem_singleton.mpr hsuper⟩
    · rename_i hsuper
      exact ⟨by simp [kinds], List.mem_singleton.mpr ((List.mem_pair.mp h).resolve_right hsuper)⟩
  case updateOrganizationPlan =>
    exact within_given fun _ _ => within_answer (updateSubscription_within fun h => ⟨by simp [kinds], h⟩)
  case deleteOrganization => exact within_answer (deleteOrganization_within fun h => ⟨by simp [kinds], h⟩)
  case createPlan =>
    exact within_asRoot fun h => within_answer (createPlan_within ⟨by simp [kinds], h⟩ ⟨by simp [kinds], h⟩)
  case updatePlan =>
    exact within_asRoot fun h =>
      within_answer (updatePlan_within ⟨by simp [kinds], h⟩ ⟨by simp [kinds], h⟩ ⟨by simp [kinds], h⟩)
  case softDeletePlan => exact within_asRoot fun h => within_answer (softDeletePlan_within ⟨by simp [kinds], h⟩)

end Handlers

/-! ### Requests -/

/-- Whom a token names. -/
def callerOf (decode : JwtPayload) : Caller where
  orgId := decode.orgId
  userId := truthy decode.userId
  role := decode.role
  systemId := truthy decode.systemId
  sessionId := if (truthy decode.systemId).isSome then decode.sessionId else none

/-- Who a request is from, as far as its token can tell. -/
def sender (jwt : Jwt) (now : Date) (authorization : Option String) : Option Caller := do
  let token ← truthy (extractTokenFromHeader authorization)
  let decode ← (jwt.verify now token).toOption
  return callerOf decode

/-- A request is from whom the server has given its token to. -/
theorem sender_sign {jwt : Jwt} {expiresIn : String} {issued now : Date} {payload : JwtPayload} {caller : Caller}
    (h : sender jwt now (some ("Bearer " ++ jwt.sign expiresIn issued payload)) = some caller) : caller = callerOf payload := by
  have htoken : truthy (some (jwt.sign expiresIn issued payload)) = some (jwt.sign expiresIn issued payload) :=
    truthy_eq_some.mpr ⟨rfl, jwt.sign_ne _ _ _⟩
  rw [sender, extractTokenFromHeader_bearer (jwt.sign_blank _ _ _), htoken] at h
  change (jwt.verify now (jwt.sign expiresIn issued payload)).toOption.bind (fun decode => some (callerOf decode)) = _ at h
  rcases jwt.verify_sign expiresIn issued payload now with hverify | hverify <;> rw [hverify] at h <;> cases h
  rfl

/-- The guard reads nothing for the token of a user, and lets the user in until the token expires. -/
theorem canActivate_sign {jwt : Jwt} {expiresIn : String} {issued now : Date} {payload : JwtPayload}
    (hverify : jwt.verify now (jwt.sign expiresIn issued payload) = .ok payload) (hsystem : truthy payload.systemId = none)
    (huser : truthy payload.userId ≠ none) :
    canActivate jwt now (some ("Bearer " ++ jwt.sign expiresIn issued payload)) = pure (callerOf payload) := by
  have htoken : truthy (some (jwt.sign expiresIn issued payload)) = some (jwt.sign expiresIn issued payload) :=
    truthy_eq_some.mpr ⟨rfl, jwt.sign_ne _ _ _⟩
  have hauthenticate : authenticate jwt now (jwt.sign expiresIn issued payload) = pure (callerOf payload) := by
    have hnamed : ¬((none : Option String) = none ∧ truthy payload.userId = none) := fun h => huser h.2
    rw [authenticate, hverify]
    change (checkSession payload (truthy payload.systemId) >>= fun _ => Prog.bind (failIf _ _) _) = _
    rw [callerOf, hsystem]
    exact failIf_bind_of_not hnamed
  rw [canActivate, extractTokenFromHeader_bearer (jwt.sign_blank _ _ _), htoken]
  change (authenticate jwt now (jwt.sign expiresIn issued payload)).orElse _ = _
  rw [hauthenticate]
  rfl

/-- The changes that a request may cause. -/
def Request.May (server : Server) (k : Kind) : Request → Prop
  | anyone endpoint => k ∈ endpoint.kinds
  | authorized now authorization endpoint => ∃ caller, sender server.jwt now authorization = some caller ∧ endpoint.May caller k

section Guard
variable {R : Db → Db → Prop} {jwt : Jwt} {now : Date} {authorization : Option String} {s : Db}

theorem checkSession_within (refl : ∀ s, R s s) {decode : JwtPayload} {systemId : Option String} :
    (checkSession decode systemId).Within R := by
  cases systemId with
  | none => trivial
  | some systemId =>
    refine (AuthService.always_query refl).bind fun _ => always_orFail.bind fun _ => ?_
    exact always_failIf.bind fun _ => always_failIf

/-- The guard lets nobody in but the sender. -/
theorem canActivate_obeys (refl : ∀ s, R s s) : (canActivate jwt now authorization).Obeys R
    (fun r _ => ∀ caller, r = .ok caller → sender jwt now authorization = some caller) s := by
  unfold canActivate
  rw [obeys_bind, obeys_orFail]
  refine ⟨fun _ caller h => (by cases h), fun token htoken => ?_⟩
  rw [then_ok, obeys_orElse, authenticate, obeys_bind, obeys_ofExcept]
  cases hverify : jwt.verify now token with
  | error e => exact fun caller h => (by cases h)
  | ok decode =>
    rw [then_ok, obeys_bind]
    refine (checkSession_within refl).keeps.mono fun r t _ => ?_
    cases r with
    | error e => exact fun caller h => (by cases h)
    | ok a =>
      rw [then_ok, obeys_bind, obeys_failIf]
      refine ⟨fun _ caller h => (by cases h), fun _ caller h => ?_⟩
      cases h
      simp [sender, callerOf, htoken, hverify, Except.toOption]

theorem canActivate_within (refl : ∀ s, R s s) : (canActivate jwt now authorization).Within R := by
  refine always_orFail.bind fun _ => Always.orElse (always_ofExcept.bind fun decode => ?_) fun e => trivial
  exact (checkSession_within refl).bind fun _ => always_failIf.bind fun _ => trivial

end Guard

theorem serve_within {R : Db → Db → Prop} (refl : ∀ s, R s s) {server : Server} {request : Request}
    (anyone : ∀ endpoint, request = .anyone endpoint → (endpoint.handle server).Within R)
    (authorized : ∀ now authorization endpoint caller, request = .authorized now authorization endpoint →
      sender server.jwt now authorization = some caller → (endpoint.handle server caller).Within R) :
    (serve server request).Within R := by
  cases request with
  | anyone endpoint => exact anyone endpoint rfl
  | authorized now authorization endpoint =>
    exact Within.bind_obeys (s := {}) (canActivate_within refl) (canActivate_obeys fun _ => trivial)
      fun caller hcaller => authorized now authorization endpoint caller rfl hcaller

/-- A request keeps to a relation if its handler does, for whomever the request is from. -/
theorem serve_keeps {R : Db → Db → Prop} (refl : ∀ s, R s s) (trans : ∀ {s t u}, R s t → R t u → R s u) {server : Server}
    {request : Request} {s : Db} (anyone : ∀ endpoint, request = .anyone endpoint → (endpoint.handle server).Keeps R s)
    (authorized : ∀ now authorization endpoint caller t, request = .authorized now authorization endpoint →
      sender server.jwt now authorization = some caller → R s t → (endpoint.handle server caller).Keeps R t) :
    (serve server request).Keeps R s := by
  cases request with
  | anyone endpoint => exact anyone endpoint rfl
  | authorized now authorization endpoint =>
    show (canActivate server.jwt now authorization >>= fun caller => endpoint.handle server caller).Obeys _ _ _
    rw [obeys_bind]
    refine ((canActivate_obeys refl).since refl trans).mono fun r t ⟨hst, hcaller⟩ => ?_
    cases r with
    | error e => trivial
    | ok caller => exact authorized now authorization endpoint caller t rfl (hcaller caller rfl) hst

/-! ### Tables -/

inductive TableName where
  | organization | visit | staff | workingHours | attendanceSession | attendanceEvent | refreshToken | userCredential
  | systemCredential | department | reasonOfVisit | resetToken | resetTokenSystem | team | teamMember | teamReporting
  | plan | planFeature | subscription | notification
  deriving DecidableEq

/-- A table is as it was. -/
def TableName.Same (s t : Db) : TableName → Prop
  | organization => t.organization = s.organization
  | visit => t.visit = s.visit
  | staff => t.staff = s.staff
  | workingHours => t.workingHours = s.workingHours
  | attendanceSession => t.attendanceSession = s.attendanceSession
  | attendanceEvent => t.attendanceEvent = s.attendanceEvent
  | refreshToken => t.refreshToken = s.refreshToken
  | userCredential => t.userCredential = s.userCredential
  | systemCredential => t.systemCredential = s.systemCredential
  | department => t.department = s.department
  | reasonOfVisit => t.reasonOfVisit = s.reasonOfVisit
  | resetToken => t.resetToken = s.resetToken
  | resetTokenSystem => t.resetTokenSystem = s.resetTokenSystem
  | team => t.team = s.team
  | teamMember => t.teamMember = s.teamMember
  | teamReporting => t.teamReporting = s.teamReporting
  | plan => t.plan = s.plan
  | planFeature => t.planFeature = s.planFeature
  | subscription => t.subscription = s.subscription
  | notification => t.notification = s.notification

theorem TableName.Same.refl {T : TableName} (s : Db) : T.Same s s := by cases T <;> rfl

theorem TableName.Same.trans {T : TableName} {s t u : Db} (h : T.Same s t) (h' : T.Same t u) : T.Same s u := by
  cases T <;> exact Eq.trans h' h

/-- The tables that a staff member's rows are deleted from. -/
def staffTables : List TableName :=
  [.staff, .visit, .notification, .attendanceSession, .attendanceEvent, .workingHours, .team, .teamMember, .teamReporting]

/-- The tables that a change writes to. -/
def Kind.tables : Kind → List TableName
  | addVisit | endVisit | decideVisit => [.visit]
  | notify | answerNotifications | dropNotification => [.notification]
  | openSession | closeSession => [.attendanceSession]
  | recordEvent => [.attendanceEvent]
  | addRoot | setPassword | setReady | updateUser => [.userCredential]
  | setResetCode | dropResetCode => [.resetToken]
  | addToken | rotateToken | dropTokens => [.refreshToken]
  | addSystem | updateSystem => [.systemCredential]
  | dropSystem => [.systemCredential, .refreshToken, .resetTokenSystem]
  | setSystemResetCode | dropSystemResetCode => [.resetTokenSystem]
  | addDepartment => [.department]
  | dropDepartment => [.department, .staff]
  | addReason => [.reasonOfVisit]
  | dropReason => [.reasonOfVisit, .visit]
  | addStaff | updateStaff => [.staff]
  | addUser => [.userCredential, .staff]
  | setStaffHours | setOrganizationHours => [.workingHours]
  | dropStaff => staffTables
  | dropUser => [.userCredential, .refreshToken, .resetToken] ++ staffTables
  | addTeam | updateTeam => [.team]
  | addMembers => [.teamMember]
  | dropMember => [.teamMember, .teamReporting]
  | dropTeam => [.team, .teamMember, .teamReporting]
  | addReporting | dropReporting => [.teamReporting]
  | addOrganization | editOrganization | limitOrganization => [.organization]
  | addSubscription | setSubscription => [.subscription]
  | dropOrganization => [.organization, .userCredential, .systemCredential, .department, .reasonOfVisit, .refreshToken, .resetToken,
      .resetTokenSystem, .subscription] ++ staffTables
  | addPlan | updatePlan => [.plan]
  | setFeature | dropFeatures => [.planFeature]

/-- The frame of a change. -/
theorem Change.frame {s t : Db} {k : Kind} {T : TableName} (h : Change s k t) (hT : T ∉ k.tables) : T.Same s t := by
  cases h <;> cases T <;> first
    | rfl
    | exact absurd (by decide) hT

/-! ### Interleavings -/

section Interleavings
variable {server : Server} {ι : Type} [DecidableEq ι] {requests : ι → Request} {s : Db} {d : Threads ι Db HttpException Unit}

/-- Requests that keep to a relation one by one keep to it at the same time. -/
theorem kept_of_reach {R : Db → Db → Prop} (refl : ∀ s, R s s) (trans : ∀ {s t u}, R s t → R t u → R s u)
    (anyone : ∀ i endpoint, requests i = .anyone endpoint → (endpoint.handle server).Keeps R s)
    (authorized : ∀ i now authorization endpoint caller t, requests i = .authorized now authorization endpoint →
      sender server.jwt now authorization = some caller → R s t → (endpoint.handle server caller).Keeps R t)
    (h : (Threads.interleaving ⟨s, fun i => serve server (requests i)⟩).Reachable d) : R s d.state :=
  Threads.keeps_of_reach refl trans (fun i => serve_keeps refl trans (anyone i) (authorized i)) h

/-- Requests that run at the same time lead from state to state by changes that one of them may cause. -/
theorem changes_of_reach (h : (Threads.interleaving ⟨s, fun i => serve server (requests i)⟩).Reachable d) :
    Changes (fun k => ∃ i, (requests i).May server k) s d.state := by
  refine kept_of_reach Changes.refl Changes.trans (fun i endpoint hrequest => ?_)
    (fun i now authorization endpoint caller t hrequest hcaller _ => ?_) h
  · refine ((OpenEndpoint.handle_within endpoint).mono fun s t h => h.mono fun k hk => ⟨i, ?_⟩).keeps
    rw [hrequest]
    exact hk
  · refine ((Endpoint.handle_within endpoint).mono fun s t h => h.mono fun k hk => ⟨i, ?_⟩).keeps
    rw [hrequest]
    exact ⟨caller, hcaller, hk⟩

/-- A table that none of the requests may write to stays as it is. -/
theorem untouched_of_reach (h : (Threads.interleaving ⟨s, fun i => serve server (requests i)⟩).Reachable d) {T : TableName}
    (idle : ∀ i k, (requests i).May server k → T ∉ k.tables) : T.Same s d.state := by
  refine (changes_of_reach h).preserves (R := fun s t => T.Same s t) TableName.Same.refl TableName.Same.trans ?_
  intro s k t ⟨i, hk⟩ hchange
  exact hchange.frame (idle i k hk)

end Interleavings

/-! ### An office -/

namespace Office

def server : Server where
  jwt := .readable
  js := { toLowerCase := id, trim := id, toLocaleString := fun _ => "" }
  luxon _ := none
  compare := (· == ·)

def bearer (payload : JwtPayload) : Option String := some ("Bearer " ++ Jwt.readable.sign "15m" 0 payload)

theorem serve_bearer {now : Date} {payload : JwtPayload} {endpoint : Endpoint} (hsystem : truthy payload.systemId = none)
    (huser : truthy payload.userId ≠ none) :
    serve server (.authorized now (bearer payload) endpoint) = endpoint.handle server (callerOf payload) := by
  have h : canActivate Jwt.readable now (some ("Bearer " ++ Jwt.readable.sign "15m" 0 payload)) = pure (callerOf payload) :=
    canActivate_sign Jwt.readable_verify hsystem huser
  change (canActivate Jwt.readable now (some ("Bearer " ++ Jwt.readable.sign "15m" 0 payload)) >>= fun caller =>
    endpoint.handle server caller) = _
  rw [h]
  rfl

def admin : JwtPayload := { orgId := some "office", userId := some "ann", role := some "Admin" }

def root : UserCredential := { id := "root", email := "root@mail.com", role := .root }

def ann : UserCredential := { id := "ann", orgId := some "office", email := "ann@mail.com", role := .admin }

def ben : UserCredential := { id := "ben", orgId := some "office", email := "ben@mail.com", role := .staff }

def visit : Visit where
  id := "visit"
  orgId := "office"
  fullName := "Bob"
  visitorOrganization := "Elsewhere"
  email := "bob@mail.com"
  reasonId := none
  staffId := "2"
  createdAt := 0

def db : Db where
  organization := {{ id := "office", name := "Office", email := "office@mail.com" }}
  userCredential := ({root} : Table UserCredential).insertAll [ann, ben]
  staff := ({{ id := "1", orgId := "office", userId := some "ann", name := "Ann", email := "ann@mail.com", role := .admin }} :
    Table Staff).insertAll [{ id := "2", orgId := "office", userId := some "ben", name := "Ben", email := "ben@mail.com" }]
  visit := {visit}

/-- A stranger wants to be the root user, and Ann deletes Ben, who has a visitor. -/
def requests : Bool → Request
  | false => .anyone (.registerRoot id "stranger" { email := "stranger@mail.com", password := "secret" })
  | true => .authorized 0 (bearer admin) (.deleteStaffMember "2" none)

/-- Ann's request before and after the stranger's. -/
def after : Threads Bool Db HttpException Unit :=
  Threads.schedule ⟨db, fun i => serve server (requests i)⟩ [true, false, true, true, true]

/-- The visitor goes with Ben. -/
theorem visit_after : after.state.visit = ∅ := by
  have handled : (fun i => serve server (requests i)) = fun i =>
      if i then (Endpoint.deleteStaffMember "2" none).handle server (callerOf admin) else serve server (requests false) := by
    funext i
    cases i with
    | false => rfl
    | true => exact serve_bearer rfl (by decide)
  rw [after, handled]
  rfl

theorem reachable_after : (Threads.interleaving ⟨db, fun i => serve server (requests i)⟩).Reachable after :=
  Threads.reachable_schedule (.init rfl) _

end Office

theorem untouched_of_reach_office : TableName.organization.Same Office.db Office.after.state ∧ Office.after.state.visit = ∅ := by
  refine ⟨untouched_of_reach Office.reachable_after fun i k hmay => ?_, Office.visit_after⟩
  cases i with
  | false =>
    obtain rfl := List.mem_singleton.mp hmay
    decide
  | true =>
    obtain ⟨_, -, hk, -⟩ := hmay
    rcases List.mem_pair.mp hk with rfl | rfl <;> decide

end Vms.Server
