import Vms.Theorems.Server.Statement

/-! The endpoints change the store by statements of the kinds that their callers may cause, whatever they read. -/

namespace Vms.Server
open Relational HttpException
open Prog (always_failIf always_orFail always_ofExcept failIf_bind_within)
open AuthService (always_query)

variable {K : Kind → Prop}

theorem within_answer {α : Type} {p : Service α} (h : p.Within (Changes K)) : (answer p).Within (Changes K) :=
  h.bind fun _ => trivial

theorem within_given {α : Type} {value : Option String} {h : String → Service α}
    (hh : ∀ v, value = some v → (h v).Within (Changes K)) : (given value >>= h).Within (Changes K) := Prog.Always.orFail_bind hh

/-- A failure that is only logged. -/
theorem within_logged {p : Service Unit} (h : p.Within (Changes K)) : (p.orElse fun _ => pure ()).Within (Changes K) :=
  h.orElse fun _ => trivial

/-- A query, and what is done with its result where there is one. -/
theorem within_find {α β : Type} {f : Db → Option α} {e : HttpException} {h : α → Service β}
    (hh : ∀ a, (h a).Within (Changes K)) : (query f >>= fun o => Prog.orFail e o >>= h).Within (Changes K) :=
  within_query.bind fun _ => always_orFail.bind hh

/-! ### Visits -/

section Visits
open VisitService
variable {js : Js} {io : VisitService.Io} {orgId userId role visitId : String} {systemId : Option String}

theorem startVisit_within {dto : StartVisitDto} {checkInPicture : Bool} (may : systemId.isSome → K .addVisit ∧ K .notify) :
    (startVisit js io orgId systemId dto checkInPicture).Within (Changes K) := by
  refine Prog.Always.orFail_bind fun id hid => ?_
  obtain ⟨add, notify⟩ := may (by rw [hid]; rfl)
  refine within_find fun system => always_failIf.bind fun _ => within_find fun staff => within_query.bind fun active => ?_
  refine always_failIf.bind fun _ => Prog.Always.bind ?_ fun imageUrl => ?_
  · unfold uploadImage
    split
    · exact within_outside.bind fun _ => trivial
    · trivial
  · refine (createVisit_within add ⟨rfl, rfl, rfl⟩).bind fun visit => (createNotification_within notify ⟨rfl, rfl⟩).bind fun _ => ?_
    exact within_outside.bind fun _ => within_outside.bind fun _ => trivial

theorem checkSystemAccount_within : (checkSystemAccount orgId systemId).Within (Changes K) := by
  unfold checkSystemAccount
  split
  · trivial
  · exact within_find fun _ => always_failIf

theorem endVisit_within {dto : EndVisitDto} {role : Option String}
    (may : role.getD "" ∈ ["", "SuperAdmin", "Admin", "System", "Staff"] → K .endVisit) :
    (endVisit js io orgId dto systemId role).Within (Changes K) := by
  refine checkSystemAccount_within.bind fun _ => within_find fun visit => failIf_bind_within fun hrole => ?_
  have hk : K .endVisit := by
    refine may ?_
    cases role with
    | none => simp
    | some role =>
      by_cases hempty : role = ""
      · simp [hempty]
      · refine List.mem_cons_of_mem _ (Classical.byContradiction fun hnot => hrole ?_)
        simpa [truthy, hempty] using hnot
  refine (completeVisit_within hk).bind fun _ => ?_
  exact within_outside.bind fun _ => within_outside.bind fun _ => trivial

theorem endVisitQr_within (may : role ∈ ["System"] → K .endVisit) : (endVisitQr io orgId role visitId).Within (Changes K) := by
  refine always_failIf.bind fun _ => always_failIf.bind fun _ => failIf_bind_within fun hrole => ?_
  refine within_find fun _ => within_query.bind fun _ => always_orFail.bind fun _ => always_failIf.bind fun _ => ?_
  refine (completeVisit_within (may (not_not.mp hrole))).bind fun _ => ?_
  exact within_outside.bind fun _ => within_outside.bind fun _ => trivial

theorem decideVisit_within {action : NotificationAction} {change : Visit → Visit} {keys : Row.Fixes change}
    (may : role ∈ ["SuperAdmin", "Admin", "Staff"] → K .decideVisit ∧ K .answerNotifications)
    (decides : ∀ v, v.status = .pending → Decided v (change v)) :
    (decideVisit orgId userId role visitId action change keys).Within (Changes K) := by
  refine failIf_bind_within fun hrole => ?_
  obtain ⟨decide, answer⟩ := may (not_not.mp hrole)
  refine within_find fun _ => within_query.bind fun _ => always_orFail.bind fun _ => always_failIf.bind fun _ => ?_
  refine within_transaction ((updatePending_within decide decides).bind fun _ => always_failIf.bind fun _ => ?_)
  exact (updateNotifications_within answer).bind fun _ => within_query.bind fun _ => always_orFail

theorem acceptVisit_within {dto : AcceptVisitDto}
    (may : role ∈ ["SuperAdmin", "Admin", "Staff"] → K .decideVisit ∧ K .answerNotifications) :
    (acceptVisit io orgId userId role visitId dto).Within (Changes K) := by
  refine (decideVisit_within may fun v hv => Or.inr ⟨hv, Or.inl ⟨_, _, rfl⟩⟩).bind fun _ => ?_
  refine (within_logged within_outside).bind fun _ => (within_logged ?_).bind fun _ => trivial
  exact within_outside.bind fun _ => within_outside

theorem rejectVisit_within {dto : RejectVisitDto}
    (may : role ∈ ["SuperAdmin", "Admin", "Staff"] → K .decideVisit ∧ K .answerNotifications) :
    (rejectVisit orgId userId role visitId dto).Within (Changes K) := by
  refine (decideVisit_within may fun v hv => Or.inr ⟨hv, Or.inr ⟨_, rfl⟩⟩).bind fun _ => ?_
  exact (within_logged within_outside).bind fun _ => trivial

theorem resendVisitNotification_within (may : systemId.isSome → K .notify) :
    (resendVisitNotification io systemId role orgId visitId).Within (Changes K) := by
  refine always_failIf.bind fun _ => Prog.Always.orFail_bind fun id hid => within_find fun _ => ?_
  refine within_query.bind fun _ => always_orFail.bind fun _ => always_failIf.bind fun _ => within_query.bind fun _ => ?_
  exact always_failIf.bind fun _ => createNotification_within (may (by rw [hid]; rfl)) ⟨rfl, rfl⟩

theorem deleteNotification_within {notificationId : String}
    (may : role ∈ ["SuperAdmin", "Admin", "Staff"] → K .dropNotification) :
    (NotificationsService.deleteNotification userId orgId role notificationId).Within (Changes K) := by
  refine failIf_bind_within fun hrole => within_find fun _ => Prog.Always.bind (within_transaction ?_) fun _ => trivial
  refine within_query.bind fun _ => always_orFail.bind fun _ => within_mutate fun s _ t h => ?_
  split at h
  · cases h
  · cases h
    exact .one (may (not_not.mp hrole)) (.dropNotification Table.shrinks_delete)

end Visits

/-! ### Attendance -/

section AttendanceLog
open Attendance
variable {luxon : Luxon} {io : Attendance.Io} {orgId systemId staffId role : String} {dto : AttendanceActionDto}

theorem checkSystem_within : (checkSystem orgId systemId role).Within (Changes K) := by
  refine always_failIf.bind fun _ => within_find fun _ => within_query.bind fun _ => always_orFail.bind fun _ => trivial

theorem getStaffByEmployeeCode_within {employeeCode email : Option String} :
    (getStaffByEmployeeCode orgId employeeCode email).Within (Changes K) := by
  refine within_find fun org => ?_
  have checks (staff : Option Staff) : (Prog.orFail (.notFound "No employee found for these credentials.") staff >>= fun staff =>
      Prog.failIf (staff.badgeActive = false) (.badRequest "This badge is deactivated.") >>= fun _ =>
      Prog.failIf (org.id ≠ staff.orgId) (.badRequest "Employee belongs to different organization.") >>= fun _ =>
      pure staff : Service Staff).Within (Changes K) :=
    always_orFail.bind fun _ => always_failIf.bind fun _ => always_failIf.bind fun _ => trivial
  dsimp only
  split
  · exact within_query.bind checks
  · split
    · exact within_query.bind checks
    · exact checks none

theorem openSession_within {sessionId missing notOpen : String} :
    (openSession staffId sessionId missing notOpen).Within (Changes K) :=
  within_query.bind fun _ => always_orFail.bind fun _ => always_failIf.bind fun _ => trivial

theorem handlePunchIn_within (session : K .openSession) (event : K .recordEvent) :
    (handlePunchIn luxon io staffId orgId dto).Within (Changes K) := by
  refine always_orFail.bind fun _ => within_query.bind fun _ => always_orFail.bind fun _ => within_transaction ?_
  refine always_orFail.bind fun _ => within_query.bind fun _ => always_failIf.bind fun _ => within_query.bind fun _ => ?_
  refine always_failIf.bind fun _ => (createSession_within session rfl).bind fun _ => ?_
  exact (createEvent_within event).bind fun _ => trivial

theorem handleBreak_within {eventType : AttendanceEventType} {admits : AttendanceEventType → Bool} {required refused : String}
    {reply : Date → ActionReply} (event : K .recordEvent) :
    (handleBreak eventType admits required refused reply io staffId orgId dto).Within (Changes K) := by
  refine always_orFail.bind fun _ => always_orFail.bind fun _ => within_transaction (openSession_within.bind fun _ => ?_)
  exact within_query.bind fun _ => always_orFail.bind fun _ => (createEvent_within event).bind fun _ => trivial

theorem handlePunchOut_within (event : K .recordEvent) (close : K .closeSession) :
    (handlePunchOut io staffId orgId dto).Within (Changes K) := by
  refine always_orFail.bind fun _ => always_orFail.bind fun _ => within_transaction (openSession_within.bind fun _ => ?_)
  refine within_query.bind fun _ => (createEvent_within event).bind fun _ => ?_
  refine Prog.Always.bind (closeSession_within close ?_) fun _ => trivial
  exact fun _ => ⟨rfl, rfl, rfl, rfl, rfl, Or.inr rfl⟩

theorem handleLatePunchOutAndPunchIn_within (session : K .openSession) (event : K .recordEvent) (close : K .closeSession) :
    (handleLatePunchOutAndPunchIn luxon io staffId orgId dto).Within (Changes K) := by
  refine always_orFail.bind fun _ => within_query.bind fun _ => always_failIf.bind fun _ => always_orFail.bind fun _ => ?_
  refine always_orFail.bind fun _ => always_orFail.bind fun _ => within_transaction (openSession_within.bind fun _ => ?_)
  refine within_query.bind fun _ => always_failIf.bind fun _ => (createEvent_within event).bind fun _ => ?_
  refine Prog.Always.bind (closeSession_within close ?_) fun _ => always_orFail.bind fun _ => ?_
  · exact fun _ => ⟨rfl, rfl, rfl, rfl, rfl, Or.inr rfl⟩
  · exact (createSession_within session rfl).bind fun _ => (createEvent_within event).bind fun _ => trivial

theorem action_within (may : role ∈ ["System"] → K .openSession ∧ K .recordEvent ∧ K .closeSession) :
    (action luxon io orgId systemId role dto).Within (Changes K) := by
  by_cases hrole : role ∈ ["System"]
  · obtain ⟨session, event, close⟩ := may hrole
    refine checkSystem_within.bind fun _ => getStaffByEmployeeCode_within.bind fun _ => ?_
    split
    · exact handlePunchIn_within session event
    · exact handleBreak_within event
    · exact handleBreak_within event
    · exact handlePunchOut_within event close
    · exact handleLatePunchOutAndPunchIn_within session event close
  · unfold action checkSystem
    rw [Prog.bind_assoc]
    exact failIf_bind_within fun hnot => absurd hrole hnot

end AttendanceLog

/-! ### Users -/

section Users
open AuthService
variable {jwt : Jwt} {js : Js} {compare : String → String → Bool} {io : AuthService.Io} {userId role email password : String}

theorem registerRootUser_within {hash : String → String} {dto : RegisterRootDto} (may : K .addRoot) :
    (registerRootUser js hash userId dto).Within (Changes K) := by
  refine within_query.bind fun _ => always_failIf.bind fun _ => within_query.bind fun _ => always_failIf.bind fun _ => ?_
  exact (createUser_within may ⟨rfl, rfl⟩).bind fun _ => trivial

theorem loginUser_within {newPassword : Option String} (password_ : K .setPassword) (ready : K .setReady) (token : K .addToken) :
    (loginUser jwt compare io email password newPassword).Within (Changes K) := by
  refine within_find fun user => Prog.Always.bind ?_ fun user => ?_
  · unfold identify
    split
    · refine always_failIf.bind fun _ => ?_
      split
      · trivial
      · refine (setPassword_within password_).bind fun _ => (setReady_within ready).bind fun _ => within_find fun _ => ?_
        exact always_failIf.bind fun _ => always_failIf.bind fun _ => trivial
    · exact always_failIf.bind fun _ => always_failIf.bind fun _ => trivial
  · cases user with
    | none => trivial
    | some user => exact (createRefreshToken_within token (by simp)).bind fun _ => trivial

theorem refreshAccessToken_within {refreshToken : String} (may : K .rotateToken) :
    (refreshAccessToken jwt io refreshToken).Within (Changes K) := by
  refine within_find fun _ => always_failIf.bind fun _ => always_orFail.bind fun _ => within_find fun _ => ?_
  exact (rotateRefreshToken_within may).bind fun _ => trivial

theorem forgotPassword_within {hash : String → String} {resetTokenId otp : String} (may : K .setResetCode) :
    (forgotPassword js hash resetTokenId otp email).Within (Changes K) := by
  refine always_failIf.bind fun _ => within_query.bind fun _ => always_orFail.bind fun _ => ?_
  exact (upsertResetToken_within may).bind fun _ => within_outside.bind fun _ => trivial

theorem resetPassword_within {dto : ResetPasswordDto} (password_ : K .setPassword) (code : K .dropResetCode) :
    (resetPassword js compare io dto).Within (Changes K) := by
  refine within_query.bind fun _ => always_orFail.bind fun _ => within_find fun _ => always_failIf.bind fun _ => ?_
  exact (setPassword_within password_).bind fun _ => (deleteResetToken_within code).bind fun _ => trivial

theorem changeOldPassword_within {oldPassword newPassword : String} (may : K .setPassword) :
    (changeOldPassword compare io userId oldPassword newPassword).Within (Changes K) :=
  within_find fun _ => always_failIf.bind fun _ => (setPassword_within may).bind fun _ => trivial

theorem logout_within (may : role ∈ ["Root", "SuperAdmin", "Admin"] → K .dropTokens) : (logout userId role).Within (Changes K) :=
  failIf_bind_within fun hrole => within_find fun _ =>
    (deleteRefreshTokens_within (may (not_not.mp hrole))).bind fun _ => trivial

end Users

/-! ### System accounts -/

section Systems
open SystemService
variable {jwt : Jwt} {js : Js} {compare : String → String → Bool} {hash : String → String} {orgId userId systemId role email : String}

theorem registerSystemUser_within {io : SystemService.Io} {dto : RegisterSystemUserDto} (may : role ∈ ["SuperAdmin"] → K .addSystem) :
    (registerSystemUser js io orgId userId role dto).Within (Changes K) := by
  refine failIf_bind_within fun hrole => within_find fun _ => within_find fun _ => always_failIf.bind fun _ => ?_
  refine within_query.bind fun _ => always_failIf.bind fun _ => within_query.bind fun _ => always_failIf.bind fun _ => ?_
  exact (createSystem_within (may (not_not.mp hrole))).bind fun _ => trivial

theorem loginSystemUser_within {io : SessionIo} {password : String} (token : K .addToken) (update : K .updateSystem) :
    (loginSystemUser jwt js compare io email password).Within (Changes K) := by
  refine within_find fun _ => always_failIf.bind fun _ => always_failIf.bind fun _ => ?_
  refine (createRefreshToken_within token (by simp)).bind fun _ => ?_
  exact (updateSystem_within update fun a => ⟨a.password, a.secretCode, _, _, rfl⟩).bind fun _ => trivial

theorem refreshSystemAccessToken_within {io : SessionIo} {token : String} (may : K .rotateToken) :
    (refreshSystemAccessToken jwt io token).Within (Changes K) :=
  within_find fun _ => within_query.bind fun _ => (rotateRefreshToken_within may).bind fun _ => trivial

theorem logoutSystemAccount_within (may : role ∈ ["System"] → K .updateSystem ∧ K .dropTokens) :
    (logoutSystemAccount orgId systemId role).Within (Changes K) := by
  refine failIf_bind_within fun hrole => within_find fun _ => within_find fun _ => always_failIf.bind fun _ => ?_
  obtain ⟨update, tokens⟩ := may (not_not.mp hrole)
  refine always_failIf.bind fun _ => ?_
  refine (updateSystem_within update fun a => ⟨a.password, a.secretCode, .loggedOut, none, rfl⟩).bind fun _ => ?_
  exact (deleteSystemTokens_within tokens).bind fun _ => trivial

theorem forgotSystemPassword_within {resetTokenId otp : String} (may : K .setSystemResetCode) :
    (SystemService.forgotPassword js hash resetTokenId otp email).Within (Changes K) := by
  refine always_failIf.bind fun _ => within_find fun _ => ?_
  exact (upsertSystemResetToken_within may).bind fun _ => within_outside.bind fun _ => trivial

theorem resetSystemPassword_within {dto : ResetPasswordDto} (update : K .updateSystem) (code : K .dropSystemResetCode) :
    (SystemService.resetPassword js compare hash dto).Within (Changes K) := by
  refine within_find fun _ => within_find fun _ => always_failIf.bind fun _ => ?_
  refine (updateSystem_within update fun a => ⟨_, a.secretCode, a.activityStatus, a.sessionId, rfl⟩).bind fun _ => ?_
  exact (deleteSystemResetToken_within code).bind fun _ => trivial

theorem editSystemAccount_within {dto : EditSystemUserDto} (may : role ∈ ["SuperAdmin"] → K .updateSystem) :
    (editSystemAccount orgId role systemId dto).Within (Changes K) := by
  refine failIf_bind_within fun hrole => within_find fun _ => always_failIf.bind fun _ => ?_
  have update := may (not_not.mp hrole)
  exact (updateSystem_within update fun a => ⟨a.password, _, a.activityStatus, a.sessionId, rfl⟩).bind fun _ => trivial

theorem deleteSystemAccount_within (may : role ∈ ["SuperAdmin"] → K .dropSystem) :
    (deleteSystemAccount systemId orgId userId role).Within (Changes K) :=
  failIf_bind_within fun hrole => within_find fun _ => within_find fun _ => within_find fun _ =>
    (deleteSystem_within (may (not_not.mp hrole))).bind fun _ => trivial

theorem logoutSystemAccountWeb_within (may : role ∈ ["SuperAdmin"] → K .updateSystem) :
    (logoutSystemAccountWeb systemId orgId userId role).Within (Changes K) := by
  refine failIf_bind_within fun hrole => within_find fun _ => within_find fun _ => always_failIf.bind fun _ => ?_
  refine within_find fun _ => always_failIf.bind fun _ => ?_
  exact (updateSystem_within (may (not_not.mp hrole)) fun a => ⟨a.password, a.secretCode, .loggedOut, none, rfl⟩).bind fun _ => trivial

theorem logoutAllSystemAccounts_within (may : role ∈ ["SuperAdmin"] → K .dropTokens ∧ K .updateSystem) :
    (logoutAllSystemAccounts orgId role userId).Within (Changes K) := by
  refine failIf_bind_within fun hrole => within_find fun _ => within_find fun _ => always_failIf.bind fun _ => ?_
  obtain ⟨tokens, update⟩ := may (not_not.mp hrole)
  refine within_query.bind fun _ => always_failIf.bind fun _ => (deleteSystemTokens_within tokens).bind fun _ => ?_
  exact (logOutSystems_within update).bind fun _ => trivial

end Systems

/-! ### Departments and reasons -/

section Listings
open Listing
variable {α : Type} [Row α] {L : Listing α} {js : Js} {io : Listing.Io α} {orgId qOrgId : Option String} {userId role : String}

theorem checkUser_within {target : String} : (checkUser userId role target).Within (Changes K) := by
  unfold checkUser
  split
  · exact within_find fun _ => always_failIf
  · trivial

theorem authorize_bind_within {β : Type} {allowedRoles : List String} {message : String} {h : String → Service β}
    (hh : role ∈ allowedRoles → ∀ target, (h target).Within (Changes K)) :
    (authorize orgId userId role qOrgId allowedRoles message >>= h).Within (Changes K) := by
  unfold authorize
  rw [Prog.bind_assoc]
  refine always_orFail.bind fun target => ?_
  rw [Prog.bind_assoc]
  refine failIf_bind_within fun hrole => ?_
  rw [Prog.bind_assoc]
  exact checkUser_within.bind fun _ => hh (not_not.mp hrole) target

theorem exists_within {target name : String} : (L.exists? js io target name).Within (Changes K) :=
  within_query.bind fun _ => trivial

theorem add_within {name taken : String} (create : role ∈ ["Root", "SuperAdmin", "Admin"] → ∀ a, (L.create a).Within (Changes K)) :
    (L.add js io orgId userId role name qOrgId taken).Within (Changes K) :=
  authorize_bind_within fun hrole _ => exists_within.bind fun _ => always_failIf.bind fun _ => create hrole _

/-- The loop of a bulk request: each entry creates at most one row. -/
theorem addEach_within {target : String} {names : List String} {i : Nat} {results : List (Result α)}
    (create : ∀ a, (L.create a).Within (Changes K)) : (L.addEach js io target names i results).Within (Changes K) := by
  induction names generalizing i results with
  | nil => trivial
  | cons name names ih =>
    refine Prog.Always.bind (exists_within.bind fun taken => ?_) fun _ => ih
    split
    · trivial
    · exact (create _).bind fun _ => trivial

theorem addBulk_within {names : List String}
    (create : role ∈ ["Root", "SuperAdmin", "Admin"] → ∀ a, (L.create a).Within (Changes K)) :
    (L.addBulk js io orgId role names qOrgId).Within (Changes K) := by
  refine always_orFail.bind fun _ => failIf_bind_within fun hrole => within_find fun _ => ?_
  exact (addEach_within (create (not_not.mp hrole))).bind fun _ => trivial

theorem remove_within {id message missing : String} {allowedRoles : List String}
    (delete : role ∈ allowedRoles → (L.delete id).Within (Changes K)) :
    (L.remove orgId userId role id qOrgId allowedRoles message missing).Within (Changes K) :=
  authorize_bind_within fun hrole _ => within_find fun _ => delete hrole

end Listings

/-! ### Staff members -/

section StaffMembers
open StaffService
variable {js : Js} {io : StaffService.Io} {orgId qOrgId : Option String} {role staffId : String}

/-- The organisation that the caller acts for. -/
abbrev ActsFor (orgId : Option String) (role : String) (qOrgId : Option String) (org : String) : Prop :=
  truthy (targetOrgId orgId role qOrgId) = some org

/-- The rows of a new staff member of the organisation are added within a relation. -/
structure Hires (io : StaffService.Io) (org : String) (R : Db → Db → Prop) : Prop where
  staff : ∀ x : Staff, x.userId = none → (createStaff x).Within R
  user : ∀ x staffId, x.role ≠ .root → x.orgId = some org → (∃ i, x.id = io.userId i) →
    (StaffService.createUser x staffId).Within R

theorem hires {org : String} (staff : K .addStaff) (user : K .addUser) : Hires io org (Changes K) :=
  ⟨fun _ unlinked => createStaff_within staff unlinked, fun _ _ role _ _ => createMemberUser_within user role⟩

section Hiring
variable {R : Db → Db → Prop} (refl : ∀ s, R s s)
include refl

/-- An organisation that is looked up, and what is done with it. -/
theorem findOrganization_within {α : Type} {org : String} {e : HttpException} {h : Organization → Service α}
    (hh : ∀ organization, organization.id = org → (h organization).Within R) :
    (query (·.organization.find org) >>= fun found => Prog.orFail e found >>= h).Within R := by
  refine Prog.Always.access_bind refl fun s found hfound => Prog.Always.orFail_bind fun organization horg => ?_
  obtain rfl := Except.ok.inj hfound
  exact hh organization (Table.find_eq_some.mp horg).2

theorem pickEmployeeCode_within {org code : String} {digits : List Nat} : (pickEmployeeCode org code digits).Within R := by
  induction digits with
  | nil => trivial
  | cons random rest ih =>
    refine (always_query refl).bind fun taken => ?_
    split
    · exact ih
    · trivial

theorem createMember_within {i : Nat} {organization : Organization} {dto : AddStaffMemberDto} {email departmentId : String}
    (hires : Hires io organization.id R) : (createMember io i organization dto email departmentId).Within R := by
  refine Prog.Always.bind ((always_query refl).bind fun _ => always_orFail.bind fun _ => pickEmployeeCode_within refl) fun _ => ?_
  refine (hires.staff _ rfl).bind fun _ => ?_
  exact (hires.user _ _ (by simp) rfl ⟨i, rfl⟩).bind fun _ => trivial

theorem addOne_within {organization : Organization} {dto : AddStaffMemberDto} {i : Nat} (hires : Hires io organization.id R) :
    (addOne js io organization dto i).Within R := by
  refine (always_query refl).bind fun found => ?_
  split
  · trivial
  · refine (always_query refl).bind fun department => ?_
    cases department with
    | none => trivial
    | some department => exact (createMember_within refl hires).bind fun _ => trivial

theorem addEachMember_within {organization : Organization} {staffList : List AddStaffMemberDto} {i : Nat}
    {results : List StaffService.Result} (hires : Hires io organization.id R) :
    (addEach js io organization staffList i results).Within R := by
  induction staffList generalizing i results with
  | nil => trivial
  | cons dto staffList ih => exact (addOne_within refl hires).bind fun _ => ih

variable (trans : ∀ {s t u}, R s t → R t u → R s u)
include trans

theorem addStaffMember_within {dto : AddStaffMemberDto}
    (may : role ∈ ["Root", "SuperAdmin", "Admin"] → ∀ org, ActsFor orgId role qOrgId org → Hires io org R) :
    (addStaffMember js io orgId role dto qOrgId).Within R := by
  refine Prog.Always.orFail_bind fun org horg => failIf_bind_within fun hrole => ?_
  refine findOrganization_within refl fun organization hid => (always_query refl).bind fun _ => always_failIf.bind fun _ => ?_
  obtain rfl := hid
  exact (createMember_within refl (may (not_not.mp hrole) _ horg)).transaction refl trans

theorem addStaffBulk_within {staffList : List AddStaffMemberDto}
    (may : role ∈ ["Root", "SuperAdmin", "Admin"] → ∀ org, ActsFor orgId role qOrgId org → Hires io org R) :
    (addStaffBulk js io orgId role staffList qOrgId).Within R := by
  refine Prog.Always.orFail_bind fun org horg => failIf_bind_within fun hrole => ?_
  refine findOrganization_within refl fun organization hid => ?_
  obtain rfl := hid
  exact ((addEachMember_within refl (may (not_not.mp hrole) _ horg)).transaction refl trans).bind fun _ => trivial

end Hiring

theorem editStaffHours_within {hours : Option WorkingHoursDto} (may : K .setStaffHours) :
    (editWorkingHours io staffId hours).Within (Changes K) := by
  have upsertEach_within (dto : WorkingHoursDto) (days : List Weekday) : (upsertEach io staffId dto days).Within (Changes K) := by
    induction days with
    | nil => trivial
    | cons day days ih => exact (upsertStaffHours_within may).bind fun _ => ih
  cases hours with
  | none => trivial
  | some dto => exact always_failIf.bind fun _ => always_failIf.bind fun _ => upsertEach_within dto _

theorem reassigned {a : UserCredential} {role : Option MemberRoleEnum} {email : String} {accountStatus : AccountStatusEnum} :
    Reassigned a { a with role := (role.map (·.auth)).getD a.role, email, accountStatus } := by
  refine ⟨_, email, accountStatus, ?_, rfl⟩
  cases role with
  | none => exact Or.inl rfl
  | some role => exact Or.inr (by cases role <;> simp [MemberRoleEnum.auth])

theorem demoteSuperAdmin_within {org : String} (staff : K .updateStaff) (user : K .updateUser) :
    (demoteSuperAdmin io org staffId).Within (Changes K) := by
  refine within_query.bind fun found => ?_
  split
  · trivial
  · refine Prog.Always.bind (updateMemberUser_within user fun a => ?_) fun _ => updateStaff_within staff fun a => ?_
    · exact ⟨.admin, a.email, a.accountStatus, Or.inr (by decide), rfl⟩
    · exact ⟨a.name, a.email, .admin, a.departmentId, a.designation, rfl⟩

theorem updateMember_within {dto : EditStaffMemberDto} (staff : K .updateStaff) : (updateMember staffId dto).Within (Changes K) :=
  always_failIf.bind fun _ => updateStaff_within staff fun _ => ⟨_, _, _, _, _, rfl⟩

theorem makeRoom_within {org : String} {member : Staff} {newRole : Option MemberRoleEnum} (staff : K .updateStaff)
    (user : K .updateUser) : (makeRoom io org member newRole).Within (Changes K) := by
  unfold makeRoom
  split
  · exact demoteSuperAdmin_within staff user
  · trivial

section Editing
variable {R : Db → Db → Prop} (refl : ∀ s, R s s)
include refl

theorem updateCredential_within {organization : Organization} {member : Staff} {dto : EditStaffMemberDto}
    (add : ∀ x staffId, x.role ≠ .root → x.orgId = some organization.id → (∃ i, x.id = io.userId i) →
      (StaffService.createUser x staffId).Within R)
    (update : ∀ id change, (∀ a, Reassigned a (change a)) → (StaffService.updateUser id change).Within R) :
    (updateCredential io organization member dto).Within R := by
  unfold updateCredential
  split
  · exact Prog.Always.bind (update _ _ fun _ => reassigned) fun _ => trivial
  · refine always_orFail.bind fun _ => always_orFail.bind fun newRole => ?_
    refine Prog.Always.bind (add _ _ ?_ rfl ⟨0, rfl⟩) fun _ => (Prog.always_access refl).bind fun _ => trivial
    cases newRole <;> simp [MemberRoleEnum.auth]

theorem editStaffMemberDetails_within (trans : ∀ {s t u}, R s t → R t u → R s u) {dto : EditStaffMemberDto}
    (may : role ∈ ["Root", "SuperAdmin", "Admin"] → (editWorkingHours io staffId dto.workingHours).Within R ∧
      (∀ org member, (makeRoom io org member dto.role).Within R) ∧ (updateMember staffId dto).Within R ∧
      ∀ organization, ActsFor orgId role qOrgId organization.id → ∀ member,
        (updateCredential io organization member dto).Within R) :
    (editStaffMemberDetails io orgId role staffId dto qOrgId).Within R := by
  refine failIf_bind_within fun hrole => Prog.Always.orFail_bind fun org horg => ?_
  refine findOrganization_within refl fun organization hid => ?_
  obtain rfl := hid
  obtain ⟨hours, room, member, credential⟩ := may (not_not.mp hrole)
  refine (always_query refl).bind fun _ => always_orFail.bind fun _ => always_failIf.bind fun _ => ?_
  refine Prog.Within.transaction refl trans ?_
  exact hours.bind fun _ => (room _ _).bind fun _ => member.bind fun _ => credential _ horg _

end Editing

theorem edit_within {dto : EditStaffMemberDto} (may : role ∈ ["Root", "SuperAdmin", "Admin"] →
      K .setStaffHours ∧ K .updateStaff ∧ K .addUser ∧ K .updateUser) :
    (editStaffMemberDetails io orgId role staffId dto qOrgId).Within (Changes K) := by
  refine editStaffMemberDetails_within .refl .trans fun hrole => ?_
  obtain ⟨hours, staff, add, update⟩ := may hrole
  refine ⟨editStaffHours_within hours, fun _ _ => makeRoom_within staff update, updateMember_within staff, fun _ _ _ => ?_⟩
  exact updateCredential_within .refl (fun _ _ role _ _ => createMemberUser_within add role) fun _ _ reassigns =>
    updateMemberUser_within update reassigns

theorem checkDeletion_within {member : Staff} : (checkDeletion role member).Within (Changes K) := by
  unfold checkDeletion
  split
  · trivial
  · split
    · exact always_failIf
    · split
      · exact always_failIf
      · trivial

theorem deleteStaffMember_within (may : role ∈ ["Root", "SuperAdmin", "Admin"] → K .dropStaff ∧ K .dropUser) :
    (deleteStaffMember orgId role staffId qOrgId).Within (Changes K) := by
  refine failIf_bind_within fun hrole => always_orFail.bind fun _ => within_find fun _ => within_find fun member => ?_
  obtain ⟨staff, user⟩ := may (not_not.mp hrole)
  refine always_failIf.bind fun _ => checkDeletion_within.bind fun _ => (deleteStaff_within staff).bind fun _ => ?_
  refine Prog.Always.bind ?_ fun _ => trivial
  cases truthy member.userId with
  | none => trivial
  | some userId => exact deleteUser_within user

end StaffMembers

/-! ### Teams -/

section Teams
open TeamService
variable {io : TeamService.Io} {orgId userId role teamId : String}

theorem checkCredentials_within : (checkCredentials orgId userId).Within (Changes K) :=
  within_query.bind fun _ => within_query.bind fun _ => always_failIf

theorem findTeam_within {error : HttpException} : (findTeam orgId userId teamId error).Within (Changes K) :=
  within_query.bind fun _ => within_query.bind fun _ => within_query.bind fun _ => always_failIf.bind fun _ => always_orFail

theorem addTeam_within {dto : CreateTeamDto} (may : role ∈ ["SuperAdmin"] → K .addTeam ∧ K .addMembers) :
    (addTeam io orgId userId role dto).Within (Changes K) := by
  refine failIf_bind_within fun hrole => checkCredentials_within.bind fun _ => within_query.bind fun _ => ?_
  obtain ⟨team, members⟩ := may (not_not.mp hrole)
  exact always_orFail.bind fun _ => (createTeam_within team).bind fun _ => (createTeamMember_within members).bind fun _ => trivial

theorem editTeam_within {dto : EditTeamDto} (may : role = "SuperAdmin" → K .updateTeam ∧ K .dropReporting) :
    (editTeam orgId userId role teamId dto).Within (Changes K) := by
  refine failIf_bind_within fun hrole => findTeam_within.bind fun team => ?_
  obtain ⟨update, reporting⟩ := may (not_not.mp hrole)
  refine Prog.Always.bind (within_transaction (Prog.Always.bind ?_ fun _ => Prog.Always.bind ?_ fun _ => ?_)) fun _ => trivial
  · unfold cleanUpNewManager
    split
    · trivial
    · refine within_query.bind fun _ => always_orFail.bind fun _ => within_find fun _ => deleteTeamReporting_within reporting
  · unfold cleanUpOldManager
    split
    · refine within_query.bind fun found => ?_
      cases found with
      | none => trivial
      | some oldManager => exact deleteTeamReporting_within reporting
    · trivial
  · exact updateTeam_within update

theorem deleteTeam_within (may : role ∈ ["SuperAdmin", "Admin", "Root", "Staff"] → K .dropTeam) :
    (deleteTeam orgId userId role teamId).Within (Changes K) :=
  failIf_bind_within fun hrole => checkCredentials_within.bind fun _ => deleteTeamCascade_within (may (not_not.mp hrole))

theorem addMembers_within {dto : AddMembersDto} (may : role ∈ ["SuperAdmin"] → K .addMembers) :
    (addMembers io orgId userId role teamId dto).Within (Changes K) := by
  refine failIf_bind_within fun hrole => checkCredentials_within.bind fun _ => within_find fun _ => within_query.bind fun _ => ?_
  refine always_failIf.bind fun _ => within_query.bind fun _ => ?_
  exact (createTeamMembers_within (may (not_not.mp hrole))).bind fun _ => trivial

theorem removeMember_within {memberId : String} (may : role ∈ ["SuperAdmin"] → K .dropMember ∧ K .dropReporting) :
    (removeMember orgId userId role teamId memberId).Within (Changes K) := by
  refine failIf_bind_within fun hrole => checkCredentials_within.bind fun _ => within_find fun _ => ?_
  obtain ⟨member, reporting⟩ := may (not_not.mp hrole)
  exact (deleteTeamMember_within member).bind fun _ => (deleteTeamReporting_within reporting).bind fun _ => trivial

theorem setReporting_within {dto : SetReportingDto} (may : role = "SuperAdmin" → K .addReporting) :
    (setReporting io orgId userId role teamId dto).Within (Changes K) := by
  refine failIf_bind_within fun hrole => findTeam_within.bind fun _ => within_find fun _ => always_failIf.bind fun _ => ?_
  refine always_failIf.bind fun _ => within_query.bind fun _ => always_failIf.bind fun _ => within_query.bind fun _ => ?_
  dsimp only
  split
  · trivial
  · refine within_query.bind fun _ => always_failIf.bind fun _ => ?_
    exact (createTeamReporting_within (may (not_not.mp hrole))).bind fun _ => trivial

/-- The passes of a bulk request go on where one of them fails. -/
theorem setReportingEach_within {io : Nat → TeamService.Io} {managerIds staffIds : List String} {i : Nat} {summary : Summary}
    (may : role = "SuperAdmin" → K .addReporting) :
    (setReportingEach io orgId userId role teamId managerIds staffIds i summary).Within (Changes K) := by
  induction staffIds generalizing i summary with
  | nil => trivial
  | cons staffId staffIds ih =>
    refine Prog.Always.bind ?_ fun _ => ih
    exact Prog.Always.orElse ((setReporting_within may).bind fun _ => trivial) fun _ => trivial

theorem removeReporting_within {dto : RemoveReportingDto} (may : role = "SuperAdmin" → K .dropReporting) :
    (removeReporting io orgId userId role teamId dto).Within (Changes K) := by
  refine failIf_bind_within fun hrole => checkCredentials_within.bind fun _ => within_query.bind fun _ => ?_
  refine always_orFail.bind fun _ => within_find fun _ => within_query.bind fun _ => within_find fun _ => ?_
  refine within_find fun _ => (deleteTeamReporting_within (may (not_not.mp hrole))).bind fun _ => trivial

end Teams

/-! ### Organisations and plans -/

section Organizations
open OrganizationService
variable {js : Js} {io : ChangeIo} {orgId userId role : String} {logo : Bool}

theorem uploadLogo_within : (uploadLogo io logo).Within (Changes K) := by
  unfold uploadLogo
  split
  · exact within_outside.bind fun _ => trivial
  · trivial

theorem createOrganization_within {dto : CreateOrganizationDto}
    (may : role ∈ ["Root"] → K .addOrganization ∧ K .addSubscription) :
    (createOrganization js io role dto logo).Within (Changes K) := by
  refine failIf_bind_within fun hrole => within_query.bind fun _ => always_failIf.bind fun _ => uploadLogo_within.bind fun _ => ?_
  obtain ⟨organization, subscription⟩ := may (not_not.mp hrole)
  refine always_orFail.bind fun _ => always_ofExcept.bind fun _ => Prog.Always.bind ?_ fun _ => within_find fun _ => ?_
  · exact always_orFail.bind fun _ => always_orFail.bind fun _ => always_failIf.bind fun _ => trivial
  · refine Prog.Always.bind (within_transaction ?_) fun _ => within_outside.bind fun _ => trivial
    exact (insertOrganization_within organization).bind fun _ => (insertSubscription_within subscription).bind fun _ => trivial

theorem editOrganizationHours_within {hours : Option StaffService.WorkingHoursDto} (may : K .setOrganizationHours) :
    (editWorkingHours io orgId hours).Within (Changes K) := by
  have upsertEach_within (dto : StaffService.WorkingHoursDto) (days : List Weekday) :
      (upsertEach io orgId dto days).Within (Changes K) := by
    induction days with
    | nil => trivial
    | cons day days ih => exact (upsertOrganizationHours_within may).bind fun _ => ih
  cases hours with
  | none => trivial
  | some dto => exact upsertEach_within dto _

/-- The part of an edit that comes after the checks of its caller. -/
theorem editChecked_always {R : Db → Db → Prop} (refl : ∀ s, R s s) (trans : ∀ {s t u}, R s t → R t u → R s u)
    {dto : EditOrganizationDto} {limit : Option Int}
    (update : ∀ key code url, truthy io.encryptionKey = some key → newSettingCode js io dto.settingCode key = .ok code →
      (updateOrganization orgId (editedOrganization dto limit code url)).Within R)
    (hours : (editWorkingHours io orgId dto.workingHours).Within R) : (do
      checkAccountLimit orgId limit
      let logoUrl ← uploadLogo io logo
      let encryptionKey ← Prog.orFail (.internalServerError "ENCRYPTION_KEY is not set in environment variables")
        (truthy io.encryptionKey)
      let settingCodeEncrypted ← Prog.ofExcept (newSettingCode js io dto.settingCode encryptionKey)
      checkWorkingHours dto.workingHours
      transaction do
        Prog.failIf (refusesNull dto = true) invalidArgument
        Prog.failIf (¬limit.all Attendance.fitsInt) outOfRange
        updateOrganization orgId (editedOrganization dto limit settingCodeEncrypted logoUrl)
        editWorkingHours io orgId dto.workingHours
      return "Organization details have been updated successfully." : Service String).Within R := by
  refine Prog.Always.bind ?_ fun _ => Prog.Always.bind ?_ fun url => Prog.Always.orFail_bind fun key hkey => ?_
  · cases limit with
    | none => trivial
    | some limit => exact (AuthService.always_query refl).bind fun _ => always_failIf
  · unfold uploadLogo
    split
    · exact (Prog.always_access refl).bind fun _ => trivial
    · trivial
  · refine Prog.Always.ofExcept_bind fun code hcode => Prog.Always.bind ?_ fun _ =>
      Prog.Always.bind (Prog.Within.transaction refl trans ?_) fun _ => trivial
    · cases dto.workingHours with
      | none => trivial
      | some dto => exact always_failIf.bind fun _ => always_failIf
    · exact always_failIf.bind fun _ => always_failIf.bind fun _ => (update key code url hkey hcode).bind fun _ => hours

/-- A superadmin's edit leaves the account limit, a root user's may set it. -/
theorem editOrganizationDetails_within {dto : EditOrganizationDto} (may : role ∈ ["Root", "SuperAdmin"] →
      (if role = "SuperAdmin" then K .editOrganization else K .limitOrganization) ∧ K .setOrganizationHours) :
    (editOrganizationDetails js io orgId role dto userId logo).Within (Changes K) := by
  refine failIf_bind_within fun hrole => always_failIf.bind fun _ => within_find fun organization => ?_
  obtain ⟨edit, hours⟩ := may (not_not.mp hrole)
  unfold editableLimit
  by_cases hsuper : role = "SuperAdmin"
  · rw [if_pos hsuper] at edit ⊢
    have update (code url : Option String) : (updateOrganization orgId (editedOrganization dto none code url)).Within (Changes K) :=
      editOrganization_within edit fun a => ⟨rfl, rfl⟩
    rw [Prog.bind_assoc]
    refine within_query.bind fun _ => ?_
    rw [Prog.bind_assoc]
    refine always_orFail.bind fun _ => ?_
    rw [Prog.bind_assoc]
    exact always_failIf.bind fun _ => editChecked_always .refl .trans (fun _ code url _ _ => update code url)
      (editOrganizationHours_within hours)
  · rw [if_neg hsuper] at edit ⊢
    have update (code url : Option String) :
        (updateOrganization orgId (editedOrganization dto dto.accountLimit code url)).Within (Changes K) :=
      limitOrganization_within edit fun a => rfl
    exact editChecked_always .refl .trans (fun _ code url _ _ => update code url)
      (editOrganizationHours_within hours)

theorem updateSubscription_within {dto : UpdateSubscriptionDto} (may : role ∈ ["Root"] → K .setSubscription) :
    (updateSubscription io userId role orgId dto).Within (Changes K) := by
  refine failIf_bind_within fun hrole => within_query.bind fun _ => always_orFail.bind fun _ => within_query.bind fun _ => ?_
  refine always_failIf.bind fun _ => always_orFail.bind fun _ => Prog.Always.bind (within_transaction ?_) fun _ => trivial
  refine within_query.bind fun _ => always_orFail.bind fun _ => always_orFail.bind fun _ => always_orFail.bind fun _ => ?_
  exact upsertSubscription_within (may (not_not.mp hrole))

theorem deleteOrganization_within (may : role ∈ ["Root"] → K .dropOrganization) :
    (deleteOrganization orgId role).Within (Changes K) :=
  failIf_bind_within fun hrole => within_find fun _ => (removeOrganization_within (may (not_not.mp hrole))).bind fun _ => trivial

end Organizations

section Plans
open PlanService
variable {io : PlanService.Io} {planId : String}

theorem createPlan_within {dto : CreatePlanDto} (plan : K .addPlan) (feature : K .setFeature) :
    (createPlan io dto).Within (Changes K) := by
  have createFeatures_within (id : String) (features : List PlanFeatureDto) : (createFeatures io id features).Within (Changes K) := by
    refine within_transaction ?_
    induction features with
    | nil => trivial
    | cons f features ih => exact (insertFeature_within feature).bind fun _ => ih
  refine always_failIf.bind fun _ => always_failIf.bind fun _ => within_query.bind fun _ => always_failIf.bind fun _ => ?_
  refine within_transaction ((insertPlan_within plan).bind fun _ => (createFeatures_within _ _).bind fun _ => ?_)
  exact within_query.bind fun _ => trivial

theorem updatePlan_within {dto : UpdatePlanDto} (plan : K .updatePlan) (feature : K .setFeature) (drop : K .dropFeatures) :
    (updatePlan io planId dto).Within (Changes K) := by
  have setFeatures_within (existing : List FeatureCode) (features : List PlanFeatureDto) :
      (setFeatures io planId existing features).Within (Changes K) := by
    induction features with
    | nil => trivial
    | cons f features ih =>
      refine Prog.Always.bind ?_ fun _ => ih
      unfold setFeature
      split
      · exact updateFeature_within feature
      · exact insertFeature_within feature
  refine within_find fun _ => Prog.Always.bind (within_transaction ?_) fun _ => trivial
  refine always_failIf.bind fun _ => always_failIf.bind fun _ => (updatePlanRow_within plan).bind fun _ => ?_
  cases dto.features with
  | none => trivial
  | some features =>
    refine within_query.bind fun _ => (setFeatures_within _ _).bind fun _ => deleteFeatures_within drop

theorem softDeletePlan_within (plan : K .updatePlan) : (softDeletePlan planId).Within (Changes K) := by
  refine within_find fun _ => ?_
  split
  · exact within_query.bind fun _ => always_failIf.bind fun _ => (updatePlanRow_within plan).bind fun _ => trivial
  · trivial

end Plans

end Vms.Server
