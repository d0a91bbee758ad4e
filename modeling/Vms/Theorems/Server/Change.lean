import Vms.Lib.Evolution
import Vms.Lib.RelyGuarantee
import Vms.Server
import Vms.Theorems.Auth.Step

/-! What the statements of the services do to the store. Every access of every endpoint is a sequence of such changes
    (`Theorems/Server/Step.lean`), whatever it reads and whatever other requests do in between. -/

namespace Vms.Server
open Relational Table

inductive Kind where
  | addVisit | endVisit | decideVisit | notify | answerNotifications | dropNotification
  | openSession | closeSession | recordEvent
  | addRoot | setPassword | setReady | setResetCode | dropResetCode | addToken | rotateToken | dropTokens
  | addSystem | updateSystem | dropSystem | setSystemResetCode | dropSystemResetCode
  | addDepartment | dropDepartment | addReason | dropReason
  | addStaff | updateStaff | addUser | updateUser | setStaffHours | dropStaff | dropUser
  | addTeam | updateTeam | addMembers | dropMember | dropTeam | addReporting | dropReporting
  | addOrganization | editOrganization | limitOrganization | setOrganizationHours | addSubscription | setSubscription
  | dropOrganization
  | addPlan | updatePlan | setFeature | dropFeatures
  deriving DecidableEq

/-! ### Changed rows -/

def Ended (v w : Visit) : Prop := w = v ∨ ∃ endTime, w = { v with status := .completed, endTime := some endTime }

def Decided (v w : Visit) : Prop := w = v ∨ v.status = .pending ∧
  ((∃ remarks startTime, w = { v with status := .ongoing, remarks, startTime := some startTime }) ∨
    ∃ remarks, w = { v with status := .rejected, remarks })

def Answered (n m : Notification) : Prop := m = n ∨ ∃ action, m = { n with action, isRead := true }

/-- The session is closed; whose it is, its day and its beginning stay. -/
def ClosedAs (x y : AttendanceSession) : Prop := y.id = x.id ∧ y.orgId = x.orgId ∧ y.staffId = x.staffId ∧ y.date = x.date ∧
  y.firstPunchInAt = x.firstPunchInAt ∧ (y = x ∨ y.status = .closed)

def PasswordSet (a b : UserCredential) : Prop := ∃ password, b = { a with password }

def MadeReady (a b : UserCredential) : Prop := b = a ∨ b = { a with firstTimeLogin := some false }

/-- An edit of a staff member reaches the credential; no role of a staff member is the root role. -/
def Reassigned (a b : UserCredential) : Prop := ∃ role email accountStatus, (role = a.role ∨ role ≠ .root) ∧
  b = { a with role, email, accountStatus }

def SystemUpdated (a b : SystemCredential) : Prop := ∃ password secretCode activityStatus sessionId,
  b = { a with password, secretCode, activityStatus, sessionId }

/-- No row refers to the department, or the reason, any more. -/
def WithoutDepartment (id : String) (a b : Staff) : Prop := b = { a with departmentId := none } ∨ b = a ∧ a.departmentId ≠ some id

def WithoutReason (id : String) (v w : Visit) : Prop := w = { v with reasonId := none } ∨ w = v ∧ v.reasonId ≠ some id

def StaffUpdated (a b : Staff) : Prop := ∃ name email role departmentId designation,
  b = { a with name, email, role, departmentId, designation }

def HoursSet (a b : WorkingHours) : Prop := ∃ isClosed startsAt endsAt, b = { a with isClosed, startsAt, endsAt }

def TeamUpdated (a b : Team) : Prop := ∃ name masterManagerId, b = { a with name, masterManagerId }

/-- An edit of an organisation that leaves its account limit. -/
def OrganizationEdited (a b : Organization) : Prop := b.id = a.id ∧ b.accountLimit = a.accountLimit

/-! ### Changes -/

/-- The changes, each with the rows that the store has to hold for it. -/
inductive Change (s : Db) : Kind → Db → Prop where
  -- visits and notifications
  | addVisit {v u} (pending : v.status = .pending ∧ v.startTime = none ∧ v.endTime = none)
      (org : (s.organization.find v.orgId).isSome) (staff : (s.staff.find v.staffId).isSome)
      (reason : ∀ id, v.reasonId = some id → (s.reasonOfVisit.find id).isSome) (stored : s.visit.insert v = some u) :
      Change s .addVisit { s with visit := u }
  | endVisit {u} (visits : s.visit.Evolves Ended u) : Change s .endVisit { s with visit := u }
  | decideVisit {u} (visits : s.visit.Evolves Decided u) : Change s .decideVisit { s with visit := u }
  | notify {n u} (unanswered : n.action = .pending ∧ n.isRead = false) (org : (s.organization.find n.orgId).isSome)
      (staff : (s.staff.find n.staffId).isSome) (visit : (s.visit.find n.visitId).isSome) (stored : s.notification.insert n = some u) :
      Change s .notify { s with notification := u }
  | answerNotifications {u} (notifications : s.notification.Evolves Answered u) :
      Change s .answerNotifications { s with notification := u }
  | dropNotification {u} (rows : s.notification.Shrinks u) : Change s .dropNotification { s with notification := u }
  -- attendance
  | openSession {x u} (isOpen : x.status = .open) (org : (s.organization.find x.orgId).isSome)
      (staff : (s.staff.find x.staffId).isSome) (stored : s.attendanceSession.insert x = some u) :
      Change s .openSession { s with attendanceSession := u }
  | closeSession {u} (sessions : s.attendanceSession.Evolves ClosedAs u) :
      Change s .closeSession { s with attendanceSession := u }
  | recordEvent {e u} (org : (s.organization.find e.orgId).isSome) (staff : (s.staff.find e.staffId).isSome)
      (session : ∀ id, e.sessionId = some id → (s.attendanceSession.find id).isSome)
      (stored : s.attendanceEvent.insert e = some u) : Change s .recordEvent { s with attendanceEvent := u }
  -- users
  | addRoot {user u} (role : user.role = .root ∧ user.orgId = none) (stored : s.userCredential.insert user = some u) :
      Change s .addRoot { s with userCredential := u }
  | setPassword {u} (users : s.userCredential.Evolves PasswordSet u) : Change s .setPassword { s with userCredential := u }
  | setReady {u} (users : s.userCredential.Evolves MadeReady u) : Change s .setReady { s with userCredential := u }
  | setResetCode {u} (users : ∀ b ∈ u, (∃ a ∈ s.resetToken, a.userId = b.userId) ∨ (s.userCredential.find b.userId).isSome) :
      Change s .setResetCode { s with resetToken := u }
  | dropResetCode {u} (rows : s.resetToken.Shrinks u) : Change s .dropResetCode { s with resetToken := u }
  | addToken {token u} (user : ∀ id, token.userId = some id → (s.userCredential.find id).isSome)
      (system : ∀ id, token.systemId = some id → (s.systemCredential.find id).isSome)
      (owner : token.userId.isSome ≠ token.systemId.isSome) (stored : s.refreshToken.insert token = some u) :
      Change s .addToken { s with refreshToken := u }
  | rotateToken {u} (tokens : s.refreshToken.Evolves (fun a b => b.userId = a.userId ∧ b.systemId = a.systemId) u) :
      Change s .rotateToken { s with refreshToken := u }
  | dropTokens {u} (rows : s.refreshToken.Shrinks u) : Change s .dropTokens { s with refreshToken := u }
  -- system accounts
  | addSystem {system u} (org : (s.organization.find system.orgId).isSome)
      (stored : s.systemCredential.insert system = some u) : Change s .addSystem { s with systemCredential := u }
  | updateSystem {u} (systems : s.systemCredential.Evolves SystemUpdated u) : Change s .updateSystem { s with systemCredential := u }
  | dropSystem {id} : Change s .dropSystem { s with
      systemCredential := s.systemCredential.delete (·.id == id)
      refreshToken := s.refreshToken.delete (·.systemId == some id)
      resetTokenSystem := s.resetTokenSystem.delete (·.systemId == id) }
  | setSystemResetCode {u} (systems : ∀ b ∈ u, (∃ a ∈ s.resetTokenSystem, a.systemId = b.systemId) ∨
        (s.systemCredential.find b.systemId).isSome) :
      Change s .setSystemResetCode { s with resetTokenSystem := u }
  | dropSystemResetCode {u} (rows : s.resetTokenSystem.Shrinks u) : Change s .dropSystemResetCode { s with resetTokenSystem := u }
  -- departments and reasons
  | addDepartment {d u} (org : (s.organization.find d.orgId).isSome) (stored : s.department.insert d = some u) :
      Change s .addDepartment { s with department := u }
  | dropDepartment {id u} (staff : s.staff.Evolves (WithoutDepartment id) u) : Change s .dropDepartment { s with
      department := s.department.delete (Row.id · == id), staff := u }
  | addReason {r u} (org : (s.organization.find r.orgId).isSome) (stored : s.reasonOfVisit.insert r = some u) :
      Change s .addReason { s with reasonOfVisit := u }
  | dropReason {id u} (visits : s.visit.Evolves (WithoutReason id) u) : Change s .dropReason { s with
      reasonOfVisit := s.reasonOfVisit.delete (Row.id · == id), visit := u }
  -- staff members
  | addStaff {staff u} (user : staff.userId = none) (org : (s.organization.find staff.orgId).isSome)
      (department : ∀ id, staff.departmentId = some id → (s.department.find id).isSome)
      (stored : s.staff.insert staff = some u) : Change s .addStaff { s with staff := u }
  | updateStaff {u} (rows : s.staff.Evolves StaffUpdated u) (departments : ∀ b ∈ u, ∀ id, b.departmentId = some id →
        (∃ a ∈ s.staff, a.departmentId = some id) ∨ (s.department.find id).isSome) :
      Change s .updateStaff { s with staff := u }
  | addUser {user users staffId staff} (role : user.role ≠ .root) (org : ∀ id, user.orgId = some id → (s.organization.find id).isSome)
      (stored : s.userCredential.insert user = some users)
      (connected : s.staff.modify (·.id == staffId) (fun staff => { staff with userId := some user.id }) = some staff) :
      Change s .addUser { s with userCredential := users, staff }
  | updateUser {u} (users : s.userCredential.Evolves Reassigned u) : Change s .updateUser { s with userCredential := u }
  | setStaffHours {u} (owners : ∀ b ∈ u, (∃ a ∈ s.workingHours, HoursSet a b) ∨
        b.orgId = none ∧ ∃ id, b.staffId = some id ∧ (s.staff.find id).isSome) :
      Change s .setStaffHours { s with workingHours := u }
  | dropStaff {id} : Change s .dropStaff (s.deleteStaff (· == id))
  | dropUser {id} : Change s .dropUser (s.deleteUser id)
  -- teams
  | addTeam {team u} (org : (s.organization.find team.orgId).isSome) (manager : (s.staff.find team.masterManagerId).isSome)
      (stored : s.team.insert team = some u) : Change s .addTeam { s with team := u }
  | updateTeam {u} (teams : s.team.Evolves TeamUpdated u) (managers : ∀ b ∈ u, (∃ a ∈ s.team, a.masterManagerId = b.masterManagerId) ∨
        (s.staff.find b.masterManagerId).isSome) :
      Change s .updateTeam { s with team := u }
  | addMembers {u} (members : ∀ b ∈ u, b ∈ s.teamMember ∨ (s.team.find b.teamId).isSome ∧ (s.staff.find b.staffId).isSome)
      (kept : ∀ a ∈ s.teamMember, a ∈ u) : Change s .addMembers { s with teamMember := u }
  | dropMember {id} : Change s .dropMember { s with
      teamMember := s.teamMember.delete (·.id == id)
      teamReporting := s.teamReporting.delete (·.teamMemberId == some id) }
  | dropTeam {id} : Change s .dropTeam { s with
      team := s.team.delete (·.id == id)
      teamMember := s.teamMember.delete (·.teamId == id)
      teamReporting := s.teamReporting.delete (TeamService.reportsUnder s id) }
  | addReporting {u} (links : ∀ b ∈ u, b ∈ s.teamReporting ∨ (s.team.find b.teamId).isSome ∧ (s.staff.find b.staffId).isSome ∧
        (s.staff.find b.managerId).isSome ∧ ∀ id, b.teamMemberId = some id → (s.teamMember.find id).isSome) :
      Change s .addReporting { s with teamReporting := u }
  | dropReporting {u} (rows : s.teamReporting.Shrinks u) : Change s .dropReporting { s with teamReporting := u }
  -- organisations and plans
  | addOrganization {organization u} (stored : s.organization.insert organization = some u) :
      Change s .addOrganization { s with organization := u }
  | editOrganization {u} (organizations : s.organization.Evolves OrganizationEdited u) :
      Change s .editOrganization { s with organization := u }
  | limitOrganization {u} (organizations : s.organization.Evolves (fun a b => b.id = a.id) u) :
      Change s .limitOrganization { s with organization := u }
  | setOrganizationHours {u} (owners : ∀ b ∈ u, (∃ a ∈ s.workingHours, HoursSet a b) ∨
        b.staffId = none ∧ ∃ id, b.orgId = some id ∧ (s.organization.find id).isSome) :
      Change s .setOrganizationHours { s with workingHours := u }
  | addSubscription {subscription u} (org : (s.organization.find subscription.orgId).isSome)
      (plan : (s.plan.find subscription.planId).isSome) (stored : s.subscription.insert subscription = some u) :
      Change s .addSubscription { s with subscription := u }
  | setSubscription {u} (orgs : ∀ b ∈ u, (∃ a ∈ s.subscription, a.orgId = b.orgId) ∨ (s.organization.find b.orgId).isSome)
      (plans : ∀ b ∈ u, (∃ a ∈ s.subscription, a.planId = b.planId) ∨ (s.plan.find b.planId).isSome) :
      Change s .setSubscription { s with subscription := u }
  | dropOrganization {id} : Change s .dropOrganization (s.deleteOrganization id)
  | addPlan {plan u} (stored : s.plan.insert plan = some u) : Change s .addPlan { s with plan := u }
  | updatePlan {u} (plans : s.plan.Evolves (fun a b => b.id = a.id) u) : Change s .updatePlan { s with plan := u }
  | setFeature {u} (plans : ∀ b ∈ u, (∃ a ∈ s.planFeature, a.planId = b.planId) ∨ (s.plan.find b.planId).isSome) :
      Change s .setFeature { s with planFeature := u }
  | dropFeatures {u} (rows : s.planFeature.Shrinks u) : Change s .dropFeatures { s with planFeature := u }

/-- Changes one after another, all of the kinds `K`. -/
def Changes (K : Kind → Prop) : Db → Db → Prop := Relation.ReflTransGen fun s t => ∃ k, K k ∧ Change s k t

namespace Changes
variable {K K' : Kind → Prop} {s t u : Db}

theorem refl (s : Db) : Changes K s s := Relation.ReflTransGen.refl

theorem trans (h : Changes K s t) (h' : Changes K t u) : Changes K s u := Relation.ReflTransGen.trans h h'

theorem one {k : Kind} (hk : K k) (h : Change s k t) : Changes K s t := .single ⟨k, hk, h⟩

/-- What every change of these kinds does, if it can be done again and again. -/
theorem preserves {R : Db → Db → Prop} (h : Changes K s t) (refl : ∀ s, R s s) (trans : ∀ {s t u}, R s t → R t u → R s u)
    (step : ∀ s k t, K k → Change s k t → R s t) : R s t := by
  induction h with
  | refl => exact refl s
  | tail _ hstep ih =>
    obtain ⟨k, hk, hchange⟩ := hstep
    exact trans ih (step _ k _ hk hchange)

theorem mono (h : Changes K s t) (himp : ∀ k, K k → K' k) : Changes K' s t :=
  h.preserves refl trans fun _ k _ hk hchange => one (himp k hk) hchange

/-- A program that makes such changes keeps to what each of them keeps to. -/
theorem within {α : Type} {p : Service α} {R : Db → Db → Prop} (h : p.Within (Changes K)) (refl : ∀ s, R s s)
    (trans : ∀ {s t u}, R s t → R t u → R s u) (step : ∀ s k t, K k → Change s k t → R s t) : p.Within R :=
  h.mono fun _ _ h => h.preserves refl trans step

end Changes

end Vms.Server
