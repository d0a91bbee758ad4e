import Vms.Service

/-! What an organisation configures: its departments (`src/department/department.service.ts`), its
    reasons of visit (`src/reason/reason.service.ts`) and its system accounts
    (`src/system/system.service.ts`). Departments and reasons are handled alike; a `Listing` holds
    what differs. -/

namespace Vms
open Relational HttpException

/-! ### Listings -/

/-- A table of named rows, each of an organisation, and what a deletion does to the rows that point to the
    deleted one. -/
structure Listing (α : Type) [Row α] where
  table : Db → Table α
  store : Table α → Db → Db
  row : (id orgId name : String) → α
  orgId : α → String
  name : α → String
  unlink : String → Db → Db

/-- What a request draws from outside: the identifiers of the rows it creates, and the order of rows. -/
structure Listing.Io (α : Type) where
  id : Nat → String
  order : RowOrder α

/-- The result for one entry of a bulk request. -/
structure Listing.Result (α : Type) where
  success : Bool
  message : String
  details : Option α := none
  deriving DecidableEq, Repr

structure Listing.BulkReply (α : Type) where
  imported : Nat
  details : List (Listing.Result α)
  deriving DecidableEq, Repr

/-- A root caller may name the organisation; everybody else acts for their own. -/
def targetOrgId (orgId : Option String) (role : String) (qOrgId : Option String) : Option String :=
  if role = "Root" ∧ (truthy qOrgId).isSome then qOrgId else orgId

/-- Except for a root caller, the user belongs to the organisation. -/
def checkUser (userId role orgId : String) : Service Unit :=
  if role ≠ "Root" then do
    let userExists ← Prog.orFail (.badRequest "Invalid credentials.") (← query (·.userCredential.find userId))
    Prog.failIf (userExists.orgId ≠ some orgId) (.unauthorized "User belongs to different organization.")
  else return ()

/-- The organisation that a caller with one of the allowed roles acts for. -/
def authorize (orgId : Option String) (userId role : String) (qOrgId : Option String) (allowedRoles : List String)
    (message : String) : Service String := do
  let orgId ← Prog.orFail (.badRequest "Organization ID is required.") (truthy (targetOrgId orgId role qOrgId))
  Prog.failIf (role ∉ allowedRoles) (.unauthorized message)
  checkUser userId role orgId
  return orgId

namespace Listing
variable {α : Type} [Row α]

def normalized (js : Js) (name : String) : String := js.trim (js.toLowerCase name)

/-- Whether the organisation already has a row of this name. -/
def exists? (L : Listing α) (js : Js) (io : Io α) (orgId name : String) : Service Bool := do
  let found ← query fun s => io.order.first ((L.table s).filter fun a => L.orgId a == orgId && L.name a == name)
  return found.any fun a => normalized js (L.name a) == normalized js name

def create (L : Listing α) (a : α) : Service α :=
  mutate fun s => created (s.organization.find (L.orgId a)).isSome a ((L.table s).insert a) fun u => L.store u s

def add (L : Listing α) (js : Js) (io : Io α) (orgId : Option String) (userId role name : String) (qOrgId : Option String)
    (taken : String) : Service α := do
  let orgId ← authorize orgId userId role qOrgId ["Root", "SuperAdmin", "Admin"]
    "Only root, superadmin and admin can add departments."
  Prog.failIf (← L.exists? js io orgId name) (.badRequest taken)
  L.create (L.row (io.id 0) orgId name)

/-- One entry of a bulk request. -/
def addOne (L : Listing α) (js : Js) (io : Io α) (orgId name : String) (i : Nat) : Service (Result α) := do
  if ← L.exists? js io orgId name then return { success := false, message := s!"{name} already exists." }
  else do
    let details ← L.create (L.row (io.id i) orgId name)
    return { success := true, message := s!"{name} has been added successfully.", details := some details }

/-- The loop of a bulk request; the entry `i` creates its row under the identifier `io.id i`. -/
def addEach (L : Listing α) (js : Js) (io : Io α) (orgId : String) : List String → Nat → List (Result α) →
    Service (List (Result α))
  | [], _, results => return results
  | name :: names, i, results => do
    let result ← L.addOne js io orgId name i
    L.addEach js io orgId names (i + 1) (results ++ [result])

def addBulk (L : Listing α) (js : Js) (io : Io α) (orgId : Option String) (role : String) (names : List String)
    (qOrgId : Option String) : Service (BulkReply α) := do
  let orgId ← Prog.orFail (.badRequest "Organization ID is required.") (truthy (targetOrgId orgId role qOrgId))
  Prog.failIf (role ∉ ["Root", "SuperAdmin", "Admin"]) (.unauthorized "Only root, superadmin and admin can add employee")
  let _ ← Prog.orFail (.notFound "Organization doesn't exist.") (← query (·.organization.find orgId))
  let results ← L.addEach js io orgId names 0 []
  return { imported := (results.filter (·.success)).length, details := results }

def delete (L : Listing α) (id : String) : Service Unit :=
  mutate fun s =>
    if ((L.table s).find id).isNone then .error rowNotFound
    else .ok ((), L.unlink id (L.store ((L.table s).delete (Row.id · == id)) s))

def remove (L : Listing α) (orgId : Option String) (userId role id : String) (qOrgId : Option String)
    (allowedRoles : List String) (message missing : String) : Service Unit := do
  let _ ← authorize orgId userId role qOrgId allowedRoles message
  let _ ← Prog.orFail (.notFound missing) (← query fun s => (L.table s).find id)
  L.delete id

end Listing

/-! ### Departments -/

namespace DepartmentService

structure CreateDepartmentDto where
  name : String

/-- The staff members of a deleted department have none. -/
def departments : Listing Department where
  table := Db.department
  store u s := { s with department := u }
  row id orgId name := { id, orgId, name }
  orgId := Department.orgId
  name := Department.name
  unlink id s := { s with staff := s.staff.update (·.departmentId == some id) fun staff => { staff with departmentId := none } }

def createDepartment (js : Js) (io : Listing.Io Department) (orgId : Option String) (userId role : String)
    (createDepartmentDto : CreateDepartmentDto) (qOrgId : Option String) : Service Department :=
  departments.add js io orgId userId role createDepartmentDto.name qOrgId "Department already exists."

def addDepartmentBulk (js : Js) (io : Listing.Io Department) (orgId : Option String) (role : String)
    (departmentList : List CreateDepartmentDto) (qOrgId : Option String) : Service (Listing.BulkReply Department) :=
  departments.addBulk js io orgId role (departmentList.map (·.name)) qOrgId

def deleteDepartment (orgId : Option String) (userId role departmentId : String) (qOrgId : Option String) : Service Unit :=
  departments.remove orgId userId role departmentId qOrgId ["Root", "SuperAdmin"]
    "Only root and superadmin can delete department." "Department doesn't exists."

end DepartmentService

/-! ### Reasons of visit -/

namespace ReasonService

structure AddReasonDto where
  name : String

/-- The visits of a deleted reason have none. -/
def reasons : Listing ReasonOfVisit where
  table := Db.reasonOfVisit
  store u s := { s with reasonOfVisit := u }
  row id orgId name := { id, orgId, name }
  orgId := ReasonOfVisit.orgId
  name := ReasonOfVisit.name
  unlink id s := { s with visit := s.visit.update (·.reasonId == some id) fun visit => { visit with reasonId := none } }

def addReason (js : Js) (io : Listing.Io ReasonOfVisit) (orgId : Option String) (userId role : String)
    (addReasonDto : AddReasonDto) (qOrgId : Option String) : Service ReasonOfVisit :=
  reasons.add js io orgId userId role addReasonDto.name qOrgId "Reason already exists."

def addReasonBulk (js : Js) (io : Listing.Io ReasonOfVisit) (orgId : Option String) (role : String)
    (reasonList : List AddReasonDto) (qOrgId : Option String) : Service (Listing.BulkReply ReasonOfVisit) :=
  reasons.addBulk js io orgId role (reasonList.map (·.name)) qOrgId

def deleteReason (orgId : Option String) (userId role reasonId : String) (qOrgId : Option String) : Service Unit :=
  reasons.remove orgId userId role reasonId qOrgId ["Root", "SuperAdmin", "Admin"]
    "Only root and superadmin can delete reasons of visit." "Reason of visit doesn't exists."

end ReasonService

/-! ### System accounts -/

namespace SystemService

structure RegisterSystemUserDto where
  email : String
  password : String
  secretCode : String

structure EditSystemUserDto where
  secretCode : String

/-- What `registerSystemUser` draws from outside: the identifier of the account, and the salted hash. -/
structure Io where
  systemId : String
  hash : String → String

structure SystemAccountDetails where
  orgId : String
  email : String
  deriving DecidableEq, Repr

def createSystem (system : SystemCredential) : Service SystemCredential :=
  mutate fun s => created (s.organization.find system.orgId).isSome system (s.systemCredential.insert system) fun u =>
    { s with systemCredential := u }

def updateSystem (id : String) (change : SystemCredential → SystemCredential)
    (keys : Row.Fixes change := by exact ⟨fun _ => rfl, fun _ _ => rfl⟩) : Service Unit :=
  mutate fun s =>
    if (s.systemCredential.find id).isNone then .error rowNotFound
    else .ok ((), { s with systemCredential := s.systemCredential.update (·.id == id) change keys })

/-- The tokens of an account go with it. -/
def deleteSystem (id : String) : Service Unit :=
  mutate fun s =>
    if (s.systemCredential.find id).isNone then .error rowNotFound
    else .ok ((), { s with
      systemCredential := s.systemCredential.delete (·.id == id)
      refreshToken := s.refreshToken.delete (·.systemId == some id)
      resetTokenSystem := s.resetTokenSystem.delete (·.systemId == id) })

def loggedOut (system : SystemCredential) : SystemCredential :=
  { system with activityStatus := .loggedOut, sessionId := none }

theorem loggedOut_keys : Row.Fixes loggedOut := ⟨fun _ => rfl, fun _ _ => rfl⟩

def registerSystemUser (js : Js) (io : Io) (orgId userId role : String) (registerSystemUserDto : RegisterSystemUserDto) :
    Service SystemAccountDetails := do
  let normalizedEmail := js.trim (js.toLowerCase registerSystemUserDto.email)
  Prog.failIf (role ∉ ["SuperAdmin"]) (.badRequest "Only superadmin can add system accounts.")
  let organizationExists ← Prog.orFail (.badRequest "Organization doesn't exists.") (← query (·.organization.find orgId))
  let userExists ← Prog.orFail (.badRequest "User doesn't exists.") (← query (·.userCredential.find userId))
  Prog.failIf (userExists.orgId ≠ some orgId) (.unauthorized "Unauthenticated addition attempt.")
  let systemAccountCount ← query fun s => (s.systemCredential.filter (·.orgId == orgId)).length
  Prog.failIf ((systemAccountCount : Int) ≥ organizationExists.accountLimit)
    (.badRequest "Maximum number of system account limit have been exceeded.")
  let systemAccountExists ← query fun s => s.systemCredential.findBy (·.email == normalizedEmail)
  Prog.failIf systemAccountExists.isSome (.badRequest "System account already exists.")
  let systemUser ← createSystem {
    id := io.systemId, orgId, email := normalizedEmail
    password := io.hash registerSystemUserDto.password, secretCode := some registerSystemUserDto.secretCode }
  return { orgId := systemUser.orgId, email := systemUser.email }

def editSystemAccount (orgId role systemId : String) (editSystemUserDto : EditSystemUserDto) : Service String := do
  Prog.failIf (role ∉ ["SuperAdmin"]) (.unauthorized "Only superadmin can update system account details!")
  let systemExists ← Prog.orFail (.notFound "Invalid systemId") (← query (·.systemCredential.find systemId))
  Prog.failIf (systemExists.orgId ≠ orgId) (.unauthorized "Unauthorized update attempt")
  updateSystem systemExists.id fun system => { system with secretCode := some editSystemUserDto.secretCode }
  return "System details updated successfully!"

def deleteSystemAccount (systemId orgId userId role : String) : Service String := do
  Prog.failIf (role ∉ ["SuperAdmin"]) (.badRequest "Only superadmin can delete system accounts.")
  let _ ← Prog.orFail (.badRequest "Organization doesn't exists.") (← query (·.organization.find orgId))
  let _ ← Prog.orFail (.badRequest "User doesn't exists.") (← query (·.userCredential.find userId))
  let _ ← Prog.orFail (.notFound "System account does not exists.") (← query (·.systemCredential.find systemId))
  deleteSystem systemId
  return "System account deleted successfully."

def logoutSystemAccountWeb (systemId orgId userId role : String) : Service String := do
  Prog.failIf (role ∉ ["SuperAdmin"]) (.badRequest "Only superadmin can logout system account.")
  let _ ← Prog.orFail (.badRequest "Organization doesn't exists.") (← query (·.organization.find orgId))
  let userExists ← Prog.orFail (.badRequest "User doesn't exists.") (← query (·.userCredential.find userId))
  Prog.failIf (userExists.orgId ≠ some orgId) (.badRequest "Invalid credentials.")
  let systemAccountExists ← Prog.orFail (.notFound "System account does not exists.")
    (← query (·.systemCredential.find systemId))
  Prog.failIf (systemAccountExists.activityStatus = .loggedOut) (.badRequest "Account is already logged out.")
  updateSystem systemId loggedOut loggedOut_keys
  return "System account logged out successfully."

def deleteRefreshTokens (systemIds : List String) : Service Unit :=
  mutate fun s => .ok ((), { s with
    refreshToken := s.refreshToken.delete fun token => token.systemId.any fun id => systemIds.contains id })

def logOutSystems (orgId : String) : Service Unit :=
  mutate fun s => .ok ((), { s with
    systemCredential := s.systemCredential.update (fun system => system.orgId == orgId && system.activityStatus == .loggedIn)
      loggedOut loggedOut_keys })

def logoutAllSystemAccounts (orgId role userId : String) : Service String := do
  Prog.failIf (role ∉ ["SuperAdmin"]) (.unauthorized "Unauthorized update attempt.")
  let _ ← Prog.orFail (.notFound "Invalid organization.") (← query (·.organization.find orgId))
  let userExists ← Prog.orFail (.notFound "Invalid user credentials.") (← query (·.userCredential.find userId))
  Prog.failIf (userExists.orgId ≠ some orgId) (.unauthorized "Unauthorized update attempt.")
  let activeSystemAccounts ← query fun s => s.systemCredential.filter fun system =>
    system.orgId == orgId && system.activityStatus == .loggedIn
  Prog.failIf (activeSystemAccounts.length = 0) (.notFound "All accounts are logged out")
  deleteRefreshTokens (activeSystemAccounts.map (·.id))
  logOutSystems orgId
  return "All logged in accounts have been logged out."

end SystemService
end Vms
