import Vms.Service

/-! What the organisation service (`src/organization/organization.service.ts`) tells about an
    organisation: its details, its plan and its setting code, which is stored encrypted
    (`src/utils/encryption.util.ts`). -/

namespace Vms
open Relational HttpException

/-- The decryption of Node (`aes-256-gcm`); the key and the parts of the data are in hexadecimal, and a
    missing part or a wrong key throws. -/
structure Crypto where
  decipher : (key : String) → (iv authTag encrypted : Option String) → Except HttpException String

def decrypt (crypto : Crypto) (data key : String) : Except HttpException String :=
  let parts := (data.toList.splitOn ':').map String.ofList
  crypto.decipher key parts[0]? parts[1]? parts[2]?

namespace OrganizationService

/-- The configuration of the server. -/
structure Env where
  encryptionKey : Option String
  crypto : Crypto

/-- The orders in which the rows of an organisation and of a plan are read. -/
structure Io where
  workingHours : RowOrder WorkingHours
  features : RowOrder PlanFeature

/-- An organisation without its encrypted setting code, and what the code decrypts to. -/
structure OrganizationDetails where
  safeOrg : Organization
  workingHours : List WorkingHours
  settingCode : Option String
  deriving DecidableEq

structure PlanDetails where
  plan : Plan
  features : List PlanFeature
  deriving DecidableEq

structure OrgPlanDetails where
  message : String
  safeOrg : Organization
  subscription : Option Subscription
  settingCode : Option String
  planDetails : Option PlanDetails
  deriving DecidableEq

/-- The setting code of an organisation; without a key it cannot be decrypted. -/
def settingCode (env : Env) (keyNotSet : HttpException) (settingCodeEncrypted : Option String) :
    Except HttpException (Option String) :=
  match truthy settingCodeEncrypted with
  | none => .ok none
  | some data =>
    match truthy env.encryptionKey with
    | none => .error keyNotSet
    | some encryptionKey => (decrypt env.crypto data encryptionKey).map some

/-- The setting code is not sent encrypted. -/
def safeOrg (organization : Organization) : Organization := { organization with settingCodeEncrypted := none }

def getOrganizationDetails (env : Env) (io : Io) (orgId role : String) : Service OrganizationDetails := do
  let allowedRoles := ["Root", "SuperAdmin", "Admin", "System", "Staff"]
  Prog.failIf (role ∉ allowedRoles)
    (.unauthorized "Only Root, SuperAdmin, Admin and System can access details of the organization.")
  let organizationExist ← query fun s => (s.organization.find orgId).map fun organization =>
    (organization, io.workingHours.rows (s.workingHours.filter (·.orgId == some organization.id)))
  let (organization, workingHours) ← Prog.orFail (.notFound "Organization doesn't exist.") organizationExist
  let settingCode ← Prog.ofExcept (settingCode env (.error "ENCRYPTION_KEY is not set in environment variables")
    organization.settingCodeEncrypted)
  return { safeOrg := safeOrg organization, workingHours, settingCode }

/-- The plan of a subscription, or the reply that there is none. -/
def describePlan (io : Io) (organization : Organization) (subscription : Option Subscription) (settingCode : Option String) :
    Service OrgPlanDetails :=
  match truthy (subscription.map (·.planId)) with
  | none => return { message := "Organization has no active plan", safeOrg := safeOrg organization, subscription, settingCode,
                     planDetails := none }
  | some planId => do
    let planDetails ← query fun s => (s.plan.find planId).map fun plan =>
      { plan, features := io.features.rows (s.planFeature.filter (·.planId == plan.id)) : PlanDetails }
    let planDetails ← Prog.orFail (.notFound "Plan not found.") planDetails
    return { message := "Organization details fetched successfully.", safeOrg := safeOrg organization, subscription,
             settingCode, planDetails := some planDetails }

def getOrgPlanDetails (env : Env) (io : Io) (orgId role : String) : Service OrgPlanDetails := do
  let allowedRoles := ["Root", "SuperAdmin"]
  Prog.failIf (role ∉ allowedRoles)
    (.unauthorized "Only Root, SuperAdmin can access plan details of the organization.")
  let organizationExist ← query fun s => (s.organization.find orgId).map fun organization =>
    (organization, s.subscription.findBy (·.orgId == organization.id))
  let (organization, subscription) ← Prog.orFail (.notFound "Organization doesn't exist.") organizationExist
  let settingCode ← Prog.ofExcept (settingCode env (.error "ENCRYPTION_KEY is not set in environment variables")
    organization.settingCodeEncrypted)
  describePlan io organization subscription settingCode

def getSettingsCode (env : Env) (orgId role userId : String) : Service (Option String) := do
  let allowedRoles := ["SuperAdmin"]
  Prog.failIf (role ∉ allowedRoles) (.unauthorized "Invalid role.")
  let userExists ← Prog.orFail (.notFound "Users doesn't exists.") (← query (·.userCredential.find userId))
  Prog.failIf (userExists.orgId ≠ some orgId) (.unauthorized "Invalid update attempt.")
  let organizationExist ← query (·.organization.find orgId)
  Prog.ofExcept (settingCode env (.internalServerError "ENCRYPTION_KEY is not set in environment variables")
    (organizationExist.bind (·.settingCodeEncrypted)))

end OrganizationService
end Vms
