import Vms.Configuration
import Vms.Organization

/-! The setting code of an organisation that is typed in at one of its system accounts (`src/system/system.service.ts`). -/

namespace Vms
open Relational HttpException

namespace SystemService

/-- A request may leave its code out, or send null. -/
def verifySettingsCode (env : OrganizationService.Env) (orgId role systemId : String) (secretCode : Option (Option String)) :
    Service Unit := do
  Prog.failIf (role ≠ "System") (.unauthorized "Unauthorized")
  let system ← Prog.orFail (.notFound "Invalid system ID") (← query (·.systemCredential.find systemId))
  let organizationExist ← Prog.orFail (.badRequest "Invalid organization.") (← query (·.organization.find orgId))
  Prog.failIf (system.orgId ≠ orgId) (.badRequest "Unauthorized")
  let settingsCode ← Prog.ofExcept (OrganizationService.settingCode env
    (.internalServerError "ENCRYPTION_KEY is not set in environment variables") organizationExist.settingCodeEncrypted)
  Prog.failIf (secretCode ≠ some settingsCode) (.badRequest "Secret code mismatch.")

end SystemService
end Vms
