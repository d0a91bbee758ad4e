import Vms.Auth
import Vms.Configuration

/-! The sessions of system accounts (`src/system/system.service.ts`): an account is logged in on one device at
    a time, in a session that its access token names. -/

namespace Vms
open Relational HttpException

namespace SystemService

/-- What a request draws from outside: the time, the session, and the refresh token with the identifier of
    its row. -/
structure SessionIo where
  now : Date
  sessionId : String
  refreshTokenId : String
  refreshToken : String

structure TokenReply where
  accessToken : String
  refreshToken : String
  deriving DecidableEq, Repr

def upsertResetToken (id systemId token : String) : Service Unit :=
  mutate fun s =>
    match s.resetTokenSystem.findBy (·.systemId == systemId) with
    | some _ =>
      match s.resetTokenSystem.modify (·.systemId == systemId) fun row => { row with token } with
      | none => .error uniqueViolation
      | some u => .ok ((), { s with resetTokenSystem := u })
    | none => (created (s.systemCredential.find systemId).isSome { id, token, systemId : ResetTokenSystem }
        (s.resetTokenSystem.insert { id, token, systemId }) fun u => { s with resetTokenSystem := u }).map fun (_, t) => ((), t)

def deleteResetToken (id : String) : Service Unit :=
  mutate fun s =>
    if (s.resetTokenSystem.find id).isNone then .error rowNotFound
    else .ok ((), { s with resetTokenSystem := s.resetTokenSystem.delete (·.id == id) })

def loginSystemUser (jwt : Jwt) (js : Js) (compare : String → String → Bool) (io : SessionIo) (email password : String) :
    Service TokenReply := do
  let normalizedEmail := js.trim (js.toLowerCase email)
  let systemAccountExists ← Prog.orFail (.notFound "System user doesn't exists.")
    (← query fun s => s.systemCredential.findBy (·.email == normalizedEmail))
  Prog.failIf (¬compare password systemAccountExists.password) (.unauthorized "Invalid credentials.")
  Prog.failIf (systemAccountExists.activityStatus = .loggedIn)
    (.unauthorized "User already logged in on another device. Please log out first.")
  let accessToken := jwt.sign "7d" io.now {
    systemId := some systemAccountExists.id, orgId := some systemAccountExists.orgId
    role := some systemAccountExists.role, sessionId := some io.sessionId }
  let _ ← createRefreshToken {
    id := io.refreshTokenId, token := io.refreshToken, expiryDate := refreshTokenExpiry io.now
    systemId := some systemAccountExists.id }
  updateSystem systemAccountExists.id fun system =>
    { system with activityStatus := .loggedIn, sessionId := some io.sessionId }
  return { accessToken, refreshToken := io.refreshToken }

/-- The new access token names no session. -/
def refreshSystemAccessToken (jwt : Jwt) (io : SessionIo) (token : String) : Service TokenReply := do
  let tokenExists ← Prog.orFail (.notFound "Refresh token doesn't exists.")
    (← query fun s => (s.refreshToken.findBy (·.token == token)).filter fun row => decide (row.expiryDate ≥ io.now))
  let systemCredentials ← query fun s => tokenExists.systemId.bind s.systemCredential.find
  let accessToken := jwt.sign "15m" io.now {
    systemId := systemCredentials.map (·.id), orgId := systemCredentials.map (·.orgId)
    role := systemCredentials.map (·.role) }
  rotateRefreshToken tokenExists.id io.refreshToken (refreshTokenExpiry io.now)
  return { accessToken, refreshToken := io.refreshToken }

def logoutSystemAccount (orgId systemId role : String) : Service String := do
  Prog.failIf (role ∉ ["System"]) (.unauthorized "Access denied based on role.")
  let _ ← Prog.orFail (.badRequest "Invalid organization.") (← query (·.organization.find orgId))
  let systemExists ← Prog.orFail (.badRequest "Invalid system credentials.") (← query (·.systemCredential.find systemId))
  Prog.failIf (systemExists.orgId ≠ orgId) (.unauthorized "Unauthorized attempt")
  Prog.failIf (systemExists.activityStatus ≠ .loggedIn) (.badRequest "User not loggedIn.")
  updateSystem systemId loggedOut loggedOut_keys
  deleteRefreshTokens [systemId]
  return "Logout successfull."

/-- The code that is sent is stored hashed, in place of an earlier one. -/
def forgotPassword (js : Js) (hash : String → String) (resetTokenId otp email : String) : Service String := do
  Prog.failIf (email = "") (.badRequest "Provide a valid email address.")
  let normalizedEmail := js.trim (js.toLowerCase email)
  let system ← Prog.orFail (.notFound "No account found with this email.")
    (← query fun s => s.systemCredential.findBy (·.email == normalizedEmail))
  upsertResetToken resetTokenId system.id (hash otp)
  outside (.error "Failed to send email")
  return "Password reset OTP sent successfully. Please check your email."

def resetPassword (js : Js) (compare : String → String → Bool) (hash : String → String) (resetPasswordDto : ResetPasswordDto) :
    Service String := do
  let normalizedEmail := js.trim (js.toLowerCase resetPasswordDto.email)
  let system ← Prog.orFail (.notFound "No system account found with this email.")
    (← query fun s => s.systemCredential.findBy (·.email == normalizedEmail))
  let tokenExists ← Prog.orFail (.badRequest "Token doesnt exists.")
    (← query fun s => s.resetTokenSystem.findBy (·.systemId == system.id))
  Prog.failIf (¬compare resetPasswordDto.resetToken tokenExists.token) (.badRequest "Invalid OTP!")
  updateSystem system.id fun system => { system with password := hash resetPasswordDto.newPassword }
  deleteResetToken tokenExists.id
  return "Password reset successfully"

end SystemService
end Vms
