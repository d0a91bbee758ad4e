import Vms.Service

/-! Access tokens, refresh tokens, and the guard of the endpoints (`src/guard/auth.guard.ts`), which finds out
    from an access token who sends a request. -/

namespace Vms
open Relational HttpException

/-- What an access token says; a system account names its session. -/
structure JwtPayload where
  orgId : Option String := none
  userId : Option String := none
  role : Option String := none
  systemId : Option String := none
  sessionId : Option String := none
  deriving DecidableEq, Repr

namespace HttpException

/-- `TokenExpiredError`. -/
def tokenExpired : HttpException := .error "jwt expired"

end HttpException

/-- The `JwtService`: a token is signed at an instant, to expire after a while, and verified at an instant. -/
structure Jwt where
  sign : String → Date → JwtPayload → String
  verify : Date → String → Except HttpException JwtPayload
  /-- A token is read back until it expires. -/
  verify_sign : ∀ expiresIn issued payload now, verify now (sign expiresIn issued payload) = .ok payload ∨
    verify now (sign expiresIn issued payload) = .error tokenExpired
  /-- A token is not empty, and has no blank. -/
  sign_ne : ∀ expiresIn issued payload, sign expiresIn issued payload ≠ ""
  sign_blank : ∀ expiresIn issued payload, ' ' ∉ (sign expiresIn issued payload).toList

/-! ### Refresh tokens -/

/-- A refresh token lives for thirty days. -/
def refreshTokenExpiry (now : Date) : Date := now + 30 * 24 * 60 * 60 * 1000

def createRefreshToken (token : RefreshToken) : Service RefreshToken :=
  mutate fun s => created ((token.userId.all fun id => (s.userCredential.find id).isSome) &&
      token.systemId.all fun id => (s.systemCredential.find id).isSome) token
    (s.refreshToken.insert token) fun u => { s with refreshToken := u }

/-- A refresh token is replaced by a new one. -/
def rotateRefreshToken (id token : String) (expiryDate : Date) : Service Unit :=
  mutate fun s =>
    if (s.refreshToken.find id).isNone then .error rowNotFound
    else match s.refreshToken.modify (·.id == id) fun row => { row with token, expiryDate } with
      | none => .error uniqueViolation
      | some u => .ok ((), { s with refreshToken := u })

/-! ### The guard -/

/-- Who sends a request, as the guard writes it into the request. -/
structure Caller where
  orgId : Option String
  userId : Option String
  role : Option String
  systemId : Option String
  sessionId : Option String
  deriving DecidableEq, Repr

/-- The second word of the header. -/
def extractTokenFromHeader (authorization : Option String) : Option String :=
  authorization.bind fun header => ((header.toList.splitOn ' ')[1]?).map String.ofList

/-- The session of a system account is the one that the account is in. -/
def checkSession (decode : JwtPayload) : Option String → Service Unit
  | none => return ()
  | some systemId => do
    let systemUser ← Prog.orFail (.unauthorized "System user not found") (← query (·.systemCredential.find systemId))
    Prog.failIf (systemUser.activityStatus ≠ .loggedIn) (.unauthorized "User is logged out.")
    Prog.failIf (truthy systemUser.sessionId = none ∨ truthy decode.sessionId = none ∨ systemUser.sessionId ≠ decode.sessionId)
      (.unauthorized "Session is no longer valid. Please log in again.")

def authenticate (jwt : Jwt) (now : Date) (token : String) : Service Caller := do
  let decode ← Prog.ofExcept (jwt.verify now token)
  checkSession decode (truthy decode.systemId)
  Prog.failIf (truthy decode.systemId = none ∧ truthy decode.userId = none) (.unauthorized "Invalid token payload!")
  return {
    orgId := decode.orgId
    userId := truthy decode.userId
    role := decode.role
    systemId := truthy decode.systemId
    sessionId := if (truthy decode.systemId).isSome then decode.sessionId else none }

/-- The guard hides why it refuses a token, unless the token has expired. -/
def canActivate (jwt : Jwt) (now : Date) (authorization : Option String) : Service Caller := do
  let token ← Prog.orFail (.unauthorized "Invalid token!") (truthy (extractTokenFromHeader authorization))
  Prog.orElse (authenticate jwt now token) fun error =>
    .fail (if error = tokenExpired then .unauthorized "Token expired!" else .unauthorized "Invalid token!")

end Vms
