import Vms.Guard

/-! The auth service (`src/auth/auth.service.ts`): the root user registers, and users log in, get new access
    tokens for refresh tokens, change their passwords, and log out. -/

namespace Vms
open Relational HttpException

/-- The role as it is written in a token. -/
def AuthRoleEnum.name : AuthRoleEnum → String
  | .root => "Root"
  | .superAdmin => "SuperAdmin"
  | .admin => "Admin"
  | .staff => "Staff"

structure RegisterRootDto where
  email : String
  password : String

structure ResetPasswordDto where
  email : String
  resetToken : String
  newPassword : String

namespace AuthService

/-- What a request draws from outside: the time, the refresh token and the identifier of its row, and salted
    hashes. -/
structure Io where
  now : Date
  refreshTokenId : String
  refreshToken : String
  hash : String → String

/-- The reply to a login; at the first one the user has to provide a new password. -/
inductive LoginReply where
  | firstTimeLogin
  | loggedIn (accessToken refreshToken : String) (role : AuthRoleEnum)
  deriving DecidableEq, Repr

structure RefreshReply where
  accessToken : String
  newRefreshToken : String
  newRole : AuthRoleEnum
  deriving DecidableEq, Repr

/-! ### Statements -/

def updateUser (id : String) (change : UserCredential → UserCredential)
    (keys : Row.Fixes change := by exact ⟨fun _ => rfl, fun _ _ => rfl⟩) : Service Unit :=
  mutate fun s =>
    if (s.userCredential.find id).isNone then .error rowNotFound
    else .ok ((), { s with userCredential := s.userCredential.update (·.id == id) change keys })

def createUser (user : UserCredential) : Service UserCredential :=
  mutate fun s => created (user.orgId.all fun id => (s.organization.find id).isSome) user (s.userCredential.insert user) fun u =>
    { s with userCredential := u }

def upsertResetToken (id userId token : String) : Service Unit :=
  mutate fun s =>
    match s.resetToken.findBy (·.userId == userId) with
    | some _ =>
      match s.resetToken.modify (·.userId == userId) fun row => { row with token } with
      | none => .error uniqueViolation
      | some u => .ok ((), { s with resetToken := u })
    | none => (created (s.userCredential.find userId).isSome { id, token, userId : ResetToken }
        (s.resetToken.insert { id, token, userId }) fun u => { s with resetToken := u }).map fun (_, t) => ((), t)

def deleteResetToken (id : String) : Service Unit :=
  mutate fun s =>
    if (s.resetToken.find id).isNone then .error rowNotFound
    else .ok ((), { s with resetToken := s.resetToken.delete (·.id == id) })

def deleteRefreshTokens (userId : String) : Service Unit :=
  mutate fun s => .ok ((), { s with refreshToken := s.refreshToken.delete (·.userId == some userId) })

/-! ### The root user -/

structure RootDetails where
  email : String
  role : AuthRoleEnum
  deriving DecidableEq, Repr

def registerRootUser (js : Js) (hash : String → String) (userId : String) (registerRootDto : RegisterRootDto) :
    Service RootDetails := do
  let normalizedEmail := js.trim (js.toLowerCase registerRootDto.email)
  let rootAlreadyExists ← query fun s => s.userCredential.findBy (·.role == .root)
  Prog.failIf rootAlreadyExists.isSome (.badRequest "Root user already exists.")
  let emailInUse ← query fun s => s.userCredential.findBy (·.email == normalizedEmail)
  Prog.failIf emailInUse.isSome (.badRequest "Email currently in use.")
  let onlyRootUser ← createUser {
    id := userId, email := normalizedEmail, password := hash registerRootDto.password, role := .root
    firstTimeLogin := some false }
  return { email := onlyRootUser.email, role := onlyRootUser.role }

/-! ### Logging in -/

def changePassword (io : Io) (userId newPassword : String) : Service Unit :=
  updateUser userId fun user => { user with password := io.hash newPassword }

/-- A disabled account is refused. -/
def checkEnabled (user : UserCredential) : Service Unit :=
  Prog.failIf (user.accountStatus = .disabled) (.unauthorized "You don't have permission to access dashboard")

/-- The first login changes the password; it ends early where none is provided. -/
def firstLogin (compare : String → String → Bool) (io : Io) (user : UserCredential) (password : String)
    (newPassword : Option String) : Service (Option UserCredential) := do
  Prog.failIf (¬compare password user.password) (.badRequest "Invalid credentials.")
  match truthy newPassword with
  | none => return none
  | some newPassword => do
    changePassword io user.id newPassword
    updateUser user.id fun user => { user with firstTimeLogin := some false }
    let user ← Prog.orFail (.notFound "User doesn't exist") (← query (·.userCredential.find user.id))
    checkEnabled user
    Prog.failIf (¬compare newPassword user.password) (.badRequest "Password update failed.")
    return some user

def laterLogin (compare : String → String → Bool) (user : UserCredential) (password : String) :
    Service (Option UserCredential) := do
  checkEnabled user
  Prog.failIf (¬compare password user.password) (.badRequest "Invalid credentials.")
  return some user

def identify (compare : String → String → Bool) (io : Io) (user : UserCredential) (password : String)
    (newPassword : Option String) : Service (Option UserCredential) :=
  if user.firstTimeLogin = some true then firstLogin compare io user password newPassword
  else laterLogin compare user password

def issueTokens (jwt : Jwt) (io : Io) : Option UserCredential → Service LoginReply
  | none => return .firstTimeLogin
  | some user => do
    let accessToken := jwt.sign "15m" io.now { userId := some user.id, orgId := user.orgId, role := some user.role.name }
    let refreshToken ← createRefreshToken
      { id := io.refreshTokenId, userId := some user.id, token := io.refreshToken, expiryDate := refreshTokenExpiry io.now }
    return .loggedIn accessToken refreshToken.token user.role

def loginUser (jwt : Jwt) (compare : String → String → Bool) (io : Io) (email password : String)
    (newPassword : Option String) : Service LoginReply := do
  let user ← Prog.orFail (.notFound "User doesn't exist.") (← query fun s => s.userCredential.findBy (·.email == email))
  let user ← identify compare io user password newPassword
  issueTokens jwt io user

def refreshAccessToken (jwt : Jwt) (io : Io) (refreshToken : String) : Service RefreshReply := do
  let tokenExistsDB ← Prog.orFail (.badRequest "Invalid refresh token.")
    (← query fun s => s.refreshToken.findBy (·.token == refreshToken))
  Prog.failIf (tokenExistsDB.expiryDate < io.now) (.badRequest "Refresh token expired.")
  let userId ← Prog.orFail (.badRequest "User ID must exist.") (truthy tokenExistsDB.userId)
  let userExists ← Prog.orFail (.badRequest "User not found.") (← query (·.userCredential.find userId))
  let accessToken := jwt.sign "15m" io.now
    { orgId := userExists.orgId, userId := some userExists.id, role := some userExists.role.name }
  rotateRefreshToken tokenExistsDB.id io.refreshToken (refreshTokenExpiry io.now)
  return { accessToken, newRefreshToken := io.refreshToken, newRole := userExists.role }

/-! ### Passwords -/

/-- The password that is sent is stored hashed, in place of an earlier one. -/
def forgotPassword (js : Js) (hash : String → String) (resetTokenId otp email : String) : Service String := do
  Prog.failIf (email = "") (.badRequest "Provide a valid email address.")
  let normalizedEmail := js.trim (js.toLowerCase email)
  let user ← query fun s => s.userCredential.findBy (·.email == normalizedEmail)
  let user ← Prog.orFail (.notFound "No active user found with this email.") (user.filter (·.accountStatus == .active))
  upsertResetToken resetTokenId user.id (hash otp)
  outside (.error "Failed to send email")
  return "Password reset OTP sent successfully. Please check your email."

def resetPassword (js : Js) (compare : String → String → Bool) (io : Io) (resetPasswordDto : ResetPasswordDto) :
    Service String := do
  let normalizedEmail := js.trim (js.toLowerCase resetPasswordDto.email)
  let user ← query fun s => s.userCredential.findBy (·.email == normalizedEmail)
  let user ← Prog.orFail (.notFound "No active user found with this email.") (user.filter (·.accountStatus == .active))
  let tokenExists ← Prog.orFail (.badRequest "Token doesnt exists.") (← query fun s => s.resetToken.findBy (·.userId == user.id))
  Prog.failIf (¬compare resetPasswordDto.resetToken tokenExists.token) (.badRequest "Invalid OTP!")
  updateUser user.id fun user => { user with password := io.hash resetPasswordDto.newPassword }
  deleteResetToken tokenExists.id
  return "Password reset successfully"

def changeOldPassword (compare : String → String → Bool) (io : Io) (userId oldPassword newPassword : String) :
    Service String := do
  let userExists ← Prog.orFail (.notFound "Invalid user credentials.") (← query (·.userCredential.find userId))
  Prog.failIf (¬compare oldPassword userExists.password) (.unauthorized "Invalid credentials!")
  updateUser userId fun user => { user with password := io.hash newPassword }
  return "Password updated successfully."

def logout (userId role : String) : Service String := do
  Prog.failIf (role ∉ ["Root", "SuperAdmin", "Admin"]) (.unauthorized "Invalid role.")
  let _ ← Prog.orFail (.notFound "User doesn't exists.") (← query (·.userCredential.find userId))
  deleteRefreshTokens userId
  return "Logout successfull."

end AuthService
end Vms
