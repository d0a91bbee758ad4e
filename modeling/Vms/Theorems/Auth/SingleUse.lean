import Vms.Theorems.Auth.Disabled
import Vms.Theorems.Auth.Rotation
import Vms.Theorems.Auth.Step
import Vms.Theorems.System.Step

/-! The refresh tokens of users and of system accounts: which requests present them, store them and revoke them, and
    whether they are used once. -/

namespace Vms.RefreshTokens
open Relational HttpException

/-! ### Statements that leave the tokens -/

namespace Requests
variable {ι α β : Type} {R : Requests ι α} {i : ι} {s t : Db}

theorem Leaves.refl : R.Leaves i s s := ⟨fun _ h => h, fun _ h => Or.inl h, fun _ h => h, fun h => h⟩

theorem spares_id : R.Spares i id := fun _ => .refl

theorem always_outside {e : HttpException} : (outside e).Always (R.Spares i) := Prog.always_access fun _ => .refl

theorem always_mutate {op : Db → Except HttpException (β × Db)} (h : ∀ s b t, op s = .ok (b, t) → R.Leaves i s t) :
    (mutate op).Always (R.Spares i) := AuthService.always_mutate (fun _ => .refl) h

theorem minting_of_always {p : Service α} (h : p.AlwaysIn R.sound (R.Spares i)) : R.Minting i p := by
  induction p with
  | ret a => trivial
  | fail e => trivial
  | stmt g k f ihk ihf => exact ⟨ihf h.2.2, Or.inl ⟨h.1, fun s hs => ihk s (h.2.1 s hs)⟩⟩

theorem minting_bind {p : Service β} {h : β → Service α} (hp : p.Always (R.Spares i)) (hh : ∀ b, R.Minting i (h b)) :
    R.Minting i (p >>= h) := by
  induction p with
  | ret b => exact hh b
  | fail e => trivial
  | stmt g k f ihk ihf => exact ⟨ihf hp.2.2, Or.inl ⟨hp.1, fun s _ => ihk s (hp.2.1 s)⟩⟩

/-- The statement of a login that stores its token. -/
theorem stores_create {token : RefreshToken} (hdraws : R.draws i = some token.token) :
    (createRefreshToken token).Returns (fun _ t => R.Stores i s t) s := by
  rw [createRefreshToken, returns_mutate]
  refine ⟨fun _ _ => ⟨fun _ h => Or.inl h, fun _ h => h, fun _ h => h, fun h => h⟩, fun row t ht => ?_⟩
  obtain ⟨-, -, u, hu, rfl⟩ := created_eq_ok.mp ht
  refine ⟨fun row hrow => ?_, fun row hrow => (Table.mem_insert hu).mpr (Or.inl hrow), fun row => R.fit_rotated s u row,
    R.sound_rotated s u⟩
  rcases (Table.mem_insert hu).mp hrow with hold | rfl
  · exact Or.inl hold
  · exact Or.inr hdraws

theorem minting_create {token : RefreshToken} {h : RefreshToken → Service α} (hdraws : R.draws i = some token.token)
    (hh : ∀ row, (h row).Always (R.Spares i)) : R.Minting i (createRefreshToken token >>= h) := by
  rw [createRefreshToken, mutate, Prog.access_bind]
  exact ⟨trivial, Or.inr ⟨fun s => stores_create hdraws, fun s => (Prog.always_ofExcept.bind hh).alwaysIn⟩⟩

end Requests

/-! ### Users -/

namespace User
open AuthService

inductive Operation where
  | registerRootUser (hash : String → String) (userId : String) (dto : RegisterRootDto)
  | loginUser (io : Io) (email password : String) (newPassword : Option String)
  | refreshAccessToken (io : Io) (refreshToken : String)
  | forgotPassword (hash : String → String) (resetTokenId otp email : String)
  | resetPassword (io : Io) (dto : ResetPasswordDto)
  | changeOldPassword (io : Io) (userId oldPassword newPassword : String)
  | logout (userId role : String)

/-- The operation, with what a refresh returns. -/
def Operation.call (jwt : Jwt) (js : Js) (compare : String → String → Bool) : Operation → Service (Option RefreshReply)
  | .registerRootUser hash userId dto => do let _ ← AuthService.registerRootUser js hash userId dto; return none
  | .loginUser io email password newPassword => do
    let _ ← AuthService.loginUser jwt compare io email password newPassword
    return none
  | .refreshAccessToken io refreshToken => do return some (← AuthService.refreshAccessToken jwt io refreshToken)
  | .forgotPassword hash resetTokenId otp email => do
    let _ ← AuthService.forgotPassword js hash resetTokenId otp email
    return none
  | .resetPassword io dto => do let _ ← AuthService.resetPassword js compare io dto; return none
  | .changeOldPassword io userId oldPassword newPassword => do
    let _ ← AuthService.changeOldPassword compare io userId oldPassword newPassword
    return none
  | .logout userId role => do let _ ← AuthService.logout userId role; return none

def Operation.token : Operation → Option String
  | .refreshAccessToken _ refreshToken => some refreshToken
  | _ => none

/-- What the operation draws, if it draws a refresh token. -/
def Operation.io : Operation → Option Io
  | .refreshAccessToken io _ => some io
  | .loginUser io _ _ _ => some io
  | _ => none

def Operation.LogsOut (userId : String) : Operation → Prop
  | .logout id _ => id = userId
  | _ => False

/-- The token of the row gives a new access token as long as it lives. -/
def Redeemable (jwt : Jwt) (s : Db) (row : RefreshToken) : Prop :=
  ∀ io : Io, io.now ≤ row.expiryDate → (∀ r ∈ s.refreshToken, r.token ≠ io.refreshToken) →
    ∃ reply, ((AuthService.refreshAccessToken jwt io row.token).run s).1 = .ok reply

/-- The user of the row. -/
def Owned (s : Db) (row : RefreshToken) : Prop := ∃ user ∈ s.userCredential, row.userId = some user.id ∧ user.id ≠ ""

section Users
variable {ι : Type} {jwt : Jwt} {js : Js} {compare : String → String → Bool} {s t : Db} {row : RefreshToken}

theorem redeemable_of_owned (hrow : row ∈ s.refreshToken) (owned : Owned s row) : Redeemable jwt s row := by
  obtain ⟨user, huser, hof, hne⟩ := owned
  intro io hlive fresh
  obtain ⟨u, hu⟩ := exists_rotation (refreshTokenExpiry io.now) hrow fresh
  exact ⟨_, refreshAccessToken_reply jwt io (findBy_token hrow) (not_lt.mpr hlive) hof hne huser (by rw [hu]; rfl)⟩

/-- The operations that run at the same time. -/
def requests (jwt : Jwt) (op : ι → Operation) : Requests ι (Option RefreshReply) where
  token i := (op i).token
  draws i := (op i).io.map (·.refreshToken)
  expiryDate i := ((op i).io.map fun io => refreshTokenExpiry io.now).getD 0
  revokes i row := ∃ userId, row.userId = some userId ∧ (op i).LogsOut userId
  fit := Owned
  redeems := Redeemable jwt
  sound _ := True
  grants reply row := reply.map (·.newRefreshToken) = some row.token
  redeems_of_fit _ _ := redeemable_of_owned
  fit_renewed _ _ _ _ _ h := h
  fit_rotated _ _ _ h := h
  sound_rotated _ _ h := h

variable {op : ι → Operation} {i : ι}

/-- A statement that leaves the refresh tokens alone and deletes no user. -/
theorem leaves_users (tokens : t.refreshToken = s.refreshToken)
    (users : ∀ user ∈ s.userCredential, ∃ user' ∈ t.userCredential, user'.id = user.id) : (requests jwt op).Leaves i s t := by
  refine ⟨fun row hrow => tokens ▸ hrow, fun row hrow => Or.inl (tokens ▸ hrow), ?_, fun h => h⟩
  rintro row ⟨user, huser, hof, hne⟩
  obtain ⟨user', huser', hid⟩ := users user huser
  exact ⟨user', huser', by rw [hid]; exact hof, by rw [hid]; exact hne⟩

theorem always_updateUser {id : String} {change : UserCredential → UserCredential} {keys : Row.Fixes change} :
    (updateUser id change keys).Always ((requests jwt op).Spares i) := by
  refine Requests.always_mutate fun s _ t ht => ?_
  split at ht
  · cases ht
  · cases ht
    exact leaves_users rfl fun user huser => Table.exists_mem_update keys huser

theorem always_createUser {user : UserCredential} : (createUser user).Always ((requests jwt op).Spares i) := by
  refine Requests.always_mutate fun s _ t ht => ?_
  obtain ⟨-, -, u, hu, rfl⟩ := created_eq_ok.mp ht
  exact leaves_users rfl fun user huser => ⟨user, (Table.mem_insert hu).mpr (Or.inl huser), rfl⟩

theorem always_upsertResetToken {id userId token : String} :
    (upsertResetToken id userId token).Always ((requests jwt op).Spares i) := by
  refine Requests.always_mutate fun s _ t ht => ?_
  have others : ∀ user ∈ s.userCredential, ∃ user' ∈ s.userCredential, user'.id = user.id := fun user huser => ⟨user, huser, rfl⟩
  split at ht
  · split at ht <;> cases ht
    exact leaves_users rfl others
  · obtain ⟨-, u, -, hx⟩ := created_map_eq_ok.mp ht
    cases hx
    exact leaves_users rfl others

theorem always_deleteResetToken {id : String} : (deleteResetToken id).Always ((requests jwt op).Spares i) := by
  refine Requests.always_mutate fun s _ t ht => ?_
  split at ht
  · cases ht
  · cases ht
    exact leaves_users rfl fun user huser => ⟨user, huser, rfl⟩

theorem always_deleteRefreshTokens {userId : String} (hout : (op i).LogsOut userId) :
    (deleteRefreshTokens userId).Always ((requests jwt op).Spares i) := by
  refine Requests.always_mutate fun s _ t ht => ?_
  cases ht
  refine ⟨fun row hrow => (Table.mem_delete.mp hrow).1, fun row hrow => ?_, fun _ h => h, fun h => h⟩
  by_cases hof : row.userId = some userId
  · exact Or.inr ⟨userId, hof, hout⟩
  · exact Or.inl (Table.mem_delete.mpr ⟨hrow, by simp [hof]⟩)

theorem always_registerRootUser {hash : String → String} {userId : String} {dto : RegisterRootDto} :
    (AuthService.registerRootUser js hash userId dto).Always ((requests jwt op).Spares i) := by
  refine (always_query Requests.spares_id).bind fun _ => Prog.always_failIf.bind fun _ => ?_
  refine (always_query Requests.spares_id).bind fun _ => Prog.always_failIf.bind fun _ => ?_
  exact always_createUser.bind fun _ => trivial

theorem always_forgotPassword {hash : String → String} {resetTokenId otp email : String} :
    (AuthService.forgotPassword js hash resetTokenId otp email).Always ((requests jwt op).Spares i) := by
  refine Prog.always_failIf.bind fun _ => (always_query Requests.spares_id).bind fun _ => Prog.always_orFail.bind fun _ => ?_
  exact always_upsertResetToken.bind fun _ => Requests.always_outside.bind fun _ => trivial

theorem always_logout {userId role : String} (hout : (op i).LogsOut userId) :
    (AuthService.logout userId role).Always ((requests jwt op).Spares i) := by
  refine Prog.always_failIf.bind fun _ => (always_query Requests.spares_id).bind fun _ => Prog.always_orFail.bind fun _ => ?_
  exact (always_deleteRefreshTokens hout).bind fun _ => trivial

theorem minting_loginUser {io : Io} {email password : String} {newPassword : Option String}
    (hop : op i = .loginUser io email password newPassword) :
    (requests jwt op).Minting i ((op i).call jwt js compare) := by
  rw [hop]
  simp only [Operation.call, AuthService.loginUser, Prog.bind_assoc]
  refine Requests.minting_bind (always_query Requests.spares_id) fun _ => Requests.minting_bind Prog.always_orFail fun _ => ?_
  refine Requests.minting_bind (always_identify Requests.spares_id fun _ _ _ => always_updateUser) fun user => ?_
  cases user with
  | none => trivial
  | some user =>
    simp only [issueTokens, Prog.bind_assoc]
    exact Requests.minting_create (by simp [requests, hop, Operation.io]) fun _ => trivial

/-- A refresh looks its row up, then the user, and then it replaces the token. -/
theorem looking_refreshAccessToken {io : Io} {refreshToken : String} (hop : op i = .refreshAccessToken io refreshToken) :
    (requests jwt op).Looking i refreshToken io.refreshToken ((op i).call jwt js compare) := by
  rw [hop]
  simp only [Operation.call, AuthService.refreshAccessToken, Prog.bind_assoc]
  refine Requests.awaits_query fun s => Prog.orDoomed_orFail fun row hrow => ?_
  obtain ⟨hmem, htoken⟩ := Table.mem_of_findBy hrow
  refine Prog.orDoomed_failIf fun _ => Prog.orDoomed_orFail fun userId huser => Or.inr ⟨row, hmem, beq_iff_eq.mp htoken, ?_⟩
  obtain ⟨hof, hne⟩ := truthy_eq_some.mp huser
  refine Requests.awaits_query fun s => Prog.orDoomed_orFail fun user hfind => Or.inr ?_
  obtain ⟨hstored, rfl⟩ := Table.find_eq_some.mp hfind
  refine ⟨⟨user, hstored, hof, hne⟩, ?_⟩
  have hexpiry : (requests jwt op).expiryDate i = refreshTokenExpiry io.now := by simp [requests, hop, Operation.io]
  rw [← hexpiry]
  refine Requests.rotating_rotation ?_ rfl
  rfl

theorem starts : (requests jwt op).Starts i ((op i).call jwt js compare) := by
  have keep : ∀ {α : Type} {p : Service α}, p.Always ((requests jwt op).Spares i) →
      (requests jwt op).Minting i (do let _ ← p; return none) :=
    fun hp => Requests.minting_of_always (Prog.Always.alwaysIn (hp.bind fun _ => trivial))
  have token : (requests jwt op).token i = (op i).token := rfl
  cases hop : op i with
  | registerRootUser hash userId dto => exact Or.inl ⟨by rw [token, hop]; rfl, keep always_registerRootUser⟩
  | loginUser io email password newPassword => exact Or.inl ⟨by rw [token, hop]; rfl, hop ▸ minting_loginUser hop⟩
  | refreshAccessToken io refreshToken =>
    refine Or.inr ⟨refreshToken, io.refreshToken, by rw [token, hop]; rfl, by simp [requests, hop, Operation.io], ?_⟩
    exact hop ▸ looking_refreshAccessToken hop
  | forgotPassword hash resetTokenId otp email => exact Or.inl ⟨by rw [token, hop]; rfl, keep always_forgotPassword⟩
  | resetPassword io dto =>
    refine Or.inl ⟨by rw [token, hop]; rfl, keep ?_⟩
    exact always_resetPassword Requests.spares_id (fun _ _ _ => always_updateUser) fun _ => always_deleteResetToken
  | changeOldPassword io userId oldPassword newPassword =>
    refine Or.inl ⟨by rw [token, hop]; rfl, keep ?_⟩
    exact always_changeOldPassword Requests.spares_id fun _ _ _ => always_updateUser
  | logout userId role => exact Or.inl ⟨by rw [token, hop]; rfl, keep (always_logout (by rw [hop]; rfl))⟩

end Users

end User

/-! ### System accounts -/

namespace SystemAccount
open SystemService

def token : Operation → Option String
  | .refreshSystemAccessToken _ token => some token
  | _ => none

/-- What the operation draws, if it draws a refresh token. -/
def io : Operation → Option SessionIo
  | .refreshSystemAccessToken io _ => some io
  | .loginSystemUser io _ _ => some io
  | _ => none

/-- The operation logs the account out with its refresh tokens, or deletes it. The logout of all accounts of an
    organization is one of those that belong to it. -/
def LogsOut (belongs : String → String → Prop) (systemId : String) : Operation → Prop
  | .logoutSystemAccount _ id _ => id = systemId
  | .deleteSystemAccount id _ _ _ => id = systemId
  | .logoutAllSystemAccounts orgId _ _ => belongs systemId orgId
  | _ => False

/-- The token of the row gives a new access token as long as it lives. -/
def Redeemable (jwt : Jwt) (s : Db) (row : RefreshToken) : Prop :=
  ∀ io : SessionIo, io.now ≤ row.expiryDate → (∀ r ∈ s.refreshToken, r.token ≠ io.refreshToken) →
    ∃ reply, ((refreshSystemAccessToken jwt io row.token).run s).1 = .ok reply

section Systems
variable {ι : Type} {jwt : Jwt} {js : Js} {compare : String → String → Bool} {s₀ s t : Db}

/-- The account belongs to the organization from the start, or an operation registers it there. -/
def Belongs (s₀ : Db) (op : ι → Operation) (systemId orgId : String) : Prop :=
  (∃ account ∈ s₀.systemCredential, account.id = systemId ∧ account.orgId = orgId) ∨
    ∃ i io userId role dto, op i = .registerSystemUser io orgId userId role dto ∧ io.systemId = systemId

/-- The operations that run at the same time. -/
def requests (jwt : Jwt) (s₀ : Db) (op : ι → Operation) : Requests ι (Option TokenReply) where
  token i := token (op i)
  draws i := (io (op i)).map (·.refreshToken)
  expiryDate i := ((io (op i)).map fun io => refreshTokenExpiry io.now).getD 0
  revokes i row := ∃ systemId, row.systemId = some systemId ∧ LogsOut (Belongs s₀ op) systemId (op i)
  fit _ _ := True
  redeems := Redeemable jwt
  sound s := ∀ account ∈ s.systemCredential, Belongs s₀ op account.id account.orgId
  grants reply row := reply.map (·.refreshToken) = some row.token
  redeems_of_fit _ _ hrow _ io hlive fresh := refreshSystemAccessToken_ok jwt io hrow hlive fresh
  fit_renewed _ _ _ _ _ h := h
  fit_rotated _ _ _ h := h
  sound_rotated _ _ h := h

variable {op : ι → Operation} {i : ι}

theorem sound_self : (requests jwt s op).sound s := fun account hmem => Or.inl ⟨account, hmem, rfl, rfl⟩

/-- A statement that leaves the refresh tokens alone. -/
theorem leaves_tokens (tokens : t.refreshToken = s.refreshToken)
    (sound : (requests jwt s₀ op).sound s → (requests jwt s₀ op).sound t) : (requests jwt s₀ op).Leaves i s t :=
  ⟨fun _ hrow => tokens ▸ hrow, fun _ hrow => Or.inl (tokens ▸ hrow), fun _ h => h, sound⟩

/-- A statement that deletes refresh tokens. -/
theorem leaves_deleted {p : RefreshToken → Bool} (tokens : t.refreshToken = s.refreshToken.delete p)
    (revoked : ∀ row, p row = true → (requests jwt s₀ op).revokes i row)
    (sound : (requests jwt s₀ op).sound s → (requests jwt s₀ op).sound t) : (requests jwt s₀ op).Leaves i s t := by
  refine ⟨fun row hrow => ?_, fun row hrow => ?_, fun _ h => h, sound⟩
  · rw [tokens] at hrow
    exact (Table.mem_delete.mp hrow).1
  · rw [tokens]
    cases hp : p row with
    | true => exact Or.inr (revoked row hp)
    | false => exact Or.inl (Table.mem_delete.mpr ⟨hrow, hp⟩)

/-- An update that moves no account to another organization. -/
theorem belongs_update {p : SystemCredential → Bool} {change : SystemCredential → SystemCredential} (keys : Row.Fixes change)
    (orgs : ∀ account, (change account).orgId = account.orgId)
    (h : ∀ account ∈ s.systemCredential, Belongs s₀ op account.id account.orgId) :
    ∀ account ∈ s.systemCredential.update p change keys, Belongs s₀ op account.id account.orgId := by
  intro account hmem
  obtain ⟨before, hbefore, rfl⟩ := Table.mem_update.mp hmem
  split
  · rw [orgs, show (change before).id = before.id from keys.1 before]
    exact h before hbefore
  · exact h before hbefore

theorem always_updateSystem {id : String} {change : SystemCredential → SystemCredential} {keys : Row.Fixes change}
    (orgs : ∀ account, (change account).orgId = account.orgId) :
    (updateSystem id change keys).Always ((requests jwt s₀ op).Spares i) := by
  refine Requests.always_mutate fun s _ t ht => ?_
  split at ht
  · cases ht
  · cases ht
    exact leaves_tokens rfl (belongs_update keys orgs)

theorem always_createSystem {system : SystemCredential} (belongs : Belongs s₀ op system.id system.orgId) :
    (createSystem system).Always ((requests jwt s₀ op).Spares i) := by
  refine Requests.always_mutate fun s _ t ht => ?_
  obtain ⟨-, -, u, hu, rfl⟩ := created_eq_ok.mp ht
  refine leaves_tokens rfl fun h account hmem => ?_
  rcases (Table.mem_insert hu).mp hmem with hold | rfl
  · exact h account hold
  · exact belongs

theorem always_deleteSystem {id : String} (hout : LogsOut (Belongs s₀ op) id (op i)) :
    (deleteSystem id).Always ((requests jwt s₀ op).Spares i) := by
  refine Requests.always_mutate fun s _ t ht => ?_
  split at ht
  · cases ht
  · cases ht
    exact leaves_deleted rfl (fun row hrow => ⟨id, beq_iff_eq.mp hrow, hout⟩)
      fun h account hmem => h account (Table.mem_delete.mp hmem).1

theorem always_deleteRefreshTokens {systemIds : List String} (hout : ∀ id ∈ systemIds, LogsOut (Belongs s₀ op) id (op i)) :
    (deleteRefreshTokens systemIds).Always ((requests jwt s₀ op).Spares i) := by
  refine Requests.always_mutate fun s _ t ht => ?_
  cases ht
  refine leaves_deleted rfl (fun row hrow => ?_) fun h => h
  obtain ⟨id, hof, hmem⟩ := (Option.any_eq_true _ _).mp hrow
  exact ⟨id, hof, hout id (List.contains_iff_mem.mp hmem)⟩

theorem always_logOutSystems {orgId : String} : (logOutSystems orgId).Always ((requests jwt s₀ op).Spares i) := by
  refine Requests.always_mutate fun s _ t ht => ?_
  cases ht
  exact leaves_tokens rfl (belongs_update loggedOut_keys fun _ => rfl)

theorem always_deleteResetToken {id : String} : (deleteResetToken id).Always ((requests jwt s₀ op).Spares i) := by
  refine Requests.always_mutate fun s _ t ht => ?_
  split at ht
  · cases ht
  · cases ht
    exact leaves_tokens rfl fun h => h

/-- The logout of all accounts revokes the tokens of the accounts that it reads, which belong to its organization. -/
theorem always_logoutAllSystemAccounts {orgId role userId : String} (hop : op i = .logoutAllSystemAccounts orgId role userId) :
    (logoutAllSystemAccounts orgId role userId).AlwaysIn (requests jwt s₀ op).sound ((requests jwt s₀ op).Spares i) := by
  have reads : ∀ {α : Type} {f : Db → α}, (query f).AlwaysIn (requests jwt s₀ op).sound ((requests jwt s₀ op).Spares i) :=
    (Prog.always_access Requests.spares_id).alwaysIn
  refine Prog.always_failIf.alwaysIn.bind fun _ => reads.bind fun _ => Prog.always_orFail.alwaysIn.bind fun _ => ?_
  refine reads.bind fun _ => Prog.always_orFail.alwaysIn.bind fun _ => Prog.always_failIf.alwaysIn.bind fun _ => ?_
  refine Prog.AlwaysIn.access_bind Requests.spares_id fun s accounts sound hread => ?_
  obtain rfl := Except.ok.inj hread
  refine Prog.always_failIf.alwaysIn.bind fun _ => Prog.Always.alwaysIn ?_
  refine (always_deleteRefreshTokens fun id hid => ?_).bind fun _ => always_logOutSystems.bind fun _ => trivial
  obtain ⟨account, hmem, rfl⟩ := List.mem_map.mp hid
  obtain ⟨hstored, hactive⟩ := Table.mem_filter.mp hmem
  obtain rfl : account.orgId = orgId := by
    simp only [Bool.and_eq_true, beq_iff_eq] at hactive
    exact hactive.1
  rw [hop]
  exact sound account hstored

/-- The operations that are no refresh and no login. -/
theorem always_serve (htoken : token (op i) = none) (hio : io (op i) = none) :
    (serve jwt js compare (op i)).AlwaysIn (requests jwt s₀ op).sound ((requests jwt s₀ op).Spares i) := by
  have keep : ∀ {α : Type} {p : Service α}, p.Always ((requests jwt s₀ op).Spares i) →
      (do let _ ← p; return none : Service (Option TokenReply)).AlwaysIn (requests jwt s₀ op).sound ((requests jwt s₀ op).Spares i) :=
    fun hp => Prog.Always.alwaysIn (hp.bind fun _ => trivial)
  have reads : ∀ {α : Type} {f : Db → α}, (query f).Always ((requests jwt s₀ op).Spares i) := Prog.always_access Requests.spares_id
  cases hop : op i with
  | registerSystemUser io orgId userId role dto =>
    refine keep (Prog.always_failIf.bind fun _ => reads.bind fun _ => Prog.always_orFail.bind fun _ => reads.bind fun _ => ?_)
    refine Prog.always_orFail.bind fun _ => Prog.always_failIf.bind fun _ => reads.bind fun _ => Prog.always_failIf.bind fun _ => ?_
    refine reads.bind fun _ => Prog.always_failIf.bind fun _ => (always_createSystem ?_).bind fun _ => trivial
    exact Or.inr ⟨i, io, userId, role, dto, hop, rfl⟩
  | loginSystemUser io email password =>
    rw [hop] at hio
    cases hio
  | refreshSystemAccessToken io refreshToken =>
    rw [hop] at htoken
    cases htoken
  | editSystemAccount orgId role systemId dto =>
    refine keep (Prog.always_failIf.bind fun _ => reads.bind fun _ => Prog.always_orFail.bind fun _ => ?_)
    exact Prog.always_failIf.bind fun _ => (always_updateSystem (by simp)).bind fun _ => trivial
  | deleteSystemAccount systemId orgId userId role =>
    refine keep (Prog.always_failIf.bind fun _ => reads.bind fun _ => Prog.always_orFail.bind fun _ => reads.bind fun _ => ?_)
    refine Prog.always_orFail.bind fun _ => reads.bind fun _ => Prog.always_orFail.bind fun _ => ?_
    exact (always_deleteSystem (by rw [hop]; rfl)).bind fun _ => trivial
  | resetPassword hash dto =>
    refine keep (reads.bind fun _ => Prog.always_orFail.bind fun _ => reads.bind fun _ => Prog.always_orFail.bind fun _ => ?_)
    refine Prog.always_failIf.bind fun _ => (always_updateSystem (by simp)).bind fun _ => ?_
    exact always_deleteResetToken.bind fun _ => trivial
  | logoutSystemAccount orgId systemId role =>
    refine keep (Prog.always_failIf.bind fun _ => reads.bind fun _ => Prog.always_orFail.bind fun _ => reads.bind fun _ => ?_)
    refine Prog.always_orFail.bind fun _ => Prog.always_failIf.bind fun _ => Prog.always_failIf.bind fun _ => ?_
    refine (always_updateSystem (by simp [loggedOut])).bind fun _ => ?_
    refine (always_deleteRefreshTokens fun id hid => ?_).bind fun _ => trivial
    rw [hop]
    exact (List.mem_singleton.mp hid).symm
  | logoutSystemAccountWeb systemId orgId userId role =>
    refine keep (Prog.always_failIf.bind fun _ => reads.bind fun _ => Prog.always_orFail.bind fun _ => reads.bind fun _ => ?_)
    refine Prog.always_orFail.bind fun _ => Prog.always_failIf.bind fun _ => reads.bind fun _ => Prog.always_orFail.bind fun _ => ?_
    exact Prog.always_failIf.bind fun _ => (always_updateSystem (by simp [loggedOut])).bind fun _ => trivial
  | logoutAllSystemAccounts orgId role userId => exact (always_logoutAllSystemAccounts hop).bind fun _ => trivial

theorem minting_loginSystemUser {io : SessionIo} {email password : String} (hop : op i = .loginSystemUser io email password) :
    (requests jwt s₀ op).Minting i (serve jwt js compare (op i)) := by
  rw [hop]
  simp only [serve, loginSystemUser, Prog.bind_assoc]
  refine Requests.minting_bind (Prog.always_access Requests.spares_id) fun _ => Requests.minting_bind Prog.always_orFail fun _ => ?_
  refine Requests.minting_bind Prog.always_failIf fun _ => Requests.minting_bind Prog.always_failIf fun _ => ?_
  refine Requests.minting_create (by simp [requests, hop, SystemAccount.io]) fun _ => ?_
  exact (always_updateSystem (by simp)).bind fun _ => trivial

/-- A refresh looks its row up, then the account, and then it replaces the token. -/
theorem looking_refreshSystemAccessToken {io : SessionIo} {token : String} (hop : op i = .refreshSystemAccessToken io token) :
    (requests jwt s₀ op).Looking i token io.refreshToken (serve jwt js compare (op i)) := by
  rw [hop]
  simp only [serve, refreshSystemAccessToken, Prog.bind_assoc]
  refine Requests.awaits_query fun s => Prog.orDoomed_orFail fun row hrow => Or.inr ?_
  obtain ⟨hfind, -⟩ := Option.filter_eq_some_iff.mp hrow
  obtain ⟨hmem, htoken⟩ := Table.mem_of_findBy hfind
  refine ⟨row, hmem, beq_iff_eq.mp htoken, Requests.awaits_query fun s => Or.inr ⟨trivial, ?_⟩⟩
  have hexpiry : (requests jwt s₀ op).expiryDate i = refreshTokenExpiry io.now := by simp [requests, hop, SystemAccount.io]
  rw [← hexpiry]
  refine Requests.rotating_rotation ?_ rfl
  rfl

theorem starts : (requests jwt s₀ op).Starts i (serve jwt js compare (op i)) := by
  obtain ⟨o, hop⟩ : ∃ o, op i = o := ⟨_, rfl⟩
  have token_eq : (requests jwt s₀ op).token i = token o := congrArg token hop
  cases o with
  | loginSystemUser io email password => exact Or.inl ⟨token_eq, minting_loginSystemUser hop⟩
  | refreshSystemAccessToken io token =>
    exact Or.inr ⟨token, io.refreshToken, token_eq, by simp [requests, hop, SystemAccount.io], looking_refreshSystemAccessToken hop⟩
  | _ => exact Or.inl ⟨token_eq, Requests.minting_of_always (always_serve (by rw [hop]; rfl) (by rw [hop]; rfl))⟩

end Systems

end SystemAccount

/-- In every interleaving of requests of the auth service, and of requests of the system service, in which each refresh
    that replaces a token finds the token that it presents in the row: at most one refresh with a token succeeds, and
    the token that it returns is stored and can be redeemed until a refresh uses it, or a logout or the deletion of its
    account deletes it. -/
theorem refresh_tokens_single_use {ι : Type} [DecidableEq ι] (jwt : Jwt) (js : Js) (compare : String → String → Bool) (s : Db) :
    (∀ op : ι → User.Operation, (User.requests jwt op).Drawn s → ∀ c,
      (Threads.interleaving ⟨s, fun i => (op i).call jwt js compare⟩).Reach (Current (User.requests jwt op).token) c →
        (User.requests jwt op).SingleUse (Current (User.requests jwt op).token) c) ∧
    ∀ op : ι → SystemService.Operation, (SystemAccount.requests jwt s op).Drawn s → ∀ c,
      (Threads.interleaving ⟨s, fun i => SystemService.serve jwt js compare (op i)⟩).Reach
        (Current (SystemAccount.requests jwt s op).token) c →
        (SystemAccount.requests jwt s op).SingleUse (Current (SystemAccount.requests jwt s op).token) c :=
  ⟨fun _ drawn _ h => Requests.singleUse_of_reach (fun _ => User.starts) drawn trivial h,
    fun _ drawn _ h => Requests.singleUse_of_reach (fun _ => SystemAccount.starts) drawn SystemAccount.sound_self h⟩

/-! ### Two tabs of a browser -/

namespace Tabs
open AuthService

/-- Ann is logged in. -/
def loggedIn : Db where
  organization := Demoted.db.organization
  userCredential := Demoted.db.userCredential
  refreshToken := {{ id := "1", userId := some "ann-user", token := "first", expiryDate := refreshTokenExpiry 0 }}

/-- Both tabs present her refresh token. -/
def tab : Bool → User.Operation
  | true => .refreshAccessToken (Demoted.io "2" "second") "first"
  | false => .refreshAccessToken (Demoted.io "3" "third") "first"

def tabs : Threads Bool Db HttpException (Option RefreshReply) :=
  ⟨loggedIn, fun i => (tab i).call Jwt.readable Demoted.js (· == ·)⟩

/-- One tab starts when the other is done. -/
def inTurn : Threads Bool Db HttpException (Option RefreshReply) := tabs.schedule [true, true, true, false]

/-- Both tabs find the row before one of them replaces its token. -/
def atOnce : Threads Bool Db HttpException (Option RefreshReply) := tabs.schedule [true, false, true, false, true, false]

end Tabs

section Tabs
open Tabs

variable {ι α : Type} {token : ι → Option String} {c : Threads ι Db HttpException α} {i : ι}

/-- A statement that changes nothing, and one that replaces the token of the row that holds it. -/
theorem current_of_still {g : Db → Db} {k : Db → Service α} {f : Service α} (hp : c.threads i = .stmt g k f)
    (still : ∀ s, g s = s) : Current token c i := by
  intro _ _ id h
  rw [hp] at h
  exact absurd h (not_atRotation still)

theorem current_of_rotation (value : String) (expiryDate : Date) {g : Db → Db} {k : Db → Service α} {f : Service α}
    {row : RefreshToken} (hp : c.threads i = .stmt g k f) (hg : g = rotated row.id value expiryDate)
    (hrow : row ∈ c.state.refreshToken) (htoken : token i = some row.token) : Current token c i := by
  intro presented hpresented id h
  rw [hp, hg] at h
  exact ⟨row, hrow, (atRotation_rotated h).symm, Option.some.inj (htoken.symm.trans hpresented)⟩

theorem drawn_tabs : (User.requests Jwt.readable tab).Drawn loggedIn := by
  refine ⟨fun i j value hi hj => ?_, fun i value hi row hrow => ?_⟩
  · have hsame := hi.trans hj.symm
    revert hsame
    cases i <;> cases j <;> decide
  · obtain rfl := Table.mem_singleton.mp hrow
    cases i <;> cases hi <;> decide

theorem reach_inTurn : (Threads.interleaving tabs).Reach (Current (User.requests Jwt.readable tab).token) inTurn := by
  refine Threads.reach_schedule (.init rfl) ⟨?_, ?_, ?_, ?_, trivial⟩
  · exact current_of_still rfl fun _ => rfl
  · exact current_of_still rfl fun _ => rfl
  · refine current_of_rotation "second" (refreshTokenExpiry 0) rfl ?_ (Table.mem_singleton.mpr rfl) rfl
    funext s
    rw [rotated, rotateRefreshToken, mutate, Prog.run_access]
    rfl
  · exact current_of_still rfl fun _ => rfl

/-- The first tab succeeds, and the second fails. -/
theorem refresh_tokens_single_use_in_turn : (∃ reply, inTurn.threads true = .ret (some reply)) ∧
    inTurn.threads false = .fail (.badRequest "Invalid refresh token.") ∧
    (User.requests Jwt.readable tab).SingleUse (Current (User.requests Jwt.readable tab).token) inTurn :=
  ⟨⟨_, rfl⟩, rfl,
    (refresh_tokens_single_use Jwt.readable AuthService.Demoted.js (· == ·) loggedIn).1 tab drawn_tabs inTurn reach_inTurn⟩

/-- Both tabs succeed at once, and only the token of the second is stored. -/
theorem refresh_token_used_twice : ¬∀ c, (Threads.interleaving tabs).Reachable c →
    (User.requests Jwt.readable tab).SingleUse (fun _ _ => True) c := fun h => by
  have once := (h atOnce (Threads.reachable_schedule (.init rfl) _)).once true false "first" _ _ rfl rfl rfl rfl
  cases once

end Tabs

end Vms.RefreshTokens
