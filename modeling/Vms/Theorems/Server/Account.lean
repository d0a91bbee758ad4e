import Vms.Theorems.Server.Authority

/-! Nobody takes over the account of a user without its password, one of its refresh tokens, or a code that is sent to
    its address: its password, its codes and its sessions stay, in whatever order the accesses of the requests come. -/

namespace Vms.Server
open Relational Table HttpException Prog
open AuthService (always_query always_mutate)

/-- What lets one into the account of `id` is as it was, or is one of the codes that are sent. -/
structure Secured (codes : String → Prop) (id : String) (s t : Db) : Prop where
  passwords : ∀ b ∈ t.userCredential, b.id = id → ∃ a ∈ s.userCredential, a.id = id ∧ a.password = b.password
  resetCodes : ∀ b ∈ t.resetToken, b.userId = id → codes b.token ∨ ∃ a ∈ s.resetToken, a.userId = id ∧ a.token = b.token
  sessions : ∀ b ∈ t.refreshToken, b.userId = some id → b ∈ s.refreshToken

variable {codes : String → Prop} {id : String} {s t u : Db}

namespace Secured

theorem refl (s : Db) : Secured codes id s s where
  passwords b hb hid := ⟨b, hb, hid, rfl⟩
  resetCodes b hb hid := Or.inr ⟨b, hb, hid, rfl⟩
  sessions _ hb _ := hb

theorem trans (h : Secured codes id s t) (h' : Secured codes id t u) : Secured codes id s u where
  passwords c hc hid := by
    obtain ⟨b, hb, hb_id, hbc⟩ := h'.passwords c hc hid
    obtain ⟨a, ha, ha_id, hab⟩ := h.passwords b hb hb_id
    exact ⟨a, ha, ha_id, hab.trans hbc⟩
  resetCodes c hc hid := by
    rcases h'.resetCodes c hc hid with hcode | ⟨b, hb, hb_id, hbc⟩
    · exact Or.inl hcode
    · rcases h.resetCodes b hb hb_id with hcode | ⟨a, ha, ha_id, hab⟩
      · exact Or.inl (hbc ▸ hcode)
      · exact Or.inr ⟨a, ha, ha_id, hab.trans hbc⟩
  sessions c hc hid := h.sessions c (h'.sessions c hc hid) hid

/-- Rows are only taken away. -/
theorem of_shrinks (users : s.userCredential.Shrinks t.userCredential) (resetTokens : s.resetToken.Shrinks t.resetToken)
    (refreshTokens : s.refreshToken.Shrinks t.refreshToken) : Secured codes id s t where
  passwords b hb hid := ⟨b, users b hb, hid, rfl⟩
  resetCodes b hb hid := Or.inr ⟨b, resetTokens b hb, hid, rfl⟩
  sessions b hb _ := refreshTokens b hb

/-- Only accounts change. -/
theorem of_users (frame : t.resetToken = s.resetToken ∧ t.refreshToken = s.refreshToken)
    (h : ∀ b ∈ t.userCredential, b.id = id → ∃ a ∈ s.userCredential, a.id = id ∧ a.password = b.password) :
    Secured codes id s t where
  passwords := h
  resetCodes b hb hid := Or.inr ⟨b, frame.1 ▸ hb, hid, rfl⟩
  sessions _ hb _ := frame.2 ▸ hb

theorem withResetToken {resetTokens : Table ResetToken} (h : ∀ b ∈ resetTokens, b.userId = id →
      codes b.token ∨ ∃ a ∈ s.resetToken, a.userId = id ∧ a.token = b.token) :
    Secured codes id s { s with resetToken := resetTokens } where
  passwords b hb hid := ⟨b, hb, hid, rfl⟩
  resetCodes := h
  sessions _ hb _ := hb

theorem withRefreshToken {refreshTokens : Table RefreshToken}
    (h : ∀ b ∈ refreshTokens, b.userId = some id → b ∈ s.refreshToken) :
    Secured codes id s { s with refreshToken := refreshTokens } where
  passwords b hb hid := ⟨b, hb, hid, rfl⟩
  resetCodes b hb hid := Or.inr ⟨b, hb, hid, rfl⟩
  sessions := h

end Secured

/-! ### Changes -/

/-- The changes that leave alone what lets one into an account, or take it away. -/
def Kind.Closing : Kind → Prop
  | addRoot | addUser | setPassword | setResetCode | addToken | rotateToken => False
  | _ => True

theorem Change.secured {k : Kind} (h : Change s k t) (closing : k.Closing) : Secured codes id s t := by
  have stays {α : Type} [Row α] (table : Table α) : table.Shrinks table := fun _ ha => ha
  cases h <;> first
    | exact closing.elim
    | exact .of_shrinks (stays _) (stays _) (stays _)
    | skip
  case setReady u users =>
    refine .of_users ⟨rfl, rfl⟩ fun b hb hid => ?_
    obtain ⟨a, ha, rfl | rfl⟩ := users.only b hb
    · exact ⟨b, ha, hid, rfl⟩
    · exact ⟨a, ha, hid, rfl⟩
  case updateUser u users =>
    refine .of_users ⟨rfl, rfl⟩ fun b hb hid => ?_
    obtain ⟨a, ha, _, _, _, -, rfl⟩ := users.only b hb
    exact ⟨a, ha, hid, rfl⟩
  case dropResetCode u rows => exact .of_shrinks (stays _) rows (stays _)
  case dropTokens u rows => exact .of_shrinks (stays _) (stays _) rows
  case dropSystem gone => exact .of_shrinks (stays _) (stays _) shrinks_delete
  case dropUser gone => exact .of_shrinks shrinks_delete shrinks_delete shrinks_delete
  case dropOrganization gone => exact .of_shrinks shrinks_delete shrinks_delete shrinks_delete

theorem secured_of_within {α : Type} {K : Kind → Prop} {p : Service α} (h : p.Within (Changes K)) (closing : ∀ k, K k → k.Closing) :
    p.Within (Secured codes id) :=
  Changes.within h Secured.refl Secured.trans fun _ k _ hk hchange => hchange.secured (closing k hk)

/-! ### Statements -/

section Statements

theorem updateUser_secured {userId : String} {change : UserCredential → UserCredential} {keys : Row.Fixes change}
    (other : userId ≠ id) :
    (AuthService.updateUser userId change keys).Within (Secured codes id) := by
  refine always_mutate Secured.refl fun s _ t h => ?_
  split at h
  · cases h
  · cases h
    have rows : s.userCredential.Evolves (fun a b => b.id = a.id ∧ (b = a ∨ a.id = userId))
        (s.userCredential.update (·.id == userId) change keys) :=
      .update (fun _ => ⟨rfl, Or.inl rfl⟩) fun a _ hof => ⟨keys.1 a, Or.inr (beq_iff_eq.mp hof)⟩
    refine .of_users ⟨rfl, rfl⟩ fun b hb hid => ?_
    obtain ⟨a, ha, hab, rfl | hof⟩ := rows.only b hb
    · exact ⟨b, ha, hid, rfl⟩
    · exact absurd (hof.symm.trans (hab.symm.trans hid)) other

theorem insertUser_secured {user : UserCredential} (other : user.id ≠ id)
    (stored : s.userCredential.insert user = some t.userCredential)
    (frame : t.resetToken = s.resetToken ∧ t.refreshToken = s.refreshToken) : Secured codes id s t := by
  refine .of_users frame fun b hb hid => ?_
  rcases (mem_insert stored).mp hb with hb | rfl
  · exact ⟨b, hb, hid, rfl⟩
  · exact absurd hid other

theorem createUser_secured {user : UserCredential} (other : user.id ≠ id) :
    (AuthService.createUser user).Within (Secured codes id) :=
  always_create Secured.refl fun _ _ _ stored => insertUser_secured other stored ⟨rfl, rfl⟩

theorem createMemberUser_secured {user : UserCredential} {staffId : String} (other : user.id ≠ id) :
    (StaffService.createUser user staffId).Within (Secured codes id) := by
  refine always_mutate Secured.refl fun s _ t h => ?_
  obtain ⟨-, -, users, staff, stored, -, rfl⟩ := StaffService.createdUser_eq_ok.mp h
  exact insertUser_secured other stored ⟨rfl, rfl⟩

/-- A code that is sent. -/
theorem upsertResetToken_secured {rowId userId token : String} (sent : codes token) :
    (AuthService.upsertResetToken rowId userId token).Within (Secured codes id) := by
  refine always_mutate Secured.refl fun s _ t h => ?_
  split at h
  · split at h
    · cases h
    · rename_i u stored
      cases h
      refine .withResetToken fun b hb hid => ?_
      obtain ⟨a, ha, rfl⟩ := (mem_modify stored).mp hb
      split
      · exact Or.inl sent
      · rename_i hof
        rw [if_neg hof] at hid
        exact Or.inr ⟨a, ha, hid, rfl⟩
  · obtain ⟨-, u, stored, hx⟩ := created_map_eq_ok.mp h
    cases hx
    refine .withResetToken fun b hb hid => ?_
    rcases (mem_insert stored).mp hb with hb | rfl
    · exact Or.inr ⟨b, hb, hid, rfl⟩
    · exact Or.inl sent

theorem createRefreshToken_secured {token : RefreshToken} (other : token.userId ≠ some id) :
    (createRefreshToken token).Within (Secured codes id) := by
  refine always_create Secured.refl fun s u _ stored => .withRefreshToken fun b hb hid => ?_
  rcases (mem_insert stored).mp hb with hb | rfl
  · exact hb
  · exact absurd hid other

/-- The refresh token is another account's when it was read. -/
theorem rotateRefreshToken_secured {row : RefreshToken} {token : String} {expiryDate : Date} (hrow : row ∈ s.refreshToken)
    (other : row.userId ≠ some id) : (rotateRefreshToken row.id token expiryDate).Keeps (Secured codes id) s := by
  refine mutate_keeps Secured.refl fun t ht _ u h => ?_
  split at h
  · cases h
  · split at h
    · cases h
    · rename_i u stored
      cases h
      refine .withRefreshToken fun b hb hid => ?_
      obtain ⟨a, ha, rfl⟩ := (mem_modify stored).mp hb
      split at hid
      · rename_i hof
        have hsame : a = row := eq_of_id (ht.sessions a ha hid) hrow (beq_iff_eq.mp hof)
        exact absurd (hsame ▸ hid) other
      · rename_i hof
        rw [if_neg hof]
        exact ha

end Statements

/-! ### Operations -/

/-- A text is the password of the account. -/
def IsPassword (server : Server) (s : Db) (id password : String) : Prop :=
  ∃ user ∈ s.userCredential, user.id = id ∧ server.compare password user.password = true

/-- A text is a code with which the password can be reset: one that is sent, or stored. -/
def IsCode (server : Server) (codes : String → Prop) (s : Db) (id code : String) : Prop :=
  (∃ token, codes token ∧ server.compare code token = true) ∨
    ∃ row ∈ s.resetToken, row.userId = id ∧ server.compare code row.token = true

def IsSession (s : Db) (id token : String) : Prop := ∃ row ∈ s.refreshToken, row.userId = some id ∧ row.token = token

theorem Secured.isPassword {server : Server} {password : String} (h : Secured codes id s t) (ht : IsPassword server t id password) :
    IsPassword server s id password := by
  obtain ⟨b, hb, hid, hmatch⟩ := ht
  obtain ⟨a, ha, hid', hab⟩ := h.passwords b hb hid
  exact ⟨a, ha, hid', hab ▸ hmatch⟩

theorem Secured.isCode {server : Server} {code : String} (h : Secured codes id s t) (ht : IsCode server codes t id code) :
    IsCode server codes s id code := by
  rcases ht with hsent | ⟨b, hb, hid, hmatch⟩
  · exact Or.inl hsent
  · rcases h.resetCodes b hb hid with hsent | ⟨a, ha, hid', hab⟩
    · exact Or.inl ⟨b.token, hsent, hmatch⟩
    · exact Or.inr ⟨a, ha, hid', hab ▸ hmatch⟩

theorem Secured.isSession {token : String} (h : Secured codes id s t) (ht : IsSession t id token) : IsSession s id token := by
  obtain ⟨row, hrow, hid, htoken⟩ := ht
  exact ⟨row, h.sessions row hrow hid, hid, htoken⟩

section Operations
variable {server : Server} {io : AuthService.Io}
open AuthService

theorem query_secured {α : Type} {f : Db → α} : (query f).Within (Secured codes id) := always_query Secured.refl

/-- An account that is logged in to, if any, is another one. -/
def LogsIn (id : String) (r : Except HttpException (Option UserCredential)) (_ : Db) : Prop :=
  ∀ user, r = .ok (some user) → user.id ≠ id

theorem logsIn_error {e : HttpException} : LogsIn id (.error e) s := fun _ h => by cases h

theorem firstLogin_obeys {user : UserCredential} {password : String} {newPassword : Option String}
    (wrong : server.compare password user.password = true → user.id ≠ id) :
    (firstLogin server.compare io user password newPassword).Obeys (Secured codes id) (LogsIn id) s := by
  refine failIf_bind_obeys logsIn_error fun hmatch => ?_
  have other := wrong (not_not.mp hmatch)
  split
  · exact fun _ h => (by cases h)
  · rename_i newPassword _
    have password_ : (changePassword io user.id newPassword).Within (Secured codes id) := updateUser_secured other
    refine password_.keeps.bind_obeys .refl .trans (fun _ _ => logsIn_error) fun _ t _ => ?_
    refine Keeps.bind_obeys .refl .trans (updateUser_secured other).keeps (fun _ _ => logsIn_error) fun _ u _ => ?_
    refine query_bind_obeys .refl (fun _ _ => logsIn_error) fun v _ => orFail_bind_obeys logsIn_error fun found hfound => ?_
    refine failIf_bind_obeys logsIn_error fun _ => failIf_bind_obeys logsIn_error fun _ => ?_
    rintro user' h hid
    obtain rfl := Option.some.inj (Except.ok.inj h)
    exact other ((find_eq_some.mp hfound).2.symm.trans hid)

theorem laterLogin_obeys {user : UserCredential} {password : String}
    (wrong : server.compare password user.password = true → user.id ≠ id) :
    (laterLogin server.compare user password).Obeys (Secured codes id) (LogsIn id) s := by
  refine failIf_bind_obeys logsIn_error fun _ => failIf_bind_obeys logsIn_error fun hmatch => ?_
  rintro user' h
  obtain rfl := Option.some.inj (Except.ok.inj h)
  exact wrong (not_not.mp hmatch)

/-- Nobody logs in to the account without its password. -/
theorem loginUser_secured {email password : String} {newPassword : Option String} (unknown : ¬IsPassword server s id password) :
    (loginUser server.jwt server.compare io email password newPassword).Keeps (Secured codes id) s := by
  refine query_bind_keeps .refl fun t ht => orFail_bind_keeps fun user huser => ?_
  obtain ⟨hmem, -⟩ := mem_of_findBy huser
  have wrong (hmatch : server.compare password user.password = true) : user.id ≠ id :=
    fun hid => unknown (ht.isPassword ⟨user, hmem, hid, hmatch⟩)
  have identified : (identify server.compare io user password newPassword).Obeys (Secured codes id) (LogsIn id) t := by
    unfold identify
    split
    · exact firstLogin_obeys wrong
    · exact laterLogin_obeys wrong
  refine obeys_bind.mpr (identified.mono fun r u hr => ?_)
  rcases r with e | _ | user'
  · trivial
  · trivial
  · have other : some user'.id ≠ some id := fun h => hr user' rfl (Option.some.inj h)
    exact Keeps.bind .refl .trans (createRefreshToken_secured other).keeps fun _ _ _ => trivial

theorem resetPassword_secured {js : Js} {dto : ResetPasswordDto} (unknown : ¬IsCode server codes s id dto.resetToken) :
    (resetPassword js server.compare io dto).Keeps (Secured codes id) s := by
  refine query_bind_keeps .refl fun t ht => orFail_bind_keeps fun user _ => query_bind_keeps .refl fun u hu => ?_
  refine orFail_bind_keeps fun row hrow => failIf_bind_keeps fun hmatch => ?_
  obtain ⟨hmem, hof⟩ := mem_of_findBy hrow
  have other : user.id ≠ id := fun hid =>
    unknown ((ht.trans hu).isCode (Or.inr ⟨row, hmem, (beq_iff_eq.mp hof).trans hid, not_not.mp hmatch⟩))
  refine Keeps.bind .refl .trans (updateUser_secured other).keeps fun _ v _ => ?_
  have dropped : (AuthService.deleteResetToken row.id).Within (Secured codes id) :=
    secured_of_within (K := (· = .dropResetCode)) (deleteResetToken_within rfl) (by rintro k rfl; trivial)
  exact dropped.keeps.bind .refl .trans fun _ _ _ => trivial

theorem changeOldPassword_secured {userId oldPassword newPassword : String}
    (unknown : userId = id → ¬IsPassword server s id oldPassword) :
    (changeOldPassword server.compare io userId oldPassword newPassword).Keeps (Secured codes id) s := by
  refine query_bind_keeps .refl fun t ht => orFail_bind_keeps fun user huser => failIf_bind_keeps fun hmatch => ?_
  obtain ⟨hmem, hof⟩ := find_eq_some.mp huser
  have other : userId ≠ id := fun hid =>
    unknown hid (ht.isPassword ⟨user, hmem, hof.trans hid, not_not.mp hmatch⟩)
  exact Keeps.bind .refl .trans (updateUser_secured other).keeps fun _ _ _ => trivial

/-- A session goes on with one of its refresh tokens only. -/
theorem refreshAccessToken_secured {token : String} (unknown : ¬IsSession s id token) :
    (refreshAccessToken server.jwt io token).Keeps (Secured codes id) s := by
  refine query_bind_keeps .refl fun t ht => orFail_bind_keeps fun row hrow => failIf_bind_keeps fun _ => ?_
  obtain ⟨hmem, hof⟩ := mem_of_findBy hrow
  have other : row.userId ≠ some id := fun hid => unknown (ht.isSession ⟨row, hmem, hid, beq_iff_eq.mp hof⟩)
  refine orFail_bind_keeps fun userId _ => query_bind_keeps .refl fun u hu => orFail_bind_keeps fun _ _ => ?_
  refine Keeps.bind .refl .trans (Obeys.after .trans (fun _ _ _ _ _ => trivial) ?_ hu) fun _ _ _ => trivial
  exact rotateRefreshToken_secured hmem other

theorem refreshSystemAccessToken_secured {io : SystemService.SessionIo} {token : String} (unknown : ¬IsSession s id token) :
    (SystemService.refreshSystemAccessToken server.jwt io token).Keeps (Secured codes id) s := by
  refine query_bind_keeps .refl fun t ht => orFail_bind_keeps fun row hrow => query_bind_keeps .refl fun u hu => ?_
  obtain ⟨hmem, hof⟩ := mem_of_findBy (Option.filter_eq_some_iff.mp hrow).1
  have other : row.userId ≠ some id := fun hid => unknown (ht.isSession ⟨row, hmem, hid, beq_iff_eq.mp hof⟩)
  refine Keeps.bind .refl .trans (Obeys.after .trans (fun _ _ _ _ _ => trivial) ?_ hu) fun _ _ _ => trivial
  exact rotateRefreshToken_secured hmem other

theorem loginSystemUser_secured {js : Js} {io : SystemService.SessionIo} {email password : String} :
    (SystemService.loginSystemUser server.jwt js server.compare io email password).Within (Secured codes id) := by
  refine query_secured.bind fun _ => always_orFail.bind fun system => always_failIf.bind fun _ => always_failIf.bind fun _ => ?_
  refine Always.bind (createRefreshToken_secured (by simp)) fun _ => Always.bind ?_ fun _ => trivial
  refine secured_of_within (K := (· = .updateSystem)) (updateSystem_within rfl fun a => ?_) (by rintro k rfl; trivial)
  exact ⟨a.password, a.secretCode, _, _, rfl⟩

theorem forgotPassword_secured {js : Js} {hash : String → String} {resetTokenId otp email : String} (sent : codes (hash otp)) :
    (forgotPassword js hash resetTokenId otp email).Within (Secured codes id) := by
  refine always_failIf.bind fun _ => query_secured.bind fun _ => always_orFail.bind fun user => ?_
  exact Always.bind (upsertResetToken_secured sent) fun _ => (always_access Secured.refl).bind fun _ => trivial

theorem registerRootUser_secured {js : Js} {hash : String → String} {userId : String} {dto : RegisterRootDto} (other : userId ≠ id) :
    (registerRootUser js hash userId dto).Within (Secured codes id) := by
  refine query_secured.bind fun _ => always_failIf.bind fun _ => query_secured.bind fun _ => always_failIf.bind fun _ => ?_
  exact Always.bind (createUser_secured other) fun _ => trivial

end Operations

section Members
variable {io : StaffService.Io} (other : ∀ i, io.userId i ≠ id)
include other

theorem hires_secured {org : String} : Hires io org (Secured codes id) where
  staff x unlinked := secured_of_within (K := (· = .addStaff)) (createStaff_within rfl unlinked) (by rintro k rfl; trivial)
  user x staffId _ _ drawn := createMemberUser_secured <| by
    obtain ⟨i, hi⟩ := drawn
    exact hi ▸ other i

theorem editStaffMemberDetails_secured {orgId qOrgId : Option String} {role staffId : String}
    {dto : StaffService.EditStaffMemberDto} :
    (StaffService.editStaffMemberDetails io orgId role staffId dto qOrgId).Within (Secured codes id) := by
  refine editStaffMemberDetails_within .refl .trans fun _ => ⟨?_, fun _ _ => ?_, ?_, fun _ _ _ => ?_⟩
  · exact secured_of_within (K := (· = .setStaffHours)) (editStaffHours_within rfl) (by rintro k rfl; trivial)
  · refine secured_of_within (K := fun k => k = .updateStaff ∨ k = .updateUser)
      (makeRoom_within (Or.inl rfl) (Or.inr rfl)) ?_
    rintro k (rfl | rfl) <;> trivial
  · exact secured_of_within (K := (· = .updateStaff)) (updateMember_within rfl) (by rintro k rfl; trivial)
  · refine updateCredential_within .refl (hires_secured other).user fun _ _ reassigns => ?_
    exact secured_of_within (K := (· = .updateUser)) (updateMemberUser_within rfl reassigns) (by rintro k rfl; trivial)

end Members

/-! ### Requests -/

/-- The request draws the identifier for an account of its own. -/
def OpenEndpoint.Draws (id : String) : OpenEndpoint → Prop
  | registerRoot _ userId _ => userId = id
  | _ => False

def Endpoint.Draws (id : String) : Endpoint → Prop
  | addStaffMember io .. | addStaffBulk io .. | updateStaffMember io .. => ∃ i, io.userId i = id
  | _ => False

/-- The code is sent on the request. -/
def OpenEndpoint.Sends (token : String) : OpenEndpoint → Prop
  | forgotPassword hash _ otp _ => hash otp = token
  | _ => False

/-- The request shows the account's password, one of its refresh tokens, or a code. -/
def OpenEndpoint.Shows (server : Server) (codes : String → Prop) (id : String) (s : Db) : OpenEndpoint → Prop
  | loginUser _ _ password _ => IsPassword server s id password
  | resetPassword _ dto => IsCode server codes s id dto.resetToken
  | refreshAccessToken _ token | refreshSystemAccessToken _ token => IsSession s id token
  | _ => False

def Endpoint.Shows (server : Server) (caller : Caller) (id : String) (s : Db) : Endpoint → Prop
  | changePassword _ oldPassword _ => caller.userId = some id ∧ IsPassword server s id oldPassword
  | _ => False

def Request.Draws (id : String) : Request → Prop
  | anyone endpoint => endpoint.Draws id
  | authorized _ _ endpoint => endpoint.Draws id

def Request.Sends (token : String) : Request → Prop
  | anyone endpoint => endpoint.Sends token
  | authorized .. => False

def Request.Shows (server : Server) (codes : String → Prop) (id : String) (s : Db) : Request → Prop
  | anyone endpoint => endpoint.Shows server codes id s
  | authorized now authorization endpoint => ∃ caller, sender server.jwt now authorization = some caller ∧
      endpoint.Shows server caller id s

section Handlers
variable {server : Server} {caller : Caller}

theorem OpenEndpoint.handle_secured (endpoint : OpenEndpoint) (unknown : ¬endpoint.Shows server codes id s)
    (fresh : ¬endpoint.Draws id)
    (sent : ∀ token, endpoint.Sends token → codes token) : (endpoint.handle server).Keeps (Secured codes id) s := by
  have rest (h : ∀ k ∈ endpoint.kinds, k.Closing) : (endpoint.handle server).Keeps (Secured codes id) s :=
    (secured_of_within (OpenEndpoint.handle_within endpoint) h).keeps
  cases endpoint
  case registerRoot => exact Keeps.bind .refl .trans (registerRootUser_secured fresh).keeps fun _ _ _ => trivial
  case loginUser => exact Keeps.bind .refl .trans (loginUser_secured unknown) fun _ _ _ => trivial
  case refreshAccessToken => exact Keeps.bind .refl .trans (refreshAccessToken_secured unknown) fun _ _ _ => trivial
  case forgotPassword => exact Keeps.bind .refl .trans (forgotPassword_secured (sent _ rfl)).keeps fun _ _ _ => trivial
  case resetPassword => exact Keeps.bind .refl .trans (resetPassword_secured unknown) fun _ _ _ => trivial
  case loginSystemUser => exact Keeps.bind .refl .trans loginSystemUser_secured.keeps fun _ _ _ => trivial
  case refreshSystemAccessToken =>
    exact Keeps.bind .refl .trans (refreshSystemAccessToken_secured unknown) fun _ _ _ => trivial
  all_goals exact rest (by simp [kinds, Kind.Closing])

theorem Endpoint.handle_secured (endpoint : Endpoint) (unknown : ¬endpoint.Shows server caller id s) (fresh : ¬endpoint.Draws id) :
    (endpoint.handle server caller).Keeps (Secured codes id) s := by
  have rest (h : ∀ k ∈ endpoint.kinds, k.Closing) : (endpoint.handle server caller).Keeps (Secured codes id) s :=
    (secured_of_within (Endpoint.handle_within endpoint) fun k hk => h k hk.1).keeps
  cases endpoint
  case changePassword =>
    refine orFail_bind_keeps fun userId huser => Keeps.bind .refl .trans (changeOldPassword_secured ?_) fun _ _ _ => trivial
    rintro rfl hpassword
    exact unknown ⟨huser, hpassword⟩
  case addStaffMember =>
    have hires (org : String) : Hires _ org (Secured codes id) := hires_secured fun i hi => fresh ⟨i, hi⟩
    exact Keeps.bind .refl .trans (addStaffMember_within .refl .trans fun _ org _ => hires org).keeps fun _ _ _ => trivial
  case addStaffBulk =>
    have hires (org : String) : Hires _ org (Secured codes id) := hires_secured fun i hi => fresh ⟨i, hi⟩
    refine failIf_bind_keeps fun _ => ?_
    exact Keeps.bind .refl .trans (addStaffBulk_within .refl .trans fun _ org _ => hires org).keeps fun _ _ _ => trivial
  case updateStaffMember =>
    refine Keeps.bind .refl .trans (editStaffMemberDetails_secured fun i hi => fresh ⟨i, hi⟩).keeps fun _ _ _ => trivial
  all_goals exact rest (by simp [kinds, Kind.Closing])

theorem Endpoint.shows_of_secured {endpoint : Endpoint} (h : Secured codes id s t) (ht : endpoint.Shows server caller id t) :
    endpoint.Shows server caller id s := by
  cases endpoint
  case changePassword => exact ⟨ht.1, h.isPassword ht.2⟩
  all_goals exact ht.elim

end Handlers

/-- Whatever is requested, and in whatever order the accesses come and fail: an account has the password that it had,
    the reset codes that it had or that are sent, and no session but those that it had, unless a request shows the
    password, a refresh token of the account, or a code. -/
theorem accounts_secured {server : Server} {ι : Type} [DecidableEq ι] {requests : ι → Request} {d : Threads ι Db HttpException Unit}
    (unknown : ∀ i, ¬(requests i).Shows server (fun token => ∃ j, (requests j).Sends token) id s)
    (fresh : ∀ i, ¬(requests i).Draws id)
    (h : (Threads.interleaving ⟨s, fun i => serve server (requests i)⟩).Reachable d) :
    Secured (fun token => ∃ j, (requests j).Sends token) id s d.state := by
  refine kept_of_reach Secured.refl Secured.trans (fun i endpoint hrequest => ?_)
    (fun i now authorization endpoint caller t hrequest hcaller ht => ?_) h
  all_goals
    have unknown := unknown i
    have fresh := fresh i
  · have sent : ∀ token, endpoint.Sends token → ∃ j, (requests j).Sends token := fun token htoken => ⟨i, hrequest ▸ htoken⟩
    rw [hrequest] at unknown fresh
    exact endpoint.handle_secured unknown fresh sent
  · rw [hrequest] at unknown fresh
    exact endpoint.handle_secured (fun hshows => unknown ⟨caller, hcaller, Endpoint.shows_of_secured ht hshows⟩) fresh

/-! ### A thief -/

namespace Thief

def ann : UserCredential := { Office.ann with password := "secret", firstTimeLogin := some false }

def db : Db where
  organization := {{ id := "office", name := "Office", email := "office@mail.com" }}
  userCredential := {ann}
  refreshToken := {{ id := "1", token := "token", userId := some "ann", expiryDate := 1 }}

def io : AuthService.Io where
  now := 0
  refreshTokenId := "2"
  refreshToken := "token'"
  hash password := password

/-- The thief has a code sent to Ann, and guesses it. -/
def requests : Bool → Request
  | false => .anyone (.forgotPassword (fun otp => otp) "1" "123456" "ann@mail.com")
  | true => .anyone (.resetPassword io { email := "ann@mail.com", resetToken := "000000", newPassword := "stolen" })

def after : Threads Bool Db HttpException Unit :=
  Threads.schedule ⟨db, fun i => serve Office.server (requests i)⟩ [false, true, false, true, false, true]

theorem reachable_after : (Threads.interleaving ⟨db, fun i => serve Office.server (requests i)⟩).Reachable after :=
  Threads.reachable_schedule (.init rfl) _

end Thief

theorem accounts_secured_thief :
    Secured (fun token => ∃ j, (Thief.requests j).Sends token) "ann" Thief.db Thief.after.state := by
  refine accounts_secured (fun i hshows => ?_) (fun i hdraws => ?_) Thief.reachable_after
  · cases i with
    | false => exact hshows
    | true =>
      rcases hshows with ⟨token, ⟨j, hsent⟩, hmatch⟩ | ⟨row, hrow, -⟩
      · cases j with
        | false =>
          obtain rfl : "123456" = token := hsent
          exact absurd hmatch (by decide)
        | true => exact hsent
      · exact (List.not_mem_nil hrow).elim
  · cases i <;> exact hdraws

end Vms.Server
