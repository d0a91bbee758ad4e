import Vms.Theorems.Auth.Disabled

/-! What a refused login leaves. A later login asks whether the account is enabled before anything else; the first
    login stores the new password before it asks. -/

namespace Vms.AuthService
open Relational HttpException

/-- An error of the database client. -/
def OfDatabase (e : HttpException) : Prop := ∃ code, e = .prisma code

/-- What throws although every statement succeeded has changed no account and no refresh token. -/
def Unseen {α : Type} (s : Db) (r : Except HttpException α) (t : Db) : Prop :=
  ∀ e, r = .error e → ¬OfDatabase e → t.userCredential = s.userCredential ∧ t.refreshToken = s.refreshToken

/-- Who logs in for the first time, with the password and a new one, is enabled, and the new password is verified
    by its hash. -/
def FirstLoginPasses (compare : String → String → Bool) (io : Io) (email password : String) (newPassword : Option String)
    (s : Db) : Prop :=
  ∀ user ∈ s.userCredential, user.email = email → user.firstTimeLogin = some true → compare password user.password = true →
    ∀ new, truthy newPassword = some new → user.accountStatus ≠ .disabled ∧ compare new (io.hash new) = true

/-- A user after the first login. -/
def afterFirstLogin (io : Io) (new : String) (user : UserCredential) : UserCredential :=
  { user with password := io.hash new, firstTimeLogin := some false }

section Login
variable {s : Db} {jwt : Jwt} {compare : String → String → Bool} {io : Io} {user : UserCredential} {email password new : String}
  {newPassword : Option String}

theorem created_ofDatabase {α : Type} [Row α] {references : Bool} {a : α} {table : Option (Table α)} {store : Table α → Db}
    {e : HttpException} (h : created references a table store = .error e) : OfDatabase e := by
  unfold created at h
  split at h
  · split at h
    · cases h
    · exact ⟨_, (Except.error.inj h).symm⟩
  · exact ⟨_, (Except.error.inj h).symm⟩

/-- A stored user is updated. -/
theorem returns_updateUser {id : String} {change : UserCredential → UserCredential} {keys : Row.Fixes change}
    {Q : Except HttpException Unit → Db → Prop} (huser : user ∈ s.userCredential) (hid : user.id = id) :
    (updateUser id change keys).Returns Q s ↔
      Q (.ok ()) { s with userCredential := s.userCredential.update (·.id == id) change keys } := by
  have hfound : s.userCredential.find id = some user := Table.find_eq_some.mpr ⟨huser, hid⟩
  simp only [updateUser, returns_mutate, hfound, Option.isNone_some, Bool.false_eq_true, if_false, reduceCtorEq, false_implies,
    implies_true, true_and, Except.ok.injEq, Prod.mk.injEq]
  exact ⟨fun h => h () _ rfl, fun h _ _ ht => ht ▸ h⟩

/-- The first login with a new password stores it, whatever comes of it. -/
theorem returns_firstLogin_new {Q : Except HttpException (Option UserCredential) → Db → Prop} (huser : user ∈ s.userCredential)
    (hpassword : compare password user.password = true) (hnew : truthy newPassword = some new)
    (disabled : user.accountStatus = .disabled → ∀ t, afterFirstLogin io new user ∈ t.userCredential →
      Q (.error (.unauthorized "You don't have permission to access dashboard")) t)
    (unverified : compare new (io.hash new) = false → ∀ t, afterFirstLogin io new user ∈ t.userCredential →
      Q (.error (.badRequest "Password update failed.")) t)
    (passed : user.accountStatus ≠ .disabled → compare new (io.hash new) = true → ∀ t,
      Q (.ok (some (afterFirstLogin io new user))) t) :
    (firstLogin compare io user password newPassword).Returns Q s := by
  have stored {t : Table UserCredential} {a : UserCredential} {change : UserCredential → UserCredential} (keys : Row.Fixes change)
      (ha : a ∈ t) : change a ∈ t.update (·.id == a.id) change keys :=
    Table.mem_update_of_mem ha (beq_iff_eq.mpr rfl)
  have setsPassword : Row.Fixes fun user : UserCredential => { user with password := io.hash new } :=
    ⟨fun _ => rfl, fun _ _ => rfl⟩
  have clearsFirst : Row.Fixes fun user : UserCredential => { user with firstTimeLogin := some false } :=
    ⟨fun _ => rfl, fun _ _ => rfl⟩
  have hchanged := stored setsPassword huser
  have hstored := stored clearsFirst hchanged
  have hfound := Table.find_of_mem hstored
  have allowed : ¬¬compare password user.password = true := not_not.mpr hpassword
  simp only [firstLogin, changePassword, checkEnabled, hnew, Prog.returns_bind, Prog.returns_failIf, Prog.then_ok,
    Prog.then_error, allowed, false_implies, true_and, not_false_eq_true, forall_const]
  refine (returns_updateUser huser rfl).mpr ?_
  simp only [Prog.then_ok, Prog.returns_bind]
  refine (returns_updateUser hchanged (by rfl)).mpr ?_
  simp only [Prog.then_ok, Prog.then_error, Prog.returns_bind, returns_query, Prog.returns_orFail, Prog.returns_failIf,
    Prog.returns_pure]
  refine ⟨fun hnone => ?_, fun found hsome => ?_⟩
  · rw [show Table.find _ user.id = _ from hfound] at hnone
    cases hnone
  · obtain rfl := Option.some.inj (hfound.symm.trans hsome)
    refine ⟨fun hdisabled => disabled hdisabled _ hstored, fun henabled => ⟨fun hwrong => ?_, fun hright => ?_⟩⟩
    · exact unverified (Bool.eq_false_iff.mpr hwrong) _ hstored
    · exact passed henabled (not_not.mp hright) _

/-- A token is issued, unless the database refuses it. -/
theorem issueTokens_unseen {found : Option UserCredential} {t : Db} : (issueTokens jwt io found).Returns (Unseen s) t := by
  cases found with
  | none =>
    rintro _ ⟨⟩
  | some user =>
    simp only [issueTokens, createRefreshToken, Prog.returns_bind, returns_mutate, Prog.then_ok, Prog.then_error,
      Prog.returns_pure]
    refine ⟨fun e he _ herror hown => absurd ?_ hown, fun _ _ _ _ h => by cases h⟩
    obtain rfl := Except.error.inj herror
    exact created_ofDatabase he

theorem laterLogin_unseen : (laterLogin compare user password >>= issueTokens jwt io).Returns (Unseen s) s := by
  simp only [laterLogin, checkEnabled, Prog.returns_bind, Prog.returns_failIf, Prog.then_ok, Prog.then_error, Prog.returns_pure]
  exact ⟨fun _ _ _ _ => ⟨rfl, rfl⟩, fun _ => ⟨fun _ _ _ _ => ⟨rfl, rfl⟩, fun _ => issueTokens_unseen⟩⟩

/-- The first login changes nothing before it has the password and a new one. -/
theorem firstLogin_unseen (h : compare password user.password = true → truthy newPassword = none) :
    (firstLogin compare io user password newPassword >>= issueTokens jwt io).Returns (Unseen s) s := by
  simp only [firstLogin, Prog.returns_bind, Prog.returns_failIf, Prog.then_ok, Prog.then_error]
  refine ⟨fun _ _ _ _ => ⟨rfl, rfl⟩, fun hpassword => ?_⟩
  rw [h (not_not.mp hpassword)]
  exact issueTokens_unseen

end Login

/-- A refused login leaves no trace if and only if it is not a first login that stores a new password and fails
    afterwards. -/
theorem refused_login_leaves_no_trace_iff (jwt : Jwt) (compare : String → String → Bool) (io : Io) (email password : String)
    (newPassword : Option String) (s : Db) :
    (loginUser jwt compare io email password newPassword).Returns (Unseen s) s ↔
      FirstLoginPasses compare io email password newPassword s := by
  have unique : ∀ a b : UserCredential, (a.email == email) = true → (b.email == email) = true → Row.clash a b = true := by
    intro a b ha hb
    simp [Row.clash, beq_iff_eq.mp ha, beq_iff_eq.mp hb]
  constructor
  · intro h user huser hemail hfirst hpassword new hnew
    have hfind : s.userCredential.findBy (·.email == email) = some user :=
      (Table.findBy_eq_some unique).mpr ⟨huser, beq_iff_eq.mpr hemail⟩
    by_contra hfails
    -- the new password is stored, and the login refused
    have spoiled : (loginUser jwt compare io email password newPassword).Returns
        (fun r t => afterFirstLogin io new user ∈ t.userCredential ∧ ∃ e, r = .error e ∧ ¬OfDatabase e) s := by
      simp only [loginUser, identify, hfirst, if_true, Prog.returns_bind, returns_query, Prog.returns_orFail, Prog.then_ok,
        Prog.then_error, hfind, reduceCtorEq, false_implies, true_and, Option.some.injEq, forall_eq']
      refine returns_firstLogin_new huser hpassword hnew (fun _ t ht => ?_) (fun _ t ht => ?_) fun henabled hright => ?_
      · exact ⟨ht, _, rfl, by rintro ⟨_, ⟨⟩⟩⟩
      · exact ⟨ht, _, rfl, by rintro ⟨_, ⟨⟩⟩⟩
      · exact absurd ⟨henabled, hright⟩ hfails
    obtain ⟨hstored, e, hrefused, hown⟩ := spoiled
    have hsame := (h e hrefused hown).1
    rw [hsame] at hstored
    have hchanged : afterFirstLogin io new user = user := Table.eq_of_id hstored huser rfl
    rw [← hchanged] at hfirst
    cases hfirst
  · intro h
    simp only [loginUser, identify, Prog.returns_bind, returns_query, Prog.returns_orFail, Prog.then_ok, Prog.then_error]
    refine ⟨fun _ _ _ _ => ⟨rfl, rfl⟩, fun user hfind => ?_⟩
    obtain ⟨huser, hemail⟩ := Table.mem_of_findBy hfind
    split
    swap
    · exact Prog.returns_bind.mp laterLogin_unseen
    rename_i hfirst
    by_cases hasked : compare password user.password = true → truthy newPassword = none
    · exact Prog.returns_bind.mp (firstLogin_unseen hasked)
    obtain ⟨hpassword, hgiven⟩ := Classical.not_imp.mp hasked
    obtain ⟨new, hnew⟩ := Option.ne_none_iff_exists'.mp hgiven
    obtain ⟨henabled, hright⟩ := h user huser (beq_iff_eq.mp hemail) hfirst hpassword new hnew
    refine returns_firstLogin_new huser hpassword hnew (fun hdisabled => absurd hdisabled henabled) (fun hwrong => ?_)
      fun _ _ t => issueTokens_unseen
    rw [hwrong] at hright
    cases hright

/-! ### A demotion before the first login -/

namespace Demoted

/-- Ann has not logged in yet, and is made staff. -/
def neverLoggedIn : Db :=
  let invited : Db := { db with
    userCredential := {{ id := "ann-user", orgId := some "org", email := "ann@mail.com", password := "secret", role := .admin }} }
  ((StaffService.editStaffMemberDetails staffIo (some "org") "SuperAdmin" "ann" { role := some .staff } none).run invited).2

def loggingIn : Service LoginReply := loginUser Jwt.readable (· == ·) (io "1" "first") "ann@mail.com" "secret" (some "mine")

end Demoted

section Demoted
open Demoted

/-- Ann's login is refused, and has changed the password. -/
theorem refused_login_sets_password : ¬∀ (jwt : Jwt) (compare : String → String → Bool) (io : Io) (email password : String)
    (newPassword : Option String) (s : Db),
      (loginUser jwt compare io email password newPassword).Returns (Unseen s) s := fun h => by
  have unseen : Demoted.loggingIn.Returns (Unseen neverLoggedIn) neverLoggedIn := h _ _ _ _ _ _ _
  have refused : (Demoted.loggingIn.run neverLoggedIn).1 =
      .error (.unauthorized "You don't have permission to access dashboard") := by
    rfl
  have changed : (Demoted.loggingIn.run neverLoggedIn).2.userCredential ≠ neverLoggedIn.userCredential := by decide
  exact changed (unseen _ refused (by rintro ⟨_, ⟨⟩⟩)).1

end Demoted

end Vms.AuthService
