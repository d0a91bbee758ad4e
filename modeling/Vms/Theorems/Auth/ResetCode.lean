import Vms.Lib.Interleave
import Vms.Lib.OneTimeCode
import Vms.SystemSession
import Vms.Theorems.Auth.Step
import Vms.Theorems.Guard

/-! The codes with which users and system accounts reset their passwords. An account has at most one code, the
    latest, and a reset deletes it. -/

namespace Vms.ResetCodes
open Relational HttpException System

/-- The mail with the code is not delivered; the code is stored by then. -/
def undelivered : HttpException := .error "Failed to send email"

abbrev Reply := Except HttpException Unit

/-! ### Accounts of either kind -/

/-- What a call asks for. -/
inductive Demand where
  | code (hash : String → String) (otp email : String)
  | reset (resetToken email : String)
  | other

/-- The accounts of one kind: their codes, of which an account has one, the account that an email names, and what the
    calls about them ask for. -/
structure Accounts (α κ : Type) [Row α] where
  codes : Db → Table α
  owner : α → String
  token : α → String
  owned_once : ∀ a b, owner a = owner b → Row.clash a b = true
  named : Db → String → Option String
  asks : κ → Demand

section Accounts
variable {α κ : Type} [Row α]

/-- The code of an account. -/
def Accounts.code (K : Accounts α κ) (compare : String → String → Bool) (id : String) : OneTimeCode Db κ Reply String where
  stored s := ((K.codes s).findBy (K.owner · == id)).map K.token
  opens token code := compare code token = true
  issues code entry := ∃ hash email, K.asks entry.call = .code hash code email ∧ K.named entry.before email = some id ∧
    (entry.reply = .ok () ∨ entry.reply = .error undelivered)
  redeems code entry := ∃ email, K.asks entry.call = .reset code email ∧ K.named entry.before email = some id ∧
    entry.reply = .ok ()

/-- A code is hashed such that it alone matches. -/
def Accounts.Hashes (K : Accounts α κ) (compare : String → String → Bool) (op : κ) : Prop :=
  ∀ hash otp email, K.asks op = .code hash otp email → ∀ p, compare p (hash otp) = true ↔ p = otp

/-- What a call may do to the codes. -/
inductive Effect (K : Accounts α κ) (compare : String → String → Bool) (s : Db) (op : κ) (t : Db) : Reply → Prop where
  | refused {e : HttpException} (early : e = undelivered → ∀ hash otp email, K.asks op ≠ .code hash otp email)
    (same : K.codes t = K.codes s) : Effect K compare s op t (.error e)
  | other {r : Reply} (asks : K.asks op = .other) (same : K.codes t = K.codes s) : Effect K compare s op t r
  | issued {r : Reply} {hash : String → String} {otp email id : String} {row : α} (asks : K.asks op = .code hash otp email)
    (named : K.named s email = some id) (mem : row ∈ K.codes t) (owner : K.owner row = id) (token : K.token row = hash otp)
    (same : Table.Same (K.owner · ≠ id) (K.codes s) (K.codes t)) (reply : r = .ok () ∨ r = .error undelivered) :
    Effect K compare s op t r
  | redeemed {code email id : String} {row : α} (asks : K.asks op = .reset code email) (named : K.named s email = some id)
    (found : (K.codes s).findBy (K.owner · == id) = some row) (opens : compare code (K.token row) = true)
    (gone : K.codes t = (K.codes s).delete (Row.id · == Row.id row)) : Effect K compare s op t (.ok ())

variable {K : Accounts α κ} {compare : String → String → Bool} {s t : Db} {op : κ} {r : Reply} {id other : String}

theorem owned_once_beq (a b : α) (ha : (K.owner a == id) = true) (hb : (K.owner b == id) = true) : Row.clash a b = true :=
  K.owned_once a b ((beq_iff_eq.mp ha).trans (beq_iff_eq.mp hb).symm)

/-- The code of an account stays where only codes of another change. -/
theorem stored_of_same (h : Table.Same (K.owner · ≠ other) (K.codes s) (K.codes t)) (hne : id ≠ other) :
    (K.code compare id).stored t = (K.code compare id).stored s :=
  congrArg (Option.map _) (h.findBy_eq owned_once_beq fun row hrow => by rw [beq_iff_eq.mp hrow]; exact hne)

/-- A reset deletes the code of its account alone. -/
theorem same_of_redeemed {row : α} (found : (K.codes s).findBy (K.owner · == id) = some row) :
    Table.Same (K.owner · ≠ id) (K.codes s) ((K.codes s).delete (Row.id · == Row.id row)) := by
  obtain ⟨hmem, hown⟩ := Table.mem_of_findBy found
  refine .delete fun a ha hid => not_not.mpr ?_
  rw [Table.eq_of_id ha hmem (beq_iff_eq.mp hid)]
  exact beq_iff_eq.mp hown

theorem stored_of_redeemed {row : α} (found : (K.codes s).findBy (K.owner · == id) = some row)
    (gone : K.codes t = (K.codes s).delete (Row.id · == Row.id row)) : (K.code compare id).stored t = none := by
  obtain ⟨hmem, hown⟩ := Table.mem_of_findBy found
  refine Option.map_eq_none_iff.mpr (List.find?_eq_none.mpr fun a ha howns => ?_)
  rw [Table.mem_rows, gone, Table.mem_delete] at ha
  have heq := Table.eq_of_clash ha.1 hmem (owned_once_beq a row howns hown)
  simp [heq] at ha

theorem Effect.handles (h : Effect K compare s op t r) (hashes : K.Hashes compare op) :
    (K.code compare id).Handles ⟨s, op, r⟩ t := by
  cases h with
  | refused early same =>
    refine ⟨fun code => ?_, fun code => ?_, fun _ _ => by simp [Accounts.code, same]⟩
    · rintro ⟨_, _, hasks, -, hreply | hreply⟩
      · cases hreply
      · exact absurd hasks (early (Except.error.inj hreply) _ _ _)
    · rintro ⟨_, -, -, hreply⟩
      cases hreply
  | other asks same =>
    refine ⟨fun code => ?_, fun code => ?_, fun _ _ => by simp [Accounts.code, same]⟩
    · rintro ⟨_, _, hasks, -⟩
      cases asks.symm.trans hasks
    · rintro ⟨_, hasks, -⟩
      cases asks.symm.trans hasks
  | @issued _ hash otp email owner row asks named mem hown token same reply =>
    refine ⟨fun code => ?_, fun code => ?_, fun noIssue _ => stored_of_same same fun hid => ?_⟩
    · rintro ⟨_, _, hasks, hnamed, -⟩
      obtain ⟨rfl, rfl, rfl⟩ := Demand.code.inj (asks.symm.trans hasks)
      obtain rfl := Option.some.inj (named.symm.trans hnamed)
      have hfind : (K.codes t).findBy (K.owner · == owner) = some row :=
        (Table.findBy_eq_some owned_once_beq).mpr ⟨mem, beq_iff_eq.mpr hown⟩
      exact ⟨hash otp, by simp [Accounts.code, hfind, token], hashes hash otp email asks⟩
    · rintro ⟨_, hasks, -⟩
      cases asks.symm.trans hasks
    · rw [hid] at noIssue
      exact noIssue otp ⟨hash, email, asks, named, reply⟩
  | @redeemed code email owner row asks named found opens gone =>
    refine ⟨fun code' => ?_, fun code' => ?_, fun _ noRedeem => stored_of_same (gone ▸ same_of_redeemed found) fun hid => ?_⟩
    · rintro ⟨_, _, hasks, -⟩
      cases asks.symm.trans hasks
    · rintro ⟨_, hasks, hnamed, -⟩
      obtain ⟨rfl, rfl⟩ := Demand.reset.inj (asks.symm.trans hasks)
      obtain rfl := Option.some.inj (named.symm.trans hnamed)
      exact ⟨stored_of_redeemed found gone, K.token row, by simp [Accounts.code, found], opens⟩
    · rw [hid] at noRedeem
      exact noRedeem code ⟨email, asks, named, rfl⟩

/-- A reset of an account succeeds with the code that was sent last for it, and with which it was not reset since. -/
def SingleUse (K : Accounts α κ) (compare : String → String → Bool) (c : Run Db κ Reply) : Prop :=
  ∀ id later entry earlier code, c.log = later ++ entry :: earlier → (K.code compare id).redeems code entry →
    (K.code compare id).Latest code earlier

theorem singleUse_of_reach {init : Db → Prop} {step : Db → κ → Reply → Db → Prop} {c : Run Db κ Reply}
    (h : (logged init step).Reach (fun _ op => K.Hashes compare op) c) (none : ∀ s, init s → K.codes s = ∅)
    (effect : ∀ s op r t, step s op r t → Effect K compare s op t r) : SingleUse K compare c := by
  intro id later entry earlier code hlog hredeems
  have inOrder : (K.code compare id).InOrder c :=
    OneTimeCode.inOrder_of_reach h (fun s hs => by simp [Accounts.code, none s hs]) fun c op r t hashes hstep =>
      (effect c.state op r t hstep).handles hashes
  exact inOrder.redeemed later entry earlier hlog code hredeems

end Accounts

/-! ### Users -/

namespace User
open AuthService

inductive Operation where
  | forgotPassword (hash : String → String) (resetTokenId otp email : String)
  | resetPassword (io : Io) (dto : ResetPasswordDto)
  | changeOldPassword (io : Io) (userId oldPassword newPassword : String)
  | loginUser (io : Io) (email password : String) (newPassword : Option String)

def Operation.call (jwt : Jwt) (js : Js) (compare : String → String → Bool) : Operation → Service Unit
  | .forgotPassword hash resetTokenId otp email => do let _ ← AuthService.forgotPassword js hash resetTokenId otp email
  | .resetPassword io dto => do let _ ← AuthService.resetPassword js compare io dto
  | .changeOldPassword io userId oldPassword newPassword => do
    let _ ← AuthService.changeOldPassword compare io userId oldPassword newPassword
  | .loginUser io email password newPassword => do let _ ← AuthService.loginUser jwt compare io email password newPassword

def Operation.demand : Operation → Demand
  | .forgotPassword hash _ otp email => .code hash otp email
  | .resetPassword _ dto => .reset dto.resetToken dto.email
  | _ => .other

def accounts (js : Js) : Accounts ResetToken Operation where
  codes := Db.resetToken
  owner := ResetToken.userId
  token := ResetToken.token
  owned_once a b h := by simp [Row.clash, h]
  named s email := (s.userCredential.findBy (·.email == js.trim (js.toLowerCase email))).map (·.id)
  asks := Operation.demand

/-- These requests one after another, in which any statement may fail, from a store without codes. -/
def requests (jwt : Jwt) (js : Js) (compare : String → String → Bool) : System (Run Db Operation Reply) Operation :=
  logged (·.resetToken = ∅) fun s op r t => Prog.Exec (op.call jwt js compare) s r t

section Operations
variable {jwt : Jwt} {js : Js} {compare : String → String → Bool} {s : Db} {userId : String}

/-- The code of a user is stored in place of an earlier one, or nothing is. -/
theorem post_upsertResetToken {id token : String} {Q : Except HttpException Unit → Db → Prop}
    (fails : ∀ e, e ≠ undelivered → Q (.error e) s)
    (stored : ∀ row u, row ∈ u → row.userId = userId → row.token = token →
      Table.Same (fun row : ResetToken => row.userId ≠ userId) s.resetToken u → Q (.ok ()) { s with resetToken := u }) :
    (upsertResetToken id userId token).Post Q s := by
  have lost : connectionLost ≠ undelivered := by simp [connectionLost, undelivered]
  have violated : uniqueViolation ≠ undelivered := by simp [uniqueViolation, undelivered]
  have dangling : foreignKeyViolation ≠ undelivered := by simp [foreignKeyViolation, undelivered]
  rw [upsertResetToken, post_mutate]
  cases hfind : s.resetToken.findBy (·.userId == userId) with
  | some old =>
    obtain ⟨hmem, hown⟩ := Table.mem_of_findBy hfind
    cases hmodify : s.resetToken.modify (·.userId == userId) fun row => { row with token } with
    | none => simp [fails _ violated, fails _ lost]
    | some u =>
      have hnew : { old with token } ∈ u := (Table.mem_modify hmodify).mpr ⟨old, hmem, if_pos hown⟩
      have same : Table.Same (fun row : ResetToken => row.userId ≠ userId) s.resetToken u :=
        .modify hmodify fun row _ hrow => ⟨not_not.mpr (beq_iff_eq.mp hrow), not_not.mpr (beq_iff_eq.mp hrow)⟩
      have done := stored _ u hnew (beq_iff_eq.mp hown) rfl same
      simp [fails _ lost, done]
  | none =>
    cases hinsert : s.resetToken.insert { id, token, userId } with
    | none => simp [created, Except.map, fails _ violated, fails _ lost]
    | some u =>
      have done := stored _ u ((Table.mem_insert hinsert).mpr (Or.inr rfl)) rfl rfl (.insert hinsert (not_not.mpr rfl))
      by_cases huser : (s.userCredential.find userId).isSome
      · simp [created, huser, Except.map, fails _ lost, done]
      · simp [created, huser, Except.map, fails _ dangling, fails _ lost]

theorem forgotPassword_post {hash : String → String} {resetTokenId otp email : String}
    {Q : Except HttpException String → Db → Prop} (fails : ∀ e, e ≠ undelivered → Q (.error e) s)
    (stored : ∀ user row u, s.userCredential.findBy (·.email == js.trim (js.toLowerCase email)) = some user → row ∈ u →
      row.userId = user.id → row.token = hash otp → Table.Same (fun row : ResetToken => row.userId ≠ user.id) s.resetToken u →
      ∀ r, (∃ message, r = .ok message) ∨ r = .error undelivered → Q r { s with resetToken := u }) :
    (forgotPassword js hash resetTokenId otp email).Post Q s := by
  have failsQuery : Q (.error connectionLost) s := fails _ (by simp [connectionLost, undelivered])
  simp only [forgotPassword, Prog.post_bind, Prog.post_failIf, Prog.post_orFail, Prog.then_ok, Prog.then_error, post_query,
    failsQuery, and_true, Option.filter_eq_some_iff]
  refine ⟨fun _ => fails _ (by simp [undelivered]), fun _ => ⟨fun _ => fails _ (by simp [undelivered]), ?_⟩⟩
  rintro user ⟨huser, -⟩
  refine post_upsertResetToken fails fun row u hrow hown htoken same => ?_
  have done := stored user row u huser hrow hown htoken same
  simp only [Prog.then_ok, Prog.then_error, Prog.post_bind, post_outside, Prog.post_pure]
  exact ⟨done _ (Or.inl ⟨_, rfl⟩), done _ (Or.inr rfl)⟩

theorem resetPassword_post {io : Io} {dto : ResetPasswordDto} {Q : Except HttpException String → Db → Prop}
    (fails : ∀ e, Q (.error e) s)
    (done : ∀ user token, s.userCredential.findBy (·.email == js.trim (js.toLowerCase dto.email)) = some user →
      s.resetToken.findBy (·.userId == user.id) = some token → compare dto.resetToken token.token = true →
      ∀ t, t = { s with
        userCredential := s.userCredential.update (·.id == user.id) fun user => { user with password := io.hash dto.newPassword } } →
      (∀ e, Q (.error e) t) ∧ ∀ message, Q (.ok message) { t with resetToken := t.resetToken.delete (·.id == token.id) }) :
    (resetPassword js compare io dto).Post Q s := by
  simp only [resetPassword, updateUser, deleteResetToken, Prog.post_bind, Prog.post_failIf, Prog.post_orFail, Prog.then_ok,
    Prog.then_error, post_query, fails, implies_true, true_and, and_true, Option.filter_eq_some_iff, post_mutate_ite,
    Prog.post_pure]
  rintro user ⟨huser, -⟩ token htoken hcompare _
  obtain ⟨failsLate, deleted⟩ := done user token huser htoken (not_not.mp hcompare) _ rfl
  exact ⟨⟨fun _ => failsLate _, fun _ => deleted _⟩, failsLate _⟩

/-- A statement that leaves the codes alone. -/
def KeepsCodes (g : Db → Db) : Prop := ∀ s, (g s).resetToken = s.resetToken

theorem keepsCodes_id : KeepsCodes id := fun _ => rfl

theorem keepsCodes_mutate {α : Type} {op : Db → Except HttpException (α × Db)}
    (h : ∀ s a t, op s = .ok (a, t) → t.resetToken = s.resetToken) : (mutate op).Always KeepsCodes :=
  AuthService.always_mutate (P := fun s t => t.resetToken = s.resetToken) (fun _ => rfl) h

theorem always_updateUser {id : String} {change : UserCredential → UserCredential} {keys : Row.Fixes change} :
    (updateUser id change keys).Always KeepsCodes := by
  refine keepsCodes_mutate fun s _ t ht => ?_
  split at ht
  · cases ht
  · cases ht
    rfl

theorem always_loginUser {io : Io} {email password : String} {newPassword : Option String} :
    (loginUser jwt compare io email password newPassword).Always KeepsCodes := by
  refine (always_query keepsCodes_id).bind fun _ => Prog.always_orFail.bind fun _ => ?_
  refine (always_identify keepsCodes_id fun _ _ _ => always_updateUser).bind fun user => ?_
  cases user with
  | none => trivial
  | some user =>
    refine Prog.Always.bind (keepsCodes_mutate fun s _ t ht => ?_) fun _ => trivial
    obtain ⟨-, -, u, -, rfl⟩ := created_eq_ok.mp ht
    rfl

theorem keepsCodes_post {α : Type} {p : Service α} (h : p.Always KeepsCodes) : p.Post (fun _ t => t.resetToken = s.resetToken) s :=
  h.post (fun _ hg u hu => (hg u).trans hu) rfl

theorem call_effect {op : Operation} : (op.call jwt js compare).Post (fun r t => Effect (accounts js) compare s op t r) s := by
  cases op with
  | forgotPassword hash resetTokenId otp email =>
    rw [Operation.call, Prog.post_bind]
    refine forgotPassword_post (fun e he => .refused (fun h => absurd h he) rfl) fun user row u huser hrow hown htoken same r hr => ?_
    have named : (accounts js).named s email = some user.id := congrArg (Option.map _) huser
    have issued : ∀ {r' : Reply}, r' = .ok () ∨ r' = .error undelivered →
        Effect (accounts js) compare s (.forgotPassword hash resetTokenId otp email) { s with resetToken := u } r' :=
      fun hr' => .issued rfl named hrow hown htoken same hr'
    rcases hr with ⟨message, rfl⟩ | rfl
    · exact issued (Or.inl rfl)
    · exact issued (Or.inr rfl)
  | resetPassword io dto =>
    rw [Operation.call, Prog.post_bind]
    have failed : ∀ (e : HttpException) (t : Db), t.resetToken = s.resetToken →
        Effect (accounts js) compare s (.resetPassword io dto) t (.error e) :=
      fun e t ht => .refused (fun _ _ _ _ h => by cases h) ht
    refine resetPassword_post (fun e => failed e s rfl) fun user token huser htoken hcompare t ht => ⟨fun e => ?_, fun message => ?_⟩
    · exact failed e t (by rw [ht])
    · have named : (accounts js).named s dto.email = some user.id := congrArg (Option.map _) huser
      exact .redeemed rfl named htoken hcompare (by rw [ht]; rfl)
  | changeOldPassword io id oldPassword newPassword =>
    refine Prog.Post.mono (keepsCodes_post ?_) fun r t ht => .other rfl ht
    exact (always_changeOldPassword keepsCodes_id fun _ _ _ => always_updateUser).bind fun _ => trivial
  | loginUser io email password newPassword =>
    refine Prog.Post.mono (keepsCodes_post ?_) fun r t ht => .other rfl ht
    exact Prog.Always.bind always_loginUser fun _ => trivial

/-- Another account keeps its password and its code. -/
structure Spares (userId : String) (s t : Db) : Prop where
  users : Table.Same (·.id ≠ userId) s.userCredential t.userCredential
  codes : Table.Same (·.userId ≠ userId) s.resetToken t.resetToken
  systems : t.systemCredential = s.systemCredential
  systemCodes : t.resetTokenSystem = s.resetTokenSystem

theorem resetPassword_spares {io : Io} {dto : ResetPasswordDto} {t : Db} {message : String}
    (h : Prog.Exec (resetPassword js compare io dto) s (.ok message) t) (named : (accounts js).named s dto.email = some userId) :
    Spares userId s t := by
  suffices hpost : (resetPassword js compare io dto).Post (fun r t => ∀ message, r = .ok message → Spares userId s t) s from
    hpost.of_exec h message rfl
  refine resetPassword_post (fun e _ h => (by cases h)) fun user token huser htoken _ t ht => ⟨fun e _ h => (by cases h), fun _ _ _ => ?_⟩
  have found : (accounts js).named s dto.email = some user.id := congrArg (Option.map _) huser
  obtain rfl : user.id = userId := Option.some.inj (found.symm.trans named)
  subst ht
  refine ⟨?_, same_of_redeemed (K := accounts js) htoken, rfl, rfl⟩
  apply Table.Same.update
  · exact ⟨fun _ => rfl, fun _ _ => rfl⟩
  · intro other _ hother
    have hid : other.id = user.id := beq_iff_eq.mp hother
    exact ⟨not_not.mpr hid, not_not.mpr hid⟩

end Operations

end User

/-! ### System accounts -/

namespace SystemAccount
open SystemService

inductive Operation where
  | forgotPassword (hash : String → String) (resetTokenId otp email : String)
  | resetPassword (hash : String → String) (dto : ResetPasswordDto)

def Operation.call (js : Js) (compare : String → String → Bool) : Operation → Service Unit
  | .forgotPassword hash resetTokenId otp email => do let _ ← SystemService.forgotPassword js hash resetTokenId otp email
  | .resetPassword hash dto => do let _ ← SystemService.resetPassword js compare hash dto

def Operation.demand : Operation → Demand
  | .forgotPassword hash _ otp email => .code hash otp email
  | .resetPassword _ dto => .reset dto.resetToken dto.email

def accounts (js : Js) : Accounts ResetTokenSystem Operation where
  codes := Db.resetTokenSystem
  owner := ResetTokenSystem.systemId
  token := ResetTokenSystem.token
  owned_once a b h := by simp [Row.clash, h]
  named s email := (s.systemCredential.findBy (·.email == js.trim (js.toLowerCase email))).map (·.id)
  asks := Operation.demand

/-- These requests one after another, in which any statement may fail, from a store without codes. -/
def requests (js : Js) (compare : String → String → Bool) : System (Run Db Operation Reply) Operation :=
  logged (·.resetTokenSystem = ∅) fun s op r t => Prog.Exec (op.call js compare) s r t

section Operations
variable {js : Js} {compare : String → String → Bool} {s : Db} {systemId : String}

theorem post_upsertResetToken {id token : String} {Q : Except HttpException Unit → Db → Prop}
    (fails : ∀ e, e ≠ undelivered → Q (.error e) s)
    (stored : ∀ row u, row ∈ u → row.systemId = systemId → row.token = token →
      Table.Same (fun row : ResetTokenSystem => row.systemId ≠ systemId) s.resetTokenSystem u →
      Q (.ok ()) { s with resetTokenSystem := u }) : (upsertResetToken id systemId token).Post Q s := by
  have lost : connectionLost ≠ undelivered := by simp [connectionLost, undelivered]
  have violated : uniqueViolation ≠ undelivered := by simp [uniqueViolation, undelivered]
  have dangling : foreignKeyViolation ≠ undelivered := by simp [foreignKeyViolation, undelivered]
  rw [upsertResetToken, post_mutate]
  cases hfind : s.resetTokenSystem.findBy (·.systemId == systemId) with
  | some old =>
    obtain ⟨hmem, hown⟩ := Table.mem_of_findBy hfind
    cases hmodify : s.resetTokenSystem.modify (·.systemId == systemId) fun row => { row with token } with
    | none => simp [fails _ violated, fails _ lost]
    | some u =>
      have hnew : { old with token } ∈ u := (Table.mem_modify hmodify).mpr ⟨old, hmem, if_pos hown⟩
      have same : Table.Same (fun row : ResetTokenSystem => row.systemId ≠ systemId) s.resetTokenSystem u :=
        .modify hmodify fun row _ hrow => ⟨not_not.mpr (beq_iff_eq.mp hrow), not_not.mpr (beq_iff_eq.mp hrow)⟩
      have done := stored _ u hnew (beq_iff_eq.mp hown) rfl same
      simp [fails _ lost, done]
  | none =>
    cases hinsert : s.resetTokenSystem.insert { id, token, systemId } with
    | none => simp [created, Except.map, fails _ violated, fails _ lost]
    | some u =>
      have done := stored _ u ((Table.mem_insert hinsert).mpr (Or.inr rfl)) rfl rfl (.insert hinsert (not_not.mpr rfl))
      by_cases hsystem : (s.systemCredential.find systemId).isSome
      · simp [created, hsystem, Except.map, fails _ lost, done]
      · simp [created, hsystem, Except.map, fails _ dangling, fails _ lost]

theorem forgotPassword_post {hash : String → String} {resetTokenId otp email : String}
    {Q : Except HttpException String → Db → Prop} (fails : ∀ e, e ≠ undelivered → Q (.error e) s)
    (stored : ∀ system row u, s.systemCredential.findBy (·.email == js.trim (js.toLowerCase email)) = some system → row ∈ u →
      row.systemId = system.id → row.token = hash otp →
      Table.Same (fun row : ResetTokenSystem => row.systemId ≠ system.id) s.resetTokenSystem u →
      ∀ r, (∃ message, r = .ok message) ∨ r = .error undelivered → Q r { s with resetTokenSystem := u }) :
    (forgotPassword js hash resetTokenId otp email).Post Q s := by
  have failsQuery : Q (.error connectionLost) s := fails _ (by simp [connectionLost, undelivered])
  simp only [forgotPassword, Prog.post_bind, Prog.post_failIf, Prog.post_orFail, Prog.then_ok, Prog.then_error, post_query,
    failsQuery, and_true]
  refine ⟨fun _ => fails _ (by simp [undelivered]), fun _ => ⟨fun _ => fails _ (by simp [undelivered]), fun system hsystem => ?_⟩⟩
  refine post_upsertResetToken fails fun row u hrow hown htoken same => ?_
  have done := stored system row u hsystem hrow hown htoken same
  simp only [Prog.then_ok, Prog.then_error, Prog.post_bind, post_outside, Prog.post_pure]
  exact ⟨done _ (Or.inl ⟨_, rfl⟩), done _ (Or.inr rfl)⟩

theorem resetPassword_post {hash : String → String} {dto : ResetPasswordDto} {Q : Except HttpException String → Db → Prop}
    (fails : ∀ e, Q (.error e) s)
    (done : ∀ system token, s.systemCredential.findBy (·.email == js.trim (js.toLowerCase dto.email)) = some system →
      s.resetTokenSystem.findBy (·.systemId == system.id) = some token → compare dto.resetToken token.token = true →
      ∀ t, t = { s with systemCredential := s.systemCredential.update (·.id == system.id) fun system =>
        { system with password := hash dto.newPassword } } →
      (∀ e, Q (.error e) t) ∧
        ∀ message, Q (.ok message) { t with resetTokenSystem := t.resetTokenSystem.delete (·.id == token.id) }) :
    (resetPassword js compare hash dto).Post Q s := by
  simp only [resetPassword, updateSystem, deleteResetToken, Prog.post_bind, Prog.post_failIf, Prog.post_orFail, Prog.then_ok,
    Prog.then_error, post_query, fails, implies_true, true_and, and_true, post_mutate_ite, Prog.post_pure]
  intro system hsystem token htoken hcompare _
  obtain ⟨failsLate, deleted⟩ := done system token hsystem htoken (not_not.mp hcompare) _ rfl
  exact ⟨⟨fun _ => failsLate _, fun _ => deleted _⟩, failsLate _⟩

theorem call_effect {op : Operation} : (op.call js compare).Post (fun r t => Effect (accounts js) compare s op t r) s := by
  cases op with
  | forgotPassword hash resetTokenId otp email =>
    rw [Operation.call, Prog.post_bind]
    refine forgotPassword_post (fun e he => .refused (fun h => absurd h he) rfl)
      fun system row u hsystem hrow hown htoken same r hr => ?_
    have named : (accounts js).named s email = some system.id := congrArg (Option.map _) hsystem
    have issued : ∀ {r' : Reply}, r' = .ok () ∨ r' = .error undelivered →
        Effect (accounts js) compare s (.forgotPassword hash resetTokenId otp email) { s with resetTokenSystem := u } r' :=
      fun hr' => .issued rfl named hrow hown htoken same hr'
    rcases hr with ⟨message, rfl⟩ | rfl
    · exact issued (Or.inl rfl)
    · exact issued (Or.inr rfl)
  | resetPassword hash dto =>
    rw [Operation.call, Prog.post_bind]
    have failed : ∀ (e : HttpException) (t : Db), t.resetTokenSystem = s.resetTokenSystem →
        Effect (accounts js) compare s (.resetPassword hash dto) t (.error e) :=
      fun e t ht => .refused (fun _ _ _ _ h => by cases h) ht
    refine resetPassword_post (fun e => failed e s rfl) fun system token hsystem htoken hcompare t ht => ⟨fun e => ?_, fun message => ?_⟩
    · exact failed e t (by rw [ht])
    · have named : (accounts js).named s dto.email = some system.id := congrArg (Option.map _) hsystem
      exact .redeemed rfl named htoken hcompare (by rw [ht]; rfl)

/-- Another account keeps its password and its code. -/
structure Spares (systemId : String) (s t : Db) : Prop where
  systems : Table.Same (·.id ≠ systemId) s.systemCredential t.systemCredential
  codes : Table.Same (·.systemId ≠ systemId) s.resetTokenSystem t.resetTokenSystem
  users : t.userCredential = s.userCredential
  userCodes : t.resetToken = s.resetToken

theorem resetPassword_spares {hash : String → String} {dto : ResetPasswordDto} {t : Db} {message : String}
    (h : Prog.Exec (resetPassword js compare hash dto) s (.ok message) t)
    (named : (accounts js).named s dto.email = some systemId) : Spares systemId s t := by
  suffices hpost : (resetPassword js compare hash dto).Post (fun r t => ∀ message, r = .ok message → Spares systemId s t) s from
    hpost.of_exec h message rfl
  refine resetPassword_post (fun e _ h => (by cases h)) fun system token hsystem htoken _ t ht =>
    ⟨fun e _ h => (by cases h), fun _ _ _ => ?_⟩
  have found : (accounts js).named s dto.email = some system.id := congrArg (Option.map _) hsystem
  obtain rfl : system.id = systemId := Option.some.inj (found.symm.trans named)
  subst ht
  refine ⟨?_, same_of_redeemed (K := accounts js) htoken, rfl, rfl⟩
  apply Table.Same.update
  · exact ⟨fun _ => rfl, fun _ _ => rfl⟩
  · intro other _ hother
    have hid : other.id = system.id := beq_iff_eq.mp hother
    exact ⟨not_not.mpr hid, not_not.mpr hid⟩

end Operations

end SystemAccount

/-! ### Runs -/

/-- Codes are used once and the latest only, in every run of the requests of users and in every run of those of system
    accounts, and a reset spares every other account. -/
theorem codes_single_use (jwt : Jwt) (js : Js) (compare : String → String → Bool) (c : Run Db User.Operation Reply)
    (h : (User.requests jwt js compare).Reach (fun _ op => (User.accounts js).Hashes compare op) c)
    (d : Run Db SystemAccount.Operation Reply)
    (h' : (SystemAccount.requests js compare).Reach (fun _ op => (SystemAccount.accounts js).Hashes compare op) d) :
    (SingleUse (User.accounts js) compare c ∧ ∀ io dto s message t userId,
      Prog.Exec (AuthService.resetPassword js compare io dto) s (.ok message) t →
        (User.accounts js).named s dto.email = some userId → User.Spares userId s t) ∧
    (SingleUse (SystemAccount.accounts js) compare d ∧ ∀ hash dto s message t systemId,
      Prog.Exec (SystemService.resetPassword js compare hash dto) s (.ok message) t →
        (SystemAccount.accounts js).named s dto.email = some systemId → SystemAccount.Spares systemId s t) := by
  refine ⟨⟨?_, fun io dto s message t userId => User.resetPassword_spares⟩, ?_, fun hash dto s message t systemId =>
    SystemAccount.resetPassword_spares⟩
  · exact singleUse_of_reach h (fun _ hs => hs) fun s op r t hexec => User.call_effect.of_exec hexec
  · exact singleUse_of_reach h' (fun _ hs => hs) fun s op r t hexec => SystemAccount.call_effect.of_exec hexec

/-! ### A user and a kiosk that forget their passwords -/

namespace Forgetful

def js : Js := { toLowerCase := id, trim := id, toLocaleString := fun _ => "" }

def hash (password : String) : String := "#" ++ password

def compare (password hashed : String) : Bool := hashed == hash password

def db : Db where
  userCredential := {{ id := "ann", email := "ann@mail.com", role := .admin }}
  systemCredential := {{ id := "kiosk", orgId := "org", email := "kiosk@mail.com" }}

def reset (email resetToken : String) : ResetPasswordDto := { email, resetToken, newPassword := "new" }

/-- Ann asks for a code twice, and uses the second one. -/
def ann : Run Db User.Operation Reply :=
  .replay (fun op => (op.call Jwt.readable js compare).run) db
    [.forgotPassword hash "1" "111111" "ann@mail.com", .forgotPassword hash "2" "222222" "ann@mail.com",
      .resetPassword { now := 0, refreshTokenId := "", refreshToken := "", hash } (reset "ann@mail.com" "222222")]

def kiosk : Run Db SystemAccount.Operation Reply :=
  .replay (fun op => (op.call js compare).run) db
    [.forgotPassword hash "1" "333333" "kiosk@mail.com", .resetPassword hash (reset "kiosk@mail.com" "333333")]

end Forgetful

section Forgetful
open Forgetful

theorem compare_hash (otp p : String) : Forgetful.compare p (Forgetful.hash otp) = true ↔ p = otp := by
  rw [Forgetful.compare, beq_iff_eq, Forgetful.hash, Forgetful.hash, String.append_right_inj]
  exact eq_comm

theorem ann_reach : (User.requests Jwt.readable Forgetful.js Forgetful.compare).Reach
    (fun _ op => (User.accounts Forgetful.js).Hashes Forgetful.compare op) ann := by
  refine .call (.call (.call (.init ⟨rfl, rfl⟩) ?_ (Prog.exec_run _ _)) ?_ (Prog.exec_run _ _)) ?_ (Prog.exec_run _ _)
  · intro _ _ _ h p
    obtain ⟨rfl, rfl, rfl⟩ := Demand.code.inj h
    exact compare_hash _ p
  · intro _ _ _ h p
    obtain ⟨rfl, rfl, rfl⟩ := Demand.code.inj h
    exact compare_hash _ p
  · intro _ _ _ h
    cases h

theorem kiosk_reach : (SystemAccount.requests Forgetful.js Forgetful.compare).Reach
    (fun _ op => (SystemAccount.accounts Forgetful.js).Hashes Forgetful.compare op) kiosk := by
  refine .call (.call (.init ⟨rfl, rfl⟩) ?_ (Prog.exec_run _ _)) ?_ (Prog.exec_run _ _)
  · intro _ _ _ h p
    obtain ⟨rfl, rfl, rfl⟩ := Demand.code.inj h
    exact compare_hash _ p
  · intro _ _ _ h
    cases h

/-- Ann's second code and the kiosk's code are the latest. -/
theorem codes_single_use_forgetful :
    ((User.accounts Forgetful.js).code Forgetful.compare "ann").Latest "222222" ann.log.tail ∧
      ((SystemAccount.accounts Forgetful.js).code Forgetful.compare "kiosk").Latest "333333" kiosk.log.tail := by
  have h := codes_single_use Jwt.readable Forgetful.js Forgetful.compare ann ann_reach kiosk kiosk_reach
  refine ⟨h.1.1 "ann" [] _ _ "222222" rfl ⟨"ann@mail.com", rfl, ?_, ?_⟩, h.2.1 "kiosk" [] _ _ "333333" rfl ⟨"kiosk@mail.com", rfl, ?_, ?_⟩⟩
  all_goals decide

end Forgetful

end Vms.ResetCodes
