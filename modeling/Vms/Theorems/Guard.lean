import Mathlib.Logic.Equiv.List
import Vms.Guard

/-! Which tokens the guard accepts. -/

namespace Vms
open Relational HttpException

/-- A stored token is found. -/
theorem findBy_token {s : Db} {row : RefreshToken} (hrow : row ∈ s.refreshToken) :
    s.refreshToken.findBy (·.token == row.token) = some row :=
  (Table.findBy_eq_some fun _ _ ha hb => beq_iff_eq.mpr ((beq_iff_eq.mp ha).trans (beq_iff_eq.mp hb).symm)).mpr
    ⟨hrow, beq_self_eq_true _⟩

/-- A stored token can be replaced by one that no row has. -/
theorem exists_rotation {s : Db} {row : RefreshToken} {token : String} (expiryDate : Date) (hrow : row ∈ s.refreshToken)
    (fresh : ∀ r ∈ s.refreshToken, r.token ≠ token) :
    ∃ u, s.refreshToken.modify (·.id == row.id) (fun row => { row with token, expiryDate }) = some u := by
  refine Table.modify_of_free (fun _ _ => beq_iff_eq) hrow fun r hr hid => ?_
  have hid : r.id ≠ row.id := hid
  simp [Row.conflict, Row.clash, Row.id, hid, fresh r hr]

/-- The guard accepts a request with the token. -/
def Accepts (jwt : Jwt) (now : Date) (s : Db) (token : String) : Prop :=
  ∃ caller, ((canActivate jwt now (some ("Bearer " ++ token))).run s).1 = .ok caller

/-- A payload that names a system account names the session that the account is in. -/
def InSession (s : Db) (payload : JwtPayload) : Prop :=
  ∀ systemId, truthy payload.systemId = some systemId → ∃ system ∈ s.systemCredential, system.id = systemId ∧
    system.activityStatus = .loggedIn ∧
      ∃ session, session ≠ "" ∧ system.sessionId = some session ∧ payload.sessionId = some session

section Guard
variable {jwt : Jwt} {now : Date} {s : Db} {token : String} {payload : JwtPayload}

theorem extractTokenFromHeader_bearer (hblank : ' ' ∉ token.toList) :
    extractTokenFromHeader (some ("Bearer " ++ token)) = some token := by
  have hwords : ("Bearer " ++ token).toList = [' '].intercalate ["Bearer".toList, token.toList] := by simp [List.intercalate]
  have hsplit : ("Bearer " ++ token).toList.splitOn ' ' = ["Bearer".toList, token.toList] := by
    rw [hwords, List.splitOn_intercalate]
    · intro word hword
      rcases List.mem_cons.mp hword with rfl | hword
      · decide
      · rwa [List.mem_singleton.mp hword]
    · exact List.cons_ne_nil _ _
  simp only [extractTokenFromHeader, Option.bind_some, hsplit, List.getElem?_cons_succ, List.getElem?_cons_zero, Option.map_some,
    String.ofList_toList]

theorem returns_checkSession {Q : Except HttpException Unit → Db → Prop} (hQ : ∀ e, ¬Q (.error e) s) :
    (checkSession payload (truthy payload.systemId)).Returns Q s ↔ InSession s payload ∧ Q (.ok ()) s := by
  cases hsystem : truthy payload.systemId with
  | none =>
    refine ⟨fun h => ⟨fun _ h' => ?_, h⟩, And.right⟩
    rw [hsystem] at h'
    cases h'
  | some systemId =>
    simp only [checkSession, Prog.returns_bind, returns_query, Prog.then_ok, Prog.then_error, Prog.returns_orFail,
      Prog.returns_failIf, hQ, Table.find_eq_some, imp_false, not_or, not_not]
    constructor
    · rintro ⟨hsome, found⟩
      obtain ⟨system, hsystem'⟩ := Option.ne_none_iff_exists'.mp hsome
      obtain ⟨hmem, hid⟩ := Table.find_eq_some.mp hsystem'
      obtain ⟨hstatus, hrest⟩ := found system ⟨hmem, hid⟩
      obtain ⟨⟨hsession, -, hsame⟩, hok⟩ := hrest hstatus
      obtain ⟨session, hsession⟩ := Option.ne_none_iff_exists'.mp hsession
      obtain ⟨hof, hne⟩ := truthy_eq_some.mp hsession
      refine ⟨fun id hid' => ?_, hok ⟨by simp [hsession], by simp [← hsame, hsession], hsame⟩⟩
      obtain rfl := Option.some.inj (hsystem.symm.trans hid')
      exact ⟨system, hmem, hid, hstatus, session, hne, hof, hsame ▸ hof⟩
    · rintro ⟨hin, hok⟩
      obtain ⟨system, hmem, hid, hstatus, session, hne, hof, hpayload⟩ := hin systemId hsystem
      have hfind : s.systemCredential.find systemId = some system := Table.find_eq_some.mpr ⟨hmem, hid⟩
      refine ⟨by simp [hfind], fun other hother => ?_⟩
      obtain rfl : other = system := Table.eq_of_id hother.1 hmem (hother.2.trans hid.symm)
      refine ⟨hstatus, fun _ => ⟨⟨?_, ?_, hof.trans hpayload.symm⟩, fun _ => hok⟩⟩
      · simp [truthy, hof, hne]
      · simp [truthy, hpayload, hne]

/-- The guard accepts a token that verifies, for a user, or for a system account in the session of the token. -/
theorem accepts_iff (hne : token ≠ "") (hblank : ' ' ∉ token.toList) : Accepts jwt now s token ↔
    ∃ payload, jwt.verify now token = .ok payload ∧ InSession s payload ∧
      ¬(truthy payload.systemId = none ∧ truthy payload.userId = none) := by
  have htoken : truthy (extractTokenFromHeader (some ("Bearer " ++ token))) = some token := by
    rw [extractTokenFromHeader_bearer hblank]
    exact truthy_eq_some.mpr ⟨rfl, hne⟩
  change (canActivate jwt now (some ("Bearer " ++ token))).Returns (fun r _ => ∃ caller, r = .ok caller) s ↔ _
  simp only [canActivate, authenticate, htoken, Prog.returns_bind, Prog.returns_orFail, Prog.returns_orElse, Prog.then_ok,
    Prog.returns_ofExcept, Option.some.injEq, forall_eq', reduceCtorEq, false_implies, true_and]
  cases hverify : jwt.verify now token with
  | error e => simp
  | ok payload =>
    simp only [Prog.then_ok, Prog.returns_bind, Except.ok.injEq, exists_eq_left']
    rw [returns_checkSession (by simp)]
    simp

/-- A signed token is accepted until it expires, for a user, or for a system account in the session of the token. -/
theorem accepts_sign_iff {expiresIn : String} {issued : Date} : Accepts jwt now s (jwt.sign expiresIn issued payload) ↔
    jwt.verify now (jwt.sign expiresIn issued payload) ≠ .error tokenExpired ∧ InSession s payload ∧
      ¬(truthy payload.systemId = none ∧ truthy payload.userId = none) := by
  rw [accepts_iff (jwt.sign_ne expiresIn issued payload) (jwt.sign_blank expiresIn issued payload)]
  rcases jwt.verify_sign expiresIn issued payload now with hverify | hverify
  · simp [hverify]
  · simp [hverify]

/-- A token that names neither a user nor a session is refused. -/
theorem not_accepts_sign {expiresIn : String} {issued : Date} (huser : payload.userId = none)
    (hsession : payload.sessionId = none) : ¬Accepts jwt now s (jwt.sign expiresIn issued payload) := by
  rw [accepts_sign_iff]
  rintro ⟨-, hin, hnamed⟩
  cases hsystem : truthy payload.systemId with
  | none => exact hnamed ⟨hsystem, by rw [huser]; rfl⟩
  | some systemId =>
    obtain ⟨_, _, _, _, session, _, _, hpayload⟩ := hin systemId hsystem
    rw [hsession] at hpayload
    cases hpayload

/-- A token for a system account is accepted in the session of the token only. -/
theorem accepts_system_iff {expiresIn session : String} {issued : Date} {systemId : String}
    (hpayload : payload.systemId = some systemId) (hne : systemId ≠ "") (hsession : payload.sessionId = some session)
    (hsessionNe : session ≠ "") :
    Accepts jwt now s (jwt.sign expiresIn issued payload) ↔
      jwt.verify now (jwt.sign expiresIn issued payload) ≠ .error tokenExpired ∧
        ∃ system ∈ s.systemCredential, system.id = systemId ∧ system.activityStatus = .loggedIn ∧
          system.sessionId = some session := by
  have htruthy : truthy payload.systemId = some systemId := truthy_eq_some.mpr ⟨hpayload, hne⟩
  rw [accepts_sign_iff]
  refine and_congr_right fun _ => ?_
  simp only [InSession, htruthy, Option.some.injEq, forall_eq', hsession, reduceCtorEq, false_and, not_false_eq_true, and_true]
  constructor
  · rintro ⟨system, hmem, hid, hstatus, own, -, hown, rfl⟩
    exact ⟨system, hmem, hid, hstatus, hown⟩
  · rintro ⟨system, hmem, hid, hstatus, hown⟩
    exact ⟨system, hmem, hid, hstatus, session, hsessionNe, hown, rfl⟩

end Guard

/-! ### Readable tokens -/

namespace Jwt

/-- The text of a payload as numbers. -/
def codes (value : Option String) : Option (List Nat) := value.map fun text => text.toList.map Char.toNat

def text (value : Option (List Nat)) : Option String := value.map fun codes => String.ofList (codes.map Char.ofNat)

@[simp] theorem text_codes (value : Option String) : text (codes value) = value := by
  cases value with
  | none => rfl
  | some value =>
    have hchars : (Char.ofNat ∘ Char.toNat) = id := funext Char.ofNat_toNat
    simp [text, codes, hchars]

def encode (payload : JwtPayload) : Nat :=
  Encodable.encode (codes payload.orgId, codes payload.userId, codes payload.role, codes payload.systemId, codes payload.sessionId)

def decode (code : Nat) : Option JwtPayload :=
  (Encodable.decode code :
      Option (Option (List Nat) × Option (List Nat) × Option (List Nat) × Option (List Nat) × Option (List Nat))).map
    fun fields => { orgId := text fields.1, userId := text fields.2.1, role := text fields.2.2.1,
                    systemId := text fields.2.2.2.1, sessionId := text fields.2.2.2.2 }

theorem decode_encode (payload : JwtPayload) : decode (encode payload) = some payload := by
  simp [decode, encode]

/-- Tokens that never expire and spell their payload in unary. -/
def readable : Jwt where
  sign _ _ payload := String.ofList (List.replicate (encode payload + 1) 'x')
  verify _ token :=
    match decode (token.toList.length - 1) with
    | some payload => .ok payload
    | none => .error (.error "jwt malformed")
  verify_sign _ _ payload _ := by
    left
    simp [decode_encode]
  sign_ne _ _ _ h := by
    have hnil := congrArg String.toList h
    simp at hnil
  sign_blank _ _ _ h := by
    simp at h

theorem readable_verify {expiresIn : String} {issued now : Date} {payload : JwtPayload} :
    readable.verify now (readable.sign expiresIn issued payload) = .ok payload := by
  simp [readable, decode_encode]

end Jwt

end Vms
