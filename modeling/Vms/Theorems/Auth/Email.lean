import Vms.Theorems.Guard
import Vms.Theorems.Staff.Step
import Vms.Theorems.Visit.Step
import Vms.Auth

/-! Under which email an account or a visit is stored, and under which it is looked up. Some requests trim the
    email that they are given and put it in lower case, and others take it as it is: what is stored by one is
    found by another if both do the same, or the email is in lower case and trimmed. -/

namespace Vms.Emails
open Relational HttpException AuthService StaffService VisitService

def normalized (js : Js) (email : String) : String := js.trim (js.toLowerCase email)

/-! ### Accounts -/

/-- A request that stores an email for an account. -/
inductive Writer where
  | registerRootUser (hash : String → String) (userId password : String)
  | addStaffMember (io : StaffService.Io) (orgId : Option String) (role : String) (dto : AddStaffMemberDto) (qOrgId : Option String)
  | editStaffMemberDetails (io : StaffService.Io) (orgId : Option String) (role staffId : String) (dto : EditStaffMemberDto)
    (qOrgId : Option String)

def write (js : Js) (email : String) : Writer → Service Unit
  | .registerRootUser hash userId password => do let _ ← registerRootUser js hash userId { email, password }
  | .addStaffMember io orgId role dto qOrgId => do let _ ← addStaffMember js io orgId role { dto with email } qOrgId
  | .editStaffMemberDetails io orgId role staffId dto qOrgId => do
    let _ ← editStaffMemberDetails io orgId role staffId { dto with email := some email } qOrgId

/-- The account that the email is stored for: a new one, or that of the staff member. -/
def Writer.account (s : Db) : Writer → String
  | .registerRootUser _ userId _ => userId
  | .addStaffMember io _ _ _ _ => io.userId 0
  | .editStaffMemberDetails io _ _ staffId _ _ => (((s.staff.find staffId).bind (truthy ·.userId)).getD (io.userId 0))

def Writer.normalizes : Writer → Bool
  | .editStaffMemberDetails .. => false
  | _ => true

/-- A request that looks an account up by an email. -/
inductive Reader where
  | loginUser (jwt : Jwt) (compare : String → String → Bool) (io : AuthService.Io) (password : String) (newPassword : Option String)
  | forgotPassword (hash : String → String) (resetTokenId otp : String)
  | resetPassword (compare : String → String → Bool) (io : AuthService.Io) (resetToken newPassword : String)

def read (js : Js) (email : String) : Reader → Service Unit
  | .loginUser jwt compare io password newPassword => do let _ ← loginUser jwt compare io email password newPassword
  | .forgotPassword hash resetTokenId otp => do let _ ← forgotPassword js hash resetTokenId otp email
  | .resetPassword compare io resetToken newPassword => do
    let _ ← resetPassword js compare io { email, resetToken, newPassword }

def Reader.normalizes : Reader → Bool
  | .loginUser .. => false
  | _ => true

/-- The email as a request uses it. -/
def used (js : Js) (normalizes : Bool) (email : String) : String := if normalizes then normalized js email else email

/-- The account that a request looks up. -/
def Reader.find (js : Js) (email : String) (r : Reader) (s : Db) : Option UserCredential :=
  s.userCredential.findBy (·.email == used js r.normalizes email)

section Accounts
variable {js : Js} {email : String} {s t : Db}

/-- The first statement of these requests is the query for the account; the rest sees nothing but its result. -/
theorem read_eq (r : Reader) (hemail : email ≠ "") :
    ∃ rest : Option UserCredential → Service Unit, read js email r = query (r.find js email) >>= rest := by
  cases r with
  | loginUser jwt compare io password newPassword =>
    simp only [read, loginUser, Prog.bind_assoc]
    exact ⟨_, rfl⟩
  | forgotPassword hash resetTokenId otp =>
    simp only [read, forgotPassword, Prog.bind_assoc, Prog.failIf_bind_of_not hemail]
    exact ⟨_, rfl⟩
  | resetPassword compare io resetToken newPassword =>
    simp only [read, resetPassword, Prog.bind_assoc]
    exact ⟨_, rfl⟩

/-- The account `id` has the email `stored`. -/
def Stores (t : Db) (id stored : String) : Prop := ∃ user ∈ t.userCredential, user.id = id ∧ user.email = stored

theorem registerRootUser_stores {hash : String → String} {userId : String} {dto : RegisterRootDto} :
    (registerRootUser js hash userId dto).Post (AllOrNothing s fun _ t => Stores t userId (normalized js dto.email)) s := by
  simp only [registerRootUser, AuthService.createUser, Prog.post_bind, Prog.post_failIf, Prog.then_ok, Prog.then_error, post_query,
    post_mutate, created_eq_ok, Prog.post_pure, allOrNothing_error, allOrNothing_ok, implies_true, true_and, and_true]
  rintro - - user t ⟨-, rfl, u, hu, rfl⟩
  exact ⟨_, (Table.mem_insert hu).mpr (Or.inr rfl), rfl, rfl⟩

theorem write_stores {w : Writer} (h : Prog.Exec (write js email w) s (.ok ()) t) :
    Stores t (w.account s) (used js w.normalizes email) := by
  cases w with
  | registerRootUser hash userId password =>
    obtain ⟨details, h⟩ := Prog.Exec.of_discard h
    exact registerRootUser_stores.of_exec h
  | addStaffMember io orgId role dto qOrgId =>
    obtain ⟨reply, h⟩ := Prog.Exec.of_discard h
    obtain ⟨target, staff, user, -, hired⟩ := addStaffMember_post.of_exec h
    exact ⟨user, (hired.user_mem user).mpr (Or.inr rfl), hired.userId, hired.email.trans hired.staffEmail⟩
  | editStaffMemberDetails io orgId role staffId dto qOrgId =>
    obtain ⟨message, h⟩ := Prog.Exec.of_discard h
    have account : ∀ staff, MayEdit s orgId role staffId qOrgId staff →
        (Writer.editStaffMemberDetails io orgId role staffId dto qOrgId).account s = (truthy staff.userId).getD (io.userId 0) := by
      intro staff may
      have hfind : s.staff.find staffId = some staff := Table.find_eq_some.mpr ⟨may.mem, may.id⟩
      simp only [Writer.account, hfind, Option.bind_some]
    rcases editStaffMemberDetails_post.of_exec h with
      ⟨staff, u, user, staffs, users, may, room, department, linked, user_mem, hstaffs, husers⟩ |
      ⟨staff, u, staffs, user, users, linkeds, may, room, department, unlinked, id, email, hstaffs, husers, hlinked⟩
    · rw [account staff may, linked, Option.getD_some]
      exact ⟨_, (Table.mem_modify husers).mpr ⟨user, user_mem, if_pos (beq_iff_eq.mpr rfl)⟩, rfl, rfl⟩
    · rw [account staff may, unlinked, Option.getD_none]
      exact ⟨user, (Table.mem_insert husers).mpr (Or.inr rfl), id, (Option.some.inj email).symm⟩

/-- The email is unique, so an account is found under its own email and no other. -/
theorem Stores.find_iff {id stored looked : String} (h : Stores t id stored) :
    (∃ user, t.userCredential.findBy (·.email == looked) = some user ∧ user.id = id) ↔ stored = looked := by
  obtain ⟨user, huser, rfl, rfl⟩ := h
  constructor
  · rintro ⟨other, hfind, hid⟩
    obtain ⟨hother, hemail⟩ := Table.mem_of_findBy hfind
    rw [Table.eq_of_id huser hother hid.symm]
    exact beq_iff_eq.mp hemail
  · rintro rfl
    have unique : ∀ a b : UserCredential, (a.email == user.email) = true → (b.email == user.email) = true →
        Row.clash a b = true := by
      intro a b ha hb
      simp [Row.clash, beq_iff_eq.mp ha, beq_iff_eq.mp hb]
    exact ⟨user, (Table.findBy_eq_some unique).mpr ⟨huser, beq_iff_eq.mpr rfl⟩, rfl⟩

theorem used_eq_iff {a b : Bool} : used js a email = used js b email ↔ a = b ∨ normalized js email = email := by
  cases a with
  | false =>
    cases b with
    | false => simp
    | true => simp [used, eq_comm]
  | true =>
    cases b with
    | false => simp [used]
    | true => simp

end Accounts

/-! ### Visits -/

section Visits
variable {js : Js} {s t : Db} {io : VisitService.Io} {orgId email : String}

/-- Who may ask for the status of a visit: a system account. -/
structure MayAsk (t : Db) (orgId email account : String) : Prop where
  account : (t.systemCredential.find account).isSome
  org : orgId ≠ ""
  email : email ≠ ""

/-- The visits among which `checkMeetingStatus` takes the latest. -/
def Today (day : ServerDay) (now : Date) (orgId email : String) (v : Visit) : Bool :=
  v.email == email && v.orgId == orgId && decide (day.startOf now ≤ v.createdAt ∧ v.createdAt ≤ day.endOf now)

theorem checkMeetingStatus_iff {day : ServerDay} {account : String} {reply : MeetingStatusReply}
    (may : MayAsk t orgId email account) :
    (checkMeetingStatus day io (some account) "System" orgId email).run t = (.ok reply, t) ↔
      ∃ v, (io.visits.desc (·.createdAt) (t.visit.filter (Today day io.now orgId email))).head? = some v ∧
        v.status ≠ .accepted ∧ reply = { status := v.status, visitId := v.id } := by
  obtain ⟨system, hsystem⟩ := Option.isSome_iff_exists.mp may.account
  have h : (checkMeetingStatus day io (some account) "System" orgId email).Returns (fun r u => (r, u) = (.ok reply, t) ↔
      ∃ v, (io.visits.desc (·.createdAt) (t.visit.filter (Today day io.now orgId email))).head? = some v ∧
        v.status ≠ .accepted ∧ reply = { status := v.status, visitId := v.id }) t := by
    simp only [checkMeetingStatus, Prog.returns_bind, Prog.returns_failIf, Prog.returns_orFail, returns_query, Prog.then_ok,
      Prog.then_error, hsystem, may.org, may.email, ne_eq, not_true, or_self, false_implies, true_and, reduceCtorEq,
      Option.some.injEq, forall_eq', not_false_eq_true, forall_const]
    change ((io.visits.desc (·.createdAt) (t.visit.filter (Today day io.now orgId email))).head? = none → _) ∧
      ∀ v, (io.visits.desc (·.createdAt) (t.visit.filter (Today day io.now orgId email))).head? = some v → _
    constructor
    · intro hnone
      rw [hnone]
      simp
    · intro v hsome
      rw [hsome]
      refine ⟨fun haccepted => ?_, fun hstatus => ?_⟩
      · simp [haccepted]
      · rw [Prog.returns_pure]
        constructor
        · intro h
          obtain rfl := Except.ok.inj (Prod.mk.inj h).1
          exact ⟨v, rfl, hstatus, rfl⟩
        · rintro ⟨w, hw, -, rfl⟩
          obtain rfl := Option.some.inj hw
          rfl
  exact h

/-- The new visit of today is the latest in every order of the rows, if it is the only one of its time. -/
theorem latest_iff {day : ServerDay} {now : Date} {v : Visit} (stored : s.visit.insert v = some t.visit)
    (org : v.orgId = orgId) (today : day.startOf now ≤ v.createdAt ∧ v.createdAt ≤ day.endOf now) :
    (∀ o : RowOrder Visit, (o.desc (·.createdAt) (t.visit.filter (Today day now orgId email))).head? = some v) ↔
      v.email = email ∧ ∀ w ∈ s.visit, Today day now orgId email w = true → w.createdAt < v.createdAt := by
  have mem := fun w => Table.mem_insert stored (b := w)
  constructor
  · intro h
    obtain ⟨hv, hmax⟩ := RowOrder.head_desc (h .stored)
    have htoday := (Table.mem_filter.mp hv).2
    simp only [Today, Bool.and_eq_true, beq_iff_eq] at htoday
    refine ⟨htoday.1.1, fun w hw hwtoday => ?_⟩
    by_contra hlate
    have hin : w ∈ t.visit.filter (Today day now orgId email) := Table.mem_filter.mpr ⟨(mem w).mpr (Or.inl hw), hwtoday⟩
    have hfront : ((RowOrder.front w).desc (·.createdAt) (t.visit.filter (Today day now orgId email))).head? = some w :=
      RowOrder.head_desc_front hin fun b hb => Int.le_trans (hmax b hb) (Int.not_lt.mp hlate)
    obtain rfl := Option.some.inj ((h _).symm.trans hfront)
    exact Table.id_ne_of_insert stored hw rfl
  · rintro ⟨rfl, earlier⟩ o
    have hv : v ∈ t.visit.filter (Today day now orgId v.email) :=
      Table.mem_filter.mpr ⟨(mem v).mpr (Or.inr rfl), by simp [Today, org, today]⟩
    cases hhead : (o.desc (·.createdAt) (t.visit.filter (Today day now orgId v.email))).head? with
    | none =>
      rw [RowOrder.head_desc_eq_none.mp hhead] at hv
      cases hv
    | some w =>
      obtain ⟨hw, hmax⟩ := RowOrder.head_desc hhead
      obtain ⟨hwmem, hwtoday⟩ := Table.mem_filter.mp hw
      rcases (mem w).mp hwmem with hold | rfl
      · exact absurd (earlier w hold hwtoday) (Int.not_lt.mpr (hmax v hv))
      · rfl

end Visits

/-- An account is found under the email that it was stored for exactly if both requests normalise it, or neither
    does, or it is normalised already. A visit is found under the email that it was started with exactly if the
    email is normalised and no other visit of the visitor on that day is as late. -/
theorem email_lookups_agree (js : Js) (email : String) (given : email ≠ "") :
    (∀ (w : Writer) (r : Reader) (s t : Db), Prog.Exec (write js email w) s (.ok ()) t →
      (∃ rest, read js email r = query (r.find js email) >>= rest) ∧
      ((∃ user, r.find js email t = some user ∧ user.id = w.account s) ↔
        w.normalizes = r.normalizes ∨ normalized js email = email)) ∧
    ∀ (io : VisitService.Io) (orgId : String) (systemId : Option String) (dto : StartVisitDto) (checkInPicture : Bool)
      (reply : StartVisitReply) (s t : Db),
      Prog.Exec (startVisit js io orgId systemId { dto with email } checkInPicture) s (.ok reply) t →
      ∀ (day : ServerDay) (now : Date) (account : String), MayAsk t orgId email account →
      day.startOf now ≤ io.visitCreatedAt ∧ io.visitCreatedAt ≤ day.endOf now →
      ((∀ later : VisitService.Io, later.now = now → (checkMeetingStatus day later (some account) "System" orgId email).run t =
          (.ok { status := .pending, visitId := io.visitId }, t)) ↔
        normalized js email = email ∧ ∀ v ∈ s.visit, Today day now orgId email v = true → v.createdAt < io.visitCreatedAt) := by
  constructor
  · intro w r s t hexec
    refine ⟨read_eq r given, ?_⟩
    exact (write_stores hexec).find_iff.trans used_eq_iff
  · intro io orgId systemId dto checkInPicture reply s t hexec day now account may today
    rcases startVisit_spec.of_exec hexec with ⟨picture, u, adds, rest⟩ | ⟨-, e, he⟩
    swap
    · cases he
    have stored := adds.visits_of_rest rest
    refine Iff.trans ?_ (latest_iff stored rfl today)
    constructor
    · intro h o
      obtain ⟨v, hhead, -, hreply⟩ := (checkMeetingStatus_iff may).mp (h { io with now, visits := o } rfl)
      have hid : io.visitId = v.id := congrArg MeetingStatusReply.visitId hreply
      have hv := (Table.mem_filter.mp (RowOrder.head_desc hhead).1).1
      rw [hhead, Table.eq_of_id hv ((Table.mem_insert stored).mpr (Or.inr rfl)) hid.symm]
    · rintro h later rfl
      refine (checkMeetingStatus_iff may).mpr ⟨_, h later.visits, ?_, rfl⟩
      exact fun haccepted => by cases haccepted

/-! ### An email in capital letters -/

namespace Capitals

def js : Js where
  toLowerCase text := if text = "BOB@mail.com" then "bob@mail.com" else text
  trim := id
  toLocaleString _ := ""

def io : AuthService.Io := { now := 0, refreshTokenId := "refresh", refreshToken := "token", hash := id }

/-- The root user registers. -/
def register : Writer := .registerRootUser id "root" "password"

def login : Reader := .loginUser Jwt.readable (· == ·) io "password" none

/-- What the registration leaves in an empty store. -/
def founded (email : String) : Db := ((write js email register).run {}).2

theorem exec_founded (email : String) : Prog.Exec (write js email register) {} (.ok ()) (founded email) :=
  Prog.exec_run (write js email register) {}

/-- Bob asks for Ann at the reception. -/
def visit : StartVisitDto :=
  { fullName := "bob", visitorOrganization := "Co", email := "bob@mail.com", reasonId := "meeting", staffId := "ann" }

def atDesk : VisitService.Io := (Reception.request "1" 10 Reception.checkIn).io

def checkIn : Service StartVisitReply := startVisit js atDesk "org" (some "desk") visit false

def day : ServerDay := { startOf := fun _ => 0, endOf := fun _ => 100 }

end Capitals

section Capitals
open Capitals

theorem email_lookups_agree_bob :
    (∃ user, login.find js "bob@mail.com" (founded "bob@mail.com") = some user ∧ user.id = "root") ∧
    (checkMeetingStatus day { atDesk with now := 20 } (some "desk") "System" "org" "bob@mail.com").run
      (checkIn.run Reception.db).2 = (.ok { status := .pending, visitId := "v1" }, (checkIn.run Reception.db).2) := by
  obtain ⟨accounts, visits⟩ := email_lookups_agree js "bob@mail.com" (by decide)
  refine ⟨(accounts register login {} _ (exec_founded _)).2.mpr (Or.inr (by decide)), ?_⟩
  obtain ⟨reply, hreply⟩ : ∃ reply, (checkIn.run Reception.db).1 = .ok reply := ⟨_, rfl⟩
  have hexec : Prog.Exec checkIn Reception.db (.ok reply) (checkIn.run Reception.db).2 := hreply ▸ Prog.exec_run _ _
  have may : MayAsk (checkIn.run Reception.db).2 "org" "bob@mail.com" "desk" := ⟨by decide, by decide, by decide⟩
  refine (visits atDesk "org" (some "desk") visit false reply Reception.db _ hexec day 20 "desk" may (by decide)).mpr ?_ _ rfl
  exact ⟨by decide, by decide⟩

/-- The root user registers with capital letters, and cannot log in with them. -/
theorem login_misses_root : ¬∀ (js : Js) (email : String) (w : Writer) (r : Reader) (s t : Db), email ≠ "" →
    Prog.Exec (write js email w) s (.ok ()) t → ∃ user, r.find js email t = some user ∧ user.id = w.account s := fun h => by
  obtain ⟨user, hfind, -⟩ := h js "BOB@mail.com" register login {} _ (by decide) (exec_founded _)
  have hnone : login.find js "BOB@mail.com" (founded "BOB@mail.com") = none := by decide
  rw [hnone] at hfind
  cases hfind

end Capitals

end Vms.Emails
