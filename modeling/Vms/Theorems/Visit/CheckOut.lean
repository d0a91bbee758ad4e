import Vms.Theorems.Visit.Admission
import Vms.Theorems.Visit.Lifecycle

/-! A check-out by name and email ends the visit that a check-in with the same name and email started: of
    an organisation and an email there is one active visit, and both requests normalise alike. -/

namespace Vms.VisitService
open Relational HttpException

/-- The visit is stored as the check-in asked for it. -/
def NamedBy (js : Js) (q : Request) (v : Visit) : Prop :=
  ∃ systemId dto checkInPicture, q.op = .startVisit systemId dto checkInPicture ∧ v.orgId = q.orgId ∧
    v.fullName = js.trim dto.fullName ∧ v.email = js.trim (js.toLowerCase dto.email)

/-! ### What requests keep -/

/-- Visits stay, under their names. -/
structure Keeps (s t : Db) : Prop where
  kept : ∀ v ∈ s.visit, ∃ w ∈ t.visit, w.id = v.id
  named : ∀ w ∈ t.visit, ∃ v ∈ s.visit, v.id = w.id ∧ v.orgId = w.orgId ∧ v.fullName = w.fullName ∧ v.email = w.email

section Steps
variable {js : Js} {s t : Db} {q : Request} {v v' w : Visit}

theorem keeps_of_eq (h : t.visit = s.visit) : Keeps s t where
  kept v hv := ⟨v, by rw [h]; exact hv, rfl⟩
  named w hw := by
    rw [h] at hw
    exact ⟨w, hw, rfl, rfl, rfl, rfl⟩

theorem Replaces.keeps (h : Replaces s t v v') (hid : v'.id = v.id) (horg : v'.orgId = v.orgId)
    (hname : v'.fullName = v.fullName) (hemail : v'.email = v.email) : Keeps s t where
  kept w hw := by
    by_cases heq : w.id = v.id
    · exact ⟨v', (h.visits v').mpr (Or.inl rfl), hid.trans heq.symm⟩
    · exact ⟨w, (h.visits w).mpr (Or.inr ⟨hw, heq⟩), rfl⟩
  named w hw := by
    rcases (h.visits w).mp hw with rfl | ⟨hold, -⟩
    · exact ⟨v, h.mem, hid.symm, horg.symm, hname.symm, hemail.symm⟩
    · exact ⟨w, hold, rfl, rfl, rfl, rfl⟩

/-- A request starts one visit, as it was asked to, or keeps the visits under their names. -/
theorem Acted.named (h : Acted js s q t) : (∃ v, s.visit.insert v = some t.visit ∧ NamedBy js q v) ∨ Keeps s t := by
  cases h with
  | checkIn systemId dto checkInPicture picture u op adds rest =>
    exact Or.inl ⟨_, adds.visits_of_rest rest, systemId, dto, checkInPicture, op, rfl, rfl, rfl⟩
  | checkOut dto systemId role v op org ongoing completes => exact Or.inr (completes.keeps rfl rfl rfl rfl)
  | checkOutQr role visitId v op may completes => exact Or.inr (completes.keeps rfl rfl rfl rfl)
  | accept userId role visitId dto v op may decides => exact Or.inr (decides.keeps rfl rfl rfl rfl)
  | reject userId role visitId dto v op may decides => exact Or.inr (decides.keeps rfl rfl rfl rfl)
  | remind systemId role visitId v n op mem org of notifies => exact Or.inr (keeps_of_eq (by rw [notifies.rest]))
  | delete userId role notificationId staff n op caller own org removes => exact Or.inr (keeps_of_eq (by rw [removes.rest]))

/-- No active visit of the organisation and the email is in the store. -/
def Absent (s : Db) (orgId email : String) : Prop :=
  ∀ w ∈ s.visit, isActive w.status = true → w.orgId = orgId → w.email ≠ email

/-- A check-in that stores its visit found no active one. -/
theorem startVisit_absent {io : Io} {orgId : String} {systemId : Option String} {dto : StartVisitDto} {checkInPicture : Bool} :
    (startVisit js io orgId systemId dto checkInPicture).Post
      (fun _ t => t.visit = s.visit ∨ Absent s orgId (js.trim (js.toLowerCase dto.email))) s :=
  startVisit_post (fun _ => Or.inl rfl) fun _ _ may _ _ _ _ _ => Or.inr may.absent

/-- One request after another: at most one visit of an organisation and an email is active. -/
theorem oneActive_of_step (one : OneActive s) (h : (visiting js).step s q t) : OneActive t := by
  rcases request_inv h with rfl | acted
  · exact one
  obtain ⟨r, hexec⟩ := h
  rw [Request.call] at hexec
  cases acted with
  | checkIn systemId dto checkInPicture picture u op adds rest =>
    rw [op] at hexec
    have stored := adds.visits_of_rest rest
    have added : Adds s { s with visit := t.visit } _ := ⟨stored, rfl⟩
    have one' : OneActive { s with visit := t.visit } := by
      rcases (Prog.post_discard.mpr startVisit_absent).of_exec hexec with same | absent
      · rw [same]
        exact one
      · exact (added.oneActive one rfl).mpr absent
    exact one'
  | checkOut dto systemId role v op org ongoing completes =>
    exact (completes.quiet rfl rfl rfl fun h => Bool.noConfusion h).oneActive one
  | checkOutQr role visitId v op may completes =>
    exact (completes.quiet rfl rfl rfl fun h => Bool.noConfusion h).oneActive one
  | accept userId role visitId dto v op may decides =>
    exact (decides.quiet rfl rfl rfl fun _ => by rw [decides.pending]; rfl).oneActive one
  | reject userId role visitId dto v op may decides =>
    exact (decides.quiet rfl rfl rfl fun h => Bool.noConfusion h).oneActive one
  | remind systemId role visitId v n op mem org of notifies => exact (Quiet.of_eq (by rw [notifies.rest])).oneActive one
  | delete userId role notificationId staff n op caller own org removes =>
    exact (Quiet.of_eq (by rw [removes.rest])).oneActive one

end Steps

/-! ### Runs -/

/-- The database, and the requests that started its visits. -/
structure Desk where
  db : Db
  started : List (String × Request)

/-- Requests one after another, with a list of the visits that they start. -/
def desk (js : Js) : System Desk Request where
  init c := OneActive c.db ∧ c.started = []
  step c q d := (visiting js).step c.db q d.db ∧
    d.started = c.started ++ (c.db.visit.newcomers d.db.visit).map fun v => (v.id, q)

structure Attended (js : Js) (c : Desk) : Prop where
  one : OneActive c.db
  known : ∀ p ∈ c.started, ∃ v ∈ c.db.visit, v.id = p.1
  named : ∀ p ∈ c.started, ∀ v ∈ c.db.visit, v.id = p.1 → NamedBy js p.2 v

theorem NamedBy.congr {js : Js} {q : Request} {v w : Visit} (h : NamedBy js q v) (horg : v.orgId = w.orgId)
    (hname : v.fullName = w.fullName) (hemail : v.email = w.email) : NamedBy js q w := by
  obtain ⟨systemId, dto, checkInPicture, op, horg', hname', hemail'⟩ := h
  exact ⟨systemId, dto, checkInPicture, op, horg.symm.trans horg', hname.symm.trans hname', hemail.symm.trans hemail'⟩

section Runs
variable {js : Js} {c d : Desk} {q : Request}

theorem Attended.keep (h : Attended js c) (one : OneActive d.db) (keeps : Keeps c.db d.db) (started : d.started = c.started) :
    Attended js d where
  one := one
  known p hp := by
    rw [started] at hp
    obtain ⟨v, hv, hid⟩ := h.known p hp
    obtain ⟨w, hw, hid'⟩ := keeps.kept v hv
    exact ⟨w, hw, hid'.trans hid⟩
  named p hp w hw hid := by
    rw [started] at hp
    obtain ⟨v, hv, hid', horg, hname, hemail⟩ := keeps.named w hw
    exact (h.named p hp v hv (hid'.trans hid)).congr horg hname hemail

theorem Attended.start (h : Attended js c) (one : OneActive d.db) {v : Visit}
    (stored : c.db.visit.insert v = some d.db.visit) (named : NamedBy js q v)
    (started : d.started = c.started ++ [(v.id, q)]) : Attended js d where
  one := one
  known p hp := by
    rw [started, List.mem_append, List.mem_singleton] at hp
    rcases hp with hp | rfl
    · obtain ⟨w, hw, hid⟩ := h.known p hp
      exact ⟨w, (Table.mem_insert stored).mpr (Or.inl hw), hid⟩
    · exact ⟨v, (Table.mem_insert stored).mpr (Or.inr rfl), rfl⟩
  named p hp w hw hid := by
    rw [started, List.mem_append, List.mem_singleton] at hp
    rcases hp with hp | rfl <;> rcases (Table.mem_insert stored).mp hw with hold | rfl
    · exact h.named p hp w hold hid
    · -- the identifier of the new visit is new
      obtain ⟨old, hold, hid'⟩ := h.known p hp
      exact absurd (hid'.trans hid.symm) (Table.id_ne_of_insert stored hold)
    · exact absurd hid (Table.id_ne_of_insert stored hold)
    · exact named

theorem Attended.step (h : Attended js c) (hstep : (desk js).step c q d) : Attended js d := by
  obtain ⟨hreq, hstarted⟩ := hstep
  have one := oneActive_of_step h.one hreq
  have hcases : (∃ v, c.db.visit.insert v = some d.db.visit ∧ NamedBy js q v) ∨ Keeps c.db d.db := by
    rcases request_inv hreq with hsame | acted
    · exact Or.inr (keeps_of_eq (by rw [hsame]))
    · exact acted.named
  rcases hcases with ⟨v, stored, named⟩ | keeps
  · rw [Table.newcomers_insert stored] at hstarted
    exact h.start one stored named hstarted
  · have hnone : c.db.visit.newcomers d.db.visit = [] := Table.newcomers_eq_nil fun w hw => by
      obtain ⟨v, hv, hid, -, -, -⟩ := keeps.named w hw
      exact ⟨v, hv, hid⟩
    rw [hnone, List.map_nil, List.append_nil] at hstarted
    exact h.keep one keeps hstarted

theorem attended_of_reach (h : (desk js).Reachable c) : Attended js c := by
  refine h.invariant (fun c hinit => ?_) fun c q d _ ih _ hstep => ih.step hstep
  have none : ∀ p, p ∉ c.started := fun p hp => by
    rw [hinit.2] at hp
    cases hp
  exact ⟨hinit.1, fun p hp => absurd hp (none p), fun p hp => absurd hp (none p)⟩

end Runs

/-! ### The check-out -/

/-- The caller of a check-out: a system account, if one asks, is of the organisation, and a role, if the token
    has one, is allowed. -/
structure MayEnd (s : Db) (orgId : String) (systemId role : Option String) : Prop where
  account : ∀ id, truthy systemId = some id → ∃ system ∈ s.systemCredential, system.id = id ∧ system.orgId = orgId
  role : ∀ r, truthy role = some r → r ∈ ["SuperAdmin", "Admin", "System", "Staff"]

/-- The visits that a check-out looks for. -/
def Wanted (orgId fullName email : String) (v : Visit) : Bool :=
  v.fullName == fullName && v.orgId == orgId && v.email == email && v.status == .ongoing

section EndVisit
variable {js : Js} {io : Io} {s : Db} {orgId : String} {systemId role : Option String} {dto : EndVisitDto} {v : Visit}

theorem checkSystemAccount_ok (may : MayEnd s orgId systemId role) :
    (checkSystemAccount orgId systemId).run s = (.ok (), s) := by
  unfold checkSystemAccount
  split
  · rfl
  · rename_i id hid
    obtain ⟨system, hsystem, hsystemId, horg⟩ := may.account id hid
    have hfind : s.systemCredential.find id = some system := Table.find_eq_some.mpr ⟨hsystem, hsystemId⟩
    have h : (checkSystemAccount orgId systemId).Returns (fun r t => (r, t) = (.ok (), s)) s := by
      simp only [checkSystemAccount, hid, Prog.returns_bind, returns_query, hfind, Prog.returns_orFail, Prog.then_ok,
        Prog.returns_failIf]
      simp [horg]
    rw [checkSystemAccount, hid] at h
    exact h

theorem completeVisit_returns {endTime : Date} (hv : v ∈ s.visit) :
    (completeVisit v.id endTime).Returns (fun r t => (∃ details, r = .ok details) ∧ Completes s t v endTime) s := by
  have hfind : s.visit.find v.id = some v := Table.find_of_mem hv
  rw [completeVisit, returns_mutate, hfind]
  refine ⟨fun e h => ?_, fun details t h => ⟨⟨details, rfl⟩, ?_⟩⟩
  · cases h
  · obtain ⟨-, rfl⟩ := Prod.mk.inj (Except.ok.inj h)
    exact ⟨⟨hv, Table.mem_update_one (by exact ⟨fun _ => rfl, fun _ _ => rfl⟩) hv fun _ _ => beq_iff_eq⟩, rfl⟩

/-- The only visit that is wanted is found, in whatever order the rows are read. -/
theorem first_wanted {fullName email : String} (hv : v ∈ s.visit)
    (only : ∀ w ∈ s.visit, Wanted orgId fullName email w = true ↔ w = v) :
    io.visits.first (s.visit.filter (Wanted orgId fullName email)) = some v := by
  refine RowOrder.first_of_unique (Table.mem_filter.mpr ⟨hv, (only v hv).mpr rfl⟩) fun w hw => ?_
  obtain ⟨hmem, hwanted⟩ := Table.mem_filter.mp hw
  exact (only w hmem).mp hwanted

/-- It is ended if nothing fails. -/
theorem endVisit_returns (may : MayEnd s orgId systemId role) (hv : v ∈ s.visit)
    (only : ∀ w ∈ s.visit, Wanted orgId (js.trim dto.fullName) (js.trim (js.toLowerCase dto.email)) w = true ↔ w = v) :
    (endVisit js io orgId dto systemId role).Returns (fun r t => (∃ reply, r = .ok reply) ∧ Completes s t v io.now) s := by
  have hfirst : io.visits.first (s.visit.filter fun visit => visit.fullName == js.trim dto.fullName && visit.orgId == orgId &&
      visit.email == js.trim (js.toLowerCase dto.email) && visit.status == .ongoing) = some v := first_wanted hv only
  have hrole : ¬(truthy role).any (fun role => decide (role ∉ ["SuperAdmin", "Admin", "System", "Staff"])) = true := by
    intro hany
    obtain ⟨r, hr, hnot⟩ := (Option.any_eq_true _ _).mp hany
    exact of_decide_eq_true hnot (may.role r hr)
  rw [endVisit, Prog.returns_bind, Prog.Returns, checkSystemAccount_ok may, Prog.then_ok]
  simp only [Prog.returns_bind, returns_query, Prog.then_ok, hfirst, Prog.returns_orFail, Prog.returns_failIf, hrole,
    reduceCtorEq, false_implies, true_and, Option.some.injEq, forall_eq']
  intro _
  refine (completeVisit_returns hv).mono fun r t hr => ?_
  obtain ⟨⟨details, rfl⟩, completes⟩ := hr
  simp only [sendMail, Prog.then_ok, Prog.returns_bind, returns_outside, Prog.returns_pure]
  exact ⟨⟨_, rfl⟩, completes⟩

/-- If something fails, it is ended or nothing is. -/
theorem endVisit_post (hv : v ∈ s.visit)
    (only : ∀ w ∈ s.visit, Wanted orgId (js.trim dto.fullName) (js.trim (js.toLowerCase dto.email)) w = true ↔ w = v) :
    (endVisit js io orgId dto systemId role).Post (fun r t => (t = s ∧ ∃ e, r = .error e) ∨ Completes s t v io.now) s := by
  have hfirst : io.visits.first (s.visit.filter fun visit => visit.fullName == js.trim dto.fullName && visit.orgId == orgId &&
      visit.email == js.trim (js.toLowerCase dto.email) && visit.status == .ongoing) = some v := first_wanted hv only
  rw [endVisit, Prog.post_bind]
  refine checkSystemAccount_reads.mono fun r t hr => ?_
  obtain ⟨rfl, ⟨e, rfl⟩ | rfl⟩ := hr
  · exact Or.inl ⟨rfl, e, rfl⟩
  · simp only [Prog.post_bind, post_query, Prog.then_ok, Prog.then_error, hfirst, Prog.post_orFail, Prog.post_failIf,
      true_and, Except.error.injEq, exists_eq', true_or, and_true, implies_true, reduceCtorEq, Option.some.injEq, forall_eq']
    intro hrole
    refine completeVisit_spec hv (fun e => Or.inl ⟨rfl, e, rfl⟩) fun details u completes => ?_
    simp only [sendMail, Prog.then_ok, Prog.then_error, Prog.post_bind, post_outside, Prog.post_pure, completes, or_true, and_self]

end EndVisit

/-- In every state of every run, a check-out with the name and the email with which an ongoing visit was started
    ends exactly this visit; if something fails, it does so or nothing. -/
theorem check_out_ends_visit (js : Js) (c : Desk) (h : (desk js).Reachable c) (v : Visit) (hv : v ∈ c.db.visit)
    (ongoing : v.status = .ongoing) (q : Request) (started : (v.id, q) ∈ c.started) (accountId : Option String)
    (start : StartVisitDto) (checkInPicture : Bool) (op : q.op = .startVisit accountId start checkInPicture)
    (io : Io) (dto : EndVisitDto) (fullName : js.trim dto.fullName = js.trim start.fullName)
    (email : js.trim (js.toLowerCase dto.email) = js.trim (js.toLowerCase start.email)) (systemId role : Option String)
    (may : MayEnd c.db q.orgId systemId role) :
    (∃ reply t, (endVisit js io q.orgId dto systemId role).run c.db = (.ok reply, t) ∧ Completes c.db t v io.now) ∧
    ∀ r t, Prog.Exec (endVisit js io q.orgId dto systemId role) c.db r t →
      (t = c.db ∧ ∃ e, r = .error e) ∨ Completes c.db t v io.now := by
  have attended := attended_of_reach h
  obtain ⟨accountId', start', checkInPicture', op', horg, hname, hemail⟩ := attended.named _ started v hv rfl
  obtain ⟨rfl, rfl, rfl⟩ := Operation.startVisit.inj (op.symm.trans op')
  have only : ∀ w ∈ c.db.visit,
      Wanted q.orgId (js.trim dto.fullName) (js.trim (js.toLowerCase dto.email)) w = true ↔ w = v := by
    intro w hw
    rw [fullName, email, Wanted, Bool.and_eq_true, Bool.and_eq_true, Bool.and_eq_true, beq_iff_eq, beq_iff_eq, beq_iff_eq,
      beq_iff_eq]
    constructor
    · rintro ⟨⟨⟨-, horg'⟩, hemail'⟩, hongoing⟩
      refine attended.one w hw v hv ?_ ?_ (horg'.trans horg.symm) (hemail'.trans hemail.symm)
      · rw [hongoing]
        rfl
      · rw [ongoing]
        rfl
    · rintro rfl
      exact ⟨⟨⟨hname, horg⟩, hemail⟩, ongoing⟩
  refine ⟨?_, fun r t hexec => (endVisit_post hv only).of_exec hexec⟩
  have returns : (endVisit js io q.orgId dto systemId role).Returns
      (fun r t => (∃ reply, r = .ok reply) ∧ Completes c.db t v io.now) c.db := endVisit_returns may hv only
  obtain ⟨⟨reply, hreply⟩, completes⟩ := returns
  exact ⟨reply, _, Prod.ext hreply rfl, completes⟩

section Reception
open Reception

/-- Bob's name and address as he types them when he leaves. -/
def tidy : Js where
  toLowerCase text := if text = "BOB@mail.com" then "bob@mail.com" else text
  trim text := if text = "bob " then "bob" else text
  toLocaleString := js.toLocaleString

/-- A request that runs without failures, with the visits that it starts. -/
def Desk.next (c : Desk) (q : Request) : Desk where
  db := ((q.call tidy).run c.db).2
  started := c.started ++ (c.db.visit.newcomers ((q.call tidy).run c.db).2.visit).map fun v => (v.id, q)

theorem reach_desk_next {c : Desk} {q : Request} (h : (desk tidy).Reachable c) : (desk tidy).Reachable (c.next q) :=
  h.step trivial ⟨⟨_, Prog.exec_run (q.call tidy) c.db⟩, rfl⟩

/-- Bob and Eve are there, and Bob is with Ann. -/
def busy : Desk :=
  [request "1" 10 checkIn, request "2" 10 (.startVisit (some "desk")
    { fullName := "bob", visitorOrganization := "Co", email := "eve@mail.com", reasonId := "meeting", staffId := "ann" } false),
   request "3" 20 (accept "v1")].foldl Desk.next ⟨db, []⟩

theorem reach_busy : (desk tidy).Reachable busy := by
  have hinit : (desk tidy).Reachable ⟨db, []⟩ := .init ⟨oneActive_db, rfl⟩
  exact reach_desk_next (reach_desk_next (reach_desk_next hinit))

def leave : EndVisitDto := { fullName := "bob ", email := "BOB@mail.com" }

theorem check_out_ends_visit_bob : ∃ v ∈ busy.db.visit, v.id = "v1" ∧
    ∃ reply t, (endVisit tidy (request "4" 30 checkIn).io "org" leave (some "desk") (some "System")).run busy.db =
      (.ok reply, t) ∧ Completes busy.db t v 30 := by
  have hbob : ∃ v ∈ busy.db.visit, v.id = "v1" ∧ v.status = .ongoing := by decide
  obtain ⟨v, hv, hid, ongoing⟩ := hbob
  have hstarted : ("v1", request "1" 10 checkIn) ∈ busy.started := List.mem_cons_self
  refine ⟨v, hv, hid, ?_⟩
  exact (check_out_ends_visit tidy busy reach_busy v hv ongoing (request "1" 10 checkIn) (hid ▸ hstarted) _ _ _ rfl
    (request "4" 30 checkIn).io leave (by decide) (by decide) (some "desk") (some "System")
    ⟨fun id hid => ⟨_, List.mem_cons_self, (truthy_eq_some.mp hid).1 |> Option.some.inj, rfl⟩,
      fun r hr => by obtain rfl := Option.some.inj (truthy_eq_some.mp hr).1; decide⟩).1

end Reception

end Vms.VisitService
