import Vms.Theorems.Visit.CheckOut

/-! What a request that fails leaves of visits and notifications. A decision runs in a transaction, and
    what comes after it is caught. A check-in and both check-outs write first and then send mails, whose
    failure reaches the caller while the write stays. -/

namespace Vms.VisitService
open Relational HttpException

/-- The visits and the notifications are those of before. -/
def Untouched (s t : Db) : Prop := t.visit = s.visit ∧ t.notification = s.notification

/-- Whatever fails, a request that fails leaves visits and notifications as they were. -/
def HarmlessFailure (js : Js) (q : Request) (s : Db) : Prop :=
  ∀ e t, Prog.Exec (q.call js) s (.error e) t → Untouched s t

/-! ### Checks, one write, and what may fail after it -/

section Shape
variable {ι α β : Type} {p : Service β} {s : Db} {Passes : ι → Prop} {write : ι → Service α}

/-- After its checks the program goes on with a write, and then with something that may fail at once. -/
def WritesAfter (p : Service β) (s : Db) (Passes : ι → Prop) (write : ι → Service α) : Prop :=
  ∃ rest : ι → α → Service β, (∀ i a Q t, (rest i a).Post Q t → ∃ e, Q (.error e) t) ∧
    ∀ Q : Except HttpException β → Db → Prop, (∀ e, Q (.error e) s) →
      (p.Post Q s ↔ ∀ i, Passes i → (write i).Post (Prog.Then (rest i) Prog.Post Q) s)

/-- Then failures are harmless exactly if the write never succeeds. -/
theorem WritesAfter.harmless_iff (h : WritesAfter p s Passes write)
    (changes : ∀ i, Passes i → (write i).Post (AllOrNothing s fun _ t => t.visit ≠ s.visit) s) :
    (∀ e t, Prog.Exec p s (.error e) t → Untouched s t) ↔
      ∀ i, Passes i → (write i).Post (fun r _ => ∃ e, r = .error e) s := by
  obtain ⟨rest, fragile, h⟩ := h
  have harmless : (∀ e t, Prog.Exec p s (.error e) t → Untouched s t) ↔
      p.Post (fun r t => ∀ e, r = .error e → Untouched s t) s := by
    rw [Prog.post_iff]
    constructor
    · rintro hexec r t he e rfl
      exact hexec e t he
    · exact fun hpost e t he => hpost _ t he e rfl
  rw [harmless, h _ fun _ _ _ => ⟨rfl, rfl⟩]
  refine forall_congr' fun i => imp_congr_right fun hi => ?_
  have hchanges := changes i hi
  constructor
  · intro hpost
    refine Prog.post_iff.mpr fun r t he => ?_
    cases r with
    | error e => exact ⟨e, rfl⟩
    | ok a =>
      obtain ⟨e, hrest⟩ := fragile i a _ t (hpost.of_exec he)
      exact absurd (hrest e rfl).1 (hchanges.of_exec he)
  · intro hpost
    refine Prog.post_iff.mpr fun r t he => ?_
    obtain ⟨e, rfl⟩ := hpost.of_exec he
    have hsame : t = s := hchanges.of_exec he
    rw [Prog.then_error, hsame]
    exact fun _ _ => ⟨rfl, rfl⟩

end Shape

/-! ### Check-out -/

section CheckOut
variable {js : Js} {io : Io} {s : Db} {orgId : String} {systemId role : Option String} {dto : EndVisitDto} {v : Visit}

/-- An end of a visit that has not ended changes the visits. -/
theorem completeVisit_changes (hv : v ∈ s.visit) (hstatus : v.status ≠ .completed) {endTime : Date} :
    (completeVisit v.id endTime).Post (AllOrNothing s fun _ t => t.visit ≠ s.visit) s := by
  refine completeVisit_spec hv (fun _ => rfl) fun _ t completes hsame => ?_
  have hended := (completes.visits _).mpr (Or.inl rfl)
  rw [hsame] at hended
  have heq := Table.eq_of_id hv hended rfl
  exact hstatus (congrArg Visit.status heq)

/-- The end of a stored visit is not refused. -/
theorem completeVisit_succeeds (hv : v ∈ s.visit) {endTime : Date} :
    ¬(completeVisit v.id endTime).Post (fun r _ => ∃ e, r = .error e) s := fun h => by
  have hreturns : (completeVisit v.id endTime).Returns (fun r t => (∃ details, r = .ok details) ∧ Completes s t v endTime) s :=
    completeVisit_returns hv
  obtain ⟨⟨details, hok⟩, -⟩ := hreturns
  obtain ⟨e, he⟩ := h.returns
  rw [hok] at he
  cases he

/-- Two mails, either of which may be refused. -/
theorem sendMails_fragile {β : Type} {reply : β} {Q : Except HttpException β → Db → Prop} {t : Db}
    (h : (do sendMail; sendMail; return reply : Service β).Post Q t) : ∃ e, Q (.error e) t := by
  simp only [sendMail, Prog.post_bind, post_outside, Prog.then_error] at h
  exact ⟨_, h.2⟩

theorem writesAfter_endVisitQr {visitId role : String} : WritesAfter (endVisitQr io orgId role visitId) s
    (fun v => MayScan s orgId role visitId v) fun v => completeVisit v.id io.now := by
  refine ⟨fun _ _ => do sendMail; sendMail; return "Visit completed successfully.", fun _ _ _ _ h => sendMails_fragile h,
    fun Q fails => ?_⟩
  simp only [endVisitQr, Prog.post_bind, Prog.post_failIf, Prog.then_ok, Prog.then_error, post_query, Prog.post_orFail, fails,
    implies_true, true_and, and_true, Option.filter_eq_some_iff, bne_iff_ne, List.mem_singleton, not_not, Table.find_eq_some]
  constructor
  · intro h v may
    obtain ⟨organization, horganization⟩ := Option.isSome_iff_exists.mp may.organization
    exact h may.given.1 may.given.2 may.role organization (Table.find_eq_some.mp horganization) v ⟨⟨may.mem, may.id⟩, may.status⟩ may.org
  · rintro h horg hvisit hrole organization horganization v ⟨⟨hmem, hid⟩, hstatus⟩ hown
    have hfind : (s.organization.find orgId).isSome := by
      rw [Table.find_eq_some.mpr horganization]
      rfl
    exact h v ⟨hmem, hrole, hfind, hid, ⟨horg, hvisit⟩, hown, hstatus⟩

/-- A check-out by name is allowed, and finds the visit. -/
structure Found (js : Js) (io : Io) (s : Db) (orgId : String) (systemId role : Option String) (dto : EndVisitDto) (v : Visit) :
    Prop extends MayEnd s orgId systemId role where
  first : io.visits.first (s.visit.filter (Wanted orgId (js.trim dto.fullName) (js.trim (js.toLowerCase dto.email)))) = some v

theorem post_checkSystemAccount {Q : Except HttpException Unit → Db → Prop} (fails : ∀ e, Q (.error e) s) :
    (checkSystemAccount orgId systemId).Post Q s ↔ ((∀ id, truthy systemId = some id →
      ∃ system ∈ s.systemCredential, system.id = id ∧ system.orgId = orgId) → Q (.ok ()) s) := by
  unfold checkSystemAccount
  split
  · rename_i hnone
    simp [hnone]
  · rename_i id hid
    simp only [Prog.post_bind, post_query, Prog.then_ok, Prog.then_error, Prog.post_orFail, Prog.post_failIf, fails, implies_true,
      true_and, and_true, Table.find_eq_some, not_not, hid, Option.some.injEq, forall_eq']
    constructor
    · rintro h ⟨system, hmem, hsystemId, horg⟩
      exact h system ⟨hmem, hsystemId⟩ horg
    · rintro h system ⟨hmem, hsystemId⟩ horg
      exact h ⟨system, hmem, hsystemId, horg⟩

theorem writesAfter_endVisit : WritesAfter (endVisit js io orgId dto systemId role) s
    (fun v => Found js io s orgId systemId role dto v) fun v => completeVisit v.id io.now := by
  refine ⟨fun _ details => do sendMail; sendMail; return {
      message := s!"{js.trim dto.fullName} has checked-out at {js.toLocaleString io.repliedAt}."
      updatedVisitStatus := details }, fun _ _ _ _ h => sendMails_fragile h, fun Q fails => ?_⟩
  have hroles : ¬((truthy role).any fun role => decide (role ∉ ["SuperAdmin", "Admin", "System", "Staff"])) = true ↔
      ∀ r, truthy role = some r → r ∈ ["SuperAdmin", "Admin", "System", "Staff"] := by
    cases truthy role with
    | none => simp
    | some r => rw [Option.any_some, decide_eq_true_iff, not_not]; simp
  rw [endVisit, Prog.post_bind, post_checkSystemAccount (by exact fails)]
  simp only [Prog.post_bind, Prog.post_failIf, Prog.then_ok, Prog.then_error, post_query, Prog.post_orFail, fails,
    implies_true, true_and, and_true, hroles]
  constructor
  · intro h v found
    exact h found.account v found.first found.role
  · intro h account v hv hrole
    exact h v ⟨⟨account, hrole⟩, hv⟩

/-- The end of a visit succeeds whenever its checks pass. -/
theorem harmless_iff_of_completes {β : Type} {p : Service β} {Passes : Visit → Prop} {endTime : Date}
    (h : WritesAfter p s Passes fun v => completeVisit v.id endTime)
    (live : ∀ v, Passes v → v ∈ s.visit ∧ v.status ≠ .completed) :
    (∀ e t, Prog.Exec p s (.error e) t → Untouched s t) ↔ ∀ v, ¬Passes v := by
  rw [h.harmless_iff fun v hv => completeVisit_changes (live v hv).1 (live v hv).2]
  exact forall_congr' fun v => ⟨fun hfail hv => completeVisit_succeeds (live v hv).1 (hfail hv), fun hv hpasses => absurd hpasses hv⟩

end CheckOut

/-! ### Check-in -/

section CheckIn
variable {js : Js} {io : Io} {s : Db} {orgId : String} {systemId : Option String} {dto : StartVisitDto} {checkInPicture : Bool}

/-- A check-in passes its checks, and nothing keeps its visit from being stored. -/
structure Admitted (js : Js) (io : Io) (s : Db) (orgId : String) (systemId : Option String) (dto : StartVisitDto) :
    Prop extends MayStart js s orgId systemId dto where
  organization : (s.organization.find orgId).isSome
  reason : (s.reasonOfVisit.find dto.reasonId).isSome
  free : s.visit.find io.visitId = none

theorem createVisit_changes {v : Visit} : (createVisit v).Post (AllOrNothing s fun _ t => t.visit ≠ s.visit) s := by
  refine createVisit_spec (fun _ => rfl) fun _ t _ _ adds hsame => ?_
  have hnew : v ∈ t.visit := (Table.mem_insert adds.visit).mpr (Or.inr rfl)
  rw [hsame] at hnew
  exact Table.id_ne_of_insert adds.visit hnew rfl

/-- A visit is stored unless a row that it refers to is missing or its identifier is taken. -/
theorem createVisit_fails_iff {v : Visit} : (createVisit v).Post (fun r _ => ∃ e, r = .error e) s ↔
    ¬(((s.organization.find v.orgId).isSome ∧ (s.staff.find v.staffId).isSome) ∧
      (∀ id, v.reasonId = some id → (s.reasonOfVisit.find id).isSome) ∧ s.visit.find v.id = none) := by
  have free : (∃ u, s.visit.insert v = some u) ↔ s.visit.find v.id = none := by
    constructor
    · rintro ⟨u, hu⟩
      rw [Table.find, List.find?_eq_none]
      exact fun w hw hid => Table.id_ne_of_insert hu hw (beq_iff_eq.mp hid)
    · intro hnone
      refine Table.insert_of_free fun w hw => ?_
      have hid : ¬(w.id == v.id) = true := List.find?_eq_none.mp hnone w hw
      simpa [Row.conflict, Row.clash, Row.id] using hid
  have hreason : (v.reasonId.all fun id => (s.reasonOfVisit.find id).isSome) = true ↔
      ∀ id, v.reasonId = some id → (s.reasonOfVisit.find id).isSome := by cases v.reasonId <;> simp
  rw [← free, ← hreason, ← Bool.and_eq_true_iff]
  constructor
  · rintro hfails ⟨hrefs, hreasons, u, hu⟩
    rw [createVisit, post_mutate, hrefs, hreasons, hu] at hfails
    obtain ⟨e, he⟩ := hfails.1.2 _ _ rfl
    cases he
  · intro hnot
    rw [createVisit, post_mutate]
    refine ⟨⟨fun e _ => ⟨e, rfl⟩, fun details t h => ?_⟩, _, rfl⟩
    cases hc : created ((s.organization.find v.orgId).isSome && (s.staff.find v.staffId).isSome &&
        v.reasonId.all fun id => (s.reasonOfVisit.find id).isSome) v (s.visit.insert v) (fun u => { s with visit := u }) with
    | error e =>
      rw [hc] at h
      cases h
    | ok p =>
      obtain ⟨hstored, -, u, hu, -⟩ := created_eq_ok.mp hc
      rw [Bool.and_eq_true] at hstored
      exact absurd ⟨hstored.1, hstored.2, u, hu⟩ hnot

theorem post_uploadImage {Q : Except HttpException (Option String) → Db → Prop} (fails : ∀ e, Q (.error e) s) :
    (uploadImage io checkInPicture).Post Q s ↔ Q (.ok (if checkInPicture then some io.imageUrl else none)) s := by
  unfold uploadImage
  split <;> simp [fails]

theorem startNotice_fragile {β : Type} {n : Notification} {reply : β} {Q : Except HttpException β → Db → Prop} {t : Db}
    (h : (do let _ ← createNotification n; sendMail; sendMail; return reply : Service β).Post Q t) : ∃ e, Q (.error e) t := by
  rw [Prog.post_bind, createNotification, post_mutate] at h
  exact ⟨_, h.2⟩

theorem writesAfter_startVisit : WritesAfter (startVisit js io orgId systemId dto checkInPicture) s
    (fun picture => MayStart js s orgId systemId dto ∧ picture = if checkInPicture then some io.imageUrl else none)
    fun picture => createVisit (newVisit io orgId (js.trim dto.fullName) (js.trim (js.toLowerCase dto.email)) dto picture) := by
  refine ⟨fun _ details => do
    let _ ← createNotification { arrival io orgId dto with visitId := details.visit.id }
    sendMail
    sendMail
    return {
      message := s!"{dto.fullName} is waiting for host approval."
      id := details.visit.id
      visitorId := details.visit.id
      fullName := dto.fullName
      email := js.trim (js.toLowerCase dto.email)
      visitorOrganization := dto.visitorOrganization
      hostName := details.staff.map (·.name)
      hostDepartment := details.staff.bind (·.departmentId)
      hostDesignation := details.staff.map (·.designation)
      reasonName := details.reasonOfVisit.map (·.name) }, fun _ _ _ _ h => startNotice_fragile h, fun Q fails => ?_⟩
  simp only [startVisit, Prog.post_bind, Prog.post_orFail, Prog.then_ok, Prog.then_error, post_query, Prog.post_failIf, fails,
    implies_true, true_and, and_true, Option.filter_eq_some_iff, Table.find_eq_some, beq_iff_eq, not_not, no_active_iff]
  constructor
  · rintro h picture ⟨may, rfl⟩
    obtain ⟨⟨system, hsystem, haccount, horg⟩, ⟨staff, hstaff, hid, hstaffOrg⟩, absent⟩ := may
    have hwrite := h system.id haccount system ⟨hsystem, rfl⟩ horg staff ⟨⟨hstaff, hid⟩, hstaffOrg⟩ absent
    rw [post_uploadImage (by exact fails), Prog.then_ok, Prog.post_bind] at hwrite
    exact hwrite
  · rintro h account haccount system ⟨hsystem, rfl⟩ horg staff ⟨⟨hstaff, hid⟩, hstaffOrg⟩ absent
    rw [post_uploadImage (by exact fails), Prog.then_ok, Prog.post_bind]
    exact h _ ⟨⟨⟨system, hsystem, haccount, horg⟩, ⟨staff, hstaff, hid, hstaffOrg⟩, absent⟩, rfl⟩

theorem harmless_startVisit : (∀ e t, Prog.Exec (startVisit js io orgId systemId dto checkInPicture) s (.error e) t → Untouched s t) ↔
    ¬Admitted js io s orgId systemId dto := by
  rw [writesAfter_startVisit.harmless_iff fun _ _ => createVisit_changes]
  simp only [createVisit_fails_iff, and_imp, forall_eq_apply_imp_iff, newVisit]
  constructor
  · rintro h admitted
    obtain ⟨staff, hstaff, hid, -⟩ := admitted.host
    have hfind : (s.staff.find dto.staffId).isSome := by
      rw [Table.find_eq_some.mpr ⟨hstaff, hid⟩]
      rfl
    exact h admitted.toMayStart ⟨⟨admitted.organization, hfind⟩, by simp [admitted.reason], admitted.free⟩
  · rintro h may ⟨⟨horg, -⟩, hreason, hfree⟩
    exact h ⟨may, horg, hreason _ rfl, hfree⟩

end CheckIn

/-! ### Decision -/

section Decision
variable {s : Db} {io : Io} {orgId userId role visitId : String}

theorem decideVisit_rollsBack {action : NotificationAction} {change : Visit → Visit} {keys : Row.Fixes change} :
    (decideVisit orgId userId role visitId action change keys).Post (AllOrNothing s fun _ _ => True) s := by
  simp only [decideVisit, Prog.post_bind, Prog.post_failIf, Prog.then_ok, Prog.then_error, post_query, Prog.post_orFail,
    allOrNothing_error, implies_true, true_and, and_true, post_transaction]
  intro _ _ _ _ _ _
  refine Prog.Returns.mono (Q := fun _ _ => True) trivial fun r t _ => ?_
  cases r with
  | error e => rfl
  | ok v => trivial

/-- Nothing that fails after the transaction of a decision reaches the caller. -/
theorem acceptVisit_rollsBack {dto : AcceptVisitDto} :
    (acceptVisit io orgId userId role visitId dto).Post (AllOrNothing s fun _ _ => True) s := by
  rw [acceptVisit, Prog.post_bind]
  refine decideVisit_rollsBack.mono fun r t hr => ?_
  cases r with
  | error e => exact hr
  | ok v => simp [sendMail]

theorem rejectVisit_rollsBack {dto : RejectVisitDto} :
    (rejectVisit orgId userId role visitId dto).Post (AllOrNothing s fun _ _ => True) s := by
  rw [rejectVisit, Prog.post_bind]
  refine decideVisit_rollsBack.mono fun r t hr => ?_
  cases r with
  | error e => exact hr
  | ok v => simp [sendMail]

/-- A reminder is the last statement of its request. -/
theorem resendVisitNotification_rollsBack {systemId : Option String} :
    (resendVisitNotification io systemId role orgId visitId).Post (AllOrNothing s fun _ _ => True) s := by
  simp only [resendVisitNotification, Prog.post_bind, Prog.post_failIf, Prog.then_ok, Prog.then_error, post_query, Prog.post_orFail,
    allOrNothing_error, implies_true, true_and, and_true]
  intro _ _ _ _ _ _ _ _ _
  exact createNotification_spec (fun _ => rfl) fun _ _ => trivial

theorem deleteNotification_rollsBack {notificationId : String} :
    (NotificationsService.deleteNotification userId orgId role notificationId).Post (AllOrNothing s fun _ _ => True) s := by
  simp only [NotificationsService.deleteNotification, Prog.post_bind, Prog.post_failIf, Prog.then_ok, Prog.then_error, post_query,
    Prog.post_orFail, allOrNothing_error, implies_true, true_and, and_true, post_transaction]
  intro _ _ _
  refine Prog.Returns.mono (Q := fun _ _ => True) trivial fun r t _ => ?_
  cases r with
  | error e => rfl
  | ok _ => trivial

end Decision

/-! ### All requests -/

section Requests
variable {js : Js} {q : Request} {s : Db}

/-- The request fails before it writes, or it writes in a transaction. -/
def Safe (js : Js) (q : Request) (s : Db) : Prop :=
  match q.op with
  | .startVisit systemId dto _ => ¬Admitted js q.io s q.orgId systemId dto
  | .endVisit dto systemId role => ∀ v, ¬Found js q.io s q.orgId systemId role dto v
  | .endVisitQr role visitId => ∀ v, ¬MayScan s q.orgId role visitId v
  | _ => True

theorem Untouched.refl : Untouched s s := ⟨rfl, rfl⟩

theorem harmless_of_rollsBack {α : Type} {p : Service α} {done : α → Db → Prop} (h : p.Post (AllOrNothing s done) s) :
    ∀ e t, Prog.Exec (do let _ ← p : Service Unit) s (.error e) t → Untouched s t := fun e t hexec => by
  have hsame : t = s := h.of_exec (Prog.exec_discard_error.mp hexec)
  rw [hsame]
  exact .refl

end Requests

/-- Whatever fails, a request that fails leaves visits and notifications as they were, exactly if its checks refuse
    it before it writes, or it is no check-in and no check-out. -/
theorem failures_harmless_iff (js : Js) (q : Request) (s : Db) : HarmlessFailure js q s ↔ Safe js q s := by
  obtain ⟨io, orgId, op⟩ := q
  cases op with
  | startVisit =>
    simp only [HarmlessFailure, Request.call, Prog.exec_discard_error]
    exact harmless_startVisit
  | endVisit =>
    simp only [HarmlessFailure, Request.call, Prog.exec_discard_error]
    refine harmless_iff_of_completes writesAfter_endVisit fun v found => ?_
    obtain ⟨hmem, hwanted⟩ := Table.mem_filter.mp (RowOrder.mem_of_first found.first)
    simp only [Wanted, Bool.and_eq_true, beq_iff_eq] at hwanted
    exact ⟨hmem, by simp [hwanted.2]⟩
  | endVisitQr =>
    simp only [HarmlessFailure, Request.call, Prog.exec_discard_error]
    exact harmless_iff_of_completes writesAfter_endVisitQr fun v may => ⟨may.mem, may.status⟩
  | acceptVisit => exact iff_of_true (harmless_of_rollsBack acceptVisit_rollsBack) trivial
  | rejectVisit => exact iff_of_true (harmless_of_rollsBack rejectVisit_rollsBack) trivial
  | resendVisitNotification => exact iff_of_true (harmless_of_rollsBack resendVisitNotification_rollsBack) trivial
  | deleteNotification => exact iff_of_true (harmless_of_rollsBack deleteNotification_rollsBack) trivial

section
open Reception

theorem admitted_bob : Admitted js (request "1" 0 checkIn).io db "org" (some "desk")
    { fullName := "bob", visitorOrganization := "Co", email := "bob@mail.com", reasonId := "meeting", staffId := "ann" } where
  account := ⟨_, Table.mem_singleton.mpr rfl, rfl, rfl⟩
  host := ⟨ann, Table.mem_singleton.mpr rfl, rfl, rfl⟩
  absent _ hv := absurd hv Table.not_mem_empty
  organization := rfl
  reason := rfl
  free := rfl

/-- A check-in whose notification or mail fails leaves its visit. -/
theorem failed_check_in_stays : ¬∀ js q s, HarmlessFailure js q s := fun h =>
  harmless_startVisit.mp (fun e t hexec => h js (request "1" 0 checkIn) db e t (Prog.exec_discard_error.mpr hexec)) admitted_bob

end

end Vms.VisitService
