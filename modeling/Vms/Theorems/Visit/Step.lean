import Vms.Visit
import Vms.Lib.System

/-! What one request does to visits and notifications. Any statement may fail, so a check-in may end
    after the visit and before its notification; every other request has one effect or none. Everything
    later about runs of these requests rests on `request_inv`. -/

namespace Vms.VisitService
open Relational HttpException

/-! ### Elementary updates -/

/-- `t` is `s` with one more visit. -/
structure Adds (s t : Db) (v : Visit) : Prop where
  visit : s.visit.insert v = some t.visit
  rest : t = { s with visit := t.visit }

/-- `t` is `s` with one more notification, of a stored visit. -/
structure Notifies (s t : Db) (n : Notification) : Prop where
  stored : (s.visit.find n.visitId).isSome
  notification : s.notification.insert n = some t.notification
  rest : t = { s with notification := t.notification }

/-- `t` is `s` with the visit `v` replaced by `v'`. -/
structure Replaces (s t : Db) (v v' : Visit) : Prop where
  mem : v ∈ s.visit
  visits : ∀ w, w ∈ t.visit ↔ w = v' ∨ (w ∈ s.visit ∧ w.id ≠ v.id)

/-- `t` is `s` with the visit `v` ended. -/
structure Completes (s t : Db) (v : Visit) (endTime : Date) : Prop extends
    Replaces s t v { v with status := .completed, endTime := some endTime } where
  rest : t = { s with visit := t.visit }

/-- `t` is `s` with the pending visit `v` decided, and its notifications answered. -/
structure Decides (s t : Db) (v v' : Visit) (action : NotificationAction) : Prop extends Replaces s t v v' where
  pending : v.status = .pending
  notifications : t.notification = s.notification.update (·.visitId == v.id)
    fun notification => { notification with action, isRead := true }
  rest : t = { s with visit := t.visit, notification := t.notification }

/-- `t` is `s` without the notification `n`. -/
structure Removes (s t : Db) (n : Notification) : Prop where
  mem : n ∈ s.notification
  notification : t.notification = s.notification.delete (·.id == n.id)
  rest : t = { s with notification := t.notification }

/-! ### Requests -/

inductive Operation where
  | startVisit (systemId : Option String) (dto : StartVisitDto) (checkInPicture : Bool)
  | endVisit (dto : EndVisitDto) (systemId role : Option String)
  | endVisitQr (role visitId : String)
  | acceptVisit (userId role visitId : String) (dto : AcceptVisitDto)
  | rejectVisit (userId role visitId : String) (dto : RejectVisitDto)
  | resendVisitNotification (systemId : Option String) (role visitId : String)
  | deleteNotification (userId role notificationId : String)

/-- A request with a token of an organisation. -/
structure Request where
  io : Io
  orgId : String
  op : Operation

def Request.call (js : Js) (q : Request) : Service Unit :=
  match q.op with
  | .startVisit systemId dto checkInPicture => do let _ ← startVisit js q.io q.orgId systemId dto checkInPicture
  | .endVisit dto systemId role => do let _ ← endVisit js q.io q.orgId dto systemId role
  | .endVisitQr role visitId => do let _ ← endVisitQr q.io q.orgId role visitId
  | .acceptVisit userId role visitId dto => do let _ ← acceptVisit q.io q.orgId userId role visitId dto
  | .rejectVisit userId role visitId dto => do let _ ← rejectVisit q.orgId userId role visitId dto
  | .resendVisitNotification systemId role visitId => do
    let _ ← resendVisitNotification q.io systemId role q.orgId visitId
  | .deleteNotification userId role notificationId => do
    let _ ← NotificationsService.deleteNotification userId q.orgId role notificationId

/-- The staff row of a user, in the user's organisation. -/
def Caller (s : Db) (orgId userId : String) (staff : Staff) : Prop :=
  staff ∈ s.staff ∧ staff.userId = some userId ∧ staff.orgId = orgId

/-- The caller may decide about a visit: it is the host's own, or the caller has a role above. -/
structure MayDecide (s : Db) (orgId userId role visitId : String) (v : Visit) : Prop where
  caller : ∃ staff, Caller s orgId userId staff ∧ (v.staffId = staff.id ∨ role = "SuperAdmin" ∨ role = "Admin")
  role : role = "SuperAdmin" ∨ role = "Admin" ∨ role = "Staff"
  id : v.id = visitId
  org : v.orgId = orgId

/-- The checks of a check-out by QR code. -/
structure MayScan (s : Db) (orgId role visitId : String) (v : Visit) : Prop where
  mem : v ∈ s.visit
  role : role = "System"
  organization : (s.organization.find orgId).isSome
  id : v.id = visitId
  given : orgId ≠ "" ∧ visitId ≠ ""
  org : v.orgId = orgId
  status : v.status ≠ .completed

/-- What a request does if it does anything. -/
inductive Acted (js : Js) (s : Db) (q : Request) (t : Db) : Prop where
  | checkIn (systemId : Option String) (dto : StartVisitDto) (checkInPicture : Bool) (picture : Option String) (u : Db)
    (op : q.op = .startVisit systemId dto checkInPicture)
    (adds : Adds s u (newVisit q.io q.orgId (js.trim dto.fullName) (js.trim (js.toLowerCase dto.email)) dto picture))
    (rest : t = u ∨ ∃ n, n.orgId = q.orgId ∧ n.visitId = q.io.visitId ∧ Notifies u t n)
  | checkOut (dto : EndVisitDto) (systemId role : Option String) (v : Visit) (op : q.op = .endVisit dto systemId role)
    (org : v.orgId = q.orgId) (ongoing : v.status = .ongoing) (completes : Completes s t v q.io.now)
  | checkOutQr (role visitId : String) (v : Visit) (op : q.op = .endVisitQr role visitId)
    (may : MayScan s q.orgId role visitId v) (completes : Completes s t v q.io.now)
  | accept (userId role visitId : String) (dto : AcceptVisitDto) (v : Visit)
    (op : q.op = .acceptVisit userId role visitId dto) (may : MayDecide s q.orgId userId role visitId v)
    (decides : Decides s t v { v with status := .ongoing, remarks := dto.reason, startTime := some q.io.now } .accepted)
  | reject (userId role visitId : String) (dto : RejectVisitDto) (v : Visit)
    (op : q.op = .rejectVisit userId role visitId dto) (may : MayDecide s q.orgId userId role visitId v)
    (decides : Decides s t v { v with status := .rejected, remarks := some dto.reason } .rejected)
  | remind (systemId : Option String) (role visitId : String) (v : Visit) (n : Notification)
    (op : q.op = .resendVisitNotification systemId role visitId) (mem : v ∈ s.visit) (org : v.orgId = q.orgId)
    (of : n.orgId = q.orgId ∧ n.visitId = v.id) (notifies : Notifies s t n)
  | delete (userId role notificationId : String) (staff : Staff) (n : Notification)
    (op : q.op = .deleteNotification userId role notificationId) (caller : Caller s q.orgId userId staff)
    (own : n.staffId = staff.id) (org : n.orgId = q.orgId) (removes : Removes s t n)

/-! ### Statements -/

section Statements
variable {s : Db}

/-- A check-in stores its visit, and then leaves the visits alone. -/
theorem Adds.visits_of_rest {t u : Db} {v : Visit} {orgId visitId : String} (h : Adds s u v)
    (rest : t = u ∨ ∃ n, n.orgId = orgId ∧ n.visitId = visitId ∧ Notifies u t n) : s.visit.insert v = some t.visit := by
  rcases rest with rfl | ⟨n, -, -, notifies⟩
  · exact h.visit
  · rw [h.visit, notifies.rest]

theorem createVisit_spec {v : Visit} {Q : Except HttpException VisitDetails → Db → Prop} (refused : ∀ e, Q (.error e) s)
    (added : ∀ d t, d.visit = v → (∀ id, v.reasonId = some id → (s.reasonOfVisit.find id).isSome) → Adds s t v → Q (.ok d) t) :
    (createVisit v).Post Q s := by
  rw [createVisit, post_mutate]
  refine ⟨⟨fun e _ => refused e, fun d t h => ?_⟩, refused _⟩
  cases hc : created ((s.organization.find v.orgId).isSome && (s.staff.find v.staffId).isSome &&
      v.reasonId.all fun id => (s.reasonOfVisit.find id).isSome) v (s.visit.insert v)
      (fun u => { s with visit := u }) with
  | error e =>
    rw [hc] at h
    cases h
  | ok p =>
    rw [hc] at h
    obtain ⟨rfl, rfl⟩ := Prod.mk.inj (Except.ok.inj h)
    obtain ⟨hstored, hv, u, hu, ht⟩ := created_eq_ok.mp hc
    rw [Bool.and_eq_true] at hstored
    exact added _ _ hv (fun id hid => by simpa [hid] using hstored.2) ⟨by rw [ht]; exact hu, by rw [ht]⟩

theorem createNotification_spec {n : Notification} {Q : Except HttpException Notification → Db → Prop}
    (refused : ∀ e, Q (.error e) s) (added : ∀ t, Notifies s t n → Q (.ok n) t) : (createNotification n).Post Q s := by
  rw [createNotification, post_mutate]
  refine ⟨⟨fun e _ => refused e, fun d t h => ?_⟩, refused _⟩
  obtain ⟨hrefs, rfl, u, hu, rfl⟩ := created_eq_ok.mp h
  exact added _ ⟨(Bool.and_eq_true_iff.mp hrefs).2, hu, rfl⟩

theorem completeVisit_spec {v : Visit} {endTime : Date} {Q : Except HttpException VisitDetails → Db → Prop}
    (hv : v ∈ s.visit) (refused : ∀ e, Q (.error e) s) (completed : ∀ d t, Completes s t v endTime → Q (.ok d) t) :
    (completeVisit v.id endTime).Post Q s := by
  have hfind : s.visit.find v.id = some v := Table.find_of_mem hv
  rw [completeVisit, post_mutate, hfind]
  refine ⟨⟨fun e _ => refused e, fun d t h => ?_⟩, refused _⟩
  obtain ⟨-, rfl⟩ := Prod.mk.inj (Except.ok.inj h)
  exact completed d _ ⟨⟨hv, Table.mem_update_one (by exact ⟨fun _ => rfl, fun _ _ => rfl⟩) hv fun _ _ => beq_iff_eq⟩, rfl⟩

end Statements

/-! ### Operations -/

section Operations
variable {js : Js} {s : Db} {io : Io} {orgId userId visitId : String} {systemId : Option String}

/-- `startVisit` passes its checks. -/
structure MayStart (js : Js) (s : Db) (orgId : String) (systemId : Option String) (dto : StartVisitDto) : Prop where
  account : ∃ system ∈ s.systemCredential, systemId = some system.id ∧ system.orgId = orgId
  host : ∃ staff ∈ s.staff, staff.id = dto.staffId ∧ staff.orgId = orgId
  absent : ∀ v ∈ s.visit, isActive v.status = true → v.orgId = orgId → v.email ≠ js.trim (js.toLowerCase dto.email)

/-- The notification of a check-in. -/
def arrival (io : Io) (orgId : String) (dto : StartVisitDto) : Notification where
  id := io.notificationId
  orgId := orgId
  staffId := dto.staffId
  visitId := io.visitId
  type := .visitRequest
  title := "New visitor"
  message := s!"{dto.fullName} is here to see you."
  createdAt := io.notificationCreatedAt

/-- The query for an active visit of an email finds none, in whatever order it reads the rows. -/
theorem no_active_iff {visits : RowOrder Visit} {email : String} :
    ¬(visits.first (s.visit.filter fun visit => visit.email == email && visit.orgId == orgId &&
      isActive visit.status)).isSome = true ↔ ∀ v ∈ s.visit, isActive v.status = true → v.orgId = orgId → v.email ≠ email := by
  rw [Option.not_isSome_iff_eq_none, RowOrder.first_eq_none, List.eq_nil_iff_forall_not_mem]
  constructor
  · intro hnone v hv hactive hvorg hemail
    exact hnone v (Table.mem_filter.mpr ⟨hv, by simp [hemail, hvorg, hactive]⟩)
  · intro absent v hv
    obtain ⟨hmem, hp⟩ := Table.mem_filter.mp hv
    simp only [Bool.and_eq_true, beq_iff_eq] at hp
    exact absent v hmem hp.2 hp.1.2 hp.1.1

/-- The checks pass and the visit is stored, with its notification or without; or nothing happens. -/
theorem startVisit_post {dto : StartVisitDto} {checkInPicture : Bool} {Q : Except HttpException StartVisitReply → Db → Prop}
    (fails : ∀ e, Q (.error e) s)
    (stored : ∀ picture u, MayStart js s orgId systemId dto → (s.reasonOfVisit.find dto.reasonId).isSome →
      Adds s u (newVisit io orgId (js.trim dto.fullName) (js.trim (js.toLowerCase dto.email)) dto picture) →
      ∀ r t, t = u ∨ Notifies u t (arrival io orgId dto) → Q r t) :
    (startVisit js io orgId systemId dto checkInPicture).Post Q s := by
  simp only [startVisit, Prog.post_bind, Prog.post_orFail, Prog.then_ok, Prog.then_error, post_query, Prog.post_failIf, fails,
    implies_true, true_and, and_true, Option.filter_eq_some_iff, Table.find_eq_some, beq_iff_eq, not_not, no_active_iff]
  rintro account haccount system ⟨hsystem, rfl⟩ horg staff ⟨⟨hstaff, hid⟩, hstaffOrg⟩ absent
  have may : MayStart js s orgId systemId dto :=
    ⟨⟨system, hsystem, haccount, horg⟩, ⟨staff, hstaff, hid, hstaffOrg⟩, absent⟩
  have upload : (uploadImage io checkInPicture).Post (fun r t => t = s ∧ ((∃ e, r = .error e) ∨ ∃ url, r = .ok url)) s := by
    unfold uploadImage
    split <;> simp
  refine upload.mono fun r t hr => ?_
  obtain ⟨rfl, ⟨e, rfl⟩ | ⟨picture, rfl⟩⟩ := hr
  · exact fails e
  rw [Prog.then_ok, Prog.post_bind]
  refine createVisit_spec (fun e => fails e) fun details u hdetails hreason adds => ?_
  have after := stored picture u may (hreason _ rfl) adds
  rw [Prog.then_ok, Prog.post_bind, hdetails]
  -- the visit is stored: whatever follows, it stays
  refine createNotification_spec (fun e => after _ u (Or.inl rfl)) fun v notifies => ?_
  simp only [sendMail, Prog.then_ok, Prog.then_error, Prog.post_bind, post_outside, Prog.post_pure]
  exact ⟨⟨after _ v (Or.inr notifies), after _ v (Or.inr notifies)⟩, after _ v (Or.inr notifies)⟩

theorem startVisit_spec {dto : StartVisitDto} {checkInPicture : Bool} :
    (startVisit js io orgId systemId dto checkInPicture).Post (Attempt s fun t => ∃ picture u,
      Adds s u (newVisit io orgId (js.trim dto.fullName) (js.trim (js.toLowerCase dto.email)) dto picture) ∧
      (t = u ∨ ∃ n, n.orgId = orgId ∧ n.visitId = io.visitId ∧ Notifies u t n)) s :=
  startVisit_post (fun _ => Attempt.refused) fun picture u _ _ adds _ _ rest =>
    Attempt.effect ⟨picture, u, adds, rest.imp_right fun notifies => ⟨_, rfl, rfl, notifies⟩⟩

theorem checkSystemAccount_reads : (checkSystemAccount orgId systemId).Post
    (fun r t => t = s ∧ ((∃ e, r = .error e) ∨ r = .ok ())) s := by
  unfold checkSystemAccount
  split
  · simp
  · simp only [Prog.post_bind, post_query, Prog.then_ok, Prog.then_error, Prog.post_orFail, Prog.post_failIf]
    simp

theorem endVisit_spec {dto : EndVisitDto} {role : Option String} :
    (endVisit js io orgId dto systemId role).Post (Attempt s fun t => ∃ v, v.orgId = orgId ∧ v.status = .ongoing ∧
      Completes s t v io.now) s := by
  rw [endVisit, Prog.post_bind]
  refine checkSystemAccount_reads.mono fun r t hr => ?_
  obtain ⟨rfl, ⟨e, rfl⟩ | rfl⟩ := hr
  · rw [Prog.then_error]
    exact Attempt.refused
  simp only [Prog.then_ok, post_query, Prog.post_bind, Prog.post_orFail, Prog.then_error, Attempt.refused, implies_true,
    true_and, and_true, Prog.post_failIf]
  intro v hv hrole
  obtain ⟨hmem, hp⟩ := Table.mem_filter.mp (RowOrder.mem_of_first hv)
  simp only [Bool.and_eq_true, beq_iff_eq] at hp
  refine completeVisit_spec hmem (fun e => ?_) fun d u completes => ?_
  · rw [Prog.then_error]
    exact Attempt.refused
  have acted : ∃ v, v.orgId = orgId ∧ v.status = .ongoing ∧ Completes t u v io.now := ⟨v, hp.1.1.2, hp.2, completes⟩
  simp only [sendMail, Prog.then_ok, Prog.then_error, Prog.post_bind, post_outside, Prog.post_pure]
  exact ⟨⟨Attempt.effect acted, Attempt.effect acted⟩, Attempt.effect acted⟩

theorem endVisitQr_spec {role : String} : (endVisitQr io orgId role visitId).Post
    (Attempt s fun t => ∃ v, MayScan s orgId role visitId v ∧ Completes s t v io.now) s := by
  simp only [endVisitQr, Prog.post_bind, Prog.post_failIf, Prog.then_ok, Prog.then_error, post_query, Prog.post_orFail,
    Attempt.refused, implies_true, true_and, and_true, Option.filter_eq_some_iff, bne_iff_ne]
  rintro horg hvisit hrole org hfind v ⟨hv, hstatus⟩ hown
  obtain ⟨hmem, hid⟩ := Table.find_eq_some.mp hv
  refine completeVisit_spec hmem (fun e => ?_) fun d u completes => ?_
  · rw [Prog.then_error]
    exact Attempt.refused
  have acted : ∃ v, MayScan s orgId role visitId v ∧ Completes s u v io.now :=
    ⟨v, ⟨hmem, by simpa using hrole, by rw [hfind]; rfl, hid, ⟨horg, hvisit⟩, not_not.mp hown, hstatus⟩, completes⟩
  simp only [sendMail, Prog.then_ok, Prog.then_error, Prog.post_bind, post_outside, Prog.post_pure]
  exact ⟨⟨Attempt.effect acted, Attempt.effect acted⟩, Attempt.effect acted⟩

/-- A notification as a decision leaves it. -/
def answered (action : NotificationAction) (notification : Notification) : Notification :=
  { notification with action, isRead := true }

theorem answered_keys (action : NotificationAction) : Row.Fixes (answered action) := ⟨fun _ => rfl, fun _ _ => rfl⟩

/-- A decision about a visit that answers some notifications. -/
def publish (visitId : String) (answers : Notification → Bool) (action : NotificationAction) (change : Visit → Visit)
    (keys : Row.Fixes change) : Service Visit := do
  let count ← updatePending visitId change keys
  Prog.failIf (count = 0) (.conflict "Visit already processed or invalid.")
  mutate fun s => .ok ((), { s with notification := s.notification.update answers (answered action) (answered_keys action) })
  Prog.orFail (.internalServerError "Visit updated but not found.") (← query (·.visit.find visitId))

/-- The transaction answers the notifications of the visit. -/
theorem decision_eq {action : NotificationAction} {change : Visit → Visit} {keys : Row.Fixes change} :
    decision visitId action change keys = publish visitId (·.visitId == visitId) action change keys := rfl

theorem publish_pending {v : Visit} {answers : Notification → Bool} {action : NotificationAction} {change : Visit → Visit}
    {keys : Row.Fixes change} (hv : v ∈ s.visit) (hpending : v.status = .pending) :
    (publish v.id answers action change keys).Returns (fun r t => r = .ok (change v) ∧ Replaces s t v (change v) ∧
      (t.notification = s.notification.update answers fun notification => { notification with action, isRead := true }) ∧
      t = { s with visit := t.visit, notification := t.notification }) s := by
  have one : ∀ w ∈ s.visit, (w.id == v.id && w.status == .pending) = true ↔ w.id = v.id := by
    intro w hw
    rw [Bool.and_eq_true, beq_iff_eq, beq_iff_eq]
    refine and_iff_left_of_imp fun hid => ?_
    rw [Table.eq_of_id hw hv hid]
    exact hpending
  have visits := Table.mem_update_one keys hv one
  have hfind : (s.visit.update (fun w => w.id == v.id && w.status == .pending) change keys).find v.id =
      some (change v) := Table.find_eq_some.mpr ⟨(visits _).mpr (Or.inl rfl), keys.1 v⟩
  have hcount : (s.visit.filter fun w => w.id == v.id && w.status == .pending).length ≠ 0 := fun hzero => by
    have hmem : v ∈ s.visit.filter fun w => w.id == v.id && w.status == .pending :=
      Table.mem_filter.mpr ⟨hv, (one v hv).mpr rfl⟩
    rw [List.length_eq_zero_iff.mp hzero] at hmem
    cases hmem
  simp only [publish, updatePending, returns_mutate, Prog.returns_bind, Prog.returns_failIf,
    Prog.then_ok, Prog.then_error, returns_query, Prog.returns_orFail, reduceCtorEq, false_implies, implies_true,
    true_and, Except.ok.injEq, Prod.mk.injEq, and_imp, forall_eq']
  refine fun count t hlen ht => ⟨fun hzero => absurd (hlen.trans hzero) hcount, fun _ _ => ?_⟩
  subst ht
  refine ⟨fun hnone => ?_, fun w hw => ?_⟩
  · rw [hfind] at hnone
    cases hnone
  · obtain rfl := Option.some.inj (hfind.symm.trans hw)
    exact ⟨rfl, ⟨hv, visits⟩, rfl, rfl⟩

theorem publish_not_pending {visitId : String} {answers : Notification → Bool} {action : NotificationAction}
    {change : Visit → Visit} {keys : Row.Fixes change} (h : ∀ v ∈ s.visit, v.id = visitId → v.status ≠ .pending) :
    (publish visitId answers action change keys).Returns
      (fun r _ => r = .error (.conflict "Visit already processed or invalid.")) s := by
  have hnil : (s.visit.filter fun v => v.id == visitId && v.status == .pending) = [] := by
    rw [List.eq_nil_iff_forall_not_mem]
    intro v hv
    obtain ⟨hmem, hp⟩ := Table.mem_filter.mp hv
    rw [Bool.and_eq_true, beq_iff_eq, beq_iff_eq] at hp
    exact h v hmem hp.1 hp.2
  simp [publish, updatePending, hnil]

/-- The transaction of a decision, where the visit is still pending. -/
theorem decision_pending {v : Visit} {action : NotificationAction} {change : Visit → Visit} {keys : Row.Fixes change}
    (hv : v ∈ s.visit) (hpending : v.status = .pending) :
    (decision v.id action change keys).Returns (fun r t => r = .ok (change v) ∧ Decides s t v (change v) action) s := by
  rw [decision_eq]
  refine (publish_pending hv hpending).mono fun r t h => ?_
  obtain ⟨hr, replaces, hnotification, hrest⟩ := h
  exact ⟨hr, replaces, hpending, hnotification, hrest⟩

/-- The transaction of a decision, where the visit is no longer pending. -/
theorem decision_not_pending {visitId : String} {action : NotificationAction} {change : Visit → Visit}
    {keys : Row.Fixes change} (h : ∀ v ∈ s.visit, v.id = visitId → v.status ≠ .pending) :
    (decision visitId action change keys).Returns
      (fun r _ => r = .error (.conflict "Visit already processed or invalid.")) s := by
  rw [decision_eq]
  exact publish_not_pending h

/-- A decision moves a pending visit and answers its notifications, or does nothing. -/
theorem decideVisit_spec {role : String} {action : NotificationAction} {change : Visit → Visit} {keys : Row.Fixes change} :
    (decideVisit orgId userId role visitId action change keys).Post (Attempt s fun t =>
      ∃ v, MayDecide s orgId userId role visitId v ∧ Decides s t v (change v) action) s := by
  simp only [decideVisit, Prog.post_bind, Prog.post_failIf, Prog.then_ok, Prog.then_error, post_query, Prog.post_orFail,
    Attempt.refused, implies_true, true_and, and_true, Option.filter_eq_some_iff, beq_iff_eq, post_transaction]
  rintro hrole staff ⟨hstaff, hstaffOrg⟩ v ⟨⟨hv, hpending⟩, horg⟩ hauthority
  obtain ⟨hmem, hid⟩ := Table.find_eq_some.mp hv
  obtain ⟨hmemStaff, huser⟩ := Table.mem_of_findBy hstaff
  have hid : v.id = visitId := hid
  subst hid
  refine (decision_pending hmem hpending).mono fun r t hr => ?_
  obtain ⟨rfl, decides⟩ := hr
  rw [Prog.rollback_ok]
  refine Attempt.effect ⟨v, ⟨⟨staff, ⟨hmemStaff, beq_iff_eq.mp huser, hstaffOrg⟩, ?_⟩, ?_, rfl, horg⟩, decides⟩
  · simp only [List.mem_cons, List.not_mem_nil, or_false] at hauthority
    tauto
  · simp only [List.mem_cons, List.not_mem_nil, or_false] at hrole
    tauto

theorem acceptVisit_spec {role : String} {dto : AcceptVisitDto} :
    (acceptVisit io orgId userId role visitId dto).Post (Attempt s fun t => ∃ v,
      MayDecide s orgId userId role visitId v ∧
      Decides s t v { v with status := .ongoing, remarks := dto.reason, startTime := some io.now } .accepted) s := by
  rw [acceptVisit, Prog.post_bind]
  refine decideVisit_spec.mono fun r t hr => ?_
  rcases hr with acted | ⟨rfl, e, rfl⟩
  · -- nothing after the transaction can undo it
    cases r with
    | error e =>
      rw [Prog.then_error]
      exact Attempt.effect acted
    | ok v =>
      simp only [sendMail, Prog.then_ok, Prog.then_error, Prog.post_bind, post_outside, Prog.post_pure, Prog.post_orElse,
        Prog.else_ok, Prog.else_error, and_self]
      exact Attempt.effect acted
  · rw [Prog.then_error]
    exact Attempt.refused

theorem rejectVisit_spec {role : String} {dto : RejectVisitDto} :
    (rejectVisit orgId userId role visitId dto).Post (Attempt s fun t => ∃ v,
      MayDecide s orgId userId role visitId v ∧
      Decides s t v { v with status := .rejected, remarks := some dto.reason } .rejected) s := by
  rw [rejectVisit, Prog.post_bind]
  refine decideVisit_spec.mono fun r t hr => ?_
  rcases hr with acted | ⟨rfl, e, rfl⟩
  · cases r with
    | error e =>
      rw [Prog.then_error]
      exact Attempt.effect acted
    | ok v =>
      simp only [sendMail, Prog.then_ok, Prog.post_bind, post_outside, Prog.post_pure, Prog.post_orElse,
        Prog.else_ok, Prog.else_error, and_self]
      exact Attempt.effect acted
  · rw [Prog.then_error]
    exact Attempt.refused

theorem resendVisitNotification_spec {role : String} : (resendVisitNotification io systemId role orgId visitId).Post
    (Attempt s fun t => ∃ v n, v ∈ s.visit ∧ v.orgId = orgId ∧ (n.orgId = orgId ∧ n.visitId = v.id) ∧ Notifies s t n) s := by
  simp only [resendVisitNotification, Prog.post_bind, Prog.post_failIf, Prog.then_ok, Prog.then_error, post_query,
    Prog.post_orFail, Attempt.refused, implies_true, true_and, and_true, Option.filter_eq_some_iff, beq_iff_eq]
  rintro hrole account haccount system hsystem v ⟨hv, horg⟩ hpending hwait
  refine createNotification_spec (fun e => Attempt.refused) fun t notifies => ?_
  exact Attempt.effect ⟨v, _, (Table.find_eq_some.mp hv).1, horg, ⟨rfl, rfl⟩, notifies⟩

theorem deleteNotification_spec {role notificationId : String} :
    (NotificationsService.deleteNotification userId orgId role notificationId).Post (Attempt s fun t => ∃ staff n,
      Caller s orgId userId staff ∧ n.staffId = staff.id ∧ n.orgId = orgId ∧ Removes s t n) s := by
  simp only [NotificationsService.deleteNotification, Prog.post_bind, Prog.post_failIf, Prog.then_ok, Prog.then_error,
    post_query, Prog.post_orFail, Attempt.refused, implies_true, true_and, and_true, Option.filter_eq_some_iff,
    beq_iff_eq, post_transaction, Prog.returns_bind, returns_query, Prog.returns_orFail, Prog.rollback_error,
    returns_mutate, Bool.and_eq_true]
  rintro hrole staff ⟨hstaff, hstaffOrg⟩ n ⟨⟨hn, ⟨hown, horg⟩, hread⟩, hanswered⟩ _ t hdelete
  obtain ⟨hmemStaff, huser⟩ := Table.mem_of_findBy hstaff
  obtain ⟨hmem, hid⟩ := Table.find_eq_some.mp hn
  have hid : n.id = notificationId := hid
  split at hdelete
  · cases hdelete
  · obtain ⟨-, rfl⟩ := Prod.mk.inj (Except.ok.inj hdelete)
    rw [Prog.rollback_ok, Prog.then_ok, Prog.post_pure]
    refine Attempt.effect ⟨staff, n, ⟨hmemStaff, beq_iff_eq.mp huser, hstaffOrg⟩, hown, horg, hmem, ?_, rfl⟩
    rw [hid]

/-- A refused request changes nothing, unless it is a check-in that fails after its visit was stored. -/
theorem call_spec {q : Request} : (q.call js).Post (Attempt s (Acted js s q)) s := by
  have keep : ∀ {α : Type} {p : Service α} {P : Db → Prop}, p.Post (Attempt s P) s → (∀ t, P t → Acted js s q t) →
      (do let _ ← p : Service Unit).Post (Attempt s (Acted js s q)) s := by
    intro α p P hp himp
    rw [Prog.post_bind]
    refine hp.mono fun r t hr => ?_
    rcases hr with acted | ⟨rfl, e, rfl⟩
    · cases r with
      | error e => exact Attempt.effect (himp t acted)
      | ok a => exact Attempt.effect (himp t acted)
    · exact Attempt.refused
  unfold Request.call
  split
  · rename_i systemId dto checkInPicture op
    exact keep startVisit_spec fun t ⟨picture, u, adds, rest⟩ =>
      .checkIn systemId dto checkInPicture picture u op adds rest
  · rename_i dto systemId role op
    exact keep endVisit_spec fun t ⟨v, org, ongoing, completes⟩ => .checkOut dto systemId role v op org ongoing completes
  · rename_i role visitId op
    exact keep endVisitQr_spec fun t ⟨v, may, completes⟩ => .checkOutQr role visitId v op may completes
  · rename_i userId role visitId dto op
    exact keep acceptVisit_spec fun t ⟨v, may, decides⟩ => .accept userId role visitId dto v op may decides
  · rename_i userId role visitId dto op
    exact keep rejectVisit_spec fun t ⟨v, may, decides⟩ => .reject userId role visitId dto v op may decides
  · rename_i systemId role visitId op
    exact keep resendVisitNotification_spec fun t ⟨v, n, mem, org, of, notifies⟩ =>
      .remind systemId role visitId v n op mem org of notifies
  · rename_i userId role notificationId op
    exact keep deleteNotification_spec fun t ⟨staff, n, caller, own, org, removes⟩ =>
      .delete userId role notificationId staff n op caller own org removes

end Operations

/-! ### Runs -/

/-- The runs of these requests, one after another, in which any statement may fail. They start without
    visits and notifications, over any organisations, staff members and accounts. -/
def visiting (js : Js) : System Db Request where
  init s := s.visit = ∅ ∧ s.notification = ∅
  step s q t := ∃ r, Prog.Exec (q.call js) s r t

theorem request_inv {js : Js} {s t : Db} {q : Request} (h : (visiting js).step s q t) : t = s ∨ Acted js s q t := by
  obtain ⟨r, hexec⟩ := h
  rcases call_spec.of_exec hexec with acted | ⟨rfl, -⟩
  · exact Or.inr acted
  · exact Or.inl rfl

theorem request_succeeded {js : Js} {s t : Db} {q : Request} (h : Prog.Exec (q.call js) s (.ok ()) t) :
    Acted js s q t := by
  rcases call_spec.of_exec h with acted | ⟨-, e, he⟩
  · exact acted
  · cases he

/-- The state after some requests, each of them run without failures. -/
def runAll (js : Js) (s : Db) (qs : List Request) : Db := qs.foldl (fun s q => ((q.call js).run s).2) s

theorem reachable_runAll {js : Js} {s : Db} (h : (visiting js).Reachable s) (qs : List Request) :
    (visiting js).Reachable (runAll js s qs) := by
  have hrun : ∀ s q, (visiting js).step s q ((q.call js).run s).2 := fun s q => ⟨_, Prog.exec_run (q.call js) s⟩
  exact h.foldl hrun fun _ _ _ => trivial

/-! ### A reception with one host -/

namespace Reception

/-- The texts of these requests are trimmed and in lower case. -/
def js : Js := { toLowerCase := id, trim := id, toLocaleString := fun _ => "1/1/1970, 9:00:00 AM" }

def ann : Staff := { id := "ann", orgId := "org", userId := some "ann-user", name := "Ann", email := "ann@mail.com" }

def db : Db where
  organization := {{ id := "org", name := "Org", email := "org@mail.com" }}
  staff := {ann}
  userCredential := {{ id := "ann-user", orgId := some "org", email := "ann@mail.com", role := .staff }}
  systemCredential := {{ id := "desk", orgId := "org", email := "desk@mail.com" }}
  reasonOfVisit := {{ id := "meeting", orgId := "org", name := "Meeting" }}

/-- A request whose rows are named after `n`. -/
def request (n : String) (now : Date) (op : Operation) : Request where
  io := { now, repliedAt := now, visitId := "v" ++ n, visitCreatedAt := now, notificationId := "n" ++ n,
          notificationCreatedAt := now, imageUrl := "", visits := .stored, notifications := .stored }
  orgId := "org"
  op := op

/-- Bob asks for Ann. -/
def checkIn : Operation := .startVisit (some "desk")
  { fullName := "bob", visitorOrganization := "Co", email := "bob@mail.com", reasonId := "meeting", staffId := "ann" } false

def scan (visitId : String) : Operation := .endVisitQr "System" visitId

def accept (visitId : String) : Operation := .acceptVisit "ann-user" "Staff" visitId {}

end Reception

end Vms.VisitService
