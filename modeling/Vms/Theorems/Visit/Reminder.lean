import Vms.Theorems.Visit.Decision
import Vms.Theorems.Visit.Throttle

/-! Reminders while the host decides. A decision answers the notifications that are there when its transaction
    updates them, and publishes the answer when it commits; a request that has read the visit as pending sends its
    reminder some statements later. -/

namespace Vms.VisitService
open Relational HttpException

/-! ### The statements of a decision -/

/-- The transaction of a decision, statement by statement, as others see it under READ COMMITTED. Its first statement
    locks the visit: a rival waits for the commit, and then finds the visit decided. The second one answers the
    notifications that are committed by then. -/
def decisionStatements (visitId : String) (action : NotificationAction) (change : Visit → Visit)
    (keys : Row.Fixes change) : Service Visit := do
  let count ← query fun s => (s.visit.filter fun visit => visit.id == visitId && visit.status == .pending).length
  Prog.failIf (count = 0) (.conflict "Visit already processed or invalid.")
  let answered ← query fun s => (s.notification.filter (·.visitId == visitId)).map (·.id)
  transaction (publish visitId (fun notification => answered.contains notification.id) action change keys)

/-- `decideVisit`, statement by statement. -/
def decideStatements (orgId userId role visitId : String) (action : NotificationAction) (change : Visit → Visit)
    (keys : Row.Fixes change) : Service Visit := do
  let allowedRoles := ["SuperAdmin", "Admin", "Staff"]
  Prog.failIf (role ∉ allowedRoles) (.unauthorized "Unauthorized role.")
  let staffExists ← query fun s => (s.staff.findBy (·.userId == some userId)).filter (·.orgId == orgId)
  let staffExists ← Prog.orFail (.notFound "Staff doesn't exists.") staffExists
  let visitExists ← query fun s => (s.visit.find visitId).filter (·.status == .pending)
  let visitExists ← Prog.orFail (.notFound "No such visit found.") (visitExists.filter (·.orgId == orgId))
  Prog.failIf (visitExists.staffId ≠ staffExists.id ∧ role ∉ ["SuperAdmin", "Admin"])
    (.unauthorized "Unauthorised update attempt.")
  decisionStatements visitId action change keys

def accepted (now : Date) (remarks : Option String) (visit : Visit) : Visit :=
  { visit with status := .ongoing, remarks, startTime := some now }

theorem accepted_keys (now : Date) (remarks : Option String) : Row.Fixes (accepted now remarks) := ⟨fun _ => rfl, fun _ _ => rfl⟩

def rejected (remarks : Option String) (visit : Visit) : Visit := { visit with status := .rejected, remarks }

theorem rejected_keys (remarks : Option String) : Row.Fixes (rejected remarks) := ⟨fun _ => rfl, fun _ _ => rfl⟩

/-- A decision, statement by statement. -/
def Decision.statements (visitId : String) : Decision → Service String
  | .accept io orgId userId role dto => do
    let _ ← decideStatements orgId userId role visitId .accepted (accepted io.now dto.reason) (accepted_keys io.now dto.reason)
    (outside (.error "Failed to generate QR code")).orElse fun _ => pure ()
    (do sendMail; sendMail : Service Unit).orElse fun _ => pure ()
    return "Host has accepted the visit request."
  | .reject orgId userId role dto => do
    let _ ← decideStatements orgId userId role visitId .rejected (rejected (some dto.reason)) (rejected_keys (some dto.reason))
    sendMail.orElse fun _ => pure ()
    return "Host has rejected the visit request."

section Alone
variable {s : Db} {visitId : String} {action : NotificationAction} {change : Visit → Visit} {keys : Row.Fixes change}

theorem count_pending : (s.visit.filter fun visit => visit.id == visitId && visit.status == .pending).length = 0 ↔
    ¬Waits visitId s := by
  rw [List.length_eq_zero_iff, List.eq_nil_iff_forall_not_mem]
  constructor
  · rintro hnone ⟨v, hv, hid, hpending⟩
    exact hnone v (Table.mem_filter.mpr ⟨hv, by simp [hid, hpending]⟩)
  · intro hwaits v hv
    obtain ⟨hmem, hp⟩ := Table.mem_filter.mp hv
    rw [Bool.and_eq_true, beq_iff_eq, beq_iff_eq] at hp
    exact hwaits ⟨v, hmem, hp.1, hp.2⟩

/-- The keys of the notifications of a visit. -/
theorem mem_answered {n : Notification} (hn : n ∈ s.notification) :
    ((s.notification.filter (·.visitId == visitId)).map (·.id)).contains n.id = (n.visitId == visitId) := by
  rw [Bool.eq_iff_iff, List.contains_iff_mem, List.mem_map, beq_iff_eq]
  constructor
  · rintro ⟨m, hm, hid⟩
    obtain ⟨hmem, hof⟩ := Table.mem_filter.mp hm
    rw [← Table.eq_of_id hmem hn hid]
    exact beq_iff_eq.mp hof
  · exact fun hof => ⟨n, Table.mem_filter.mpr ⟨hn, beq_iff_eq.mpr hof⟩, rfl⟩

theorem publish_congr {p q : Notification → Bool} (h : ∀ n ∈ s.notification, p n = q n) :
    (publish visitId p action change keys).run s = (publish visitId q action change keys).run s := by
  refine Prog.run_bind_congr rfl fun count t hupdate => Prog.run_bind_congr rfl fun _ u hcheck => ?_
  have hnotification : u.notification = s.notification := by
    have ht : t = { s with visit := s.visit.update (fun visit => visit.id == visitId && visit.status == .pending) change keys } :=
      (Prod.mk.inj hupdate).2.symm
    rw [Prog.state_of_failIf hcheck, ht]
  have hsame : u.notification.update p (answered action) (answered_keys action) =
      u.notification.update q (answered action) (answered_keys action) :=
    Table.update_congr fun n hn => h n (hnotification ▸ hn)
  refine Prog.run_bind_congr ?_ fun _ _ _ => rfl
  show (Except.ok (), { u with notification := _ }) = (Except.ok (), { u with notification := _ })
  rw [hsame]

/-- Statements that nobody interrupts make the transaction. -/
theorem decisionStatements_alone :
    (decisionStatements visitId action change keys).run s = (transaction (decision visitId action change keys)).run s := by
  have hread : (decisionStatements visitId action change keys).run s =
      (Prog.failIf ((s.visit.filter fun visit => visit.id == visitId && visit.status == .pending).length = 0)
          (.conflict "Visit already processed or invalid.") >>= fun _ =>
        transaction (publish visitId (fun n => ((s.notification.filter (·.visitId == visitId)).map (·.id)).contains n.id)
          action change keys)).run s := by
    refine (Prog.run_bind_ok (t := s) rfl).trans (Prog.run_bind_congr rfl fun _ t hcheck => ?_)
    obtain rfl := Prog.state_of_failIf hcheck
    exact Prog.run_bind_ok rfl
  have hatomic : (transaction (decision visitId action change keys)).run s = (decision visitId action change keys).commit s :=
    Prog.run_transaction
  rw [hread, hatomic]
  by_cases hwaits : Waits visitId s
  · rw [Prog.failIf_bind_of_not fun hcount => count_pending.mp hcount hwaits]
    exact Prog.run_transaction.trans (Prog.commit_congr (publish_congr fun n hn => mem_answered hn))
  · have hrun : ((decision visitId action change keys).run s).1 = .error (.conflict "Visit already processed or invalid.") :=
      decision_not_pending fun v hv hid hpending => hwaits ⟨v, hv, hid, hpending⟩
    rw [Prog.failIf_bind_of (count_pending.mpr hwaits), Prog.commit_of_error hrun]
    rfl

theorem decideStatements_alone {orgId userId role : String} :
    (decideStatements orgId userId role visitId action change keys).run s =
      (decideVisit orgId userId role visitId action change keys).run s := by
  refine Prog.run_bind_congr rfl fun _ _ _ => Prog.run_bind_congr rfl fun _ _ _ => Prog.run_bind_congr rfl fun _ _ _ => ?_
  refine Prog.run_bind_congr rfl fun _ _ _ => Prog.run_bind_congr rfl fun _ _ _ => Prog.run_bind_congr rfl fun _ _ _ => ?_
  exact decisionStatements_alone

theorem Decision.statements_alone (d : Decision) : (d.statements visitId).run s = (d.call visitId).run s := by
  cases d with
  | accept io orgId userId role dto => exact Prog.run_bind_congr decideStatements_alone fun _ _ _ => rfl
  | reject orgId userId role dto => exact Prog.run_bind_congr decideStatements_alone fun _ _ _ => rfl

end Alone

/-! ### Notifications and answers -/

/-- The answer that goes with a status. -/
def answerOf : MeetingStatus → NotificationAction
  | .pending => .pending
  | .rejected => .rejected
  | _ => .accepted

theorem answerOf_eq_pending {status : MeetingStatus} : answerOf status = .pending ↔ status = .pending := by
  cases status <;> simp [answerOf]

/-- The notifications of a visit have the answer of its status; those of a decided visit are read. -/
def Answered (visitId : String) (s : Db) : Prop :=
  ∀ v ∈ s.visit, v.id = visitId → ∀ n ∈ s.notification, n.visitId = visitId →
    n.action = answerOf v.status ∧ (v.status ≠ .pending → n.isRead = true)

/-- Whoever the notification is for may delete it. -/
def Deletable (s : Db) (n : Notification) : Prop :=
  ∀ staff userId role, Caller s n.orgId userId staff → n.staffId = staff.id → role ∈ ["SuperAdmin", "Admin", "Staff"] →
    (NotificationsService.deleteNotification userId n.orgId role n.id).run s =
      (.ok "Notification deleted successfully.", { s with notification := s.notification.delete (·.id == n.id) })

/-- A reminder, or a decision, statement by statement. -/
inductive Asking where
  | resend (io : Io) (systemId : Option String) (role orgId : String)
  | decide (decision : Decision)

def Asking.call (visitId : String) : Asking → Service Unit
  | .resend io systemId role orgId => do let _ ← resendVisitNotification io systemId role orgId visitId
  | .decide decision => do let _ ← decision.statements visitId

/-- What the statement that creates a notification leaves. -/
def storeNotification (n : Notification) (s : Db) : Db := ((createNotification n).run s).2

/-- What the commit of a decision leaves. -/
def commitDecision (visitId : String) (answered : List String) (action : NotificationAction) (change : Visit → Visit)
    (keys : Row.Fixes change) (s : Db) : Db :=
  ((publish visitId (fun notification => answered.contains notification.id) action change keys).commit s).2

/-- The change of the visit goes with the answer. -/
def Consents (action : NotificationAction) (change : Visit → Visit) : Prop :=
  ∀ v, (change v).status ≠ .pending ∧ answerOf (change v).status = action

/-- The next statement of a request sends the host a reminder of the visit. -/
def AtReminder (visitId : String) (p : Service Unit) : Prop :=
  ∃ n k f, n.visitId = visitId ∧ n.action = .pending ∧ n.isRead = false ∧ p = .stmt (storeNotification n) k f

/-- The next statement of a request is the commit of a decision that has answered some notifications. -/
def AtCommit (visitId : String) (p : Service Unit) (answered : List String) : Prop :=
  ∃ action change keys k f, Consents action change ∧ p = .stmt (commitDecision visitId answered action change keys) k f

/-- A reminder is sent while the visit waits, and a decision that commits while the visit waits has answered all its
    notifications. -/
def Timely {ι : Type} (visitId : String) (c : Threads ι Db HttpException Unit) (i : ι) : Prop :=
  (AtReminder visitId (c.threads i) → Waits visitId c.state) ∧
  ∀ answered, AtCommit visitId (c.threads i) answered → Waits visitId c.state →
    ∀ n ∈ c.state.notification, n.visitId = visitId → n.id ∈ answered

/-- A statement reads, or sends a reminder, or commits a decision. -/
def Touches (visitId : String) (g : Db → Db) : Prop :=
  (∀ s, g s = s) ∨ (∃ n, n.visitId = visitId ∧ n.action = .pending ∧ n.isRead = false ∧ g = storeNotification n) ∨
  ∃ answered action change keys, Consents action change ∧ g = commitDecision visitId answered action change keys

section Statements
variable {s t : Db} {visitId : String} {n : Notification} {answered : List String} {action : NotificationAction}
  {change : Visit → Visit} {keys : Row.Fixes change} {v : Visit}

theorem storeNotification_spec : storeNotification n s = s ∨ Notifies s (storeNotification n s) n := by
  have hspec : (createNotification n).Post (fun _ t => t = s ∨ Notifies s t n) s :=
    createNotification_spec (fun _ => Or.inl rfl) fun _ notifies => Or.inr notifies
  exact hspec.returns

theorem commitDecision_still (h : ¬Waits visitId s) : commitDecision visitId answered action change keys s = s := by
  have hrun : ((publish visitId (fun notification => answered.contains notification.id) action change keys).run s).1 =
      .error (.conflict "Visit already processed or invalid.") :=
    publish_not_pending fun v hv hid hpending => h ⟨v, hv, hid, hpending⟩
  rw [commitDecision, Prog.commit_of_error hrun]

theorem commitDecision_spec (hv : v ∈ s.visit) (hpending : v.status = .pending) :
    Replaces s (commitDecision v.id answered action change keys s) v (change v) ∧
    (commitDecision v.id answered action change keys s).notification =
      s.notification.update (fun notification => answered.contains notification.id)
        fun notification => { notification with action, isRead := true } := by
  obtain ⟨hrun, replaces, hnotification, -⟩ := (publish_pending hv hpending :
    (publish v.id (fun notification => answered.contains notification.id) action change keys).Returns _ s)
  rw [commitDecision, Prog.commit_of_ok hrun]
  exact ⟨replaces, hnotification⟩

/-- A reminder keeps the notifications answered exactly if the visit still waits. -/
theorem Notifies.answered_iff (answered : Answered visitId s) (h : Notifies s t n) (hof : n.visitId = visitId)
    (hpending : n.action = .pending) (hunread : n.isRead = false) : Answered visitId t ↔ Waits visitId s := by
  have hvisit : t.visit = s.visit := by rw [h.rest]
  have hmem : ∀ m, m ∈ t.notification ↔ m ∈ s.notification ∨ m = n := fun m => Table.mem_insert h.notification
  constructor
  · intro answered'
    obtain ⟨v, hfind⟩ := Option.isSome_iff_exists.mp h.stored
    obtain ⟨hv, hid⟩ := Table.find_eq_some.mp hfind
    have hid : v.id = visitId := hid.trans hof
    refine ⟨v, hv, hid, ?_⟩
    by_contra hdecided
    have hread := (answered' v (hvisit ▸ hv) hid n ((hmem n).mpr (Or.inr rfl)) hof).2 hdecided
    rw [hunread] at hread
    cases hread
  · rintro ⟨w, hw, hwid, hwpending⟩ v hv hid m hm hmof
    rw [hvisit] at hv
    rcases (hmem m).mp hm with hm | rfl
    · exact answered v hv hid m hm hmof
    · obtain rfl : v = w := Table.eq_of_id hv hw (hid.trans hwid.symm)
      rw [hwpending]
      exact ⟨hpending, fun hne => absurd rfl hne⟩

/-- A commit keeps the notifications answered exactly if it answers all of them. -/
theorem commitDecision_answered_iff (hs : Answered visitId s) (waits : Waits visitId s) (consents : Consents action change) :
    Answered visitId (commitDecision visitId answered action change keys s) ↔
      ∀ n ∈ s.notification, n.visitId = visitId → n.id ∈ answered := by
  obtain ⟨v, hv, rfl, hpending⟩ := waits
  obtain ⟨replaces, hnotification⟩ : Replaces s (commitDecision v.id answered action change keys s) v (change v) ∧ _ :=
    commitDecision_spec hv hpending
  obtain ⟨hdecided, hanswer⟩ := consents v
  have hchanged := (replaces.visits (change v)).mpr (Or.inl rfl)
  constructor
  · intro answered' n hn hof
    by_contra hmissed
    have hkept : n ∈ (commitDecision v.id answered action change keys s).notification := by
      rw [hnotification]
      exact Table.mem_update_of_not hn (by simpa using hmissed)
    have hafter := (answered' (change v) hchanged (keys.1 v) n hkept hof).1
    have hbefore := (hs v hv rfl n hn hof).1
    rw [hpending] at hbefore
    exact hdecided (answerOf_eq_pending.mp (hafter.symm.trans hbefore))
  · intro all w hw hid n hn hof
    rcases (replaces.visits w).mp hw with rfl | ⟨-, hne⟩
    · rw [hnotification] at hn
      rcases Table.mem_update_cases hn with ⟨hn, hmissed⟩ | ⟨m, hm, -, rfl⟩
      · have hin := all n hn hof
        simp [hin] at hmissed
      · exact ⟨hanswer.symm, fun _ => rfl⟩
    · exact absurd hid hne

end Statements

section Requests
variable {visitId : String}

theorem touches_query {α : Type} {f : Db → α} : (query f).Always (Touches visitId) :=
  Prog.always_access (Or.inl fun _ => rfl)

theorem touches_outside {e : HttpException} : (outside e).Always (Touches visitId) :=
  Prog.always_access (Or.inl fun _ => rfl)

theorem touches_resend {io : Io} {systemId : Option String} {role orgId : String} :
    (resendVisitNotification io systemId role orgId visitId).Always (Touches visitId) := by
  refine Prog.always_failIf.bind fun _ => Prog.always_orFail.bind fun _ => touches_query.bind fun _ => ?_
  refine Prog.always_orFail.bind fun _ => Prog.Always.access_bind (Or.inl fun _ => rfl) fun s found hfound => ?_
  refine Prog.Always.orFail_bind fun visit hvisit => ?_
  have hid : visit.id = visitId := by
    obtain ⟨hfind, -⟩ := Option.filter_eq_some_iff.mp hvisit
    have hread : s.visit.find visitId = found := Except.ok.inj hfound
    exact (Table.find_eq_some.mp (hread.trans hfind)).2
  refine Prog.always_failIf.bind fun _ => touches_query.bind fun _ => Prog.always_failIf.bind fun _ => ?_
  refine Prog.always_access (Or.inr (Or.inl ⟨reminder io orgId visit, hid, rfl, rfl, ?_⟩))
  funext s
  rw [storeNotification, createNotification, mutate, Prog.run_access]
  rfl

theorem touches_decide {orgId userId role : String} {action : NotificationAction} {change : Visit → Visit}
    {keys : Row.Fixes change} (consents : Consents action change) :
    (decideStatements orgId userId role visitId action change keys).Always (Touches visitId) := by
  refine Prog.always_failIf.bind fun _ => touches_query.bind fun _ => Prog.always_orFail.bind fun _ => ?_
  refine touches_query.bind fun _ => Prog.always_orFail.bind fun _ => Prog.always_failIf.bind fun _ => ?_
  refine touches_query.bind fun _ => Prog.always_failIf.bind fun _ => touches_query.bind fun answered => ?_
  exact Prog.always_access (Or.inr (Or.inr ⟨answered, action, change, keys, consents, rfl⟩))

theorem Asking.touches (q : Asking) : (q.call visitId).Always (Touches visitId) := by
  cases q with
  | resend io systemId role orgId => exact touches_resend.bind fun _ => trivial
  | decide decision =>
    cases decision with
    | accept io orgId userId role dto =>
      have consents : Consents .accepted fun visit =>
        { visit with status := .ongoing, remarks := dto.reason, startTime := some io.now } := fun _ => ⟨by simp, rfl⟩
      refine Prog.Always.bind (Prog.Always.bind (touches_decide consents) fun _ => ?_) fun _ => trivial
      refine Prog.Always.bind (touches_outside.orElse fun _ => trivial) fun _ => ?_
      exact Prog.Always.bind ((touches_outside.bind fun _ => touches_outside).orElse fun _ => trivial) fun _ => trivial
    | reject orgId userId role dto =>
      have consents : Consents .rejected fun visit =>
        { visit with status := .rejected, remarks := some dto.reason } := fun _ => ⟨by simp, rfl⟩
      refine Prog.Always.bind (Prog.Always.bind (touches_decide consents) fun _ => ?_) fun _ => trivial
      exact Prog.Always.bind (touches_outside.orElse fun _ => trivial) fun _ => trivial

end Requests

/-! ### Interleavings -/

section Interleavings
variable {ι : Type} [DecidableEq ι] {visitId : String} {c d : Threads ι Db HttpException Unit} {i : ι}

/-- A statement that changes something keeps the notifications answered exactly if it is timely. -/
theorem step_answered_iff (answered : Answered visitId c.state) (touches : (c.threads i).Always (Touches visitId))
    (step : Threads.Step c i d) (changed : d.state ≠ c.state) : Answered visitId d.state ↔ Timely visitId c i := by
  cases step with
  | @mk p s hstep =>
    have changed : s ≠ c.state := changed
    show Answered visitId s ↔ Timely visitId c i
    have commits : ∀ ids, AtCommit visitId (c.threads i) ids → Waits visitId c.state →
        (Answered visitId s ↔ ∀ n ∈ c.state.notification, n.visitId = visitId → n.id ∈ ids) := by
      rintro ids ⟨action, change, keys, k, f, consents, hp⟩ waits
      rw [hstep.effect hp changed]
      exact commitDecision_answered_iff answered waits consents
    rcases (touches.step hstep).2 with hsame | ⟨g, k, f, hp, hg, hs⟩
    · exact absurd hsame changed
    rcases hg with reads | ⟨n, hof, hpending, hunread, rfl⟩ | ⟨ids, action, change, keys, consents, rfl⟩
    · exact absurd (hs.trans (reads c.state)) changed
    · -- a reminder
      rw [hs] at changed
      have notifies := storeNotification_spec.resolve_left changed
      have reminds : Answered visitId s ↔ Waits visitId c.state := by
        rw [hs]
        exact notifies.answered_iff answered hof hpending hunread
      constructor
      · exact fun h => ⟨fun _ => reminds.mp h, fun ids commit waits => (commits ids commit waits).mp h⟩
      · exact fun timely => reminds.mpr (timely.1 ⟨n, k, f, hof, hpending, hunread, hp⟩)
    · -- a commit
      have waits : Waits visitId c.state := by
        by_contra hwaits
        exact changed (hs.trans (commitDecision_still hwaits))
      have commit : AtCommit visitId (c.threads i) ids := ⟨action, change, keys, k, f, consents, hp⟩
      constructor
      · exact fun h => ⟨fun _ => waits, fun ids' commit' _ => (commits ids' commit' waits).mp h⟩
      · exact fun timely => (commits ids commit waits).mpr (timely.2 ids commit waits)

theorem answered_of_reach {s₀ : Db} {requests : ι → Asking} (answered : Answered visitId s₀)
    (h : (Threads.interleaving ⟨s₀, fun i => (requests i).call visitId⟩).Reach (Timely visitId) c) :
    Answered visitId c.state := by
  refine h.invariant (I := fun c => Answered visitId c.state) (fun c init => ?_) fun c i d hr hanswered timely step => ?_
  · obtain rfl : c = ⟨s₀, fun i => (requests i).call visitId⟩ := init
    exact answered
  · by_cases changed : d.state = c.state
    · rw [changed]
      exact hanswered
    · exact (step_answered_iff hanswered (Threads.always_of_reach (fun i => (requests i).touches) hr i) step changed).mpr timely

end Interleavings

/-- A notification that has been read and answered can be deleted. -/
theorem deletable_of_answered {s : Db} {n : Notification} (hn : n ∈ s.notification) (hread : n.isRead = true)
    (hanswer : n.action ≠ .pending) : Deletable s n := by
  intro staff userId role caller hown hrole
  obtain ⟨hstaff, huser, horg⟩ := caller
  have hcaller : s.staff.findBy (·.userId == some userId) = some staff := by
    refine (Table.findBy_eq_some fun a b ha hb => ?_).mpr ⟨hstaff, beq_iff_eq.mpr huser⟩
    simp [Row.clash, sameValue, beq_iff_eq.mp ha, beq_iff_eq.mp hb]
  have hfind : s.notification.find n.id = some n := Table.find_of_mem hn
  have returns : (NotificationsService.deleteNotification userId n.orgId role n.id).Returns (fun r t =>
      r = .ok "Notification deleted successfully." ∧ t = { s with notification := s.notification.delete (·.id == n.id) }) s := by
    refine (Prog.returns_allowed (not_not.mpr hrole)).mpr ?_
    simp [hcaller, hfind, horg, hown, hread, hanswer]
  exact Prod.ext returns.1 returns.2

/-- In an interleaving of any number of reminders and decisions about one visit, statement by statement, whose reminders
    are sent while the visit waits and whose decisions answer all that is there when they commit, the notifications of
    the visit are answered as it is decided, and can then be deleted; and a statement that changes something keeps the
    notifications answered only so. -/
theorem notifications_answered {ι : Type} [DecidableEq ι] (visitId : String) (s₀ : Db) (answered : Answered visitId s₀)
    (requests : ι → Asking) :
    (∀ c, (Threads.interleaving ⟨s₀, fun i => (requests i).call visitId⟩).Reach (Timely visitId) c →
      Answered visitId c.state ∧ ∀ v ∈ c.state.visit, v.id = visitId → v.status ≠ .pending →
        ∀ n ∈ c.state.notification, n.visitId = visitId → Deletable c.state n) ∧
    ∀ c i d, (Threads.interleaving ⟨s₀, fun i => (requests i).call visitId⟩).Reachable c → Answered visitId c.state →
      Threads.Step c i d → d.state ≠ c.state → (Answered visitId d.state ↔ Timely visitId c i) := by
  refine ⟨fun c h => ?_, fun c i d h hc step changed => ?_⟩
  · have hc := answered_of_reach answered h
    refine ⟨hc, fun v hv hid hdecided n hn hof => ?_⟩
    obtain ⟨hanswer, hread⟩ := hc v hv hid n hn hof
    refine deletable_of_answered hn (hread hdecided) fun hpending => hdecided ?_
    exact answerOf_eq_pending.mp (hanswer.symm.trans hpending)
  · exact step_answered_iff hc (Threads.always_of_reach (fun i => (requests i).touches) h i) step changed

/-! ### A reminder and an acceptance -/

section Reception
open Reception

/-- While the visit waits, a statement that leaves the visits as they are is timely. -/
theorem timely_of_visits {ι : Type} [DecidableEq ι] {visitId : String} {c : Threads ι Db HttpException Unit} {i : ι}
    (waits : Waits visitId c.state) (same : (c.advance i).state.visit = c.state.visit) : Timely visitId c i := by
  refine ⟨fun _ => waits, ?_⟩
  rintro ids ⟨action, change, keys, k, f, consents, hp⟩
  obtain ⟨v, hv, rfl, hpending⟩ := waits
  have hstate : (c.advance i).state = commitDecision v.id ids action change keys c.state := by
    unfold Threads.advance
    rw [hp]
  have replaces : Replaces c.state (commitDecision v.id ids action change keys c.state) v (change v) :=
    (commitDecision_spec hv hpending).1
  have hchanged := (replaces.visits (change v)).mpr (Or.inl rfl)
  rw [← hstate, same] at hchanged
  have hsame : change v = v := Table.eq_of_id hchanged hv (keys.1 v)
  exact absurd ((congrArg Visit.status hsame).trans hpending) (consents v).1

instance (visitId : String) (s : Db) : Decidable (Answered visitId s) :=
  inferInstanceAs (Decidable (∀ v ∈ s.visit, v.id = visitId → ∀ n ∈ s.notification, n.visitId = visitId →
    n.action = answerOf v.status ∧ (v.status ≠ .pending → n.isRead = true)))

/-- After five minutes the front desk reminds Ann of Bob, and she accepts him. -/
def asking : Bool → Asking
  | true => .resend (request "2" (10 + resendInterval) checkIn).io (some "desk") "System" "org"
  | false => .decide (both true)

def asked : Threads Bool Db HttpException Unit :=
  ⟨runAll js db [request "1" 10 checkIn], fun i => (asking i).call "v1"⟩

/-- The reminder, and then the acceptance up to its commit. -/
def reminded : Threads Bool Db HttpException Unit := asked.schedule [true, true, true, true, false, false, false, false]

theorem reach_reminded : (Threads.interleaving asked).Reach (Timely "v1") reminded := by
  refine Threads.reach_schedule (.init rfl) ⟨?_, ?_, ?_, ?_, ?_, ?_, ?_, ?_, trivial⟩
  all_goals exact timely_of_visits (by decide) (by decide)

theorem notifications_answered_reception : Answered "v1" reminded.state ∧
    (Answered "v1" (reminded.advance false).state ↔ Timely "v1" reminded false) := by
  have h := notifications_answered "v1" asked.state (by decide) asking
  have hreminded := (h.1 reminded reach_reminded).1
  exact ⟨hreminded, h.2 reminded false (reminded.advance false) reach_reminded.reachable hreminded
    (Threads.step_advance rfl) (by decide)⟩

/-- The front desk has read the visit as pending when Ann accepts it. -/
def lateReminder : Threads Bool Db HttpException Unit :=
  asked.schedule [true, true, true, false, false, false, false, false, false, false, false, true]

/-- Both requests succeed, and the reminder of the accepted visit is left waiting. -/
theorem reminder_after_decision : ¬∀ c, (Threads.interleaving asked).Reachable c → (∀ i, ∃ a, c.threads i = .ret a) →
    ∀ v ∈ c.state.visit, v.id = "v1" → v.status ≠ .pending → ∀ n ∈ c.state.notification, n.visitId = "v1" →
      n.action = answerOf v.status ∧ n.isRead = true := fun h => by
  have answered := h lateReminder (Threads.reachable_schedule (.init rfl) _) fun i => ⟨(), by cases i <;> rfl⟩
  revert answered
  decide

end Reception

end Vms.VisitService
