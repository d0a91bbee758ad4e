import Vms.Theorems.Server.History
import Vms.Theorems.Server.Integrity
import Vms.Theorems.Visit.Step

/-! What the notifications say of their visits. The answer of a notification is the host's decision, between any two
    accesses too: visit and notifications change in one transaction. -/

namespace Vms.Server
open Relational Table HttpException Prog
open AuthService (always_query)

/-- What an answer says of the visit. -/
def Tells (v : Visit) : NotificationAction → Prop
  | .pending => True
  | .accepted => v.startTime.isSome
  | .rejected => v.startTime = none ∧ v.status ≠ .pending

/-- An answer stays true. -/
theorem Tells.continues {v w : Visit} {action : NotificationAction} (h : Tells v action) (timed : Timed v) (hvw : Continues v w) :
    Tells w action := by
  cases action with
  | pending => trivial
  | accepted =>
    have hstatus : v.status ≠ .pending := by
      rcases timed.began h with hstatus | hstatus <;> simp [hstatus]
    show w.startTime.isSome
    rw [(hvw.settled hstatus).1]
    exact h
  | rejected =>
    obtain ⟨hstart, hstatus⟩ := h
    refine ⟨(hvw.settled hstatus).1.trans hstart, ?_⟩
    rcases hvw.moves with hmove | hmove | ⟨hpending, -⟩
    · rwa [hmove]
    · simp [hmove]
    · exact absurd hpending hstatus

/-- The notifications tell the truth: what is answered has been read, and the answer is what has become of the visit. -/
structure Truthful (s : Db) : Prop where
  consistent : Consistent s
  timed : ∀ v ∈ s.visit, Timed v
  read : ∀ n ∈ s.notification, n.isRead = true ↔ n.action ≠ .pending
  tells : ∀ n ∈ s.notification, ∀ v ∈ s.visit, v.id = n.visitId → Tells v n.action

/-- Every change but the answer to a notification. -/
theorem Change.truthful {s t : Db} {k : Kind} (h : Change s k t) (hk : k ≠ .answerNotifications) (hs : Truthful s) : Truthful t := by
  have consistent := h.consistent hs.consistent
  have continues : VisitsContinue True s t := h.visitsContinue fun _ => trivial
  have timed := continues.timed hs.timed
  have settled (visit : k ≠ .addVisit) (notifications : s.notification.Shrinks t.notification) : Truthful t := by
    refine ⟨consistent, timed, fun n hn => hs.read n (notifications n hn), fun n hn w hw hid => ?_⟩
    obtain ⟨v, hv, hvw⟩ := h.goesBack visit hw
    exact (hs.tells n (notifications n hn) v hv (hvw.columns.1.symm.trans hid)).continues (hs.timed v hv) hvw
  cases h <;> first
    | exact absurd rfl hk
    | exact settled Kind.noConfusion fun _ hn => hn
    | exact settled Kind.noConfusion shrinks_delete
    | skip
  case addVisit v u pending org staff reason stored =>
    refine ⟨consistent, timed, hs.read, fun n hn w hw hid => ?_⟩
    rcases (mem_insert stored).mp hw with hw | rfl
    · exact hs.tells n hn w hw hid
    · -- no notification waits for a visit
      obtain ⟨v, hv, hvid⟩ := hs.consistent.wellFormed.notification_visit n hn n.visitId rfl
      exact absurd (hvid.trans hid.symm) (id_ne_of_insert stored hv)
  case notify n u unanswered org staff visit stored =>
    refine ⟨consistent, timed, fun m hm => ?_, fun m hm v hv hid => ?_⟩
    · rcases (mem_insert stored).mp hm with hm | rfl
      · exact hs.read m hm
      · simp [unanswered]
    · rcases (mem_insert stored).mp hm with hm | rfl
      · exact hs.tells m hm v hv hid
      · rw [unanswered.1]
        trivial
  case dropNotification u rows => exact settled Kind.noConfusion rows

/-- A list of changes without an answer. -/
theorem truthful_of_within {α : Type} {K : Kind → Prop} {p : Service α} (h : p.Within (Changes K)) (hK : ¬K .answerNotifications) :
    p.Within (Preserves Truthful) :=
  Changes.within h Preserves.refl Preserves.trans fun _ _ _ hk hchange => hchange.truthful fun hkind => hK (hkind ▸ hk)

/-! ### Decisions -/

section Decisions
open VisitService
variable {v v' : Visit} {action : NotificationAction} {s t : Db}

theorem evolves_of_replaces (h : Replaces s t v v') (decided : Decided v v') : s.visit.Evolves Decided t.visit where
  kept w hw := by
    by_cases hid : w.id = v.id
    · obtain rfl := eq_of_id hw h.mem hid
      exact ⟨v', (h.visits v').mpr (Or.inl rfl), decided⟩
    · exact ⟨w, (h.visits w).mpr (Or.inr ⟨hw, hid⟩), Or.inl rfl⟩
  only w hw := by
    rcases (h.visits w).mp hw with rfl | ⟨hw, -⟩
    · exact ⟨v, h.mem, decided⟩
    · exact ⟨w, hw, Or.inl rfl⟩

/-- The transaction of a decision leaves no notification of the visit that says something else. -/
theorem truthful_of_decides (h : Decides s t v v' action) (decided : Decided v v') (answers : action ≠ .pending)
    (tells : Timed v → Tells v' action) (hs : Truthful s) : Truthful t := by
  have moved : Change s .decideVisit { s with visit := t.visit } := .decideVisit (evolves_of_replaces h.toReplaces decided)
  have hmoved := moved.truthful (by simp) hs
  have rows : s.notification.Evolves Answered t.notification := by
    rw [h.notifications]
    exact .update (fun _ => Or.inl rfl) fun _ _ _ => Or.inr ⟨action, rfl⟩
  have answered : Change { s with visit := t.visit } .answerNotifications t := by
    rw [h.rest]
    exact .answerNotifications rows
  have notification : ∀ n ∈ t.notification, (n ∈ s.notification ∧ n.visitId ≠ v.id) ∨
      n.visitId = v.id ∧ n.action = action ∧ n.isRead = true := by
    intro n hn
    rw [h.notifications] at hn
    obtain ⟨m, hm, rfl⟩ := mem_update.mp hn
    by_cases hof : m.visitId = v.id
    · simp [hof]
    · simp [hof, hm]
  refine ⟨answered.consistent hmoved.consistent, hmoved.timed, fun n hn => ?_, fun n hn w hw hid => ?_⟩
  · rcases notification n hn with ⟨hn, -⟩ | ⟨-, hact, hread⟩
    · exact hs.read n hn
    · simp [hact, hread, answers]
  · rcases notification n hn with ⟨hn, -⟩ | ⟨hof, hact, -⟩
    · exact hmoved.tells n hn w hw hid
    · rw [hact]
      rcases (h.visits w).mp hw with rfl | ⟨-, hne⟩
      · exact tells (hs.timed v h.mem)
      · exact absurd (hid.trans hof) hne

end Decisions

section Operations
open VisitService
variable {io : Io} {orgId userId role visitId : String} {action : NotificationAction} {change : Visit → Visit}
  {keys : Row.Fixes change} {s : Db}

theorem decision_truthful (decides : ∀ v, v.status = .pending → Decided v (change v)) (answers : action ≠ .pending)
    (tells : ∀ v, v.status = .pending → Timed v → Tells (change v) action) :
    (transaction (decision visitId action change keys)).Within (Preserves Truthful) := by
  refine transaction_within fun s => ?_
  by_cases waits : ∃ v ∈ s.visit, v.id = visitId ∧ v.status = .pending
  · obtain ⟨v, hv, rfl, hpending⟩ := waits
    refine (decision_pending hv hpending).mono fun r t ⟨hr, done⟩ => ?_
    rw [hr, rollback_ok]
    exact truthful_of_decides done (decides v hpending) answers (tells v hpending)
  · refine (decision_not_pending fun v hv hid hpending => waits ⟨v, hv, hid, hpending⟩).mono fun r t hr => ?_
    rw [hr, rollback_error]
    exact id

theorem decideVisit_truthful (decides : ∀ v, v.status = .pending → Decided v (change v)) (answers : action ≠ .pending)
    (tells : ∀ v, v.status = .pending → Timed v → Tells (change v) action) :
    (decideVisit orgId userId role visitId action change keys).Within (Preserves Truthful) := by
  have query {α : Type} (f : Db → α) : (query f).Within (Preserves Truthful) := always_query Preserves.refl
  refine always_failIf.bind fun _ => (query _).bind fun _ => always_orFail.bind fun _ => (query _).bind fun _ => ?_
  exact always_orFail.bind fun _ => always_failIf.bind fun _ => decision_truthful decides answers tells

/-- What follows a decision changes nothing. -/
theorem still_truthful {α : Type} {p : Service α} (h : p.Within (Changes fun _ => False)) :
    p.Within (Preserves Truthful) := truthful_of_within h id

theorem acceptVisit_truthful {dto : AcceptVisitDto} :
    (acceptVisit io orgId userId role visitId dto).Within (Preserves Truthful) := by
  refine Always.bind (decideVisit_truthful (fun v hv => Or.inr ⟨hv, Or.inl ⟨_, _, rfl⟩⟩) (by simp) fun v _ _ => rfl) fun _ => ?_
  refine still_truthful ((within_logged within_outside).bind fun _ => (within_logged ?_).bind fun _ => trivial)
  exact within_outside.bind fun _ => within_outside

theorem rejectVisit_truthful {dto : RejectVisitDto} :
    (rejectVisit orgId userId role visitId dto).Within (Preserves Truthful) := by
  refine Always.bind (decideVisit_truthful (fun v hv => Or.inr ⟨hv, Or.inr ⟨_, rfl⟩⟩) (by simp) fun v hv timed => ?_) fun _ => ?_
  · -- a pending visit has not begun
    refine ⟨?_, by simp⟩
    have hstart := timed.began
    simpa [hv] using hstart
  · exact still_truthful ((within_logged within_outside).bind fun _ => trivial)

end Operations

theorem Endpoint.handle_truthful {server : Server} {caller : Caller} (endpoint : Endpoint) :
    (endpoint.handle server caller).Within (Preserves Truthful) := by
  have rest (h : .answerNotifications ∉ endpoint.kinds) : (endpoint.handle server caller).Within (Preserves Truthful) :=
    truthful_of_within (Endpoint.handle_within endpoint) fun hk => h hk.1
  cases endpoint
  case acceptVisit =>
    exact always_orFail.bind fun _ => always_orFail.bind fun _ => acceptVisit_truthful.bind fun _ => trivial
  case rejectVisit =>
    exact always_orFail.bind fun _ => always_orFail.bind fun _ => rejectVisit_truthful.bind fun _ => trivial
  all_goals exact rest (by simp [kinds])

/-- Whatever requests run at the same time, and whichever of their accesses fail: a notification that is answered has
    been read, and says what its host has decided. -/
theorem truthful_of_reach {server : Server} {ι : Type} [DecidableEq ι] {requests : ι → Request} {s : Db}
    {d : Threads ι Db HttpException Unit} (hs : Truthful s)
    (h : (Threads.interleaving ⟨s, fun i => serve server (requests i)⟩).Reachable d) : Truthful d.state := by
  refine kept_of_reach (R := Preserves Truthful) Preserves.refl Preserves.trans (fun _ endpoint _ => ?_)
    (fun _ _ _ endpoint _ _ _ _ _ => ?_) h hs
  · refine (truthful_of_within (OpenEndpoint.handle_within endpoint) ?_).keeps
    cases endpoint <;> simp [OpenEndpoint.kinds]
  · exact (Endpoint.handle_truthful endpoint).keeps

/-! ### Hosts -/

/-- Visits and notifications, with the organisation and the host that the visit's identifier stands for. -/
structure Addressed (goes : (id orgId staffId : String) → Prop) (s : Db) : Prop where
  visits : ∀ v ∈ s.visit, goes v.id v.orgId v.staffId
  notifications : ∀ n ∈ s.notification, goes n.visitId n.orgId n.staffId

section Hosts
open VisitService
variable {goes : (id orgId staffId : String) → Prop} {s : Db}

theorem Change.addressed {t : Db} {k : Kind} (h : Change s k t) (visit : k ≠ .addVisit) (notify : k ≠ .notify)
    (hs : Addressed goes s) : Addressed goes t where
  visits w hw := by
    obtain ⟨v, hv, hvw⟩ := h.goesBack visit hw
    obtain ⟨hid, horg, hstaff⟩ := hvw.columns
    rw [hid, horg, hstaff]
    exact hs.visits v hv
  notifications n hn := by
    cases h <;> first
      | exact absurd rfl notify
      | exact hs.notifications n hn
      | exact hs.notifications n (mem_delete.mp hn).1
      | skip
    case answerNotifications u rows =>
      obtain ⟨m, hm, rfl | ⟨_, rfl⟩⟩ := rows.only n hn
      · exact hs.notifications n hm
      · exact hs.notifications m hm
    case dropNotification u rows => exact hs.notifications n (rows n hn)

theorem addressed_of_within {α : Type} {K : Kind → Prop} {p : Service α} (h : p.Within (Changes K)) (visit : ¬K .addVisit)
    (notify : ¬K .notify) : p.Within (Preserves (Addressed goes)) :=
  Changes.within h Preserves.refl Preserves.trans fun _ _ _ hk hchange =>
    hchange.addressed (fun hkind => visit (hkind ▸ hk)) fun hkind => notify (hkind ▸ hk)

theorem createVisit_obeys {v : Visit} (hv : goes v.id v.orgId v.staffId) :
    (createVisit v).Obeys (Preserves (Addressed goes)) (fun r _ => ∀ d, r = .ok d → d.visit = v) s := by
  refine mutate_obeys Preserves.refl (fun _ _ _ h => by cases h) fun t _ d u hop => ?_
  obtain ⟨-, visits, stored, hx⟩ := created_map_eq_ok.mp hop
  cases hx
  refine ⟨fun ht => ⟨fun w hw => ?_, ht.notifications⟩, fun d h => ?_⟩
  · rcases (mem_insert stored).mp hw with hw | rfl
    · exact ht.visits w hw
    · exact hv
  · cases h
    rfl

theorem createNotification_addressed {n : Notification} (hn : goes n.visitId n.orgId n.staffId) :
    (createNotification n).Within (Preserves (Addressed goes)) := by
  refine always_create Preserves.refl fun t u _ stored ht => ⟨ht.visits, fun m hm => ?_⟩
  rcases (mem_insert stored).mp hm with hm | rfl
  · exact ht.notifications m hm
  · exact hn

variable {js : Js} {io : Io} {orgId role visitId : String} {systemId : Option String}

theorem startVisit_addressed {dto : StartVisitDto} {checkInPicture : Bool} (hv : goes io.visitId orgId dto.staffId) :
    (startVisit js io orgId systemId dto checkInPicture).Keeps (Preserves (Addressed goes)) s := by
  have refl := Preserves.refl (I := Addressed goes)
  refine orFail_bind_keeps fun _ _ => query_bind_keeps refl fun _ _ => orFail_bind_keeps fun _ _ => failIf_bind_keeps fun _ => ?_
  refine query_bind_keeps refl fun _ _ => orFail_bind_keeps fun _ _ => query_bind_keeps refl fun _ _ => failIf_bind_keeps fun _ => ?_
  refine Keeps.bind refl Preserves.trans ?_ fun imageUrl t _ => ?_
  · unfold uploadImage
    split
    · exact Within.keeps ((always_access refl).bind fun _ => trivial)
    · trivial
  · refine obeys_bind.mpr ((createVisit_obeys hv).mono fun r u hr => ?_)
    cases r with
    | error e => trivial
    | ok d =>
      have hn : goes d.visit.id orgId dto.staffId := hr d rfl ▸ hv
      refine Keeps.bind refl Preserves.trans (createNotification_addressed hn).keeps fun _ _ _ => ?_
      exact Within.keeps ((always_access refl).bind fun _ => (always_access refl).bind fun _ => trivial)

/-- A reminder goes where the visit goes that it was read from. -/
theorem resendVisitNotification_addressed (hs : Addressed goes s) :
    (resendVisitNotification io systemId role orgId visitId).Keeps (Preserves (Addressed goes)) s := by
  have refl := Preserves.refl (I := Addressed goes)
  refine failIf_bind_keeps fun _ => orFail_bind_keeps fun _ _ => query_bind_keeps refl fun t ht => orFail_bind_keeps fun _ _ => ?_
  refine query_bind_keeps refl fun u hu => orFail_bind_keeps fun visit hvisit => failIf_bind_keeps fun _ => ?_
  refine query_bind_keeps refl fun _ _ => failIf_bind_keeps fun _ => (createNotification_addressed ?_).keeps
  obtain ⟨hfound, horg⟩ := Option.filter_eq_some_iff.mp hvisit
  obtain rfl : visit.orgId = orgId := beq_iff_eq.mp horg
  exact (hu (ht hs)).visits visit (find_eq_some.mp hfound).1

end Hosts

/-- A visit checks in under the identifier, for a staff member of the organisation. -/
def Request.ChecksIn (server : Server) (id orgId staffId : String) : Request → Prop
  | authorized now authorization (.startVisit io dto _) => io.visitId = id ∧ dto.staffId = staffId ∧
      ∃ caller, sender server.jwt now authorization = some caller ∧ caller.orgId = some orgId
  | _ => False

theorem Request.ChecksIn.unique {server : Server} {request : Request} {id orgId staffId orgId' staffId' : String}
    (h : request.ChecksIn server id orgId staffId) (h' : request.ChecksIn server id orgId' staffId') :
    orgId = orgId' ∧ staffId = staffId' := by
  cases request with
  | anyone endpoint => exact h.elim
  | authorized now authorization endpoint =>
    cases endpoint
    case startVisit =>
      obtain ⟨-, hstaff, caller, hcaller, horg⟩ := h
      obtain ⟨-, hstaff', caller', hcaller', horg'⟩ := h'
      obtain rfl := Option.some.inj (hcaller.symm.trans hcaller')
      exact ⟨Option.some.inj (horg.symm.trans horg'), hstaff.symm.trans hstaff'⟩
    all_goals exact h.elim

/-- Where the identifiers of visits go: those that are stored, and those that requests draw for new ones. -/
def Goes {ι : Type} (server : Server) (requests : ι → Request) (s : Db) (id orgId staffId : String) : Prop :=
  (∃ v ∈ s.visit, v.id = id ∧ v.orgId = orgId ∧ v.staffId = staffId) ∨ ∃ i, (requests i).ChecksIn server id orgId staffId

theorem addressed_of_reach {server : Server} {ι : Type} [DecidableEq ι] {requests : ι → Request} {s : Db}
    {d : Threads ι Db HttpException Unit} (hs : Addressed (Goes server requests s) s)
    (h : (Threads.interleaving ⟨s, fun i => serve server (requests i)⟩).Reachable d) : Addressed (Goes server requests s) d.state := by
  refine kept_of_reach (R := Preserves (Addressed (Goes server requests s))) Preserves.refl Preserves.trans (fun _ endpoint _ => ?_)
    (fun i now authorization endpoint caller t hrequest hcaller ht => ?_) h hs
  · refine (addressed_of_within (OpenEndpoint.handle_within endpoint) ?_ ?_).keeps
    all_goals cases endpoint <;> simp [OpenEndpoint.kinds]
  · have rest (hadd : .addVisit ∉ endpoint.kinds) (hnotify : .notify ∉ endpoint.kinds) :
        (endpoint.handle server caller).Within (Preserves (Addressed (Goes server requests s))) :=
      addressed_of_within (Endpoint.handle_within endpoint) (fun hk => hadd hk.1) fun hk => hnotify hk.1
    cases endpoint
    case startVisit io dto checkInPicture =>
      refine orFail_bind_keeps fun orgId horg => Keeps.bind Preserves.refl Preserves.trans (startVisit_addressed ?_)
        fun _ _ _ => trivial
      refine Or.inr ⟨i, ?_⟩
      rw [hrequest]
      exact ⟨rfl, rfl, caller, hcaller, horg⟩
    case resendNotification =>
      exact orFail_bind_keeps fun _ _ => Keeps.bind Preserves.refl Preserves.trans
        (resendVisitNotification_addressed (ht hs)) fun _ _ _ => trivial
    all_goals exact (rest (by simp [Endpoint.kinds]) (by simp [Endpoint.kinds])).keeps

/-- Every notification goes to the host of its visit, in the visit's organisation. -/
def Delivered (s : Db) : Prop :=
  ∀ n ∈ s.notification, ∀ v ∈ s.visit, v.id = n.visitId → n.orgId = v.orgId ∧ n.staffId = v.staffId

/-- Whatever requests run at the same time, and whichever visits are deleted meanwhile: a notification goes to the host of
    its visit, in the visit's organisation, where no identifier is drawn for two visits. -/
theorem notifications_reach_hosts {server : Server} {ι : Type} [DecidableEq ι] {requests : ι → Request} {s : Db}
    {d : Threads ι Db HttpException Unit}
    (stored : ∀ n ∈ s.notification, ∃ v ∈ s.visit, v.id = n.visitId ∧ v.orgId = n.orgId ∧ v.staffId = n.staffId)
    (fresh : ∀ i id orgId staffId, (requests i).ChecksIn server id orgId staffId → ∀ v ∈ s.visit, v.id ≠ id)
    (distinct : ∀ i j id orgId staffId orgId' staffId', (requests i).ChecksIn server id orgId staffId →
      (requests j).ChecksIn server id orgId' staffId' → i = j)
    (h : (Threads.interleaving ⟨s, fun i => serve server (requests i)⟩).Reachable d) : Delivered d.state := by
  have start : Addressed (Goes server requests s) s :=
    ⟨fun v hv => Or.inl ⟨v, hv, rfl, rfl, rfl⟩, fun n hn => Or.inl (stored n hn)⟩
  have reached := addressed_of_reach start h
  intro n hn v hv hid
  have goes_v := reached.visits v hv
  rw [hid] at goes_v
  rcases reached.notifications n hn with ⟨a, ha, ha_id, ha_org, ha_staff⟩ | ⟨i, hi⟩ <;>
    rcases goes_v with ⟨b, hb, hb_id, hb_org, hb_staff⟩ | ⟨j, hj⟩
  · obtain rfl := eq_of_id ha hb (ha_id.trans hb_id.symm)
    exact ⟨ha_org.symm.trans hb_org, ha_staff.symm.trans hb_staff⟩
  · exact absurd ha_id (fresh j _ _ _ hj a ha)
  · exact absurd hb_id (fresh i _ _ _ hi b hb)
  · obtain rfl := distinct i j _ _ _ _ _ hi hj
    exact hi.unique hj

/-! ### A host -/

namespace Host

def notification : Notification where
  id := "notification"
  orgId := "office"
  staffId := "1"
  visitId := "visit"
  type := .visitRequest
  title := "New visitor"
  message := "Bob is here to see you."
  createdAt := 0

def db : Db := { FrontDesk.db with notification := {notification} }

/-- Ann's two answers to the visit. -/
def after : Threads Bool Db HttpException Unit :=
  Threads.schedule ⟨db, fun i => serve Office.server (FrontDesk.requests i)⟩ [false, true, false, true, true, false, true, false]

theorem reachable_after : (Threads.interleaving ⟨db, fun i => serve Office.server (FrontDesk.requests i)⟩).Reachable after :=
  Threads.reachable_schedule (.init rfl) _

theorem wellFormed : db.WellFormed :=
  have visits := office_consistent.wellFormed.withVisit (u := {FrontDesk.visit})
    (fun v hv => ⟨FrontDesk.visit, mem_singleton.mpr rfl, by rw [mem_singleton.mp hv]; rfl⟩)
    (.of_find (by decide)) (.of_find (by decide)) (.of_find (by decide))
  { visits with
    notification_org := .of_find (by decide)
    notification_staff := .of_find (by decide)
    notification_visit := .of_find (by decide) }

end Host

theorem truthful_of_reach_host : Truthful Host.after.state := by
  refine truthful_of_reach ⟨⟨Host.wellFormed, fun _ h => absurd h not_mem_empty, fun _ h => absurd h not_mem_empty⟩, ?_, ?_, ?_⟩
    Host.reachable_after
  · intro v hv
    obtain rfl := mem_singleton.mp hv
    exact .of_pending ⟨rfl, rfl, rfl⟩
  · intro n hn
    obtain rfl := mem_singleton.mp hn
    simp [Host.notification]
  · intro n hn v _ _
    obtain rfl := mem_singleton.mp hn
    trivial

/-! ### A reception -/

namespace Reception

def db : Db := { Kiosk.db with reasonOfVisit := {{ id := "meeting", orgId := "office", name := "Meeting" }} }

def io (notificationId : String) : VisitService.Io := { FrontDesk.io with visitId := "new", notificationId }

/-- A visitor checks in, and asks for a reminder before the first notification is there. -/
def requests : Bool → Request
  | false => .authorized 0 (Office.bearer Kiosk.payload) (.startVisit (io "first")
      { fullName := "Bob", visitorOrganization := "Elsewhere", email := "bob@mail.com", reasonId := "meeting", staffId := "1" } false)
  | true => .authorized 0 (Office.bearer Kiosk.payload) (.resendNotification (io "reminder") "new")

def after : Threads Bool Db HttpException Unit :=
  Threads.schedule ⟨db, fun i => serve Office.server (requests i)⟩
    [false, false, false, false, false, true, true, true, true, true, false, false, false]

theorem reachable_after : (Threads.interleaving ⟨db, fun i => serve Office.server (requests i)⟩).Reachable after :=
  Threads.reachable_schedule (.init rfl) _

end Reception

theorem notifications_reach_hosts_reception : Delivered Reception.after.state := by
  refine notifications_reach_hosts (fun n hn => absurd hn not_mem_empty) (fun _ _ _ _ _ v hv => absurd hv not_mem_empty)
    (fun i j id orgId staffId orgId' staffId' hi hj => ?_) Reception.reachable_after
  cases i with
  | false =>
    cases j with
    | false => rfl
    | true => exact hj.elim
  | true => exact hi.elim

end Vms.Server
