import Vms.Theorems.Visit.Lifecycle

/-! Reminders of one visit are five minutes apart, whatever is deleted in between: what can be deleted has
    been answered, with an answer the visit no longer waits, and no visit waits again. -/

namespace Vms.VisitService
open Relational HttpException

/-- Five minutes. -/
def resendInterval : Date := 5 * 60 * 1000

/-- A notification that asks the host to decide. -/
def Asks (n : Notification) : Prop := n.type = .visitRequest ∨ n.type = .reminder

/-- All that asked for the visit did so at least five minutes before. -/
def Waited (s : Db) (visitId : String) (now : Date) : Prop :=
  ∀ n ∈ s.notification, n.visitId = visitId → Asks n → resendInterval ≤ now - n.createdAt

/-! ### What requests send and delete -/

section Operations
variable {js : Js} {s t : Db} {io : Io} {orgId userId visitId : String} {systemId : Option String}

def reminder (io : Io) (orgId : String) (v : Visit) : Notification where
  id := io.notificationId
  orgId := orgId
  staffId := v.staffId
  visitId := v.id
  type := .reminder
  title := "Visitor waiting"
  message := s!"{v.fullName} is waiting for your approval."
  createdAt := io.notificationCreatedAt

/-- `t` has the notifications of `s`, or one more. -/
def Sent (s t : Db) (n : Notification) : Prop := t.notification = s.notification ∨ s.notification.insert n = some t.notification

theorem startVisit_sent {dto : StartVisitDto} {checkInPicture : Bool} :
    (startVisit js io orgId systemId dto checkInPicture).Post (fun _ t => Sent s t (arrival io orgId dto)) s := by
  refine startVisit_post (fun _ => Or.inl rfl) fun picture u _ _ adds _ t rest => ?_
  have hnotification : u.notification = s.notification := by rw [adds.rest]
  rcases rest with rfl | notifies
  · exact Or.inl hnotification
  · rw [Sent, ← hnotification]
    exact Or.inr notifies.notification

/-- The latest notification decides for all. -/
theorem waited_of_last {o : RowOrder Notification} {now : Date}
    (h : ¬((o.desc (·.createdAt) (s.notification.filter fun n =>
        n.visitId == visitId && (n.type == .visitRequest || n.type == .reminder))).head?.any fun last =>
      decide (now - last.createdAt < 5 * 60 * 1000)) = true) : Waited s visitId now := by
  intro n hn hof hasks
  have hmem : n ∈ s.notification.filter fun n => n.visitId == visitId && (n.type == .visitRequest || n.type == .reminder) := by
    refine Table.mem_filter.mpr ⟨hn, ?_⟩
    rw [Bool.and_eq_true, Bool.or_eq_true, beq_iff_eq, beq_iff_eq, beq_iff_eq]
    exact ⟨hof, hasks⟩
  cases hlast : (o.desc (·.createdAt) (s.notification.filter fun n =>
      n.visitId == visitId && (n.type == .visitRequest || n.type == .reminder))).head? with
  | none =>
    rw [RowOrder.head_desc_eq_none.mp hlast] at hmem
    cases hmem
  | some last =>
    have hle : n.createdAt ≤ last.createdAt := (RowOrder.head_desc hlast).2 n hmem
    rw [hlast, Option.any_some, decide_eq_true_eq, not_lt] at h
    exact h.trans (Int.sub_le_sub_left hle now)

/-- A reminder is sent for a waiting visit only, and not too early. -/
theorem resendVisitNotification_sent {role : String} : (resendVisitNotification io systemId role orgId visitId).Post
    (fun _ t => t.notification = s.notification ∨ ∃ v ∈ s.visit, v.status = .pending ∧ Waited s v.id io.now ∧
      s.notification.insert (reminder io orgId v) = some t.notification) s := by
  simp only [resendVisitNotification, Prog.post_bind, Prog.post_failIf, Prog.then_ok, Prog.then_error, post_query, Prog.post_orFail,
    true_or, implies_true, true_and, and_true, Option.filter_eq_some_iff, not_not]
  rintro hrole account haccount system hsystem v ⟨hv, horg⟩ hpending hwait
  refine createNotification_spec (fun e => Or.inl rfl) fun t notifies => Or.inr ?_
  refine ⟨v, (Table.find_eq_some.mp hv).1, hpending, waited_of_last hwait, notifies.notification⟩

theorem deleteNotification_read {role notificationId : String} :
    (NotificationsService.deleteNotification userId orgId role notificationId).Post (fun _ t =>
      t.notification = s.notification ∨ ∃ n ∈ s.notification, n.isRead = true ∧
        t.notification = s.notification.delete (·.id == n.id)) s := by
  simp only [NotificationsService.deleteNotification, Prog.post_bind, Prog.post_failIf, Prog.then_ok, Prog.then_error, post_query,
    Prog.post_orFail, true_or, implies_true, true_and, and_true, Option.filter_eq_some_iff, post_transaction, Prog.returns_bind,
    returns_query, Prog.returns_orFail, Prog.rollback_error, returns_mutate, Bool.and_eq_true]
  rintro hrole staff - n ⟨⟨hn, -, hread⟩, -⟩ _ t hdelete
  obtain ⟨hmem, hid⟩ := Table.find_eq_some.mp hn
  have hid : n.id = notificationId := hid
  split at hdelete
  · cases hdelete
  · obtain ⟨-, rfl⟩ := Prod.mk.inj (Except.ok.inj hdelete)
    rw [Prog.rollback_ok, Prog.then_ok, Prog.post_pure]
    exact Or.inr ⟨n, hmem, hread, by rw [hid]⟩

end Operations

/-! ### What a request does to visits and notifications -/

/-- Visits stay, and a visit that waits has waited before, or is new. -/
structure StillWaits (s t : Db) : Prop where
  kept : ∀ v ∈ s.visit, ∃ w ∈ t.visit, w.id = v.id
  waits : ∀ w ∈ t.visit, w.status = .pending → w ∈ s.visit ∨ ∀ v ∈ s.visit, v.id ≠ w.id

/-- Why a notification may be sent: its visit is new, or it waits and all that asked for it did so long ago. -/
def MaySend (s t : Db) (visitId : String) (now : Date) : Prop :=
  ((∀ v ∈ s.visit, v.id ≠ visitId) ∧ ∃ w ∈ t.visit, w.id = visitId) ∨
    ((∃ v ∈ s.visit, v.id = visitId ∧ v.status = .pending) ∧ Waited s visitId now)

/-- What a request does to the notifications. -/
inductive Noted (s : Db) (io : Io) (t : Db) : Prop where
  | kept (same : t.notification = s.notification)
  | sent (n : Notification) (may : MaySend s t n.visitId io.now) (asks : Asks n) (unread : n.isRead = false)
    (time : n.createdAt = io.notificationCreatedAt) (stored : s.notification.insert n = some t.notification)
  | answered (v : Visit) (action : NotificationAction) (decided : ∀ w ∈ t.visit, w.id = v.id → w.status ≠ .pending)
    (notifications : t.notification = s.notification.update (·.visitId == v.id) fun notification =>
      { notification with action, isRead := true })
  | removed (n : Notification) (mem : n ∈ s.notification) (read : n.isRead = true)
    (notifications : t.notification = s.notification.delete (·.id == n.id))

section Steps
variable {js : Js} {s t : Db} {q : Request} {v v' : Visit} {action : NotificationAction}

theorem stillWaits_of_eq (h : t.visit = s.visit) : StillWaits s t where
  kept v hv := ⟨v, by rw [h]; exact hv, rfl⟩
  waits w hw _ := by
    rw [h] at hw
    exact Or.inl hw

theorem stillWaits_of_add (h : s.visit.insert v = some t.visit) : StillWaits s t where
  kept w hw := ⟨w, (Table.mem_insert h).mpr (Or.inl hw), rfl⟩
  waits w hw _ := by
    rcases (Table.mem_insert h).mp hw with hold | rfl
    · exact Or.inl hold
    · exact Or.inr fun u hu => Table.id_ne_of_insert h hu

theorem Replaces.stillWaits (h : Replaces s t v v') (hid : v'.id = v.id) (hstatus : v'.status ≠ .pending) :
    StillWaits s t where
  kept w hw := by
    by_cases heq : w.id = v.id
    · exact ⟨v', (h.visits v').mpr (Or.inl rfl), hid.trans heq.symm⟩
    · exact ⟨w, (h.visits w).mpr (Or.inr ⟨hw, heq⟩), rfl⟩
  waits w hw hpending := by
    rcases (h.visits w).mp hw with rfl | ⟨hold, -⟩
    · exact absurd hpending hstatus
    · exact Or.inl hold

theorem Acted.stillWaits (h : Acted js s q t) : StillWaits s t := by
  cases h with
  | checkIn systemId dto checkInPicture picture u op adds rest => exact stillWaits_of_add (adds.visits_of_rest rest)
  | checkOut dto systemId role v op org ongoing completes => exact completes.stillWaits rfl (fun h => by cases h)
  | checkOutQr role visitId v op may completes => exact completes.stillWaits rfl (fun h => by cases h)
  | accept userId role visitId dto v op may decides => exact decides.stillWaits rfl (fun h => by cases h)
  | reject userId role visitId dto v op may decides => exact decides.stillWaits rfl (fun h => by cases h)
  | remind systemId role visitId v n op mem org of notifies => exact stillWaits_of_eq (by rw [notifies.rest])
  | delete userId role notificationId staff n op caller own org removes => exact stillWaits_of_eq (by rw [removes.rest])

theorem Decides.noted {io : Io} (h : Decides s t v v' action) (hid : v'.id = v.id) (hstatus : v'.status ≠ .pending) :
    Noted s io t := by
  refine .answered v action (fun w hw heq => ?_) h.notifications
  rcases (h.visits w).mp hw with rfl | ⟨-, hne⟩
  · exact hstatus
  · exact absurd heq hne

theorem step_noted (h : (visiting js).step s q t) : Noted s q.io t := by
  rcases request_inv h with rfl | acted
  · exact .kept rfl
  obtain ⟨r, hexec⟩ := h
  rw [Request.call] at hexec
  cases acted with
  | checkIn systemId dto checkInPicture picture u op adds rest =>
    rw [op] at hexec
    have stored := adds.visits_of_rest rest
    rcases (Prog.post_discard.mpr startVisit_sent).of_exec hexec with same | sent
    · exact .kept same
    · refine .sent _ (Or.inl ⟨fun v hv => Table.id_ne_of_insert stored hv, ?_⟩) (Or.inl rfl) rfl rfl sent
      exact ⟨_, (Table.mem_insert stored).mpr (Or.inr rfl), rfl⟩
  | checkOut dto systemId role v op org ongoing completes => exact .kept (by rw [completes.rest])
  | checkOutQr role visitId v op may completes => exact .kept (by rw [completes.rest])
  | accept userId role visitId dto v op may decides => exact decides.noted rfl (fun h => by cases h)
  | reject userId role visitId dto v op may decides => exact decides.noted rfl (fun h => by cases h)
  | remind systemId role visitId v n op mem org of notifies =>
    rw [op] at hexec
    rcases (Prog.post_discard.mpr resendVisitNotification_sent).of_exec hexec with same | ⟨w, hw, hpending, waited, sent⟩
    · exact .kept same
    · exact .sent _ (Or.inr ⟨⟨w, hw, rfl, hpending⟩, waited⟩) (Or.inr rfl) rfl rfl sent
  | delete userId role notificationId staff n op caller own org removes =>
    rw [op] at hexec
    rcases (Prog.post_discard.mpr deleteNotification_read).of_exec hexec with same | ⟨n, hmem, hread, removed⟩
    · exact .kept same
    · exact .removed n hmem hread removed

end Steps

/-! ### Runs -/

/-- The database, the time, and all notifications that were ever created. -/
structure Journal where
  db : Db
  clock : Date
  created : List Notification

/-- Requests one after another on a clock that never goes back, with a journal of what they create. -/
def journaled (js : Js) : System Journal Request where
  init c := (visiting js).init c.db ∧ c.created = []
  step c q d := c.clock ≤ q.io.now ∧ q.io.now ≤ q.io.notificationCreatedAt ∧ q.io.notificationCreatedAt ≤ d.clock ∧
    (visiting js).step c.db q d.db ∧ d.created = c.created ++ c.db.notification.newcomers d.db.notification

/-- Two notifications of one visit are five minutes apart. -/
def FarApart (m n : Notification) : Prop := m.visitId = n.visitId → resendInterval ≤ n.createdAt - m.createdAt

/-- What has been created belongs to a visit, and is still there, unread, while the visit waits. -/
structure Throttled (c : Journal) : Prop where
  known : ∀ n ∈ c.created, ∃ v ∈ c.db.visit, v.id = n.visitId
  stored : ∀ n ∈ c.created, ∀ v ∈ c.db.visit, v.id = n.visitId → v.status = .pending → n ∈ c.db.notification ∧ n.isRead = false
  asks : ∀ n ∈ c.created, Asks n
  apart : c.created.Pairwise FarApart

section Runs
variable {js : Js} {c d : Journal} {q : Request}

/-- A request that creates nothing leaves what it must. -/
theorem Throttled.keep (h : Throttled c) (waits : StillWaits c.db d.db) (created : d.created = c.created)
    (stored : ∀ n ∈ c.db.notification, n.isRead = false → (∃ v ∈ d.db.visit, v.id = n.visitId ∧ v.status = .pending) →
      n ∈ d.db.notification) : Throttled d where
  known n hn := by
    rw [created] at hn
    obtain ⟨v, hv, hid⟩ := h.known n hn
    obtain ⟨w, hw, hid'⟩ := waits.kept v hv
    exact ⟨w, hw, hid'.trans hid⟩
  stored n hn w hw hid hpending := by
    rw [created] at hn
    rcases waits.waits w hw hpending with hold | hnew
    · obtain ⟨hmem, hread⟩ := h.stored n hn w hold hid hpending
      exact ⟨stored n hmem hread ⟨w, hw, hid, hpending⟩, hread⟩
    · obtain ⟨v, hv, hid'⟩ := h.known n hn
      exact absurd (hid'.trans hid.symm) (hnew v hv)
  asks := by
    rw [created]
    exact h.asks
  apart := by
    rw [created]
    exact h.apart

/-- A notification that is sent is far from all that were created for its visit: if the visit is new there are
    none, and if it waits they are all still there to be compared. -/
theorem Throttled.send (h : Throttled c) (waits : StillWaits c.db d.db) {n : Notification}
    (may : MaySend c.db d.db n.visitId q.io.now) (asks : Asks n) (unread : n.isRead = false)
    (later : q.io.now ≤ n.createdAt) (inserted : c.db.notification.insert n = some d.db.notification)
    (created : d.created = c.created ++ [n]) : Throttled d := by
  have hkeep : Throttled ⟨d.db, d.clock, c.created⟩ :=
    h.keep waits rfl fun m hm _ _ => (Table.mem_insert inserted).mpr (Or.inl hm)
  have hmem : n ∈ d.db.notification := (Table.mem_insert inserted).mpr (Or.inr rfl)
  have hknown : ∃ w ∈ d.db.visit, w.id = n.visitId := by
    rcases may with ⟨-, hw⟩ | ⟨⟨v, hv, hid, -⟩, -⟩
    · exact hw
    · obtain ⟨w, hw, hid'⟩ := waits.kept v hv
      exact ⟨w, hw, hid'.trans hid⟩
  have hfar : ∀ m ∈ c.created, FarApart m n := by
    intro m hm hof
    rcases may with ⟨hnew, -⟩ | ⟨⟨v, hv, hid, hpending⟩, hwaited⟩
    · obtain ⟨v, hv, hid⟩ := h.known m hm
      exact absurd (hid.trans hof) (hnew v hv)
    · have hthere := (h.stored m hm v hv (hid.trans hof.symm) hpending).1
      exact (hwaited m hthere hof (h.asks m hm)).trans (Int.sub_le_sub_right later m.createdAt)
  have hboth : ∀ {P : Notification → Prop}, (∀ m ∈ c.created, P m) → P n → ∀ m ∈ d.created, P m := by
    intro P hold hnew m hm
    rw [created, List.mem_append, List.mem_singleton] at hm
    rcases hm with hm | rfl
    · exact hold m hm
    · exact hnew
  refine ⟨hboth hkeep.known hknown, hboth hkeep.stored fun _ _ _ _ => ⟨hmem, unread⟩, hboth h.asks asks, ?_⟩
  rw [created, List.pairwise_append]
  refine ⟨h.apart, List.pairwise_singleton _ _, fun m hm n' hn' => ?_⟩
  obtain rfl := List.mem_singleton.mp hn'
  exact hfar m hm

theorem Throttled.step (h : Throttled c) (hstep : (journaled js).step c q d) : Throttled d := by
  obtain ⟨-, hlater, -, hreq, hcreated⟩ := hstep
  have waits : StillWaits c.db d.db := by
    rcases request_inv hreq with hsame | acted
    · exact stillWaits_of_eq (by rw [hsame])
    · exact acted.stillWaits
  cases step_noted hreq with
  | kept same =>
    rw [same, Table.newcomers_eq_nil fun n hn => ⟨n, hn, rfl⟩, List.append_nil] at hcreated
    refine h.keep waits hcreated fun n hn _ _ => ?_
    rw [same]
    exact hn
  | sent n may asks unread time stored =>
    rw [Table.newcomers_insert stored] at hcreated
    exact h.send waits may asks unread (hlater.trans time.ge) stored hcreated
  | answered v action decided notifications =>
    have hnone : c.db.notification.newcomers d.db.notification = [] := by
      rw [notifications]
      exact Table.newcomers_update (by exact ⟨fun _ => rfl, fun _ _ => rfl⟩)
    rw [hnone, List.append_nil] at hcreated
    refine h.keep waits hcreated fun n hn _ hwaits => ?_
    obtain ⟨w, hw, hid, hpending⟩ := hwaits
    rw [notifications]
    refine Table.mem_update_of_not hn (beq_eq_false_iff_ne.mpr fun hof => ?_)
    exact decided w hw (hid.trans hof) hpending
  | removed n mem read notifications =>
    rw [notifications, Table.newcomers_delete, List.append_nil] at hcreated
    refine h.keep waits hcreated fun m hm hread _ => ?_
    rw [notifications]
    refine Table.mem_delete.mpr ⟨hm, beq_eq_false_iff_ne.mpr fun hid => ?_⟩
    obtain rfl : m = n := Table.eq_of_id hm mem hid
    rw [read] at hread
    cases hread

end Runs

/-- In every run, all notifications ever created for one visit are at least five minutes apart. -/
theorem reminders_apart (js : Js) (c : Journal) (h : (journaled js).Reachable c) : c.created.Pairwise FarApart := by
  have throttled : Throttled c := by
    refine h.invariant (fun c hinit => ?_) fun c q d _ ih _ hstep => ih.step hstep
    rw [journaled] at hinit
    have none : ∀ n, n ∉ c.created := fun n hn => by
      rw [hinit.2] at hn
      cases hn
    refine ⟨fun n hn => absurd hn (none n), fun n hn => absurd hn (none n), fun n hn => absurd hn (none n), ?_⟩
    rw [hinit.2]
    exact List.Pairwise.nil
  exact throttled.apart

section Reception
open Reception

/-- A request that runs without failures, with what it creates. -/
def Journal.next (c : Journal) (q : Request) : Journal where
  db := ((q.call js).run c.db).2
  clock := q.io.notificationCreatedAt
  created := c.created ++ c.db.notification.newcomers ((q.call js).run c.db).2.notification

theorem reach_next {c : Journal} {q : Request} (h : (journaled js).Reachable c) (hclock : c.clock ≤ q.io.now)
    (hnow : q.io.now ≤ q.io.notificationCreatedAt) : (journaled js).Reachable (c.next q) :=
  h.step trivial ⟨hclock, hnow, le_refl _, ⟨_, Prog.exec_run (q.call js) c.db⟩, rfl⟩

def resend : Operation := .resendVisitNotification (some "desk") "System" "v1"

/-- Bob checks in; a reminder is refused, Ann deletes nothing, and after five minutes a reminder is sent. -/
def patient : Journal :=
  [request "1" 10 checkIn, request "2" 20 resend, request "3" 30 (.deleteNotification "ann-user" "Staff" "n1"),
    request "4" 300010 resend].foldl Journal.next ⟨db, 0, []⟩

theorem reach_patient : (journaled js).Reachable patient := by
  have hinit : (journaled js).Reachable ⟨db, 0, []⟩ := .init ⟨⟨rfl, rfl⟩, rfl⟩
  have h1 := reach_next (q := request "1" 10 checkIn) hinit (by decide) (by decide)
  have h2 := reach_next (q := request "2" 20 resend) h1 (by decide) (by decide)
  have h3 := reach_next (q := request "3" 30 (.deleteNotification "ann-user" "Staff" "n1")) h2 (by decide) (by decide)
  exact reach_next (q := request "4" 300010 resend) h3 (by decide) (by decide)

theorem reminders_apart_patient : patient.created.length = 2 ∧ patient.created.Pairwise FarApart :=
  ⟨by decide, reminders_apart js patient reach_patient⟩

end Reception

end Vms.VisitService
