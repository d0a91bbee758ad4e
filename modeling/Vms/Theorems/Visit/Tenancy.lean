import Vms.Theorems.Visit.Step

/-! Visits and notifications stay inside their organisation. Decisions look a notification up by its
    visit alone: that they stay inside rests on every notification belonging to the organisation of its
    visit. -/

namespace Vms.VisitService
open Relational

/-- A notification belongs to a visit of its own organisation. -/
def Owned (s : Db) : Prop := ∀ n ∈ s.notification, ∃ v ∈ s.visit, n.visitId = v.id ∧ n.orgId = v.orgId

/-- The visits and notifications of other organisations are untouched. -/
structure Within (orgId : String) (s t : Db) : Prop where
  visit : Table.Same (fun v : Visit => v.orgId ≠ orgId) s.visit t.visit
  notification : Table.Same (fun n : Notification => n.orgId ≠ orgId) s.notification t.notification

section Updates
variable {js : Js} {s t u : Db} {q : Request} {v v' : Visit} {n : Notification} {orgId : String}

theorem Within.trans (h : Within orgId s t) (h' : Within orgId t u) : Within orgId s u :=
  ⟨h.visit.trans h'.visit, h.notification.trans h'.notification⟩

theorem Adds.owned (owned : Owned s) (h : Adds s t v) : Owned t := fun n hn => by
  rw [h.rest] at hn
  obtain ⟨w, hw, hof⟩ := owned n hn
  exact ⟨w, (Table.mem_insert h.visit).mpr (Or.inl hw), hof⟩

theorem Adds.within (h : Adds s t v) (horg : v.orgId = orgId) : Within orgId s t where
  visit := Table.Same.insert h.visit (not_not.mpr horg)
  notification := Table.Same.of_eq (by rw [h.rest])

theorem Notifies.owned (owned : Owned s) (h : Notifies s t n) (hv : v ∈ s.visit) (hid : n.visitId = v.id)
    (horg : n.orgId = v.orgId) : Owned t := fun m hm => by
  have hvisit : t.visit = s.visit := by rw [h.rest]
  rw [hvisit]
  rcases (Table.mem_insert h.notification).mp hm with hm | rfl
  · exact owned m hm
  · exact ⟨v, hv, hid, horg⟩

theorem Notifies.within (h : Notifies s t n) (horg : n.orgId = orgId) : Within orgId s t where
  visit := Table.Same.of_eq (by rw [h.rest])
  notification := Table.Same.insert h.notification (not_not.mpr horg)

/-- A replaced visit is the only one that differs. -/
theorem Replaces.same (h : Replaces s t v v') (hid : v'.id = v.id) (horg : v.orgId = orgId) (horg' : v'.orgId = orgId) :
    Table.Same (fun v : Visit => v.orgId ≠ orgId) s.visit t.visit := fun w hw => by
  rw [h.visits]
  constructor
  · rintro (rfl | ⟨hmem, -⟩)
    · exact absurd horg' hw
    · exact hmem
  · intro hmem
    refine Or.inr ⟨hmem, fun hwid => hw ?_⟩
    rw [Table.eq_of_id hmem h.mem hwid, horg]

theorem Replaces.kept (h : Replaces s t v v') (hid : v'.id = v.id) (horg : v'.orgId = v.orgId) {w : Visit}
    (hw : w ∈ s.visit) : ∃ w' ∈ t.visit, w'.id = w.id ∧ w'.orgId = w.orgId := by
  by_cases hwid : w.id = v.id
  · obtain rfl : w = v := Table.eq_of_id hw h.mem hwid
    exact ⟨v', (h.visits v').mpr (Or.inl rfl), hid, horg⟩
  · exact ⟨w, (h.visits w).mpr (Or.inr ⟨hw, hwid⟩), rfl, rfl⟩

theorem Completes.owned {endTime : Date} (owned : Owned s) (h : Completes s t v endTime) : Owned t := fun n hn => by
  rw [h.rest] at hn
  obtain ⟨w, hw, hid, horg⟩ := owned n hn
  obtain ⟨w', hw', hid', horg'⟩ := h.kept rfl rfl hw
  exact ⟨w', hw', hid.trans hid'.symm, horg.trans horg'.symm⟩

theorem Completes.within {endTime : Date} (h : Completes s t v endTime) (horg : v.orgId = orgId) : Within orgId s t where
  visit := h.same rfl horg horg
  notification := Table.Same.of_eq (by rw [h.rest])

theorem Decides.owned {action : NotificationAction} (owned : Owned s) (h : Decides s t v v' action) (hid : v'.id = v.id)
    (horg : v'.orgId = v.orgId) : Owned t := fun n hn => by
  rw [h.notifications] at hn
  obtain ⟨m, hm, rfl⟩ := Table.mem_update.mp hn
  obtain ⟨w, hw, hmid, hmorg⟩ := owned m hm
  obtain ⟨w', hw', hid', horg'⟩ := h.kept hid horg hw
  refine ⟨w', hw', ?_, ?_⟩ <;> split <;> simp [hmid, hmorg, hid', horg']

/-- The notifications of a decided visit are of its organisation. -/
theorem Decides.within {action : NotificationAction} (owned : Owned s) (h : Decides s t v v' action) (hid : v'.id = v.id)
    (horg : v.orgId = orgId) (horg' : v'.orgId = orgId) : Within orgId s t where
  visit := h.same hid horg horg'
  notification := by
    rw [h.notifications]
    refine Table.Same.update fun n hn hof => ?_
    obtain ⟨w, hw, hnid, hnorg⟩ := owned n hn
    obtain rfl : w = v := Table.eq_of_id hw h.mem (hnid.symm.trans (beq_iff_eq.mp hof))
    exact ⟨not_not.mpr (hnorg.trans horg), not_not.mpr (hnorg.trans horg)⟩

theorem Removes.owned (owned : Owned s) (h : Removes s t n) : Owned t := fun m hm => by
  have hvisit : t.visit = s.visit := by rw [h.rest]
  rw [hvisit]
  rw [h.notification] at hm
  exact owned m (Table.mem_delete.mp hm).1

/-- A notification that is gone is the removed one. -/
theorem Removes.eq (h : Removes s t n) {m : Notification} (hm : m ∈ s.notification) (gone : m ∉ t.notification) : m = n := by
  rw [h.notification, Table.mem_delete] at gone
  refine Table.eq_of_id hm h.mem ?_
  by_contra hne
  exact gone ⟨hm, beq_eq_false_iff_ne.mpr hne⟩

theorem Removes.within (h : Removes s t n) (horg : n.orgId = orgId) : Within orgId s t where
  visit := Table.Same.of_eq (by rw [h.rest])
  notification := by
    rw [h.notification]
    refine Table.Same.delete fun m hm hid => not_not.mpr ?_
    obtain rfl : m = n := Table.eq_of_id hm h.mem (beq_iff_eq.mp hid)
    exact horg

/-- An effect stays inside the organisation of the request, and keeps notifications with their visits. -/
theorem Acted.within (owned : Owned s) (h : Acted js s q t) : Owned t ∧ Within q.orgId s t := by
  cases h with
  | checkIn systemId dto checkInPicture picture u op adds rest =>
    have added := adds.within rfl
    rcases rest with rfl | ⟨n, horg, hid, notifies⟩
    · exact ⟨adds.owned owned, added⟩
    · refine ⟨notifies.owned (adds.owned owned) ((Table.mem_insert adds.visit).mpr (Or.inr rfl)) hid horg, ?_⟩
      exact added.trans (notifies.within horg)
  | checkOut dto systemId role v op org ongoing completes => exact ⟨completes.owned owned, completes.within org⟩
  | checkOutQr role visitId v op may completes => exact ⟨completes.owned owned, completes.within may.org⟩
  | accept userId role visitId dto v op may decides =>
    exact ⟨decides.owned owned rfl rfl, decides.within owned rfl may.org may.org⟩
  | reject userId role visitId dto v op may decides =>
    exact ⟨decides.owned owned rfl rfl, decides.within owned rfl may.org may.org⟩
  | remind systemId role visitId v n op mem org of notifies =>
    exact ⟨notifies.owned owned mem of.2 (of.1.trans org.symm), notifies.within of.1⟩
  | delete userId role notificationId staff n op caller own org removes =>
    exact ⟨removes.owned owned, removes.within org⟩

theorem owned_of_reach (h : (visiting js).Reachable s) : Owned s := by
  refine h.invariant (fun s init => ?_) fun s q t _ owned _ step => ?_
  · intro n hn
    rw [init.2] at hn
    exact absurd hn Table.not_mem_empty
  · rcases request_inv step with rfl | acted
    · exact owned
    · exact (acted.within owned).1

/-- The visit that a decision moves is the one that it replaces. -/
theorem Replaces.moved (h : Replaces s t v v') {w w' : Visit} (hw : w ∈ s.visit) (hw' : w' ∈ t.visit) (hid : w'.id = w.id)
    (hv' : v'.id = v.id) (hstatus : w'.status ≠ w.status) : w = v := by
  rcases (h.visits w').mp hw' with rfl | ⟨hw', -⟩
  · exact Table.eq_of_id hw h.mem (hid.symm.trans hv')
  · obtain rfl := Table.eq_of_id hw' hw hid
    exact absurd rfl hstatus

/-- A decision is made by the host or an administrator. -/
theorem Acted.decided {userId role visitId : String} (h : Acted js s q t)
    (hop : (∃ dto, q.op = .acceptVisit userId role visitId dto) ∨ ∃ dto, q.op = .rejectVisit userId role visitId dto) :
    ∃ v v' action, MayDecide s q.orgId userId role visitId v ∧ Decides s t v v' action ∧ v'.id = v.id := by
  cases h with
  | accept userId' role' visitId' dto v op may decides =>
    rcases hop with ⟨dto', hop⟩ | ⟨dto', hop⟩ <;> rw [op] at hop <;> cases hop
    exact ⟨v, _, _, may, decides, rfl⟩
  | reject userId' role' visitId' dto v op may decides =>
    rcases hop with ⟨dto', hop⟩ | ⟨dto', hop⟩ <;> rw [op] at hop <;> cases hop
    exact ⟨v, _, _, may, decides, rfl⟩
  | checkIn _ _ _ _ _ op | checkOut _ _ _ _ op | checkOutQr _ _ _ op | remind _ _ _ _ _ op | delete _ _ _ _ _ op =>
    rcases hop with ⟨_, hop⟩ | ⟨_, hop⟩ <;> rw [op] at hop <;> cases hop

/-- A deletion removes a notification of the caller. -/
theorem Acted.deleted {userId role notificationId : String} (h : Acted js s q t)
    (hop : q.op = .deleteNotification userId role notificationId) :
    ∃ staff n, Caller s q.orgId userId staff ∧ n.staffId = staff.id ∧ Removes s t n := by
  cases h with
  | delete userId' role' notificationId' staff n op caller own org removes =>
    rw [op] at hop
    cases hop
    exact ⟨staff, n, caller, own, removes⟩
  | checkIn _ _ _ _ _ op | checkOut _ _ _ _ op | checkOutQr _ _ _ op | accept _ _ _ _ _ op | reject _ _ _ _ _ op
  | remind _ _ _ _ _ op =>
    rw [op] at hop
    cases hop

end Updates

/-- In every reachable state, a request with a token of an organisation leaves the visits and
    notifications of other organisations alone; `acceptVisit` and `rejectVisit` move a visit only for its
    host or an administrator of the organisation; `deleteNotification` removes only the caller's own. -/
theorem visit_writes_within_tenant (js : Js) (s : Db) (q : Request) (t : Db) (h : (visiting js).Reachable s)
    (step : (visiting js).step s q t) :
    Within q.orgId s t ∧
    (∀ userId role visitId, (∃ dto, q.op = .acceptVisit userId role visitId dto) ∨
        (∃ dto, q.op = .rejectVisit userId role visitId dto) →
      ∀ v ∈ s.visit, ∀ w ∈ t.visit, w.id = v.id → w.status ≠ v.status →
        ∃ staff, Caller s q.orgId userId staff ∧ (v.staffId = staff.id ∨ role = "SuperAdmin" ∨ role = "Admin")) ∧
    ∀ userId role notificationId, q.op = .deleteNotification userId role notificationId →
      ∀ n ∈ s.notification, n ∉ t.notification → ∃ staff, Caller s q.orgId userId staff ∧ n.staffId = staff.id := by
  rcases request_inv step with rfl | acted
  · refine ⟨⟨Table.Same.refl _, Table.Same.refl _⟩, fun _ _ _ _ v hv w hw hid hne => ?_, fun _ _ _ _ n hn gone => ?_⟩
    · obtain rfl := Table.eq_of_id hw hv hid
      exact absurd rfl hne
    · exact absurd hn gone
  · refine ⟨(acted.within (owned_of_reach h)).2, fun userId role visitId hop v hv w hw hid hne => ?_,
      fun userId role notificationId hop n hn gone => ?_⟩
    · obtain ⟨v', w', action, may, decides, hid'⟩ := acted.decided hop
      obtain rfl := decides.moved hv hw hid hid' hne
      exact may.caller
    · obtain ⟨staff, m, caller, own, removes⟩ := acted.deleted hop
      obtain rfl := removes.eq hn gone
      exact ⟨staff, caller, own⟩

section Reception
open Reception

theorem visit_writes_within_tenant_reception :
    Within "org" (runAll js db [request "1" 10 checkIn]) (runAll js db [request "1" 10 checkIn, request "2" 20 (accept "v1")]) :=
  (visit_writes_within_tenant js (runAll js db [request "1" 10 checkIn]) (request "2" 20 (accept "v1")) _
    (reachable_runAll (.init ⟨rfl, rfl⟩) _) ⟨_, Prog.exec_run (Request.call js (request "2" 20 (accept "v1"))) _⟩).1

end Reception

end Vms.VisitService
