import Vms.Theorems.Attendance.Step
import Vms.Theorems.Server.History
import Vms.Theorems.Server.Tenant

/-! Organisations are apart. Whatever requests run at the same time, and however they interleave, what belongs to an
    organisation is as it was if none of them is sent from it, or by a root user. -/

namespace Vms.Server
open Relational Table HttpException Prog
open AuthService (always_query always_mutate)

variable {tenant : String} {s t : Db}

/-! ### Statements -/

section Visits
open VisitService

theorem createVisit_spares {v : Visit} (hv : v.orgId ≠ tenant) : (createVisit v).Within (Spares tenant) :=
  always_create_map .refl (fun _ => rfl) fun _ _ _ hu => .withVisit (.insert hu SameVisit.refl hv)

theorem createNotification_spares {n : Notification} (hn : n.orgId ≠ tenant) : (createNotification n).Within (Spares tenant) :=
  always_create .refl fun _ _ _ hu => .withNotification (.insert hu (fun _ => rfl) hn)

/-- A visit under an identifier that no visit of the organisation has. -/
theorem visits_spared {c : Visit → Bool} {f : Visit → Visit} {u : Table Visit} {id : String}
    (other : ¬s.visit.Has (·.orgId = tenant) id) (rows : u.rows = s.visit.rows.map fun v => if c v then f v else v)
    (hc : ∀ v, c v = true → v.id = id) (org : ∀ v, (f v).orgId = v.orgId) : Spares tenant s { s with visit := u } :=
  .withVisit (.of_rows rows SameVisit.refl fun v hv hcv => by
    have hne : v.orgId ≠ tenant := fun horg => other ⟨v, hv, hc v hcv, horg⟩
    exact ⟨hne, by rwa [org v]⟩)

theorem completeVisit_spares {id : String} {endTime : Date} (other : ¬s.visit.Has (·.orgId = tenant) id) :
    (completeVisit id endTime).Keeps (Spares tenant) s := by
  refine mutate_keeps .refl fun t ht a u h => ?_
  split at h
  · cases h
  · cases h
    exact visits_spared (mt ht.visit_iff.mp other) rfl (fun _ hc => beq_iff_eq.mp hc) fun _ => rfl

/-- Neither the visit nor its notifications are the organisation's. -/
theorem decision_spares {visitId : String} {action : NotificationAction} {change : Visit → Visit} {keys : Row.Fixes change}
    (linked : Linked tenant s) (other : ¬s.visit.Has (·.orgId = tenant) visitId) (org : ∀ v, (change v).orgId = v.orgId) :
    (decision visitId action change keys).Post (fun _ t => Spares tenant s t) s := by
  refine Post.bind_rel Spares.trans (post_mutate.mpr ⟨⟨fun _ _ => .refl s, fun n t h => ?_⟩, .refl s⟩) fun _ t ht => ?_
  · cases h
    refine visits_spared other rfl (fun v hc => ?_) org
    rw [Bool.and_eq_true, beq_iff_eq] at hc
    exact hc.1
  · refine Post.bind_rel Spares.trans (post_failIf.mpr ⟨fun _ => .refl t, fun _ => .refl t⟩) fun _ u hu => ?_
    refine Post.bind_rel Spares.trans (post_mutate.mpr ⟨⟨fun _ _ => .refl u, fun _ v h => ?_⟩, .refl u⟩) fun _ v hv => ?_
    · cases h
      refine .withNotification (.of_rows rfl (fun _ => rfl) fun n hn hc => ?_)
      have hne : n.orgId ≠ tenant := fun horg => by
        have hvisit := ((hu.linked (ht.linked linked)).notification n hn horg).2
        rw [beq_iff_eq.mp hc, hu.visit_iff, ht.visit_iff] at hvisit
        exact other hvisit
      exact ⟨hne, hne⟩
    · exact Post.bind_rel Spares.trans (post_query.mpr ⟨.refl v, .refl v⟩) fun o w _ =>
        post_orFail.mpr ⟨fun _ => .refl w, fun _ _ => .refl w⟩

end Visits

section AttendanceLog
open Attendance

theorem createSession_spares {x : AttendanceSession} (hx : x.orgId ≠ tenant) : (createSession x).Within (Spares tenant) :=
  always_create .refl fun _ _ _ hu => .withSession (.insert hu (fun _ => rfl) hx)

theorem createEvent_spares {e : AttendanceEvent} (he : e.orgId ≠ tenant) : (createEvent e).Within (Spares tenant) :=
  always_create .refl fun _ _ _ hu => .withEvent (.insert hu (fun _ => rfl) he)

/-- A session of somebody else is closed. -/
theorem closed_spares {x y : AttendanceSession} {u : Table AttendanceSession} (hx : x ∈ s.attendanceSession) (hne : x.orgId ≠ tenant)
    (closed : ∀ z, z ∈ u ↔ z = y ∨ (z ∈ s.attendanceSession ∧ z.id ≠ x.id)) (org : y.orgId = x.orgId) :
    Spares tenant s { s with attendanceSession := u } := by
  refine .withSession ⟨fun z hz horg => ⟨z, (closed z).mpr (Or.inr ⟨hz, fun hid => ?_⟩), rfl⟩, fun z hz horg => ?_⟩
  · rw [eq_of_id hz hx hid] at horg
    exact hne horg
  · rcases (closed z).mp hz with rfl | ⟨hz, -⟩
    · exact absurd (org.symm.trans horg) hne
    · exact ⟨z, hz, rfl⟩

end AttendanceLog

section Members
open StaffService

theorem insertStaff_spares {staff : Staff} {u : Table Staff} (stored : s.staff.insert staff = some u) (org : staff.orgId ≠ tenant)
    (user : staff.userId = none) : Spares tenant s { s with staff := u } :=
  .withStaff (.insert stored SameStaff.refl org) fun hs a ha horg id hid => by
    rcases (mem_insert stored).mp ha with ha | rfl
    · exact hs a ha horg id hid
    · rw [user] at hid
      cases hid

/-- A new account for a staff member, neither of them the organisation's. -/
theorem createMemberUser_spares {user : UserCredential} {staffId : String} (org : user.orgId ≠ some tenant)
    (other : ¬Employs tenant s staffId) : (createUser user staffId).Post (fun _ t => Spares tenant s t) s := by
  refine post_mutate.mpr ⟨⟨fun _ _ => .refl s, fun _ t h => ?_⟩, .refl s⟩
  obtain ⟨-, -, users, staff, husers, hstaff, rfl⟩ := createdUser_eq_ok.mp h
  have hmember (a : Staff) (ha : a ∈ s.staff) (hc : (a.id == staffId) = true) : a.orgId ≠ tenant :=
    fun horg => other ⟨a, ha, beq_iff_eq.mp hc, horg⟩
  refine { Spares.refl s with
    userCredential := .insert husers SameAccount.refl org
    staff := .of_rows (rows_modify hstaff) SameStaff.refl fun a ha hc => ⟨hmember a ha hc, hmember a ha hc⟩
    strangers := fun hs b hb horg id hid => ?_ }
  rintro ⟨account, haccount, hof, hacc⟩
  obtain ⟨a, ha, rfl⟩ := (mem_modify hstaff).mp hb
  rcases (mem_insert husers).mp haccount with hold | rfl
  · split at hid
    · exact id_ne_of_insert husers hold (hof.trans (Option.some.inj hid).symm)
    · rename_i hc
      rw [if_neg hc] at horg
      exact hs a ha horg id hid ⟨account, hold, hof, hacc⟩
  · exact org hacc

theorem updateMemberUser_spares {id : String} {change : UserCredential → UserCredential} (other : ¬Accounts tenant s id)
    (reassigns : ∀ a, Reassigned a (change a)) : (updateUser id change).Post (fun _ t => Spares tenant s t) s := by
  refine post_mutate.mpr ⟨⟨fun _ _ => .refl s, fun _ t h => ?_⟩, .refl s⟩
  split at h
  · cases h
  split at h
  · cases h
  rename_i u hu
  cases h
  refine .withUser (.of_rows (rows_modify hu) SameAccount.refl fun a ha hc => ?_)
  have hne : a.orgId ≠ some tenant := fun horg => other ⟨a, ha, beq_iff_eq.mp hc, horg⟩
  obtain ⟨_, _, _, -, hchange⟩ := reassigns a
  exact ⟨hne, by rwa [hchange]⟩

theorem updateStaff_spares {id : String} {change : Staff → Staff} (other : ¬Employs tenant s id)
    (updates : ∀ a, StaffUpdated a (change a)) : (updateStaff id change).Post (fun _ t => Spares tenant s t) s := by
  refine post_mutate.mpr ⟨⟨fun _ _ => .refl s, fun _ t h => ?_⟩, .refl s⟩
  obtain ⟨-, u, -, -, hu, rfl⟩ := updatedStaff_eq_ok.mp h
  have columns (a : Staff) : (change a).orgId = a.orgId ∧ (change a).userId = a.userId := by
    obtain ⟨_, _, _, _, _, hchange⟩ := updates a
    rw [hchange]
    exact ⟨rfl, rfl⟩
  refine .withStaff (.of_rows (rows_modify hu) SameStaff.refl fun a ha hc => ?_) fun hs b hb horg user huser => ?_
  · have hne : a.orgId ≠ tenant := fun horg => other ⟨a, ha, beq_iff_eq.mp hc, horg⟩
    exact ⟨hne, by rwa [(columns a).1]⟩
  · obtain ⟨a, ha, rfl⟩ := (mem_modify hu).mp hb
    split at horg
    · rw [if_pos ‹_›, (columns a).2] at huser
      exact hs a ha ((columns a).1 ▸ horg) user huser
    · rw [if_neg ‹_›] at huser
      exact hs a ha horg user huser

theorem upsertStaffHours_spares {io : StaffService.Io} {staffId : String} {dto : WorkingHoursDto} {day : Weekday}
    (other : ¬Employs tenant s staffId) : (upsertWorkingHours io staffId dto day).Post (fun _ t => Spares tenant s t) s := by
  refine post_mutate.mpr ⟨⟨fun _ _ => .refl s, fun _ t h => ?_⟩, .refl s⟩
  have apart (hours : WorkingHours) (hid : hours.staffId = some staffId) : ¬HoursOf tenant s hours := by
    rintro (⟨-, hnone⟩ | ⟨-, id, hid', hemployed⟩)
    · rw [hid] at hnone
      cases hnone
    · rw [hid] at hid'
      exact other (Option.some.inj hid' ▸ hemployed)
  split at h
  · cases h
    refine .withHours (.of_rows rfl (fun _ => rfl) fun hours _ hc => ?_)
    rw [Bool.and_eq_true, beq_iff_eq, beq_iff_eq] at hc
    exact ⟨apart hours hc.2, apart _ hc.2⟩
  · obtain ⟨-, u, hu, hx⟩ := created_map_eq_ok.mp h
    cases hx
    exact .withHours (.insert hu (fun _ => rfl) (apart _ rfl))

end Members

section Organizations
open OrganizationService

theorem updateOrganization_spares {id : String} {change : Organization → Organization} (other : id ≠ tenant)
    (ids : ∀ a, (change a).id = a.id) : (updateOrganization id change).Within (Spares tenant) := by
  refine always_mutate .refl fun s a t h => ?_
  split at h
  · cases h
  split at h
  · cases h
  rename_i u hu
  cases h
  refine .withOrganization (.of_rows (rows_modify hu) (fun _ => rfl) fun a _ hc => ?_)
  have hne : a.id ≠ tenant := fun hid => other ((beq_iff_eq.mp hc).symm.trans hid)
  exact ⟨hne, by rwa [ids a]⟩

theorem upsertOrganizationHours_spares {io : ChangeIo} {orgId : String} {dto : StaffService.WorkingHoursDto} {day : Weekday}
    (other : orgId ≠ tenant) : (upsertWorkingHours io orgId dto day).Within (Spares tenant) := by
  have apart (s : Db) (hours : WorkingHours) (hid : hours.orgId = some orgId) : ¬HoursOf tenant s hours := by
    rintro (⟨horg, -⟩ | ⟨hnone, -⟩)
    · exact other (Option.some.inj (hid.symm.trans horg))
    · rw [hid] at hnone
      cases hnone
  refine always_mutate .refl fun s a t h => ?_
  split at h
  · cases h
    refine .withHours (.of_rows rfl (fun _ => rfl) fun hours _ hc => ?_)
    rw [Bool.and_eq_true, beq_iff_eq, beq_iff_eq] at hc
    exact ⟨apart s hours hc.2, apart s _ hc.2⟩
  · obtain ⟨-, u, hu, hx⟩ := created_map_eq_ok.mp h
    cases hx
    exact .withHours (.insert hu (fun _ => rfl) (apart s _ rfl))

end Organizations

/-! ### Operations -/

theorem query_spares {α : Type} {f : Db → α} : (query f).Within (Spares tenant) := always_query .refl

theorem outside_spares {e : HttpException} : (outside e).Within (Spares tenant) := always_access .refl

theorem logged_spares {p : Service Unit} (h : p.Within (Spares tenant)) : (p.orElse fun _ => pure ()).Within (Spares tenant) :=
  h.orElse fun _ => trivial

/-- A program that changes nothing. -/
theorem reads_spares {α : Type} {p : Service α} (hp : p.Within (Changes fun _ => False)) : p.Within (Spares tenant) :=
  spares_of_within hp fun _ hk => hk.elim

section VisitOperations
open VisitService
variable {js : Js} {io : VisitService.Io} {orgId userId role visitId : String} {systemId : Option String}
  (org : orgId ≠ tenant)
include org

theorem startVisit_spares {dto : StartVisitDto} {checkInPicture : Bool} :
    (startVisit js io orgId systemId dto checkInPicture).Within (Spares tenant) := by
  refine always_orFail.bind fun _ => query_spares.bind fun _ => always_orFail.bind fun _ => always_failIf.bind fun _ => ?_
  refine query_spares.bind fun _ => always_orFail.bind fun _ => query_spares.bind fun _ => always_failIf.bind fun _ => ?_
  refine Always.bind ?_ fun _ => (createVisit_spares org).bind fun _ => (createNotification_spares org).bind fun _ => ?_
  · unfold uploadImage
    split
    · exact outside_spares.bind fun _ => trivial
    · trivial
  · exact outside_spares.bind fun _ => outside_spares.bind fun _ => trivial

theorem endVisit_spares {dto : EndVisitDto} {role : Option String} :
    (endVisit js io orgId dto systemId role).Keeps (Spares tenant) s := by
  refine (reads_spares checkSystemAccount_within).keeps.bind .refl .trans fun _ t _ => query_bind_keeps .refl fun u _ => ?_
  refine orFail_bind_keeps fun visit hvisit => failIf_bind_keeps fun _ => ?_
  refine Keeps.bind .refl .trans (completeVisit_spares ?_) fun _ _ _ => ?_
  · obtain ⟨hmem, hc⟩ := mem_filter.mp (RowOrder.mem_of_first hvisit)
    simp only [Bool.and_eq_true, beq_iff_eq] at hc
    exact not_has_of_mem hmem fun horg => org (hc.1.1.2.symm.trans horg)
  · exact Within.keeps (outside_spares.bind fun _ => outside_spares.bind fun _ => trivial)

theorem endVisitQr_spares : (endVisitQr io orgId role visitId).Keeps (Spares tenant) s := by
  refine failIf_bind_keeps fun _ => failIf_bind_keeps fun _ => failIf_bind_keeps fun _ => query_bind_keeps .refl fun _ _ => ?_
  refine orFail_bind_keeps fun _ _ => query_bind_keeps .refl fun t _ => orFail_bind_keeps fun visit hvisit => ?_
  refine failIf_bind_keeps fun horg => Keeps.bind .refl .trans (completeVisit_spares ?_) fun _ _ _ => ?_
  · obtain ⟨hmem, -⟩ := find_eq_some.mp (Option.filter_eq_some_iff.mp hvisit).1
    exact not_has_of_mem hmem fun h => org ((not_not.mp horg).symm.trans h)
  · exact Within.keeps (outside_spares.bind fun _ => outside_spares.bind fun _ => trivial)

theorem decideVisit_spares (linked : Linked tenant s) {action : NotificationAction} {change : Visit → Visit} {keys : Row.Fixes change}
    (sameOrg : ∀ v, (change v).orgId = v.orgId) :
    (decideVisit orgId userId role visitId action change keys).Keeps (Spares tenant) s := by
  refine failIf_bind_keeps fun _ => query_bind_keeps .refl fun t ht => orFail_bind_keeps fun _ _ => ?_
  refine query_bind_keeps .refl fun u hu => ?_
  refine orFail_bind_keeps fun visit hvisit => failIf_bind_keeps fun _ => transaction_keeps .refl fun v hv => Post.returns ?_
  obtain ⟨hfound, horg⟩ := Option.filter_eq_some_iff.mp hvisit
  obtain ⟨hmem, rfl⟩ := find_eq_some.mp (Option.filter_eq_some_iff.mp hfound).1
  have other : ¬u.visit.Has (·.orgId = tenant) visit.id :=
    not_has_of_mem hmem fun h => org ((beq_iff_eq.mp horg).symm.trans h)
  exact decision_spares (hv.linked (hu.linked (ht.linked linked))) (mt hv.visit_iff.mp other) sameOrg

theorem acceptVisit_spares (linked : Linked tenant s) {dto : AcceptVisitDto} :
    (acceptVisit io orgId userId role visitId dto).Keeps (Spares tenant) s := by
  refine Keeps.bind .refl .trans (decideVisit_spares org linked fun _ => rfl) fun _ _ _ => Within.keeps ?_
  refine (logged_spares outside_spares).bind fun _ => (logged_spares ?_).bind fun _ => trivial
  exact outside_spares.bind fun _ => outside_spares

theorem rejectVisit_spares (linked : Linked tenant s) {dto : RejectVisitDto} :
    (rejectVisit orgId userId role visitId dto).Keeps (Spares tenant) s :=
  Keeps.bind .refl .trans (decideVisit_spares org linked fun _ => rfl) fun _ _ _ =>
    Within.keeps ((logged_spares outside_spares).bind fun _ => trivial)

theorem resendVisitNotification_spares : (resendVisitNotification io systemId role orgId visitId).Within (Spares tenant) := by
  refine always_failIf.bind fun _ => always_orFail.bind fun _ => query_spares.bind fun _ => always_orFail.bind fun _ => ?_
  refine query_spares.bind fun _ => always_orFail.bind fun _ => always_failIf.bind fun _ => query_spares.bind fun _ => ?_
  exact always_failIf.bind fun _ => createNotification_spares org

theorem deleteNotification_spares {notificationId : String} :
    (NotificationsService.deleteNotification userId orgId role notificationId).Keeps (Spares tenant) s := by
  refine failIf_bind_keeps fun _ => query_bind_keeps .refl fun _ _ => orFail_bind_keeps fun _ _ => ?_
  refine Keeps.bind .refl .trans (transaction_keeps .refl fun t _ => ?_) fun _ _ _ => trivial
  rw [returns_bind, returns_query, then_ok, returns_bind, returns_orFail]
  refine ⟨fun _ => .refl t, fun notification hfound => ?_⟩
  rw [then_ok, returns_mutate]
  refine ⟨fun _ _ => .refl t, fun _ u h => ?_⟩
  split at h
  · cases h
  · cases h
    obtain ⟨hfind, hc⟩ := Option.filter_eq_some_iff.mp (Option.filter_eq_some_iff.mp hfound).1
    obtain ⟨hmem, rfl⟩ := find_eq_some.mp hfind
    simp only [Bool.and_eq_true, beq_iff_eq] at hc
    refine .withNotification (.delete (fun _ => rfl) fun n hn horg => beq_eq_false_iff_ne.mpr fun hid => ?_)
    rw [eq_of_id hn hmem hid] at horg
    exact org (hc.1.2.symm.trans horg)

end VisitOperations

section AttendanceOperations
open Attendance
variable {luxon : Luxon} {io : Attendance.Io} {orgId systemId staffId role code : String} {dto : AttendanceActionDto}

/-- Whoever is found by a badge is a staff member of the kiosk's organisation. -/
theorem getStaffByEmployeeCode_obeys (org : orgId ≠ tenant) : (getStaffByEmployeeCode orgId (some code) none).Obeys (Spares tenant)
    (fun r t => ∀ staff, r = .ok staff → staff.orgId ≠ tenant ∧ ¬Employs tenant t staff.id) s := by
  have checks (t : Db) (organization : Organization) (found : Option Staff) (hid : organization.id = orgId)
      (hfound : ∀ staff, found = some staff → staff ∈ t.staff) :
      (orFail (.notFound "No employee found for these credentials.") found >>= fun staff =>
        failIf (staff.badgeActive = false) (.badRequest "This badge is deactivated.") >>= fun _ =>
        failIf (organization.id ≠ staff.orgId) (.badRequest "Employee belongs to different organization.") >>= fun _ =>
        pure staff : Service Staff).Obeys (Spares tenant)
        (fun r t => ∀ staff, r = .ok staff → staff.orgId ≠ tenant ∧ ¬Employs tenant t staff.id) t := by
    simp only [obeys_bind, obeys_orFail, obeys_failIf, obeys_pure, then_ok, then_error, reduceCtorEq, false_implies, implies_true,
      true_and, Except.ok.injEq]
    rintro staff hstaff - horg _ rfl
    have hne : staff.orgId ≠ tenant := by
      rw [← not_not.mp horg, hid]
      exact org
    exact ⟨hne, not_has_of_mem (hfound staff hstaff) hne⟩
  unfold getStaffByEmployeeCode
  simp only [obeys_bind, obeys_query Spares.refl, obeys_orFail, then_ok, then_error, reduceCtorEq, false_implies, implies_true,
    true_and, and_true]
  intro t _ organization horg
  have hid : organization.id = orgId := (find_eq_some.mp horg).2
  split
  · simp only [obeys_bind, obeys_query Spares.refl, then_ok, then_error, reduceCtorEq, false_implies, implies_true, and_true]
    exact fun u _ => obeys_bind.mp (checks u organization _ hid fun staff hstaff => (mem_of_findBy hstaff).1)
  · exact checks t organization none hid fun _ h => by cases h

theorem handlePunchIn_spares (org : orgId ≠ tenant) : (handlePunchIn luxon io staffId orgId dto).Within (Spares tenant) := by
  refine always_orFail.bind fun _ => query_spares.bind fun _ => always_orFail.bind fun _ => Within.transaction .refl .trans ?_
  refine always_orFail.bind fun _ => query_spares.bind fun _ => always_failIf.bind fun _ => query_spares.bind fun _ => ?_
  refine always_failIf.bind fun _ => (createSession_spares org).bind fun _ => ?_
  exact (createEvent_spares org).bind fun _ => trivial

theorem handleBreak_spares {eventType : AttendanceEventType} {admits : AttendanceEventType → Bool} {required refused : String}
    {reply : Date → ActionReply} (org : orgId ≠ tenant) :
    (handleBreak eventType admits required refused reply io staffId orgId dto).Within (Spares tenant) := by
  refine always_orFail.bind fun _ => always_orFail.bind fun _ => Within.transaction .refl .trans ?_
  refine (reads_spares openSession_within).bind fun _ => query_spares.bind fun _ => always_orFail.bind fun _ => ?_
  exact (createEvent_spares org).bind fun _ => trivial

/-- A session of the staff member is not the organisation's. -/
theorem session_other {x : AttendanceSession} (linked : Linked tenant s) (other : ¬Employs tenant s staffId)
    (hx : x ∈ s.attendanceSession) (howner : x.staffId = staffId) : x.orgId ≠ tenant :=
  fun horg => other (howner ▸ linked.attendanceSession x hx horg)

theorem handlePunchOut_spares (org : orgId ≠ tenant) (linked : Linked tenant s) (other : ¬Employs tenant s staffId) :
    (handlePunchOut io staffId orgId dto).Keeps (Spares tenant) s := by
  refine orFail_bind_keeps fun _ _ => orFail_bind_keeps fun time _ => transaction_keeps .refl fun t ht => ?_
  rw [returns_bind]
  refine openSession_spec (fun _ => .refl t) fun x hx _ howner _ => ?_
  have hne := session_other (ht.linked linked) (mt ht.employs_iff.mp other) hx howner
  simp only [then_ok, returns_query, returns_bind]
  refine createEvent_spec (fun _ => .refl t) fun u hu => ?_
  have event : Spares tenant t { t with attendanceEvent := u } := .withEvent (.insert hu (fun _ => rfl) org)
  rw [then_ok, returns_bind]
  exact closeSession_spec hx (fun _ => event) fun w hw => event.trans (closed_spares hx hne hw rfl)

theorem handleLatePunchOutAndPunchIn_spares (org : orgId ≠ tenant) (linked : Linked tenant s) (other : ¬Employs tenant s staffId) :
    (handleLatePunchOutAndPunchIn luxon io staffId orgId dto).Keeps (Spares tenant) s := by
  refine orFail_bind_keeps fun _ _ => query_bind_keeps .refl fun t ht => failIf_bind_keeps fun _ => ?_
  refine orFail_bind_keeps fun approxOut _ => orFail_bind_keeps fun punchIn _ => orFail_bind_keeps fun tz _ => ?_
  refine transaction_keeps .refl fun u hu => ?_
  rw [returns_bind]
  refine openSession_spec (fun _ => .refl u) fun x hx _ howner _ => ?_
  have hne := session_other (hu.linked (ht.linked linked)) (mt (ht.trans hu).employs_iff.mp other) hx howner
  simp only [then_ok, returns_query, returns_bind, returns_failIf, then_error]
  refine ⟨fun _ => .refl u, fun _ => createEvent_spec (fun _ => .refl u) fun v hv => ?_⟩
  have event : Spares tenant u { u with attendanceEvent := v } := .withEvent (.insert hv (fun _ => rfl) org)
  rw [then_ok, returns_bind]
  refine closeSession_spec hx (fun _ => event) fun w hw => ?_
  have closed := event.trans (closed_spares hx hne hw rfl)
  rw [then_ok]
  refine Returns.mono (Post.returns (Within.post .refl .trans ?_ _)) fun _ _ h => closed.trans h
  refine always_orFail.bind fun _ => (createSession_spares org).bind fun _ => ?_
  exact (createEvent_spares org).bind fun _ => trivial

theorem action_spares (org : orgId ≠ tenant) (linked : Linked tenant s) :
    (action luxon io orgId systemId role dto).Keeps (Spares tenant) s := by
  refine (reads_spares checkSystem_within).keeps.bind .refl .trans fun _ t ht => ?_
  refine obeys_bind.mpr (((getStaffByEmployeeCode_obeys org).since .refl .trans).mono fun r u hr => ?_)
  cases r with
  | error e => trivial
  | ok staff =>
    obtain ⟨hu, hstaff⟩ := hr
    obtain ⟨horg, other⟩ := hstaff staff rfl
    have linked' := hu.linked (ht.linked linked)
    rw [then_ok]
    split
    · exact (handlePunchIn_spares horg).keeps
    · exact (handleBreak_spares horg).keeps
    · exact (handleBreak_spares horg).keeps
    · exact handlePunchOut_spares horg linked' other
    · exact handleLatePunchOutAndPunchIn_spares horg linked' other

end AttendanceOperations

section MemberOperations
open StaffService
variable {js : Js} {io : StaffService.Io} {orgId qOrgId : Option String} {role staffId : String}

/-- Nobody but a root user names another organisation than their own. -/
theorem targetOrgId_ne (hrole : role ≠ "Root") (org : orgId ≠ some tenant) {target : String}
    (htarget : truthy (targetOrgId orgId role qOrgId) = some target) : target ≠ tenant := by
  have hown : targetOrgId orgId role qOrgId = orgId := if_neg fun h => hrole h.1
  rw [hown] at htarget
  rintro rfl
  exact org (truthy_eq_some.mp htarget).1

theorem organization_ne {target : String} {organization : Organization} (h : s.organization.find target = some organization)
    (hne : target ≠ tenant) : organization.id ≠ tenant := fun hid => hne ((find_eq_some.mp h).2.symm.trans hid)

theorem createMember_spares {i : Nat} {organization : Organization} {dto : AddStaffMemberDto} {email departmentId : String}
    (org : organization.id ≠ tenant) :
    (createMember io i organization dto email departmentId).Post (fun _ t => Spares tenant s t) s := by
  have code : (generateUniqueEmployeeCode io i organization.id).Within (Spares tenant) :=
    query_spares.bind fun _ => always_orFail.bind fun _ => pickEmployeeCode_within .refl
  refine Post.bind_rel Spares.trans (code.post .refl .trans s) fun _ t _ => ?_
  refine post_bind.mpr (post_mutate.mpr ⟨⟨fun _ _ => .refl t, fun staff u h => ?_⟩, .refl t⟩)
  obtain ⟨-, rfl, u, hu, rfl⟩ := created_eq_ok.mp h
  have added := insertStaff_spares hu org rfl
  refine Post.mono (Q := fun _ v => Spares tenant { t with staff := u } v) ?_ fun _ v hv => added.trans hv
  refine Post.bind_rel Spares.trans (createMemberUser_spares ?_ ?_) fun _ v _ => ?_
  · exact fun h => org (Option.some.inj h)
  · exact not_has_of_mem ((mem_insert hu).mpr (Or.inr rfl)) org
  · exact Spares.refl v

theorem addStaffMember_spares {dto : AddStaffMemberDto} (hrole : role ≠ "Root") (org : orgId ≠ some tenant) :
    (addStaffMember js io orgId role dto qOrgId).Keeps (Spares tenant) s := by
  refine orFail_bind_keeps fun target htarget => failIf_bind_keeps fun _ => query_bind_keeps .refl fun _ _ => ?_
  refine orFail_bind_keeps fun organization horg => query_bind_keeps .refl fun _ _ => failIf_bind_keeps fun _ => ?_
  refine transaction_keeps .refl fun t _ => Post.returns (createMember_spares ?_)
  exact organization_ne horg (targetOrgId_ne hrole org htarget)

theorem addEach_spares {organization : Organization} (org : organization.id ≠ tenant) {staffList : List AddStaffMemberDto} {i : Nat}
    {results : List StaffService.Result} {s : Db} :
    (addEach js io organization staffList i results).Post (fun _ t => Spares tenant s t) s := by
  induction staffList generalizing i results s with
  | nil => exact .refl s
  | cons dto staffList ih =>
    refine Post.bind_rel Spares.trans ?_ fun _ t _ => ih
    refine Post.bind_rel Spares.trans (query_spares.post .refl .trans s) fun found t _ => ?_
    split
    · exact .refl t
    · refine Post.bind_rel Spares.trans (query_spares.post .refl .trans t) fun department u _ => ?_
      cases department with
      | none => exact .refl u
      | some department => exact Post.bind_rel Spares.trans (createMember_spares org) fun _ v _ => Spares.refl v

theorem addStaffBulk_spares {staffList : List AddStaffMemberDto} (hrole : role ≠ "Root") (org : orgId ≠ some tenant) :
    (addStaffBulk js io orgId role staffList qOrgId).Keeps (Spares tenant) s := by
  refine orFail_bind_keeps fun target htarget => failIf_bind_keeps fun _ => query_bind_keeps .refl fun _ _ => ?_
  refine orFail_bind_keeps fun organization horg => Keeps.bind .refl .trans ?_ fun _ _ _ => trivial
  refine transaction_keeps .refl fun t _ => Post.returns (addEach_spares ?_)
  exact organization_ne horg (targetOrgId_ne hrole org htarget)

theorem editWorkingHours_spares {hours : Option WorkingHoursDto} (other : ¬Employs tenant s staffId) :
    (editWorkingHours io staffId hours).Post (fun _ t => Spares tenant s t) s := by
  have upsertEach_spares (dto : WorkingHoursDto) (days : List Weekday) (t : Db) (other : ¬Employs tenant t staffId) :
      (upsertEach io staffId dto days).Post (fun _ u => Spares tenant t u) t := by
    induction days generalizing t with
    | nil => exact .refl t
    | cons day days ih =>
      exact Post.bind_rel Spares.trans (upsertStaffHours_spares other) fun _ u hu => ih u (mt hu.employs_iff.mp other)
  cases hours with
  | none => exact .refl s
  | some dto =>
    refine Post.bind_rel Spares.trans (post_failIf.mpr ⟨fun _ => .refl s, fun _ => .refl s⟩) fun _ t ht => ?_
    refine Post.bind_rel Spares.trans (post_failIf.mpr ⟨fun _ => .refl t, fun _ => .refl t⟩) fun _ u hu => ?_
    exact upsertEach_spares dto _ u (mt (ht.trans hu).employs_iff.mp other)

/-- The superadmin who is demoted has an account of the same organisation, and so is its staff member. -/
theorem demoteSuperAdmin_spares {org : String} (horg : org ≠ tenant) (linked : Linked tenant s) :
    (demoteSuperAdmin io org staffId).Post (fun _ t => Spares tenant s t) s := by
  refine post_bind.mpr (post_query.mpr ⟨?_, .refl s⟩)
  rw [then_ok]
  split
  · exact .refl s
  · rename_i user staff hfound
    obtain ⟨user', huser', hstaff⟩ := Option.bind_eq_some_iff.mp (Option.filter_eq_some_iff.mp hfound).1
    obtain ⟨staff', hstaff', hpair⟩ := Option.map_eq_some_iff.mp hstaff
    obtain ⟨rfl, rfl⟩ := Prod.mk.inj hpair
    obtain ⟨hmem, hof⟩ := mem_filter.mp (RowOrder.mem_of_first huser')
    rw [Bool.and_eq_true, beq_iff_eq, beq_iff_eq] at hof
    have account : ¬Accounts tenant s user'.id :=
      not_has_of_mem hmem fun h => horg (Option.some.inj (hof.1.symm.trans h))
    obtain ⟨hmember, hlink⟩ := mem_of_findBy hstaff'
    have member : ¬Employs tenant s staff'.id :=
      not_has_of_mem hmember fun h => account (linked.staff staff' hmember h user'.id (beq_iff_eq.mp hlink))
    refine Post.bind_rel Spares.trans (updateMemberUser_spares account fun a => ?_) fun _ t ht =>
      updateStaff_spares (mt ht.employs_iff.mp member) fun a => ?_
    · exact ⟨.admin, a.email, a.accountStatus, Or.inr (by decide), rfl⟩
    · exact ⟨a.name, a.email, .admin, a.departmentId, a.designation, rfl⟩

theorem updateCredential_spares {organization : Organization} {staff : Staff} {dto : EditStaffMemberDto}
    (org : organization.id ≠ tenant) (other : ¬Employs tenant s staff.id)
    (account : ∀ id, staff.userId = some id → ¬Accounts tenant s id) :
    (updateCredential io organization staff dto).Post (fun _ t => Spares tenant s t) s := by
  unfold updateCredential
  split
  · rename_i id huser
    refine Post.bind_rel Spares.trans ?_ fun _ t _ => Spares.refl t
    exact updateMemberUser_spares (account id (truthy_eq_some.mp huser).1) fun _ => reassigned
  · refine Post.bind_rel Spares.trans (post_orFail.mpr ⟨fun _ => .refl s, fun _ _ => .refl s⟩) fun _ t ht => ?_
    refine Post.bind_rel Spares.trans (post_orFail.mpr ⟨fun _ => .refl t, fun _ _ => .refl t⟩) fun _ u hu => ?_
    refine Post.bind_rel Spares.trans (createMemberUser_spares ?_ (mt (ht.trans hu).employs_iff.mp other)) fun _ v _ => ?_
    · exact fun h => org (Option.some.inj h)
    · exact Post.bind_rel Spares.trans (outside_spares.post .refl .trans v) fun _ w _ => Spares.refl w

/-- The staff member is of the caller's organisation, and so is the account. -/
theorem editStaffMemberDetails_spares {dto : EditStaffMemberDto} (hrole : role ≠ "Root") (org : orgId ≠ some tenant)
    (linked : Linked tenant s) : (editStaffMemberDetails io orgId role staffId dto qOrgId).Keeps (Spares tenant) s := by
  refine failIf_bind_keeps fun _ => orFail_bind_keeps fun target htarget => query_bind_keeps .refl fun t ht => ?_
  refine orFail_bind_keeps fun organization horg => query_bind_keeps .refl fun u hu => orFail_bind_keeps fun staff hstaff => ?_
  refine failIf_bind_keeps fun hof => transaction_keeps .refl fun v hv => Post.returns ?_
  have htarget_ne := targetOrgId_ne hrole org htarget
  obtain ⟨hmem, rfl⟩ := find_eq_some.mp hstaff
  have hne : staff.orgId ≠ tenant := not_not.mp hof ▸ htarget_ne
  have linked_u := hu.linked (ht.linked linked)
  have member : ¬Employs tenant u staff.id := not_has_of_mem hmem hne
  refine Post.bind_rel Spares.trans (editWorkingHours_spares (mt hv.employs_iff.mp member)) fun _ w hw => ?_
  have hvw := hv.trans hw
  refine Post.bind_rel Spares.trans ?_ fun _ x hx => ?_
  · unfold makeRoom
    split
    · exact demoteSuperAdmin_spares htarget_ne (hvw.linked linked_u)
    · exact Spares.refl w
  have hvx := hvw.trans hx
  refine Post.bind_rel Spares.trans ?_ fun _ y hy => ?_
  · refine Post.bind_rel Spares.trans (post_failIf.mpr ⟨fun _ => .refl x, fun _ => .refl x⟩) fun _ y hy => ?_
    exact updateStaff_spares (mt (hvx.trans hy).employs_iff.mp member) fun _ => ⟨_, _, _, _, _, rfl⟩
  · have hvy := hvx.trans hy
    refine updateCredential_spares ?_ (mt hvy.employs_iff.mp member) fun id hid => ?_
    · exact organization_ne horg htarget_ne
    · exact mt hvy.accounts_iff.mp (linked_u.strangers staff hmem hne id hid)

theorem deleteStaffMember_spares (hrole : role ≠ "Root") (org : orgId ≠ some tenant) (linked : Linked tenant s) :
    (deleteStaffMember orgId role staffId qOrgId).Keeps (Spares tenant) s := by
  refine failIf_bind_keeps fun _ => orFail_bind_keeps fun target htarget => query_bind_keeps .refl fun t ht => ?_
  refine orFail_bind_keeps fun _ _ => query_bind_keeps .refl fun u hu => orFail_bind_keeps fun staff hstaff => ?_
  refine failIf_bind_keeps fun hof => ?_
  obtain ⟨hmem, rfl⟩ := find_eq_some.mp hstaff
  have hne : staff.orgId ≠ tenant := fun h => hof ⟨hrole, h ▸ (targetOrgId_ne hrole org htarget).symm⟩
  have linked_u := hu.linked (ht.linked linked)
  refine (reads_spares checkDeletion_within).keeps.bind .refl .trans fun _ v hv => Keeps.bind .refl .trans ?_ fun _ w hw => ?_
  · refine mutate_keeps .refl fun w hw _ x h => ?_
    split at h
    · cases h
    · cases h
      have hvw := hv.trans hw
      refine deleteStaff_spares (hvw.linked linked_u) fun id hid => beq_eq_false_iff_ne.mpr ?_
      rintro rfl
      exact not_has_of_mem hmem hne (hvw.employs_iff.mp hid)
  · refine Keeps.bind .refl .trans ?_ fun _ _ _ => trivial
    cases huser : truthy staff.userId with
    | none => trivial
    | some id =>
      refine mutate_keeps .refl fun x hx _ y h => ?_
      split at h
      · cases h
      · cases h
        have hvx := hv.trans (hw.trans hx)
        refine deleteUser_spares (hvx.linked linked_u) (mt hvx.accounts_iff.mp ?_)
        exact linked_u.strangers staff hmem hne id (truthy_eq_some.mp huser).1

end MemberOperations

section OrganizationOperations
open OrganizationService
variable {js : Js} {io : ChangeIo} {orgId userId role : String} {logo : Bool}

/-- Nobody but a root user, or a superadmin of the organisation, passes the checks. -/
theorem editOrganizationDetails_spares {dto : EditOrganizationDto} (hrole : role ≠ "Root") (account : ¬Accounts tenant s userId) :
    (editOrganizationDetails js io orgId role dto userId logo).Keeps (Spares tenant) s := by
  refine failIf_bind_keeps fun hallowed => failIf_bind_keeps fun _ => query_bind_keeps .refl fun t ht => ?_
  refine orFail_bind_keeps fun organization horg => ?_
  have hsuper : role = "SuperAdmin" := (List.mem_pair.mp (not_not.mp hallowed)).resolve_left hrole
  unfold editableLimit
  rw [if_pos hsuper, bind_assoc]
  refine query_bind_keeps .refl fun u hu => ?_
  rw [bind_assoc]
  refine orFail_bind_keeps fun user huser => ?_
  rw [bind_assoc]
  refine failIf_bind_keeps fun hof => ?_
  have hne : orgId ≠ tenant := fun h => by
    obtain ⟨hmem, hid⟩ := find_eq_some.mp huser
    have hown : organization.id = tenant := (find_eq_some.mp horg).2.trans h
    exact account ((ht.trans hu).accounts_iff.mp ⟨user, hmem, hid, (not_not.mp hof).trans (congrArg some hown)⟩)
  refine Within.keeps (editChecked_always .refl .trans (fun _ _ _ _ _ => ?_) ?_)
  · exact updateOrganization_spares hne fun _ => rfl
  · cases dto.workingHours with
    | none => trivial
    | some dto =>
      have upsertEach_spares (days : List Weekday) : (upsertEach io orgId dto days).Within (Spares tenant) := by
        induction days with
        | nil => trivial
        | cons day days ih => exact (upsertOrganizationHours_spares hne).bind fun _ => ih
      exact upsertEach_spares _

end OrganizationOperations

/-! ### Requests -/

/-- Somebody who is neither of the organisation nor a root user. -/
structure Foreign (tenant : String) (s : Db) (caller : Caller) : Prop where
  role : caller.role ≠ some "Root"
  org : caller.orgId ≠ some tenant
  account : ∀ id, caller.userId = some id → ¬Accounts tenant s id

section Requests
variable {server : Server} {caller : Caller}

theorem OpenEndpoint.handle_spares (endpoint : OpenEndpoint) : (endpoint.handle server).Within (Spares tenant) :=
  spares_of_within (OpenEndpoint.handle_within endpoint) fun k hk => by
    cases endpoint <;> revert k <;> simp [kinds, Kind.Apart]

theorem Endpoint.handle_spares (endpoint : Endpoint) (foreign : Foreign tenant s caller) (linked : Linked tenant s) :
    (endpoint.handle server caller).Keeps (Spares tenant) s := by
  have hrole : caller.role.getD "" ≠ "Root" := by
    cases h : caller.role with
    | none => simp
    | some role => exact fun h' => foreign.role (by rw [h, ← h']; rfl)
  have rest (h : ∀ k ∈ endpoint.kinds, k.Apart ∨ ¬endpoint.Admits caller k) : (endpoint.handle server caller).Keeps (Spares tenant) s :=
    (spares_of_within (Endpoint.handle_within endpoint) fun k hk => (h k hk.1).resolve_right (not_not_intro hk.2)).keeps
  -- the organisation a caller acts for is their own
  have own {h : String → Service Unit} (hh : ∀ orgId, orgId ≠ tenant → (h orgId).Keeps (Spares tenant) s) :
      (given caller.orgId >>= h).Keeps (Spares tenant) s :=
    orFail_bind_keeps fun orgId horg => hh orgId fun h => foreign.org (h ▸ horg)
  have user {h : String → Service Unit} (hh : ∀ userId, (h userId).Keeps (Spares tenant) s) :
      (given caller.userId >>= h).Keeps (Spares tenant) s := orFail_bind_keeps fun userId _ => hh userId
  have answered {α : Type} {p : Service α} (hp : p.Keeps (Spares tenant) s) : (answer p).Keeps (Spares tenant) s :=
    Keeps.bind .refl .trans hp fun _ _ _ => trivial
  cases endpoint
  case startVisit => exact own fun _ org => answered (startVisit_spares org).keeps
  case endVisit => exact own fun _ org => answered (endVisit_spares org)
  case checkoutQr =>
    refine answered ?_
    by_cases horg : caller.orgId.getD "" = tenant
    · cases h : caller.orgId with
      | none => exact failIf_bind_keeps fun hne => absurd rfl hne
      | some orgId => exact absurd (by rw [h, ← horg, h]; rfl) foreign.org
    · exact endVisitQr_spares horg
  case resendNotification => exact own fun _ org => answered (resendVisitNotification_spares org).keeps
  case acceptVisit => exact own fun _ org => user fun _ => answered (acceptVisit_spares org linked)
  case rejectVisit => exact own fun _ org => user fun _ => answered (rejectVisit_spares org linked)
  case deleteNotification => exact own fun _ org => user fun _ => answered (deleteNotification_spares org)
  case action =>
    exact own fun _ org => orFail_bind_keeps fun systemId _ => answered (action_spares org linked)
  case addStaffMember => exact answered (addStaffMember_spares hrole foreign.org)
  case addStaffBulk => exact failIf_bind_keeps fun _ => answered (addStaffBulk_spares hrole foreign.org)
  case updateStaffMember => exact answered (editStaffMemberDetails_spares hrole foreign.org linked)
  case deleteStaffMember => exact answered (deleteStaffMember_spares hrole foreign.org linked)
  case editOrganizationDetails =>
    exact orFail_bind_keeps fun userId huser => answered (editOrganizationDetails_spares hrole (foreign.account userId huser))
  all_goals exact rest (by simp [kinds, Kind.Apart, Admits, hrole])

end Requests

theorem Foreign.of_spares {caller : Caller} (h : Foreign tenant s caller) (ht : Spares tenant s t) : Foreign tenant t caller :=
  ⟨h.role, h.org, fun id hid => mt ht.accounts_iff.mp (h.account id hid)⟩

/-- The request is sent from the organisation, or by a root user. -/
def Request.From (server : Server) (tenant : String) (s : Db) : Request → Prop
  | anyone _ => False
  | authorized now authorization _ => ∃ caller, sender server.jwt now authorization = some caller ∧ ¬Foreign tenant s caller

/-- Whatever requests other organisations send, and in whatever order the accesses come and fail: the organisation, its visits,
    notifications, attendance, staff members, working hours and accounts are as they were. -/
theorem tenants_isolated {server : Server} {ι : Type} [DecidableEq ι] {requests : ι → Request} (linked : Linked tenant s)
    {d : Threads ι Db HttpException Unit} (others : ∀ i, ¬(requests i).From server tenant s)
    (h : (Threads.interleaving ⟨s, fun i => serve server (requests i)⟩).Reachable d) : Spares tenant s d.state := by
  refine kept_of_reach Spares.refl Spares.trans (fun _ endpoint _ => (endpoint.handle_spares).keeps)
    (fun i now authorization endpoint caller t hrequest hcaller ht => ?_) h
  have other := others i
  rw [hrequest] at other
  have foreign : Foreign tenant s caller := Classical.byContradiction fun hnot => other ⟨caller, hcaller, hnot⟩
  exact endpoint.handle_spares (foreign.of_spares ht) (ht.linked linked)

/-! ### Two organisations -/

namespace Neighbours

def bob : UserCredential := { id := "bob", orgId := some "shop", email := "bob@shop.com", role := .superAdmin }

def db : Db where
  organization := ({{ id := "office", name := "Office", email := "office@mail.com" }} : Table Organization).insertAll
    [{ id := "shop", name := "Shop", email := "shop@mail.com" }]
  userCredential := ({Office.ann} : Table UserCredential).insertAll [bob]
  staff := ({{ id := "1", orgId := "office", userId := some "ann", name := "Ann", email := "ann@mail.com", role := .admin }} :
    Table Staff).insertAll [{ id := "2", orgId := "shop", userId := some "bob", name := "Bob", email := "bob@shop.com", role := .superAdmin }]
  visit := {FrontDesk.visit}

def payload : JwtPayload := { orgId := some "shop", userId := some "bob", role := some "SuperAdmin" }

/-- The superadmin of the shop rejects a visitor of the office, and deletes its only staff member. -/
def requests : Bool → Request
  | false => .authorized 0 (Office.bearer payload) (.rejectVisit "visit" { reason := "Come to us" })
  | true => .authorized 0 (Office.bearer payload) (.deleteStaffMember "1" (some "office"))

def after : Threads Bool Db HttpException Unit :=
  Threads.schedule ⟨db, fun i => serve Office.server (requests i)⟩ [false, true, true, false, true, true, false, false, true]

theorem reachable_after : (Threads.interleaving ⟨db, fun i => serve Office.server (requests i)⟩).Reachable after :=
  Threads.reachable_schedule (.init rfl) _

theorem linked : Linked "office" db where
  visit := by
    unfold Employs Has
    decide
  notification _ hn := absurd hn not_mem_empty
  attendanceSession _ hx := absurd hx not_mem_empty
  attendanceEvent _ he := absurd he not_mem_empty
  staff staff hstaff horg id hid := by
    have hann : ∀ staff ∈ db.staff, staff.orgId = "office" → staff.userId = some "ann" := by decide
    obtain rfl : "ann" = id := Option.some.inj ((hann staff hstaff horg).symm.trans hid)
    unfold Accounts Has
    decide
  strangers staff hstaff horg id hid := by
    have hbob : ∀ staff ∈ db.staff, staff.orgId ≠ "office" → staff.userId = some "bob" := by decide
    obtain rfl : "bob" = id := Option.some.inj ((hbob staff hstaff horg).symm.trans hid)
    unfold Accounts Has
    decide

theorem foreign : Foreign "office" db (callerOf payload) where
  role := by decide
  org := by decide
  account id hid := by
    obtain rfl : "bob" = id := Option.some.inj hid
    unfold Accounts Has
    decide

end Neighbours

theorem tenants_isolated_neighbours : Spares "office" Neighbours.db Neighbours.after.state := by
  refine tenants_isolated Neighbours.linked (fun i hfrom => ?_) Neighbours.reachable_after
  cases i <;>
  · obtain ⟨caller, hcaller, hnot⟩ := hfrom
    rw [sender_sign hcaller] at hnot
    exact hnot Neighbours.foreign

end Vms.Server
