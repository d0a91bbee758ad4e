import Vms.Theorems.Server.Authority

/-! The foreign keys hold in every state: whatever requests run at the same time, no row refers to one that is
    not there. -/

namespace Vms
open Relational Table

namespace Db.WellFormed
variable {s : Db} (wf : s.WellFormed)
include wf

/-! ### One table -/

theorem withOrganization {u : Table Organization} (ids : Stays s.organization u) : { s with organization := u }.WellFormed :=
  { wf with
    visit_org := wf.visit_org.stays ids
    staff_org := wf.staff_org.stays ids
    workingHours_org := wf.workingHours_org.stays ids
    attendanceSession_org := wf.attendanceSession_org.stays ids
    attendanceEvent_org := wf.attendanceEvent_org.stays ids
    userCredential_org := wf.userCredential_org.stays ids
    systemCredential_org := wf.systemCredential_org.stays ids
    department_org := wf.department_org.stays ids
    reasonOfVisit_org := wf.reasonOfVisit_org.stays ids
    team_org := wf.team_org.stays ids
    subscription_org := wf.subscription_org.stays ids
    notification_org := wf.notification_org.stays ids }

theorem withVisit {u : Table Visit} (ids : Stays s.visit u) (org : u.References (some ·.orgId) s.organization)
    (reason : u.References (·.reasonId) s.reasonOfVisit) (staff : u.References (some ·.staffId) s.staff) :
    { s with visit := u }.WellFormed :=
  { wf with
    visit_org := org
    visit_reason := reason
    visit_staff := staff
    notification_visit := wf.notification_visit.stays ids }

theorem withSession {u : Table AttendanceSession} (ids : Stays s.attendanceSession u)
    (org : u.References (some ·.orgId) s.organization) (staff : u.References (some ·.staffId) s.staff) :
    { s with attendanceSession := u }.WellFormed :=
  { wf with
    attendanceSession_org := org
    attendanceSession_staff := staff
    attendanceEvent_session := wf.attendanceEvent_session.stays ids }

theorem withUser {u : Table UserCredential} (ids : Stays s.userCredential u) (org : u.References (·.orgId) s.organization) :
    { s with userCredential := u }.WellFormed :=
  { wf with
    userCredential_org := org
    staff_user := wf.staff_user.stays ids
    refreshToken_user := wf.refreshToken_user.stays ids
    resetToken_user := wf.resetToken_user.stays ids }

theorem withSystem {u : Table SystemCredential} (ids : Stays s.systemCredential u)
    (org : u.References (some ·.orgId) s.organization) : { s with systemCredential := u }.WellFormed :=
  { wf with
    systemCredential_org := org
    refreshToken_system := wf.refreshToken_system.stays ids
    resetTokenSystem_system := wf.resetTokenSystem_system.stays ids }

theorem withStaff {u : Table Staff} (ids : Stays s.staff u) (org : u.References (some ·.orgId) s.organization)
    (user : u.References (·.userId) s.userCredential) (department : u.References (·.departmentId) s.department) :
    { s with staff := u }.WellFormed :=
  { wf with
    staff_org := org
    staff_user := user
    staff_department := department
    visit_staff := wf.visit_staff.stays ids
    workingHours_staff := wf.workingHours_staff.stays ids
    attendanceSession_staff := wf.attendanceSession_staff.stays ids
    attendanceEvent_staff := wf.attendanceEvent_staff.stays ids
    team_masterManager := wf.team_masterManager.stays ids
    teamMember_staff := wf.teamMember_staff.stays ids
    teamReporting_staff := wf.teamReporting_staff.stays ids
    teamReporting_manager := wf.teamReporting_manager.stays ids
    notification_staff := wf.notification_staff.stays ids }

theorem withTeam {u : Table Team} (ids : Stays s.team u) (org : u.References (some ·.orgId) s.organization)
    (manager : u.References (some ·.masterManagerId) s.staff) : { s with team := u }.WellFormed :=
  { wf with
    team_org := org
    team_masterManager := manager
    teamMember_team := wf.teamMember_team.stays ids
    teamReporting_team := wf.teamReporting_team.stays ids }

theorem withPlan {u : Table Plan} (ids : Stays s.plan u) : { s with plan := u }.WellFormed :=
  { wf with
    planFeature_plan := wf.planFeature_plan.stays ids
    subscription_plan := wf.subscription_plan.stays ids }

/-! Rows that change and keep the columns that others refer to. -/

theorem evolveVisits {u : Table Visit} {R : Visit → Visit → Prop} (visits : s.visit.Evolves R u)
    (keys : ∀ v w, R v w → w.id = v.id ∧ w.orgId = v.orgId ∧ w.staffId = v.staffId)
    (reason : u.References (·.reasonId) s.reasonOfVisit) : { s with visit := u }.WellFormed := by
  have org := wf.visit_org.evolves visits fun v w h => congrArg some (keys v w h).2.1
  have staff := wf.visit_staff.evolves visits fun v w h => congrArg some (keys v w h).2.2
  exact wf.withVisit (visits.stays fun v w h => (keys v w h).1) org reason staff

theorem evolveUsers {u : Table UserCredential} {R : UserCredential → UserCredential → Prop} (users : s.userCredential.Evolves R u)
    (keys : ∀ a b, R a b → b.id = a.id ∧ b.orgId = a.orgId) : { s with userCredential := u }.WellFormed :=
  wf.withUser (users.stays fun a b h => (keys a b h).1) (wf.userCredential_org.evolves users fun a b h => (keys a b h).2)

theorem evolveStaff {u : Table Staff} {R : Staff → Staff → Prop} (staff : s.staff.Evolves R u)
    (keys : ∀ a b, R a b → b.id = a.id ∧ b.orgId = a.orgId ∧ b.userId = a.userId)
    (department : u.References (·.departmentId) s.department) : { s with staff := u }.WellFormed := by
  have org := wf.staff_org.evolves staff fun a b h => congrArg some (keys a b h).2.1
  have user := wf.staff_user.evolves staff fun a b h => (keys a b h).2.2
  exact wf.withStaff (staff.stays fun a b h => (keys a b h).1) org user department

/-! Rows that refer to others. -/

theorem withHours {u : Table WorkingHours}
    (owners : ∀ b ∈ u, (∃ a ∈ s.workingHours, a.orgId = b.orgId ∧ a.staffId = b.staffId) ∨
      (∀ id, b.orgId = some id → (s.organization.find id).isSome) ∧ ∀ id, b.staffId = some id → (s.staff.find id).isSome) :
    { s with workingHours := u }.WellFormed :=
  { wf with
    workingHours_org := wf.workingHours_org.extend fun b hb id hid =>
      (owners b hb).imp (fun ⟨a, ha, hab⟩ => ⟨a, ha, hab.1.trans hid⟩) fun found => found.1 id hid
    workingHours_staff := wf.workingHours_staff.extend fun b hb id hid =>
      (owners b hb).imp (fun ⟨a, ha, hab⟩ => ⟨a, ha, hab.2.trans hid⟩) fun found => found.2 id hid }

/-- A new account, and the staff member whose account it is. -/
theorem connectUser {user : UserCredential} {users : Table UserCredential} {staffId : String} {staff : Table Staff}
    (org : ∀ id, user.orgId = some id → (s.organization.find id).isSome) (stored : s.userCredential.insert user = some users)
    (connected : s.staff.modify (·.id == staffId) (fun staff => { staff with userId := some user.id }) = some staff) :
    { s with userCredential := users, staff }.WellFormed := by
  have wf' := wf.withUser (stays_insert stored) (wf.userCredential_org.insert stored org)
  have rows : s.staff.Evolves (fun a b => b = a ∨ b = { a with userId := some user.id }) staff :=
    .modify connected (fun _ => Or.inl rfl) fun _ _ _ => Or.inr rfl
  have keys {a b : Staff} (h : b = a ∨ b = { a with userId := some user.id }) :
      b.id = a.id ∧ b.orgId = a.orgId ∧ b.departmentId = a.departmentId := by
    rcases h with rfl | rfl <;> exact ⟨rfl, rfl, rfl⟩
  refine wf'.withStaff (rows.stays fun _ _ h => (keys h).1) (wf.staff_org.evolves rows fun _ _ h => congrArg some (keys h).2.1)
    (wf'.staff_user.extend fun b hb id hid => ?_) (wf.staff_department.evolves rows fun _ _ h => (keys h).2.2)
  obtain ⟨a, ha, rfl | rfl⟩ := rows.only b hb
  · exact Or.inl ⟨b, ha, hid⟩
  · obtain rfl : user.id = id := Option.some.inj hid
    exact Or.inr (isSome_find ((mem_insert stored).mpr (Or.inr rfl)) rfl)

/-! ### Cascades -/

theorem deleteDepartment {id : String} {u : Table Staff} (staff : s.staff.Evolves (Server.WithoutDepartment id) u) :
    { s with department := s.department.delete (Row.id · == id), staff := u }.WellFormed := by
  have department := wf.staff_department.cleared (staff.mono fun a b h => h.imp_left fun h => by rw [h])
  have wf' := wf.evolveStaff staff (fun a b h => by rcases h with rfl | ⟨rfl, -⟩ <;> exact ⟨rfl, rfl, rfl⟩)
    (department.stays fun d hd => ⟨d, shrinks_delete d hd, rfl⟩)
  exact { wf' with
    department_org := wf'.department_org.shrinks shrinks_delete
    staff_department := department }

theorem deleteReason {id : String} {u : Table Visit} (visits : s.visit.Evolves (Server.WithoutReason id) u) :
    { s with reasonOfVisit := s.reasonOfVisit.delete (Row.id · == id), visit := u }.WellFormed := by
  have reason := wf.visit_reason.cleared (visits.mono fun v w h => h.imp_left fun h => by rw [h])
  have wf' := wf.evolveVisits visits (fun v w h => by rcases h with rfl | ⟨rfl, -⟩ <;> exact ⟨rfl, rfl, rfl⟩)
    (reason.stays fun r hr => ⟨r, shrinks_delete r hr, rfl⟩)
  exact { wf' with
    reasonOfVisit_org := wf'.reasonOfVisit_org.shrinks shrinks_delete
    visit_reason := reason }

theorem deleteSystem (id : String) : { s with
    systemCredential := s.systemCredential.delete (·.id == id)
    refreshToken := s.refreshToken.delete (·.systemId == some id)
    resetTokenSystem := s.resetTokenSystem.delete (·.systemId == id) }.WellFormed :=
  { wf with
    systemCredential_org := wf.systemCredential_org.shrinks shrinks_delete
    refreshToken_user := wf.refreshToken_user.shrinks shrinks_delete
    refreshToken_system := wf.refreshToken_system.cascade
    resetTokenSystem_system := wf.resetTokenSystem_system.delete_id (p := (· == id)) shrinks_delete fun _ ha => (mem_delete.mp ha).2 }

theorem deleteMember (id : String) : { s with
    teamMember := s.teamMember.delete (·.id == id)
    teamReporting := s.teamReporting.delete (·.teamMemberId == some id) }.WellFormed :=
  { wf with
    teamMember_team := wf.teamMember_team.shrinks shrinks_delete
    teamMember_staff := wf.teamMember_staff.shrinks shrinks_delete
    teamReporting_team := wf.teamReporting_team.shrinks shrinks_delete
    teamReporting_staff := wf.teamReporting_staff.shrinks shrinks_delete
    teamReporting_manager := wf.teamReporting_manager.shrinks shrinks_delete
    teamReporting_teamMember := wf.teamReporting_teamMember.cascade }

theorem deleteTeam (id : String) : { s with
    team := s.team.delete (·.id == id)
    teamMember := s.teamMember.delete (·.teamId == id)
    teamReporting := s.teamReporting.delete (TeamService.reportsUnder s id) }.WellFormed :=
  { wf with
    team_org := wf.team_org.shrinks shrinks_delete
    team_masterManager := wf.team_masterManager.shrinks shrinks_delete
    teamMember_team := wf.teamMember_team.delete_id (p := (· == id)) shrinks_delete fun a ha => (mem_delete.mp ha).2
    teamMember_staff := wf.teamMember_staff.shrinks shrinks_delete
    teamReporting_team := wf.teamReporting_team.delete_id (p := (· == id)) shrinks_delete fun a ha =>
      (Bool.or_eq_false_iff.mp (mem_delete.mp ha).2).1
    teamReporting_staff := wf.teamReporting_staff.shrinks shrinks_delete
    teamReporting_manager := wf.teamReporting_manager.shrinks shrinks_delete
    teamReporting_teamMember := wf.teamReporting_teamMember.delete shrinks_delete fun a ha b hb hid => by
      have stays := (Bool.or_eq_false_iff.mp (mem_delete.mp ha).2).2
      rwa [hid, Option.any_some, find_of_mem hb, Option.any_some] at stays }

theorem deleteStaff (gone : String → Bool) : (s.deleteStaff gone).WellFormed :=
  { wf with
    visit_org := wf.visit_org.shrinks shrinks_delete
    visit_reason := wf.visit_reason.shrinks shrinks_delete
    visit_staff := wf.visit_staff.delete_id shrinks_delete fun a ha => (mem_delete.mp ha).2
    staff_org := wf.staff_org.shrinks shrinks_delete
    staff_user := wf.staff_user.shrinks shrinks_delete
    staff_department := wf.staff_department.shrinks shrinks_delete
    workingHours_org := wf.workingHours_org.shrinks shrinks_delete
    workingHours_staff := wf.workingHours_staff.delete shrinks_delete fun a ha b _ hid => by
      have stays := (mem_delete.mp ha).2
      rwa [hid] at stays
    attendanceSession_org := wf.attendanceSession_org.shrinks shrinks_delete
    attendanceSession_staff := wf.attendanceSession_staff.delete_id shrinks_delete fun a ha => (mem_delete.mp ha).2
    attendanceEvent_org := (wf.attendanceEvent_org.shrinks shrinks_delete).update rfl fun _ => rfl
    attendanceEvent_staff := References.update (wf.attendanceEvent_staff.delete_id shrinks_delete fun a ha => (mem_delete.mp ha).2)
      rfl fun _ => rfl
    attendanceEvent_session := (wf.attendanceEvent_session.shrinks shrinks_delete).set_null rfl (fun _ => rfl) fun a _ ha b hb hid => by
      rwa [hid, Option.bind_some, find_of_mem hb] at ha
    team_org := wf.team_org.shrinks shrinks_delete
    team_masterManager := wf.team_masterManager.delete_id shrinks_delete fun a ha => (mem_delete.mp ha).2
    teamMember_team := wf.teamMember_team.delete_find shrinks_delete fun a ha => (Bool.or_eq_false_iff.mp (mem_delete.mp ha).2).2
    teamMember_staff := wf.teamMember_staff.delete_id shrinks_delete fun a ha => (Bool.or_eq_false_iff.mp (mem_delete.mp ha).2).1
    teamReporting_team := wf.teamReporting_team.delete_find shrinks_delete fun a ha => by
      have stays := (mem_delete.mp ha).2
      simp only [Bool.or_eq_false_iff] at stays
      exact stays.1.2
    teamReporting_staff := wf.teamReporting_staff.delete_id shrinks_delete fun a ha => by
      have stays := (mem_delete.mp ha).2
      simp only [Bool.or_eq_false_iff] at stays
      exact stays.1.1.1
    teamReporting_manager := wf.teamReporting_manager.delete_id shrinks_delete fun a ha => by
      have stays := (mem_delete.mp ha).2
      simp only [Bool.or_eq_false_iff] at stays
      exact stays.1.1.2
    teamReporting_teamMember := wf.teamReporting_teamMember.delete shrinks_delete fun a ha b hb hid => by
      have stays := (Bool.or_eq_false_iff.mp (mem_delete.mp ha).2).2
      rwa [hid, Option.bind_some, find_of_mem hb] at stays
    notification_org := wf.notification_org.shrinks shrinks_delete
    notification_staff := wf.notification_staff.delete_id shrinks_delete fun a ha => (Bool.or_eq_false_iff.mp (mem_delete.mp ha).2).1
    notification_visit := wf.notification_visit.delete_find shrinks_delete fun a ha =>
      (Bool.or_eq_false_iff.mp (mem_delete.mp ha).2).2 }

theorem deleteUser (id : String) : (s.deleteUser id).WellFormed := by
  have wf' := wf.deleteStaff fun staffId => (s.staff.find staffId).any fun staff => staff.userId == some id
  exact { wf' with
    staff_user := wf'.staff_user.delete (fun _ h => h) fun a ha b _ hid => by
      have stays := (mem_delete_find.mp ha).2
      rw [hid] at stays
      exact stays
    refreshToken_user := wf.refreshToken_user.cascade
    refreshToken_system := wf.refreshToken_system.shrinks shrinks_delete
    userCredential_org := wf.userCredential_org.shrinks shrinks_delete
    resetToken_user := wf.resetToken_user.delete_id (p := (· == id)) shrinks_delete fun a ha => (mem_delete.mp ha).2 }

/-- Every table that has a column for the organisation loses its rows of it, and those that refer to a lost row. -/
theorem deleteOrganization (orgId : String) : (s.deleteOrganization orgId).WellFormed := by
  let userGone (id : String) : Bool := (s.userCredential.find id).any (·.orgId == some orgId)
  let systemGone (id : String) : Bool := (s.systemCredential.find id).any (·.orgId == orgId)
  let staffGone (id : String) : Bool := (s.staff.find id).any fun staff => staff.orgId == orgId || staff.userId.any userGone
  let teamGone (id : String) : Bool := (s.team.find id).any fun team => team.orgId == orgId || staffGone team.masterManagerId
  have toStaff {α : Type} [Row α] {t t' : Table α} {column : α → Option String} (h : t.References column s.staff)
      (rows : Shrinks t t') (away : ∀ a ∈ t', (column a).any staffGone = false) :
      t'.References column (s.deleteOrganization orgId).staff := by
    refine (h.delete (p := (staffGone ·.id)) rows fun a ha b _ hid => ?_).stays fun b hb => exists_mem_update withoutDepartment_keys hb
    have stays := away a ha
    rwa [hid, Option.any_some] at stays
  exact {
    visit_org := References.update (wf.visit_org.delete_id (p := (· == orgId)) shrinks_delete fun a ha =>
      (Bool.or_eq_false_iff.mp (mem_delete_find.mp ha).2).1) rfl fun _ => rfl
    visit_reason := (wf.visit_reason.shrinks shrinks_delete).set_null rfl (fun _ => rfl) fun a _ ha b _ hid => by
      rwa [hid, Option.any_some] at ha
    visit_staff := References.update (toStaff wf.visit_staff shrinks_delete fun a ha =>
      (Bool.or_eq_false_iff.mp (mem_delete_find.mp ha).2).2) rfl fun _ => rfl
    staff_org := References.update (wf.staff_org.delete_id (p := (· == orgId)) shrinks_delete fun a ha =>
      (Bool.or_eq_false_iff.mp (mem_delete_find.mp ha).2).1) rfl fun _ => rfl
    staff_user := References.update (wf.staff_user.delete shrinks_delete fun a ha b _ hid => by
      have stays := (Bool.or_eq_false_iff.mp (mem_delete_find.mp ha).2).2
      rwa [hid, Option.any_some] at stays) rfl fun _ => rfl
    staff_department := (wf.staff_department.shrinks shrinks_delete).set_null rfl (fun _ => rfl) fun a _ ha b _ hid => by
      rwa [hid, Option.any_some] at ha
    workingHours_org := wf.workingHours_org.delete shrinks_delete fun a ha b _ hid => by
      have stays := (Bool.or_eq_false_iff.mp (mem_delete.mp ha).2).1
      rw [hid] at stays
      exact stays
    workingHours_staff := toStaff wf.workingHours_staff shrinks_delete fun a ha => (Bool.or_eq_false_iff.mp (mem_delete.mp ha).2).2
    attendanceSession_org := wf.attendanceSession_org.delete_id (p := (· == orgId)) shrinks_delete fun a ha =>
      (Bool.or_eq_false_iff.mp (mem_delete_find.mp ha).2).1
    attendanceSession_staff := toStaff wf.attendanceSession_staff shrinks_delete fun a ha =>
      (Bool.or_eq_false_iff.mp (mem_delete_find.mp ha).2).2
    attendanceEvent_org := References.update (wf.attendanceEvent_org.delete_id (p := (· == orgId)) shrinks_delete fun a ha =>
      (Bool.or_eq_false_iff.mp (mem_delete.mp ha).2).1) rfl fun _ => rfl
    attendanceEvent_staff := References.update (toStaff wf.attendanceEvent_staff shrinks_delete fun a ha =>
      (Bool.or_eq_false_iff.mp (mem_delete.mp ha).2).2) rfl fun _ => rfl
    attendanceEvent_session := (wf.attendanceEvent_session.shrinks shrinks_delete).set_null rfl (fun _ => rfl) fun a _ ha b _ hid => by
      rwa [hid, Option.any_some] at ha
    refreshToken_user := wf.refreshToken_user.delete shrinks_delete fun a ha b _ hid => by
      have stays := (Bool.or_eq_false_iff.mp (mem_delete.mp ha).2).1
      rwa [hid, Option.any_some] at stays
    refreshToken_system := wf.refreshToken_system.delete shrinks_delete fun a ha b _ hid => by
      have stays := (Bool.or_eq_false_iff.mp (mem_delete.mp ha).2).2
      rwa [hid, Option.any_some] at stays
    userCredential_org := wf.userCredential_org.delete shrinks_delete fun a ha b _ hid => by
      have stays := (mem_delete_find.mp ha).2
      rw [hid] at stays
      exact stays
    systemCredential_org := wf.systemCredential_org.delete_id (p := (· == orgId)) shrinks_delete fun a ha => (mem_delete_find.mp ha).2
    department_org := wf.department_org.delete_id (p := (· == orgId)) shrinks_delete fun a ha => (mem_delete_find.mp ha).2
    reasonOfVisit_org := wf.reasonOfVisit_org.delete_id (p := (· == orgId)) shrinks_delete fun a ha => (mem_delete_find.mp ha).2
    resetToken_user := wf.resetToken_user.delete_id (p := userGone) shrinks_delete fun a ha => (mem_delete.mp ha).2
    resetTokenSystem_system := wf.resetTokenSystem_system.delete_id (p := systemGone) shrinks_delete fun a ha => (mem_delete.mp ha).2
    team_org := wf.team_org.delete_id (p := (· == orgId)) shrinks_delete fun a ha =>
      (Bool.or_eq_false_iff.mp (mem_delete_find.mp ha).2).1
    team_masterManager := toStaff wf.team_masterManager shrinks_delete fun a ha =>
      (Bool.or_eq_false_iff.mp (mem_delete_find.mp ha).2).2
    teamMember_team := wf.teamMember_team.delete_id (p := teamGone) shrinks_delete fun a ha =>
      (Bool.or_eq_false_iff.mp (mem_delete_find.mp ha).2).1
    teamMember_staff := toStaff wf.teamMember_staff shrinks_delete fun a ha => (Bool.or_eq_false_iff.mp (mem_delete_find.mp ha).2).2
    teamReporting_team := wf.teamReporting_team.delete_id (p := teamGone) shrinks_delete fun a ha => by
      have stays := (mem_delete.mp ha).2
      simp only [Bool.or_eq_false_iff] at stays
      exact stays.1.1.1
    teamReporting_staff := toStaff wf.teamReporting_staff shrinks_delete fun a ha => by
      have stays := (mem_delete.mp ha).2
      simp only [Bool.or_eq_false_iff] at stays
      exact stays.1.1.2
    teamReporting_manager := toStaff wf.teamReporting_manager shrinks_delete fun a ha => by
      have stays := (mem_delete.mp ha).2
      simp only [Bool.or_eq_false_iff] at stays
      exact stays.1.2
    teamReporting_teamMember := wf.teamReporting_teamMember.delete shrinks_delete fun a ha b _ hid => by
      have stays := (Bool.or_eq_false_iff.mp (mem_delete.mp ha).2).2
      rwa [hid, Option.any_some] at stays
    planFeature_plan := wf.planFeature_plan
    subscription_org := wf.subscription_org.delete_id (p := (· == orgId)) shrinks_delete fun a ha => (mem_delete.mp ha).2
    subscription_plan := wf.subscription_plan.shrinks shrinks_delete
    notification_org := wf.notification_org.delete_id (p := (· == orgId)) shrinks_delete fun a ha =>
      (Bool.or_eq_false_iff.mp (Bool.or_eq_false_iff.mp (mem_delete.mp ha).2).1).1
    notification_staff := toStaff wf.notification_staff shrinks_delete fun a ha =>
      (Bool.or_eq_false_iff.mp (Bool.or_eq_false_iff.mp (mem_delete.mp ha).2).1).2
    notification_visit := References.stays (wf.notification_visit.delete shrinks_delete fun a ha b _ hid => by
      have stays := (Bool.or_eq_false_iff.mp (mem_delete.mp ha).2).2
      rwa [Option.some.inj hid] at stays) fun b hb => exists_mem_update withoutReason_keys hb }

end Db.WellFormed

namespace Server
open Threads

/-- A column that is never null and names a row that is there. -/
theorem found_some {α : Type} [Row α] {t : Table α} {value : String} (h : (t.find value).isSome) :
    ∀ id, some value = some id → (t.find id).isSome := fun _ hid => Option.some.inj hid ▸ h

/-- Every change keeps the foreign keys. -/
theorem Change.wellFormed {s t : Db} {k : Kind} (h : Change s k t) (wf : s.WellFormed) : t.WellFormed := by
  cases h with
  | addVisit _ org staff reason stored =>
    exact wf.withVisit (stays_insert stored) (wf.visit_org.insert stored (found_some org)) (wf.visit_reason.insert stored reason)
      (wf.visit_staff.insert stored (found_some staff))
  | endVisit visits =>
    refine wf.evolveVisits visits (fun v w h => ?_) (wf.visit_reason.evolves visits fun v w h => ?_)
    · rcases h with rfl | ⟨_, rfl⟩ <;> exact ⟨rfl, rfl, rfl⟩
    · rcases h with rfl | ⟨_, rfl⟩ <;> rfl
  | decideVisit visits =>
    refine wf.evolveVisits visits (fun v w h => ?_) (wf.visit_reason.evolves visits fun v w h => ?_)
    · rcases h with rfl | ⟨-, ⟨_, _, rfl⟩ | ⟨_, rfl⟩⟩ <;> exact ⟨rfl, rfl, rfl⟩
    · rcases h with rfl | ⟨-, ⟨_, _, rfl⟩ | ⟨_, rfl⟩⟩ <;> rfl
  | notify _ org staff visit stored =>
    exact { wf with
      notification_org := wf.notification_org.insert stored (found_some org)
      notification_staff := wf.notification_staff.insert stored (found_some staff)
      notification_visit := wf.notification_visit.insert stored (found_some visit) }
  | answerNotifications notifications =>
    have keys {n m : Notification} (h : Answered n m) : m.orgId = n.orgId ∧ m.staffId = n.staffId ∧ m.visitId = n.visitId := by
      rcases h with rfl | ⟨_, rfl⟩ <;> exact ⟨rfl, rfl, rfl⟩
    exact { wf with
      notification_org := wf.notification_org.evolves notifications fun _ _ h => congrArg some (keys h).1
      notification_staff := wf.notification_staff.evolves notifications fun _ _ h => congrArg some (keys h).2.1
      notification_visit := wf.notification_visit.evolves notifications fun _ _ h => congrArg some (keys h).2.2 }
  | dropNotification rows =>
    exact { wf with
      notification_org := wf.notification_org.shrinks rows
      notification_staff := wf.notification_staff.shrinks rows
      notification_visit := wf.notification_visit.shrinks rows }
  | openSession _ org staff stored =>
    exact wf.withSession (stays_insert stored) (wf.attendanceSession_org.insert stored (found_some org))
      (wf.attendanceSession_staff.insert stored (found_some staff))
  | closeSession sessions =>
    exact wf.withSession (sessions.stays fun _ _ h => h.1)
      (wf.attendanceSession_org.evolves sessions fun _ _ h => congrArg some h.2.1)
      (wf.attendanceSession_staff.evolves sessions fun _ _ h => congrArg some h.2.2.1)
  | recordEvent org staff session stored =>
    exact { wf with
      attendanceEvent_org := wf.attendanceEvent_org.insert stored (found_some org)
      attendanceEvent_staff := wf.attendanceEvent_staff.insert stored (found_some staff)
      attendanceEvent_session := wf.attendanceEvent_session.insert stored session }
  | addRoot role stored =>
    exact wf.withUser (stays_insert stored) (wf.userCredential_org.insert stored fun id hid => by rw [role.2] at hid; cases hid)
  | setPassword users =>
    refine wf.evolveUsers users fun a b h => ?_
    obtain ⟨_, rfl⟩ := h
    exact ⟨rfl, rfl⟩
  | setReady users =>
    refine wf.evolveUsers users fun a b h => ?_
    rcases h with rfl | rfl <;> exact ⟨rfl, rfl⟩
  | setResetCode users => exact { wf with resetToken_user := wf.resetToken_user.extend_some users }
  | dropResetCode rows => exact { wf with resetToken_user := wf.resetToken_user.shrinks rows }
  | addToken user system owner stored =>
    exact { wf with
      refreshToken_user := wf.refreshToken_user.insert stored user
      refreshToken_system := wf.refreshToken_system.insert stored system }
  | rotateToken tokens =>
    exact { wf with
      refreshToken_user := wf.refreshToken_user.evolves tokens fun _ _ h => h.1
      refreshToken_system := wf.refreshToken_system.evolves tokens fun _ _ h => h.2 }
  | dropTokens rows =>
    exact { wf with
      refreshToken_user := wf.refreshToken_user.shrinks rows
      refreshToken_system := wf.refreshToken_system.shrinks rows }
  | addSystem org stored => exact wf.withSystem (stays_insert stored) (wf.systemCredential_org.insert stored (found_some org))
  | updateSystem systems =>
    have keys {a b : SystemCredential} (h : SystemUpdated a b) : b.id = a.id ∧ b.orgId = a.orgId := by
      obtain ⟨_, _, _, _, rfl⟩ := h
      exact ⟨rfl, rfl⟩
    exact wf.withSystem (systems.stays fun _ _ h => (keys h).1)
      (wf.systemCredential_org.evolves systems fun _ _ h => congrArg some (keys h).2)
  | dropSystem => exact wf.deleteSystem _
  | setSystemResetCode systems => exact { wf with resetTokenSystem_system := wf.resetTokenSystem_system.extend_some systems }
  | dropSystemResetCode rows => exact { wf with resetTokenSystem_system := wf.resetTokenSystem_system.shrinks rows }
  | addDepartment org stored =>
    exact { wf with
      department_org := wf.department_org.insert stored (found_some org)
      staff_department := wf.staff_department.stays (stays_insert stored) }
  | dropDepartment staff => exact wf.deleteDepartment staff
  | addReason org stored =>
    exact { wf with
      reasonOfVisit_org := wf.reasonOfVisit_org.insert stored (found_some org)
      visit_reason := wf.visit_reason.stays (stays_insert stored) }
  | dropReason visits => exact wf.deleteReason visits
  | addStaff user org department stored =>
    exact wf.withStaff (stays_insert stored) (wf.staff_org.insert stored (found_some org))
      (wf.staff_user.insert stored fun id hid => by rw [user] at hid; cases hid) (wf.staff_department.insert stored department)
  | updateStaff rows departments =>
    refine wf.evolveStaff rows (fun a b h => ?_) (wf.staff_department.extend departments)
    obtain ⟨_, _, _, _, _, rfl⟩ := h
    exact ⟨rfl, rfl, rfl⟩
  | addUser role org stored connected => exact wf.connectUser org stored connected
  | updateUser users =>
    refine wf.evolveUsers users fun a b h => ?_
    obtain ⟨_, _, _, -, rfl⟩ := h
    exact ⟨rfl, rfl⟩
  | setStaffHours owners =>
    refine wf.withHours fun b hb => ?_
    rcases owners b hb with ⟨a, ha, _, _, _, rfl⟩ | ⟨hnone, staff, hof, hfound⟩
    · exact Or.inl ⟨a, ha, rfl, rfl⟩
    · exact Or.inr ⟨by simp [hnone], by simp [hof, hfound]⟩
  | setOrganizationHours owners =>
    refine wf.withHours fun b hb => ?_
    rcases owners b hb with ⟨a, ha, _, _, _, rfl⟩ | ⟨hnone, org, hof, hfound⟩
    · exact Or.inl ⟨a, ha, rfl, rfl⟩
    · exact Or.inr ⟨by simp [hof, hfound], by simp [hnone]⟩
  | dropStaff => exact wf.deleteStaff _
  | dropUser => exact wf.deleteUser _
  | addTeam org manager stored =>
    exact wf.withTeam (stays_insert stored) (wf.team_org.insert stored (found_some org))
      (wf.team_masterManager.insert stored (found_some manager))
  | updateTeam teams managers =>
    have keys {a b : Team} (h : TeamUpdated a b) : b.id = a.id ∧ b.orgId = a.orgId := by
      obtain ⟨_, _, rfl⟩ := h
      exact ⟨rfl, rfl⟩
    exact wf.withTeam (teams.stays fun _ _ h => (keys h).1) (wf.team_org.evolves teams fun _ _ h => congrArg some (keys h).2)
      (wf.team_masterManager.extend_some managers)
  | addMembers members kept =>
    exact { wf with
      teamMember_team := wf.teamMember_team.extend_some fun b hb => (members b hb).imp (fun hb => ⟨b, hb, rfl⟩) And.left
      teamMember_staff := wf.teamMember_staff.extend_some fun b hb => (members b hb).imp (fun hb => ⟨b, hb, rfl⟩) And.right
      teamReporting_teamMember := wf.teamReporting_teamMember.stays fun a ha => ⟨a, kept a ha, rfl⟩ }
  | dropMember => exact wf.deleteMember _
  | dropTeam => exact wf.deleteTeam _
  | addReporting links =>
    exact { wf with
      teamReporting_team := wf.teamReporting_team.extend_some fun b hb =>
        (links b hb).imp (fun hb => ⟨b, hb, rfl⟩) fun h => h.1
      teamReporting_staff := wf.teamReporting_staff.extend_some fun b hb =>
        (links b hb).imp (fun hb => ⟨b, hb, rfl⟩) fun h => h.2.1
      teamReporting_manager := wf.teamReporting_manager.extend_some fun b hb =>
        (links b hb).imp (fun hb => ⟨b, hb, rfl⟩) fun h => h.2.2.1
      teamReporting_teamMember := wf.teamReporting_teamMember.extend fun b hb id hid =>
        (links b hb).imp (fun hb => ⟨b, hb, hid⟩) fun h => h.2.2.2 id hid }
  | dropReporting rows =>
    exact { wf with
      teamReporting_team := wf.teamReporting_team.shrinks rows
      teamReporting_staff := wf.teamReporting_staff.shrinks rows
      teamReporting_manager := wf.teamReporting_manager.shrinks rows
      teamReporting_teamMember := wf.teamReporting_teamMember.shrinks rows }
  | addOrganization stored => exact wf.withOrganization (stays_insert stored)
  | editOrganization organizations => exact wf.withOrganization (organizations.stays fun _ _ h => h.1)
  | limitOrganization organizations => exact wf.withOrganization (organizations.stays fun _ _ h => h)
  | addSubscription org plan stored =>
    exact { wf with
      subscription_org := wf.subscription_org.insert stored (found_some org)
      subscription_plan := wf.subscription_plan.insert stored (found_some plan) }
  | setSubscription orgs plans =>
    exact { wf with
      subscription_org := wf.subscription_org.extend_some orgs
      subscription_plan := wf.subscription_plan.extend_some plans }
  | dropOrganization => exact wf.deleteOrganization _
  | addPlan stored => exact wf.withPlan (stays_insert stored)
  | updatePlan plans => exact wf.withPlan (plans.stays fun _ _ h => h)
  | setFeature plans => exact { wf with planFeature_plan := wf.planFeature_plan.extend_some plans }
  | dropFeatures rows => exact { wf with planFeature_plan := wf.planFeature_plan.shrinks rows }

/-! ### Owners -/

/-- A refresh token is a user's or a system account's. -/
def OwnedTokens (s : Db) : Prop := ∀ token ∈ s.refreshToken, token.userId.isSome ≠ token.systemId.isSome

/-- Working hours are an organisation's or a staff member's. -/
def OwnedHours (s : Db) : Prop := ∀ hours ∈ s.workingHours, hours.orgId.isSome ≠ hours.staffId.isSome

theorem Change.ownedTokens {s t : Db} {k : Kind} (h : Change s k t) (owned : OwnedTokens s) : OwnedTokens t := by
  cases h <;> try exact owned
  case addToken token u _ _ owner stored =>
    intro a ha
    rcases (mem_insert stored).mp ha with ha | rfl
    · exact owned a ha
    · exact owner
  case rotateToken u tokens =>
    intro b hb
    obtain ⟨a, ha, huser, hsystem⟩ := tokens.only b hb
    rw [huser, hsystem]
    exact owned a ha
  case dropTokens u rows => exact fun a ha => owned a (rows a ha)
  all_goals exact fun a ha => owned a (mem_delete.mp ha).1

theorem Change.ownedHours {s t : Db} {k : Kind} (h : Change s k t) (owned : OwnedHours s) : OwnedHours t := by
  cases h <;> try exact owned
  case setStaffHours u owners =>
    intro b hb
    rcases owners b hb with ⟨a, ha, _, _, _, rfl⟩ | ⟨hnone, staff, hof, -⟩
    · exact owned a ha
    · simp [hnone, hof]
  case setOrganizationHours u owners =>
    intro b hb
    rcases owners b hb with ⟨a, ha, _, _, _, rfl⟩ | ⟨hnone, org, hof, -⟩
    · exact owned a ha
    · simp [hnone, hof]
  all_goals exact fun a ha => owned a (mem_delete.mp ha).1

/-! ### Every state -/

/-- What the schema promises of a state, and what it leaves to the server: whose a token is, and whose hours. -/
structure Consistent (s : Db) : Prop where
  wellFormed : s.WellFormed
  tokens : OwnedTokens s
  hours : OwnedHours s

theorem Change.consistent {s t : Db} {k : Kind} (h : Change s k t) (hs : Consistent s) : Consistent t :=
  ⟨h.wellFormed hs.wellFormed, h.ownedTokens hs.tokens, h.ownedHours hs.hours⟩

/-- Whatever requests run at the same time, and whichever of their accesses fail, between any two accesses too. -/
theorem consistent_of_reach {server : Server} {ι : Type} [DecidableEq ι] {requests : ι → Request} {s : Db}
    {d : Threads ι Db HttpException Unit} (hs : Consistent s)
    (h : (interleaving ⟨s, fun i => serve server (requests i)⟩).Reachable d) : Consistent d.state :=
  (changes_of_reach h).preserves (R := fun s t => Consistent s → Consistent t) (fun _ h => h) (fun h h' hs => h' (h hs))
    (fun _ _ _ _ hchange => hchange.consistent) hs

theorem office_consistent : Consistent Office.db where
  wellFormed := {
    visit_org := .of_find (by decide)
    visit_reason := .of_find (by decide)
    visit_staff := .of_find (by decide)
    staff_org := .of_find (by decide)
    staff_user := .of_find (by decide)
    staff_department := .of_find (by decide)
    userCredential_org := .of_find (by decide) }
  tokens _ h := absurd h not_mem_empty
  hours _ h := absurd h not_mem_empty

theorem consistent_of_reach_office : Consistent Office.after.state ∧ Office.after.state.visit = ∅ :=
  ⟨consistent_of_reach office_consistent Office.reachable_after, Office.visit_after⟩

end Server
end Vms
