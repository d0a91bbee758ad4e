import Vms.Theorems.Staff.Step
import Vms.Theorems.Team.Step
import Vms.Theorems.Visit.Step

/-! References between the rows of an organisation: the host and the reason of a visit, the department of a
    staff member, the master manager and the members of a team. The store only checks that the row is there;
    that it is of the same organisation is left to the requests, and four of them do not check all of it. -/

namespace Vms.Tenants
open Relational HttpException VisitService StaffService TeamService

/-- The references stay within the organisations. -/
structure Contained (s : Db) : Prop where
  host : s.visit.Scoped (fun v => some v.staffId) (·.orgId) s.staff (·.orgId)
  reason : s.visit.Scoped (·.reasonId) (·.orgId) s.reasonOfVisit (·.orgId)
  department : s.staff.Scoped (·.departmentId) (·.orgId) s.department (·.orgId)
  master : s.team.Scoped (fun team => some team.masterManagerId) (·.orgId) s.staff (·.orgId)
  member : ∀ member ∈ s.teamMember, ∃ team ∈ s.team, team.id = member.teamId ∧
    ∃ staff ∈ s.staff, staff.id = member.staffId ∧ staff.orgId = team.orgId

/-! ### Calls -/

inductive Call where
  | startVisit (io : VisitService.Io) (orgId : String) (systemId : Option String) (dto : StartVisitDto) (checkInPicture : Bool)
  | addStaffMember (io : StaffService.Io) (orgId : Option String) (role : String) (dto : AddStaffMemberDto) (qOrgId : Option String)
  | addStaffBulk (io : StaffService.Io) (orgId : Option String) (role : String) (staffList : List AddStaffMemberDto)
    (qOrgId : Option String)
  | editStaffMemberDetails (io : StaffService.Io) (orgId : Option String) (role staffId : String) (dto : EditStaffMemberDto)
    (qOrgId : Option String)
  | addTeam (io : TeamService.Io) (orgId userId role : String) (dto : CreateTeamDto)
  | editTeam (orgId userId role teamId : String) (dto : EditTeamDto)
  | addMembers (io : TeamService.Io) (orgId userId role teamId : String) (dto : AddMembersDto)

def perform (js : Js) : Call → Service Unit
  | .startVisit io orgId systemId dto checkInPicture => do let _ ← startVisit js io orgId systemId dto checkInPicture
  | .addStaffMember io orgId role dto qOrgId => do let _ ← addStaffMember js io orgId role dto qOrgId
  | .addStaffBulk io orgId role staffList qOrgId => do let _ ← addStaffBulk js io orgId role staffList qOrgId
  | .editStaffMemberDetails io orgId role staffId dto qOrgId => do
    let _ ← editStaffMemberDetails io orgId role staffId dto qOrgId
  | .addTeam io orgId userId role dto => do let _ ← addTeam io orgId userId role dto
  | .editTeam orgId userId role teamId dto => do let _ ← editTeam orgId userId role teamId dto
  | .addMembers io orgId userId role teamId dto => do let _ ← addMembers io orgId userId role teamId dto

/-- Calls one after another, in which any statement may fail. -/
def tenants (js : Js) : System Db Call where
  init := Contained
  step s c t := ∃ r, Prog.Exec (perform js c) s r t

/-- A call that passes its checks names a reason, a department or a team of its organisation where it is not
    checked. Members whose identifiers are taken are not added. -/
def Own (js : Js) (s : Db) : Call → Prop
  | .startVisit _ orgId systemId dto _ => MayStart js s orgId systemId dto →
    ∀ reason ∈ s.reasonOfVisit, reason.id = dto.reasonId → reason.orgId = orgId
  | .addStaffMember _ orgId role dto qOrgId => ∀ target, MayAdd js s orgId role dto qOrgId target →
    ∀ department ∈ s.department, department.id = dto.departmentId → department.orgId = target
  | .editStaffMemberDetails _ orgId role staffId dto qOrgId => ∀ staff, MayEdit s orgId role staffId qOrgId staff →
    ∀ department ∈ s.department, dto.departmentId = some department.id → department.orgId = staff.orgId
  | .addMembers io orgId userId role teamId dto => role = "SuperAdmin" → Credentials s orgId userId →
    ∀ team ∈ s.team, team.id = teamId → team.orgId ≠ orgId → ∀ staff, Joins s orgId team dto staff →
      ∃ member ∈ s.teamMember, member.id = io.memberId staff.id
  | _ => True

/-! ### Updates -/

section Updates
variable {s t u : Db}

theorem Contained.checkIn {io : VisitService.Io} {orgId fullName email : String} {dto : StartVisitDto} {picture : Option String}
    (h : Contained s) (adds : Adds s t (newVisit io orgId fullName email dto picture))
    (host : ∃ staff ∈ s.staff, staff.id = dto.staffId ∧ staff.orgId = orgId)
    (reason : ∃ reason ∈ s.reasonOfVisit, reason.id = dto.reasonId ∧ reason.orgId = orgId) : Contained t := by
  rw [adds.rest]
  refine ⟨h.host.insert adds.visit fun id hid => ?_, h.reason.insert adds.visit fun id hid => ?_, h.department, h.master, h.member⟩
  · obtain rfl := Option.some.inj hid
    exact host
  · obtain rfl := Option.some.inj hid
    exact reason

theorem Contained.notified {n : Notification} (h : Contained s) (notifies : Notifies s t n) : Contained t := by
  rw [notifies.rest]
  exact ⟨h.host, h.reason, h.department, h.master, h.member⟩

/-- Staff members stay in their organisations, and departments are of theirs. -/
theorem Contained.staff {v : Table Staff} {users : Table UserCredential} (h : Contained s)
    (kept : Table.Retains (·.orgId) s.staff v) (department : v.Scoped (·.departmentId) (·.orgId) s.department (·.orgId)) :
    Contained { s with staff := v, userCredential := users } where
  host := h.host.retained kept
  reason := h.reason
  department := department
  master := h.master.retained kept
  member member hmember := by
    obtain ⟨team, hteam, hid, staff, hstaff, hstaffId, horg⟩ := h.member member hmember
    obtain ⟨staff', hstaff', hid', horg'⟩ := kept staff hstaff
    exact ⟨team, hteam, hid, staff', hstaff', hid'.trans hstaffId, horg'.trans horg⟩

theorem Contained.hired {io : StaffService.Io} {i : Nat} {target email departmentId : String} {staff : Staff}
    {user : UserCredential} (h : Contained s) (hired : Hired s io i target email departmentId staff user t)
    (own : ∀ department ∈ s.department, department.id = departmentId → department.orgId = target) : Contained t := by
  rw [hired.rest]
  refine h.staff (fun a ha => ⟨a, (hired.staff_mem a).mpr (Or.inl ha), rfl, rfl⟩) (h.department.of_rows fun a ha => ?_)
  rcases (hired.staff_mem a).mp ha with hold | rfl
  · exact Or.inl ⟨a, hold, rfl, rfl⟩
  · refine Or.inr fun id hid => ?_
    obtain ⟨department, hfind⟩ := Option.isSome_iff_exists.mp hired.stored
    obtain ⟨hdepartment, hdepartmentId⟩ := Table.find_eq_some.mp hfind
    obtain rfl := Option.some.inj (hired.department.symm.trans hid)
    exact ⟨department, hdepartment, hdepartmentId, (own department hdepartment hdepartmentId).trans hired.staffOrg.symm⟩

/-- A change of staff members that keeps their organisations, and gives them departments of these. -/
theorem Contained.modify {p : Staff → Bool} {f : Staff → Staff} {v : Table Staff} {users : Table UserCredential}
    (h : Contained s) (modified : s.staff.modify p f = some v) (keeps : ∀ a, (f a).id = a.id ∧ (f a).orgId = a.orgId)
    (own : ∀ a ∈ s.staff, p a = true → (f a).departmentId = a.departmentId ∨ ∀ id, (f a).departmentId = some id →
      ∃ department ∈ s.department, department.id = id ∧ department.orgId = a.orgId) :
    Contained { s with staff := v, userCredential := users } := by
  refine h.staff (Table.Retains.modify modified keeps) (h.department.of_rows fun b hb => ?_)
  obtain ⟨a, ha, rfl⟩ := (Table.mem_modify modified).mp hb
  by_cases hp : p a = true
  · rw [if_pos hp]
    rcases own a ha hp with hsame | hown
    · exact Or.inl ⟨a, ha, hsame.symm, (keeps a).2.symm⟩
    · rw [(keeps a).2]
      exact Or.inr hown
  · rw [if_neg hp]
    exact Or.inl ⟨a, ha, rfl, rfl⟩

theorem Contained.madeRoom {staff : Staff} {role : Option MemberRoleEnum} (h : Contained s) (room : MadeRoom s staff role t) :
    Contained t := by
  cases room with
  | kept hours _ => exact ⟨h.host, h.reason, h.department, h.master, h.member⟩
  | demoted hours user old users staffs _ _ _ _ _ _ _ _ hstaffs =>
    have demoted : Contained { s with staff := staffs, userCredential := users } :=
      h.modify hstaffs (fun _ => ⟨rfl, rfl⟩) fun _ _ _ => Or.inl rfl
    exact ⟨demoted.host, demoted.reason, demoted.department, demoted.master, demoted.member⟩

theorem madeRoom_retains {staff : Staff} {role : Option MemberRoleEnum} (room : MadeRoom s staff role t) :
    t.department = s.department ∧ Table.Retains (·.orgId) s.staff t.staff ∧ Table.Retains (·.orgId) t.staff s.staff := by
  cases room with
  | kept hours _ => exact ⟨rfl, fun a ha => ⟨a, ha, rfl, rfl⟩, fun b hb => ⟨b, hb, rfl, rfl⟩⟩
  | demoted hours user old users staffs _ _ _ _ _ _ _ _ hstaffs =>
    refine ⟨rfl, Table.Retains.modify hstaffs fun _ => ⟨rfl, rfl⟩, fun b hb => ?_⟩
    obtain ⟨a, ha, rfl⟩ := (Table.mem_modify hstaffs).mp hb
    refine ⟨a, ha, ?_⟩
    split <;> exact ⟨rfl, rfl⟩

section Edit
variable {io : StaffService.Io} {orgId qOrgId : Option String} {role staffId : String} {dto : EditStaffMemberDto}

theorem Contained.editStaff {staff : Staff} {staffs : Table Staff} {users : Table UserCredential} (h : Contained s)
    (may : MayEdit s orgId role staffId qOrgId staff) (room : MadeRoom s staff dto.role t)
    (stored : ∀ d, dto.departmentId = some d → (t.department.find d).isSome)
    (own : ∀ department ∈ s.department, dto.departmentId = some department.id → department.orgId = staff.orgId)
    (modified : t.staff.modify (·.id == staffId) (editedStaff dto) = some staffs) :
    Contained { t with staff := staffs, userCredential := users } := by
  obtain ⟨hdepartments, -, retains⟩ := madeRoom_retains room
  refine (h.madeRoom room).modify modified (fun _ => ⟨rfl, rfl⟩) fun a ha hp => ?_
  cases hgiven : dto.departmentId with
  | none => exact Or.inl (by simp only [editedStaff, hgiven, Option.none_or])
  | some d =>
    refine Or.inr fun id hid => ?_
    simp only [editedStaff, hgiven, Option.some_or, Option.some.injEq] at hid
    subst hid
    obtain ⟨department, hfind⟩ := Option.isSome_iff_exists.mp (stored d hgiven)
    obtain ⟨hdepartment, rfl⟩ := Table.find_eq_some.mp hfind
    -- the row is that of the staff member for whom the request was allowed
    obtain ⟨old, hold, hid, horg⟩ := retains a ha
    obtain rfl : old = staff := Table.eq_of_id hold may.mem (hid.trans ((beq_iff_eq.mp hp).trans may.id.symm))
    exact ⟨department, hdepartment, rfl, (own department (hdepartments ▸ hdepartment) hgiven).trans horg⟩

theorem Contained.edited (h : Contained s) (edited : Edited s io orgId role staffId dto qOrgId t)
    (own : ∀ staff, MayEdit s orgId role staffId qOrgId staff →
      ∀ department ∈ s.department, dto.departmentId = some department.id → department.orgId = staff.orgId) : Contained t := by
  cases edited with
  | changed staff u user staffs users may room stored _ _ hstaffs _ => exact h.editStaff may room stored (own staff may) hstaffs
  | created staff u staffs user users linkeds may room stored _ _ _ hstaffs _ hlinked =>
    have first : Contained { u with staff := staffs, userCredential := users } :=
      h.editStaff may room stored (own staff may) hstaffs
    exact first.modify hlinked (fun _ => ⟨rfl, rfl⟩) fun _ _ _ => Or.inl rfl

/-- The staff member whose department is given is in it. -/
theorem edited_refers {staff : Staff} {d : String} (edited : Edited s io orgId role staffId dto qOrgId t)
    (may : MayEdit s orgId role staffId qOrgId staff) (given : dto.departmentId = some d) :
    t.department = s.department ∧ ∃ a ∈ t.staff, a.departmentId = some d ∧ a.orgId = staff.orgId := by
  have changed : ∀ staff' u staffs, MayEdit s orgId role staffId qOrgId staff' → MadeRoom s staff' dto.role u →
      u.staff.modify (·.id == staffId) (editedStaff dto) = some staffs → u.department = s.department ∧
        ∃ a ∈ staffs, a.id = staff'.id ∧ a.departmentId = some d ∧ a.orgId = staff.orgId := by
    intro staff' u staffs may' room hstaffs
    obtain ⟨hdepartments, retains, -⟩ := madeRoom_retains room
    obtain rfl : staff' = staff := Table.eq_of_id may'.mem may.mem (may'.id.trans may.id.symm)
    obtain ⟨a, ha, hid, horg⟩ := retains staff' may.mem
    have hof : (a.id == staffId) = true := beq_iff_eq.mpr (hid.trans may.id)
    refine ⟨hdepartments, editedStaff dto a, (Table.mem_modify hstaffs).mpr ⟨a, ha, if_pos hof⟩, hid, ?_, horg⟩
    simp only [editedStaff, given, Option.some_or]
  cases edited with
  | changed staff' u user staffs users may' room _ _ _ hstaffs _ =>
    obtain ⟨hdepartments, a, ha, -, hrest⟩ := changed staff' u staffs may' room hstaffs
    exact ⟨hdepartments, a, ha, hrest⟩
  | created staff' u staffs user users linkeds may' room _ _ _ _ hstaffs _ hlinked =>
    obtain ⟨hdepartments, a, ha, hid, hrest⟩ := changed staff' u staffs may' room hstaffs
    exact ⟨hdepartments, _, (Table.mem_modify hlinked).mpr ⟨a, ha, if_pos (beq_iff_eq.mpr hid)⟩, hrest⟩

end Edit

section Teams
variable {io : TeamService.Io} {orgId userId role teamId : String}

theorem Contained.addTeam {dto : CreateTeamDto} {v : Table Team} (h : Contained s)
    (stored : s.team.insert (newTeam io orgId dto) = some v)
    (master : ∃ staff ∈ s.staff, staff.id = dto.masterManagerId ∧ staff.orgId = orgId) : Contained { s with team := v } where
  host := h.host
  reason := h.reason
  department := h.department
  master := h.master.insert stored fun id hid => by
    obtain rfl := Option.some.inj hid
    exact master
  member member hmember := by
    obtain ⟨team, hteam, hrest⟩ := h.member member hmember
    exact ⟨team, (Table.mem_insert stored).mpr (Or.inl hteam), hrest⟩

/-- New members are of the organisation of their team. -/
theorem Contained.join {v : Table TeamMember} (h : Contained s) (joined : ∀ member ∈ v, member ∈ s.teamMember ∨
      ∃ team ∈ s.team, team.id = member.teamId ∧ ∃ staff ∈ s.staff, staff.id = member.staffId ∧ staff.orgId = team.orgId) :
    Contained { s with teamMember := v } where
  host := h.host
  reason := h.reason
  department := h.department
  master := h.master
  member member hmember := (joined member hmember).elim (h.member member) id

theorem Contained.editTeam {team : Team} {dto : EditTeamDto} (h : Contained s)
    (own : team ∈ s.team ∧ team.id = teamId ∧ team.orgId = orgId)
    (master : ∀ id, truthy dto.masterManagerId = some id → ∃ staff ∈ s.staff, staff.id = id ∧ staff.orgId = orgId)
    (cleaned : Cleaned s u teamId (truthy dto.masterManagerId)) :
    Contained { u with team := u.team.update (·.id == teamId) (TeamService.edited dto) (edited_keys dto) } := by
  rw [cleaned.rest]
  obtain ⟨hteam, rfl, rfl⟩ := own
  have kept : ∀ a ∈ s.team, ∃ b ∈ s.team.update (·.id == team.id) (TeamService.edited dto) (edited_keys dto),
      b.id = a.id ∧ b.orgId = a.orgId := by
    intro a ha
    refine ⟨_, Table.mem_update.mpr ⟨a, ha, rfl⟩, ?_⟩
    split <;> exact ⟨rfl, rfl⟩
  refine ⟨h.host, h.reason, h.department, h.master.of_rows fun b hb => ?_, fun member hmember => ?_⟩
  · have hb : b ∈ s.team.update (·.id == team.id) (TeamService.edited dto) (edited_keys dto) := hb
    rcases Table.mem_update_cases hb with ⟨hb, -⟩ | ⟨a, ha, hp, rfl⟩
    · exact Or.inl ⟨b, hb, rfl, rfl⟩
    · obtain rfl : a = team := Table.eq_of_id ha hteam (beq_iff_eq.mp hp)
      cases hgiven : truthy dto.masterManagerId with
      | none => exact Or.inl ⟨a, ha, by simp only [TeamService.edited, hgiven, Option.getD_none], rfl⟩
      | some masterManagerId =>
        refine Or.inr fun id hid => ?_
        simp only [TeamService.edited, hgiven, Option.getD_some, Option.some.injEq] at hid
        subst hid
        exact master masterManagerId hgiven
  · obtain ⟨a, ha, haid, staff, hstaff, hstaffId, horg⟩ := h.member member hmember
    obtain ⟨b, hb, hbid, hborg⟩ := kept a ha
    exact ⟨b, hb, hbid.trans haid, staff, hstaff, hstaffId, horg.trans hborg.symm⟩

end Teams

end Updates

/-! ### Steps -/

section Steps
variable {js : Js} {s t : Db}

theorem Contained.call (h : Contained s) (c : Call) (own : Own js s c) : (perform js c).Post (fun _ t => Contained t) s := by
  cases c with
  | startVisit io orgId systemId dto checkInPicture =>
    refine Prog.post_discard.mpr (startVisit_post (fun _ => h) fun picture u may stored adds _ t rest => ?_)
    obtain ⟨reason, hfind⟩ := Option.isSome_iff_exists.mp stored
    obtain ⟨hreason, hid⟩ := Table.find_eq_some.mp hfind
    have checkedIn := h.checkIn adds may.host ⟨reason, hreason, hid, own may reason hreason hid⟩
    rcases rest with rfl | notifies
    · exact checkedIn
    · exact checkedIn.notified notifies
  | addStaffMember io orgId role dto qOrgId =>
    refine Prog.post_discard.mpr (Post.state_of_allOrNothing addStaffMember_post h fun _ t ht => ?_)
    obtain ⟨target, staff, user, may, hired⟩ := ht
    exact h.hired hired (own target may)
  | addStaffBulk io orgId role staffList qOrgId =>
    refine Prog.post_discard.mpr (addStaffBulk_post h fun u i email department staff user v hu hdepartment _ hired => ?_)
    refine hu.hired hired fun other hother hid => ?_
    rw [Table.eq_of_id hother hdepartment hid]
  | editStaffMemberDetails io orgId role staffId dto qOrgId =>
    exact Prog.post_discard.mpr (Post.state_of_allOrNothing editStaffMemberDetails_post h fun _ t ht => h.edited ht own)
  | addTeam io orgId userId role dto =>
    refine Prog.post_discard.mpr (addTeam_post h fun staff hstaff hid horg v hv => ?_)
    have added := h.addTeam hv ⟨staff, hstaff, hid, horg⟩
    refine ⟨added, fun members hmembers => added.join fun member hmember => ?_⟩
    refine ((Table.mem_insert hmembers).mp hmember).imp_right fun hnew => ?_
    subst hnew
    exact ⟨_, (Table.mem_insert hv).mpr (Or.inr rfl), rfl, staff, hstaff, hid, horg⟩
  | editTeam orgId userId role teamId dto =>
    refine Prog.post_discard.mpr (Post.state_of_allOrNothing editTeam_post h fun _ t ht => ?_)
    obtain ⟨team, u, ownTeam, master, cleaned, rfl⟩ := ht
    exact h.editTeam ownTeam master cleaned
  | addMembers io orgId userId role teamId dto =>
    refine Prog.post_discard.mpr (Post.state_of_allOrNothing addMembers_spec h fun _ t ht => ?_)
    obtain ⟨hrole, hcredentials, team, hteam, hid, rfl⟩ := ht
    refine h.join fun member hmember => ?_
    by_cases horg : team.orgId = orgId
    · refine (Table.mem_of_mem_insertAll hmember).imp_right fun hnew => ?_
      obtain ⟨staff, joins, rfl⟩ := mem_newMembers.mp hnew
      exact ⟨team, hteam, rfl, staff, joins.mem, rfl, joins.org.trans horg.symm⟩
    · rw [Table.insertAll_eq_self fun other hother => ?_] at hmember
      · exact Or.inl hmember
      · obtain ⟨staff, joins, rfl⟩ := mem_newMembers.mp hother
        obtain ⟨old, hold, holdId⟩ := own hrole hcredentials team hteam hid horg staff joins
        exact ⟨old, hold, Table.conflict_of_id holdId⟩

/-- An accepted call keeps the references within the organisations only if it names its own. -/
theorem Contained.own {c : Call} (ht : Contained t) (hexec : Prog.Exec (perform js c) s (.ok ()) t) : Own js s c := by
  cases c with
  | startVisit io orgId systemId dto checkInPicture =>
    intro _ reason hreason hid
    obtain ⟨reply, hexec⟩ := Prog.Exec.of_discard hexec
    rcases startVisit_spec.of_exec hexec with ⟨picture, u, adds, rest⟩ | ⟨-, e, he⟩
    swap
    · cases he
    have hreasons : t.reasonOfVisit = s.reasonOfVisit := by
      rcases rest with rfl | ⟨n, -, -, notifies⟩
      · rw [adds.rest]
      · rw [notifies.rest, adds.rest]
    obtain ⟨other, hother, hotherId, horg⟩ :=
      ht.reason _ ((Table.mem_insert (adds.visits_of_rest rest)).mpr (Or.inr rfl)) dto.reasonId rfl
    rw [hreasons] at hother
    obtain rfl : reason = other := Table.eq_of_id hreason hother (hid.trans hotherId.symm)
    exact horg
  | addStaffMember io orgId role dto qOrgId =>
    intro target may department hdepartment hid
    obtain ⟨reply, hexec⟩ := Prog.Exec.of_discard hexec
    obtain ⟨target', staff, user, may', hired⟩ := addStaffMember_post.of_exec hexec
    obtain rfl : target = target' := Option.some.inj (may.inOrg.symm.trans may'.inOrg)
    obtain ⟨other, hother, hotherId, horg⟩ :=
      ht.department staff ((hired.staff_mem staff).mpr (Or.inr rfl)) _ hired.department
    rw [show t.department = s.department by rw [hired.rest]] at hother
    obtain rfl : department = other := Table.eq_of_id hdepartment hother (hid.trans hotherId.symm)
    exact horg.trans hired.staffOrg
  | addStaffBulk io orgId role staffList qOrgId => trivial
  | editStaffMemberDetails io orgId role staffId dto qOrgId =>
    intro staff may department hdepartment hgiven
    obtain ⟨reply, hexec⟩ := Prog.Exec.of_discard hexec
    obtain ⟨hdepartments, a, ha, hof, horg⟩ := edited_refers (editStaffMemberDetails_post.of_exec hexec) may hgiven
    obtain ⟨other, hother, hotherId, hotherOrg⟩ := ht.department a ha _ hof
    rw [hdepartments] at hother
    obtain rfl : department = other := Table.eq_of_id hdepartment hother hotherId.symm
    exact hotherOrg.trans horg
  | addTeam io orgId userId role dto => trivial
  | editTeam orgId userId role teamId dto => trivial
  | addMembers io orgId userId role teamId dto =>
    intro _ _ team hteam hid horg staff joins
    obtain ⟨reply, hexec⟩ := Prog.Exec.of_discard hexec
    obtain ⟨-, -, team', hteam', hid', rfl⟩ := addMembers_spec.of_exec hexec
    obtain rfl : team' = team := Table.eq_of_id hteam' hteam (hid'.trans hid.symm)
    by_contra hnone
    have fresh : ∀ member ∈ s.teamMember, member.id ≠ io.memberId staff.id :=
      fun member hmember hid => hnone ⟨member, hmember, hid⟩
    -- one of the new members is stored, and is not of the organisation of the team
    obtain ⟨member, hmember, hstored, -⟩ :=
      Table.exists_mem_insertAll (mem_newMembers.mpr ⟨staff, joins, rfl⟩) (joins.free fresh)
    obtain ⟨other, joins', rfl⟩ := mem_newMembers.mp hmember
    obtain ⟨ofMember, hofMember, hofId, host, hhost, hhostId, hhostOrg⟩ := ht.member _ hstored
    obtain rfl : ofMember = team' := Table.eq_of_id hofMember hteam hofId
    obtain rfl : host = other := Table.eq_of_id hhost joins'.mem hhostId
    exact horg (hhostOrg.symm.trans joins'.org)

end Steps

/-- In every run whose calls name their own reasons, departments and teams, the references stay within the
    organisations; of an accepted call this is also necessary. -/
theorem references_contained (js : Js) : (∀ s, (tenants js).Reach (Own js) s → Contained s) ∧
    ∀ s c t, Contained s → Prog.Exec (perform js c) s (.ok ()) t → (Contained t ↔ Own js s c) := by
  refine ⟨fun s h => ?_, fun s c t h hexec => ⟨fun ht => ht.own hexec, fun own => (h.call c own).of_exec hexec⟩⟩
  refine h.invariant (fun _ hinit => hinit) fun s c t _ contained own hstep => ?_
  obtain ⟨r, hexec⟩ := hstep
  exact (contained.call c own).of_exec hexec

/-! ### Two organisations -/

namespace Neighbours

def db : Db where
  organization := ⟨[{ id := "org", name := "Organisation", email := "org@mail.com" },
    { id := "rival", name := "Neighbour", email := "rival@mail.com" }], by decide⟩
  staff := {Reception.ann}
  systemCredential := {{ id := "desk", orgId := "org", email := "desk@mail.com" }}
  reasonOfVisit := ⟨[{ id := "meeting", orgId := "org", name := "Meeting" },
    { id := "audit", orgId := "rival", name := "Audit" }], by decide⟩

theorem contained_db : Contained db where
  host v hv := absurd hv Table.not_mem_empty
  reason v hv := absurd hv Table.not_mem_empty
  department staff hstaff id hid := by
    obtain rfl := Table.mem_singleton.mp hstaff
    cases hid
  master team hteam := absurd hteam Table.not_mem_empty
  member member hmember := absurd hmember Table.not_mem_empty

/-- Bob asks for Ann. -/
def visit (reasonId : String) : Call :=
  .startVisit (Reception.request "1" 10 Reception.checkIn).io "org" (some "desk")
    { fullName := "bob", visitorOrganization := "Co", email := "bob@mail.com", reasonId, staffId := "ann" } false

def visited (reasonId : String) : Db := ((perform Reception.js (visit reasonId)).run db).2

theorem exec_visited (reasonId : String) : ∃ r, Prog.Exec (perform Reception.js (visit reasonId)) db r (visited reasonId) :=
  ⟨_, Prog.exec_run _ _⟩

theorem visited_audit : Prog.Exec (perform Reception.js (visit "audit")) db (.ok ()) (visited "audit") :=
  Prog.exec_run (perform Reception.js (visit "audit")) db

end Neighbours

section Neighbours
open Neighbours

theorem references_contained_meeting : Contained (visited "meeting") ∧ ¬Contained (visited "audit") := by
  obtain ⟨runs, accepted⟩ := references_contained Reception.js
  have own : Own Reception.js db (visit "meeting") := fun _ => by decide
  refine ⟨runs _ ((System.Reach.init contained_db).step own (exec_visited "meeting")), fun contained => ?_⟩
  have foreign : Own Reception.js db (visit "audit") := (accepted db (visit "audit") _ contained_db visited_audit).mp contained
  have may : MayStart Reception.js db "org" (some "desk")
      { fullName := "bob", visitorOrganization := "Co", email := "bob@mail.com", reasonId := "audit", staffId := "ann" } :=
    ⟨by decide, by decide, fun v hv => absurd hv Table.not_mem_empty⟩
  have howner := foreign may { id := "audit", orgId := "rival", name := "Audit" } (by decide) rfl
  exact absurd howner (by decide)

/-- A visitor comes for a reason of the other organisation. -/
theorem reason_across_tenants : ¬∀ (js : Js) (s : Db), (tenants js).Reachable s → Contained s := fun h => by
  have contained := h Reception.js (visited "audit") ((System.Reach.init contained_db).step trivial (exec_visited "audit"))
  have hvisit : ∃ v ∈ (visited "audit").visit, v.reasonId = some "audit" ∧ v.orgId = "org" := by decide
  obtain ⟨v, hv, hof, horg⟩ := hvisit
  obtain ⟨reason, hreason, hid, howner⟩ := contained.reason v hv "audit" hof
  have audits : ∀ reason ∈ (visited "audit").reasonOfVisit, reason.id = "audit" → reason.orgId = "rival" := by decide
  have hsame : "rival" = "org" := (audits reason hreason hid).symm.trans (howner.trans horg)
  exact absurd hsame (by decide)

end Neighbours

end Vms.Tenants
