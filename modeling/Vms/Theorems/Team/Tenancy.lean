import Vms.Team

/-! Which team requests stay inside the caller's organisation. Five of the eight operations always do;
    `addMembers`, `removeMember` and `deleteTeam` take the team from the path and never compare its
    organisation with the caller's. -/

namespace Vms.TeamService
open Relational HttpException

/-! ### Requests -/

inductive Operation where
  | addTeam (dto : CreateTeamDto)
  | editTeam (teamId : String) (dto : EditTeamDto)
  | addMembers (teamId : String) (dto : AddMembersDto)
  | removeMember (teamId memberId : String)
  | setReporting (teamId : String) (dto : SetReportingDto)
  | setReportingBulk (teamId : String) (dto : BulkSetReportingDto)
  | removeReporting (teamId : String) (dto : RemoveReportingDto)
  | deleteTeam (teamId : String)

/-- A request with a token of an organisation; `io i` is what pass `i` of a bulk request draws. -/
structure Request where
  io : Nat → Io
  orgId : String
  userId : String
  role : String
  op : Operation

def Request.call (q : Request) : Service Unit :=
  match q.op with
  | .addTeam dto => do let _ ← addTeam (q.io 0) q.orgId q.userId q.role dto
  | .editTeam teamId dto => do let _ ← editTeam q.orgId q.userId q.role teamId dto
  | .addMembers teamId dto => do let _ ← addMembers (q.io 0) q.orgId q.userId q.role teamId dto
  | .removeMember teamId memberId => do let _ ← removeMember q.orgId q.userId q.role teamId memberId
  | .setReporting teamId dto => do let _ ← setReporting (q.io 0) q.orgId q.userId q.role teamId dto
  | .setReportingBulk teamId dto => do let _ ← setReportingBulk q.io q.orgId q.userId q.role teamId dto
  | .removeReporting teamId dto => do let _ ← removeReporting (q.io 0) q.orgId q.userId q.role teamId dto
  | .deleteTeam teamId => deleteTeam q.orgId q.userId q.role teamId

/-! ### Organisations -/

/-- The team belongs to an organisation other than the given one. -/
def Foreign (s : Db) (orgId teamId : String) : Prop := ∃ team ∈ s.team, team.id = teamId ∧ team.orgId ≠ orgId

/-- The teams of other organisations, their members and their reporting rows are the same. -/
structure Within (orgId : String) (s t : Db) : Prop where
  team : Table.Same (fun team : Team => team.orgId ≠ orgId) s.team t.team
  member : Table.Same (fun member : TeamMember => Foreign s orgId member.teamId) s.teamMember t.teamMember
  reporting : Table.Same (fun link : TeamReporting => Foreign s orgId link.teamId) s.teamReporting t.teamReporting

section Updates
variable {s t u : Db} {orgId teamId : String}

@[refl, simp] theorem Within.refl (orgId : String) (s : Db) : Within orgId s s :=
  ⟨Table.Same.refl _, Table.Same.refl _, Table.Same.refl _⟩

theorem foreign_congr (h : Table.Same (fun team : Team => team.orgId ≠ orgId) s.team t.team) :
    Foreign t orgId teamId ↔ Foreign s orgId teamId := by
  constructor
  · rintro ⟨team, hteam, hid, horg⟩
    exact ⟨team, (h team horg).mp hteam, hid, horg⟩
  · rintro ⟨team, hteam, hid, horg⟩
    exact ⟨team, (h team horg).mpr hteam, hid, horg⟩

theorem Within.trans (h : Within orgId s t) (h' : Within orgId t u) : Within orgId s u where
  team := h.team.trans h'.team
  member := h.member.trans fun member hm => h'.member member ((foreign_congr h.team).mpr hm)
  reporting := h.reporting.trans fun link hl => h'.reporting link ((foreign_congr h.team).mpr hl)

theorem Within.of_team {v : Table Team} (h : Table.Same (fun team : Team => team.orgId ≠ orgId) s.team v) :
    Within orgId s { s with team := v } := ⟨h, Table.Same.refl _, Table.Same.refl _⟩

theorem Within.of_member {v : Table TeamMember}
    (h : Table.Same (fun member : TeamMember => Foreign s orgId member.teamId) s.teamMember v) :
    Within orgId s { s with teamMember := v } := ⟨Table.Same.refl _, h, Table.Same.refl _⟩

theorem Within.of_reporting {v : Table TeamReporting}
    (h : Table.Same (fun link : TeamReporting => Foreign s orgId link.teamId) s.teamReporting v) :
    Within orgId s { s with teamReporting := v } := ⟨Table.Same.refl _, Table.Same.refl _, h⟩

theorem not_foreign {team : Team} (hteam : team ∈ s.team) (hid : team.id = teamId) (horg : team.orgId = orgId) :
    ¬Foreign s orgId teamId := by
  rintro ⟨other, hother, hotherId, hotherOrg⟩
  obtain rfl : other = team := Table.eq_of_id hother hteam (hotherId.trans hid.symm)
  exact hotherOrg horg

theorem Within.not_foreign (h : Within orgId s t) (own : ¬Foreign s orgId teamId) : ¬Foreign t orgId teamId :=
  fun hf => own ((foreign_congr h.team).mp hf)

/-- Reporting rows of a team of the organisation may go. -/
theorem deleteTeamReporting_within {p : TeamReporting → Bool} (own : ¬Foreign s orgId teamId)
    (hp : ∀ link, p link = true → link.teamId = teamId) :
    (deleteTeamReporting p).Post (fun _ t => Within orgId s t) s := by
  simp only [deleteTeamReporting, post_mutate, Within.refl, implies_true, and_true, true_and]
  rintro _ t ht
  obtain ⟨-, rfl⟩ := Prod.mk.inj (Except.ok.inj ht)
  exact Within.of_reporting (Table.Same.delete fun link _ hlink => hp link hlink ▸ own)

theorem involves_teamId {member : TeamMember} {link : TeamReporting} (h : involves teamId member link = true) :
    link.teamId = teamId := by
  simp only [involves, Bool.and_eq_true, beq_iff_eq] at h
  exact h.1

end Updates

/-! ### Checks -/

/-- The organisation exists, and the user is in it. -/
def Credentials (s : Db) (orgId userId : String) : Prop :=
  (∃ organization ∈ s.organization, organization.id = orgId) ∧
    ∃ user ∈ s.userCredential, user.id = userId ∧ user.orgId = some orgId

section Checks
variable {s : Db} {orgId userId teamId : String} {Q : Except HttpException Unit → Db → Prop}

theorem credentials_iff : Credentials s orgId userId ↔ ¬((s.organization.find orgId).isNone ∨
    ((s.userCredential.find userId).filter (·.orgId == some orgId)).isNone) := by
  simp only [Credentials, not_or, Bool.not_eq_true, Option.isNone_eq_false_iff, Option.isSome_iff_exists,
    Option.filter_eq_some_iff, Table.find_eq_some, beq_iff_eq, and_assoc]
  exact Iff.rfl

@[simp] theorem post_checkCredentials : (checkCredentials orgId userId).Post Q s ↔
    ((¬Credentials s orgId userId → Q (.error (.badRequest "Invalid credentials.")) s) ∧
      (Credentials s orgId userId → Q (.ok ()) s)) ∧ Q (.error connectionLost) s := by
  simp only [checkCredentials, Prog.post_bind, post_query, Prog.then_ok, Prog.then_error, Prog.post_failIf,
    credentials_iff, not_not, and_assoc, and_self]

@[simp] theorem returns_checkCredentials : (checkCredentials orgId userId).Returns Q s ↔
    (¬Credentials s orgId userId → Q (.error (.badRequest "Invalid credentials.")) s) ∧
      (Credentials s orgId userId → Q (.ok ()) s) := by
  simp only [checkCredentials, Prog.returns_bind, returns_query, Prog.then_ok, Prog.returns_failIf,
    credentials_iff, not_not]

/-- A found team belongs to the caller's organisation. -/
theorem findTeam_spec {error : HttpException} {Q : Except HttpException Team → Db → Prop} (fails : ∀ e, Q (.error e) s)
    (found : Credentials s orgId userId → ∀ team ∈ s.team, team.id = teamId → team.orgId = orgId → Q (.ok team) s) :
    (findTeam orgId userId teamId error).Post Q s := by
  simp only [findTeam, Prog.post_bind, post_query, Prog.then_ok, Prog.then_error, Prog.post_failIf, Prog.post_orFail,
    fails, implies_true, and_true, true_and, Option.filter_eq_some_iff, Table.find_eq_some, beq_iff_eq]
  rintro hcredentials team ⟨⟨hteam, hid⟩, horg⟩
  exact found (credentials_iff.mpr hcredentials) team hteam hid horg

end Checks

/-! ### Operations that stay inside -/

section Operations
variable {s : Db} {io : Io} {orgId userId role teamId : String}

/-- The team that `addTeam` creates. -/
def newTeam (io : Io) (orgId : String) (dto : CreateTeamDto) : Team :=
  { id := io.teamId, orgId, name := dto.name, masterManagerId := dto.masterManagerId }

/-- A team of the organisation is stored, and its master manager becomes a member unless that fails. -/
theorem addTeam_post {dto : CreateTeamDto} {P : Db → Prop} (hs : P s)
    (led : ∀ staff ∈ s.staff, staff.id = dto.masterManagerId → staff.orgId = orgId → ∀ u,
      s.team.insert (newTeam io orgId dto) = some u → P { s with team := u } ∧
        ∀ v, s.teamMember.insert { id := io.memberId dto.masterManagerId, teamId := io.teamId, staffId := dto.masterManagerId } =
          some v → P { s with team := u, teamMember := v }) :
    (addTeam io orgId userId role dto).Post (fun _ t => P t) s := by
  simp only [addTeam, Prog.post_bind, Prog.post_failIf, Prog.then_ok, Prog.then_error, post_checkCredentials, post_query,
    Prog.post_orFail, hs, implies_true, true_and, and_true, createTeam, post_mutate, created_eq_ok,
    Option.filter_eq_some_iff, Table.find_eq_some, beq_iff_eq]
  rintro - - staff ⟨⟨hstaff, hid⟩, horg⟩ _ t ⟨-, rfl, u, hu, rfl⟩
  obtain ⟨alone, joined⟩ := led staff hstaff hid horg u hu
  simp only [Prog.then_ok, Prog.then_error, createTeamMember, post_mutate, created_eq_ok, Prog.post_pure,
    alone, implies_true, true_and, and_true]
  rintro member t ⟨-, rfl, v, hv, rfl⟩
  exact joined v hv

theorem addTeam_within {dto : CreateTeamDto} :
    (addTeam io orgId userId role dto).Post (fun _ t => Within orgId s t) s := by
  refine addTeam_post (Within.refl orgId s) fun staff _ _ _ u hu => ?_
  have stored := Within.of_team (Table.Same.insert hu (not_not.mpr rfl) : Table.Same (fun team : Team => team.orgId ≠ orgId) s.team u)
  refine ⟨stored, fun v hv => stored.trans (Within.of_member (Table.Same.insert hv ?_))⟩
  exact not_foreign ((Table.mem_insert hu).mpr (Or.inr rfl)) rfl rfl

theorem cleanUpNewManager_within {masterManagerId : Option String} (own : ¬Foreign s orgId teamId) :
    (cleanUpNewManager orgId teamId masterManagerId).Post (fun _ t => Within orgId s t) s := by
  cases masterManagerId with
  | none => exact Within.refl orgId s
  | some masterManagerId =>
    simp only [cleanUpNewManager, findMember, Prog.post_bind, Prog.then_ok, Prog.then_error, post_query, Prog.post_orFail,
      Within.refl, implies_true, true_and, and_true]
    rintro - - newManager -
    exact deleteTeamReporting_within own fun _ => involves_teamId

theorem cleanUpOldManager_within {team : Team} {masterManagerId : Option String} (own : ¬Foreign s orgId teamId) :
    (cleanUpOldManager team teamId masterManagerId).Post (fun _ t => Within orgId s t) s := by
  unfold cleanUpOldManager
  split
  · simp only [findMember, Prog.post_bind, Prog.then_ok, Prog.then_error, post_query, Within.refl, and_true]
    split
    · exact Within.refl orgId s
    · exact deleteTeamReporting_within own fun _ => involves_teamId
  · exact Within.refl orgId s

theorem updateTeam_within {dto : EditTeamDto} (own : ¬Foreign s orgId teamId) :
    (updateTeam teamId dto).Post (fun _ t => Within orgId s t) s := by
  simp only [updateTeam, post_mutate, Within.refl, implies_true, true_and, and_true]
  intro _ t ht
  split at ht
  · cases ht
  · split at ht
    · obtain ⟨-, rfl⟩ := Prod.mk.inj (Except.ok.inj ht)
      refine Within.of_team (Table.Same.update fun team hteam hid => ?_)
      have horg : ¬team.orgId ≠ orgId := fun horg => own ⟨team, hteam, beq_iff_eq.mp hid, horg⟩
      exact ⟨horg, horg⟩
    · cases ht

theorem editTeam_within {dto : EditTeamDto} :
    (editTeam orgId userId role teamId dto).Post (fun _ t => Within orgId s t) s := by
  simp only [editTeam, Prog.post_bind, Prog.post_failIf, Prog.then_ok, Prog.then_error, Within.refl, implies_true, true_and]
  rintro -
  refine findTeam_spec (fun _ => Within.refl orgId s) fun _ team hteam hid horg => ?_
  have own := not_foreign hteam hid horg
  refine Prog.Post.bind_rel Within.trans (Prog.Post.transaction_rel (Within.refl orgId s) ?_) fun _ t _ => Within.refl orgId t
  refine Prog.Post.bind_rel Within.trans (cleanUpNewManager_within own) fun _ t ht => ?_
  refine Prog.Post.bind_rel Within.trans (cleanUpOldManager_within (ht.not_foreign own)) fun _ u hu => ?_
  exact updateTeam_within (hu.not_foreign (ht.not_foreign own))

theorem assignManagers_within {staffId teamMemberId : String} {newManagerIds : List String} (own : ¬Foreign s orgId teamId) :
    (assignManagers io teamId staffId teamMemberId newManagerIds).Post (fun _ t => Within orgId s t) s := by
  simp only [assignManagers, createTeamReporting, Prog.post_bind, Prog.post_failIf, Prog.then_ok, Prog.then_error,
    post_query, post_mutate, Prog.post_pure, Within.refl, implies_true, true_and, and_true]
  rintro - _ t ht
  split at ht
  · obtain ⟨-, rfl⟩ := Prod.mk.inj (Except.ok.inj ht)
    refine Within.of_reporting (Table.Same.insertAll fun link hlink => ?_)
    obtain ⟨managerId, -, rfl⟩ := List.mem_map.mp hlink
    exact own
  · cases ht

theorem setReporting_within {dto : SetReportingDto} :
    (setReporting io orgId userId role teamId dto).Post (fun _ t => Within orgId s t) s := by
  simp only [setReporting, Prog.post_bind, Prog.post_failIf, Prog.then_ok, Prog.then_error, Within.refl, implies_true, true_and]
  rintro -
  refine findTeam_spec (fun _ => Within.refl orgId s) fun _ team hteam hid horg => ?_
  simp only [findMember, Prog.post_bind, Prog.post_failIf, Prog.then_ok, Prog.then_error, post_query, Prog.post_orFail,
    Within.refl, implies_true, true_and, and_true]
  rintro staffTeamMember - - - -
  split
  · exact Within.refl orgId s
  · exact assignManagers_within (not_foreign hteam hid horg)

/-- The loop is an induction on the staff members that are left. -/
theorem setReportingEach_within {io : Nat → Io} {managerIds staffIds : List String} {i : Nat} {summary : Summary} :
    (setReportingEach io orgId userId role teamId managerIds staffIds i summary).Post (fun _ t => Within orgId s t) s := by
  induction staffIds generalizing i summary s with
  | nil => exact Within.refl orgId s
  | cons staffId staffIds ih =>
    have pass : (do
        let result ← setReporting (io i) orgId userId role teamId { staffId, managerIds }
        return summary.add result : Service Summary).Post (fun _ t => Within orgId s t) s :=
      Prog.Post.bind_rel Within.trans setReporting_within fun _ t _ => Within.refl orgId t
    refine Prog.Post.bind_rel Within.trans (Prog.Post.orElse_rel (R := Within orgId) Within.trans pass fun _ t _ => ?_) fun _ _ _ => ih
    exact Within.refl orgId t

theorem setReportingBulk_within {io : Nat → Io} {dto : BulkSetReportingDto} :
    (setReportingBulk io orgId userId role teamId dto).Post (fun _ t => Within orgId s t) s := setReportingEach_within

theorem removeReporting_within {dto : RemoveReportingDto} :
    (removeReporting io orgId userId role teamId dto).Post (fun _ t => Within orgId s t) s := by
  simp only [removeReporting, findMember, Prog.post_bind, Prog.post_failIf, Prog.then_ok, Prog.then_error,
    post_checkCredentials, post_query, Prog.post_orFail, Within.refl, implies_true, true_and, and_true,
    Option.filter_eq_some_iff, Table.find_eq_some, beq_iff_eq]
  rintro - - team ⟨⟨hteam, hid⟩, horg⟩ _ _ _ _ _ _
  rw [← Prog.post_bind]
  refine Prog.Post.bind_rel Within.trans (deleteTeamReporting_within (not_foreign hteam hid horg) fun link hlink => ?_)
    fun _ t _ => Within.refl orgId t
  simp only [Bool.and_eq_true, beq_iff_eq] at hlink
  exact hlink.1.1

end Operations

/-! ### Operations that take any team -/

section Unchecked
variable {s : Db} {io : Io} {orgId userId role teamId memberId : String} {P : Db → Prop}

theorem deleteTeam_post (hs : P s) : (deleteTeam orgId userId role teamId).Post (fun _ t => P t) s ↔
    (role ∈ ["SuperAdmin", "Admin", "Root", "Staff"] → Credentials s orgId userId →
      ∀ team ∈ s.team, team.id = teamId → P { s with
        team := s.team.delete (·.id == teamId)
        teamMember := s.teamMember.delete (·.teamId == teamId)
        teamReporting := s.teamReporting.delete (reportsUnder s teamId) }) := by
  simp only [deleteTeam, deleteTeamCascade, Prog.post_bind, Prog.post_failIf, Prog.then_ok, Prog.then_error,
    post_checkCredentials, post_mutate_ite, hs, implies_true, true_and, and_true, not_not, and_imp,
    Bool.not_eq_true, Option.isNone_eq_false_iff, Option.isSome_iff_exists, forall_exists_index, Table.find_eq_some]
  exact Iff.rfl

theorem removeMember_post (hs : P s) : (removeMember orgId userId role teamId memberId).Post (fun _ t => P t) s ↔
    (role = "SuperAdmin" → Credentials s orgId userId →
      ∀ member ∈ s.teamMember, member.id = memberId → member.teamId = teamId →
        P { s with
          teamMember := s.teamMember.delete (·.id == memberId)
          teamReporting := s.teamReporting.delete (·.teamMemberId == some memberId) } ∧
        P { s with
          teamMember := s.teamMember.delete (·.id == memberId)
          teamReporting := (s.teamReporting.delete (·.teamMemberId == some memberId)).delete (involves teamId member) }) := by
  simp only [removeMember, deleteTeamMember, deleteTeamReporting, Prog.post_bind, Prog.post_failIf, Prog.then_ok, Prog.then_error,
    post_checkCredentials, post_mutate_ite, post_mutate_ok, post_query, Prog.post_orFail, Option.filter_eq_some_iff,
    Table.find_eq_some, beq_iff_eq, hs, implies_true, true_and, and_true, not_not, List.mem_singleton, and_imp, Prog.post_pure]
  refine imp_congr_right fun _ => imp_congr_right fun _ => forall_congr' fun member => imp_congr_right fun hmem =>
    imp_congr_right fun hid => imp_congr_right fun hteam => ?_
  have hfind : (s.teamMember.find memberId).filter (·.teamId == teamId) = some member :=
    Option.filter_eq_some_iff.mpr ⟨Table.find_eq_some.mpr ⟨hmem, hid⟩, beq_iff_eq.mpr hteam⟩
  rw [hfind]
  simp only [Option.isNone_some, Bool.false_eq_true, not_false_eq_true, forall_const, and_comm]

/-- A staff member whom `addMembers` adds to a team. -/
structure Joins (s : Db) (orgId : String) (team : Team) (dto : AddMembersDto) (staff : Staff) : Prop where
  mem : staff ∈ s.staff
  named : staff.id ∈ dto.staffIds
  org : staff.orgId = orgId
  notMaster : staff.id ≠ team.masterManagerId
  notMember : ∀ member ∈ s.teamMember, ¬(member.teamId = team.id ∧ member.staffId = staff.id)

/-- The identifiers of the staff members whom `addMembers` adds. -/
def newStaffIds (s : Db) (io : Io) (orgId : String) (team : Team) (dto : AddMembersDto) : List String :=
  let validStaff := io.staff.rows (s.staff.filter fun staff => dto.staffIds.contains staff.id && staff.orgId == orgId)
  let filteredIds := (validStaff.map (·.id)).filter (· ≠ team.masterManagerId)
  let existingMembers := io.members.rows (s.teamMember.filter fun member =>
    member.teamId == team.id && filteredIds.contains member.staffId)
  filteredIds.filter fun id => !(existingMembers.map (·.staffId)).contains id

theorem mem_newStaffIds {team : Team} {dto : AddMembersDto} {id : String} :
    id ∈ newStaffIds s io orgId team dto ↔ ∃ staff, Joins s orgId team dto staff ∧ staff.id = id := by
  simp only [newStaffIds, List.mem_filter, List.mem_map, (io.staff.perm _).mem_iff, (io.members.perm _).mem_iff,
    Table.mem_filter, Bool.and_eq_true, beq_iff_eq, Bool.not_eq_true', List.contains_eq_mem,
    decide_eq_true_eq, decide_eq_false_iff_not]
  constructor
  · rintro ⟨⟨⟨staff, ⟨hmem, hnamed, horg⟩, rfl⟩, hmaster⟩, hold⟩
    refine ⟨staff, ⟨hmem, hnamed, horg, hmaster, fun member hmember hof => hold ?_⟩, rfl⟩
    exact ⟨member, ⟨hmember, hof.1, ⟨staff, ⟨hmem, hnamed, horg⟩, hof.2.symm⟩, hof.2 ▸ hmaster⟩, hof.2⟩
  · rintro ⟨staff, joins, rfl⟩
    refine ⟨⟨⟨staff, ⟨joins.mem, joins.named, joins.org⟩, rfl⟩, joins.notMaster⟩, ?_⟩
    rintro ⟨member, ⟨hmember, hteam, -⟩, hstaff⟩
    exact joins.notMember member hmember ⟨hteam, hstaff⟩

def newMembers (s : Db) (io : Io) (orgId : String) (team : Team) (dto : AddMembersDto) : List TeamMember :=
  (newStaffIds s io orgId team dto).map fun id => { id := io.memberId id, teamId := team.id, staffId := id }

theorem mem_newMembers {team : Team} {dto : AddMembersDto} {member : TeamMember} :
    member ∈ newMembers s io orgId team dto ↔ ∃ staff, Joins s orgId team dto staff ∧
      member = { id := io.memberId staff.id, teamId := team.id, staffId := staff.id } := by
  simp only [newMembers, List.mem_map, mem_newStaffIds]
  constructor
  · rintro ⟨_, ⟨staff, joins, rfl⟩, rfl⟩
    exact ⟨staff, joins, rfl⟩
  · rintro ⟨staff, joins, rfl⟩
    exact ⟨_, ⟨staff, joins, rfl⟩, rfl⟩

theorem createTeamMembers_post {members : List TeamMember} {Q : Except HttpException Unit → Db → Prop}
    (stored : ∀ member ∈ members, (s.team.find member.teamId).isSome ∧ (s.staff.find member.staffId).isSome) :
    (createTeamMembers members).Post Q s ↔
      Q (.ok ()) { s with teamMember := s.teamMember.insertAll members } ∧ Q (.error connectionLost) s := by
  have hall : (members.all fun member => (s.team.find member.teamId).isSome && (s.staff.find member.staffId).isSome) = true :=
    List.all_eq_true.mpr fun member hmember => Bool.and_eq_true_iff.mpr (stored member hmember)
  simp only [createTeamMembers, post_mutate, if_pos hall, Except.ok.injEq, Prod.mk.injEq, reduceCtorEq, false_implies,
    implies_true, true_and, forall_eq']
  exact and_congr_left fun _ => ⟨fun h => h (), fun h _ => h⟩

/-- The keys of a new member are free, if its identifier is. -/
theorem Joins.free {team : Team} {dto : AddMembersDto} {staff : Staff} (joins : Joins s orgId team dto staff)
    (fresh : ∀ member ∈ s.teamMember, member.id ≠ io.memberId staff.id) :
    ∀ member ∈ s.teamMember, Row.conflict member { id := io.memberId staff.id, teamId := team.id, staffId := staff.id } = false := by
  intro member hmember
  have hkey := joins.notMember member hmember
  simp only [Row.conflict, Row.id, Row.clash, Bool.or_eq_false_iff, beq_eq_false_iff_ne, Bool.and_eq_false_iff, ne_eq]
  exact ⟨fresh member hmember, not_and_or.mp hkey⟩

theorem newMembers_stored {team : Team} {dto : AddMembersDto} (hteam : team ∈ s.team) :
    ∀ member ∈ newMembers s io orgId team dto, (s.team.find member.teamId).isSome ∧ (s.staff.find member.staffId).isSome := by
  intro member hmember
  obtain ⟨staff, joins, rfl⟩ := mem_newMembers.mp hmember
  exact ⟨Option.isSome_of_eq_some (Table.find_of_mem hteam), Option.isSome_of_eq_some (Table.find_of_mem joins.mem)⟩

theorem addMembers_post {dto : AddMembersDto} (hs : P s) :
    (addMembers io orgId userId role teamId dto).Post (fun _ t => P t) s ↔
    (role = "SuperAdmin" → Credentials s orgId userId → ∀ team ∈ s.team, team.id = teamId →
      P { s with teamMember := s.teamMember.insertAll (newMembers s io orgId team dto) }) := by
  simp only [addMembers, Prog.post_bind, Prog.post_failIf, Prog.then_ok, Prog.then_error, post_checkCredentials, post_query,
    Prog.post_orFail, Table.find_eq_some, hs, implies_true, true_and, and_true, not_not, List.mem_singleton, and_imp]
  refine imp_congr_right fun _ => imp_congr_right fun _ => forall_congr' fun team => imp_congr_right fun hmem =>
    imp_congr_right fun hid => ?_
  have hid : team.id = teamId := hid
  subst hid
  change (_ → (createTeamMembers (newMembers s io orgId team dto)).Post _ s) ↔ _
  simp only [createTeamMembers_post (newMembers_stored hmem), Prog.then_ok, Prog.then_error, Prog.post_pure, hs, and_true]
  refine ⟨fun h => ?_, fun h _ => h⟩
  by_cases hnone : newMembers s io orgId team dto = []
  · rw [hnone]
    exact hs
  · refine h fun hlength => hnone ?_
    have hempty := List.length_eq_zero_iff.mp hlength
    simp only [newMembers, newStaffIds, hempty, List.filter_nil, List.map_nil]

/-- An accepted request adds the new members. -/
theorem addMembers_spec {dto : AddMembersDto} : (addMembers io orgId userId role teamId dto).Post
    (AllOrNothing s fun _ t => role = "SuperAdmin" ∧ Credentials s orgId userId ∧ ∃ team ∈ s.team, team.id = teamId ∧
      t = { s with teamMember := s.teamMember.insertAll (newMembers s io orgId team dto) }) s := by
  simp only [addMembers, Prog.post_bind, Prog.post_failIf, Prog.then_ok, Prog.then_error, post_checkCredentials, post_query,
    Prog.post_orFail, Table.find_eq_some, allOrNothing_error, implies_true, true_and, and_true, not_not, List.mem_singleton]
  rintro hrole hcredentials team ⟨hmem, rfl⟩ -
  change (createTeamMembers (newMembers s io orgId team dto)).Post _ s
  simp only [createTeamMembers_post (newMembers_stored hmem), Prog.then_ok, Prog.then_error, Prog.post_pure,
    allOrNothing_ok, allOrNothing_error, and_true]
  exact ⟨hrole, hcredentials, team, hmem, rfl, rfl⟩

end Unchecked

/-! ### The condition -/

/-- The three operations that take any team name one of the caller's organisation, or change nothing: a
    refused request, `addMembers` without a member to add, `removeMember` of no member of the team,
    `deleteTeam` of no team. -/
def Guarded (s : Db) (q : Request) : Prop :=
  match q.op with
  | .addMembers teamId dto => q.role = "SuperAdmin" → Credentials s q.orgId q.userId →
      ∀ team ∈ s.team, team.id = teamId → team.orgId ≠ q.orgId → ∀ staff, Joins s q.orgId team dto staff →
        ∃ member ∈ s.teamMember, member.id = (q.io 0).memberId staff.id
  | .removeMember teamId memberId => q.role = "SuperAdmin" → Credentials s q.orgId q.userId →
      ∀ member ∈ s.teamMember, member.id = memberId → member.teamId = teamId → ¬Foreign s q.orgId teamId ∧
        ∀ link ∈ s.teamReporting, link.teamMemberId = some memberId → ¬Foreign s q.orgId link.teamId
  | .deleteTeam teamId => q.role ∈ ["SuperAdmin", "Admin", "Root", "Staff"] → Credentials s q.orgId q.userId →
      ∀ team ∈ s.team, team.id = teamId → team.orgId = q.orgId ∧
        ∀ link ∈ s.teamReporting, reportsUnder s teamId link = true → ¬Foreign s q.orgId link.teamId
  | _ => True

section Condition
variable {s : Db} {io : Io} {orgId userId role teamId memberId : String}

theorem newMembers_within_iff {team : Team} {dto : AddMembersDto} (hteam : team ∈ s.team) :
    Within orgId s { s with teamMember := s.teamMember.insertAll (newMembers s io orgId team dto) } ↔
      (team.orgId ≠ orgId → ∀ staff, Joins s orgId team dto staff →
        ∃ member ∈ s.teamMember, member.id = io.memberId staff.id) := by
  constructor
  · intro h horg staff joins
    by_contra hnone
    have fresh : ∀ member ∈ s.teamMember, member.id ≠ io.memberId staff.id :=
      fun member hmember hid => hnone ⟨member, hmember, hid⟩
    refine Table.Same.not_insertAll (mem_newMembers.mpr ⟨staff, joins, rfl⟩) (joins.free fresh) (fun member hmember => ?_) h.member
    obtain ⟨_, -, rfl⟩ := mem_newMembers.mp hmember
    exact ⟨team, hteam, rfl, horg⟩
  · intro h
    by_cases horg : team.orgId = orgId
    · refine Within.of_member (Table.Same.insertAll fun member hmember => ?_)
      obtain ⟨_, -, rfl⟩ := mem_newMembers.mp hmember
      exact not_foreign hteam rfl horg
    · refine Within.of_member (Table.Same.of_eq (Table.insertAll_eq_self fun member hmember => ?_))
      obtain ⟨staff, joins, rfl⟩ := mem_newMembers.mp hmember
      obtain ⟨member, hmember, hid⟩ := h horg staff joins
      exact ⟨member, hmember, Table.conflict_of_id hid⟩

theorem deleteMember_within_iff {member : TeamMember} (hmember : member ∈ s.teamMember) (hid : member.id = memberId)
    (hteam : member.teamId = teamId) :
    (Within orgId s { s with
        teamMember := s.teamMember.delete (·.id == memberId)
        teamReporting := s.teamReporting.delete (·.teamMemberId == some memberId) } ∧
      Within orgId s { s with
        teamMember := s.teamMember.delete (·.id == memberId)
        teamReporting := (s.teamReporting.delete (·.teamMemberId == some memberId)).delete (involves teamId member) }) ↔
    ¬Foreign s orgId teamId ∧
      ∀ link ∈ s.teamReporting, link.teamMemberId = some memberId → ¬Foreign s orgId link.teamId := by
  constructor
  · rintro ⟨h, -⟩
    refine ⟨?_, fun link hlink hof => h.reporting.not_of_delete hlink (beq_iff_eq.mpr hof)⟩
    rw [← hteam]
    exact h.member.not_of_delete hmember (beq_iff_eq.mpr hid)
  · rintro ⟨own, links⟩
    have members : Table.Same (fun member : TeamMember => Foreign s orgId member.teamId) s.teamMember
        (s.teamMember.delete (·.id == memberId)) := Table.Same.delete fun other hother hotherId => by
      obtain rfl : other = member := Table.eq_of_id hother hmember ((beq_iff_eq.mp hotherId).trans hid.symm)
      exact hteam ▸ own
    have cascade : Table.Same (fun link : TeamReporting => Foreign s orgId link.teamId) s.teamReporting
        (s.teamReporting.delete (·.teamMemberId == some memberId)) :=
      Table.Same.delete fun link hlink hof => links link hlink (beq_iff_eq.mp hof)
    refine ⟨⟨Table.Same.refl _, members, cascade⟩, ⟨Table.Same.refl _, members, cascade.trans ?_⟩⟩
    exact Table.Same.delete fun link _ hof => involves_teamId hof ▸ own

theorem deleteTeam_within_iff {team : Team} (hteam : team ∈ s.team) (hid : team.id = teamId) :
    Within orgId s { s with
        team := s.team.delete (·.id == teamId)
        teamMember := s.teamMember.delete (·.teamId == teamId)
        teamReporting := s.teamReporting.delete (reportsUnder s teamId) } ↔
    team.orgId = orgId ∧
      ∀ link ∈ s.teamReporting, reportsUnder s teamId link = true → ¬Foreign s orgId link.teamId := by
  constructor
  · intro h
    refine ⟨not_not.mp (h.team.not_of_delete hteam (beq_iff_eq.mpr hid)), fun link hlink hof => ?_⟩
    exact h.reporting.not_of_delete hlink hof
  · rintro ⟨horg, links⟩
    refine ⟨Table.Same.delete fun other hother hotherId => ?_, Table.Same.delete fun member _ hof => ?_,
      Table.Same.delete fun link hlink hof => links link hlink hof⟩
    · obtain rfl : other = team := Table.eq_of_id hother hteam ((beq_iff_eq.mp hotherId).trans hid.symm)
      exact not_not.mpr horg
    · rw [beq_iff_eq.mp hof]
      exact not_foreign hteam hid horg

end Condition

/-- A request leaves the teams of other organisations, their members and their reporting rows alone in every
    execution, exactly if it is guarded. -/
theorem team_writes_within_tenant (s : Db) (q : Request) :
    (∀ r t, Prog.Exec q.call s r t → Within q.orgId s t) ↔ Guarded s q := by
  rw [← Prog.post_iff (Q := fun _ t => Within q.orgId s t)]
  obtain ⟨io, orgId, userId, role, op⟩ := q
  have refl := Within.refl orgId s
  cases op with
  | addTeam dto => exact iff_of_true (Prog.post_discard.mpr addTeam_within) trivial
  | editTeam teamId dto => exact iff_of_true (Prog.post_discard.mpr editTeam_within) trivial
  | addMembers teamId dto =>
    refine Prog.post_discard.trans ((addMembers_post refl).trans ?_)
    exact imp_congr_right fun _ => imp_congr_right fun _ => forall_congr' fun team => imp_congr_right fun hteam =>
      imp_congr_right fun _ => newMembers_within_iff hteam
  | removeMember teamId memberId =>
    refine Prog.post_discard.trans ((removeMember_post refl).trans ?_)
    exact imp_congr_right fun _ => imp_congr_right fun _ => forall_congr' fun member => imp_congr_right fun hmember =>
      imp_congr_right fun hid => imp_congr_right fun hteam => deleteMember_within_iff hmember hid hteam
  | setReporting teamId dto => exact iff_of_true (Prog.post_discard.mpr setReporting_within) trivial
  | setReportingBulk teamId dto => exact iff_of_true (Prog.post_discard.mpr setReportingBulk_within) trivial
  | removeReporting teamId dto => exact iff_of_true (Prog.post_discard.mpr removeReporting_within) trivial
  | deleteTeam teamId =>
    refine (deleteTeam_post refl).trans ?_
    exact imp_congr_right fun _ => imp_congr_right fun _ => forall_congr' fun team => imp_congr_right fun hteam =>
      imp_congr_right fun hid => deleteTeam_within_iff hteam hid

/-! ### Two organisations -/

namespace Rivals

def ours : Staff := { id := "ann", orgId := "org", name := "Ann", email := "ann@mail.com" }

def theirs : Staff := { id := "bob", orgId := "rival", name := "Bob", email := "bob@mail.com" }

def team : Team := { id := "team", orgId := "rival", name := "Team", masterManagerId := "bob" }

def db : Db where
  organization := ⟨[{ id := "org", name := "Org", email := "org@mail.com" },
    { id := "rival", name := "Rival", email := "rival@mail.com" }], by decide⟩
  staff := ⟨[ours, theirs], by decide⟩
  userCredential := {{ id := "ann-user", orgId := some "org", email := "ann@mail.com", role := .staff }}
  team := {team}
  teamMember := {{ id := "member", teamId := "team", staffId := "bob" }}

/-- A staff member of one organisation deletes the team of the other. -/
def dissolve : Request where
  io _ := { teamId := "", memberId := id, reportingId := id, staff := .stored, members := .stored, reporting := .stored,
            client := id }
  orgId := "org"
  userId := "ann-user"
  role := "Staff"
  op := .deleteTeam "team"

end Rivals

section Rivals
open Rivals

theorem team_deleted_across_tenants : ¬∀ r t, Prog.Exec dissolve.call db r t → Within dissolve.orgId db t := fun h => by
  have within := h _ _ (Prog.exec_run dissolve.call db)
  have kept : team ∈ (dissolve.call.run db).2.team := (within.team team (by decide)).mpr (by decide)
  exact absurd kept (by decide)

end Rivals

end Vms.TeamService
