import Vms.Theorems.Staff.Step
import Vms.Theorems.Team.Tenancy

/-! What one team operation, or the deletion of a staff member, does to the teams, their members and who
    reports to whom: one rule for each operation, which reduces what the operation keeps to what its effect
    keeps. -/

namespace Vms.TeamService
open Relational HttpException

/-- In the team, one staff member reports to another. -/
def Reports (s : Db) (teamId staffId managerId : String) : Prop :=
  ∃ link ∈ s.teamReporting, link.teamId = teamId ∧ link.staffId = staffId ∧ link.managerId = managerId

instance {s : Db} {teamId staffId managerId : String} : Decidable (Reports s teamId staffId managerId) :=
  inferInstanceAs (Decidable (∃ link ∈ s.teamReporting, _))

/-- The staff member is a member of the team. -/
def IsMember (s : Db) (teamId staffId : String) : Prop :=
  ∃ member ∈ s.teamMember, member.teamId = teamId ∧ member.staffId = staffId

section Rules
variable {s : Db} {io : Io} {orgId userId role teamId memberId : String} {Q : Db → Prop}

theorem findMember_eq_some {staffId : String} {member : TeamMember} :
    s.teamMember.findBy (fun member => member.teamId == teamId && member.staffId == staffId) = some member ↔
      member ∈ s.teamMember ∧ member.teamId = teamId ∧ member.staffId = staffId := by
  rw [Table.findBy_eq_some fun a b ha hb => ?_, Bool.and_eq_true, beq_iff_eq, beq_iff_eq]
  simp only [Bool.and_eq_true, beq_iff_eq] at ha hb
  simp [Row.clash, ha, hb]

/-! ### Teams and members -/

/-- The member row of a team's master manager. -/
def masterMember (io : Io) (team : Team) : TeamMember :=
  { id := io.memberId team.masterManagerId, teamId := team.id, staffId := team.masterManagerId }

/-- A team is created, and its master manager becomes a member unless the keys of that row are taken. -/
theorem returns_addTeam {dto : CreateTeamDto} (hs : Q s)
    (alone : ∀ team u, team.masterManagerId = dto.masterManagerId → s.team.insert team = some u →
      s.teamMember.insert (masterMember io team) = none → Q { s with team := u })
    (led : ∀ team u v, team.masterManagerId = dto.masterManagerId → s.team.insert team = some u →
      s.teamMember.insert (masterMember io team) = some v → Q { s with team := u, teamMember := v }) :
    (addTeam io orgId userId role dto).Returns (fun _ t => Q t) s := by
  simp only [addTeam, createTeam, createTeamMember, Prog.returns_bind, Prog.returns_failIf, Prog.then_ok, Prog.then_error,
    returns_checkCredentials, returns_query, Prog.returns_orFail, returns_mutate, created_eq_ok, Prog.returns_pure, hs,
    implies_true, true_and, Option.filter_eq_some_iff, Table.find_eq_some]
  rintro - - masterManager ⟨⟨hmem, hid⟩, -⟩ _ t ⟨-, rfl, u, hu, rfl⟩
  have stored : (u.find io.teamId).isSome = true :=
    Option.isSome_of_eq_some (Table.find_of_mem ((Table.mem_insert hu).mpr (Or.inr rfl)))
  have present : (s.staff.find dto.masterManagerId).isSome = true :=
    Option.isSome_of_eq_some (Table.find_eq_some.mpr ⟨hmem, hid⟩)
  constructor
  · intro e he
    rcases created_eq_error he with hfalse | hnone
    · rw [stored, present] at hfalse
      cases hfalse
    · exact alone _ u rfl hu hnone
  · rintro _ t ⟨-, -, v, hv, rfl⟩
    exact led _ u v rfl hu hv

/-- What the clean-up of `editTeam` leaves for a new master manager: the rows but those of the new one. -/
structure Cleaned (s t : Db) (teamId : String) (masterManagerId : Option String) : Prop where
  rest : t = { s with teamReporting := t.teamReporting }
  links : ∀ link ∈ t.teamReporting, link ∈ s.teamReporting
  master : ∀ id, masterManagerId = some id →
    IsMember s teamId id ∧ ∀ link ∈ t.teamReporting, link.teamId = teamId → link.staffId ≠ id

theorem Cleaned.delete {t : Db} {masterManagerId : Option String} (h : Cleaned s t teamId masterManagerId)
    (p : TeamReporting → Bool) : Cleaned s { t with teamReporting := t.teamReporting.delete p } teamId masterManagerId where
  rest := by rw [h.rest]
  links link hlink := h.links link (Table.mem_delete.mp hlink).1
  master id hid := ⟨(h.master id hid).1, fun link hlink => (h.master id hid).2 link (Table.mem_delete.mp hlink).1⟩

theorem returns_cleanUpNewManager {masterManagerId : Option String} {Q : Except HttpException Unit → Db → Prop}
    (fails : ∀ e, Q (.error e) s) (cleaned : ∀ t, (∀ id, masterManagerId = some id → ∃ staff ∈ s.staff, staff.id = id ∧
      staff.orgId = orgId) → Cleaned s t teamId masterManagerId → Q (.ok ()) t) :
    (cleanUpNewManager orgId teamId masterManagerId).Returns Q s := by
  cases masterManagerId with
  | none => exact cleaned s (fun _ h => by cases h) ⟨rfl, fun _ h => h, fun _ h => by cases h⟩
  | some masterManagerId =>
    simp only [cleanUpNewManager, findMember, deleteTeamReporting, Prog.returns_bind, Prog.then_ok, Prog.then_error,
      returns_query, Prog.returns_orFail, fails, implies_true, true_and, findMember_eq_some, returns_mutate,
      Except.ok.injEq, Prod.mk.injEq, reduceCtorEq, Option.filter_eq_some_iff, Table.find_eq_some, beq_iff_eq]
    rintro manager ⟨⟨hmanager, hid⟩, horg⟩ newManager ⟨hmem, hteam, hstaff⟩ _ t ⟨-, rfl⟩
    refine cleaned _ (fun id hgiven => ⟨manager, hmanager, hid.trans (Option.some.inj hgiven), horg⟩)
      ⟨rfl, fun link hlink => (Table.mem_delete.mp hlink).1, fun id hgiven => ?_⟩
    obtain rfl := Option.some.inj hgiven
    refine ⟨⟨newManager, hmem, hteam, hstaff⟩, fun link hlink hlinkTeam hlinkStaff => ?_⟩
    have hkept := (Table.mem_delete.mp hlink).2
    simp [involves, hlinkTeam, hlinkStaff, hstaff] at hkept

theorem returns_cleanUpOldManager {t : Db} {team : Team} {given masterManagerId : Option String}
    {Q : Except HttpException Unit → Db → Prop} (h : Cleaned s t teamId masterManagerId)
    (cleaned : ∀ u, Cleaned s u teamId masterManagerId → Q (.ok ()) u) :
    (cleanUpOldManager team teamId given).Returns Q t := by
  unfold cleanUpOldManager
  split
  · simp only [findMember, Prog.returns_bind, Prog.then_ok, returns_query]
    split
    · exact cleaned t h
    · simp only [deleteTeamReporting, returns_mutate, Except.ok.injEq, Prod.mk.injEq, reduceCtorEq, false_implies,
        implies_true, true_and]
      rintro _ u ⟨-, rfl⟩
      exact cleaned _ (h.delete _)
  · exact cleaned t h

/-- The update of a team. -/
def edited (dto : EditTeamDto) (team : Team) : Team :=
  { team with
    name := (truthy dto.name).getD team.name
    masterManagerId := (truthy dto.masterManagerId).getD team.masterManagerId }

theorem edited_keys (dto : EditTeamDto) : Row.Fixes (edited dto) := ⟨fun _ => rfl, fun _ _ => rfl⟩

/-- A team of the organisation is edited, with a new master manager from the organisation. -/
theorem editTeam_post {dto : EditTeamDto} : (editTeam orgId userId role teamId dto).Post
    (AllOrNothing s fun _ t => ∃ team u, (team ∈ s.team ∧ team.id = teamId ∧ team.orgId = orgId) ∧
      (∀ id, truthy dto.masterManagerId = some id → ∃ staff ∈ s.staff, staff.id = id ∧ staff.orgId = orgId) ∧
      Cleaned s u teamId (truthy dto.masterManagerId) ∧
      t = { u with team := u.team.update (·.id == teamId) (edited dto) (edited_keys dto) }) s := by
  simp only [editTeam, Prog.post_bind, Prog.post_failIf, Prog.then_ok, Prog.then_error, allOrNothing_error, implies_true,
    true_and]
  rintro -
  refine findTeam_spec (fun _ => rfl) fun _ team hteam hid horg => ?_
  simp only [Prog.then_ok, Prog.post_bind, post_transaction, Prog.then_error, allOrNothing_error, and_true, Prog.returns_bind]
  refine returns_cleanUpNewManager (fun _ => rfl) fun t hmanager ht => ?_
  simp only [Prog.then_ok, Prog.returns_bind]
  refine returns_cleanUpOldManager ht fun u hu => ?_
  simp only [Prog.then_ok, updateTeam, returns_mutate]
  constructor
  · exact fun _ _ => rfl
  · intro _ v hv
    split at hv
    · cases hv
    · split at hv
      · obtain ⟨-, rfl⟩ := Prod.mk.inj (Except.ok.inj hv)
        exact ⟨team, u, ⟨hteam, hid, horg⟩, hmanager, hu, rfl⟩
      · cases hv

theorem returns_editTeam {dto : EditTeamDto} (hs : Q s)
    (done : ∀ t, Cleaned s t teamId (truthy dto.masterManagerId) →
      Q { t with team := t.team.update (·.id == teamId) (edited dto) (edited_keys dto) }) :
    (editTeam orgId userId role teamId dto).Returns (fun _ t => Q t) s := by
  refine (Post.state_of_allOrNothing editTeam_post hs fun _ t ht => ?_).returns
  obtain ⟨team, u, -, -, hu, rfl⟩ := ht
  exact done u hu

theorem returns_removeMember (hs : Q s)
    (removed : ∀ member ∈ s.teamMember, role = "SuperAdmin" → Credentials s orgId userId → member.id = memberId →
      member.teamId = teamId → Q { s with
        teamMember := s.teamMember.delete (·.id == memberId)
        teamReporting := (s.teamReporting.delete (·.teamMemberId == some memberId)).delete (involves teamId member) }) :
    (removeMember orgId userId role teamId memberId).Returns (fun _ t => Q t) s := by
  simp only [removeMember, deleteTeamMember, deleteTeamReporting, Prog.returns_bind, Prog.returns_failIf, Prog.then_ok,
    Prog.then_error, returns_checkCredentials, returns_query, Prog.returns_orFail, returns_mutate, Prog.returns_pure,
    Option.filter_eq_some_iff, Table.find_eq_some, beq_iff_eq, hs, implies_true, true_and, not_not, List.mem_singleton]
  rintro hrole hcredentials member ⟨⟨hmem, hid⟩, hteam⟩ _ t ht
  split at ht
  · cases ht
  · obtain ⟨-, rfl⟩ := Prod.mk.inj (Except.ok.inj ht)
    constructor
    · intro _ he
      cases he
    · intro _ u hu
      obtain ⟨-, rfl⟩ := Prod.mk.inj (Except.ok.inj hu)
      exact removed member hmem hrole hcredentials hid hteam

/-! ### Reporting -/

/-- `setReporting` passes its checks for a staff member and managers. -/
structure MaySetReporting (s : Db) (orgId userId role teamId staffId : String) (managerIds : List String) : Prop where
  superAdmin : role = "SuperAdmin"
  credentials : Credentials s orgId userId
  team : ∃ team ∈ s.team, team.id = teamId ∧ team.orgId = orgId ∧ team.masterManagerId ≠ staffId
  member : IsMember s teamId staffId
  notSelf : staffId ∉ managerIds
  managers : ∀ managerId ∈ managerIds, IsMember s teamId managerId
  distinct : managerIds.Nodup
  noReverse : ∀ managerId ∈ managerIds, ¬Reports s teamId staffId managerId → ¬Reports s teamId managerId staffId

/-- The rows that `setReporting` adds for a staff member: one for each manager who is new. -/
structure NewLinks (s : Db) (teamId : String) (managerIds : List String) (member : TeamMember)
    (links : List TeamReporting) : Prop where
  mem : member ∈ s.teamMember
  team : member.teamId = teamId
  each : ∀ link ∈ links, link.teamId = teamId ∧ link.staffId = member.staffId ∧ link.managerId ∈ managerIds ∧
    link.teamMemberId = some member.id ∧ ¬Reports s teamId member.staffId link.managerId
  distinct : links.Pairwise fun a b => a.managerId ≠ b.managerId

/-- The staff members of the list who are members of the team, as `setReporting` finds them. -/
def validManagers (s : Db) (io : Io) (teamId : String) (managerIds : List String) : List String :=
  (io.members.rows (s.teamMember.filter fun member =>
    member.teamId == teamId && managerIds.contains member.staffId)).map (·.staffId)

theorem mem_validManagers {managerIds : List String} {id : String} :
    id ∈ validManagers s io teamId managerIds ↔ id ∈ managerIds ∧ IsMember s teamId id := by
  simp only [validManagers, List.mem_map, (io.members.perm _).mem_iff, Table.mem_filter, Bool.and_eq_true, beq_iff_eq,
    List.contains_eq_mem, decide_eq_true_eq]
  constructor
  · rintro ⟨member, ⟨hmem, hteam, hnamed⟩, rfl⟩
    exact ⟨hnamed, member, hmem, hteam, rfl⟩
  · rintro ⟨hnamed, member, hmem, hteam, rfl⟩
    exact ⟨member, ⟨hmem, hteam, hnamed⟩, rfl⟩

theorem nodup_validManagers {managerIds : List String} : (validManagers s io teamId managerIds).Nodup := by
  refine List.Nodup.map_on (fun a ha b hb hstaff => ?_) ((io.members.perm _).nodup_iff.mpr s.teamMember.nodup_filter)
  simp only [(io.members.perm _).mem_iff, Table.mem_filter, Bool.and_eq_true, beq_iff_eq] at ha hb
  refine Table.eq_of_clash ha.1 hb.1 ?_
  simp [Row.clash, ha.2.1, hb.2.1, hstaff]

/-- As many members as names: every name is that of a member, and is given once. -/
theorem validManagers_of_length {managerIds : List String}
    (h : (validManagers s io teamId managerIds).length = managerIds.length) :
    managerIds.Nodup ∧ ∀ id ∈ managerIds, IsMember s teamId id := by
  have hsub : validManagers s io teamId managerIds ⊆ managerIds := fun id hid => (mem_validManagers.mp hid).1
  have hperm := (List.subperm_of_subset nodup_validManagers hsub).perm_of_length_le h.ge
  exact ⟨hperm.nodup_iff.mp nodup_validManagers, fun id hid => (mem_validManagers.mp (hperm.mem_iff.mpr hid)).2⟩

/-- Those of them to whom the staff member does not report yet. -/
def newManagers (s : Db) (io : Io) (teamId staffId : String) (managerIds : List String) : List String :=
  (validManagers s io teamId managerIds).filter fun id => !((io.reporting.rows (s.teamReporting.filter fun link =>
    link.teamId == teamId && link.staffId == staffId &&
      (validManagers s io teamId managerIds).contains link.managerId)).map (·.managerId)).contains id

theorem mem_newManagers {staffId id : String} {managerIds : List String} (members : ∀ id ∈ managerIds, IsMember s teamId id) :
    id ∈ newManagers s io teamId staffId managerIds ↔ id ∈ managerIds ∧ ¬Reports s teamId staffId id := by
  simp only [newManagers, List.mem_filter, mem_validManagers, Bool.not_eq_true', List.contains_eq_mem, decide_eq_false_iff_not,
    List.mem_map, (io.reporting.perm _).mem_iff, Table.mem_filter, Bool.and_eq_true, beq_iff_eq, decide_eq_true_eq]
  constructor
  · rintro ⟨⟨hnamed, hmember⟩, hold⟩
    refine ⟨hnamed, ?_⟩
    rintro ⟨link, hlink, hlinkTeam, hlinkStaff, hlinkManager⟩
    have hheld : link.teamId = teamId ∧ link.staffId = staffId := ⟨hlinkTeam, hlinkStaff⟩
    exact hold ⟨link, ⟨hlink, hheld, hlinkManager ▸ hnamed, hlinkManager ▸ hmember⟩, hlinkManager⟩
  · rintro ⟨hnamed, hfresh⟩
    refine ⟨⟨hnamed, members id hnamed⟩, ?_⟩
    rintro ⟨link, ⟨hlink, ⟨hlinkTeam, hlinkStaff⟩, -⟩, hlinkManager⟩
    exact hfresh ⟨link, hlink, hlinkTeam, hlinkStaff, hlinkManager⟩

theorem nodup_newManagers {staffId : String} {managerIds : List String} : (newManagers s io teamId staffId managerIds).Nodup :=
  nodup_validManagers.filter _

/-- The rows that `setReporting` adds for new managers. -/
def linksTo (io : Io) (teamId staffId teamMemberId : String) (newManagerIds : List String) : List TeamReporting :=
  newManagerIds.map fun managerId =>
    { id := io.reportingId managerId, teamId, staffId, managerId, teamMemberId := some teamMemberId }

theorem post_assignManagers {staffId teamMemberId : String} {newManagerIds : List String}
    {Q : Except HttpException SetReportingReply → Db → Prop} (fails : ∀ e, Q (.error e) s)
    (assigned : (∀ id ∈ newManagerIds, ¬Reports s teamId id staffId) → Q (.ok ⟨newManagerIds.length, 0⟩)
      { s with teamReporting := s.teamReporting.insertAll (linksTo io teamId staffId teamMemberId newManagerIds) }) :
    (assignManagers io teamId staffId teamMemberId newManagerIds).Post Q s := by
  simp only [assignManagers, createTeamReporting, Prog.post_bind, Prog.post_failIf, Prog.then_ok, Prog.then_error,
    post_query, post_mutate, Prog.post_pure, fails, implies_true, true_and, and_true]
  intro hreverse _ t ht
  split at ht
  swap
  · cases ht
  obtain ⟨-, rfl⟩ := Prod.mk.inj (Except.ok.inj ht)
  refine assigned fun id hid => ?_
  rintro ⟨link, hlink, hlinkTeam, hlinkStaff, hlinkManager⟩
  refine hreverse (List.length_pos_of_mem (a := link) (Table.mem_filter.mpr ⟨hlink, ?_⟩))
  simp only [Bool.and_eq_true, beq_iff_eq, List.contains_iff_mem]
  exact ⟨⟨hlinkTeam, hlinkStaff ▸ hid⟩, hlinkManager⟩

/-- `setReporting` is refused and changes nothing, or finds every manager assigned, or adds rows. -/
theorem post_setReporting {dto : SetReportingDto} {Q : Except HttpException SetReportingReply → Db → Prop}
    (fails : ∀ e, Q (.error e) s) (nothing : ∀ skipped, Q (.ok ⟨0, skipped⟩) s)
    (assigned : ∀ member newManagerIds, MaySetReporting s orgId userId role teamId dto.staffId dto.managerIds →
      member.staffId = dto.staffId → newManagerIds ≠ [] →
      NewLinks s teamId dto.managerIds member (linksTo io teamId dto.staffId member.id newManagerIds) →
      Q (.ok ⟨newManagerIds.length, 0⟩)
        { s with teamReporting := s.teamReporting.insertAll (linksTo io teamId dto.staffId member.id newManagerIds) }) :
    (setReporting io orgId userId role teamId dto).Post Q s := by
  simp only [setReporting, Prog.post_bind, Prog.post_failIf, Prog.then_ok, Prog.then_error, fails, implies_true,
    true_and, not_not]
  intro hrole
  refine findTeam_spec (fun _ => fails _) fun hcredentials team hteam hid horg => ?_
  simp only [findMember, Prog.then_ok, Prog.post_bind, Prog.post_failIf, Prog.then_error, post_query,
    Prog.post_orFail, fails, implies_true, true_and, and_true, findMember_eq_some, not_not]
  rintro member ⟨hmem, hmemTeam, hstaff⟩ hself hmaster hlength
  change (validManagers s io teamId dto.managerIds).length = dto.managerIds.length at hlength
  obtain ⟨hdistinct, hmanagers⟩ := validManagers_of_length hlength
  change (ite ((newManagers s io teamId dto.staffId dto.managerIds).length = 0) _
    (assignManagers io teamId dto.staffId member.id (newManagers s io teamId dto.staffId dto.managerIds)) :
      Service SetReportingReply).Post _ s
  split
  · exact nothing _
  · rename_i hsome
    refine post_assignManagers fails fun hnoReverse => ?_
    have may : MaySetReporting s orgId userId role teamId dto.staffId dto.managerIds := by
      refine ⟨hrole, hcredentials, ⟨team, hteam, hid, horg, hmaster⟩, ⟨member, hmem, hmemTeam, hstaff⟩, hself, hmanagers,
        hdistinct, fun id hnamed hfresh => ?_⟩
      exact hnoReverse id ((mem_newManagers hmanagers).mpr ⟨hnamed, hfresh⟩)
    refine assigned member _ may hstaff (fun hnil => hsome (by rw [hnil]; rfl))
      ⟨hmem, hmemTeam, fun link hlink => ?_, List.pairwise_map.mpr nodup_newManagers⟩
    obtain ⟨id, hmemId, rfl⟩ := List.mem_map.mp hlink
    obtain ⟨hnamed, hfresh⟩ := (mem_newManagers hmanagers).mp hmemId
    exact ⟨rfl, hstaff.symm, hnamed, rfl, hstaff ▸ hfresh⟩

theorem returns_setReporting {dto : SetReportingDto} (hs : Q s)
    (assigned : ∀ member links, MaySetReporting s orgId userId role teamId dto.staffId dto.managerIds →
      member.staffId = dto.staffId → NewLinks s teamId dto.managerIds member links →
      Q { s with teamReporting := s.teamReporting.insertAll links }) :
    (setReporting io orgId userId role teamId dto).Returns (fun _ t => Q t) s :=
  (post_setReporting (fun _ => hs) (fun _ => hs) fun member _ may hstaff _ new => assigned member _ may hstaff new).returns

/-- The loop is an induction on the staff members that are left: every pass starts from a state that has the
    property. -/
theorem returns_setReportingEach {io : Nat → Io} {managerIds staffIds : List String} {i : Nat} {summary : Summary} (hs : Q s)
    (assigned : ∀ t staffId member links, Q t → staffId ∈ staffIds →
      MaySetReporting t orgId userId role teamId staffId managerIds → member.staffId = staffId →
      NewLinks t teamId managerIds member links → Q { t with teamReporting := t.teamReporting.insertAll links }) :
    (setReportingEach io orgId userId role teamId managerIds staffIds i summary).Returns (fun _ t => Q t) s := by
  induction staffIds generalizing i summary s with
  | nil => exact hs
  | cons staffId staffIds ih =>
    have pass : (do
        let result ← setReporting (io i) orgId userId role teamId { staffId, managerIds }
        return summary.add result : Service Summary).Returns (fun _ t => Q t) s :=
      Prog.Returns.bind_state (returns_setReporting hs fun member links => assigned s staffId member links hs List.mem_cons_self)
        fun _ _ ht => ht
    refine Prog.Returns.bind_state (Prog.Returns.orElse_state pass fun _ _ ht => ht) fun _ t ht => ih ht ?_
    exact fun u staffId member links hu hmem => assigned u staffId member links hu (List.mem_cons_of_mem _ hmem)

theorem returns_removeReporting {dto : RemoveReportingDto} (hs : Q s)
    (removed : Q { s with teamReporting := s.teamReporting.delete fun link =>
      link.teamId == teamId && link.staffId == dto.staffId && link.managerId == dto.managerId }) :
    (removeReporting io orgId userId role teamId dto).Returns (fun _ t => Q t) s := by
  simp only [removeReporting, findMember, deleteTeamReporting, Prog.returns_bind, Prog.returns_failIf, Prog.then_ok,
    Prog.then_error, returns_checkCredentials, returns_query, Prog.returns_orFail, returns_mutate, Prog.returns_pure, hs,
    implies_true, true_and, Except.ok.injEq, Prod.mk.injEq, reduceCtorEq]
  rintro - - _ - _ - _ - _ - _ t ⟨-, rfl⟩
  exact removed

end Rules

/-! ### Runs -/

/-- A request to the team service, or the deletion of a staff member. -/
inductive Call where
  | team (q : Request)
  | deleteStaffMember (orgId : Option String) (role staffId : String) (qOrgId : Option String)

def Call.call : Call → Service Unit
  | .team q => q.call
  | .deleteStaffMember orgId role staffId qOrgId => do let _ ← StaffService.deleteStaffMember orgId role staffId qOrgId

/-- One call after another, on a store that holds no team at first. -/
def teams : System Db Call where
  init s := s.team = ∅ ∧ s.teamMember = ∅ ∧ s.teamReporting = ∅
  step s c t := ∃ r, c.call.Settles s r t

/-- A deletion of a staff member, with or without a credential. -/
theorem returns_deletion {P : Db → Prop} {s : Db} {orgId qOrgId : Option String} {role staffId : String} (hs : P s)
    (staff : ∀ gone, P (s.deleteStaff gone)) (user : ∀ {t}, P t → ∀ userId, P (t.deleteUser userId)) :
    (Call.deleteStaffMember orgId role staffId qOrgId).call.Returns (fun _ t => P t) s := by
  refine Prog.returns_discard.mpr (StaffService.returns_deleteStaffMember hs (fun _ _ _ => staff _) fun _ userId _ _ => ?_)
  exact user (staff _) userId

end Vms.TeamService
