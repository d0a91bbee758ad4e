import Vms.Theorems.Team.Reporting

/-! When the master manager of a team is a member of it. A new team gets its master manager as a member, and a
    team keeps a member in this place when it is edited; but `removeMember` takes any member away. -/

namespace Vms.TeamService
open Relational

/-- Every team is led by one of its members. -/
def Led (s : Db) : Prop := ∀ team ∈ s.team, IsMember s team.id team.masterManagerId

/-- The call removes no master manager, and draws an unused identifier for the first member of a team. -/
def KeepsMaster (s : Db) : Call → Prop
  | .team { io, op := .addTeam dto, .. } => ∀ member ∈ s.teamMember, member.id ≠ (io 0).memberId dto.masterManagerId
  | .team { orgId, userId, role, op := .removeMember teamId memberId, .. } =>
    role = "SuperAdmin" → Credentials s orgId userId → ∀ member ∈ s.teamMember, member.id = memberId →
      member.teamId = teamId → ∀ team ∈ s.team, team.id = teamId → team.masterManagerId ≠ member.staffId
  | _ => True

section Updates
variable {s t : Db} {teamId : String}

theorem IsMember.mono {staffId : String} (h : IsMember s teamId staffId)
    (members : ∀ member ∈ s.teamMember, member ∈ t.teamMember) : IsMember t teamId staffId := by
  obtain ⟨member, hmem, hof⟩ := h
  exact ⟨member, members member hmem, hof⟩

/-- The keys of a new team's first member are free. -/
theorem masterMember_free (wired : WiredTeams s) {io : Io} {team : Team} {u : Table Team} (hu : s.team.insert team = some u)
    (fresh : ∀ member ∈ s.teamMember, member.id ≠ io.memberId team.masterManagerId) :
    ∀ member ∈ s.teamMember, Row.conflict member (masterMember io team) = false := by
  intro member hmem
  obtain ⟨old, hold, holdId⟩ := wired.ofTeam member hmem
  have hother : member.teamId ≠ team.id := fun hof => Table.id_ne_of_insert hu hold (holdId.trans hof)
  have hid : member.id ≠ (masterMember io team).id := fresh member hmem
  simp only [Row.conflict, Row.id, Row.clash, masterMember, Bool.or_eq_false_iff, beq_eq_false_iff_ne, Bool.and_eq_false_iff]
  exact ⟨hid, Or.inl hother⟩

theorem Led.addTeam (h : Led s) {io : Io} {team : Team} {u : Table Team} {v : Table TeamMember}
    (hu : s.team.insert team = some u) (hv : s.teamMember.insert (masterMember io team) = some v) :
    Led { s with team := u, teamMember := v } := by
  intro other hother
  rcases (Table.mem_insert hu).mp hother with hother | rfl
  · exact (h other hother).mono fun _ hold => (Table.mem_insert hv).mpr (Or.inl hold)
  · exact ⟨masterMember io other, (Table.mem_insert hv).mpr (Or.inr rfl), rfl, rfl⟩

theorem Led.editTeam (h : Led s) {dto : EditTeamDto} (ht : Cleaned s t teamId (truthy dto.masterManagerId)) :
    Led { t with team := t.team.update (·.id == teamId) (edited dto) (edited_keys dto) } := by
  have team_eq : t.team = s.team := by rw [ht.rest]
  have members : ∀ member ∈ s.teamMember, member ∈ t.teamMember := by rw [ht.rest]; exact fun _ hmem => hmem
  intro team hteam
  change team ∈ t.team.update (·.id == teamId) (edited dto) (edited_keys dto) at hteam
  rcases Table.mem_update_cases hteam with ⟨hteam, -⟩ | ⟨old, hold, holdId, rfl⟩
  · exact (h team (team_eq ▸ hteam)).mono members
  · obtain rfl := beq_iff_eq.mp holdId
    cases hmaster : truthy dto.masterManagerId with
    | none =>
      have kept : (edited dto old).masterManagerId = old.masterManagerId := by simp only [edited, hmaster, Option.getD_none]
      rw [kept]
      exact (h old (team_eq ▸ hold)).mono members
    | some masterManagerId =>
      have given : (edited dto old).masterManagerId = masterManagerId := by simp only [edited, hmaster, Option.getD_some]
      rw [given]
      exact (ht.master masterManagerId hmaster).1.mono members

theorem Led.removeMember (h : Led s) {member : TeamMember} {links : Table TeamReporting} (hmem : member ∈ s.teamMember)
    (keeps : ∀ team ∈ s.team, team.id = member.teamId → team.masterManagerId ≠ member.staffId) :
    Led { s with teamMember := s.teamMember.delete (·.id == member.id), teamReporting := links } := by
  intro team hteam
  obtain ⟨master, hmaster, hof, hstaff⟩ := h team hteam
  refine ⟨master, Table.mem_delete.mpr ⟨hmaster, beq_eq_false_iff_ne.mpr fun hid => ?_⟩, hof, hstaff⟩
  obtain rfl : master = member := Table.eq_of_id hmaster hmem hid
  exact keeps team hteam hof.symm hstaff.symm

theorem Led.deleteTeam (h : Led s) {links : Table TeamReporting} : Led { s with
    team := s.team.delete (·.id == teamId)
    teamMember := s.teamMember.delete (·.teamId == teamId)
    teamReporting := links } := by
  intro team hteam
  obtain ⟨hteam, hother⟩ := Table.mem_delete.mp hteam
  obtain ⟨master, hmaster, hof, hstaff⟩ := h team hteam
  exact ⟨master, Table.mem_delete.mpr ⟨hmaster, hof ▸ hother⟩, hof, hstaff⟩

/-- With a master manager the team goes. -/
theorem Led.deleteStaff (h : Led s) (gone : String → Bool) : Led (s.deleteStaff gone) := by
  intro team hteam
  obtain ⟨hteam, hstays⟩ := Table.mem_delete.mp hteam
  obtain ⟨master, hmaster, hof, hstaff⟩ := h team hteam
  have hfind : s.team.find master.teamId = some team := Table.find_eq_some.mpr ⟨hteam, hof.symm⟩
  refine ⟨master, Table.mem_delete.mpr ⟨hmaster, Bool.or_eq_false_iff.mpr ⟨hstaff ▸ hstays, ?_⟩⟩, hof, hstaff⟩
  simpa only [hfind, Option.any_some] using hstays

theorem Led.deleteUser (h : Led s) (id : String) : Led (s.deleteUser id) := by
  have deleted := h.deleteStaff fun staffId => (s.staff.find staffId).any (·.userId == some id)
  exact deleted

end Updates

/-! ### Runs -/

theorem Led.request {s : Db} (h : Led s) (wired : WiredTeams s) (q : Request) (meets : KeepsMaster s (.team q)) :
    q.call.Returns (fun _ t => Led t) s := by
  obtain ⟨io, orgId, userId, role, op⟩ := q
  cases op with
  | addTeam dto =>
    refine Prog.returns_discard.mpr (returns_addTeam h (fun team u hmaster hu hnone => ?_)
      fun team u v _ hu hv => h.addTeam hu hv)
    have fresh : ∀ member ∈ s.teamMember, member.id ≠ (io 0).memberId team.masterManagerId := by
      rw [hmaster]
      exact meets
    obtain ⟨v, hv⟩ := Table.insert_of_free (masterMember_free wired hu fresh)
    rw [hv] at hnone
    cases hnone
  | editTeam teamId dto => exact Prog.returns_discard.mpr (returns_editTeam h fun t ht => h.editTeam ht)
  | addMembers teamId dto =>
    refine Prog.returns_discard.mpr (Prog.Post.returns ((addMembers_post h).mpr fun _ _ _ _ _ team hteam => ?_))
    exact (h team hteam).mono fun _ => Table.mem_insertAll_of_mem
  | removeMember teamId memberId =>
    refine Prog.returns_discard.mpr (returns_removeMember h fun member hmem hrole hcredentials hid hteam => ?_)
    subst hid hteam
    exact h.removeMember hmem (meets hrole hcredentials member hmem rfl rfl)
  | setReporting teamId dto => exact Prog.returns_discard.mpr (returns_setReporting h fun _ _ _ _ _ => h)
  | setReportingBulk teamId dto => exact Prog.returns_discard.mpr (returns_setReportingEach h fun _ _ _ _ ht _ _ _ _ => ht)
  | removeReporting teamId dto => exact Prog.returns_discard.mpr (returns_removeReporting h h)
  | deleteTeam teamId => exact Prog.Post.returns ((deleteTeam_post h).mpr fun _ _ _ _ _ => h.deleteTeam)

theorem Led.call {s : Db} (h : Led s) (wired : WiredTeams s) (c : Call) (meets : KeepsMaster s c) :
    c.call.Returns (fun _ t => Led t) s := by
  cases c with
  | team q => exact h.request wired q meets
  | deleteStaffMember orgId role staffId qOrgId => exact returns_deletion h h.deleteStaff fun ht => ht.deleteUser

/-- In a run that removes no master manager from his team, every team is led by one of its members. -/
theorem master_manager_member (s : Db) (h : teams.Reach KeepsMaster s) : Led s := by
  refine h.invariant (fun s hinit team hteam => ?_) fun s c t hr inv meets hstep => ?_
  · rw [hinit.1] at hteam
    exact absurd hteam Table.not_mem_empty
  · obtain ⟨r, ht⟩ := hstep
    exact ht.of_returns inv (inv.call (wiredTeams hr.reachable) c meets)

section Crew
open Crew

theorem master_manager_member_crew : Led (runAll db (founding ++ [request "3" (.removeMember "team" "bob")])) := by
  refine master_manager_member _ (.step (.step (.step (.init ⟨rfl, rfl, rfl⟩) (c := request "1" _) ?_ ⟨_, Prog.settles_run _ _⟩)
    (c := request "2" _) ?_ ⟨_, Prog.settles_run _ _⟩) (c := request "3" _) ?_ ⟨_, Prog.settles_run _ _⟩)
  · exact fun member hmem => absurd hmem Table.not_mem_empty
  · trivial
  · intro _ _ member hmem hid _ team hteam _
    have masters : ∀ team ∈ (runAll db founding).team, team.masterManagerId = "ann" := by decide
    have members : ∀ member ∈ (runAll db founding).teamMember, member.id = member.staffId := by decide
    rw [masters team hteam, ← members member hmem, hid]
    decide

/-- Ann is taken from the team that she is the master manager of. -/
theorem master_manager_removed : ¬∀ s, teams.Reachable s → Led s := fun h => by
  have reached : teams.Reachable (runAll db (founding ++ [request "3" (.removeMember "team" "ann")])) :=
    reach_runAll (.init ⟨rfl, rfl, rfl⟩) fun _ _ _ => trivial
  have team : { id := "team", orgId := "org", name := "Team", masterManagerId := "ann" : Team } ∈
      (runAll db (founding ++ [request "3" (.removeMember "team" "ann")])).team := by decide
  have isMember : ¬∃ member ∈ (runAll db (founding ++ [request "3" (.removeMember "team" "ann")])).teamMember,
      member.teamId = "team" ∧ member.staffId = "ann" := by decide
  exact isMember (h _ reached _ team)

end Crew

end Vms.TeamService
