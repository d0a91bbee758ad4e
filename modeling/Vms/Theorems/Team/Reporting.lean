import Vms.Theorems.Team.Step

/-! Who reports to whom is well formed in every team: reportee and manager are members, nobody reports to
    himself, two members do not report to each other, no pair is stored twice, and the master manager reports
    to nobody. The table itself has no constraint that says so. -/

namespace Vms.TeamService
open Relational

/-- The reporting rows of each team are well formed. -/
structure Wired (s : Db) : Prop where
  /-- The row hangs on the reportee's own membership. -/
  reportee : ∀ link ∈ s.teamReporting, ∃ member ∈ s.teamMember, member.teamId = link.teamId ∧
    member.staffId = link.staffId ∧ link.teamMemberId = some member.id
  manager : ∀ link ∈ s.teamReporting, IsMember s link.teamId link.managerId
  notSelf : ∀ link ∈ s.teamReporting, link.staffId ≠ link.managerId
  noReverse : ∀ a ∈ s.teamReporting, ∀ b ∈ s.teamReporting, a.teamId = b.teamId →
    ¬(b.staffId = a.managerId ∧ b.managerId = a.staffId)
  single : ∀ a ∈ s.teamReporting, ∀ b ∈ s.teamReporting, a.teamId = b.teamId → a.staffId = b.staffId →
    a.managerId = b.managerId → a = b
  notMaster : ∀ link ∈ s.teamReporting, ∀ team ∈ s.team, team.id = link.teamId → link.staffId ≠ team.masterManagerId

/-- Well-formed reporting rows, and no member without a team. -/
structure WiredTeams (s : Db) : Prop extends Wired s where
  ofTeam : ∀ member ∈ s.teamMember, ∃ team ∈ s.team, team.id = member.teamId

section Updates
variable {s t : Db} {teamId : String}

/-- Rows may go as long as the members that the others name stay, and no reportee becomes master manager. -/
theorem WiredTeams.shrink (h : WiredTeams s) (links : ∀ link ∈ t.teamReporting, link ∈ s.teamReporting)
    (members : ∀ link ∈ t.teamReporting, ∀ member ∈ s.teamMember, member.teamId = link.teamId →
      member.staffId = link.staffId ∨ member.staffId = link.managerId → member ∈ t.teamMember)
    (notMaster : ∀ link ∈ t.teamReporting, ∀ team ∈ t.team, team.id = link.teamId → link.staffId ≠ team.masterManagerId)
    (ofTeam : ∀ member ∈ t.teamMember, ∃ team ∈ t.team, team.id = member.teamId) : WiredTeams t where
  reportee link hlink := by
    obtain ⟨member, hmem, hteam, hstaff, hid⟩ := h.reportee link (links link hlink)
    exact ⟨member, members link hlink member hmem hteam (Or.inl hstaff), hteam, hstaff, hid⟩
  manager link hlink := by
    obtain ⟨member, hmem, hteam, hstaff⟩ := h.manager link (links link hlink)
    exact ⟨member, members link hlink member hmem hteam (Or.inr hstaff), hteam, hstaff⟩
  notSelf link hlink := h.notSelf link (links link hlink)
  noReverse a ha b hb := h.noReverse a (links a ha) b (links b hb)
  single a ha b hb := h.single a (links a ha) b (links b hb)
  notMaster := notMaster
  ofTeam := ofTeam

/-- A new team has no reporting rows. -/
theorem WiredTeams.addTeam (h : WiredTeams s) {team : Team} {u : Table Team} (hu : s.team.insert team = some u) :
    WiredTeams { s with team := u } := by
  refine h.shrink (fun _ h => h) (fun _ _ _ h _ _ => h) (fun link hlink other hother hid => ?_) fun member hmem => ?_
  · rcases (Table.mem_insert hu).mp hother with hother | rfl
    · exact h.notMaster link hlink other hother hid
    · obtain ⟨member, hmem, hteam, -⟩ := h.reportee link hlink
      obtain ⟨old, hold, holdId⟩ := h.ofTeam member hmem
      exact absurd (holdId.trans (hteam.trans hid.symm)) (Table.id_ne_of_insert hu hold)
  · obtain ⟨old, hold, holdId⟩ := h.ofTeam member hmem
    exact ⟨old, (Table.mem_insert hu).mpr (Or.inl hold), holdId⟩

/-- Members may join. -/
theorem WiredTeams.addMembers (h : WiredTeams s) {v : Table TeamMember} (old : ∀ member ∈ s.teamMember, member ∈ v)
    (new : ∀ member ∈ v, member ∈ s.teamMember ∨ ∃ team ∈ s.team, team.id = member.teamId) :
    WiredTeams { s with teamMember := v } := by
  refine h.shrink (fun _ h => h) (fun _ _ member hmem _ _ => old member hmem) h.notMaster fun member hmem => ?_
  rcases new member hmem with hmem | hteam
  · exact h.ofTeam member hmem
  · exact hteam

theorem WiredTeams.editTeam (h : WiredTeams s) {dto : EditTeamDto} (ht : Cleaned s t teamId (truthy dto.masterManagerId)) :
    WiredTeams { t with team := t.team.update (·.id == teamId) (edited dto) (edited_keys dto) } := by
  have team_eq : t.team = s.team := by rw [ht.rest]
  have member_eq : t.teamMember = s.teamMember := by rw [ht.rest]
  refine h.shrink ht.links (fun _ _ member hmem _ _ => member_eq ▸ hmem) (fun link hlink team hteam hid => ?_)
    fun member hmem => ?_
  · change team ∈ t.team.update (·.id == teamId) (edited dto) (edited_keys dto) at hteam
    rcases Table.mem_update_cases hteam with ⟨hteam, -⟩ | ⟨old, hold, holdId, rfl⟩
    · exact h.notMaster link (ht.links link hlink) team (team_eq ▸ hteam) hid
    · cases hmaster : truthy dto.masterManagerId with
      | none =>
        have kept : (edited dto old).masterManagerId = old.masterManagerId := by simp only [edited, hmaster, Option.getD_none]
        rw [kept]
        exact h.notMaster link (ht.links link hlink) old (team_eq ▸ hold) hid
      | some masterManagerId =>
        have given : (edited dto old).masterManagerId = masterManagerId := by simp only [edited, hmaster, Option.getD_some]
        rw [given]
        exact (ht.master masterManagerId hmaster).2 link hlink (hid.symm.trans (beq_iff_eq.mp holdId))
  · obtain ⟨team, hteam, hid⟩ := h.ofTeam member (member_eq ▸ hmem)
    cases hof : team.id == teamId
    · have kept : team ∈ t.team.update (·.id == teamId) (edited dto) (edited_keys dto) :=
        Table.mem_update_of_not (team_eq ▸ hteam) hof
      exact ⟨team, kept, hid⟩
    · have changed : edited dto team ∈ t.team.update (·.id == teamId) (edited dto) (edited_keys dto) :=
        Table.mem_update_of_mem (team_eq ▸ hteam) hof
      exact ⟨edited dto team, changed, hid⟩

/-- The rows of a member go with the membership, as reportee and as manager. -/
theorem WiredTeams.removeMember (h : WiredTeams s) {member : TeamMember} (hmem : member ∈ s.teamMember)
    (hteam : member.teamId = teamId) : WiredTeams { s with
      teamMember := s.teamMember.delete (·.id == member.id)
      teamReporting := (s.teamReporting.delete (·.teamMemberId == some member.id)).delete (involves teamId member) } := by
  have kept : ∀ link ∈ (s.teamReporting.delete (·.teamMemberId == some member.id)).delete (involves teamId member),
      link ∈ s.teamReporting ∧ involves teamId member link = false := by
    intro link hlink
    obtain ⟨hlink, hnot⟩ := Table.mem_delete.mp hlink
    exact ⟨(Table.mem_delete.mp hlink).1, hnot⟩
  refine h.shrink (fun link hlink => (kept link hlink).1) (fun link hlink other hother hof hnamed => ?_)
    (fun link hlink => h.notMaster link (kept link hlink).1) fun other hother => h.ofTeam other (Table.mem_delete.mp hother).1
  refine Table.mem_delete.mpr ⟨hother, beq_eq_false_iff_ne.mpr fun hid => ?_⟩
  obtain rfl : other = member := Table.eq_of_id hother hmem hid
  have hnot := (kept link hlink).2
  rcases hnamed with hnamed | hnamed <;> simp [involves, ← hof, hteam, hnamed] at hnot

theorem WiredTeams.removeReporting (h : WiredTeams s) (p : TeamReporting → Bool) :
    WiredTeams { s with teamReporting := s.teamReporting.delete p } := by
  have kept : ∀ link ∈ s.teamReporting.delete p, link ∈ s.teamReporting := fun _ hlink => (Table.mem_delete.mp hlink).1
  exact h.shrink kept (fun _ _ _ hmem _ _ => hmem) (fun link hlink => h.notMaster link (kept link hlink)) h.ofTeam

theorem WiredTeams.deleteTeam (h : WiredTeams s) : WiredTeams { s with
    team := s.team.delete (·.id == teamId)
    teamMember := s.teamMember.delete (·.teamId == teamId)
    teamReporting := s.teamReporting.delete (reportsUnder s teamId) } := by
  have kept : ∀ link ∈ s.teamReporting.delete (reportsUnder s teamId), link ∈ s.teamReporting ∧ link.teamId ≠ teamId := by
    intro link hlink
    obtain ⟨hlink, hnot⟩ := Table.mem_delete.mp hlink
    simp only [reportsUnder, Bool.or_eq_false_iff, beq_eq_false_iff_ne] at hnot
    exact ⟨hlink, hnot.1⟩
  refine h.shrink (fun link hlink => (kept link hlink).1) (fun link hlink member hmem hof _ => ?_)
    (fun link hlink team hteam => h.notMaster link (kept link hlink).1 team (Table.mem_delete.mp hteam).1)
    fun member hmem => ?_
  · exact Table.mem_delete.mpr ⟨hmem, beq_eq_false_iff_ne.mpr (hof ▸ (kept link hlink).2)⟩
  · obtain ⟨hmem, hnot⟩ := Table.mem_delete.mp hmem
    obtain ⟨team, hteam, hid⟩ := h.ofTeam member hmem
    exact ⟨team, Table.mem_delete.mpr ⟨hteam, hid ▸ hnot⟩, hid⟩

/-- Staff members go with their memberships, their teams, and every row that names either. -/
theorem WiredTeams.deleteStaff (h : WiredTeams s) (gone : String → Bool) : WiredTeams (s.deleteStaff gone) := by
  have kept : ∀ link ∈ (s.deleteStaff gone).teamReporting, link ∈ s.teamReporting ∧ gone link.staffId = false ∧
      gone link.managerId = false ∧ (s.team.find link.teamId).any (gone ·.masterManagerId) = false := by
    intro link hlink
    obtain ⟨hlink, hnot⟩ := Table.mem_delete.mp hlink
    simp only [Bool.or_eq_false_iff] at hnot
    exact ⟨hlink, hnot.1.1.1, hnot.1.1.2, hnot.1.2⟩
  refine h.shrink (fun link hlink => (kept link hlink).1) (fun link hlink member hmem hof hnamed => ?_)
    (fun link hlink team hteam => h.notMaster link (kept link hlink).1 team (Table.mem_delete.mp hteam).1)
    fun member hmem => ?_
  · obtain ⟨-, hstaff, hmanager, hteam⟩ := kept link hlink
    refine Table.mem_delete.mpr ⟨hmem, Bool.or_eq_false_iff.mpr ⟨?_, hof ▸ hteam⟩⟩
    rcases hnamed with hnamed | hnamed
    · exact hnamed ▸ hstaff
    · exact hnamed ▸ hmanager
  · obtain ⟨hmem, hnot⟩ := Table.mem_delete.mp hmem
    obtain ⟨team, hteam, hid⟩ := h.ofTeam member hmem
    have hfind : s.team.find member.teamId = some team := Table.find_eq_some.mpr ⟨hteam, hid⟩
    have hmaster := (Bool.or_eq_false_iff.mp hnot).2
    simp only [hfind, Option.any_some] at hmaster
    exact ⟨team, Table.mem_delete.mpr ⟨hteam, hmaster⟩, hid⟩

/-- The rest of the store does not matter. -/
theorem WiredTeams.deleteUser (h : WiredTeams s) (id : String) : WiredTeams (s.deleteUser id) := by
  have deleted := h.deleteStaff fun staffId => (s.staff.find staffId).any (·.userId == some id)
  exact ⟨⟨deleted.reportee, deleted.manager, deleted.notSelf, deleted.noReverse, deleted.single, deleted.notMaster⟩,
    deleted.ofTeam⟩

section Assign
variable {orgId userId role staffId : String} {managerIds : List String} {member : TeamMember} {links : List TeamReporting}

/-- A new row names a manager to whom the staff member does not report, and who does not report to the staff
    member. -/
theorem NewLinks.fresh (may : MaySetReporting s orgId userId role teamId staffId managerIds) (hstaff : member.staffId = staffId)
    (new : NewLinks s teamId managerIds member links) {link : TeamReporting} (hlink : link ∈ links) :
    ¬Reports s teamId link.staffId link.managerId ∧ ¬Reports s teamId link.managerId link.staffId := by
  obtain ⟨-, hof, hnamed, -, hfresh⟩ := new.each link hlink
  rw [hof]
  exact ⟨hfresh, hstaff ▸ may.noReverse link.managerId hnamed (hstaff ▸ hfresh)⟩

theorem WiredTeams.setReporting (h : WiredTeams s) (may : MaySetReporting s orgId userId role teamId staffId managerIds)
    (hstaff : member.staffId = staffId) (new : NewLinks s teamId managerIds member links) :
    WiredTeams { s with teamReporting := s.teamReporting.insertAll links } where
  reportee link hlink := by
    rcases Table.mem_of_mem_insertAll hlink with hlink | hlink
    · exact h.reportee link hlink
    · obtain ⟨hteam, hof, -, hid, -⟩ := new.each link hlink
      exact ⟨member, new.mem, new.team.trans hteam.symm, hof.symm, hid⟩
  manager link hlink := by
    rcases Table.mem_of_mem_insertAll hlink with hlink | hlink
    · exact h.manager link hlink
    · obtain ⟨hteam, -, hnamed, -⟩ := new.each link hlink
      exact hteam ▸ may.managers link.managerId hnamed
  notSelf link hlink := by
    rcases Table.mem_of_mem_insertAll hlink with hlink | hlink
    · exact h.notSelf link hlink
    · obtain ⟨-, hof, hnamed, -⟩ := new.each link hlink
      exact fun hself => may.notSelf (hstaff ▸ hof ▸ hself ▸ hnamed)
  noReverse a ha b hb hteams := by
    rintro ⟨hstaffs, hmanagers⟩
    rcases Table.mem_of_mem_insertAll ha with ha | ha <;> rcases Table.mem_of_mem_insertAll hb with hb | hb
    · exact h.noReverse a ha b hb hteams ⟨hstaffs, hmanagers⟩
    · exact (new.fresh may hstaff hb).2 ⟨a, ha, hteams.trans (new.each b hb).1, hmanagers.symm, hstaffs.symm⟩
    · exact (new.fresh may hstaff ha).2 ⟨b, hb, hteams.symm.trans (new.each a ha).1, hstaffs, hmanagers⟩
    · obtain ⟨-, hof, hnamed, -⟩ := new.each a ha
      exact may.notSelf (hstaff ▸ (new.each b hb).2.1 ▸ hstaffs ▸ hnamed)
  single a ha b hb hteams hstaffs hmanagers := by
    rcases Table.mem_of_mem_insertAll ha with ha | ha <;> rcases Table.mem_of_mem_insertAll hb with hb | hb
    · exact h.single a ha b hb hteams hstaffs hmanagers
    · exact absurd ⟨a, ha, hteams.trans (new.each b hb).1, hstaffs, hmanagers⟩ (new.fresh may hstaff hb).1
    · exact absurd ⟨b, hb, hteams.symm.trans (new.each a ha).1, hstaffs.symm, hmanagers.symm⟩ (new.fresh may hstaff ha).1
    · exact List.inj_on_of_nodup_map (List.pairwise_map.mpr new.distinct) ha hb hmanagers
  notMaster link hlink team hteam hid := by
    rcases Table.mem_of_mem_insertAll hlink with hlink | hlink
    · exact h.notMaster link hlink team hteam hid
    · obtain ⟨hof, hreportee, -⟩ := new.each link hlink
      obtain ⟨own, hown, hownId, -, hmaster⟩ := may.team
      obtain rfl : own = team := Table.eq_of_id hown hteam (hownId.trans (hof.symm.trans hid.symm))
      exact fun heq => hmaster (heq.symm.trans (hreportee.trans hstaff))
  ofTeam := h.ofTeam

end Assign

end Updates

/-! ### Runs -/

theorem WiredTeams.request {s : Db} (h : WiredTeams s) (q : Request) : q.call.Returns (fun _ t => WiredTeams t) s := by
  obtain ⟨io, orgId, userId, role, op⟩ := q
  cases op with
  | addTeam dto =>
    refine Prog.returns_discard.mpr (returns_addTeam h (fun team u _ hu _ => h.addTeam hu) fun team u v _ hu hv => ?_)
    refine (h.addTeam hu).addMembers (fun _ hold => (Table.mem_insert hv).mpr (Or.inl hold)) fun member hmem => ?_
    rcases (Table.mem_insert hv).mp hmem with hmem | rfl
    · exact Or.inl hmem
    · exact Or.inr ⟨team, (Table.mem_insert hu).mpr (Or.inr rfl), rfl⟩
  | editTeam teamId dto => exact Prog.returns_discard.mpr (returns_editTeam h fun t ht => h.editTeam ht)
  | addMembers teamId dto =>
    refine Prog.returns_discard.mpr (Prog.Post.returns ((addMembers_post h).mpr fun _ _ team hteam _ => ?_))
    refine h.addMembers (fun _ => Table.mem_insertAll_of_mem) fun member hmem => ?_
    rcases Table.mem_of_mem_insertAll hmem with hmem | hmem
    · exact Or.inl hmem
    · obtain ⟨_, -, rfl⟩ := mem_newMembers.mp hmem
      exact Or.inr ⟨team, hteam, rfl⟩
  | removeMember teamId memberId =>
    refine Prog.returns_discard.mpr (returns_removeMember h fun member hmem _ _ hid hteam => ?_)
    subst hid
    exact h.removeMember hmem hteam
  | setReporting teamId dto =>
    exact Prog.returns_discard.mpr (returns_setReporting h fun _ _ may hstaff new => h.setReporting may hstaff new)
  | setReportingBulk teamId dto =>
    exact Prog.returns_discard.mpr (returns_setReportingEach h fun _ _ _ _ ht _ may hstaff new => ht.setReporting may hstaff new)
  | removeReporting teamId dto => exact Prog.returns_discard.mpr (returns_removeReporting h (h.removeReporting _))
  | deleteTeam teamId => exact Prog.Post.returns ((deleteTeam_post h).mpr fun _ _ _ _ _ => h.deleteTeam)

theorem WiredTeams.call {s : Db} (h : WiredTeams s) (c : Call) : c.call.Returns (fun _ t => WiredTeams t) s := by
  cases c with
  | team q => exact h.request q
  | deleteStaffMember orgId role staffId qOrgId => exact returns_deletion h h.deleteStaff fun ht => ht.deleteUser

theorem wiredTeams {s : Db} (h : teams.Reachable s) : WiredTeams s := by
  refine h.invariant (fun s hinit => ?_) fun s c t _ inv _ hstep => ?_
  · obtain ⟨-, hmember, hreporting⟩ := hinit
    constructor
    · constructor <;> intro link hlink <;> rw [hreporting] at hlink <;> exact absurd hlink Table.not_mem_empty
    · intro member hmem
      rw [hmember] at hmem
      exact absurd hmem Table.not_mem_empty
  · obtain ⟨r, hr⟩ := hstep
    exact hr.of_returns inv (inv.call c)

/-- In every state that team requests and deletions of staff members reach, the reporting rows of each team
    are well formed. -/
theorem reporting_wired (s : Db) (h : teams.Reachable s) : Wired s := (wiredTeams h).toWired

/-! ### A crew of four -/

namespace Crew

def member (id email : String) : Staff := { id, orgId := "org", name := id, email }

def db : Db where
  organization := {{ id := "org", name := "Org", email := "org@mail.com" }}
  userCredential := {{ id := "boss", orgId := some "org", email := "boss@mail.com", role := .superAdmin }}
  staff := ⟨[member "ann" "a", member "bob" "b", member "cat" "c", member "dan" "d"], by decide⟩

/-- A request of the superadmin, under a number of its own. -/
def request (number : String) (op : Operation) : Call := .team
  { io _ := { teamId := "team", memberId := id, reportingId _ := number, staff := .stored, members := .stored,
              reporting := .stored, client := id }
    orgId := "org"
    userId := "boss"
    role := "SuperAdmin"
    op }

/-- Ann gets a team with Bob, Cat and Dan. -/
def founding : List Call :=
  [request "1" (.addTeam { name := "Team", masterManagerId := "ann" }),
    request "2" (.addMembers "team" { staffIds := ["bob", "cat", "dan"] })]

def report (number staffId managerId : String) : Call :=
  request number (.setReporting "team" { staffId, managerIds := [managerId] })

end Crew

section Crew
open Crew

def runAll (s : Db) (calls : List Call) : Db := calls.foldl (fun s c => (c.call.run s).2) s

/-- Calls that succeed or fail as a whole are a run. -/
theorem reach_runAll {C : Db → Call → Prop} {s : Db} (h : teams.Reach C s) {calls : List Call}
    (meets : ∀ t, ∀ c ∈ calls, C t c) : teams.Reach C (runAll s calls) := by
  have hrun : ∀ s c, teams.step s c (c.call.run s).2 := fun s c => ⟨_, Prog.settles_run c.call s⟩
  exact h.foldl hrun meets

theorem reporting_wired_crew : Wired (runAll db (founding ++ [report "3" "bob" "cat", report "4" "cat" "dan"])) :=
  reporting_wired _ (reach_runAll (.init ⟨rfl, rfl, rfl⟩) fun _ _ _ => trivial)

end Crew

end Vms.TeamService
