import Vms.Theorems.Team.Reporting

/-! What an edit that leaves a team its master manager does to the reporting rows. One that names the master
    manager again cleans up after the new one, one that names nobody after the old one: either way the rows
    of the master manager go. -/

namespace Vms.TeamService
open Relational

/-- The master manager's own membership takes part in the row. -/
def OfMaster (s : Db) (team : Team) (link : TeamReporting) : Prop :=
  team.masterManagerId ≠ "" ∧ ∃ member ∈ s.teamMember, member.teamId = team.id ∧ member.staffId = team.masterManagerId ∧
    involves team.id member link = true

section Effect
variable {s t : Db} {orgId userId role teamId : String} {dto : EditTeamDto} {team : Team}

/-- The rows of the master manager are deleted, and no others. -/
def Cleared (s : Db) (team : Team) (t : Db) : Prop :=
  ∃ p, (∀ link, p link = true ↔ OfMaster s team link) ∧ t.teamReporting = s.teamReporting.delete p

theorem cleared_of_absent (h : team.masterManagerId = "" ∨ ¬IsMember s team.id team.masterManagerId) : Cleared s team s := by
  refine ⟨fun _ => false, fun link => ⟨by simp, ?_⟩, Table.ext (List.filter_true _).symm⟩
  rintro ⟨hne, member, hmem, hteam, hstaff, -⟩
  rcases h with hempty | hnone
  · exact absurd hempty hne
  · exact absurd ⟨member, hmem, hteam, hstaff⟩ hnone

theorem cleared_of_member {member : TeamMember} (hne : team.masterManagerId ≠ "") (hmem : member ∈ s.teamMember)
    (hteam : member.teamId = team.id) (hstaff : member.staffId = team.masterManagerId) :
    Cleared s team { s with teamReporting := s.teamReporting.delete (involves team.id member) } := by
  refine ⟨involves team.id member, fun link => ⟨fun h => ⟨hne, member, hmem, hteam, hstaff, h⟩, ?_⟩, rfl⟩
  rintro ⟨-, other, hother, hotherTeam, hotherStaff, h⟩
  have hsame : other = member := by
    refine Table.eq_of_clash hother hmem ?_
    simp [Row.clash, hotherTeam, hteam, hotherStaff, hstaff]
  exact hsame ▸ h

/-- Both clean-ups together, where the request names the master manager again, or nobody. -/
theorem returns_cleanUp {Q : Except HttpException Unit → Db → Prop} (fails : ∀ e, Q (.error e) s)
    (same : dto.masterManagerId = none ∨ dto.masterManagerId = some team.masterManagerId)
    (cleared : ∀ t, Cleared s team t → Q (.ok ()) t) :
    (do
      cleanUpNewManager orgId team.id (truthy dto.masterManagerId)
      cleanUpOldManager team team.id dto.masterManagerId : Service Unit).Returns Q s := by
  by_cases hempty : team.masterManagerId = ""
  · -- without a master manager nothing is cleaned up
    have hnone : truthy dto.masterManagerId = none := by
      rcases same with h | h <;> rw [h] <;> simp [truthy, hempty]
    have hold : cleanUpOldManager team team.id dto.masterManagerId = return () := if_neg fun h => h.1 hempty
    rw [hnone, hold]
    exact cleared s (cleared_of_absent (Or.inl hempty))
  · rcases same with habsent | hsame
    · have hold : team.masterManagerId ≠ "" ∧ none ≠ some team.masterManagerId := ⟨hempty, by simp⟩
      rw [habsent, cleanUpOldManager, if_pos hold]
      simp only [cleanUpNewManager, truthy, findMember, Option.filter_none, Prog.returns_bind, Prog.returns_pure, Prog.then_ok,
        returns_query]
      split
      · rename_i hfound
        refine cleared s (cleared_of_absent (Or.inr ?_))
        rintro ⟨member, hmem⟩
        rw [findMember_eq_some.mpr hmem] at hfound
        cases hfound
      · rename_i member hfound
        obtain ⟨hmem, hteam, hstaff⟩ := findMember_eq_some.mp hfound
        simp only [deleteTeamReporting, returns_mutate]
        refine ⟨fun _ he => (by cases he), fun _ t ht => ?_⟩
        obtain ⟨-, rfl⟩ := Prod.mk.inj (Except.ok.inj ht)
        exact cleared _ (cleared_of_member hempty hmem hteam hstaff)
    · have hgiven : truthy dto.masterManagerId = some team.masterManagerId := truthy_eq_some.mpr ⟨hsame, hempty⟩
      have hold : cleanUpOldManager team team.id dto.masterManagerId = return () := if_neg fun h => h.2 hsame
      rw [hgiven, hold]
      simp only [cleanUpNewManager, findMember, deleteTeamReporting, Prog.returns_bind, Prog.then_ok, Prog.then_error,
        returns_query, Prog.returns_orFail, fails, implies_true, true_and, findMember_eq_some, returns_mutate,
        Except.ok.injEq, Prod.mk.injEq, reduceCtorEq, Prog.returns_pure]
      rintro - - member ⟨hmem, hteam, hstaff⟩ _ t ⟨-, rfl⟩
      exact cleared _ (cleared_of_member hempty hmem hteam hstaff)

/-- The effect of an edit that leaves the team its master manager. -/
theorem editTeam_clears (hteam : team ∈ s.team)
    (same : dto.masterManagerId = none ∨ dto.masterManagerId = some team.masterManagerId) :
    (editTeam orgId userId role team.id dto).Post (AllOrNothing s fun _ t => ∃ u, Cleared s team u ∧
      t.teamReporting = u.teamReporting) s := by
  simp only [editTeam, Prog.post_bind, Prog.post_failIf, Prog.then_ok, Prog.then_error, allOrNothing_error, implies_true,
    true_and]
  rintro -
  refine findTeam_spec (fun _ => rfl) fun _ found hfound hid _ => ?_
  obtain rfl : found = team := Table.eq_of_id hfound hteam hid
  simp only [Prog.then_ok, Prog.post_bind, post_transaction, Prog.then_error, allOrNothing_error, and_true]
  rw [← Prog.bind_assoc, Prog.returns_bind]
  refine returns_cleanUp (fun _ => rfl) same fun u hu => ?_
  simp only [Prog.then_ok, updateTeam, returns_mutate]
  refine ⟨fun _ _ => rfl, fun _ v hv => ?_⟩
  split at hv
  · cases hv
  · split at hv
    · obtain ⟨-, rfl⟩ := Prod.mk.inj (Except.ok.inj hv)
      exact ⟨u, hu, rfl⟩
    · cases hv

end Effect

/-- An edit that leaves a team its master manager leaves the reporting rows as they are if and only if the
    master manager takes part in none of them. -/
theorem editTeam_keeps_reporting_iff (s t : Db) (orgId userId role : String) (team : Team) (dto : EditTeamDto) (message : String)
    (hteam : team ∈ s.team) (same : dto.masterManagerId = none ∨ dto.masterManagerId = some team.masterManagerId)
    (hexec : Prog.Exec (editTeam orgId userId role team.id dto) s (.ok message) t) :
    t.teamReporting = s.teamReporting ↔ ∀ link ∈ s.teamReporting, ¬OfMaster s team link := by
  obtain ⟨u, ⟨p, hp, hlinks⟩, hrows⟩ := (editTeam_clears hteam same).of_exec hexec
  rw [hrows, hlinks]
  constructor
  · intro hkept link hlink hmaster
    have hgone : link ∈ s.teamReporting.delete p := by rwa [hkept]
    have hnot := (Table.mem_delete.mp hgone).2
    rw [(hp link).mpr hmaster] at hnot
    cases hnot
  · intro hnone
    refine Table.ext (List.filter_eq_self.mpr fun link hlink => ?_)
    rw [Bool.not_eq_true', Bool.eq_false_iff]
    exact fun h => hnone link hlink ((hp link).mp h)

section Crew
open Crew

def rename : Service String := editTeam "org" "boss" "SuperAdmin" "team" { name := some "Crew" }

/-- Bob reports to Ann, the master manager. -/
def bobReports : Db := runAll db (founding ++ [report "3" "bob" "ann"])

def annsTeam : Team := { id := "team", orgId := "org", name := "Team", masterManagerId := "ann" }

theorem editTeam_keeps_reporting_crew : (rename.run (runAll db founding)).2.teamReporting = (runAll db founding).teamReporting :=
  (editTeam_keeps_reporting_iff _ _ "org" "boss" "SuperAdmin" annsTeam { name := some "Crew" }
    "Team updated successfully." (by decide) (Or.inl rfl)
    (Prog.exec_of_run (Prod.ext rfl rfl))).mpr fun _ hlink => absurd hlink Table.not_mem_empty

/-- A new name for the team takes Bob's manager from him. -/
theorem rename_clears_reporting : ¬∀ s, teams.Reachable s → ∀ (orgId userId role : String) (dto : EditTeamDto) (message : String)
    (t : Db), ∀ team ∈ s.team, dto.masterManagerId = none ∨ dto.masterManagerId = some team.masterManagerId →
    Prog.Exec (editTeam orgId userId role team.id dto) s (.ok message) t → t.teamReporting = s.teamReporting := fun h => by
  have reached : teams.Reachable bobReports := reach_runAll (.init ⟨rfl, rfl, rfl⟩) fun _ _ _ => trivial
  have renamed : (rename.run bobReports).1 = .ok "Team updated successfully." := by rfl
  have kept := h _ reached "org" "boss" "SuperAdmin" { name := some "Crew" } _ _ annsTeam (by decide) (Or.inl rfl)
    (Prog.exec_of_run (Prod.ext renamed rfl))
  have before : bobReports.teamReporting.rows.length = 1 := by rfl
  have after : (rename.run bobReports).2.teamReporting.rows.length = 0 := by rfl
  change (rename.run bobReports).2.teamReporting = bobReports.teamReporting at kept
  rw [kept, before] at after
  cases after

end Crew

end Vms.TeamService
