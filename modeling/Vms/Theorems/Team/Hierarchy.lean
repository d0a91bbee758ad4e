import Vms.Lib.Acyclic
import Vms.Theorems.Team.Reporting

/-! When the reporting hierarchy of a team has no cycles. `setReporting` refuses a manager who is the staff
    member, and a manager who reports to the staff member directly; a longer chain goes unnoticed. -/

namespace Vms.TeamService
open Relational Relation

/-! ### New managers -/

section Assigned
variable {s t : Db} {orgId userId role teamId staffId : String} {staffIds managerIds : List String}

/-- Some of the staff members got managers, each of them as if it were the first. -/
structure Assigned (s : Db) (orgId userId role teamId : String) (staffIds managerIds : List String) (t : Db) : Prop where
  rest : t = { s with teamReporting := t.teamReporting }
  kept : ∀ link ∈ s.teamReporting, link ∈ t.teamReporting
  added : ∀ link ∈ t.teamReporting, link ∈ s.teamReporting ∨ (link.teamId = teamId ∧ link.staffId ∈ staffIds ∧
    link.managerId ∈ managerIds ∧ MaySetReporting s orgId userId role teamId link.staffId managerIds ∧
    ¬Reports s teamId link.staffId link.managerId)

theorem Assigned.refl : Assigned s orgId userId role teamId staffIds managerIds s :=
  ⟨rfl, fun _ h => h, fun _ h => Or.inl h⟩

theorem Assigned.reports (h : Assigned s orgId userId role teamId staffIds managerIds t) {a b : String}
    (hab : Reports s teamId a b) : Reports t teamId a b := by
  obtain ⟨link, hlink, hof⟩ := hab
  exact ⟨link, h.kept link hlink, hof⟩

/-- A staff member who passes the checks now passed them at first. -/
theorem Assigned.may (h : Assigned s orgId userId role teamId staffIds managerIds t)
    (may : MaySetReporting t orgId userId role teamId staffId managerIds) :
    MaySetReporting s orgId userId role teamId staffId managerIds := by
  have org_eq : t.organization = s.organization := by rw [h.rest]
  have user_eq : t.userCredential = s.userCredential := by rw [h.rest]
  have team_eq : t.team = s.team := by rw [h.rest]
  have member_eq : t.teamMember = s.teamMember := by rw [h.rest]
  refine ⟨may.superAdmin, ?_, team_eq ▸ may.team, ?_, may.notSelf, fun id hid => ?_, may.distinct, fun id hid hfresh => ?_⟩
  · have hcredentials := may.credentials
    unfold Credentials at hcredentials ⊢
    rwa [← org_eq, ← user_eq]
  · have hmember := may.member
    unfold IsMember at hmember ⊢
    rwa [← member_eq]
  · have hmember := may.managers id hid
    unfold IsMember at hmember ⊢
    rwa [← member_eq]
  · by_cases hnow : Reports t teamId staffId id
    · -- the staff member got this manager meanwhile, and passed the checks for it
      obtain ⟨link, hlink, hteam, hof, hmanager⟩ := hnow
      rcases h.added link hlink with hold | ⟨-, -, -, before, -⟩
      · exact absurd ⟨link, hold, hteam, hof, hmanager⟩ hfresh
      · rw [hof] at before
        exact before.noReverse id hid hfresh
    · exact fun hreverse => may.noReverse id hid hnow (h.reports hreverse)

theorem Assigned.assign (h : Assigned s orgId userId role teamId staffIds managerIds t) (hmem : staffId ∈ staffIds)
    (may : MaySetReporting t orgId userId role teamId staffId managerIds) {member : TeamMember}
    (hstaff : member.staffId = staffId) {links : List TeamReporting} (new : NewLinks t teamId managerIds member links) :
    Assigned s orgId userId role teamId staffIds managerIds { t with teamReporting := t.teamReporting.insertAll links } where
  rest := by rw [h.rest]
  kept link hlink := Table.mem_insertAll_of_mem (h.kept link hlink)
  added link hlink := by
    rcases Table.mem_of_mem_insertAll hlink with hlink | hlink
    · exact h.added link hlink
    · obtain ⟨hteam, hof, hnamed, -, hfresh⟩ := new.each link hlink
      have hstaffId : link.staffId = staffId := hof.trans hstaff
      refine Or.inr ⟨hteam, hstaffId ▸ hmem, hnamed, hstaffId ▸ h.may may, fun hreports => hfresh ?_⟩
      exact hof ▸ h.reports hreports

end Assigned

/-! ### Cycles -/

/-- No new manager of the staff member reports to the staff member through a chain. -/
def NoLoop (s : Db) (orgId userId role teamId : String) (managerIds : List String) (staffId : String) : Prop :=
  MaySetReporting s orgId userId role teamId staffId managerIds → ∀ managerId ∈ managerIds,
    ¬Reports s teamId staffId managerId → ¬TransGen (Reports s teamId) managerId staffId

/-- The call gives no staff member a manager who reports to the staff member through a chain. -/
def NoCycle (s : Db) : Call → Prop
  | .team { orgId, userId, role, op := .setReporting teamId dto, .. } =>
    NoLoop s orgId userId role teamId dto.managerIds dto.staffId
  | .team { orgId, userId, role, op := .setReportingBulk teamId dto, .. } =>
    ∀ staffId ∈ dto.staffIds, NoLoop s orgId userId role teamId dto.managerIds staffId
  | _ => True

/-- The reporting hierarchy of every team has no cycles. -/
def NoCycles (s : Db) : Prop := ∀ teamId, Acyclic (Reports s teamId)

section Cycles
variable {s t : Db} {orgId userId role teamId : String} {staffIds managerIds : List String}

/-- No chain starts at a staff member who reports to nobody. -/
theorem not_transGen {a b : String} (h : ∀ link ∈ s.teamReporting, link.staffId ≠ a) : ¬TransGen (Reports s teamId) a b := by
  intro hchain
  obtain ⟨_, ⟨link, hlink, -, hstaff, -⟩, -⟩ := TransGen.head'_iff.mp hchain
  exact h link hlink hstaff

theorem NoCycles.of_subset (h : NoCycles s) (links : ∀ link ∈ t.teamReporting, link ∈ s.teamReporting) : NoCycles t := by
  intro teamId
  refine (h teamId).mono fun a b ⟨link, hlink, hof⟩ => ?_
  exact ⟨link, links link hlink, hof⟩

/-- An added row leads to no other added row: a manager of the request is not one of its staff members, and
    reports to none of them through a chain. -/
theorem Assigned.noCycles (h : Assigned s orgId userId role teamId staffIds managerIds t) (acyclic : NoCycles s)
    (noLoop : ∀ staffId ∈ staffIds, NoLoop s orgId userId role teamId managerIds staffId) : NoCycles t := by
  intro otherId
  have added : ∀ a b, Reports t otherId a b → Reports s otherId a b ∨ (otherId = teamId ∧ a ∈ staffIds ∧ b ∈ managerIds ∧
      MaySetReporting s orgId userId role teamId a managerIds) := by
    rintro a b ⟨link, hlink, hteam, rfl, rfl⟩
    rcases h.added link hlink with hlink | ⟨hof, hstaff, hmanager, may, -⟩
    · exact Or.inl ⟨link, hlink, hteam, rfl, rfl⟩
    · exact Or.inr ⟨hteam.symm.trans hof, hstaff, hmanager, may⟩
  refine (acyclic otherId).extend added ?_
  rintro a b c d ⟨rfl, -, hb, -⟩ ⟨-, hc, -, may⟩ hchain
  rcases reflTransGen_iff_eq_or_transGen.mp hchain with rfl | hchain
  · exact may.notSelf hb
  · by_cases hold : Reports s otherId c b
    · exact acyclic otherId b (hchain.tail hold)
    · exact noLoop c hc may b hb hold hchain

theorem NoCycles.request (h : NoCycles s) (q : Request) (meets : NoCycle s (.team q)) :
    q.call.Returns (fun _ t => NoCycles t) s := by
  obtain ⟨io, orgId, userId, role, op⟩ := q
  cases op with
  | addTeam dto => exact Prog.returns_discard.mpr (returns_addTeam h (fun _ _ _ _ _ => h) fun _ _ _ _ _ _ => h)
  | editTeam teamId dto =>
    exact Prog.returns_discard.mpr (returns_editTeam h fun t ht => h.of_subset ht.links)
  | addMembers teamId dto =>
    exact Prog.returns_discard.mpr (Prog.Post.returns ((addMembers_post h).mpr fun _ _ _ _ _ => h))
  | removeMember teamId memberId =>
    refine Prog.returns_discard.mpr (returns_removeMember h fun member _ _ _ _ _ => h.of_subset fun link hlink => ?_)
    exact (Table.mem_delete.mp (Table.mem_delete.mp hlink).1).1
  | setReporting teamId dto =>
    refine Prog.returns_discard.mpr (returns_setReporting h fun member links may hstaff new => ?_)
    have assigned := Assigned.refl.assign (List.mem_singleton.mpr rfl) may hstaff new
    refine assigned.noCycles h fun staffId hstaffId => ?_
    rw [List.mem_singleton.mp hstaffId]
    exact meets
  | setReportingBulk teamId dto =>
    have loop : (setReportingBulk io orgId userId role teamId dto).Returns
        (fun _ t => Assigned s orgId userId role teamId dto.staffIds dto.managerIds t) s :=
      returns_setReportingEach .refl fun _ _ _ _ ht hmem may hstaff new => ht.assign hmem may hstaff new
    exact Prog.returns_discard.mpr (loop.mono fun _ t ht => ht.noCycles h meets)
  | removeReporting teamId dto =>
    exact Prog.returns_discard.mpr (returns_removeReporting h (h.of_subset fun _ hlink => (Table.mem_delete.mp hlink).1))
  | deleteTeam teamId =>
    refine Prog.Post.returns ((deleteTeam_post h).mpr fun _ _ _ _ _ => h.of_subset fun _ hlink => ?_)
    exact (Table.mem_delete.mp hlink).1

theorem NoCycles.deleteStaff (h : NoCycles s) (gone : String → Bool) : NoCycles (s.deleteStaff gone) :=
  h.of_subset fun _ hlink => (Table.mem_delete.mp hlink).1

theorem NoCycles.deleteUser (h : NoCycles s) (id : String) : NoCycles (s.deleteUser id) :=
  h.of_subset fun _ hlink => (Table.mem_delete.mp hlink).1

theorem NoCycles.call (h : NoCycles s) (c : Call) (meets : NoCycle s c) : c.call.Returns (fun _ t => NoCycles t) s := by
  cases c with
  | team q => exact h.request q meets
  | deleteStaffMember orgId role staffId qOrgId => exact returns_deletion h h.deleteStaff fun ht => ht.deleteUser

end Cycles

/-- In a run in which nobody gets a manager who reports to him through a chain, nobody is a manager of
    himself through a chain. -/
theorem reporting_acyclic (s : Db) (h : teams.Reach NoCycle s) (teamId : String) : Acyclic (Reports s teamId) := by
  have acyclic : NoCycles s := by
    refine h.invariant (fun s hinit teamId => ?_) fun s c t _ inv meets hstep => ?_
    · obtain ⟨-, -, hreporting⟩ := hinit
      refine fun a => not_transGen fun link hlink => ?_
      rw [hreporting] at hlink
      exact absurd hlink Table.not_mem_empty
    · obtain ⟨r, hr⟩ := hstep
      exact hr.of_returns inv (inv.call c meets)
  exact acyclic teamId

section Crew
open Crew

/-- Bob reports to Cat, and Cat to Dan. -/
theorem reporting_acyclic_crew :
    Acyclic (Reports (runAll db (founding ++ [report "3" "bob" "cat", report "4" "cat" "dan"])) "team") := by
  have founded : teams.Reach NoCycle (runAll db founding) := by
    refine reach_runAll (.init ⟨rfl, rfl, rfl⟩) fun t c hc => ?_
    simp only [founding, List.mem_cons, List.not_mem_nil, or_false] at hc
    rcases hc with rfl | rfl <;> trivial
  have first : teams.Reach NoCycle (runAll db (founding ++ [report "3" "bob" "cat"])) := by
    refine founded.step (c := report "3" "bob" "cat") (fun _ managerId hmem _ => ?_) ⟨_, Prog.settles_run _ _⟩
    rw [List.mem_singleton.mp hmem]
    exact not_transGen (by decide)
  refine reporting_acyclic _ (first.step (c := report "4" "cat" "dan") (fun _ managerId hmem _ => ?_)
    ⟨_, Prog.settles_run _ _⟩) "team"
  rw [List.mem_singleton.mp hmem]
  exact not_transGen (by decide)

/-- Bob reports to Cat, Cat to Dan, and Dan to Bob. -/
def ring : List Call := founding ++ [report "3" "bob" "cat", report "4" "cat" "dan", report "5" "dan" "bob"]

theorem ring_is_cyclic : ¬∀ s, teams.Reachable s → ∀ teamId, Acyclic (Reports s teamId) := fun h => by
  have reached : teams.Reachable (runAll db ring) := reach_runAll (.init ⟨rfl, rfl, rfl⟩) fun _ _ _ => trivial
  have bob : Reports (runAll db ring) "team" "bob" "cat" := by decide
  have cat : Reports (runAll db ring) "team" "cat" "dan" := by decide
  have dan : Reports (runAll db ring) "team" "dan" "bob" := by decide
  exact h _ reached "team" "bob" (.tail (.tail (.single bob) cat) dan)

end Crew

end Vms.TeamService
