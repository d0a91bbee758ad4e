import Mathlib.Algebra.BigOperators.Group.Finset.Basic
import Vms.Theorems.Team.Reporting

/-! What `setReportingBulk` accounts for: every entry of a request is assigned, skipped or failed, the table
    grows by what was assigned, and nothing of this depends on the order of the entries. -/

namespace Vms.TeamService
open Relational HttpException

/-- The identifiers that the passes of a request draw are new, and no two are the same. -/
structure Draws (s : Db) (io : Nat → Io) : Prop where
  unused : ∀ i id, ∀ link ∈ s.teamReporting, link.id ≠ (io i).reportingId id
  distinct : ∀ i j a b, (io i).reportingId a = (io j).reportingId b → i = j ∧ a = b

/-- What became of an entry; one that was assigned added rows. -/
inductive Outcome where
  | assigned (links : List TeamReporting)
  | skipped
  | failed (reason : String)

def Outcome.links : Outcome → List TeamReporting
  | .assigned links => links
  | .skipped | .failed _ => []

/-- An outcome moves one of the three figures. -/
def Summary.record (summary : Summary) (entry : String × Outcome) : Summary :=
  match entry.2 with
  | .assigned links => { summary with assigned := summary.assigned + links.length }
  | .skipped => { summary with skipped := summary.skipped + 1 }
  | .failed reason => { summary with failed := summary.failed ++ [(entry.1, reason)] }

/-- The entries so far, with their outcomes, led from `s` to `t`. -/
structure Recorded (s : Db) (teamId : String) (managerIds : List String) (entries : List (String × Outcome)) (t : Db) :
    Prop where
  rest : t = { s with teamReporting := t.teamReporting }
  rows : t.teamReporting.rows = s.teamReporting.rows ++ entries.flatMap (·.2.links)
  each : ∀ e ∈ entries, ∀ links, e.2 = .assigned links →
    links ≠ [] ∧ ∀ link ∈ links, link.teamId = teamId ∧ link.staffId = e.1 ∧ link.managerId ∈ managerIds

/-- The rows that are not from before were drawn by the passes before `i`. -/
def Drawn (s : Db) (io : Nat → Io) (i : Nat) (t : Db) : Prop :=
  ∀ link ∈ t.teamReporting, link ∈ s.teamReporting ∨ ∃ j < i, ∃ id, link.id = (io j).reportingId id

/-- One pass of the loop. -/
def setReportingPass (io : Nat → Io) (orgId userId role teamId : String) (managerIds : List String) (staffId : String) (i : Nat)
    (summary : Summary) : Service Summary :=
  Prog.orElse (do
    let result ← setReporting (io i) orgId userId role teamId { staffId, managerIds }
    return summary.add result) fun error => return summary.fail staffId (error.message (io i).client)

section Passes
variable {s t : Db} {io : Nat → Io} {orgId userId role teamId staffId : String} {managerIds staffIds : List String} {i : Nat}
  {summary : Summary}

theorem setReportingEach_cons : setReportingEach io orgId userId role teamId managerIds (staffId :: staffIds) i summary =
    (setReportingPass io orgId userId role teamId managerIds staffId i summary >>= fun summary =>
      setReportingEach io orgId userId role teamId managerIds staffIds (i + 1) summary) := rfl

theorem Drawn.mono (h : Drawn s io i t) : Drawn s io (i + 1) t := by
  intro link hlink
  rcases h link hlink with hold | ⟨j, hj, hid⟩
  · exact Or.inl hold
  · exact Or.inr ⟨j, Nat.lt_succ_of_lt hj, hid⟩

/-- The identifiers that a pass draws are free. -/
theorem Drawn.free (h : Drawn s io i t) (draws : Draws s io) {link : TeamReporting} (hlink : link ∈ t.teamReporting)
    (id : String) :
    link.id ≠ (io i).reportingId id := by
  intro hid
  rcases h link hlink with hold | ⟨j, hj, a, hdrawn⟩
  · exact draws.unused i id link hold hid
  · exact absurd (draws.distinct j i a id (hdrawn.symm.trans hid)).1 (Nat.ne_of_lt hj)

theorem conflict_eq_false {a b : TeamReporting} (h : a.id ≠ b.id) : Row.conflict a b = false := by
  simpa [Row.conflict, Row.id, Row.clash] using h

/-- So all the rows of a pass are stored. -/
theorem Drawn.rows (h : Drawn s io i t) (draws : Draws s io) {memberId : String} {ids : List String} (distinct : ids.Nodup) :
    (t.teamReporting.insertAll (linksTo (io i) teamId staffId memberId ids)).rows =
      t.teamReporting.rows ++ linksTo (io i) teamId staffId memberId ids := by
  refine Table.rows_insertAll (fun link hlink old hold => ?_) (List.pairwise_map.mpr (distinct.imp fun hne => ?_))
  · obtain ⟨id, -, rfl⟩ := List.mem_map.mp hlink
    exact conflict_eq_false (h.free draws hold id)
  · exact conflict_eq_false fun hid => hne (draws.distinct i i _ _ hid).2

theorem Drawn.assign (h : Drawn s io i t) {memberId : String} {ids : List String} :
    Drawn s io (i + 1) { t with teamReporting := t.teamReporting.insertAll (linksTo (io i) teamId staffId memberId ids) } := by
  intro link hlink
  rcases Table.mem_of_mem_insertAll hlink with hold | hnew
  · exact h.mono link hold
  · obtain ⟨id, -, rfl⟩ := List.mem_map.mp hnew
    exact Or.inr ⟨i, Nat.lt_succ_self i, id, rfl⟩

/-- Who reports to whom after a pass. -/
theorem Drawn.reports (h : Drawn s io i t) (draws : Draws s io) {memberId team a b : String} {ids : List String}
    (distinct : ids.Nodup) :
    Reports { t with teamReporting := t.teamReporting.insertAll (linksTo (io i) teamId staffId memberId ids) } team a b ↔
      Reports t team a b ∨ (team = teamId ∧ a = staffId ∧ b ∈ ids) := by
  have stored : ∀ link, link ∈ t.teamReporting.insertAll (linksTo (io i) teamId staffId memberId ids) ↔
      link ∈ t.teamReporting ∨ link ∈ linksTo (io i) teamId staffId memberId ids := by
    intro link
    rw [← Table.mem_rows, h.rows draws distinct, List.mem_append, Table.mem_rows]
  simp only [Reports, stored]
  simp only [linksTo, List.mem_map]
  constructor
  · rintro ⟨link, hold | ⟨id, hid, rfl⟩, rfl, rfl, rfl⟩
    · exact Or.inl ⟨link, hold, rfl, rfl, rfl⟩
    · exact Or.inr ⟨rfl, rfl, hid⟩
  · rintro (⟨link, hold, hlink⟩ | ⟨rfl, rfl, hb⟩)
    · exact ⟨link, Or.inl hold, hlink⟩
    · exact ⟨_, Or.inr ⟨b, hb, rfl⟩, rfl, rfl, rfl⟩

theorem nodup_of_newLinks {member : TeamMember} {ids : List String}
    (new : NewLinks s teamId managerIds member (linksTo (io i) teamId staffId member.id ids)) : ids.Nodup := by
  have distinct := new.distinct
  rwa [linksTo, List.pairwise_map] at distinct

/-! ### Accounting -/

/-- A pass has one outcome, whatever fails in the database. -/
theorem post_setReportingPass (draws : Draws s io) (drawn : Drawn s io i t) :
    (setReportingPass io orgId userId role teamId managerIds staffId i summary).Post
      (fun r u => ∃ outcome, r = .ok (summary.record (staffId, outcome)) ∧ u = { t with teamReporting := u.teamReporting } ∧
        u.teamReporting.rows = t.teamReporting.rows ++ outcome.links ∧ Drawn s io (i + 1) u ∧ ∀ links, outcome = .assigned links →
        links ≠ [] ∧ ∀ link ∈ links, link.teamId = teamId ∧ link.staffId = staffId ∧ link.managerId ∈ managerIds) t := by
  simp only [setReportingPass, Prog.post_orElse, Prog.post_bind]
  have unchanged : t.teamReporting.rows = t.teamReporting.rows ++ [] := (List.append_nil _).symm
  refine post_setReporting (fun e => ?_) (fun skipped => ?_) fun member ids may hstaff hids new => ?_
  · exact ⟨.failed _, rfl, rfl, unchanged, drawn.mono, by simp⟩
  · exact ⟨.skipped, by simp [Summary.add, Summary.record], rfl, unchanged, drawn.mono, by simp⟩
  · have hlength : ids.length ≠ 0 := fun h => hids (List.length_eq_zero_iff.mp h)
    refine ⟨.assigned (linksTo (io i) teamId staffId member.id ids), ?_, rfl, drawn.rows draws (nodup_of_newLinks new),
      drawn.assign, ?_⟩
    · simp [Summary.add, Summary.record, linksTo, hlength]
    · rintro links ⟨⟩
      refine ⟨by simpa [linksTo] using hids, fun link hlink => ?_⟩
      obtain ⟨hteam, hof, hmanager, -⟩ := new.each link hlink
      exact ⟨hteam, hof.trans hstaff, hmanager⟩

/-- The induction is on the entries that are left; `done` are the ones before them. -/
theorem post_setReportingEach (draws : Draws s io) {done : List (String × Outcome)} (h : Recorded s teamId managerIds done t)
    (drawn : Drawn s io i t) :
    (setReportingEach io orgId userId role teamId managerIds staffIds i (done.foldl Summary.record {})).Post
      (fun r u => ∃ entries, entries.map (·.1) = staffIds ∧ r = .ok ((done ++ entries).foldl Summary.record {}) ∧
        Recorded s teamId managerIds (done ++ entries) u) t := by
  induction staffIds generalizing i t done with
  | nil => exact ⟨[], rfl, by rw [List.append_nil], by rwa [List.append_nil]⟩
  | cons staffId staffIds ih =>
    rw [setReportingEach_cons, Prog.post_bind]
    refine (post_setReportingPass draws drawn).mono fun r u hpass => ?_
    obtain ⟨outcome, rfl, hrest, hrows, drawn, hlinks⟩ := hpass
    have recorded : Recorded s teamId managerIds (done ++ [(staffId, outcome)]) u := by
      refine ⟨?_, ?_, fun e he => ?_⟩
      · rw [hrest, h.rest]
      · rw [hrows, h.rows, List.flatMap_append, List.append_assoc]
        simp
      · rcases List.mem_append.mp he with he | he
        · exact h.each e he
        · rw [List.mem_singleton.mp he]
          exact hlinks
    have hfold : (done.foldl Summary.record {}).record (staffId, outcome) =
        (done ++ [(staffId, outcome)]).foldl Summary.record {} := by
      rw [List.foldl_append]
      rfl
    rw [hfold, Prog.then_ok]
    refine (ih recorded drawn).mono fun r v hv => ?_
    obtain ⟨entries, hentries, rfl, hv⟩ := hv
    refine ⟨(staffId, outcome) :: entries, by rw [List.map_cons, hentries], ?_, ?_⟩
    · rw [List.append_assoc, List.singleton_append]
    · rwa [List.append_assoc, List.singleton_append] at hv

/-- The rows that were assigned, and the entries of each kind. -/
theorem foldl_record (summary : Summary) {entries : List (String × Outcome)}
    (each : ∀ e ∈ entries, ∀ links, e.2 = .assigned links → links ≠ []) :
    (entries.foldl Summary.record summary).assigned = summary.assigned + (entries.flatMap (·.2.links)).length ∧
    (entries.filter (·.2.links ≠ [])).length + (entries.foldl Summary.record summary).skipped +
      (entries.foldl Summary.record summary).failed.length = entries.length + summary.skipped + summary.failed.length := by
  induction entries generalizing summary with
  | nil => simp
  | cons e entries ih =>
    obtain ⟨staffId, outcome⟩ := e
    obtain ⟨hassigned, htotal⟩ := ih (summary.record (staffId, outcome)) fun e he => each e (List.mem_cons_of_mem _ he)
    rw [List.foldl_cons, hassigned]
    cases outcome with
    | assigned links =>
      have hlinks : links ≠ [] := each _ List.mem_cons_self links rfl
      simp [Summary.record, Outcome.links, hlinks] at htotal ⊢
      omega
    | skipped | failed reason =>
      simp [Summary.record, Outcome.links] at htotal ⊢
      omega

end Passes

/-! ### What a pass finds -/

section Refusal
variable (s : Db) (orgId userId role teamId : String) (managerIds : List String) (staffId : String)

/-- The checks of `setReporting` that no reporting row takes part in. -/
noncomputable def standing : Option HttpException :=
  open Classical in
  if role ≠ "SuperAdmin" then some (.unauthorized "Only superadmin is allowed to assign reporting.")
  else if ¬Credentials s orgId userId then some (.badRequest "Invalid credentials.")
  else if ¬∃ team ∈ s.team, team.id = teamId ∧ team.orgId = orgId then some (.notFound "Team doesn't exist.")
  else if ¬IsMember s teamId staffId then some (.badRequest "Staff is not a member of the team.")
  else if staffId ∈ managerIds then some (.badRequest "A staff member cannot report to themselves.")
  else if ∃ team ∈ s.team, team.id = teamId ∧ team.masterManagerId = staffId then
    some (.badRequest "Master manager cannot report to other managers.")
  else if ¬(managerIds.Nodup ∧ ∀ id ∈ managerIds, IsMember s teamId id) then
    some (.badRequest "One or more managers are not members of the team.")
  else none

/-- What stands against the managers to whom the staff member does not report yet. -/
noncomputable def obstacle : Option HttpException :=
  open Classical in
  if ∃ id ∈ managerIds, ¬Reports s teamId staffId id ∧ Reports s teamId id staffId then
    some (.badRequest "Reverse reporting relationship detected.")
  else if ∃ id ∈ managerIds, ¬Reports s teamId staffId id ∧ ((s.staff.find staffId).isNone ∨ (s.staff.find id).isNone) then
    some foreignKeyViolation
  else none

/-- With what `setReporting` refuses a staff member; nothing, where it does not. -/
noncomputable def refusal : Option HttpException :=
  (standing s orgId userId role teamId managerIds staffId).or (obstacle s teamId managerIds staffId)

/-- The managers that a staff member who is not refused gets. -/
noncomputable def gain : Nat :=
  if (refusal s orgId userId role teamId managerIds staffId).isNone then
    (managerIds.filter fun id => !decide (Reports s teamId staffId id)).length
  else 0

end Refusal

section Runs
variable {s t : Db} {io : Io} {orgId userId role teamId staffId : String} {managerIds : List String}

theorem returns_findTeam {error : HttpException} {Q : Except HttpException Team → Db → Prop} :
    (findTeam orgId userId teamId error).Returns Q s ↔
      (¬Credentials s orgId userId → Q (.error (.badRequest "Invalid credentials.")) s) ∧
      (Credentials s orgId userId →
        ((¬∃ team ∈ s.team, team.id = teamId ∧ team.orgId = orgId) → Q (.error error) s) ∧
        ∀ team ∈ s.team, team.id = teamId → team.orgId = orgId → Q (.ok team) s) := by
  have none_iff : (s.team.find teamId).filter (·.orgId == orgId) = none ↔
      ¬∃ team ∈ s.team, team.id = teamId ∧ team.orgId = orgId := by
    rw [← not_iff_not, not_not, ← ne_eq, Option.ne_none_iff_exists']
    simp only [Option.filter_eq_some_iff, Table.find_eq_some, beq_iff_eq, and_assoc]
    exact Iff.rfl
  simp only [findTeam, Prog.returns_bind, returns_query, Prog.then_ok, Prog.then_error, Prog.returns_failIf,
    Prog.returns_orFail, credentials_iff, not_not, none_iff, Option.filter_eq_some_iff, Table.find_eq_some, beq_iff_eq, and_imp]
  exact Iff.rfl

theorem validManagers_length_iff : (validManagers s io teamId managerIds).length = managerIds.length ↔
    managerIds.Nodup ∧ ∀ id ∈ managerIds, IsMember s teamId id := by
  refine ⟨validManagers_of_length, fun ⟨distinct, members⟩ => List.Perm.length_eq ?_⟩
  refine (List.perm_ext_iff_of_nodup nodup_validManagers distinct).mpr fun id => ?_
  rw [mem_validManagers]
  exact ⟨fun h => h.1, fun h => ⟨h, members id h⟩⟩

theorem isMember_iff : IsMember s teamId staffId ↔
    s.teamMember.findBy (fun member => member.teamId == teamId && member.staffId == staffId) ≠ none := by
  rw [Option.ne_none_iff_exists']
  simp only [findMember_eq_some]
  exact Iff.rfl

/-- Where no new manager stands in the way, the rows of the pass are stored. -/
theorem returns_assignManagers {member : TeamMember} {team : Team} {ids : List String}
    {Q : Except HttpException SetReportingReply → Db → Prop} (hteam : team ∈ s.team) (hid : team.id = teamId)
    (hmem : member ∈ s.teamMember) (hids : ∀ id, id ∈ ids ↔ id ∈ managerIds ∧ ¬Reports s teamId staffId id)
    (refused : ∀ e, obstacle s teamId managerIds staffId = some e → Q (.error e) s)
    (assigned : obstacle s teamId managerIds staffId = none →
      Q (.ok ⟨ids.length, 0⟩) { s with teamReporting := s.teamReporting.insertAll (linksTo io teamId staffId member.id ids) }) :
    (assignManagers io teamId staffId member.id ids).Returns Q s := by
  have hreverse : ((s.teamReporting.filter fun link =>
      link.teamId == teamId && ids.contains link.staffId && link.managerId == staffId).length > 0) ↔
      ∃ id ∈ managerIds, ¬Reports s teamId staffId id ∧ Reports s teamId id staffId := by
    rw [gt_iff_lt, List.length_pos_iff_exists_mem]
    simp only [Table.mem_filter, Bool.and_eq_true, beq_iff_eq, List.contains_iff_mem, hids]
    constructor
    · rintro ⟨link, hlink, ⟨hlinkTeam, hnamed, hfresh⟩, hmanager⟩
      exact ⟨link.staffId, hnamed, hfresh, link, hlink, hlinkTeam, rfl, hmanager⟩
    · rintro ⟨id, hnamed, hfresh, link, hlink, hlinkTeam, rfl, hmanager⟩
      exact ⟨link, hlink, ⟨hlinkTeam, hnamed, hfresh⟩, hmanager⟩
  have hstored : (s.teamMember.find member.id).isSome := Table.isSome_find hmem rfl
  have hforeign : ((linksTo io teamId staffId member.id ids).all fun link => (s.team.find link.teamId).isSome &&
      (s.staff.find link.staffId).isSome && (s.staff.find link.managerId).isSome &&
      link.teamMemberId.all fun id => (s.teamMember.find id).isSome) = true ↔
      ¬∃ id ∈ managerIds, ¬Reports s teamId staffId id ∧ ((s.staff.find staffId).isNone ∨ (s.staff.find id).isNone) := by
    simp only [linksTo, List.all_map, List.all_eq_true, Function.comp_apply, hids, Table.isSome_find hteam hid, hstored,
      Option.all_some, Bool.true_and, Bool.and_true, Bool.and_eq_true, not_exists, not_and, not_or, Bool.not_eq_true,
      Option.isNone_eq_false_iff, and_imp]
  simp only [assignManagers, createTeamReporting, Prog.returns_bind, Prog.returns_failIf, Prog.then_ok, Prog.then_error,
    returns_query, returns_mutate, Prog.returns_pure, hreverse]
  refine ⟨fun h => refused _ (if_pos h), fun h => ⟨fun e he => ?_, fun _ u hu => ?_⟩⟩
  · split at he
    · cases he
    · rename_i hnot
      cases he
      refine refused _ ?_
      rw [obstacle, if_neg h, if_pos (not_not.mp fun hno => hnot (hforeign.mpr hno))]
  · split at hu
    · rename_i hall
      obtain ⟨-, rfl⟩ := Prod.mk.inj (Except.ok.inj hu)
      refine assigned ?_
      rw [obstacle, if_neg h, if_neg (hforeign.mp hall)]
    · cases hu

/-- What stands against an entry once the caller and the team are found. -/
theorem standing_of_team (hrole : ¬role ≠ "SuperAdmin") (hcredentials : Credentials s orgId userId) {team : Team}
    (hteam : team ∈ s.team) (hid : team.id = teamId) (horg : team.orgId = orgId) :
    standing s orgId userId role teamId managerIds staffId =
      open Classical in
      if ¬IsMember s teamId staffId then some (.badRequest "Staff is not a member of the team.")
      else if staffId ∈ managerIds then some (.badRequest "A staff member cannot report to themselves.")
      else if team.masterManagerId = staffId then some (.badRequest "Master manager cannot report to other managers.")
      else if ¬(managerIds.Nodup ∧ ∀ id ∈ managerIds, IsMember s teamId id) then
        some (.badRequest "One or more managers are not members of the team.")
      else none := by
  have hfound : ∃ team ∈ s.team, team.id = teamId ∧ team.orgId = orgId := ⟨team, hteam, hid, horg⟩
  have hmaster : (∃ team ∈ s.team, team.id = teamId ∧ team.masterManagerId = staffId) ↔ team.masterManagerId = staffId := by
    refine ⟨?_, fun h => ⟨team, hteam, hid, h⟩⟩
    rintro ⟨other, hother, hotherId, h⟩
    rwa [← Table.eq_of_id hother hteam (hotherId.trans hid.symm)]
  rw [standing, if_neg hrole, if_neg (not_not.mpr hcredentials), if_neg (not_not.mpr hfound)]
  simp only [hmaster]

/-- Nothing stands against managers to whom the staff member reports. -/
theorem obstacle_of_reports (hall : ∀ id ∈ managerIds, Reports s teamId staffId id) :
    obstacle s teamId managerIds staffId = none := by
  have hnew : ∀ P : String → Prop, ¬∃ id ∈ managerIds, ¬Reports s teamId staffId id ∧ P id := by
    rintro P ⟨id, hid, hfresh, -⟩
    exact hfresh (hall id hid)
  rw [obstacle, if_neg (hnew _), if_neg (hnew _)]

/-- What `setReporting` does where nothing fails in the database. -/
theorem returns_setReporting_refusal {Q : Except HttpException SetReportingReply → Db → Prop}
    (refused : ∀ e, refusal s orgId userId role teamId managerIds staffId = some e → Q (.error e) s)
    (nothing : refusal s orgId userId role teamId managerIds staffId = none → (∀ id ∈ managerIds, Reports s teamId staffId id) →
      ∀ skipped, Q (.ok ⟨0, skipped⟩) s)
    (assigned : refusal s orgId userId role teamId managerIds staffId = none → ∀ memberId ids, ids ≠ [] → ids.Nodup →
      managerIds.Nodup → (∀ id, id ∈ ids ↔ id ∈ managerIds ∧ ¬Reports s teamId staffId id) → Q (.ok ⟨ids.length, 0⟩)
        { s with teamReporting := s.teamReporting.insertAll (linksTo io teamId staffId memberId ids) }) :
    (setReporting io orgId userId role teamId { staffId, managerIds }).Returns Q s := by
  have stands : ∀ e, standing s orgId userId role teamId managerIds staffId = some e → Q (.error e) s := by
    intro e he
    exact refused e (by rw [refusal, he, Option.some_or])
  simp only [setReporting, findMember, Prog.returns_bind, Prog.returns_failIf, Prog.returns_orFail, Prog.then_ok,
    Prog.then_error, returns_query, returns_findTeam]
  refine ⟨fun hrole => stands _ (by simp [standing, hrole]), fun hrole => ⟨fun hcredentials => stands _ ?_, fun hcredentials =>
    ⟨fun hnone => stands _ ?_, fun team hteam hid horg => ?_⟩⟩⟩
  · simp [standing, not_not.mp hrole, hcredentials]
  · rw [standing, if_neg hrole, if_neg (not_not.mpr hcredentials), if_pos hnone]
  have hpassed : standing s orgId userId role teamId managerIds staffId = _ := standing_of_team hrole hcredentials hteam hid horg
  rw [hpassed] at stands
  refine ⟨fun hmember => stands _ (by rw [if_pos fun h => isMember_iff.mp h hmember]), fun member hmember => ?_⟩
  have hof : IsMember s teamId staffId := ⟨member, findMember_eq_some.mp hmember⟩
  rw [if_neg (not_not.mpr hof)] at hpassed stands
  refine ⟨fun hself => stands _ (by rw [if_pos hself]), fun hself => ⟨fun hmaster => ?_, fun hmaster => ?_⟩⟩
  · exact stands _ (by rw [if_neg hself, if_pos hmaster])
  rw [if_neg hself, if_neg hmaster] at hpassed stands
  refine ⟨fun hlength => stands _ (if_pos fun h => hlength (validManagers_length_iff.mpr h)), fun hlength => ?_⟩
  have hmanagers := validManagers_of_length (not_not.mp hlength)
  rw [if_neg (not_not.mpr hmanagers)] at hpassed
  have hrefusal : refusal s orgId userId role teamId managerIds staffId = obstacle s teamId managerIds staffId := by
    rw [refusal, hpassed, Option.none_or]
  have hids : ∀ id, id ∈ newManagers s io teamId staffId managerIds ↔ id ∈ managerIds ∧ ¬Reports s teamId staffId id :=
    fun id => mem_newManagers hmanagers.2
  change (ite ((newManagers s io teamId staffId managerIds).length = 0) _
    (assignManagers io teamId staffId member.id
      (newManagers s io teamId staffId managerIds)) : Service SetReportingReply).Returns _ s
  split
  · rename_i hnil
    have hall : ∀ id ∈ managerIds, Reports s teamId staffId id := by
      intro id hid
      by_contra hfresh
      exact absurd ((hids id).mpr ⟨hid, hfresh⟩) (by rw [List.length_eq_zero_iff.mp hnil]; exact List.not_mem_nil)
    exact nothing (hrefusal.trans (obstacle_of_reports hall)) hall _
  · rename_i hsome
    refine returns_assignManagers hteam hid (findMember_eq_some.mp hmember).1 hids (fun e he => refused e (hrefusal.trans he))
      fun hclear => assigned (hrefusal.trans hclear) member.id _ (fun hnil => hsome ?_) nodup_newManagers hmanagers.1 hids
    rw [hnil]
    rfl

end Runs

/-! ### The order of the entries -/

/-- The loop led from `s` to `t`, and what it reports is a matter of the entries alone. -/
structure Progress (s : Db) (orgId userId role teamId : String) (managerIds : List String) (client : String → String)
    (done : List String) (summary : Summary) (t : Db) : Prop where
  rest : t = { s with teamReporting := t.teamReporting }
  reports : ∀ team a b, Reports t team a b ↔ Reports s team a b ∨
    (team = teamId ∧ a ∈ done ∧ refusal s orgId userId role teamId managerIds a = none ∧ b ∈ managerIds)
  failed : summary.failed = done.filterMap fun a => (refusal s orgId userId role teamId managerIds a).map fun e =>
    (a, (truthy (some (e.message client))).getD "Failed to assign reporting")
  assigned : summary.assigned = ∑ a ∈ done.toFinset, gain s orgId userId role teamId managerIds a
  total : summary.skipped + summary.failed.length +
    (done.toFinset.filter fun a => gain s orgId userId role teamId managerIds a ≠ 0).card = done.length

section Order
variable {s t : Db} {io : Nat → Io} {orgId userId role teamId staffId : String} {managerIds staffIds done : List String} {i : Nat}
  {summary : Summary} {client : String → String}

theorem standing_eq_none (h : standing s orgId userId role teamId managerIds staffId = none) : staffId ∉ managerIds := by
  unfold standing at h
  split_ifs at h
  assumption

theorem sum_insert_settled {S : Finset String} {f : String → Nat} {a : String} (h : a ∈ S ∨ f a = 0) :
    ∑ x ∈ insert a S, f x = ∑ x ∈ S, f x ∧ (insert a S).filter (f · ≠ 0) = S.filter (f · ≠ 0) := by
  rcases h with h | h
  · rw [Finset.insert_eq_of_mem h]
    exact ⟨rfl, rfl⟩
  · refine ⟨Finset.sum_insert_zero h, ?_⟩
    rw [Finset.filter_insert, if_neg (not_not.mpr h)]

/-- An earlier entry stands in no later one's way: whoever is also one of the managers is refused first. -/
theorem Progress.refusal_eq (h : Progress s orgId userId role teamId managerIds client done summary t) :
    refusal t orgId userId role teamId managerIds staffId = refusal s orgId userId role teamId managerIds staffId := by
  have hstanding : standing t orgId userId role teamId managerIds staffId =
      standing s orgId userId role teamId managerIds staffId := by
    rw [h.rest]
    rfl
  have hstaff : t.staff = s.staff := by rw [h.rest]
  cases hstand : standing s orgId userId role teamId managerIds staffId with
  | some e => rw [refusal, refusal, hstanding, hstand, Option.some_or, Option.some_or]
  | none =>
    have hself := standing_eq_none hstand
    have hreverse : ∀ id, Reports t teamId id staffId ↔ Reports s teamId id staffId := by
      intro id
      rw [h.reports]
      exact or_iff_left fun hnew => hself hnew.2.2.2
    by_cases hdone : staffId ∈ done ∧ refusal s orgId userId role teamId managerIds staffId = none
    · have hall : ∀ P : String → Prop, ¬∃ id ∈ managerIds, ¬Reports t teamId staffId id ∧ P id := by
        rintro P ⟨id, hid, hfresh, -⟩
        exact hfresh ((h.reports teamId staffId id).mpr (Or.inr ⟨rfl, hdone.1, hdone.2, hid⟩))
      rw [hdone.2, refusal, hstanding, hstand, Option.none_or, obstacle, if_neg (hall _), if_neg (hall _)]
    · have hforward : ∀ id, Reports t teamId staffId id ↔ Reports s teamId staffId id := by
        intro id
        rw [h.reports]
        exact or_iff_left fun hnew => hdone ⟨hnew.2.1, hnew.2.2.1⟩
      simp only [refusal, hstanding, obstacle, hforward, hreverse, hstaff]

theorem toFinset_concat : (done ++ [staffId]).toFinset = insert staffId done.toFinset := by
  ext a
  simp

/-- A refused entry is reported as failed. -/
theorem Progress.refused (h : Progress s orgId userId role teamId managerIds client done summary t) {e : HttpException}
    (he : refusal s orgId userId role teamId managerIds staffId = some e) :
    Progress s orgId userId role teamId managerIds client (done ++ [staffId]) (summary.fail staffId (e.message client)) t := by
  have hgain : gain s orgId userId role teamId managerIds staffId = 0 := by
    rw [gain, he]
    rfl
  obtain ⟨hsum, hcard⟩ := sum_insert_settled (S := done.toFinset) (Or.inr hgain)
  refine ⟨h.rest, fun team a b => ?_, ?_, ?_, ?_⟩
  · rw [h.reports, List.mem_append, List.mem_singleton]
    refine or_congr_right ⟨fun hnew => ⟨hnew.1, Or.inl hnew.2.1, hnew.2.2⟩, ?_⟩
    rintro ⟨hteam, hdone | rfl, hnone, hb⟩
    · exact ⟨hteam, hdone, hnone, hb⟩
    · rw [he] at hnone
      cases hnone
  · rw [List.filterMap_append, ← h.failed, List.filterMap_cons_some (by rw [he]; rfl)]
    rfl
  · rw [toFinset_concat, hsum]
    exact h.assigned
  · rw [toFinset_concat, hcard]
    have htotal := h.total
    simp only [Summary.fail, List.length_append, List.length_singleton]
    omega

/-- An entry that finds every manager assigned is skipped: it has been there before, or had nothing to gain. -/
theorem Progress.nothing (h : Progress s orgId userId role teamId managerIds client done summary t)
    (hnone : refusal s orgId userId role teamId managerIds staffId = none) (hall : ∀ id ∈ managerIds, Reports t teamId staffId id)
    (skipped : Nat) :
    Progress s orgId userId role teamId managerIds client (done ++ [staffId]) (summary.add ⟨0, skipped⟩) t := by
  have settled : staffId ∈ done.toFinset ∨ gain s orgId userId role teamId managerIds staffId = 0 := by
    by_cases hdone : staffId ∈ done
    · exact Or.inl (List.mem_toFinset.mpr hdone)
    · have hold : ∀ id ∈ managerIds, Reports s teamId staffId id := fun id hid =>
        ((h.reports teamId staffId id).mp (hall id hid)).resolve_right fun hnew => hdone hnew.2.1
      refine Or.inr ?_
      rw [gain, List.filter_eq_nil_iff.mpr fun id hid => by simp [hold id hid], List.length_nil, ite_self]
  obtain ⟨hsum, hcard⟩ := sum_insert_settled settled
  refine ⟨h.rest, fun team a b => ?_, ?_, ?_, ?_⟩
  · constructor
    · intro hab
      refine ((h.reports team a b).mp hab).imp_right fun hnew => ⟨hnew.1, List.mem_append_left _ hnew.2.1, hnew.2.2⟩
    · rintro (hold | ⟨rfl, hdone, hrefusal, hb⟩)
      · exact (h.reports team a b).mpr (Or.inl hold)
      · rcases List.mem_append.mp hdone with hdone | hlast
        · exact (h.reports team a b).mpr (Or.inr ⟨rfl, hdone, hrefusal, hb⟩)
        · rw [List.mem_singleton.mp hlast]
          exact hall b hb
  · rw [List.filterMap_append, ← h.failed, List.filterMap_cons_none (by rw [hnone]; rfl)]
    simp [Summary.add]
  · rw [toFinset_concat, hsum]
    exact h.assigned
  · rw [toFinset_concat, hcard]
    have htotal := h.total
    simp only [Summary.add, if_true, List.length_append, List.length_singleton]
    omega

/-- An entry that gets managers gains what it would have gained at first. -/
theorem Progress.assign (h : Progress s orgId userId role teamId managerIds client done summary t) (drawn : Drawn s io i t)
    (draws : Draws s io) (hnone : refusal s orgId userId role teamId managerIds staffId = none) {memberId : String}
    {ids : List String} (some_id : ids ≠ []) (nodup : ids.Nodup) (distinct : managerIds.Nodup)
    (hids : ∀ id, id ∈ ids ↔ id ∈ managerIds ∧ ¬Reports t teamId staffId id) :
    Progress s orgId userId role teamId managerIds client (done ++ [staffId]) (summary.add ⟨ids.length, 0⟩)
      { t with teamReporting := t.teamReporting.insertAll (linksTo (io i) teamId staffId memberId ids) } := by
  have hdone : staffId ∉ done := by
    intro hdone
    obtain ⟨id, hid⟩ := List.exists_mem_of_ne_nil ids some_id
    obtain ⟨hnamed, hfresh⟩ := (hids id).mp hid
    exact hfresh ((h.reports teamId staffId id).mpr (Or.inr ⟨rfl, hdone, hnone, hnamed⟩))
  have hgain : gain s orgId userId role teamId managerIds staffId = ids.length := by
    rw [gain, hnone, if_pos Option.isNone_none]
    refine List.Perm.length_eq ((List.perm_ext_iff_of_nodup (distinct.filter _) nodup).mpr fun id => ?_)
    rw [List.mem_filter, hids, h.reports]
    simp [hdone]
  have hlength : ids.length ≠ 0 := fun hzero => some_id (List.length_eq_zero_iff.mp hzero)
  have hset : staffId ∉ done.toFinset := fun hmem => hdone (List.mem_toFinset.mp hmem)
  have hadd : summary.add ⟨ids.length, 0⟩ = { summary with assigned := summary.assigned + ids.length } := if_neg hlength
  refine ⟨by rw [h.rest], fun team a b => ?_, ?_, ?_, ?_⟩
  · rw [drawn.reports draws nodup, h.reports, List.mem_append, List.mem_singleton]
    constructor
    · rintro ((hold | ⟨rfl, ha, hrefusal, hb⟩) | ⟨rfl, rfl, hb⟩)
      · exact Or.inl hold
      · exact Or.inr ⟨rfl, Or.inl ha, hrefusal, hb⟩
      · exact Or.inr ⟨rfl, Or.inr rfl, hnone, ((hids b).mp hb).1⟩
    · rintro (hold | ⟨rfl, ha | rfl, hrefusal, hb⟩)
      · exact Or.inl (Or.inl hold)
      · exact Or.inl (Or.inr ⟨rfl, ha, hrefusal, hb⟩)
      · by_cases hold : Reports t team a b
        · exact Or.inl ((h.reports team a b).mp hold)
        · exact Or.inr ⟨rfl, rfl, (hids b).mpr ⟨hb, hold⟩⟩
  · rw [List.filterMap_append, ← h.failed, List.filterMap_cons_none (by rw [hnone]; rfl), hadd]
    exact (List.append_nil _).symm
  · rw [toFinset_concat, Finset.sum_insert hset, hgain, hadd, h.assigned]
    exact Nat.add_comm _ _
  · rw [toFinset_concat, Finset.filter_insert, if_pos (by rwa [hgain]), Finset.card_insert_of_notMem (by simp [hdone]), hadd]
    have htotal := h.total
    simp only [List.length_append, List.length_singleton]
    omega

theorem Progress.pass (h : Progress s orgId userId role teamId managerIds client done summary t) (drawn : Drawn s io i t)
    (draws : Draws s io) (texts : (io i).client = client) :
    (setReportingPass io orgId userId role teamId managerIds staffId i summary).Returns (fun r u => ∃ summary', r = .ok summary' ∧
      Progress s orgId userId role teamId managerIds client (done ++ [staffId]) summary' u ∧ Drawn s io (i + 1) u) t := by
  simp only [setReportingPass, Prog.returns_orElse, Prog.returns_bind, texts]
  refine returns_setReporting_refusal (fun e he => ?_) (fun hnone hall skipped => ?_)
    fun hnone memberId ids some_id nodup distinct hids => ?_
  · exact ⟨_, rfl, h.refused (h.refusal_eq.symm.trans he), drawn.mono⟩
  · exact ⟨_, rfl, h.nothing (h.refusal_eq.symm.trans hnone) hall skipped, drawn.mono⟩
  · exact ⟨_, rfl, h.assign drawn draws (h.refusal_eq.symm.trans hnone) some_id nodup distinct hids, drawn.assign⟩

theorem Progress.each (h : Progress s orgId userId role teamId managerIds client done summary t) (drawn : Drawn s io i t)
    (draws : Draws s io) (texts : ∀ i, (io i).client = client) :
    (setReportingEach io orgId userId role teamId managerIds staffIds i summary).Returns
      (fun r u => ∃ summary', r = .ok summary' ∧
      Progress s orgId userId role teamId managerIds client (done ++ staffIds) summary' u) t := by
  induction staffIds generalizing i done summary t with
  | nil => exact ⟨summary, rfl, by rwa [List.append_nil]⟩
  | cons staffId staffIds ih =>
    rw [setReportingEach_cons, Prog.returns_bind]
    refine (h.pass drawn draws (texts i)).mono fun r u hpass => ?_
    obtain ⟨summary', rfl, hnext, hdrawn⟩ := hpass
    have hrest := ih hnext hdrawn
    rwa [List.append_assoc, List.singleton_append] at hrest

theorem Progress.init : Progress s orgId userId role teamId managerIds client [] {} s :=
  ⟨rfl, by simp, rfl, rfl, rfl⟩

/-- A whole request, where nothing fails in the database. -/
theorem exists_progress (orgId userId role teamId : String) (dto : BulkSetReportingDto) (draws : Draws s io)
    (texts : ∀ i, (io i).client = client) :
    ∃ summary t, (setReportingBulk io orgId userId role teamId dto).run s = (.ok summary, t) ∧
      Progress s orgId userId role teamId dto.managerIds client dto.staffIds summary t := by
  have start : Progress s orgId userId role teamId dto.managerIds client [] {} s := Progress.init
  have drawn : Drawn s io 0 s := fun _ hlink => Or.inl hlink
  obtain ⟨summary, hrun, h⟩ := start.each drawn draws texts
  exact ⟨summary, _, Prod.ext hrun rfl, h⟩

end Order

/-- A bulk request, in any order of its entries: each entry is assigned, skipped or failed, whatever fails in
    the database, and a failed one adds no row; and where nothing fails there, the order decides neither who
    reports to whom nor what is reported. -/
theorem setReportingBulk_accounts (s : Db) (io io' : Nat → Io) (client : String → String) (orgId userId role teamId : String)
    (dto : BulkSetReportingDto) (staffIds' : List String) (hperm : staffIds'.Perm dto.staffIds) (draws : Draws s io)
    (draws' : Draws s io') (texts : ∀ i, (io i).client = client ∧ (io' i).client = client) :
    (∀ r t, Prog.Exec (setReportingBulk io orgId userId role teamId dto) s r t → ∃ entries summary, r = .ok summary ∧
      entries.map (·.1) = dto.staffIds ∧ summary = entries.foldl Summary.record {} ∧
      Recorded s teamId dto.managerIds entries t ∧
      t.teamReporting.rows.length = s.teamReporting.rows.length + summary.assigned ∧
      (entries.filter (·.2.links ≠ [])).length + summary.skipped + summary.failed.length = dto.staffIds.length) ∧
    ∃ summary summary' t t', (setReportingBulk io orgId userId role teamId dto).run s = (.ok summary, t) ∧
      (setReportingBulk io' orgId userId role teamId { dto with staffIds := staffIds' }).run s = (.ok summary', t') ∧
      (∀ team a b, Reports t' team a b ↔ Reports t team a b) ∧ summary'.assigned = summary.assigned ∧
      summary'.skipped = summary.skipped ∧ summary'.failed.Perm summary.failed := by
  constructor
  · intro r t hexec
    have start : Recorded s teamId dto.managerIds [] s := ⟨rfl, (List.append_nil _).symm, by simp⟩
    obtain ⟨entries, hentries, rfl, recorded⟩ := (post_setReportingEach draws start fun _ h => Or.inl h).of_exec hexec
    rw [List.nil_append] at recorded
    obtain ⟨hassigned, htotal⟩ := foldl_record {} fun e he links hlinks => (recorded.each e he links hlinks).1
    refine ⟨entries, _, rfl, hentries, rfl, recorded, ?_, ?_⟩
    · rw [recorded.rows, List.length_append, List.nil_append, hassigned]
      simp
    · rw [← hentries, List.length_map, List.nil_append, htotal]
      simp
  · obtain ⟨summary, t, hrun, h⟩ := exists_progress orgId userId role teamId dto draws fun i => (texts i).1
    obtain ⟨summary', t', hrun', h'⟩ :=
      exists_progress orgId userId role teamId { dto with staffIds := staffIds' } draws' fun i => (texts i).2
    have hset : staffIds'.toFinset = dto.staffIds.toFinset := List.toFinset_eq_of_perm _ _ hperm
    have htotal := h.total
    have hfailed : summary'.failed.Perm summary.failed := by
      rw [h'.failed, h.failed]
      exact hperm.filterMap _
    refine ⟨summary, summary', t, t', hrun, hrun', fun team a b => ?_, ?_, ?_, hfailed⟩
    · rw [h'.reports, h.reports]
      simp only [hperm.mem_iff]
    · rw [h'.assigned, h.assigned, hset]
    · have htotal' := h'.total
      dsimp only at htotal'
      rw [hset, hfailed.length_eq, hperm.length_eq] at htotal'
      omega

namespace Crew

/-- Pass `i` marks the identifiers that it draws with `i` strokes. -/
def strokes (i : Nat) : Io where
  teamId := "team"
  memberId := id
  reportingId manager := .ofList (List.replicate i '/' ++ '-' :: manager.toList)
  staff := .stored
  members := .stored
  reporting := .stored
  client := id

theorem strokes_inj {i j : Nat} {l m : List Char} (h : List.replicate i '/' ++ '-' :: l = List.replicate j '/' ++ '-' :: m) :
    i = j ∧ l = m := by
  induction i generalizing j with
  | zero => cases j <;> simp [List.replicate_succ] at h ⊢; exact h
  | succ i ih =>
    cases j with
    | zero => simp [List.replicate_succ] at h
    | succ j =>
      rw [List.replicate_succ, List.replicate_succ, List.cons_append, List.cons_append, List.cons.injEq] at h
      obtain ⟨rfl, rfl⟩ := ih h.2
      exact ⟨rfl, rfl⟩

theorem draws_strokes {s : Db} (h : s.teamReporting = ∅) : Draws s strokes where
  unused _ _ link hlink := absurd (h ▸ hlink) Table.not_mem_empty
  distinct i j a b hid := by
    obtain ⟨rfl, hab⟩ := strokes_inj (String.ofList_injective hid)
    exact ⟨rfl, String.toList_injective hab⟩

end Crew

section Crew
open Crew

theorem setReportingBulk_accounts_crew : ∃ summary summary' t t',
    (setReportingBulk strokes "org" "boss" "SuperAdmin" "team" ⟨["bob", "cat", "bob", "dan", "eve"], ["dan"]⟩).run
      (runAll db founding) = (.ok summary, t) ∧
    (setReportingBulk strokes "org" "boss" "SuperAdmin" "team" ⟨["eve", "dan", "bob", "cat", "bob"], ["dan"]⟩).run
      (runAll db founding) = (.ok summary', t') ∧
    (∀ team a b, Reports t' team a b ↔ Reports t team a b) ∧ summary'.assigned = summary.assigned ∧
    summary'.skipped = summary.skipped ∧ summary'.failed.Perm summary.failed :=
  (setReportingBulk_accounts (runAll db founding) strokes strokes id "org" "boss" "SuperAdmin" "team"
    ⟨["bob", "cat", "bob", "dan", "eve"], ["dan"]⟩ ["eve", "dan", "bob", "cat", "bob"] (by decide) (draws_strokes rfl)
    (draws_strokes rfl) fun _ => ⟨rfl, rfl⟩).2

end Crew

end Vms.TeamService
