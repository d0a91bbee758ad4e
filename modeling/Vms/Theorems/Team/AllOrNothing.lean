import Vms.Theorems.Team.Step

/-! Which writes of staff members and teams happen as a whole when one of their statements fails. Four run in a
    transaction. The other three send two dependent statements in a row: what is left behind when the second
    one fails is a credential without a staff member, a team without its master manager among the members,
    or the reporting rows of a member who is gone. -/

namespace Vms.Writes
open Relational HttpException StaffService TeamService

inductive Write where
  | addStaffMember (js : Js) (io : StaffService.Io) (orgId : Option String) (role : String) (dto : AddStaffMemberDto)
    (qOrgId : Option String)
  | addStaffBulk (js : Js) (io : StaffService.Io) (orgId : Option String) (role : String) (staffList : List AddStaffMemberDto)
    (qOrgId : Option String)
  | editStaffMemberDetails (io : StaffService.Io) (orgId : Option String) (role staffId : String) (dto : EditStaffMemberDto)
    (qOrgId : Option String)
  | deleteStaffMember (orgId : Option String) (role staffId : String) (qOrgId : Option String)
  | addTeam (io : TeamService.Io) (orgId userId role : String) (dto : CreateTeamDto)
  | editTeam (orgId userId role teamId : String) (dto : EditTeamDto)
  | removeMember (orgId userId role teamId memberId : String)

def perform : Write → Service Unit
  | .addStaffMember js io orgId role dto qOrgId => do let _ ← addStaffMember js io orgId role dto qOrgId
  | .addStaffBulk js io orgId role staffList qOrgId => do let _ ← addStaffBulk js io orgId role staffList qOrgId
  | .editStaffMemberDetails io orgId role staffId dto qOrgId => do
    let _ ← editStaffMemberDetails io orgId role staffId dto qOrgId
  | .deleteStaffMember orgId role staffId qOrgId => do let _ ← deleteStaffMember orgId role staffId qOrgId
  | .addTeam io orgId userId role dto => do let _ ← addTeam io orgId userId role dto
  | .editTeam orgId userId role teamId dto => do let _ ← editTeam orgId userId role teamId dto
  | .removeMember orgId userId role teamId memberId => do let _ ← removeMember orgId userId role teamId memberId

/-- The rows that the writes are about. -/
structure SameRows (s t : Db) : Prop where
  staff : t.staff = s.staff
  userCredential : t.userCredential = s.userCredential
  team : t.team = s.team
  teamMember : t.teamMember = s.teamMember
  teamReporting : t.teamReporting = s.teamReporting

@[refl] theorem SameRows.refl (s : Db) : SameRows s s := ⟨rfl, rfl, rfl, rfl, rfl⟩

/-- Whichever statements fail, the rows are those of before, or those that the write leaves when it succeeds. -/
def Whole (w : Write) (s : Db) : Prop := ∀ r t, Prog.Exec (perform w) s r t →
  SameRows s t ∨ ∃ u, Prog.Exec (perform w) s (.ok ()) u ∧ SameRows u t

/-! ### What the writes without a transaction need -/

/-- A deletion passes all its checks for a staff member. -/
structure Deletable (s : Db) (orgId : Option String) (role staffId : String) (qOrgId : Option String) (staff : Staff) :
    Prop extends MayDelete s orgId role staffId qOrgId staff where
  allowed : role ∈ ["Root", "SuperAdmin", "Admin"]
  organization : ∃ organization ∈ s.organization, truthy (targetOrgId orgId role qOrgId) = some organization.id

/-- A new team passes all checks, and its row is stored. -/
structure Foundable (s : Db) (io : TeamService.Io) (orgId userId role : String) (dto : CreateTeamDto) (u : Table Team) :
    Prop where
  superAdmin : role = "SuperAdmin"
  credentials : Credentials s orgId userId
  masterManager : ∃ staff ∈ s.staff, staff.id = dto.masterManagerId ∧ staff.orgId = orgId
  stored : s.team.insert (newTeam io orgId dto) = some u

/-- A removal passes all its checks for a member. -/
structure Removable (s : Db) (orgId userId role teamId memberId : String) (member : TeamMember) : Prop where
  superAdmin : role = "SuperAdmin"
  credentials : Credentials s orgId userId
  mem : member ∈ s.teamMember
  id : member.id = memberId
  team : member.teamId = teamId

/-- The second statement of the write has nothing to do, or the write does not come to the first one. -/
def Untorn (s : Db) : Write → Prop
  | .deleteStaffMember orgId role staffId qOrgId =>
    ∀ staff, Deletable s orgId role staffId qOrgId staff → truthy staff.userId = none
  | .addTeam io orgId userId role dto => ∀ u, ¬Foundable s io orgId userId role dto u
  | .removeMember orgId userId role teamId memberId => ∀ member, Removable s orgId userId role teamId memberId member →
    ∀ link ∈ s.teamReporting, involves teamId member link = true → link.teamMemberId = some memberId
  | _ => True

/-! ### Rules -/

section Rules
variable {s : Db} {w : Write}

/-- A write that changes nothing unless it succeeds. -/
theorem whole_of_allOrNothing (h : (perform w).Post (AllOrNothing s fun _ _ => True) s) : Whole w s := by
  intro r t hexec
  have ht := h.of_exec hexec
  cases r with
  | error e =>
    rw [allOrNothing_error] at ht
    rw [ht]
    exact Or.inl (SameRows.refl s)
  | ok a => exact Or.inr ⟨t, hexec, SameRows.refl t⟩

theorem whole_iff_post : Whole w s ↔ (perform w).Post (fun _ t => SameRows s t ∨
    ∃ u, Prog.Exec (perform w) s (.ok ()) u ∧ SameRows u t) s := Prog.post_iff.symm

theorem allOrNothing_discard {α : Type} {p : Service α} (done : α → Db → Prop) (h : p.Post (AllOrNothing s done) s) :
    (do let _ ← p : Service Unit).Post (AllOrNothing s fun _ _ => True) s := by
  rw [Prog.post_bind]
  refine h.mono fun r t hr => ?_
  cases r with
  | error e => exact hr
  | ok a => trivial

end Rules

/-! ### Deleting a staff member -/

section Delete
variable {s : Db} {orgId qOrgId : Option String} {role staffId : String} {staff : Staff}

theorem post_checkDeletion {Q : Except HttpException Unit → Db → Prop} (fails : ∀ e, Q (.error e) s) :
    (checkDeletion role staff).Post Q s ↔
      ((role = "SuperAdmin" → staff.role ≠ .superAdmin) → (role = "Admin" → staff.role = .staff) → Q (.ok ()) s) := by
  unfold checkDeletion
  split
  · rename_i hroot
    simp [hroot]
  · split
    · rename_i hsuper
      simp [hsuper, fails]
    · split
      · rename_i hsuper hadmin
        simp [hadmin, fails]
      · rename_i hsuper hadmin
        simp [hsuper, hadmin]

/-- After the checks the staff member goes, and then the credential. -/
theorem post_deleteStaffMember {Q : Except HttpException String → Db → Prop} (fails : ∀ e, Q (.error e) s) :
    (deleteStaffMember orgId role staffId qOrgId).Post Q s ↔
      ∀ staff, Deletable s orgId role staffId qOrgId staff → (deleteCredential (truthy staff.userId)).Post
        (Prog.Then (fun _ => pure "Staff member deleted successfully.") Prog.Post Q) (s.deleteStaff (· == staffId)) := by
  simp only [deleteStaffMember, Prog.post_bind, Prog.post_failIf, Prog.then_ok, Prog.then_error, post_query, Prog.post_orFail,
    fails, implies_true, true_and, and_true, not_not, Table.find_eq_some, not_and_or]
  constructor
  · intro h staff may
    obtain ⟨organization, horganization, htarget⟩ := may.organization
    have hin : role = "Root" ∨ staff.orgId = organization.id :=
      may.inOrg.imp_right fun hin => Option.some.inj (hin.symm.trans htarget)
    have hcheck := h may.allowed _ htarget organization ⟨horganization, rfl⟩ staff ⟨may.mem, may.id⟩ hin
    have hdelete := (post_checkDeletion (fun e => fails e)).mp hcheck may.superAdmin may.admin
    simp only [Prog.then_ok, Prog.post_bind, deleteStaff, post_mutate_ite, Table.find_eq_some.mpr ⟨may.mem, may.id⟩] at hdelete
    simpa using hdelete.1
  · intro h hallowed target htarget organization horganization staff hstaff hin
    refine (post_checkDeletion (fun e => fails e)).mpr fun hsuper hadmin => ?_
    simp only [Prog.then_ok, Prog.post_bind, deleteStaff, post_mutate_ite]
    refine ⟨⟨fun _ => fails _, fun _ => h staff ?_⟩, fails _⟩
    refine ⟨⟨hstaff.1, hstaff.2, hin.imp_right fun hin => ?_, hsuper, hadmin⟩, hallowed, organization, horganization.1, ?_⟩
    · rw [hin]
      exact htarget
    · rw [htarget]
      exact congrArg some horganization.2.symm

/-- A success leaves no credential of the staff member. -/
theorem exec_deleteStaffMember {u : Db} {userId : String}
    (hexec : Prog.Exec (perform (.deleteStaffMember orgId role staffId qOrgId)) s (.ok ()) u)
    (may : MayDelete s orgId role staffId qOrgId staff) (hlinked : truthy staff.userId = some userId) :
    (∃ user ∈ s.userCredential, user.id = userId) ∧ ∀ user ∈ u.userCredential, user.id ≠ userId := by
  obtain ⟨message, hexec⟩ := Prog.Exec.of_discard hexec
  have hrule : (deleteStaffMember orgId role staffId qOrgId).Post (fun r t => ∀ message, r = .ok message →
      (∃ user ∈ s.userCredential, user.id = userId) ∧ ∀ user ∈ t.userCredential, user.id ≠ userId) s := by
    refine (post_deleteStaffMember fun _ _ h => by cases h).mpr fun other mayOther => ?_
    obtain rfl : other = staff := Table.eq_of_id mayOther.mem may.mem (mayOther.id.trans may.id.symm)
    rw [hlinked, deleteCredential, deleteUser, post_mutate_ite]
    refine ⟨⟨fun _ _ h => (by cases h), fun hstored _ _ => ?_⟩, fun _ h => by cases h⟩
    change ¬(s.userCredential.find userId).isNone = true at hstored
    obtain ⟨user, huser⟩ := Option.isSome_iff_exists.mp (by simpa [Option.isSome_iff_ne_none] using hstored)
    exact ⟨⟨user, Table.find_eq_some.mp huser⟩, fun user huser hid => by simpa [hid] using (Table.mem_delete.mp huser).2⟩
  exact hrule.of_exec hexec message rfl

/-- A deletion is whole exactly if the staff member has no credential. -/
theorem whole_deleteStaffMember : Whole (.deleteStaffMember orgId role staffId qOrgId) s ↔
    Untorn s (.deleteStaffMember orgId role staffId qOrgId) := by
  constructor
  · intro whole staff may
    cases hlinked : truthy staff.userId with
    | none => rfl
    | some userId =>
      exfalso
      have hpost := (post_deleteStaffMember fun _ => Or.inl (SameRows.refl s)).mp
        (Prog.post_discard.mp (whole_iff_post.mp whole)) staff may
      rw [hlinked, deleteCredential, deleteUser, post_mutate_ite] at hpost
      -- the second statement fails
      rcases hpost.2 with same | ⟨u, hexec, same⟩
      · have hmem : staff ∈ (s.deleteStaff (· == staffId)).staff := same.staff ▸ may.mem
        have hgone := (Table.mem_delete.mp hmem).2
        simp [may.id] at hgone
      · obtain ⟨⟨user, huser, hid⟩, hgone⟩ := exec_deleteStaffMember hexec may.toMayDelete hlinked
        have husers : s.userCredential = u.userCredential := same.userCredential
        exact hgone user (husers ▸ huser) hid
  · intro untorn
    refine whole_of_allOrNothing (allOrNothing_discard (fun _ _ => True) ?_)
    refine (post_deleteStaffMember fun _ => rfl).mpr fun staff may => ?_
    rw [untorn staff may]
    exact trivial

end Delete

/-! ### Adding a team -/

section AddTeam
variable {s : Db} {io : TeamService.Io} {orgId userId role : String} {dto : CreateTeamDto}

/-- After the checks the team is stored, and then its master manager becomes a member. -/
theorem post_addTeam {Q : Except HttpException Team → Db → Prop} (fails : ∀ e, Q (.error e) s) :
    (addTeam io orgId userId role dto).Post Q s ↔ ∀ u, Foundable s io orgId userId role dto u →
      (createTeamMember (masterMember io (newTeam io orgId dto))).Post
        (Prog.Then (fun _ => pure (newTeam io orgId dto)) Prog.Post Q) { s with team := u } := by
  simp only [addTeam, Prog.post_bind, Prog.post_failIf, Prog.then_ok, Prog.then_error, post_checkCredentials, post_query,
    Prog.post_orFail, fails, implies_true, true_and, and_true, createTeam, post_mutate, created_eq_ok,
    Option.filter_eq_some_iff, Table.find_eq_some, beq_iff_eq, not_not, List.mem_singleton]
  constructor
  · intro h u may
    obtain ⟨staff, hstaff, hid, horg⟩ := may.masterManager
    obtain ⟨organization, horganization, hofOrg⟩ := may.credentials.1
    have hreferences : ((s.organization.find orgId).isSome && (s.staff.find dto.masterManagerId).isSome) = true := by
      rw [Table.find_eq_some.mpr ⟨horganization, hofOrg⟩, Table.find_eq_some.mpr ⟨hstaff, hid⟩]
      rfl
    exact h may.superAdmin may.credentials staff ⟨⟨hstaff, hid⟩, horg⟩ (newTeam io orgId dto) _
      ⟨hreferences, rfl, u, may.stored, rfl⟩
  · rintro h hrole hcredentials staff ⟨⟨hstaff, hid⟩, horg⟩ _ t ⟨-, rfl, u, hu, rfl⟩
    exact h u ⟨hrole, hcredentials, ⟨staff, hstaff, hid, horg⟩, hu⟩

/-- A success adds a member. -/
theorem exec_addTeam {t : Db} (hexec : Prog.Exec (perform (.addTeam io orgId userId role dto)) s (.ok ()) t) :
    ∃ v, s.teamMember.insert (masterMember io (newTeam io orgId dto)) = some v ∧ t.teamMember = v := by
  obtain ⟨team, hexec⟩ := Prog.Exec.of_discard hexec
  have hrule : (addTeam io orgId userId role dto).Post (fun r t => ∀ team, r = .ok team →
      ∃ v, s.teamMember.insert (masterMember io (newTeam io orgId dto)) = some v ∧ t.teamMember = v) s := by
    refine (post_addTeam fun _ _ h => by cases h).mpr fun u _ => ?_
    simp only [createTeamMember, post_mutate, created_eq_ok, Prog.then_ok, Prog.then_error, Prog.post_pure, reduceCtorEq,
      false_implies, implies_true, true_and, and_true]
    rintro _ t ⟨-, rfl, v, hv, rfl⟩ _ _
    exact ⟨v, hv, rfl⟩
  exact hrule.of_exec hexec team rfl

/-- A new team is whole exactly if it is refused. -/
theorem whole_addTeam : Whole (.addTeam io orgId userId role dto) s ↔ Untorn s (.addTeam io orgId userId role dto) := by
  constructor
  · intro whole u may
    have hpost := (post_addTeam fun _ => Or.inl (SameRows.refl s)).mp (Prog.post_discard.mp (whole_iff_post.mp whole)) u may
    rw [createTeamMember, post_mutate] at hpost
    -- the second statement fails
    rcases hpost.2 with same | ⟨t, hexec, same⟩
    · have hnew : newTeam io orgId dto ∈ u := (Table.mem_insert may.stored).mpr (Or.inr rfl)
      have hteam : u = s.team := same.team
      exact Table.id_ne_of_insert may.stored (hteam ▸ hnew) rfl
    · obtain ⟨v, hv, hmembers⟩ := exec_addTeam hexec
      have hsame : s.teamMember = t.teamMember := same.teamMember
      have hnew : masterMember io (newTeam io orgId dto) ∈ v := (Table.mem_insert hv).mpr (Or.inr rfl)
      rw [← hmembers, ← hsame] at hnew
      exact Table.id_ne_of_insert hv hnew rfl
  · intro untorn
    refine whole_of_allOrNothing (allOrNothing_discard (fun _ _ => True) ?_)
    exact (post_addTeam fun _ => rfl).mpr fun u may => absurd may (untorn u)

end AddTeam

/-! ### Removing a member -/

section RemoveMember
variable {s : Db} {orgId userId role teamId memberId : String} {member : TeamMember}

/-- The store without a member, but with the other reporting rows that involve it. -/
def withoutMember (s : Db) (memberId : String) : Db :=
  { s with
    teamMember := s.teamMember.delete (·.id == memberId)
    teamReporting := s.teamReporting.delete (·.teamMemberId == some memberId) }

theorem post_removeMember {Q : Except HttpException String → Db → Prop} (fails : ∀ e, Q (.error e) s) :
    (removeMember orgId userId role teamId memberId).Post Q s ↔
      ∀ member, Removable s orgId userId role teamId memberId member → (deleteTeamReporting (involves teamId member)).Post
        (Prog.Then (fun _ => pure "Member deleted successfully.") Prog.Post Q) (withoutMember s memberId) := by
  simp only [removeMember, deleteTeamMember, Prog.post_bind, Prog.post_failIf, Prog.then_ok, Prog.then_error,
    post_checkCredentials, post_mutate_ite, post_query, Prog.post_orFail, Option.filter_eq_some_iff,
    Table.find_eq_some, beq_iff_eq, fails, implies_true, true_and, and_true, not_not, List.mem_singleton, and_imp]
  constructor
  · intro h member may
    have hfind : (s.teamMember.find memberId).filter (·.teamId == teamId) = some member :=
      Option.filter_eq_some_iff.mpr ⟨Table.find_eq_some.mpr ⟨may.mem, may.id⟩, beq_iff_eq.mpr may.team⟩
    refine h may.superAdmin may.credentials member may.mem may.id may.team ?_
    rw [hfind]
    exact Bool.false_ne_true
  · intro h hrole hcredentials member hmem hid hteam _
    exact h member ⟨hrole, hcredentials, hmem, hid, hteam⟩

/-- The store after a removal. -/
def removed (s : Db) (teamId : String) (member : TeamMember) : Db :=
  { withoutMember s member.id with
    teamReporting := (withoutMember s member.id).teamReporting.delete (involves teamId member) }

theorem exec_removeMember {t : Db} (hexec : Prog.Exec (perform (.removeMember orgId userId role teamId memberId)) s (.ok ()) t)
    (may : Removable s orgId userId role teamId memberId member) : t = removed s teamId member := by
  obtain ⟨message, hexec⟩ := Prog.Exec.of_discard hexec
  have hrule : (removeMember orgId userId role teamId memberId).Post (fun r t => ∀ message, r = .ok message →
      t = removed s teamId member) s := by
    refine (post_removeMember fun _ _ h => by cases h).mpr fun other mayOther => ?_
    obtain rfl : other = member := Table.eq_of_id mayOther.mem may.mem (mayOther.id.trans may.id.symm)
    rw [deleteTeamReporting, post_mutate_ok]
    refine ⟨fun _ _ => ?_, fun _ h => by cases h⟩
    rw [removed, may.id]
  exact hrule.of_exec hexec message rfl

theorem exec_removed (may : Removable s orgId userId role teamId memberId member) :
    Prog.Exec (perform (.removeMember orgId userId role teamId memberId)) s (.ok ()) (removed s teamId member) := by
  refine Prog.exec_of_not_post fun hpost => ?_
  rw [perform, Prog.post_bind] at hpost
  have hlast := (post_removeMember fun _ h => by cases h.1).mp hpost member may
  rw [deleteTeamReporting, post_mutate_ok] at hlast
  refine hlast.1 ⟨rfl, ?_⟩
  rw [removed, may.id]

/-- A removal is whole exactly if the member's row goes with all reporting rows that involve the member. -/
theorem whole_removeMember : Whole (.removeMember orgId userId role teamId memberId) s ↔
    Untorn s (.removeMember orgId userId role teamId memberId) := by
  rw [whole_iff_post]
  refine Prog.post_discard.trans ((post_removeMember fun _ => Or.inl (SameRows.refl s)).trans ?_)
  refine forall_congr' fun member => imp_congr_right fun may => ?_
  rw [deleteTeamReporting, post_mutate_ok]
  constructor
  · -- the second statement fails
    rintro ⟨-, same | ⟨u, hexec, same⟩⟩ link hlink hinvolves
    · have hmem : member ∈ (withoutMember s memberId).teamMember := same.teamMember ▸ may.mem
      have hgone := (Table.mem_delete.mp hmem).2
      simp [may.id] at hgone
    · have hsame : (withoutMember s memberId).teamReporting = u.teamReporting := same.teamReporting
      rw [exec_removeMember hexec may, removed, may.id] at hsame
      by_contra hother
      have hkept : link ∈ (withoutMember s memberId).teamReporting := Table.mem_delete.mpr ⟨hlink, by simp [hother]⟩
      have hgone := (Table.mem_delete.mp (hsame ▸ hkept)).2
      rw [hinvolves] at hgone
      cases hgone
  · intro untorn
    have hsame : (removed s teamId member).teamReporting = (withoutMember s memberId).teamReporting := by
      rw [removed, may.id]
      refine Table.ext (List.filter_eq_self.mpr fun link hlink => ?_)
      obtain ⟨hlink, hother⟩ := Table.mem_delete.mp (Table.mem_rows.mp hlink)
      cases hinvolves : involves teamId member link with
      | false => rfl
      | true => simp [untorn link hlink hinvolves] at hother
    have hmember : (removed s teamId member).teamMember = (withoutMember s memberId).teamMember := by
      rw [removed, may.id]
    refine ⟨Or.inr ⟨_, exec_removed may, ?_⟩, Or.inr ⟨_, exec_removed may, ⟨rfl, rfl, rfl, hmember.symm, hsame.symm⟩⟩⟩
    refine ⟨rfl, rfl, rfl, hmember.symm, ?_⟩
    rw [removed, may.id]

end RemoveMember

/-! ### Every write -/

section Every
variable {s : Db}

theorem addStaffBulk_whole {js : Js} {io : StaffService.Io} {orgId qOrgId : Option String} {role : String}
    {staffList : List AddStaffMemberDto} :
    (addStaffBulk js io orgId role staffList qOrgId).Post (AllOrNothing s fun _ _ => True) s := by
  simp only [addStaffBulk, Prog.post_bind, Prog.post_failIf, Prog.post_orFail, post_query, Prog.then_ok, Prog.then_error,
    post_transaction, allOrNothing_error, implies_true, true_and, and_true]
  intro _ _ _ organization _
  unfold Prog.Returns
  cases ((StaffService.addEach js io organization staffList 0 []).run s).1 with
  | error e => exact rfl
  | ok results => exact trivial

end Every

/-- Adding and editing staff members, and editing a team, happen as a whole; deleting a staff member exactly if it
    has no credential, adding a team exactly if it is refused, and removing a member exactly if no reporting row
    involves it under another member. -/
theorem writes_whole_iff (w : Write) (s : Db) : Whole w s ↔ Untorn s w := by
  cases w with
  | addStaffMember js io orgId role dto qOrgId =>
    exact iff_of_true (whole_of_allOrNothing (allOrNothing_discard _ addStaffMember_post)) trivial
  | addStaffBulk js io orgId role staffList qOrgId =>
    exact iff_of_true (whole_of_allOrNothing (allOrNothing_discard _ addStaffBulk_whole)) trivial
  | editStaffMemberDetails io orgId role staffId dto qOrgId =>
    exact iff_of_true (whole_of_allOrNothing (allOrNothing_discard _ editStaffMemberDetails_post)) trivial
  | deleteStaffMember orgId role staffId qOrgId => exact whole_deleteStaffMember
  | addTeam io orgId userId role dto => exact whole_addTeam
  | editTeam orgId userId role teamId dto => exact iff_of_true (whole_of_allOrNothing (allOrNothing_discard _ editTeam_post)) trivial
  | removeMember orgId userId role teamId memberId => exact whole_removeMember

namespace Crew

def ann : Staff := { id := "ann", orgId := "crew", userId := some "ann-user", name := "Ann", email := "ann@mail.com" }

def db : Db where
  organization := {{ id := "crew", name := "Crew", email := "crew@mail.com" }}
  staff := {ann}
  userCredential := {{ id := "ann-user", orgId := some "crew", email := "ann@mail.com", role := .staff }}

/-- The deletion of Ann, who has a credential. -/
def deletion : Write := .deleteStaffMember none "Root" "ann" (some "crew")

end Crew

section Crew
open Crew

theorem ann_deletable : Deletable db none "Root" "ann" (some "crew") ann :=
  ⟨⟨by decide, rfl, Or.inl rfl, by decide, by decide⟩, by decide, by decide⟩

/-- If the second statement of the deletion fails, Ann's credential stays behind. -/
theorem credential_left_behind : ¬∀ (w : Write) (s : Db), Whole w s := fun h => by
  have untorn := whole_deleteStaffMember.mp (h deletion db) ann ann_deletable
  simp [ann, truthy] at untorn

end Crew

end Vms.Writes
