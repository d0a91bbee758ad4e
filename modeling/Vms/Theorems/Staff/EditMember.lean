import Vms.Theorems.Staff.InStep

/-! What an edit of a staff member leaves. Every field of the request is written to the table of staff members,
    which has no account status, so a request that gives one is refused. -/

namespace Vms.StaffService
open Relational HttpException

/-- Who is no longer an admin is disabled, and who becomes one is enabled. -/
def statusAfter (old : MemberRoleEnum) (role : Option MemberRoleEnum) (status : AccountStatusEnum) : AccountStatusEnum :=
  match old, role with
  | .admin, some .staff => .disabled
  | .superAdmin, some .staff => .disabled
  | .staff, some .admin => .active
  | _, some .superAdmin => .active
  | _, _ => status

/-- What the request asks of the credential of a staff member with a role. -/
def requestedUser (old : MemberRoleEnum) (dto : EditStaffMemberDto) (user : UserCredential) : UserCredential :=
  { user with
    role := (dto.role.map (·.auth)).getD user.role
    email := dto.email.getD user.email
    accountStatus := dto.accountStatus.getD (statusAfter old dto.role user.accountStatus) }

/-- Another staff member is superadmin of the organisation, and the staff member takes that place. -/
structure Predecessor (s : Db) (staff : Staff) (role : Option MemberRoleEnum) (user : UserCredential) (old : Staff) : Prop where
  promoted : role = some .superAdmin ∧ staff.role ≠ .superAdmin
  user_mem : user ∈ s.userCredential
  org : user.orgId = some staff.orgId
  superAdmin : user.role = .superAdmin
  old_mem : old ∈ s.staff
  linked : old.userId = some user.id
  other : old.id ≠ staff.id

def demoteStaff (demoted : Option (UserCredential × Staff)) (a : Staff) : Staff :=
  if demoted.any (·.2.id == a.id) then { a with role := .admin } else a

def demoteUser (demoted : Option (UserCredential × Staff)) (a : UserCredential) : UserCredential :=
  if demoted.any (·.1.id == a.id) then { a with role := .admin } else a

/-- The rows of the staff member have the values of the request, at most the superadmin before is demoted, and
    nothing else changes. -/
structure Updated (s : Db) (staff : Staff) (user : UserCredential) (dto : EditStaffMemberDto)
    (demoted : Option (UserCredential × Staff)) (t : Db) : Prop where
  predecessor : ∀ user' old, demoted = some (user', old) → Predecessor s staff dto.role user' old
  staffs : t.staff.rows = s.staff.rows.map fun a => if a.id = staff.id then editedStaff dto a else demoteStaff demoted a
  users : t.userCredential.rows =
    s.userCredential.rows.map fun a => if a.id = user.id then requestedUser staff.role dto a else demoteUser demoted a
  rest : t = { s with staff := t.staff, userCredential := t.userCredential }

/-- The request names a staff member with a credential in the organisation, an email that no one else has, and
    a department that exists. -/
structure Editable (s : Db) (orgId : Option String) (role staffId : String) (dto : EditStaffMemberDto) (qOrgId : Option String)
    (staff : Staff) (user : UserCredential) : Prop extends MayEdit s orgId role staffId qOrgId staff where
  linked : truthy staff.userId = some user.id
  user_mem : user ∈ s.userCredential
  noHours : dto.workingHours = none
  staffEmail : ∀ email, dto.email = some email → ∀ other ∈ s.staff, other.id ≠ staff.id → other.email ≠ email
  userEmail : ∀ email, dto.email = some email → ∀ other ∈ s.userCredential, other.id ≠ user.id → other.email ≠ email
  department : ∀ d, dto.departmentId = some d → (s.department.find d).isSome

section Edit
variable {s t : Db} {io : Io} {orgId qOrgId : Option String} {role staffId : String} {dto : EditStaffMemberDto} {staff : Staff}
  {user : UserCredential} {newRole : Option MemberRoleEnum}

theorem statusAfter_eq {old : MemberRoleEnum} {status : AccountStatusEnum} :
    statusAfter old newRole status = (newAccountStatus old newRole).getD status := by
  cases old <;> rcases newRole with _ | (_ | _ | _) <;> rfl

theorem requestedUser_eq {old : MemberRoleEnum} (h : dto.accountStatus = none) : requestedUser old dto = editedUser old dto := by
  funext user
  rw [requestedUser, editedUser, h, statusAfter_eq]
  rfl

/-- The rows once there is room. -/
theorem MadeRoom.rows (room : MadeRoom s staff newRole t) : ∃ demoted : Option (UserCredential × Staff),
    (∀ user old, demoted = some (user, old) → Predecessor s staff newRole user old) ∧
    t.staff.rows = s.staff.rows.map (demoteStaff demoted) ∧
    t.userCredential.rows = s.userCredential.rows.map (demoteUser demoted) ∧
    t = { s with workingHours := t.workingHours, staff := t.staff, userCredential := t.userCredential } := by
  cases room with
  | kept hours =>
    exact ⟨none, fun _ _ h => (by cases h), (List.map_id' _).symm, (List.map_id' _).symm, rfl⟩
  | demoted hours user old users staffs promoted user_mem org superAdmin old_mem linked other husers hstaffs =>
    refine ⟨some (user, old), ?_, ?_, ?_, rfl⟩
    · rintro _ _ ⟨⟩
      exact ⟨promoted, user_mem, org, superAdmin, old_mem, linked, other⟩
    · rw [Table.rows_modify hstaffs]
      exact List.map_congr_left fun a _ => by simp only [demoteStaff, Option.any_some, BEq.comm]
    · rw [Table.rows_modify husers]
      exact List.map_congr_left fun a _ => by simp only [demoteUser, Option.any_some, BEq.comm]

theorem demoteStaff_id (demoted : Option (UserCredential × Staff)) (a : Staff) : (demoteStaff demoted a).id = a.id := by
  unfold demoteStaff
  split <;> rfl

theorem demoteUser_id (demoted : Option (UserCredential × Staff)) (a : UserCredential) : (demoteUser demoted a).id = a.id := by
  unfold demoteUser
  split <;> rfl

section Demoted
variable {α : Type} [Row α] {t u v : Table α} {demote f : α → α} {a : α}

/-- A row that is not demoted is still there. -/
theorem mem_demoted (rows : u.rows = t.rows.map demote) (hmem : a ∈ t) (same : demote a = a) : a ∈ u := by
  rw [← Table.mem_rows, rows]
  exact List.mem_map.mpr ⟨a, hmem, same⟩

/-- A change of one row after a demotion of others. -/
theorem rows_edited (p : α → Bool) (rows : u.rows = t.rows.map demote) (hp : ∀ b, p (demote b) = p b)
    (only : ∀ b ∈ t, p b = true → b = a) (same : demote a = a) (h : u.modify p f = some v) :
    v.rows = t.rows.map fun b => if p b then f b else demote b := by
  rw [Table.rows_modify h, rows, List.map_map]
  refine List.map_congr_left fun b hb => ?_
  rw [Function.comp_apply, hp]
  by_cases hb' : p b = true
  · rw [if_pos hb', if_pos hb', only b hb hb', same]
  · rw [if_neg hb', if_neg hb']

end Demoted

theorem conflict_demoteStaff (demoted : Option (UserCredential × Staff)) (a b : Staff) :
    Row.conflict (demoteStaff demoted a) b = Row.conflict a b := by
  unfold demoteStaff
  split <;> rfl

theorem conflict_demoteUser (demoted : Option (UserCredential × Staff)) (a b : UserCredential) :
    Row.conflict (demoteUser demoted a) b = Row.conflict a b := by
  unfold demoteUser
  split <;> rfl

/-- The new keys are free where the old ones are its own, and nobody has the email. -/
theorem conflict_editedStaff {a : Staff} (hne : a.id ≠ staff.id) (own : Row.clash a staff = false)
    (email : ∀ e, dto.email = some e → a.email ≠ e) : Row.conflict a (editedStaff dto staff) = false := by
  simp only [Row.clash, Bool.or_eq_false_iff, beq_eq_false_iff_ne] at own
  have hemail : a.email ≠ dto.email.getD staff.email := by
    cases h : dto.email with
    | none => exact own.1.2
    | some e => exact email e h
  simp [Row.conflict, Row.id, Row.clash, editedStaff, hne, own, hemail]

theorem conflict_editedUser {old : MemberRoleEnum} {a : UserCredential} (hne : a.id ≠ user.id) (own : Row.clash a user = false)
    (email : ∀ e, dto.email = some e → a.email ≠ e) : Row.conflict a (editedUser old dto user) = false := by
  have hemail : a.email ≠ dto.email.getD user.email := by
    cases h : dto.email with
    | none => exact beq_eq_false_iff_ne.mp own
    | some e => exact email e h
  simp [Row.conflict, Row.id, Row.clash, editedUser, hne, hemail]

section Room
variable {u : Db} {demoted : Option (UserCredential × Staff)}

/-- The edited staff member has keys that are free once there is room. -/
theorem exists_staffs (rows : u.staff.rows = s.staff.rows.map (demoteStaff demoted)) (hmem : staff ∈ s.staff)
    (same : demoteStaff demoted staff = staff)
    (email : ∀ e, dto.email = some e → ∀ other ∈ s.staff, other.id ≠ staff.id → other.email ≠ e) :
    ∃ staffs, u.staff.modify (·.id == staff.id) (editedStaff dto) = some staffs := by
  refine Table.modify_of_free (fun b _ => beq_iff_eq) (mem_demoted rows hmem same) fun b hb hne => ?_
  rw [← Table.mem_rows, rows] at hb
  obtain ⟨a, ha, rfl⟩ := List.mem_map.mp hb
  have hother : a.id ≠ staff.id := fun h => hne ((demoteStaff_id demoted a).trans h)
  have own : Row.clash a staff = false :=
    Bool.eq_false_iff.mpr fun h => hother (congrArg Staff.id (Table.eq_of_clash ha hmem h))
  rw [conflict_demoteStaff]
  exact conflict_editedStaff hother own fun e he => email e he a ha hother

theorem exists_users (old : MemberRoleEnum) (rows : u.userCredential.rows = s.userCredential.rows.map (demoteUser demoted))
    (hmem : user ∈ s.userCredential) (same : demoteUser demoted user = user)
    (email : ∀ e, dto.email = some e → ∀ other ∈ s.userCredential, other.id ≠ user.id → other.email ≠ e) :
    ∃ users, u.userCredential.modify (·.id == user.id) (editedUser old dto) = some users := by
  refine Table.modify_of_free (fun b _ => beq_iff_eq) (mem_demoted rows hmem same) fun b hb hne => ?_
  rw [← Table.mem_rows, rows] at hb
  obtain ⟨a, ha, rfl⟩ := List.mem_map.mp hb
  have hother : a.id ≠ user.id := fun h => hne ((demoteUser_id demoted a).trans h)
  have own : Row.clash a user = false :=
    Bool.eq_false_iff.mpr fun h => hother (congrArg UserCredential.id (Table.eq_of_clash ha hmem h))
  rw [conflict_demoteUser]
  exact conflict_editedUser hother own fun e he => email e he a ha hother

/-- The superadmin before is neither the staff member nor the credential. -/
theorem demote_same (predecessor : ∀ user old, demoted = some (user, old) → Predecessor s staff newRole user old)
    (hmem : staff ∈ s.staff) (linked : staff.userId = some user.id) :
    demoteStaff demoted staff = staff ∧ demoteUser demoted user = user := by
  rcases demoted with _ | ⟨user', old⟩
  · exact ⟨rfl, rfl⟩
  have before : Predecessor s staff newRole user' old := predecessor user' old rfl
  constructor
  · exact if_neg fun h => before.other (beq_iff_eq.mp h)
  · refine if_neg fun h => before.other (congrArg Staff.id (Table.eq_of_clash before.old_mem hmem ?_))
    have hlinked : old.userId = staff.userId := by rw [before.linked, linked, beq_iff_eq.mp h]
    simp [Row.clash, hlinked, linked, sameValue]

/-- The department of the edited staff member exists. -/
theorem Editable.department_found (editable : Editable s orgId role staffId dto qOrgId staff user) (wf : s.WellFormed) (d : String)
    (hgiven : dto.departmentId.or staff.departmentId = some d) : (s.department.find d).isSome := by
  cases hdto : dto.departmentId with
  | some d' =>
    rw [hdto] at hgiven
    exact editable.department d (hdto.trans hgiven)
  | none =>
    rw [hdto] at hgiven
    obtain ⟨department, hdepartment, hid⟩ := wf.staff_department staff editable.mem d hgiven
    exact Table.isSome_find hdepartment hid

/-- The two rows are changed once there is room. -/
theorem Editable.updated (editable : Editable s orgId role staffId dto qOrgId staff user) (hnone : dto.accountStatus = none)
    (predecessor : ∀ user old, demoted = some (user, old) → Predecessor s staff dto.role user old)
    (staffRows : u.staff.rows = s.staff.rows.map (demoteStaff demoted))
    (userRows : u.userCredential.rows = s.userCredential.rows.map (demoteUser demoted))
    (hstaff : demoteStaff demoted staff = staff) (huser : demoteUser demoted user = user)
    (rest : u = { s with staff := u.staff, userCredential := u.userCredential }) {staffs : Table Staff}
    {users : Table UserCredential} (hstaffs : u.staff.modify (·.id == staff.id) (editedStaff dto) = some staffs)
    (husers : u.userCredential.modify (·.id == user.id) (editedUser staff.role dto) = some users) :
    Updated s staff user dto demoted { u with staff := staffs, userCredential := users } := by
  refine ⟨predecessor, ?_, ?_, by rw [rest]⟩
  · have hrows := rows_edited (·.id == staff.id) staffRows (fun b => by rw [demoteStaff_id])
      (fun b hb h => Table.eq_of_id hb editable.mem (beq_iff_eq.mp h)) hstaff hstaffs
    simpa only [beq_iff_eq] using hrows
  · have hrows := rows_edited (·.id == user.id) userRows (fun b => by rw [demoteUser_id])
      (fun b hb h => Table.eq_of_id hb editable.user_mem (beq_iff_eq.mp h)) huser husers
    rw [requestedUser_eq hnone]
    simpa only [beq_iff_eq] using hrows

end Room

/-- An edit of a staff member with a credential fails if it gives an account status, and updates both rows
    otherwise. -/
theorem returns_editMember {Q : Except HttpException String → Db → Prop} (wf : s.WellFormed)
    (editable : Editable s orgId role staffId dto qOrgId staff user) (refused : dto.accountStatus.isSome → ∀ e t, Q (.error e) t)
    (updated : dto.accountStatus = none → ∀ message demoted t, Updated s staff user dto demoted t → Q (.ok message) t) :
    (editStaffMemberDetails io orgId role staffId dto qOrgId).Returns Q s := by
  obtain ⟨organization, horganization, horg⟩ := wf.staff_org staff editable.mem staff.orgId rfl
  have hfindOrg : s.organization.find staff.orgId = some organization := Table.find_eq_some.mpr ⟨horganization, horg⟩
  have hfind : s.staff.find staffId = some staff := Table.find_eq_some.mpr ⟨editable.mem, editable.id⟩
  have allowed : ¬role ∉ ["Root", "SuperAdmin", "Admin"] := not_not.mpr editable.allowed
  obtain rfl : staff.id = staffId := editable.id
  have hlinked : staff.userId = some user.id := (truthy_eq_some.mp editable.linked).1
  simp only [editStaffMemberDetails, Prog.returns_bind, Prog.returns_failIf, Prog.returns_orFail, returns_query, Prog.then_ok,
    Prog.then_error, returns_transaction, allowed, editable.inOrg, hfindOrg, hfind, reduceCtorEq, false_implies, true_and,
    Option.some.injEq, forall_eq', not_false_eq_true, forall_const, ne_eq, not_true_eq_false, editable.noHours, editWorkingHours,
    Prog.returns_pure]
  refine returns_makeRoom s.workingHours (fun broken => absurd wf.staff_department broken) fun u room hhours => ?_
  obtain ⟨demoted, predecessor, hstaffRows, huserRows, hrest⟩ := room.rows
  obtain ⟨hstaff, huser⟩ := demote_same predecessor editable.mem hlinked
  have hdepartments : u.department = s.department := by rw [hrest]
  simp only [Prog.then_ok, updateMember, Prog.returns_bind, Prog.returns_failIf, Prog.then_error]
  refine ⟨fun hstatus => refused hstatus _ _, fun hstatus => ?_⟩
  have hnone : dto.accountStatus = none := Option.not_isSome_iff_eq_none.mp hstatus
  obtain ⟨staffs, hstaffs⟩ := exists_staffs hstaffRows editable.mem hstaff editable.staffEmail
  obtain ⟨users, husers⟩ := exists_users staff.role huserRows editable.user_mem huser editable.userEmail
  have hstored : staff ∈ u.staff := mem_demoted hstaffRows editable.mem hstaff
  have huserStored : user ∈ u.userCredential := mem_demoted huserRows editable.user_mem huser
  refine returns_updateStaff (fun stuck => ?_) fun _ staffs' _ _ hstaffs' => ?_
  · refine absurd hstaffs (stuck staff staffs (Table.find_of_mem hstored) fun d hd => ?_)
    rw [hdepartments]
    exact editable.department_found wf d hd
  obtain rfl := Option.some.inj (hstaffs.symm.trans hstaffs')
  simp only [Prog.then_ok, updateCredential, editable.linked, Prog.returns_bind]
  refine returns_updateUser (fun stuck => absurd husers (stuck user users (Table.find_of_mem huserStored)))
    fun _ users' _ husers' => ?_
  obtain rfl := Option.some.inj (husers.symm.trans husers')
  have rest : u = { s with staff := u.staff, userCredential := u.userCredential } := by rw [hrest, hhours]
  exact updated hnone _ demoted _ (editable.updated hnone predecessor hstaffRows huserRows hstaff huser rest hstaffs husers)

end Edit

/-- Where its references hold, an edit of a staff member with a credential does what the request asks if and only
    if the request gives no account status. -/
theorem editStaffMemberDetails_updates_iff (s : Db) (io : Io) (orgId : Option String) (role staffId : String)
    (dto : EditStaffMemberDto) (qOrgId : Option String) (staff : Staff) (user : UserCredential) (wf : s.WellFormed)
    (editable : Editable s orgId role staffId dto qOrgId staff user) :
    (∃ message demoted t, (editStaffMemberDetails io orgId role staffId dto qOrgId).run s = (.ok message, t) ∧
      Updated s staff user dto demoted t) ↔ dto.accountStatus = none := by
  constructor
  · rintro ⟨message, demoted, t, hrun, -⟩
    have succeeds : (editStaffMemberDetails io orgId role staffId dto qOrgId).Returns
        (fun r _ => ∀ message, r = .ok message → dto.accountStatus = none) s :=
      returns_editMember wf editable (fun _ _ _ _ h => by cases h) fun hnone _ _ _ _ _ _ => hnone
    exact succeeds message (congrArg Prod.fst hrun)
  · intro hnone
    have succeeds : (editStaffMemberDetails io orgId role staffId dto qOrgId).Returns
        (fun r t => ∃ message demoted, r = .ok message ∧ Updated s staff user dto demoted t) s := by
      refine returns_editMember wf editable (fun hsome => ?_) fun _ message demoted t after => ⟨message, demoted, rfl, after⟩
      rw [hnone] at hsome
      cases hsome
    obtain ⟨message, demoted, hok, after⟩ := succeeds
    exact ⟨message, demoted, _, Prod.ext hok rfl, after⟩

/-! ### Ann is disabled -/

namespace Firm

def ann : Staff :=
  { id := "staff1", orgId := "org", userId := some "user1", name := "Ann", email := "ann@mail.com", departmentId := some "sales" }

def annUser : UserCredential := { id := "user1", orgId := some "org", email := "ann@mail.com", role := .staff }

/-- Ann works in the sales department. -/
def employed : Db := { db {annUser} with staff := {ann} }

theorem employed_wellFormed : employed.WellFormed where
  staff_org := .singleton (Table.mem_singleton.mpr rfl) fun _ => Option.some.inj
  staff_user := .singleton (Table.mem_singleton.mpr rfl) fun _ => Option.some.inj
  staff_department := .singleton (Table.mem_singleton.mpr rfl) fun _ => Option.some.inj
  userCredential_org := .singleton (Table.mem_singleton.mpr rfl) fun _ => Option.some.inj
  department_org := .singleton (Table.mem_singleton.mpr rfl) fun _ => Option.some.inj

def admin : EditStaffMemberDto := { role := some .admin, name := some "Anna" }

def disabling : EditStaffMemberDto := { accountStatus := some .disabled }

theorem editable_ann {s : Db} {staff : Staff} {user : UserCredential} {dto : EditStaffMemberDto} (hstaff : staff ∈ s.staff)
    (hid : staff.id = "staff1") (horg : staff.orgId = "org") (huser : user ∈ s.userCredential)
    (linked : staff.userId = some user.id)
    (named : user.id ≠ "") (hours : dto.workingHours = none) (email : dto.email = none) (department : dto.departmentId = none) :
    Editable s (some "org") "Admin" "staff1" dto none staff user where
  mem := hstaff
  id := hid
  allowed := by decide
  inOrg := by rw [horg]; decide
  linked := truthy_eq_some.mpr ⟨linked, named⟩
  user_mem := huser
  noHours := hours
  staffEmail := by rw [email]; rintro _ ⟨⟩
  userEmail := by rw [email]; rintro _ ⟨⟩
  department := by rw [department]; rintro _ ⟨⟩

end Firm

section Firm
open Firm

theorem editStaffMemberDetails_updates_ann :
    ∃ message demoted t,
      (editStaffMemberDetails (io "2" .stored) (some "org") "Admin" "staff1" admin none).run employed = (.ok message, t) ∧
      Updated employed ann annUser admin demoted t := by
  have editable : Editable employed (some "org") "Admin" "staff1" admin none ann annUser :=
    editable_ann (Table.mem_singleton.mpr rfl) rfl rfl (Table.mem_singleton.mpr rfl) rfl (by decide) rfl rfl rfl
  exact (editStaffMemberDetails_updates_iff employed (io "2" .stored) (some "org") "Admin" "staff1" admin none ann annUser
    employed_wellFormed editable).mpr rfl

/-- Ann's account cannot be disabled by an edit. -/
theorem account_status_refused : ¬∀ s, (administration js (·.staff = ∅)).Reachable s → ∀ (io : Io) (orgId : Option String)
    (role staffId : String) (dto : EditStaffMemberDto) (qOrgId : Option String) (staff : Staff) (user : UserCredential),
    Editable s orgId role staffId dto qOrgId staff user →
    ∃ message demoted t, (editStaffMemberDetails io orgId role staffId dto qOrgId).run s = (.ok message, t) ∧
      Updated s staff user dto demoted t := fun h => by
  have noStaff : (db ∅).staff = ∅ := rfl
  have reached : (administration js (·.staff = ∅)).Reachable (runAll js (db ∅) [hire]) := reach_runAll noStaff _
  obtain ⟨staff, hstaff, user, huser, hid, horg, linked, named⟩ : ∃ staff ∈ (runAll js (db ∅) [hire]).staff,
      ∃ user ∈ (runAll js (db ∅) [hire]).userCredential,
        staff.id = "staff1" ∧ staff.orgId = "org" ∧ staff.userId = some user.id ∧ user.id ≠ "" := by decide
  have editable : Editable (runAll js (db ∅) [hire]) (some "org") "Admin" "staff1" disabling none staff user :=
    editable_ann hstaff hid horg huser linked named rfl rfl rfl
  obtain ⟨message, demoted, t, hrun, -⟩ := h _ reached (io "2" .stored) _ _ _ _ _ _ _ editable
  have refused : ((editStaffMemberDetails (io "2" .stored) (some "org") "Admin" "staff1" disabling none).run
      (runAll js (db ∅) [hire])).1 = .error invalidArgument := by rfl
  rw [hrun] at refused
  cases refused

end Firm

end Vms.StaffService
