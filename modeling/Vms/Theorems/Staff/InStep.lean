import Vms.Theorems.Staff.Step

/-! Staff members and their credentials stay in step: every staff member has a credential in the same
    organisation, with the same email and the same role, and each organisation has at most one superadmin. -/

namespace Vms.StaffService
open Relational

/-- Staff members and credentials are in step. -/
structure InStep (s : Db) : Prop where
  linked : ∀ staff ∈ s.staff, ∃ user ∈ s.userCredential, staff.userId = some user.id ∧ user.id ≠ "" ∧
    user.orgId = some staff.orgId ∧ user.email = staff.email ∧ user.role = staff.role.auth
  ofStaff : ∀ user ∈ s.userCredential, user.role = .superAdmin → ∃ staff ∈ s.staff, staff.userId = some user.id
  single : ∀ a ∈ s.staff, ∀ b ∈ s.staff, a.orgId = b.orgId → a.role = .superAdmin → b.role = .superAdmin → a = b

section Updates
variable {s t : Db}

@[simp] theorem auth_eq_superAdmin {role : MemberRoleEnum} : role.auth = .superAdmin ↔ role = .superAdmin := by
  cases role <;> simp [MemberRoleEnum.auth]

theorem eq_of_userId {a b : Staff} {userId : String} (ha : a ∈ s.staff) (hb : b ∈ s.staff) (hauser : a.userId = some userId)
    (hbuser : b.userId = some userId) : a = b :=
  Table.eq_of_clash ha hb (by simp [Row.clash, hauser, hbuser, sameValue])

/-- The credential that a staff member names is the one in step. -/
theorem InStep.of_userId (h : InStep s) {staff : Staff} {user : UserCredential} (hstaff : staff ∈ s.staff)
    (huser : user ∈ s.userCredential) (hlinked : staff.userId = some user.id) :
    user.orgId = some staff.orgId ∧ user.email = staff.email ∧ user.role = staff.role.auth := by
  obtain ⟨own, hown, hownId, -, hrest⟩ := h.linked staff hstaff
  obtain rfl : own = user := Table.eq_of_id hown huser (Option.some.inj (hownId.symm.trans hlinked))
  exact hrest

/-- Other tables do not matter. -/
theorem InStep.congr (h : InStep s) (hstaff : t.staff = s.staff) (huser : t.userCredential = s.userCredential) : InStep t := by
  obtain ⟨linked, ofStaff, single⟩ := h
  constructor
  · rwa [hstaff, huser]
  · rwa [hstaff, huser]
  · rwa [hstaff]

theorem InStep.joined (h : InStep s) {staff : Staff} {user : UserCredential} (new : Joined s staff user t) : InStep t where
  linked b hb := by
    rcases (new.staff_mem b).mp hb with hb | rfl
    · obtain ⟨own, hown, hrest⟩ := h.linked b hb
      exact ⟨own, (new.user_mem own).mpr (Or.inl hown), hrest⟩
    · refine ⟨user, (new.user_mem user).mpr (Or.inr rfl), new.linked, new.named, new.org, new.email, ?_⟩
      rw [new.userRole, new.staffRole]
      rfl
  ofStaff b hb hsuper := by
    rcases (new.user_mem b).mp hb with hb | rfl
    · obtain ⟨own, hown, hlinked⟩ := h.ofStaff b hb hsuper
      exact ⟨own, (new.staff_mem own).mpr (Or.inl hown), hlinked⟩
    · rw [new.userRole] at hsuper
      cases hsuper
  single a ha b hb horg hasuper hbsuper := by
    have notNew : ∀ b : Staff, b.role = .superAdmin → b ≠ staff := by
      rintro b hsuper rfl
      rw [new.staffRole] at hsuper
      cases hsuper
    have ha := ((new.staff_mem a).mp ha).resolve_right (notNew a hasuper)
    have hb := ((new.staff_mem b).mp hb).resolve_right (notNew b hbsuper)
    exact h.single a ha b hb horg hasuper hbsuper

/-- A staff member and the credential may change together. -/
theorem InStep.pair (h : InStep s) {staff : Staff} {user : UserCredential} {f : Staff → Staff}
    {g : UserCredential → UserCredential} {staffs : Table Staff} {users : Table UserCredential} (hstaff : staff ∈ s.staff)
    (huser : user ∈ s.userCredential) (hlinked : staff.userId = some user.id)
    (hstaffs : s.staff.modify (·.id == staff.id) f = some staffs)
    (husers : s.userCredential.modify (·.id == user.id) g = some users)
    (hf : (f staff).userId = staff.userId ∧ (f staff).orgId = staff.orgId)
    (hg : (g user).id = user.id ∧ (g user).orgId = user.orgId)
    (email : (g user).email = (f staff).email) (role : (g user).role = (f staff).role.auth)
    (single : (f staff).role = .superAdmin → ∀ b ∈ s.staff, b.id ≠ staff.id → b.orgId = staff.orgId → b.role ≠ .superAdmin) :
    InStep { s with staff := staffs, userCredential := users } := by
  have mem_staffs := Table.mem_modify_one hstaffs hstaff fun b _ => beq_iff_eq
  have mem_users := Table.mem_modify_one husers huser fun b _ => beq_iff_eq
  constructor
  · intro b hb
    rcases (mem_staffs b).mp hb with rfl | ⟨hb, hne⟩
    · obtain ⟨own, -, hown, hnamed, -⟩ := h.linked staff hstaff
      have hid : own.id = user.id := Option.some.inj (hown.symm.trans hlinked)
      refine ⟨g user, (mem_users _).mpr (Or.inl rfl), ?_, ?_, ?_, email, role⟩
      · rw [hf.1, hg.1, hlinked]
      · rw [hg.1, ← hid]
        exact hnamed
      · rw [hf.2, hg.2]
        exact (h.of_userId hstaff huser hlinked).1
    · obtain ⟨own, hown, hownId, hrest⟩ := h.linked b hb
      refine ⟨own, (mem_users own).mpr (Or.inr ⟨hown, fun hid => hne ?_⟩), hownId, hrest⟩
      have hsame : own.id = user.id := hid
      rw [eq_of_userId hb hstaff (hsame ▸ hownId) hlinked]
  · intro b hb hsuper
    rcases (mem_users b).mp hb with rfl | ⟨hb, hne⟩
    · exact ⟨f staff, (mem_staffs _).mpr (Or.inl rfl), by rw [hf.1, hg.1, hlinked]⟩
    · obtain ⟨own, hown, hownId⟩ := h.ofStaff b hb hsuper
      refine ⟨own, (mem_staffs own).mpr (Or.inr ⟨hown, fun hid => hne ?_⟩), hownId⟩
      obtain rfl : own = staff := Table.eq_of_id hown hstaff hid
      exact Option.some.inj (hownId.symm.trans hlinked)
  · intro a ha b hb horg hasuper hbsuper
    rcases (mem_staffs a).mp ha with rfl | ⟨ha, hane⟩ <;> rcases (mem_staffs b).mp hb with rfl | ⟨hb, hbne⟩
    · rfl
    · exact absurd hbsuper (single hasuper b hb hbne (horg.symm.trans hf.2))
    · exact absurd hasuper (single hbsuper a ha hane (horg.trans hf.2))
    · exact h.single a ha b hb horg hasuper hbsuper

/-- A staff member goes together with the credential. -/
theorem InStep.delete (h : InStep s) {staff : Staff} {userId : String} (hstaff : staff ∈ s.staff)
    (hlinked : staff.userId = some userId) : InStep ((s.deleteStaff (· == staff.id)).deleteUser userId) := by
  have mem_staffs : ∀ b, b ∈ ((s.deleteStaff (· == staff.id)).deleteUser userId).staff → b ∈ s.staff ∧ b.id ≠ staff.id := by
    intro b hb
    obtain ⟨hb, hne⟩ := Table.mem_delete.mp (Table.mem_delete.mp hb).1
    exact ⟨hb, beq_eq_false_iff_ne.mp hne⟩
  have stays : ∀ b ∈ s.staff, b.id ≠ staff.id → b ∈ ((s.deleteStaff (· == staff.id)).deleteUser userId).staff := by
    intro b hb hne
    have hkept : b ∈ (s.deleteStaff (· == staff.id)).staff := Table.mem_delete.mpr ⟨hb, beq_eq_false_iff_ne.mpr hne⟩
    refine Table.mem_delete.mpr ⟨hkept, ?_⟩
    have hfind : (s.deleteStaff (· == staff.id)).staff.find b.id = some b := Table.find_of_mem hkept
    simp only [hfind, Option.any_some]
    refine beq_eq_false_iff_ne.mpr fun hof => hne ?_
    rw [eq_of_userId hb hstaff hof hlinked]
  constructor
  · intro b hb
    obtain ⟨hb, hne⟩ := mem_staffs b hb
    obtain ⟨own, hown, hownId, hrest⟩ := h.linked b hb
    refine ⟨own, Table.mem_delete.mpr ⟨hown, beq_eq_false_iff_ne.mpr fun hid => hne ?_⟩, hownId, hrest⟩
    rw [eq_of_userId hb hstaff (hid ▸ hownId) hlinked]
  · intro b hb hsuper
    obtain ⟨hb, hne⟩ := Table.mem_delete.mp hb
    obtain ⟨own, hown, hownId⟩ := h.ofStaff b hb hsuper
    refine ⟨own, stays own hown fun hid => beq_eq_false_iff_ne.mp hne ?_, hownId⟩
    obtain rfl : own = staff := Table.eq_of_id hown hstaff hid
    exact Option.some.inj (hownId.symm.trans hlinked)
  · intro a ha b hb
    exact h.single a (mem_staffs a ha).1 b (mem_staffs b hb).1

/-! ### Editing -/

/-- With room made, no other staff member of the organisation is superadmin. -/
def Room (s : Db) (staff : Staff) : Prop :=
  ∀ b ∈ s.staff, b.id ≠ staff.id → b.orgId = staff.orgId → b.role ≠ .superAdmin

/-- The credential of a superadmin belongs to a staff member who is superadmin. -/
theorem InStep.superAdmin (h : InStep s) {staff : Staff} {user : UserCredential} (hstaff : staff ∈ s.staff)
    (huser : user ∈ s.userCredential) (hlinked : staff.userId = some user.id) :
    user.role = .superAdmin ↔ staff.role = .superAdmin := by
  rw [(h.of_userId hstaff huser hlinked).2.2, auth_eq_superAdmin]

/-- Where none is found to demote, there is none. -/
theorem InStep.noneToDemote (h : InStep s) {staff : Staff} (hstaff : staff ∈ s.staff) (hrole : staff.role ≠ .superAdmin)
    (none : NoneToDemote s staff.orgId staff.id) : Room s staff := by
  intro b hb _ horg hsuper
  obtain ⟨own, hown, hownId, -, hownOrg, -, hownRole⟩ := h.linked b hb
  rw [hsuper] at hownRole
  obtain ⟨user, huser, -, huserRole, holds⟩ := none own hown (horg ▸ hownOrg) hownRole
  obtain ⟨old, hold, hlinked⟩ := h.ofStaff user huser huserRole
  obtain rfl : old = staff := Table.eq_of_id hold hstaff (holds old hold hlinked)
  exact hrole ((h.superAdmin hold huser hlinked).mp huserRole)

/-- What making room leaves: the staff member and the credential as they were, in step with the others. -/
theorem InStep.madeRoom (h : InStep s) {staff : Staff} {role : Option MemberRoleEnum} (hstaff : staff ∈ s.staff)
    (room : MadeRoom s staff role t) : InStep t ∧ staff ∈ t.staff ∧
      (role = some .superAdmin → staff.role ≠ .superAdmin → Room t staff) := by
  cases room with
  | kept hours none =>
    exact ⟨h.congr rfl rfl, hstaff, fun hrole hne => h.noneToDemote hstaff hne (none hrole hne)⟩
  | demoted hours user old users staffs promoted user_mem org superAdmin old_mem linked other husers hstaffs =>
    have mem_staffs := Table.mem_modify_one hstaffs old_mem fun b _ => beq_iff_eq
    have demoted : InStep { s with userCredential := users, staff := staffs } :=
      h.pair old_mem user_mem linked hstaffs husers ⟨rfl, rfl⟩ ⟨rfl, rfl⟩ (h.of_userId old_mem user_mem linked).2.1 rfl
        fun hsuper => by cases hsuper
    refine ⟨demoted.congr rfl rfl, (mem_staffs staff).mpr (Or.inr ⟨hstaff, other.symm⟩), fun _ _ b hb hne horg hsuper => ?_⟩
    rcases (mem_staffs b).mp hb with rfl | ⟨hb, hbne⟩
    · cases hsuper
    · -- the demoted staff member was the superadmin of the organisation
      obtain ⟨hof, -⟩ := h.of_userId old_mem user_mem linked
      have horgs : b.orgId = old.orgId := horg.trans (Option.some.inj (org.symm.trans hof))
      have hold := (h.superAdmin old_mem user_mem linked).mp superAdmin
      exact hbne (congrArg Staff.id (h.single b hb old old_mem horgs hsuper hold))

theorem truthy_userId (h : InStep s) {staff : Staff} (hstaff : staff ∈ s.staff) :
    ∃ userId, truthy staff.userId = some userId := by
  obtain ⟨user, -, hid, hnamed, -⟩ := h.linked staff hstaff
  exact ⟨user.id, truthy_eq_some.mpr ⟨hid, hnamed⟩⟩

theorem InStep.edited (h : InStep s) {staff : Staff} {dto : EditStaffMemberDto} {userId : String} {staffs : Table Staff}
    {users : Table UserCredential} (hstaff : staff ∈ s.staff) (hlinked : truthy staff.userId = some userId)
    (hroom : dto.role = some .superAdmin → staff.role ≠ .superAdmin → Room s staff)
    (hstaffs : s.staff.modify (·.id == staff.id) (editedStaff dto) = some staffs)
    (husers : s.userCredential.modify (·.id == userId) (editedUser staff.role dto) = some users) :
    InStep { s with staff := staffs, userCredential := users } := by
  obtain ⟨user, huser, hid, -, horg, hemail, hrole⟩ := h.linked staff hstaff
  obtain rfl : user.id = userId := Option.some.inj (hid.symm.trans (truthy_eq_some.mp hlinked).1)
  refine h.pair hstaff huser hid hstaffs husers ⟨rfl, rfl⟩ ⟨rfl, rfl⟩ ?_ ?_ fun hsuper => ?_
  · simp only [editedUser, editedStaff, hemail]
  · cases hdto : dto.role with
    | none => simp only [editedUser, editedStaff, hdto, Option.map_none, Option.getD_none, hrole]
    | some role => simp only [editedUser, editedStaff, hdto, Option.map_some, Option.getD_some]
  · -- who was superadmin before was the only one, and for who becomes one there is room
    by_cases hwas : staff.role = .superAdmin
    · exact fun b hb hne horg hbsuper => hne (congrArg Staff.id (h.single b hb staff hstaff horg hbsuper hwas))
    · refine hroom ?_ hwas
      cases hdto : dto.role with
      | none =>
        simp only [editedStaff, hdto, Option.getD_none] at hsuper
        exact absurd hsuper hwas
      | some role =>
        simp only [editedStaff, hdto, Option.getD_some] at hsuper
        rw [hsuper]

end Updates

/-! ### Runs -/

theorem InStep.request {js : Js} {s : Db} (h : InStep s) (q : Request) : (q.call js).Returns (fun _ t => InStep t) s := by
  obtain ⟨orgId, role, qOrgId, op⟩ := q
  cases op with
  | addStaffMember io dto => exact Prog.returns_discard.mpr (returns_addStaffMember h fun _ _ _ new => h.joined new)
  | addStaffBulk io staffList => exact Prog.returns_discard.mpr (returns_addStaffBulk h fun _ _ _ _ ht new => ht.joined new)
  | editStaffMemberDetails io staffId dto =>
    refine Prog.returns_discard.mpr (returns_editStaffMemberDetails h
      (fun staff t userId staffs users may room hlinked hstaffs husers => ?_)
      fun staff t staffs user users linked may _ hnone _ _ _ => ?_)
    · obtain ⟨ht, hstaff, hroom⟩ := h.madeRoom may.mem room
      obtain rfl := may.id
      exact ht.edited hstaff hlinked hroom hstaffs husers
    · obtain ⟨userId, hlinked⟩ := truthy_userId h may.mem
      rw [hnone] at hlinked
      cases hlinked
  | deleteStaffMember staffId =>
    refine Prog.returns_discard.mpr (returns_deleteStaffMember h (fun staff may hnone => ?_) fun staff userId may hlinked => ?_)
    · obtain ⟨user, huser, hid, hnamed, -⟩ := h.linked staff may.mem
      have hfind := hnone user.id (truthy_eq_some.mpr ⟨hid, hnamed⟩)
      rw [show s.userCredential.find user.id = some user from Table.find_of_mem huser] at hfind
      cases hfind
    · obtain rfl := may.id
      exact h.delete may.mem (truthy_eq_some.mp hlinked).1

/-- Every staff member has exactly one credential, in the same organisation, with the same email and the same
    role, and each organisation has at most one superadmin among its staff members and its credentials. -/
structure Synchronised (s : Db) : Prop where
  credential : ∀ staff ∈ s.staff, ∃ user ∈ s.userCredential,
    (staff.userId = some user.id ∧ user.orgId = some staff.orgId ∧ user.email = staff.email ∧ user.role = staff.role.auth) ∧
      ∀ other ∈ s.userCredential, staff.userId = some other.id → other = user
  oneStaff : ∀ a ∈ s.staff, ∀ b ∈ s.staff, a.orgId = b.orgId → a.role = .superAdmin → b.role = .superAdmin → a = b
  oneUser : ∀ a ∈ s.userCredential, ∀ b ∈ s.userCredential, a.orgId = b.orgId →
    a.role = .superAdmin → b.role = .superAdmin → a = b

theorem InStep.synchronised {s : Db} (h : InStep s) : Synchronised s where
  credential staff hstaff := by
    obtain ⟨user, huser, hid, -, hrest⟩ := h.linked staff hstaff
    refine ⟨user, huser, ⟨hid, hrest⟩, fun other hother hotherId => ?_⟩
    exact Table.eq_of_id hother huser (Option.some.inj (hotherId.symm.trans hid))
  oneStaff := h.single
  oneUser a ha b hb horg hasuper hbsuper := by
    obtain ⟨x, hx, hxa⟩ := h.ofStaff a ha hasuper
    obtain ⟨y, hy, hyb⟩ := h.ofStaff b hb hbsuper
    have horgs : x.orgId = y.orgId := by
      have hxorg := (h.of_userId hx ha hxa).1
      have hyorg := (h.of_userId hy hb hyb).1
      exact Option.some.inj (hxorg.symm.trans (horg.trans hyorg))
    obtain rfl := h.single x hx y hy horgs ((h.superAdmin hx ha hxa).mp hasuper) ((h.superAdmin hy hb hyb).mp hbsuper)
    exact Table.eq_of_id ha hb (Option.some.inj (hxa.symm.trans hyb))

/-- No staff members yet, and no credential of a superadmin. -/
def Unstaffed (s : Db) : Prop := s.staff = ∅ ∧ ∀ user ∈ s.userCredential, user.role ≠ .superAdmin

/-- In every run from a store without staff members and superadmins, staff members and credentials stay in
    step. -/
theorem staff_synchronised (js : Js) (s : Db) (h : (administration js Unstaffed).Reachable s) : Synchronised s := by
  have inStep : InStep s := by
    refine h.invariant (fun s hinit => ?_) fun s q t _ inv _ hstep => ?_
    · obtain ⟨hstaff, husers⟩ := hinit
      constructor
      · intro staff hmem
        rw [hstaff] at hmem
        exact absurd hmem Table.not_mem_empty
      · exact fun user huser hsuper => absurd hsuper (husers user huser)
      · intro staff hmem
        rw [hstaff] at hmem
        exact absurd hmem Table.not_mem_empty
    · obtain ⟨r, hr⟩ := hstep
      exact hr.of_returns inv (inv.request q)
  exact inStep.synchronised

/-! ### A firm -/

namespace Firm

def js : Js := { toLowerCase := id, trim := id, toLocaleString := fun _ => "" }

/-- Identifiers with a number of their own, and an order that puts a credential first. -/
def io (number : String) (users : RowOrder UserCredential) : Io where
  staffId _ := "staff" ++ number
  userId _ := "user" ++ number
  userId_ne _ h := absurd (congrArg String.length h) (by simp [String.length_append])
  employeeCodeDigits _ := [0]
  passwordDigits _ := 0
  workingHoursId _ := ""
  hash _ := ""
  toUpperCase text := .ofList (text.toList.map Char.toUpper)
  users := users
  departments := .stored

/-- A firm with the given credentials. -/
def db (users : Table UserCredential) : Db where
  organization := {{ id := "org", name := "Org", email := "org@mail.com" }}
  department := {{ id := "sales", orgId := "org", name := "Sales" }}
  userCredential := users

def request (op : Operation) : Request := { orgId := some "org", role := "Admin", op }

/-- Ann is added. -/
def hire : Request :=
  request (.addStaffMember (io "1" .stored) { name := "Ann", email := "ann@mail.com", designation := "Clerk", departmentId := "sales" })

/-- Ann is made superadmin. -/
def promote (users : RowOrder UserCredential) : Request :=
  request (.editStaffMemberDetails (io "2" users) "staff1" { role := some .superAdmin })

/-- A credential of a superadmin, whose staff member is gone. -/
def ghost : UserCredential := { id := "ghost", orgId := some "org", email := "ghost@mail.com", role := .superAdmin }

end Firm

section Firm
open Firm

def runAll (js : Js) (s : Db) (requests : List Request) : Db := requests.foldl (fun s q => ((q.call js).run s).2) s

theorem reach_runAll {js : Js} {init : Db → Prop} {s : Db} (hinit : init s) (requests : List Request) :
    (administration js init).Reachable (runAll js s requests) := by
  have hrun : ∀ s q, (administration js init).step s q ((q.call js).run s).2 := fun s q => ⟨_, Prog.settles_run (q.call js) s⟩
  exact System.Reach.foldl hrun (.init hinit) fun _ _ _ => trivial

theorem staff_synchronised_firm : Synchronised (runAll js (db ∅) [hire, promote .stored]) := by
  have unstaffed : Unstaffed (db ∅) := ⟨rfl, fun _ h => absurd h Table.not_mem_empty⟩
  exact staff_synchronised js _ (reach_runAll unstaffed _)

/-- A superadmin without a staff member is not demoted. -/
theorem two_superadmins : ¬∀ s, (administration js (·.staff = ∅)).Reachable s → Synchronised s := fun h => by
  have noStaff : (db {ghost}).staff = ∅ := rfl
  have reached : (administration js (·.staff = ∅)).Reachable (runAll js (db {ghost}) [hire, promote (.front ghost)]) :=
    reach_runAll noStaff _
  have ann : ∃ user ∈ (runAll js (db {ghost}) [hire, promote (.front ghost)]).userCredential,
      user.orgId = some "org" ∧ user.role = .superAdmin ∧ user.email = "ann@mail.com" := by decide
  have stays : ghost ∈ (runAll js (db {ghost}) [hire, promote (.front ghost)]).userCredential := by decide
  obtain ⟨user, huser, horg, hsuper, hemail⟩ := ann
  obtain rfl := (h _ reached).oneUser user huser ghost stays horg hsuper rfl
  exact absurd hemail (by decide)

end Firm

end Vms.StaffService
