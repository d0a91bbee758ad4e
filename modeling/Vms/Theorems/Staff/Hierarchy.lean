import Vms.Theorems.Staff.InStep

/-! How far up an admin reaches. `deleteStaffMember` lets an admin delete nobody but staff, while
    `editStaffMemberDetails` lets an admin give any role to anybody, the admin included. -/

namespace Vms.StaffService
open Relational

/-- An edit or a deletion by an admin of the organisation. -/
structure ByAdmin (orgId : String) (q : Request) : Prop where
  role : q.role = "Admin"
  org : q.orgId = some orgId
  op : (∃ io staffId dto, q.op = .editStaffMemberDetails io staffId dto) ∨ ∃ staffId, q.op = .deleteStaffMember staffId

/-- An edit that passes its checks changes no role, or makes an admin of a staff member. -/
def Modest (s : Db) (q : Request) : Prop :=
  ∀ io staffId dto, q.op = .editStaffMemberDetails io staffId dto → ∀ staff, MayEdit s q.orgId q.role staffId q.qOrgId staff →
    ∀ role, dto.role = some role → role = staff.role ∨ (staff.role = .staff ∧ role = .admin)

/-- From `s` to `t`, those above staff are there with their roles, and nobody became superadmin. -/
structure Steady (s t : Db) : Prop where
  stays : ∀ a ∈ s.staff, a.role ≠ .staff → ∃ b ∈ t.staff, b.id = a.id ∧ b.role = a.role
  noClimb : ∀ b ∈ t.staff, b.role = .superAdmin → ∃ a ∈ s.staff, a.id = b.id ∧ a.role = .superAdmin

section Updates
variable {s t u : Db}

@[refl, simp] theorem Steady.refl (s : Db) : Steady s s :=
  ⟨fun a ha _ => ⟨a, ha, rfl, rfl⟩, fun b hb hsuper => ⟨b, hb, rfl, hsuper⟩⟩

theorem Steady.trans (h : Steady s t) (h' : Steady t u) : Steady s u where
  stays a ha hrole := by
    obtain ⟨b, hb, hid, hsame⟩ := h.stays a ha hrole
    obtain ⟨c, hc, hid', hsame'⟩ := h'.stays b hb (hsame ▸ hrole)
    exact ⟨c, hc, hid'.trans hid, hsame'.trans hsame⟩
  noClimb c hc hsuper := by
    obtain ⟨b, hb, hid, hsuper⟩ := h'.noClimb c hc hsuper
    obtain ⟨a, ha, hid', hsuper⟩ := h.noClimb b hb hsuper
    exact ⟨a, ha, hid'.trans hid, hsuper⟩

/-- The row of one staff member changes, under the same identifier and modestly. -/
theorem Steady.modify {staff : Staff} {f : Staff → Staff} {staffs : Table Staff} (hstaff : staff ∈ s.staff)
    (hstaffs : s.staff.modify (·.id == staff.id) f = some staffs) (hid : (f staff).id = staff.id)
    (hrole : (f staff).role = staff.role ∨ (staff.role = .staff ∧ (f staff).role = .admin)) (ht : t.staff = staffs) :
    Steady s t := by
  have mem_staffs := Table.mem_modify_one hstaffs hstaff fun b _ => beq_iff_eq
  rw [← ht] at mem_staffs
  constructor
  · intro a ha habove
    by_cases hsame : a.id = staff.id
    · obtain rfl : a = staff := Table.eq_of_id ha hstaff hsame
      refine ⟨f a, (mem_staffs _).mpr (Or.inl rfl), hid, ?_⟩
      rcases hrole with hrole | ⟨hstaffRole, -⟩
      · exact hrole
      · exact absurd hstaffRole habove
    · exact ⟨a, (mem_staffs a).mpr (Or.inr ⟨ha, hsame⟩), rfl, rfl⟩
  · intro b hb hsuper
    rcases (mem_staffs b).mp hb with rfl | ⟨hb, -⟩
    · rcases hrole with hrole | ⟨-, hadmin⟩
      · exact ⟨staff, hstaff, hid.symm, hrole.symm.trans hsuper⟩
      · rw [hadmin] at hsuper
        cases hsuper
    · exact ⟨b, hb, rfl, hsuper⟩

/-- Staff members may go who are not above staff. -/
theorem Steady.deleteStaff {gone : String → Bool} (h : ∀ a ∈ s.staff, gone a.id = true → a.role = .staff) :
    Steady s (s.deleteStaff gone) where
  stays a ha habove := by
    refine ⟨a, Table.mem_delete.mpr ⟨ha, ?_⟩, rfl, rfl⟩
    cases hgone : gone a.id with
    | false => rfl
    | true => exact absurd (h a ha hgone) habove
  noClimb b hb hsuper := ⟨b, (Table.mem_delete.mp hb).1, rfl, hsuper⟩

end Updates

section Step
variable {s : Db} {js : Js} {orgId : String} {q : Request}

theorem editedStaff_role {dto : EditStaffMemberDto} {staff : Staff}
    (h : ∀ role, dto.role = some role → role = staff.role ∨ (staff.role = .staff ∧ role = .admin)) :
    (editedStaff dto staff).role = staff.role ∨ (staff.role = .staff ∧ (editedStaff dto staff).role = .admin) := by
  cases hdto : dto.role with
  | none => exact Or.inl (by simp only [editedStaff, hdto, Option.getD_none])
  | some role =>
    simp only [editedStaff, hdto, Option.getD_some]
    exact h role hdto

/-- Nobody is made superadmin, so nobody is demoted for it. -/
theorem MadeRoom.modest {staff : Staff} {role : Option MemberRoleEnum} {t : Db} (room : MadeRoom s staff role t)
    (h : ∀ r, role = some r → r = staff.role ∨ (staff.role = .staff ∧ r = .admin)) : t.staff = s.staff := by
  cases room with
  | kept hours none => rfl
  | demoted hours user old users staffs promoted user_mem org superAdmin old_mem linked other husers hstaffs =>
    rcases h _ promoted.1 with hsame | ⟨-, hadmin⟩
    · exact absurd hsame.symm promoted.2
    · cases hadmin

theorem edit_steady {io : Io} {staffId : String} {dto : EditStaffMemberDto} {qOrgId : Option String} {role : String}
    (modest : ∀ staff, MayEdit s (some orgId) role staffId qOrgId staff →
      ∀ role, dto.role = some role → role = staff.role ∨ (staff.role = .staff ∧ role = .admin)) :
    (editStaffMemberDetails io (some orgId) role staffId dto qOrgId).Returns (fun _ t => Steady s t) s := by
  refine returns_editStaffMemberDetails (Steady.refl s)
    (fun staff t userId staffs users may room _ hstaffs _ => ?_)
    fun staff t staffs user users linked may room _ hstaffs _ hlinked => ?_
  · obtain rfl := may.id
    rw [room.modest (modest staff may)] at hstaffs
    exact Steady.modify may.mem hstaffs rfl (editedStaff_role (modest staff may)) rfl
  · obtain rfl := may.id
    rw [room.modest (modest staff may)] at hstaffs
    have first : Steady s { t with staff := staffs } :=
      Steady.modify may.mem hstaffs rfl (editedStaff_role (modest staff may)) rfl
    have changed : editedStaff dto staff ∈ staffs :=
      (Table.mem_modify_one hstaffs may.mem (fun b _ => beq_iff_eq) _).mpr (Or.inl rfl)
    exact first.trans (Steady.modify changed hlinked rfl (Or.inl rfl) rfl)

theorem delete_steady {staffId : String} {qOrgId : Option String} :
    (deleteStaffMember (some orgId) "Admin" staffId qOrgId).Returns (fun _ t => Steady s t) s := by
  have alone : ∀ staff, MayDelete s (some orgId) "Admin" staffId qOrgId staff → Steady s (s.deleteStaff (· == staffId)) := by
    intro staff may
    refine Steady.deleteStaff fun a ha hgone => ?_
    obtain rfl : a = staff := Table.eq_of_id ha may.mem ((beq_iff_eq.mp hgone).trans may.id.symm)
    exact may.admin rfl
  refine returns_deleteStaffMember (Steady.refl s) (fun staff may _ => alone staff may) fun staff userId may hlinked => ?_
  -- the staff member of the credential is gone already
  refine (alone staff may).trans ⟨fun a ha habove => ⟨a, Table.mem_delete.mpr ⟨ha, ?_⟩, rfl, rfl⟩,
    fun b hb hsuper => ⟨b, (Table.mem_delete.mp hb).1, rfl, hsuper⟩⟩
  have hfind : (s.deleteStaff (· == staffId)).staff.find a.id = some a := Table.find_of_mem ha
  obtain ⟨ha, hother⟩ := Table.mem_delete.mp ha
  simp only [hfind, Option.any_some]
  refine beq_eq_false_iff_ne.mpr fun hof => beq_eq_false_iff_ne.mp hother ?_
  rw [eq_of_userId ha may.mem hof (truthy_eq_some.mp hlinked).1]
  exact may.id

theorem ByAdmin.steady (h : ByAdmin orgId q) (modest : Modest s q) : (q.call js).Returns (fun _ t => Steady s t) s := by
  obtain ⟨org, role, qOrgId, op⟩ := q
  obtain ⟨hrole, horg, hop⟩ := h
  obtain rfl : role = "Admin" := hrole
  obtain rfl : org = some orgId := horg
  rcases hop with ⟨io, staffId, dto, rfl⟩ | ⟨staffId, rfl⟩
  · exact Prog.returns_discard.mpr (edit_steady (modest io staffId dto rfl))
  · exact Prog.returns_discard.mpr delete_steady

end Step

/-- Between the states at the start and at the end of a run, no admin and no superadmin was deleted, nobody
    became superadmin, and the superadmin of the organisation keeps the role. -/
structure Unharmed (orgId : String) (s t : Db) : Prop where
  notDeleted : ∀ staff ∈ s.staff, staff.role ≠ .staff → ∃ now ∈ t.staff, now.id = staff.id
  noClimb : ∀ staff ∈ s.staff, staff.role ≠ .superAdmin → ∀ now ∈ t.staff, now.id = staff.id → now.role ≠ .superAdmin
  keepsRole : ∀ staff ∈ s.staff, staff.orgId = orgId → staff.role = .superAdmin →
    ∃ now ∈ t.staff, now.id = staff.id ∧ now.role = .superAdmin

theorem Steady.unharmed {s t : Db} (h : Steady s t) (orgId : String) : Unharmed orgId s t where
  notDeleted staff hstaff habove := by
    obtain ⟨now, hnow, hid, -⟩ := h.stays staff hstaff habove
    exact ⟨now, hnow, hid⟩
  noClimb staff hstaff hrole now hnow hid hsuper := by
    obtain ⟨before, hbefore, hbeforeId, hwas⟩ := h.noClimb now hnow hsuper
    obtain rfl : before = staff := Table.eq_of_id hbefore hstaff (hbeforeId.trans hid)
    exact hrole hwas
  keepsRole staff hstaff _ hsuper := by
    have habove : staff.role ≠ .staff := fun h => by rw [h] at hsuper; cases hsuper
    obtain ⟨now, hnow, hid, hsame⟩ := h.stays staff hstaff habove
    exact ⟨now, hnow, hid, hsame.trans hsuper⟩

/-- In a run of modest edits and deletions by admins of an organisation, none of those above staff is harmed. -/
theorem admins_unharmed (js : Js) (orgId : String) (start s : Db)
    (h : (administration js (· = start)).Reach (fun s q => ByAdmin orgId q ∧ Modest s q) s) : Unharmed orgId start s := by
  have steady : Steady start s := by
    refine h.invariant (fun s hinit => ?_) fun s q t _ inv meets hstep => ?_
    · obtain rfl : s = start := hinit
      exact Steady.refl s
    · obtain ⟨r, hr⟩ := hstep
      exact inv.trans (hr.of_returns (Steady.refl s) (meets.1.steady meets.2))
  exact steady.unharmed orgId

namespace Firm

def employee (id : String) (role : MemberRoleEnum) : Staff :=
  { id, orgId := "org", userId := some id, name := id, email := id, role }

def account (id : String) (role : AuthRoleEnum) : UserCredential := { id, orgId := some "org", email := id, role }

/-- Bob is superadmin, Ann is admin, and Cat and Dan are staff. -/
def staffed : Db where
  organization := {{ id := "org", name := "Org", email := "org@mail.com" }}
  staff := ⟨[employee "bob" .superAdmin, employee "ann" .admin, employee "cat" .staff, employee "dan" .staff], by decide⟩
  userCredential := ⟨[account "bob" .superAdmin, account "ann" .admin, account "cat" .staff, account "dan" .staff], by decide⟩

/-- An admin gives a role to a staff member. -/
def giveRole (staffId : String) (role : MemberRoleEnum) : Request :=
  request (.editStaffMemberDetails (io "" .stored) staffId { role := some role })

theorem giveRole_byAdmin (staffId : String) (role : MemberRoleEnum) : ByAdmin "org" (giveRole staffId role) :=
  ⟨rfl, rfl, Or.inl ⟨_, _, _, rfl⟩⟩

end Firm

section Firm
open Firm

/-- Ann makes Cat an admin, and deletes Dan. -/
theorem admins_unharmed_firm :
    Unharmed "org" staffed (runAll js staffed [giveRole "cat" .admin, request (.deleteStaffMember "dan")]) := by
  have modest : Modest staffed (giveRole "cat" .admin) := fun io staffId dto hop staff may role hrole => by
    obtain ⟨-, rfl, rfl⟩ := Operation.editStaffMemberDetails.inj hop
    obtain rfl := Option.some.inj hrole
    have cat : ∀ staff ∈ staffed.staff, staff.id = "cat" → staff.role = .staff := by decide
    exact Or.inr ⟨cat staff may.mem may.id, rfl⟩
  have first : (administration js (· = staffed)).Reach (fun s q => ByAdmin "org" q ∧ Modest s q)
      (runAll js staffed [giveRole "cat" .admin]) :=
    .step (.init rfl) ⟨giveRole_byAdmin "cat" .admin, modest⟩ ⟨_, Prog.settles_run _ _⟩
  refine admins_unharmed js "org" staffed _ (.step first (c := request (.deleteStaffMember "dan"))
    ⟨⟨rfl, rfl, Or.inr ⟨_, rfl⟩⟩, ?_⟩ ⟨_, Prog.settles_run _ _⟩)
  intro io staffId dto hop
  cases hop

/-- Ann makes herself superadmin. -/
theorem admin_climbs : ¬∀ s, (administration js (· = staffed)).Reach (fun _ q => ByAdmin "org" q) s →
    Unharmed "org" staffed s := fun h => by
  have unharmed := h _ (.step (.init rfl) (giveRole_byAdmin "ann" .superAdmin) ⟨_, Prog.settles_run _ _⟩)
  have climbed : ∃ now ∈ (runAll js staffed [giveRole "ann" .superAdmin]).staff,
      now.id = "ann" ∧ now.role = .superAdmin := by decide
  obtain ⟨now, hnow, hid, hsuper⟩ := climbed
  exact unharmed.noClimb (employee "ann" .admin) (by decide) (by decide) now hnow hid hsuper

end Firm

end Vms.StaffService
