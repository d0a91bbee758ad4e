import Vms.Theorems.Server.Authority

/-! The root user's own: the root accounts, the organisations with their limits and subscriptions, and the plans.
    Nothing that is not sent by a root user changes them, in whatever order the accesses of the requests come. -/

namespace Vms.Server
open Relational Table HttpException Prog

/-- The identifier of a root account. -/
def IsRoot (s : Db) (id : String) : Prop := ∃ user ∈ s.userCredential, user.id = id ∧ user.role = .root

/-- No staff member logs in with a root account. -/
def Unlinked (s : Db) : Prop := ∀ staff ∈ s.staff, ∀ id, staff.userId = some id → ¬IsRoot s id

/-- An account with another password, perhaps, and logged in to before or not. -/
def SameAccount (a b : UserCredential) : Prop := ∃ password firstTimeLogin, b = { a with password, firstTimeLogin }

theorem SameAccount.refl (a : UserCredential) : SameAccount a a := ⟨a.password, a.firstTimeLogin, rfl⟩

theorem SameAccount.trans {a b c : UserCredential} (h : SameAccount a b) (h' : SameAccount b c) : SameAccount a c := by
  obtain ⟨password, firstTimeLogin, hb⟩ := h
  obtain ⟨password', firstTimeLogin', hc⟩ := h'
  exact ⟨password', firstTimeLogin', by rw [hc, hb]⟩

theorem SameAccount.id {a b : UserCredential} (h : SameAccount a b) : b.id = a.id := by
  obtain ⟨-, -, rfl⟩ := h
  rfl

theorem SameAccount.role {a b : UserCredential} (h : SameAccount a b) : b.role = a.role := by
  obtain ⟨-, -, rfl⟩ := h
  rfl

/-- What is the root user's is as it was. -/
structure Guarded (s t : Db) : Prop where
  plan : t.plan = s.plan
  planFeature : t.planFeature = s.planFeature
  subscription : t.subscription = s.subscription
  organization : s.organization.Evolves OrganizationEdited t.organization
  kept : ∀ a ∈ s.userCredential, a.role = .root → ∃ b ∈ t.userCredential, SameAccount a b
  only : ∀ b ∈ t.userCredential, b.role = .root → ∃ a ∈ s.userCredential, SameAccount a b
  unlinked : Unlinked s → Unlinked t

namespace Guarded
variable {s t u : Db}

theorem isRoot_iff (h : Guarded s t) {id : String} : IsRoot t id ↔ IsRoot s id := by
  constructor
  · rintro ⟨b, hb, rfl, hrole⟩
    obtain ⟨a, ha, hab⟩ := h.only b hb hrole
    exact ⟨a, ha, hab.id.symm, hab.role.symm.trans hrole⟩
  · rintro ⟨a, ha, rfl, hrole⟩
    obtain ⟨b, hb, hab⟩ := h.kept a ha hrole
    exact ⟨b, hb, hab.id, hab.role.trans hrole⟩

theorem refl (s : Db) : Guarded s s where
  plan := rfl
  planFeature := rfl
  subscription := rfl
  organization := .refl fun _ => ⟨rfl, rfl⟩
  kept a ha _ := ⟨a, ha, .refl a⟩
  only a ha _ := ⟨a, ha, .refl a⟩
  unlinked h := h

theorem trans (h : Guarded s t) (h' : Guarded t u) : Guarded s u where
  plan := h'.plan.trans h.plan
  planFeature := h'.planFeature.trans h.planFeature
  subscription := h'.subscription.trans h.subscription
  organization := h.organization.trans (fun hab hbc => ⟨hbc.1.trans hab.1, hbc.2.trans hab.2⟩) h'.organization
  kept a ha hrole := by
    obtain ⟨b, hb, hab⟩ := h.kept a ha hrole
    obtain ⟨c, hc, hbc⟩ := h'.kept b hb (hab.role.trans hrole)
    exact ⟨c, hc, hab.trans hbc⟩
  only c hc hrole := by
    obtain ⟨b, hb, hbc⟩ := h'.only c hc hrole
    obtain ⟨a, ha, hab⟩ := h.only b hb (hbc.role.symm.trans hrole)
    exact ⟨a, ha, hab.trans hbc⟩
  unlinked hs := h'.unlinked (h.unlinked hs)

/-- Changes to the accounts and the staff members, for which everything else is as it was. -/
theorem of_accounts (frame : t.plan = s.plan ∧ t.planFeature = s.planFeature ∧ t.subscription = s.subscription ∧
      t.organization = s.organization)
    (kept : ∀ a ∈ s.userCredential, a.role = .root → ∃ b ∈ t.userCredential, SameAccount a b)
    (only : ∀ b ∈ t.userCredential, b.role = .root → ∃ a ∈ s.userCredential, SameAccount a b)
    (links : ∀ b ∈ t.staff, ∀ id, b.userId = some id → (∃ a ∈ s.staff, a.userId = some id) ∨ ¬IsRoot t id) : Guarded s t where
  plan := frame.1
  planFeature := frame.2.1
  subscription := frame.2.2.1
  organization := frame.2.2.2 ▸ .refl fun _ => ⟨rfl, rfl⟩
  kept := kept
  only := only
  unlinked hs b hb id hid := by
    rcases links b hb id hid with ⟨a, ha, hlink⟩ | hnot
    · rintro ⟨user, huser, hof, hrole⟩
      obtain ⟨user₀, huser₀, hsame⟩ := only user huser hrole
      exact hs a ha id hlink ⟨user₀, huser₀, hsame.id.symm.trans hof, hsame.role.symm.trans hrole⟩
    · exact hnot

/-- The accounts stay. -/
theorem of_staff (frame : t.plan = s.plan ∧ t.planFeature = s.planFeature ∧ t.subscription = s.subscription ∧
      t.organization = s.organization) (users : t.userCredential = s.userCredential)
    (links : ∀ b ∈ t.staff, ∀ id, b.userId = some id → ∃ a ∈ s.staff, a.userId = some id) : Guarded s t :=
  of_accounts frame (fun a ha _ => ⟨a, users ▸ ha, .refl a⟩) (fun a ha _ => ⟨a, users ▸ ha, .refl a⟩) fun b hb id hid =>
    Or.inl (links b hb id hid)

/-- The accounts stay, up to passwords, and so do the staff members. -/
theorem of_users (frame : t.plan = s.plan ∧ t.planFeature = s.planFeature ∧ t.subscription = s.subscription ∧
      t.organization = s.organization) (users : s.userCredential.Evolves SameAccount t.userCredential)
    (staff : t.staff = s.staff) : Guarded s t :=
  of_accounts frame (fun a ha _ => users.kept a ha) (fun b hb _ => users.only b hb) fun b hb _ hid =>
    Or.inl ⟨b, staff ▸ hb, hid⟩

end Guarded

/-! ### Changes -/

/-- The changes that leave alone what is the root user's, whatever they are about. -/
def Kind.Harmless : Kind → Prop
  | addRoot | updateUser | dropUser | addOrganization | limitOrganization | addSubscription | setSubscription | dropOrganization
  | addPlan | updatePlan | setFeature | dropFeatures => False
  | _ => True

theorem Change.guarded {s t : Db} {k : Kind} (h : Change s k t) (harmless : k.Harmless) : Guarded s t := by
  cases h <;> first
    | exact harmless.elim
    | exact ⟨rfl, rfl, rfl, .refl fun _ => ⟨rfl, rfl⟩, fun a ha _ => ⟨a, ha, .refl a⟩, fun a ha _ => ⟨a, ha, .refl a⟩, id⟩
    | skip
  case setPassword _ users =>
    exact .of_users ⟨rfl, rfl, rfl, rfl⟩ (users.mono fun a b ⟨password, hb⟩ => ⟨password, a.firstTimeLogin, hb⟩) rfl
  case setReady _ users =>
    refine .of_users ⟨rfl, rfl, rfl, rfl⟩ (users.mono fun a b hab => ?_) rfl
    rcases hab with rfl | rfl
    · exact .refl b
    · exact ⟨a.password, some false, rfl⟩
  case dropDepartment id u staff =>
    refine .of_staff ⟨rfl, rfl, rfl, rfl⟩ rfl fun b hb user hid => ?_
    obtain ⟨a, ha, rfl | ⟨rfl, -⟩⟩ := staff.only b hb
    · exact ⟨a, ha, hid⟩
    · exact ⟨b, ha, hid⟩
  case addStaff staff u unlinked org department stored =>
    refine .of_staff ⟨rfl, rfl, rfl, rfl⟩ rfl fun b hb user hid => ?_
    rcases (mem_insert stored).mp hb with hb | rfl
    · exact ⟨b, hb, hid⟩
    · rw [unlinked] at hid
      cases hid
  case updateStaff u rows departments =>
    refine .of_staff ⟨rfl, rfl, rfl, rfl⟩ rfl fun b hb user hid => ?_
    obtain ⟨a, ha, _, _, _, _, _, rfl⟩ := rows.only b hb
    exact ⟨a, ha, hid⟩
  case addUser user users staffId staff role org stored connected =>
    refine .of_accounts ⟨rfl, rfl, rfl, rfl⟩ (fun a ha _ => ⟨a, (mem_insert stored).mpr (Or.inl ha), .refl a⟩)
      (fun b hb hrole => ?_) fun b hb id hid => ?_
    · rcases (mem_insert stored).mp hb with hb | rfl
      · exact ⟨b, hb, .refl b⟩
      · exact absurd hrole role
    · obtain ⟨a, ha, rfl⟩ := (mem_modify connected).mp hb
      split at hid
      · -- the new account is the only one with its identifier
        obtain rfl : user.id = id := Option.some.inj hid
        refine Or.inr ?_
        rintro ⟨other, hother, hsame, hrole⟩
        rcases (mem_insert stored).mp hother with hother | rfl
        · exact id_ne_of_insert stored hother hsame
        · exact role hrole
      · exact Or.inl ⟨a, ha, hid⟩
  case dropStaff gone => exact .of_staff ⟨rfl, rfl, rfl, rfl⟩ rfl fun b hb user hid => ⟨b, (mem_delete.mp hb).1, hid⟩
  case editOrganization u organizations =>
    exact ⟨rfl, rfl, rfl, organizations, fun a ha _ => ⟨a, ha, .refl a⟩, fun a ha _ => ⟨a, ha, .refl a⟩, id⟩

/-! ### Requests -/

/-- A request is sent with the root role, or by a root account. -/
def Request.ByRoot (server : Server) (s : Db) : Request → Prop
  | anyone _ => False
  | authorized now authorization _ => ∃ caller, sender server.jwt now authorization = some caller ∧
      (caller.role = some "Root" ∨ ∃ id, caller.userId = some id ∧ IsRoot s id)

section Requests
variable {server : Server} {caller : Caller} {s t : Db}

/-- There is a root account already. -/
theorem registerRootUser_guarded {hash : String → String} {userId : String} {dto : RegisterRootDto} (rooted : ∃ id, IsRoot s id) :
    (AuthService.registerRootUser server.js hash userId dto).Keeps Guarded s := by
  refine query_bind_keeps Guarded.refl fun t ht => failIf_bind_keeps fun hnone => absurd ?_ hnone
  obtain ⟨id, hid⟩ := rooted
  obtain ⟨user, huser, -, hrole⟩ := ht.isRoot_iff.mpr hid
  rw [Option.isSome_iff_ne_none]
  intro hfind
  exact List.find?_eq_none.mp hfind user huser (by rw [hrole]; rfl)

/-- The account that is changed is not a root account. -/
theorem updateUser_guarded {id : String} {change : UserCredential → UserCredential} (hid : ¬IsRoot s id)
    (reassigns : ∀ a, Reassigned a (change a)) : (StaffService.updateUser id change).Post (fun _ t => Guarded s t) s := by
  refine post_mutate.mpr ⟨⟨fun _ _ => .refl s, fun a t h => ?_⟩, .refl s⟩
  split at h
  · cases h
  · split at h
    · cases h
    · rename_i u hu
      cases h
      refine .of_accounts ⟨rfl, rfl, rfl, rfl⟩ (fun a ha hrole => ⟨a, (mem_modify hu).mpr ⟨a, ha, if_neg ?_⟩, .refl a⟩)
        (fun b hb hrole => ?_) fun b hb _ hlink => Or.inl ⟨b, hb, hlink⟩
      · exact fun h => hid ⟨a, ha, by simpa using h, hrole⟩
      · obtain ⟨a, ha, rfl⟩ := (mem_modify hu).mp hb
        split at hrole
        · rename_i hof
          obtain ⟨role, _, _, hnew, hchange⟩ := reassigns a
          rw [hchange] at hrole
          rcases hnew with rfl | hnew
          · exact absurd ⟨a, ha, by simpa using hof, hrole⟩ hid
          · exact absurd hrole hnew
        · rename_i hof
          exact ⟨a, ha, by rw [if_neg hof]; exact .refl a⟩

theorem deleteUser_guarded {id : String} (hid : ¬IsRoot s id) : Guarded s (s.deleteUser id) := by
  refine .of_accounts ⟨rfl, rfl, rfl, rfl⟩ (fun a ha hrole => ⟨a, mem_delete.mpr ⟨ha, ?_⟩, .refl a⟩)
    (fun b hb _ => ⟨b, (mem_delete.mp hb).1, .refl b⟩) fun b hb _ hlink => Or.inl ⟨b, (mem_delete.mp hb).1, hlink⟩
  exact beq_eq_false_iff_ne.mpr fun h => hid ⟨a, ha, h, hrole⟩

theorem guarded_of_within {α : Type} {K : Kind → Prop} {p : Service α} (h : p.Within (Changes K))
    (harmless : ∀ k, K k → k.Harmless) : p.Within Guarded :=
  Changes.within h Guarded.refl Guarded.trans fun _ k _ hk hchange => hchange.guarded (harmless k hk)

section Edits
variable {io : StaffService.Io} {orgId qOrgId : Option String} {role staffId : String}

theorem updateStaff_guarded {id : String} {change : Staff → Staff} (h : ∀ a, StaffUpdated a (change a)) :
    (StaffService.updateStaff id change).Within Guarded :=
  guarded_of_within (K := (· = .updateStaff)) (updateStaff_within rfl h) (by rintro k rfl; trivial)

/-- The other superadmin, who is demoted, is not a root user. -/
theorem demoteSuperAdmin_guarded {org : String} :
    (StaffService.demoteSuperAdmin io org staffId).Post (fun _ t => Guarded s t) s := by
  refine post_bind.mpr (post_query.mpr ⟨?_, .refl s⟩)
  rw [then_ok]
  split
  · exact .refl s
  · rename_i user staff hfound
    obtain ⟨user', huser', hstaff⟩ := Option.bind_eq_some_iff.mp (Option.filter_eq_some_iff.mp hfound).1
    obtain ⟨_, -, hpair⟩ := Option.map_eq_some_iff.mp hstaff
    obtain ⟨rfl, -⟩ := Prod.mk.inj hpair
    obtain ⟨hmem, hof⟩ := mem_filter.mp (RowOrder.mem_of_first huser')
    have hrole : user'.role = .superAdmin := by
      rw [Bool.and_eq_true, beq_iff_eq, beq_iff_eq] at hof
      exact hof.2
    refine Post.bind_rel Guarded.trans (updateUser_guarded ?_ fun a => ?_) fun _ t _ => ?_
    · rintro ⟨other, hother, hid, hroot⟩
      rw [eq_of_id hother hmem hid, hrole] at hroot
      cases hroot
    · exact ⟨.admin, a.email, a.accountStatus, Or.inr (by decide), rfl⟩
    · refine (updateStaff_guarded fun a => ?_).post Guarded.refl Guarded.trans t
      exact ⟨a.name, a.email, .admin, a.departmentId, a.designation, rfl⟩

theorem updateCredential_guarded {organization : Organization} {staff : Staff} {dto : StaffService.EditStaffMemberDto}
    (account : ∀ id, staff.userId = some id → ¬IsRoot s id) :
    (StaffService.updateCredential io organization staff dto).Post (fun _ t => Guarded s t) s := by
  cases huser : truthy staff.userId with
  | none =>
    have hwithin : (StaffService.updateCredential io organization staff dto).Within Guarded := by
      unfold StaffService.updateCredential
      rw [huser]
      refine always_orFail.bind fun _ => always_orFail.bind fun newRole => Prog.Always.bind ?_ fun _ => ?_
      · refine guarded_of_within (K := (· = .addUser)) (createMemberUser_within rfl ?_) (by rintro k rfl; trivial)
        cases newRole <;> simp [MemberRoleEnum.auth]
      · exact (always_access Guarded.refl).bind fun _ => trivial
    exact hwithin.post Guarded.refl Guarded.trans s
  | some id =>
    unfold StaffService.updateCredential
    rw [huser]
    refine Post.bind_rel Guarded.trans ?_ fun _ t _ => Guarded.refl t
    exact updateUser_guarded (account id (truthy_eq_some.mp huser).1) fun _ => reassigned

/-- The staff member's account, when it was read, is none of a root user's, and has not become one. -/
theorem editStaffMemberDetails_guarded {dto : StaffService.EditStaffMemberDto} (unlinked : Unlinked s) :
    (StaffService.editStaffMemberDetails io orgId role staffId dto qOrgId).Keeps Guarded s := by
  refine failIf_bind_keeps fun _ => orFail_bind_keeps fun org _ => query_bind_keeps Guarded.refl fun t ht => ?_
  refine orFail_bind_keeps fun organization _ => query_bind_keeps Guarded.refl fun u hu => orFail_bind_keeps fun staff hstaff => ?_
  have account : ∀ id, staff.userId = some id → ¬IsRoot u id :=
    hu.unlinked (ht.unlinked unlinked) staff (find_eq_some.mp hstaff).1
  refine failIf_bind_keeps fun _ => transaction_keeps Guarded.refl fun v hv => ?_
  have hours : (StaffService.editWorkingHours io staffId dto.workingHours).Within Guarded :=
    guarded_of_within (K := (· = .setStaffHours)) (editStaffHours_within rfl) (by rintro k rfl; trivial)
  have member : (StaffService.updateMember staffId dto).Within Guarded :=
    guarded_of_within (K := (· = .updateStaff)) (updateMember_within rfl) (by rintro k rfl; trivial)
  refine Post.returns (Post.bind_rel Guarded.trans (hours.post Guarded.refl Guarded.trans v) fun _ w hw =>
    Post.bind_rel Guarded.trans ?_ fun _ x hx => ?_)
  · unfold StaffService.makeRoom
    split
    · exact demoteSuperAdmin_guarded
    · exact .refl w
  · refine Post.bind_rel Guarded.trans (member.post Guarded.refl Guarded.trans x) fun _ y hy => ?_
    refine updateCredential_guarded fun id hid => ?_
    exact mt (Guarded.trans hv (.trans hw (.trans hx hy))).isRoot_iff.mp (account id hid)

theorem deleteStaffMember_guarded (unlinked : Unlinked s) :
    (StaffService.deleteStaffMember orgId role staffId qOrgId).Keeps Guarded s := by
  refine failIf_bind_keeps fun _ => orFail_bind_keeps fun org _ => query_bind_keeps Guarded.refl fun t ht => ?_
  refine orFail_bind_keeps fun organization _ => query_bind_keeps Guarded.refl fun u hu => orFail_bind_keeps fun staff hstaff => ?_
  have account : ∀ id, staff.userId = some id → ¬IsRoot u id :=
    hu.unlinked (ht.unlinked unlinked) staff (find_eq_some.mp hstaff).1
  have check : (StaffService.checkDeletion role staff).Within Guarded :=
    guarded_of_within (K := fun _ => False) checkDeletion_within fun _ hk => hk.elim
  have row : (StaffService.deleteStaff staffId).Within Guarded :=
    guarded_of_within (K := (· = .dropStaff)) (deleteStaff_within rfl) (by rintro k rfl; trivial)
  refine failIf_bind_keeps fun _ => check.keeps.bind Guarded.refl Guarded.trans fun _ v hv => ?_
  refine row.keeps.bind Guarded.refl Guarded.trans fun _ w hw => Keeps.bind Guarded.refl Guarded.trans ?_ fun _ x hx => trivial
  cases huser : truthy staff.userId with
  | none => trivial
  | some id =>
    refine mutate_keeps Guarded.refl fun x hx a y h => ?_
    split at h
    · cases h
    · cases h
      exact deleteUser_guarded (mt (Guarded.trans hv (.trans hw hx)).isRoot_iff.mp (account id (truthy_eq_some.mp huser).1))

end Edits

/-- The plan endpoints let nobody pass but a root user. -/
theorem asRoot_guarded {p : Service Unit} (other : ∀ id, caller.userId = some id → ¬IsRoot s id) :
    (asRoot caller p).Keeps Guarded s := by
  unfold asRoot requireRole
  rw [bind_assoc]
  refine orFail_bind_keeps fun id hid => ?_
  rw [bind_assoc]
  refine query_bind_keeps Guarded.refl fun t ht => ?_
  rw [bind_assoc]
  refine orFail_bind_keeps fun user huser => ?_
  obtain ⟨hfind, hrole⟩ := Option.filter_eq_some_iff.mp huser
  obtain ⟨hmem, hof⟩ := find_eq_some.mp hfind
  exact absurd (ht.isRoot_iff.mp ⟨user, hmem, hof, beq_iff_eq.mp hrole⟩) (other id (truthy_eq_some.mp hid).1)

theorem OpenEndpoint.handle_guarded (endpoint : OpenEndpoint) (rooted : ∃ id, IsRoot s id) :
    (endpoint.handle server).Keeps Guarded s := by
  have rest (h : ∀ k ∈ endpoint.kinds, k.Harmless) : (endpoint.handle server).Keeps Guarded s :=
    (guarded_of_within (OpenEndpoint.handle_within endpoint) h).keeps
  cases endpoint
  case registerRoot => exact (registerRootUser_guarded rooted).bind Guarded.refl Guarded.trans fun _ _ _ => trivial
  all_goals exact rest (by simp [kinds, Kind.Harmless])

/-- The handlers for anybody but a root user. -/
theorem Endpoint.handle_guarded (endpoint : Endpoint) (unlinked : Unlinked s) (role : caller.role ≠ some "Root")
    (other : ∀ id, caller.userId = some id → ¬IsRoot s id) : (endpoint.handle server caller).Keeps Guarded s := by
  have hrole : caller.role.getD "" ≠ "Root" := by
    cases h : caller.role with
    | none => simp
    | some role' => exact fun h' => role (by rw [h, ← h']; rfl)
  have rest (h : ∀ k ∈ endpoint.kinds, k.Harmless ∨ ¬endpoint.Admits caller k) : (endpoint.handle server caller).Keeps Guarded s :=
    (guarded_of_within (Endpoint.handle_within endpoint) fun k hk => (h k hk.1).resolve_right (not_not_intro hk.2)).keeps
  cases endpoint
  case updateStaffMember => exact (editStaffMemberDetails_guarded unlinked).bind Guarded.refl Guarded.trans fun _ _ _ => trivial
  case deleteStaffMember => exact (deleteStaffMember_guarded unlinked).bind Guarded.refl Guarded.trans fun _ _ _ => trivial
  case createPlan => exact asRoot_guarded other
  case updatePlan => exact asRoot_guarded other
  case softDeletePlan => exact asRoot_guarded other
  all_goals exact rest (by simp [kinds, Kind.Harmless, Admits, hrole])

end Requests

/-- Whatever everybody else sends, and in whatever order the accesses come and fail: the plans, the subscriptions, the
    organisations with their limits, and the root accounts but for their passwords are as they were. -/
theorem roots_guarded {server : Server} {ι : Type} [DecidableEq ι] {requests : ι → Request} {s : Db}
    {d : Threads ι Db HttpException Unit} (rooted : ∃ id, IsRoot s id) (unlinked : Unlinked s)
    (others : ∀ i, ¬(requests i).ByRoot server s)
    (h : (Threads.interleaving ⟨s, fun i => serve server (requests i)⟩).Reachable d) : Guarded s d.state := by
  refine kept_of_reach Guarded.refl Guarded.trans (fun _ endpoint _ => endpoint.handle_guarded rooted)
    (fun i now authorization endpoint caller t hrequest hcaller ht => ?_) h
  have other := others i
  rw [hrequest] at other
  refine endpoint.handle_guarded (ht.unlinked unlinked) (fun hrole => other ⟨caller, hcaller, Or.inl hrole⟩) fun id hid hroot => ?_
  exact other ⟨caller, hcaller, Or.inr ⟨id, hid, ht.isRoot_iff.mp hroot⟩⟩

theorem roots_guarded_office : Guarded Office.db Office.after.state ∧ Office.after.state.visit = ∅ := by
  refine ⟨roots_guarded ⟨"root", Office.root, by decide, rfl, rfl⟩ ?_ (fun i hroot => ?_) Office.reachable_after, Office.visit_after⟩
  · intro staff hstaff id hid
    have linked : ∀ staff ∈ Office.db.staff, staff.userId = some "ann" ∨ staff.userId = some "ben" := by decide
    unfold IsRoot
    rcases linked staff hstaff with hlink | hlink <;>
    · obtain rfl := Option.some.inj (hlink.symm.trans hid)
      decide
  · cases i with
    | false => exact hroot
    | true =>
      obtain ⟨caller, hcaller, hrole⟩ := hroot
      obtain rfl := sender_sign hcaller
      rcases hrole with hrole | ⟨id, hid, hroot⟩
      · exact absurd hrole (by decide)
      · obtain rfl : "ann" = id := Option.some.inj hid
        revert hroot
        unfold IsRoot
        decide

end Vms.Server
