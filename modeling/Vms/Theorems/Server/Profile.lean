import Vms.Theorems.Server.Authority

/-! What every organisation is like, and whose the accounts are. A property of the rows of organisations stays, whatever is
    requested at the same time, if the organisations that are created have it and the edits keep it. An edit by a superadmin
    comes from an account of the organisation, as the accounts are only of organisations that somebody adds them to. -/

namespace Vms.Server
open Relational Table HttpException Prog OrganizationService

def Everywhere (P : Organization → Prop) (s : Db) : Prop := ∀ organization ∈ s.organization, P organization

/-- Every account of an organisation belongs there. -/
def Homes (belongs : (userId orgId : String) → Prop) (s : Db) : Prop :=
  ∀ user ∈ s.userCredential, ∀ orgId, user.orgId = some orgId → belongs user.id orgId

structure Profiled (belongs : (userId orgId : String) → Prop) (P : Organization → Prop) (s : Db) : Prop where
  organizations : Everywhere P s
  users : Homes belongs s

/-- The endpoint adds the account to the organisation, if its caller may. -/
def Endpoint.Enrols (caller : Caller) (userId orgId : String) : Endpoint → Prop
  | addStaffMember io _ qOrgId | addStaffBulk io _ qOrgId | updateStaffMember io _ _ qOrgId =>
    caller.role.getD "" ∈ ["Root", "SuperAdmin", "Admin"] ∧ ActsFor caller.orgId (caller.role.getD "") qOrgId orgId ∧
      ∃ i, io.userId i = userId
  | _ => False

/-- What the endpoint makes of an organisation, new or edited, has the property. -/
def Endpoint.Respects (server : Server) (caller : Caller) (belongs : (userId orgId : String) → Prop) (P : Organization → Prop) :
    Endpoint → Prop
  | createOrganization io dto _ => caller.role = some "Root" → ∀ key data organization, truthy io.encryptionKey = some key →
      encrypt io.cipher dto.settingCode key = .ok data → organization.id = io.organizationId →
      organization.accountLimit = dto.accountLimit → organization.settingCodeEncrypted = some data → P organization
  | editOrganizationDetails io orgId dto _ => ∀ role ∈ ["Root", "SuperAdmin"], caller.role = some role →
      (role = "SuperAdmin" → ∃ userId, caller.userId = some userId ∧ belongs userId orgId) →
      ∀ key code url limit organization, truthy io.encryptionKey = some key →
      newSettingCode server.js io dto.settingCode key = .ok code →
      limit = (if role = "SuperAdmin" then none else dto.accountLimit) → organization.id = orgId → P organization →
      P (editedOrganization dto limit code url organization)
  | _ => True

section Organizations
variable {belongs : (userId orgId : String) → Prop} {P : Organization → Prop} {s t : Db}

theorem Change.everywhere {k : Kind} (h : Change s k t) (add : k ≠ .addOrganization) (edit : k ≠ .editOrganization)
    (limit : k ≠ .limitOrganization) (hs : Everywhere P s) : Everywhere P t := by
  intro organization hmem
  cases h <;> first
    | exact absurd rfl add
    | exact absurd rfl edit
    | exact absurd rfl limit
    | exact hs organization hmem
    | exact hs organization (mem_delete.mp hmem).1

/-- No change moves an account to another organisation. -/
theorem Change.homes {k : Kind} (h : Change s k t) (add : k ≠ .addUser) (hs : Homes belongs s) : Homes belongs t := by
  intro user hmem
  cases h <;> first
    | exact absurd rfl add
    | exact hs user hmem
    | exact hs user (mem_delete.mp hmem).1
    | skip
  case addRoot account u role stored =>
    rcases (mem_insert stored).mp hmem with hmem | rfl
    · exact hs user hmem
    · intro orgId horg
      rw [role.2] at horg
      cases horg
  case setPassword u users =>
    obtain ⟨a, ha, _, rfl⟩ := users.only user hmem
    exact hs a ha
  case setReady u users =>
    obtain ⟨a, ha, rfl | rfl⟩ := users.only user hmem
    · exact hs user ha
    · exact hs a ha
  case updateUser u users =>
    obtain ⟨a, ha, _, _, _, _, rfl⟩ := users.only user hmem
    exact hs a ha

theorem profiled_of_within {α : Type} {K : Kind → Prop} {p : Service α} (h : p.Within (Changes K))
    (others : ∀ k, K k → k ∉ [Kind.addOrganization, .editOrganization, .limitOrganization, .addUser]) :
    p.Within (Preserves (Profiled belongs P)) :=
  Changes.within h Preserves.refl Preserves.trans fun _ _ _ hk hchange hs => by
    have other := others _ hk
    simp only [List.mem_cons, List.not_mem_nil, or_false, not_or] at other
    obtain ⟨add, edit, limit, user⟩ := other
    exact ⟨hchange.everywhere add edit limit hs.organizations, hchange.homes user hs.users⟩

theorem insertOrganization_profiled {organization : Organization} (hP : P organization) :
    (insertOrganization organization).Within (Preserves (Profiled belongs P)) := by
  refine AuthService.always_mutate Preserves.refl fun s b t hop => ?_
  split at hop
  · cases hop
  · obtain ⟨-, -, u, stored, rfl⟩ := created_eq_ok.mp hop
    refine fun hs => ⟨fun o ho => ?_, hs.users⟩
    rcases (mem_insert stored).mp ho with ho | rfl
    · exact hs.organizations o ho
    · exact hP

theorem updateOrganization_profiled {orgId : String} {change : Organization → Organization}
    (hP : ∀ organization, organization.id = orgId → P organization → P (change organization)) :
    (updateOrganization orgId change).Within (Preserves (Profiled belongs P)) := by
  refine AuthService.always_mutate Preserves.refl fun s b t hop => ?_
  split at hop
  · cases hop
  · cases hmodify : s.organization.modify (·.id == orgId) change with
    | none =>
      rw [hmodify] at hop
      cases hop
    | some u =>
      rw [hmodify] at hop
      cases hop
      refine fun hs => ⟨fun o ho => ?_, hs.users⟩
      obtain ⟨a, ha, rfl⟩ := (mem_modify hmodify).mp ho
      by_cases hat : a.id = orgId
      · rw [if_pos (beq_iff_eq.mpr hat)]
        exact hP a hat (hs.organizations a ha)
      · rw [if_neg (beq_iff_eq.not.mpr hat)]
        exact hs.organizations a ha

theorem createMemberUser_profiled {user : UserCredential} {staffId : String}
    (home : ∀ orgId, user.orgId = some orgId → belongs user.id orgId) :
    (StaffService.createUser user staffId).Within (Preserves (Profiled belongs P)) := by
  refine AuthService.always_mutate Preserves.refl fun s _ t h hs => ?_
  obtain ⟨-, -, users, staff, stored, -, rfl⟩ := StaffService.createdUser_eq_ok.mp h
  refine ⟨hs.organizations, fun a ha => ?_⟩
  rcases (mem_insert stored).mp ha with ha | rfl
  · exact hs.users a ha
  · exact home

theorem query_profiled {α : Type} (f : Db → α) : (query f).Within (Preserves (Profiled belongs P)) :=
  AuthService.always_query Preserves.refl

theorem uploadLogo_profiled {io : ChangeIo} {logo : Bool} : (uploadLogo io logo).Within (Preserves (Profiled belongs P)) :=
  profiled_of_within (K := fun _ => False) uploadLogo_within fun _ h => h.elim

/-! ### Staff members -/

section Members
variable {io : StaffService.Io} {org : String}

theorem hires_profiled (home : ∀ i, belongs (io.userId i) org) : Hires io org (Preserves (Profiled belongs P)) where
  staff x unlinked := profiled_of_within (K := (· = .addStaff)) (createStaff_within rfl unlinked) (by rintro k rfl; simp)
  user x staffId _ horg drawn := createMemberUser_profiled fun orgId hof => by
    obtain ⟨i, hi⟩ := drawn
    obtain rfl := Option.some.inj (horg.symm.trans hof)
    exact hi ▸ home i

theorem editStaffMemberDetails_profiled {orgId qOrgId : Option String} {role staffId : String}
    {dto : StaffService.EditStaffMemberDto} (home : role ∈ ["Root", "SuperAdmin", "Admin"] → ∀ org,
      ActsFor orgId role qOrgId org → ∀ i, belongs (io.userId i) org) :
    (StaffService.editStaffMemberDetails io orgId role staffId dto qOrgId).Within (Preserves (Profiled belongs P)) := by
  refine editStaffMemberDetails_within Preserves.refl Preserves.trans fun hrole =>
    ⟨?_, fun _ _ => ?_, ?_, fun organization horg _ => ?_⟩
  · exact profiled_of_within (K := (· = .setStaffHours)) (editStaffHours_within rfl) (by rintro k rfl; simp)
  · refine profiled_of_within (K := fun k => k = .updateStaff ∨ k = .updateUser)
      (makeRoom_within (Or.inl rfl) (Or.inr rfl)) ?_
    rintro k (rfl | rfl) <;> simp
  · exact profiled_of_within (K := (· = .updateStaff)) (updateMember_within rfl) (by rintro k rfl; simp)
  · refine updateCredential_within Preserves.refl (hires_profiled (home hrole _ horg)).user fun _ _ reassigns => ?_
    exact profiled_of_within (K := (· = .updateUser)) (updateMemberUser_within rfl reassigns) (by rintro k rfl; simp)

end Members

/-! ### Organisations -/

variable {server : Server} {caller : Caller} {io : ChangeIo} {logo : Bool}

theorem createOrganization_profiled {dto : CreateOrganizationDto}
    (respects : (Endpoint.createOrganization io dto logo).Respects server caller belongs P) :
    (createOrganization server.js io (caller.role.getD "") dto logo).Within (Preserves (Profiled belongs P)) := by
  refine failIf_bind_within fun hrole => (query_profiled _).bind fun _ => always_failIf.bind fun _ => ?_
  refine uploadLogo_profiled.bind fun _ => Always.orFail_bind fun key hset => ?_
  refine Always.ofExcept_bind fun data hencrypt => Always.bind ?_ fun _ => ?_
  · exact always_orFail.bind fun _ => always_orFail.bind fun _ => always_failIf.bind fun _ => trivial
  · have hroot : caller.role = some "Root" := by
      cases hcase : caller.role with
      | none => simp [hcase] at hrole
      | some _ => simpa [hcase] using hrole
    refine (query_profiled _).bind fun _ => always_orFail.bind fun _ => ?_
    refine Always.bind (Within.transaction Preserves.refl Preserves.trans ?_) fun _ => ?_
    · refine Always.bind (insertOrganization_profiled (respects hroot _ _ _ hset hencrypt rfl rfl rfl)) fun _ => ?_
      refine Always.bind ?_ fun _ => trivial
      exact profiled_of_within (insertSubscription_within (K := (· = .addSubscription)) rfl) (by rintro k rfl; simp)
    · exact Always.bind (always_access Preserves.refl) fun _ => trivial

/-- A superadmin who passes the checks has an account of the organisation. -/
theorem editOrganizationDetails_profiled {dto : EditOrganizationDto} {orgId userId : String} (huser : caller.userId = some userId)
    (respects : (Endpoint.editOrganizationDetails io orgId dto logo).Respects server caller belongs P) (hs : Profiled belongs P s) :
    (editOrganizationDetails server.js io orgId (caller.role.getD "") dto userId logo).Keeps (Preserves (Profiled belongs P)) s := by
  have hours : (editWorkingHours io orgId dto.workingHours).Within (Preserves (Profiled belongs P)) :=
    profiled_of_within (K := (· = .setOrganizationHours)) (editOrganizationHours_within rfl) (by rintro k rfl; simp)
  refine failIf_bind_keeps fun hrole => failIf_bind_keeps fun _ => query_bind_keeps Preserves.refl fun t ht => ?_
  refine orFail_bind_keeps fun organization horg => ?_
  have hmem := not_not.mp hrole
  obtain ⟨role, hcase⟩ : ∃ role, caller.role = some role := by
    cases hcase : caller.role with
    | none => simp [hcase] at hmem
    | some role => exact ⟨role, rfl⟩
  rw [hcase, Option.getD_some] at hmem ⊢
  have respects := respects role hmem hcase
  unfold editableLimit
  by_cases hsuper : role = "SuperAdmin"
  · rw [if_pos hsuper] at respects ⊢
    rw [bind_assoc]
    refine query_bind_keeps Preserves.refl fun u hu => ?_
    rw [bind_assoc]
    refine orFail_bind_keeps fun user hfound => ?_
    rw [bind_assoc]
    refine failIf_bind_keeps fun hof => ?_
    obtain ⟨hstored, rfl⟩ := find_eq_some.mp hfound
    obtain ⟨-, rfl⟩ := find_eq_some.mp horg
    have home := (hu (ht hs)).users user hstored organization.id (not_not.mp hof)
    refine Within.keeps (editChecked_always Preserves.refl Preserves.trans (fun key code url hset hcode => ?_) hours)
    exact updateOrganization_profiled fun organization =>
      respects (fun _ => ⟨user.id, huser, home⟩) key code url none organization hset hcode rfl
  · rw [if_neg hsuper] at respects ⊢
    refine Within.keeps (editChecked_always Preserves.refl Preserves.trans (fun key code url hset hcode => ?_) hours)
    exact updateOrganization_profiled fun organization =>
      respects (fun h => absurd h hsuper) key code url _ organization hset hcode rfl

/-! ### Requests -/

theorem OpenEndpoint.handle_profiled (endpoint : OpenEndpoint) :
    (endpoint.handle server).Within (Preserves (Profiled belongs P)) := by
  refine profiled_of_within (OpenEndpoint.handle_within endpoint) ?_
  cases endpoint <;> simp [kinds]

theorem Endpoint.handle_profiled (endpoint : Endpoint) (respects : endpoint.Respects server caller belongs P)
    (enrols : ∀ userId orgId, endpoint.Enrols caller userId orgId → belongs userId orgId) (hs : Profiled belongs P s) :
    (endpoint.handle server caller).Keeps (Preserves (Profiled belongs P)) s := by
  have rest (others : ∀ k ∈ endpoint.kinds, k ∉ [Kind.addOrganization, .editOrganization, .limitOrganization, .addUser]) :
      (endpoint.handle server caller).Keeps (Preserves (Profiled belongs P)) s :=
    (profiled_of_within (Endpoint.handle_within endpoint) fun k hk => others k hk.1).keeps
  have answered {α : Type} {p : Service α} (hp : p.Within (Preserves (Profiled belongs P))) :
      (answer p).Keeps (Preserves (Profiled belongs P)) s := Within.keeps (Always.bind hp fun _ => trivial)
  cases endpoint
  case createOrganization => exact answered (createOrganization_profiled respects)
  case editOrganizationDetails =>
    refine orFail_bind_keeps fun userId huser => Keeps.bind Preserves.refl Preserves.trans ?_ fun _ _ _ => trivial
    exact editOrganizationDetails_profiled huser respects hs
  case addStaffMember io dto qOrgId =>
    refine answered (addStaffMember_within Preserves.refl Preserves.trans fun hrole org horg => ?_)
    exact hires_profiled fun i => enrols _ _ ⟨hrole, horg, i, rfl⟩
  case addStaffBulk io staffList qOrgId =>
    refine failIf_bind_keeps fun _ => ?_
    refine answered (addStaffBulk_within Preserves.refl Preserves.trans fun hrole org horg => ?_)
    exact hires_profiled fun i => enrols _ _ ⟨hrole, horg, i, rfl⟩
  case updateStaffMember io staffId dto qOrgId =>
    exact answered (editStaffMemberDetails_profiled fun hrole org horg i => enrols _ _ ⟨hrole, horg, i, rfl⟩)
  all_goals exact rest (by simp [kinds])

/-- What the caller of the request does has the property. -/
def Request.Respects (server : Server) (belongs : (userId orgId : String) → Prop) (P : Organization → Prop) : Request → Prop
  | authorized now authorization endpoint => ∀ caller, sender server.jwt now authorization = some caller →
      endpoint.Respects server caller belongs P
  | anyone _ => True

def Request.Enrols (server : Server) (userId orgId : String) : Request → Prop
  | authorized now authorization endpoint => ∃ caller, sender server.jwt now authorization = some caller ∧
      endpoint.Enrols caller userId orgId
  | anyone _ => False

theorem serve_profiled {request : Request} (respects : request.Respects server belongs P)
    (enrols : ∀ userId orgId, request.Enrols server userId orgId → belongs userId orgId) (hs : Profiled belongs P s) :
    (serve server request).Keeps (Preserves (Profiled belongs P)) s := by
  refine serve_keeps Preserves.refl Preserves.trans (fun endpoint _ => endpoint.handle_profiled.keeps)
    fun now authorization endpoint caller t hrequest hcaller ht => ?_
  rw [hrequest] at respects enrols
  exact endpoint.handle_profiled (respects caller hcaller) (fun userId orgId h => enrols userId orgId ⟨caller, hcaller, h⟩) (ht hs)

end Organizations

theorem profiled_of_reach {server : Server} {ι : Type} [DecidableEq ι] {requests : ι → Request}
    {belongs : (userId orgId : String) → Prop} {P : Organization → Prop} {s : Db} {d : Threads ι Db HttpException Unit}
    (respects : ∀ i, (requests i).Respects server belongs P)
    (enrols : ∀ i userId orgId, (requests i).Enrols server userId orgId → belongs userId orgId) (hs : Profiled belongs P s)
    (h : (Threads.interleaving ⟨s, fun i => serve server (requests i)⟩).Reachable d) : Profiled belongs P d.state :=
  Threads.keeps_of_reach Preserves.refl Preserves.trans (fun i => serve_profiled (respects i) (enrols i) hs) h hs

end Vms.Server
