import Vms.Configuration

/-! Which configuration requests stay inside the caller's organisation. Creations, edits and the logout of
    all accounts always do; the deletions and the logout of one account look the row up by the identifier
    in the path and never compare its organisation with the caller's. -/

namespace Vms.Configuration
open Relational HttpException DepartmentService ReasonService SystemService

/-! ### Requests -/

inductive Operation where
  | createDepartment (io : Listing.Io Department) (dto : CreateDepartmentDto) (qOrgId : Option String)
  | addDepartmentBulk (io : Listing.Io Department) (departmentList : List CreateDepartmentDto) (qOrgId : Option String)
  | deleteDepartment (departmentId : String) (qOrgId : Option String)
  | addReason (io : Listing.Io ReasonOfVisit) (dto : AddReasonDto) (qOrgId : Option String)
  | addReasonBulk (io : Listing.Io ReasonOfVisit) (reasonList : List AddReasonDto) (qOrgId : Option String)
  | deleteReason (reasonId : String) (qOrgId : Option String)
  | registerSystemUser (io : SystemService.Io) (dto : RegisterSystemUserDto)
  | editSystemAccount (systemId : String) (dto : EditSystemUserDto)
  | deleteSystemAccount (systemId : String)
  | logoutSystemAccountWeb (systemId : String)
  | logoutAllSystemAccounts

/-- A request with a token of an organisation. -/
structure Request where
  orgId : String
  userId : String
  role : String
  op : Operation

def Request.call (js : Js) (q : Request) : Service Unit :=
  match q.op with
  | .createDepartment io dto qOrgId => do let _ ← createDepartment js io (some q.orgId) q.userId q.role dto qOrgId
  | .addDepartmentBulk io departmentList qOrgId => do
    let _ ← addDepartmentBulk js io (some q.orgId) q.role departmentList qOrgId
  | .deleteDepartment departmentId qOrgId => deleteDepartment (some q.orgId) q.userId q.role departmentId qOrgId
  | .addReason io dto qOrgId => do let _ ← addReason js io (some q.orgId) q.userId q.role dto qOrgId
  | .addReasonBulk io reasonList qOrgId => do let _ ← addReasonBulk js io (some q.orgId) q.role reasonList qOrgId
  | .deleteReason reasonId qOrgId => deleteReason (some q.orgId) q.userId q.role reasonId qOrgId
  | .registerSystemUser io dto => do let _ ← registerSystemUser js io q.orgId q.userId q.role dto
  | .editSystemAccount systemId dto => do let _ ← editSystemAccount q.orgId q.role systemId dto
  | .deleteSystemAccount systemId => do let _ ← deleteSystemAccount systemId q.orgId q.userId q.role
  | .logoutSystemAccountWeb systemId => do let _ ← logoutSystemAccountWeb systemId q.orgId q.userId q.role
  | .logoutAllSystemAccounts => do let _ ← logoutAllSystemAccounts q.orgId q.role q.userId

/-! ### Organisations -/

/-- The organisation of a token: that of its system account, or else of its user. -/
def tokenOrg (s : Db) (token : RefreshToken) : Option String :=
  match token.systemId with
  | some systemId => (s.systemCredential.find systemId).map (·.orgId)
  | none => (token.userId.bind s.userCredential.find).bind (·.orgId)

/-- A token of an organisation other than the given one. -/
def ForeignToken (s : Db) (orgId : String) (token : RefreshToken) : Prop :=
  ∃ other, tokenOrg s token = some other ∧ other ≠ orgId

/-- The departments, reasons of visit, system accounts and refresh tokens of other organisations are the same. -/
structure Within (orgId : String) (s t : Db) : Prop where
  department : Table.Same (fun department : Department => department.orgId ≠ orgId) s.department t.department
  reasonOfVisit : Table.Same (fun reason : ReasonOfVisit => reason.orgId ≠ orgId) s.reasonOfVisit t.reasonOfVisit
  systemCredential : Table.Same (fun system : SystemCredential => system.orgId ≠ orgId) s.systemCredential t.systemCredential
  refreshToken : Table.Same (ForeignToken s orgId) s.refreshToken t.refreshToken

section Updates
variable {s t u : Db} {orgId : String}

@[refl, simp] theorem Within.refl (orgId : String) (s : Db) : Within orgId s s :=
  ⟨Table.Same.refl _, Table.Same.refl _, Table.Same.refl _, Table.Same.refl _⟩

theorem foreignToken_congr (h : Table.Same (fun system : SystemCredential => system.orgId ≠ orgId) s.systemCredential
    t.systemCredential) (users : t.userCredential = s.userCredential) {token : RefreshToken} :
    ForeignToken t orgId token ↔ ForeignToken s orgId token := by
  cases hsystem : token.systemId with
  | none => simp only [ForeignToken, tokenOrg, hsystem, users]
  | some systemId =>
    simp only [ForeignToken, tokenOrg, hsystem, Option.map_eq_some_iff, Table.find_eq_some]
    constructor
    · rintro ⟨_, ⟨system, ⟨hmem, hid⟩, rfl⟩, horg⟩
      exact ⟨_, ⟨system, ⟨(h system horg).mp hmem, hid⟩, rfl⟩, horg⟩
    · rintro ⟨_, ⟨system, ⟨hmem, hid⟩, rfl⟩, horg⟩
      exact ⟨_, ⟨system, ⟨(h system horg).mpr hmem, hid⟩, rfl⟩, horg⟩

/-- A change inside the organisation that leaves the users alone, so that tokens keep their organisations. -/
structure Inside (orgId : String) (s t : Db) : Prop extends Within orgId s t where
  users : t.userCredential = s.userCredential

theorem Inside.refl (orgId : String) (s : Db) : Inside orgId s s := ⟨Within.refl orgId s, rfl⟩

theorem Inside.trans (h : Inside orgId s t) (h' : Inside orgId t u) : Inside orgId s u where
  department := h.department.trans h'.department
  reasonOfVisit := h.reasonOfVisit.trans h'.reasonOfVisit
  systemCredential := h.systemCredential.trans h'.systemCredential
  refreshToken := h.refreshToken.trans fun token ht =>
    h'.refreshToken token ((foreignToken_congr h.systemCredential h.users).mpr ht)
  users := h'.users.trans h.users

end Updates

/-! ### Listings -/

/-- A listing whose rows are among those that `Within` speaks of; its other effects are not. -/
structure Separate {α : Type} [Row α] (L : Listing α) : Prop where
  row_orgId : ∀ id orgId name, L.orgId (L.row id orgId name) = orgId
  store : ∀ {s u orgId}, Table.Same (fun a => L.orgId a ≠ orgId) (L.table s) u → Inside orgId s (L.store u s)
  unlink : ∀ {s u orgId id}, Within orgId s (L.unlink id (L.store u s)) ↔
    Table.Same (fun a => L.orgId a ≠ orgId) (L.table s) u

theorem separate_departments : Separate departments where
  row_orgId _ _ _ := rfl
  store h := ⟨⟨h, Table.Same.refl _, Table.Same.refl _, Table.Same.refl _⟩, rfl⟩
  unlink := ⟨fun h => h.department, fun h => ⟨h, Table.Same.refl _, Table.Same.refl _, Table.Same.refl _⟩⟩

theorem separate_reasons : Separate reasons where
  row_orgId _ _ _ := rfl
  store h := ⟨⟨Table.Same.refl _, h, Table.Same.refl _, Table.Same.refl _⟩, rfl⟩
  unlink := ⟨fun h => h.reasonOfVisit, fun h => ⟨Table.Same.refl _, h, Table.Same.refl _, Table.Same.refl _⟩⟩

/-- The user belongs to the organisation. -/
def Caller (s : Db) (orgId userId : String) : Prop := ∃ user ∈ s.userCredential, user.id = userId ∧ user.orgId = some orgId

theorem targetOrgId_of_ne {orgId qOrgId : Option String} {role : String} (hrole : role ≠ "Root") :
    targetOrgId orgId role qOrgId = orgId := if_neg fun h => hrole h.1

section Authorize
variable {s : Db} {orgId userId role message : String} {qOrgId : Option String} {allowedRoles : List String}

/-- Who is not root acts for the organisation of the token. -/
theorem authorize_spec {Q : Except HttpException String → Db → Prop} (hrole : role ≠ "Root") (fails : ∀ e, Q (.error e) s) :
    (authorize (some orgId) userId role qOrgId allowedRoles message).Post Q s ↔
      (orgId ≠ "" → role ∈ allowedRoles → Caller s orgId userId → Q (.ok orgId) s) := by
  simp only [authorize, checkUser, targetOrgId_of_ne hrole, Prog.post_bind, Prog.post_orFail, Prog.post_failIf, Prog.then_ok,
    Prog.then_error, fails, implies_true, true_and, and_true, truthy_eq_some, Option.some.injEq, post_query, not_not,
    Table.find_eq_some, and_imp, forall_eq', ne_eq, hrole, not_false_eq_true, if_true, Prog.post_pure, Caller,
    forall_exists_index]
  exact Iff.rfl

end Authorize

section Listings
variable {α : Type} [Row α] {L : Listing α} {js : Js} {io : Listing.Io α} {s : Db} {orgId userId role : String}
  {qOrgId : Option String}

theorem exists?_post {name : String} {Q : Except HttpException Bool → Db → Prop} (h : ∀ r, Q r s) :
    (L.exists? js io orgId name).Post Q s := by
  simp only [Listing.exists?, Prog.post_bind, post_query, Prog.then_ok, Prog.then_error, Prog.post_pure, h, and_self]

theorem create_inside (separate : Separate L) {id name : String} :
    (L.create (L.row id orgId name)).Post (fun _ t => Inside orgId s t) s := by
  simp only [Listing.create, post_mutate, created_eq_ok, Inside.refl, implies_true, true_and, and_true]
  rintro _ t ⟨-, -, u, hu, rfl⟩
  exact separate.store (Table.Same.insert hu (not_not.mpr (separate.row_orgId id orgId name)))

theorem add_inside (separate : Separate L) (hrole : role ≠ "Root") {name taken : String} :
    (L.add js io (some orgId) userId role name qOrgId taken).Post (fun _ t => Inside orgId s t) s := by
  rw [Listing.add, Prog.post_bind]
  refine (authorize_spec hrole fun _ => Inside.refl orgId s).mpr fun _ _ _ => ?_
  rw [Prog.then_ok, Prog.post_bind]
  refine exists?_post fun r => ?_
  rcases r with e | taken
  · exact Inside.refl orgId s
  · simp only [Prog.then_ok, Prog.post_bind, Prog.post_failIf, Prog.then_error, Inside.refl, implies_true, true_and]
    exact fun _ => create_inside separate

theorem addOne_inside (separate : Separate L) {name : String} {i : Nat} :
    (L.addOne js io orgId name i).Post (fun _ t => Inside orgId s t) s := by
  rw [Listing.addOne, Prog.post_bind]
  refine exists?_post fun r => ?_
  rcases r with e | taken
  · exact Inside.refl orgId s
  · rw [Prog.then_ok]
    split
    · exact Inside.refl orgId s
    · exact Prog.Post.bind_rel Inside.trans (create_inside separate) fun _ t _ => Inside.refl orgId t

/-- The loop is an induction on the names that are left. -/
theorem addEach_inside (separate : Separate L) {names : List String} {i : Nat} {results : List (Listing.Result α)} :
    (L.addEach js io orgId names i results).Post (fun _ t => Inside orgId s t) s := by
  induction names generalizing i results s with
  | nil => exact Inside.refl orgId s
  | cons name names ih => exact Prog.Post.bind_rel Inside.trans (addOne_inside separate) fun _ _ _ => ih

theorem addBulk_inside (separate : Separate L) (hrole : role ≠ "Root") {names : List String} :
    (L.addBulk js io (some orgId) role names qOrgId).Post (fun _ t => Inside orgId s t) s := by
  simp only [Listing.addBulk, targetOrgId_of_ne hrole, Prog.post_bind, Prog.post_orFail, Prog.post_failIf, Prog.then_ok,
    Prog.then_error, Inside.refl, implies_true, true_and, and_true, truthy_eq_some, Option.some.injEq, post_query, and_imp]
  rintro _ rfl - - organization -
  rw [← Prog.post_bind]
  exact Prog.Post.bind_rel Inside.trans (addEach_inside separate) fun _ t _ => Inside.refl orgId t

/-- A deletion stays inside exactly if it is refused, or the row that it names is the organisation's own. -/
theorem remove_within_iff (separate : Separate L) (hrole : role ≠ "Root") {id message missing : String}
    {allowedRoles : List String} (caller : role ∈ allowedRoles → Caller s orgId userId) :
    (L.remove (some orgId) userId role id qOrgId allowedRoles message missing).Post (fun _ t => Within orgId s t) s ↔
      (orgId ≠ "" → role ∈ allowedRoles → ∀ a ∈ L.table s, Row.id a = id → L.orgId a = orgId) := by
  rw [Listing.remove, Prog.post_bind, authorize_spec hrole fun _ => Within.refl orgId s]
  refine imp_congr_right fun _ => imp_congr_right fun hallowed => ?_
  simp only [caller hallowed, forall_const, Prog.then_ok, Prog.then_error, Prog.post_bind, post_query, Prog.post_orFail, Within.refl,
    implies_true, true_and, and_true, Table.find_eq_some, Listing.delete, post_mutate_ite, and_imp]
  refine forall_congr' fun a => imp_congr_right fun hmem => imp_congr_right fun hid => ?_
  subst hid
  simp only [Table.find_of_mem hmem, Option.isNone_some, Bool.false_eq_true, not_false_eq_true, forall_const, separate.unlink]
  constructor
  · intro h
    exact not_not.mp (h.not_of_delete hmem (beq_self_eq_true _))
  · intro horg
    refine Table.Same.delete fun b hb hbid => not_not.mpr ?_
    obtain rfl : b = a := Table.eq_of_id hb hmem (beq_iff_eq.mp hbid)
    exact horg

end Listings

/-! ### System accounts -/

section Systems
variable {js : Js} {s : Db} {orgId userId role systemId : String}

theorem Within.of_system {u : Table SystemCredential}
    (h : Table.Same (fun system : SystemCredential => system.orgId ≠ orgId) s.systemCredential u) :
    Within orgId s { s with systemCredential := u } := ⟨Table.Same.refl _, Table.Same.refl _, h, Table.Same.refl _⟩

theorem registerSystemUser_within {io : SystemService.Io} {dto : RegisterSystemUserDto} :
    (registerSystemUser js io orgId userId role dto).Post (fun _ t => Within orgId s t) s := by
  simp only [registerSystemUser, createSystem, Prog.post_bind, Prog.post_failIf, Prog.post_orFail, Prog.then_ok, Prog.then_error,
    post_query, post_mutate, created_eq_ok, Prog.post_pure, Within.refl, implies_true, true_and, and_true]
  rintro - organization - user - - - - system t ⟨-, -, u, hu, rfl⟩
  exact Within.of_system (Table.Same.insert hu (not_not.mpr rfl))

theorem editSystemAccount_within {dto : EditSystemUserDto} :
    (editSystemAccount orgId role systemId dto).Post (fun _ t => Within orgId s t) s := by
  simp only [editSystemAccount, updateSystem, Prog.post_bind, Prog.post_failIf, Prog.post_orFail, Prog.then_ok, Prog.then_error,
    post_query, post_mutate_ite, Prog.post_pure, Within.refl, implies_true, true_and, and_true, not_not, Table.find_eq_some]
  rintro - system ⟨hmem, -⟩ horg -
  refine Within.of_system (Table.Same.update fun other hother hid => ?_)
  obtain rfl : other = system := Table.eq_of_id hother hmem (beq_iff_eq.mp hid)
  exact ⟨not_not.mpr horg, not_not.mpr horg⟩

/-- Tokens of a system account belong to its organisation. -/
theorem not_foreignToken {system : SystemCredential} (hmem : system ∈ s.systemCredential) (horg : system.orgId = orgId)
    {token : RefreshToken} (hof : token.systemId = some system.id) : ¬ForeignToken s orgId token := by
  have hfind : s.systemCredential.find system.id = some system := Table.find_of_mem hmem
  rintro ⟨other, hother, hne⟩
  rw [tokenOrg, hof] at hother
  simp only [hfind, Option.map_some, Option.some.injEq] at hother
  exact hne (hother.symm.trans horg)

/-- The deletion of a system account, with its tokens. -/
theorem deleteSystem_within_iff {system : SystemCredential} (hmem : system ∈ s.systemCredential) :
    Within orgId s { s with
        systemCredential := s.systemCredential.delete (·.id == system.id)
        refreshToken := s.refreshToken.delete (·.systemId == some system.id)
        resetTokenSystem := s.resetTokenSystem.delete (·.systemId == system.id) } ↔ system.orgId = orgId := by
  constructor
  · intro h
    exact not_not.mp (h.systemCredential.not_of_delete hmem (beq_self_eq_true _))
  · intro horg
    refine ⟨Table.Same.refl _, Table.Same.refl _, Table.Same.delete fun other hother hid => not_not.mpr ?_,
      Table.Same.delete fun token _ hof => not_foreignToken hmem horg (beq_iff_eq.mp hof)⟩
    obtain rfl : other = system := Table.eq_of_id hother hmem (beq_iff_eq.mp hid)
    exact horg

theorem deleteSystemAccount_within_iff (caller : role = "SuperAdmin" → Caller s orgId userId) :
    (deleteSystemAccount systemId orgId userId role).Post (fun _ t => Within orgId s t) s ↔
      (role = "SuperAdmin" → (∃ organization ∈ s.organization, organization.id = orgId) →
        ∀ system ∈ s.systemCredential, system.id = systemId → system.orgId = orgId) := by
  simp only [deleteSystemAccount, deleteSystem, Prog.post_bind, Prog.post_failIf, Prog.post_orFail, Prog.then_ok, Prog.then_error,
    post_query, post_mutate_ite, Prog.post_pure, Within.refl, implies_true, true_and, and_true, not_not, List.mem_singleton]
  refine imp_congr_right fun hrole => ?_
  obtain ⟨user, huser, huserId, -⟩ := caller hrole
  have hfind : s.userCredential.find userId = some user := Table.find_eq_some.mpr ⟨huser, huserId⟩
  simp only [hfind, Option.some.injEq, forall_eq', Table.find_eq_some, and_imp, forall_exists_index]
  refine forall_congr' fun organization => imp_congr_right fun _ => imp_congr_right fun _ =>
    forall_congr' fun system => imp_congr_right fun hmem => imp_congr_right fun hid => ?_
  have hid : system.id = systemId := hid
  subst hid
  have hfind : s.systemCredential.find system.id = some system := Table.find_of_mem hmem
  simp only [hfind, Option.isNone_some, Bool.false_eq_true, not_false_eq_true, forall_const, deleteSystem_within_iff hmem]

/-- The logout of a system account that is logged in. -/
theorem updateSystem_within_iff {system : SystemCredential} (hmem : system ∈ s.systemCredential)
    (hactive : system.activityStatus ≠ .loggedOut) :
    Within orgId s { s with
        systemCredential := s.systemCredential.update (·.id == system.id) loggedOut loggedOut_keys } ↔
      system.orgId = orgId := by
  constructor
  · intro h
    by_contra horg
    have hkept := (h.systemCredential system horg).mpr hmem
    rcases (Table.mem_update_one loggedOut_keys hmem (fun _ _ => beq_iff_eq) system).mp hkept with heq | ⟨-, hne⟩
    · exact hactive (congrArg SystemCredential.activityStatus heq)
    · exact hne rfl
  · intro horg
    refine Within.of_system (Table.Same.update fun other hother hid => ?_)
    obtain rfl : other = system := Table.eq_of_id hother hmem (beq_iff_eq.mp hid)
    exact ⟨not_not.mpr horg, not_not.mpr horg⟩

theorem logoutSystemAccountWeb_within_iff (caller : role = "SuperAdmin" → Caller s orgId userId) :
    (logoutSystemAccountWeb systemId orgId userId role).Post (fun _ t => Within orgId s t) s ↔
      (role = "SuperAdmin" → (∃ organization ∈ s.organization, organization.id = orgId) →
        ∀ system ∈ s.systemCredential, system.id = systemId → system.activityStatus ≠ .loggedOut → system.orgId = orgId) := by
  simp only [logoutSystemAccountWeb, updateSystem, Prog.post_bind, Prog.post_failIf, Prog.post_orFail, Prog.then_ok,
    Prog.then_error, post_query, post_mutate_ite, Prog.post_pure, Within.refl, implies_true, true_and, and_true, not_not,
    List.mem_singleton]
  refine imp_congr_right fun hrole => ?_
  obtain ⟨user, huser, huserId, horg⟩ := caller hrole
  have hfind : s.userCredential.find userId = some user := Table.find_eq_some.mpr ⟨huser, huserId⟩
  simp only [hfind, horg, Option.some.injEq, forall_eq', Table.find_eq_some, and_imp, forall_exists_index, forall_const]
  refine forall_congr' fun organization => imp_congr_right fun _ => imp_congr_right fun _ =>
    forall_congr' fun system => imp_congr_right fun hmem => imp_congr_right fun hid => imp_congr_right fun hactive => ?_
  have hid : system.id = systemId := hid
  subst hid
  have hfind : s.systemCredential.find system.id = some system := Table.find_of_mem hmem
  simp only [hfind, Option.isNone_some, Bool.false_eq_true, not_false_eq_true, forall_const]
  exact updateSystem_within_iff hmem hactive

/-- The accounts whose tokens go are the organisation's own. -/
theorem logoutAllSystemAccounts_within :
    (logoutAllSystemAccounts orgId role userId).Post (fun _ t => Within orgId s t) s := by
  simp only [logoutAllSystemAccounts, deleteRefreshTokens, logOutSystems, Prog.post_bind, Prog.post_failIf, Prog.post_orFail,
    Prog.then_ok, Prog.then_error, post_query, post_mutate_ok, Prog.post_pure, Within.refl, implies_true, true_and, and_true]
  rintro - organization - user - - -
  have tokens : Table.Same (ForeignToken s orgId) s.refreshToken (s.refreshToken.delete fun token =>
      token.systemId.any fun id => ((s.systemCredential.filter fun system =>
        system.orgId == orgId && system.activityStatus == .loggedIn).map (·.id)).contains id) := by
    refine Table.Same.delete fun token _ hof => ?_
    obtain ⟨id, hid, hactive⟩ := Option.any_eq_true _ _ |>.mp hof
    obtain ⟨system, hsystem, rfl⟩ := List.mem_map.mp (List.contains_iff_mem.mp hactive)
    obtain ⟨hmem, hown⟩ := Table.mem_filter.mp hsystem
    rw [Bool.and_eq_true, beq_iff_eq] at hown
    exact not_foreignToken hmem hown.1 hid
  have systems : Table.Same (fun system : SystemCredential => system.orgId ≠ orgId) s.systemCredential
      (s.systemCredential.update (fun system => system.orgId == orgId && system.activityStatus == .loggedIn)
        loggedOut loggedOut_keys) := by
    refine Table.Same.update fun system _ hown => ?_
    rw [Bool.and_eq_true, beq_iff_eq] at hown
    exact ⟨not_not.mpr hown.1, not_not.mpr hown.1⟩
  exact ⟨⟨Table.Same.refl _, Table.Same.refl _, systems, tokens⟩,
    ⟨Table.Same.refl _, Table.Same.refl _, Table.Same.refl _, tokens⟩⟩

end Systems

/-! ### The condition -/

/-- What the deletions and the logout of one account name is the caller's own organisation's, unless the
    request is refused: for its role, for an empty or a missing organisation, for an account that is logged
    out. -/
def Guarded (s : Db) (q : Request) : Prop :=
  match q.op with
  | .deleteDepartment departmentId _ => q.orgId ≠ "" → q.role ∈ ["Root", "SuperAdmin"] →
      ∀ department ∈ s.department, department.id = departmentId → department.orgId = q.orgId
  | .deleteReason reasonId _ => q.orgId ≠ "" → q.role ∈ ["Root", "SuperAdmin", "Admin"] →
      ∀ reason ∈ s.reasonOfVisit, reason.id = reasonId → reason.orgId = q.orgId
  | .deleteSystemAccount systemId => q.role = "SuperAdmin" →
      (∃ organization ∈ s.organization, organization.id = q.orgId) →
      ∀ system ∈ s.systemCredential, system.id = systemId → system.orgId = q.orgId
  | .logoutSystemAccountWeb systemId => q.role = "SuperAdmin" →
      (∃ organization ∈ s.organization, organization.id = q.orgId) →
      ∀ system ∈ s.systemCredential, system.id = systemId → system.activityStatus ≠ .loggedOut → system.orgId = q.orgId
  | _ => True

/-- A request of a caller who is not root, and who is a system account or a user with a credential in the
    organisation of the token, leaves the configuration of other organisations alone in every execution,
    exactly if it is guarded. -/
theorem configuration_writes_within_tenant (js : Js) (s : Db) (q : Request) (hrole : q.role ≠ "Root")
    (caller : q.role ≠ "System" → Caller s q.orgId q.userId) :
    (∀ r t, Prog.Exec (q.call js) s r t → Within q.orgId s t) ↔ Guarded s q := by
  rw [← Prog.post_iff (Q := fun _ t => Within q.orgId s t)]
  obtain ⟨orgId, userId, role, op⟩ := q
  have within : ∀ {α : Type} {p : Service α}, p.Post (fun _ t => Inside orgId s t) s →
      (do let _ ← p : Service Unit).Post (fun _ t => Within orgId s t) s := fun h =>
    Prog.post_discard.mpr (h.mono fun _ _ inside => inside.toWithin)
  have allowed : ∀ {allowedRoles : List String}, role ∈ allowedRoles → "System" ∉ allowedRoles → Caller s orgId userId :=
    fun hallowed hsystem => caller fun heq => hsystem (heq ▸ hallowed)
  have superAdmin : role = "SuperAdmin" → Caller s orgId userId := fun heq =>
    allowed (List.mem_singleton.mpr heq) (by decide)
  cases op with
  | createDepartment io dto qOrgId => exact iff_of_true (within (add_inside separate_departments hrole)) trivial
  | addDepartmentBulk io departmentList qOrgId => exact iff_of_true (within (addBulk_inside separate_departments hrole)) trivial
  | deleteDepartment departmentId qOrgId => exact remove_within_iff separate_departments hrole (allowed · (by decide))
  | addReason io dto qOrgId => exact iff_of_true (within (add_inside separate_reasons hrole)) trivial
  | addReasonBulk io reasonList qOrgId => exact iff_of_true (within (addBulk_inside separate_reasons hrole)) trivial
  | deleteReason reasonId qOrgId => exact remove_within_iff separate_reasons hrole (allowed · (by decide))
  | registerSystemUser io dto => exact iff_of_true (Prog.post_discard.mpr registerSystemUser_within) trivial
  | editSystemAccount systemId dto => exact iff_of_true (Prog.post_discard.mpr editSystemAccount_within) trivial
  | deleteSystemAccount systemId => exact Prog.post_discard.trans (deleteSystemAccount_within_iff superAdmin)
  | logoutSystemAccountWeb systemId => exact Prog.post_discard.trans (logoutSystemAccountWeb_within_iff superAdmin)
  | logoutAllSystemAccounts => exact iff_of_true (Prog.post_discard.mpr logoutAllSystemAccounts_within) trivial

/-! ### Two organisations -/

namespace Rivals

def js : Js := { toLowerCase := id, trim := id, toLocaleString := fun _ => "" }

def theirs : Department := { id := "sales", orgId := "rival", name := "Sales" }

def db : Db where
  organization := ⟨[{ id := "org", name := "Ours", email := "org@mail.com" },
    { id := "rival", name := "Theirs", email := "rival@mail.com" }], by decide⟩
  userCredential := {{ id := "ann-user", orgId := some "org", email := "ann@mail.com", role := .superAdmin }}
  department := ⟨[{ id := "help", orgId := "org", name := "Help" }, theirs], by decide⟩

/-- The superadmin of one organisation deletes a department by its identifier. -/
def remove (departmentId : String) : Request where
  orgId := "org"
  userId := "ann-user"
  role := "SuperAdmin"
  op := .deleteDepartment departmentId none

theorem caller : Caller db "org" "ann-user" := ⟨_, List.mem_cons_self, rfl, rfl⟩

end Rivals

section Rivals
open Rivals

theorem configuration_writes_within_tenant_rivals :
    (remove "help").role ≠ "Root" ∧ ((remove "help").role ≠ "System" → Caller db (remove "help").orgId (remove "help").userId) ∧
      ((∀ r t, Prog.Exec ((remove "help").call js) db r t → Within (remove "help").orgId db t) ↔ Guarded db (remove "help")) :=
  ⟨by decide, fun _ => caller, configuration_writes_within_tenant js db (remove "help") (by decide) fun _ => caller⟩

theorem department_deleted_across_tenants :
    ¬∀ r t, Prog.Exec ((remove "sales").call js) db r t → Within (remove "sales").orgId db t := fun h => by
  have within := h _ _ (Prog.exec_run ((remove "sales").call js) db)
  have kept : theirs ∈ (((remove "sales").call js).run db).2.department := (within.department theirs (by decide)).mpr (by decide)
  exact absurd kept (by decide)

end Rivals

end Vms.Configuration
