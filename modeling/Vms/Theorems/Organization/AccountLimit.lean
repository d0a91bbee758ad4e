import Vms.Lib.System
import Vms.Theorems.Organization.Step

/-! The account limit of an organisation. A new account needs a free place; an edit may lower the limit, but
    not below the number of accounts; a superadmin does not change it. -/

namespace Vms.Accounts
open Relational HttpException OrganizationService SystemService

/-! ### Requests -/

inductive Operation where
  | createOrganization (io : ChangeIo) (role : String) (dto : CreateOrganizationDto) (logo : Bool)
  | editOrganizationDetails (io : ChangeIo) (orgId role : String) (dto : EditOrganizationDto) (userId : String) (logo : Bool)
  | registerSystemUser (io : SystemService.Io) (orgId userId role : String) (dto : RegisterSystemUserDto)
  | deleteSystemAccount (systemId orgId userId role : String)

def perform (js : Js) : Operation → Service Unit
  | .createOrganization io role dto logo => do let _ ← createOrganization js io role dto logo
  | .editOrganizationDetails io orgId role dto userId logo => do
    let _ ← editOrganizationDetails js io orgId role dto userId logo
  | .registerSystemUser io orgId userId role dto => do let _ ← registerSystemUser js io orgId userId role dto
  | .deleteSystemAccount systemId orgId userId role => do let _ ← deleteSystemAccount systemId orgId userId role

/-! ### The invariant -/

/-- The number of system accounts of an organisation. -/
def count (s : Db) (orgId : String) : Nat := (s.systemCredential.filter (·.orgId == orgId)).length

/-- No organisation has more system accounts than its limit. -/
def WithinLimit (s : Db) : Prop :=
  ∀ organization ∈ s.organization, (count s organization.id : Int) ≤ organization.accountLimit

/-- Every system account is of an organisation, as its foreign key demands, and every organisation is within
    its limit. -/
structure Inv (s : Db) : Prop where
  homes : s.systemCredential.References (some ·.orgId) s.organization
  limit : WithinLimit s

def limitOf (s : Db) (orgId : String) : Option Int := (s.organization.find orgId).map (·.accountLimit)

section Writes
variable {s t : Db}

theorem count_eq_zero (homes : s.systemCredential.References (some ·.orgId) s.organization) {orgId : String}
    (fresh : ∀ organization ∈ s.organization, organization.id ≠ orgId) : count s orgId = 0 := by
  rw [count, List.length_eq_zero_iff, List.eq_nil_iff_forall_not_mem]
  intro system hsystem
  obtain ⟨hmem, horg⟩ := Table.mem_filter.mp hsystem
  obtain ⟨organization, horganization, hid⟩ := homes system hmem _ rfl
  exact fresh organization horganization (hid.trans (beq_iff_eq.mp horg))

/-- A new organisation has no accounts yet. -/
theorem Inv.create (inv : Inv s) {organization : Organization} {u : Table Organization}
    (hu : s.organization.insert organization = some u) (hlimit : 0 ≤ organization.accountLimit)
    (horganization : t.organization = u) (hsystem : t.systemCredential = s.systemCredential) : Inv t where
  homes := by
    rw [hsystem, horganization]
    intro system hmem orgId horg
    obtain ⟨home, hhome, hid⟩ := inv.homes system hmem orgId horg
    exact ⟨home, (Table.mem_insert hu).mpr (Or.inl hhome), hid⟩
  limit := by
    intro other hother
    rw [horganization] at hother
    have hcount : count t other.id = count s other.id := by rw [count, hsystem, count]
    rw [hcount]
    rcases (Table.mem_insert hu).mp hother with hold | rfl
    · exact inv.limit other hold
    · have hzero : count s other.id = 0 := count_eq_zero inv.homes fun old hold => Table.id_ne_of_insert hu hold
      rw [hzero]
      exact hlimit

/-- An organisation is changed, and its accounts are within the limit that it has then. -/
theorem Inv.edit (inv : Inv s) {organization : Organization} {change : Organization → Organization}
    {u : Table Organization} (hmem : organization ∈ s.organization)
    (hu : s.organization.modify (·.id == organization.id) change = some u) (hid : (change organization).id = organization.id)
    (hlimit : (count s organization.id : Int) ≤ (change organization).accountLimit)
    (horganization : t.organization = u) (hsystem : t.systemCredential = s.systemCredential) : Inv t := by
  have rows := Table.mem_modify_one hu hmem fun _ _ => beq_iff_eq
  refine ⟨?_, ?_⟩
  · rw [hsystem, horganization]
    intro system hsys orgId horg
    obtain ⟨home, hhome, hof⟩ := inv.homes system hsys orgId horg
    by_cases heq : home.id = organization.id
    · exact ⟨change organization, (rows _).mpr (Or.inl rfl), hid.trans (heq.symm.trans hof)⟩
    · exact ⟨home, (rows _).mpr (Or.inr ⟨hhome, heq⟩), hof⟩
  · intro other hother
    rw [horganization] at hother
    have hcount : count t other.id = count s other.id := by rw [count, hsystem, count]
    rw [hcount]
    rcases (rows other).mp hother with rfl | ⟨hold, -⟩
    · rw [hid]
      exact hlimit
    · exact inv.limit other hold

/-- A new account takes a free place. -/
theorem Inv.register (inv : Inv s) {system : SystemCredential} {organization : Organization} {u : Table SystemCredential}
    (hu : s.systemCredential.insert system = some u) (hmem : organization ∈ s.organization)
    (hid : organization.id = system.orgId) (free : (count s system.orgId : Int) < organization.accountLimit) :
    Inv { s with systemCredential := u } where
  homes := by
    intro other hother orgId horg
    rcases (Table.mem_insert hu).mp hother with hold | rfl
    · exact inv.homes other hold orgId horg
    · exact ⟨organization, hmem, hid.trans (Option.some.inj horg)⟩
  limit := by
    intro other hother
    have hcount := Table.length_filter_insert hu (·.orgId == other.id)
    have hold := inv.limit other hother
    show ((u.filter (·.orgId == other.id)).length : Int) ≤ other.accountLimit
    rw [hcount]
    by_cases hown : system.orgId = other.id
    · obtain rfl : other = organization := Table.eq_of_id hother hmem (hown.symm.trans hid.symm)
      rw [hown] at free
      rw [if_pos (beq_iff_eq.mpr hown)]
      exact Int.add_one_le_of_lt free
    · rw [if_neg (mt beq_iff_eq.mp hown), Nat.add_zero]
      exact hold

theorem Inv.remove (inv : Inv s) {p : SystemCredential → Bool} (horganization : t.organization = s.organization)
    (hsystem : t.systemCredential = s.systemCredential.delete p) : Inv t where
  homes := by
    rw [hsystem, horganization]
    exact fun system hmem => inv.homes system (Table.mem_delete.mp hmem).1
  limit := by
    intro organization hmem
    rw [horganization] at hmem
    have hcount : count t organization.id ≤ count s organization.id := by
      rw [count, hsystem]
      exact Table.length_filter_delete_le
    exact (Int.ofNat_le.mpr hcount).trans (inv.limit organization hmem)

end Writes

/-! ### System accounts -/

section Systems
variable {js : Js} {s : Db} {orgId userId role : String}

theorem registerSystemUser_inv (inv : Inv s) {io : SystemService.Io} {dto : RegisterSystemUserDto} :
    (registerSystemUser js io orgId userId role dto).Post (fun _ t => Inv t) s := by
  simp only [registerSystemUser, createSystem, Prog.post_bind, Prog.post_failIf, Prog.post_orFail, Prog.then_ok, Prog.then_error,
    post_query, post_mutate, created_eq_ok, Prog.post_pure, inv, implies_true, true_and, and_true, Table.find_eq_some, not_le]
  rintro - organization ⟨hmem, hid⟩ user - - free - system t ⟨-, -, u, hu, rfl⟩
  exact inv.register hu hmem hid free

theorem deleteSystemAccount_inv (inv : Inv s) {systemId : String} :
    (deleteSystemAccount systemId orgId userId role).Post (fun _ t => Inv t) s := by
  simp only [deleteSystemAccount, deleteSystem, Prog.post_bind, Prog.post_failIf, Prog.post_orFail, Prog.then_ok, Prog.then_error,
    post_query, post_mutate_ite, Prog.post_pure, inv, implies_true, true_and, and_true]
  rintro - organization - user - system - -
  exact inv.remove rfl rfl

end Systems

/-! ### Organisations -/

section Organizations
variable {js : Js} {io : ChangeIo} {s t : Db} {orgId userId role : String} {logo : Bool}

theorem inv_of_founded (inv : Inv s) {dto : CreateOrganizationDto} (founded : Founded js io s role dto t) : Inv t := by
  obtain ⟨-, stored, limit, -, -, -, -, -⟩ := founded
  refine inv.create stored ?_ rfl rfl
  rw [limit]
  exact le_trans (by decide) dto.accountLimit_min

theorem createOrganization_inv (inv : Inv s) {dto : CreateOrganizationDto} :
    (createOrganization js io role dto logo).Post (fun _ t => Inv t) s := by
  refine createOrganization_post.mono fun r t attempt => ?_
  rcases attempt with founded | ⟨rfl, -⟩
  · exact inv_of_founded inv founded
  · exact inv

/-- An edit leaves a limit that the accounts fit: a new one was compared with their number, an old one held
    before. -/
theorem inv_of_edited (inv : Inv s) {accountLimit : Option Int} (edited : Edited s orgId accountLimit t) : Inv t := by
  obtain ⟨mem, rfl, stored, keys, limit, fits⟩ := edited
  refine inv.edit mem stored (keys _) ?_ rfl rfl
  rw [limit]
  cases accountLimit with
  | none => exact inv.limit _ mem
  | some new => exact fits new rfl

theorem editOrganizationDetails_inv (inv : Inv s) {dto : EditOrganizationDto} :
    (editOrganizationDetails js io orgId role dto userId logo).Post (fun _ t => Inv t) s :=
  Post.state_of_allOrNothing editOrganizationDetails_post inv fun _ _ edited => inv_of_edited inv edited

/-- An edit without a limit leaves every limit as it is. -/
theorem limitOf_of_edited (edited : Edited s orgId none t) (other : String) : limitOf t other = limitOf s other := by
  obtain ⟨-, -, stored, keys, limit, -⟩ := edited
  rw [limitOf, Table.find_modify stored keys, Option.map_map, limitOf]
  refine congrArg (Option.map · (s.organization.find other)) (funext fun organization => ?_)
  rw [Function.comp_apply]
  split
  · rw [limit, Option.getD_none]
  · rfl

theorem editOrganizationDetails_limitOf {dto : EditOrganizationDto} :
    (editOrganizationDetails js io orgId "SuperAdmin" dto userId logo).Post
      (fun _ t => ∀ other, limitOf t other = limitOf s other) s :=
  Post.state_of_allOrNothing editOrganizationDetails_post (fun _ => rfl) fun _ _ edited => limitOf_of_edited edited

end Organizations

/-! ### Runs -/

/-- Requests one after another, each in one of its executions, from a state within the limits. -/
def system (js : Js) : System Db Operation where
  init := Inv
  step s q t := ∃ r, Prog.Exec (perform js q) s r t

theorem perform_inv {js : Js} {s : Db} (inv : Inv s) (q : Operation) : (perform js q).Post (fun _ t => Inv t) s := by
  cases q with
  | createOrganization io role dto logo => exact Prog.post_discard.mpr (createOrganization_inv inv)
  | editOrganizationDetails io orgId role dto userId logo => exact Prog.post_discard.mpr (editOrganizationDetails_inv inv)
  | registerSystemUser io orgId userId role dto => exact Prog.post_discard.mpr (registerSystemUser_inv inv)
  | deleteSystemAccount systemId orgId userId role => exact Prog.post_discard.mpr (deleteSystemAccount_inv inv)

theorem inv_of_reachable {js : Js} {s : Db} (h : (system js).Reachable s) : Inv s :=
  h.invariant (fun _ => id) fun _ q _ _ inv _ hstep => by
    obtain ⟨r, hexec⟩ := hstep
    exact (perform_inv inv q).of_exec hexec

/-- In every state of every run no organisation has more system accounts than its limit, and in every state an
    edit by a superadmin leaves the limits as they are. -/
theorem account_limit (js : Js) :
    (∀ s, (system js).Reachable s → WithinLimit s) ∧
    ∀ s io orgId dto userId logo r t,
      Prog.Exec (editOrganizationDetails js io orgId "SuperAdmin" dto userId logo) s r t →
        ∀ other, limitOf t other = limitOf s other :=
  ⟨fun _ h => (inv_of_reachable h).limit, fun _ _ _ _ _ _ _ _ hexec => editOrganizationDetails_limitOf.of_exec hexec⟩

/-! ### An office -/

namespace Office

def plain : Js := { toLowerCase := id, trim := id, toLocaleString := fun _ => "" }

def office : Organization := { id := "org", name := "Office", email := "office@mail.com", accountLimit := 1 }

def start : Db where
  organization := {office}
  userCredential := {{ id := "ann-user", orgId := some "org", email := "ann@mail.com", role := .superAdmin }}

def changeIo : ChangeIo where
  organizationId := "new"
  subscriptionId := "sub"
  workingHoursId _ := "hours"
  logoUrl := ""
  encryptionKey := some "key"
  cipher := { iv := "iv", cipher := fun _ _ text => .ok ("tag", text) }
  newDate _ := some 0
  dateTime _ := some 0

/-- An edit that asks for another limit. -/
def askFor (limit : Int) (h : 1 ≤ limit) : EditOrganizationDto where
  timezone := "UTC"
  settingCode := "1234"
  accountLimit := some limit
  accountLimit_min other hother := by cases hother; exact h

/-- Ann adds two accounts, of which one finds a place; root raises the limit, she adds the other one, and root
    does not get the limit lowered again. -/
def calls : List Operation :=
  [.registerSystemUser ⟨"desk", id⟩ "org" "ann-user" "SuperAdmin" ⟨"desk@mail.com", "secret", "1"⟩,
   .registerSystemUser ⟨"gate", id⟩ "org" "ann-user" "SuperAdmin" ⟨"gate@mail.com", "secret", "1"⟩,
   .editOrganizationDetails changeIo "org" "Root" (askFor 2 (by decide)) "root-user" false,
   .registerSystemUser ⟨"gate", id⟩ "org" "ann-user" "SuperAdmin" ⟨"gate@mail.com", "secret", "1"⟩,
   .editOrganizationDetails changeIo "org" "Root" (askFor 1 (by decide)) "root-user" false]

def after (s : Db) (q : Operation) : Db := ((perform plain q).run s).2

example : count (calls.foldl after start) "org" = 2 ∧ limitOf (calls.foldl after start) "org" = some 2 := by decide

theorem reachable : (system plain).Reachable (calls.foldl after start) := by
  have hstart : (system plain).Reachable start := by
    refine .init ⟨Table.references_empty, fun organization hmem => ?_⟩
    obtain rfl := Table.mem_singleton.mp hmem
    decide
  have hrun : ∀ s q, (system plain).step s q (after s q) := fun s q => ⟨_, Prog.exec_run (perform plain q) s⟩
  exact hstart.foldl hrun fun _ _ _ => trivial

/-- Ann asks for a higher limit. -/
def annEdits : Service String := editOrganizationDetails plain changeIo "org" "SuperAdmin" (askFor 9 (by decide)) "ann-user" false

theorem account_limit_calls : WithinLimit (calls.foldl after start) ∧
    limitOf (annEdits.run (calls.foldl after start)).2 "org" = limitOf (calls.foldl after start) "org" :=
  ⟨(account_limit plain).1 _ reachable,
    (account_limit plain).2 _ changeIo "org" (askFor 9 (by decide)) "ann-user" false _ _ (Prog.exec_run annEdits _) "org"⟩

end Office

end Vms.Accounts
