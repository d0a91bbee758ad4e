import Vms.Lib.Overdraft
import Vms.Theorems.Organization.AccountLimit
import Vms.Theorems.Server.Profile

/-! The account limit among requests at the same time. The number of system accounts is checked before an account is
    created, and not in the same access: requests that have all seen a free place overdraw the limit, by one for each
    further request. -/

namespace Vms.Server
open Relational Table HttpException Prog OrganizationService SystemService
open Accounts (count)

/-- The limit of the organisation is no higher. -/
def Limited (orgId : String) (limit : Int) (organization : Organization) : Prop :=
  organization.id = orgId → organization.accountLimit ≤ limit

section Counts
variable {orgId : String} {s t : Db}

theorem Change.count_le {k : Kind} (h : Change s k t) (add : k ≠ .addSystem) : count t orgId ≤ count s orgId := by
  cases h <;> first
    | exact absurd rfl add
    | exact Nat.le_refl _
    | exact length_filter_delete_le
    | skip
  case updateSystem u systems =>
    refine length_filter_le fun b hb horg => ?_
    obtain ⟨a, ha, _, _, _, _, rfl⟩ := systems.only b hb
    exact ⟨a, ha, rfl, horg⟩

theorem takesNone_of_within {α : Type} {K : Kind → Prop} {p : Service α} (h : p.Within (Changes K)) (add : ¬K .addSystem) :
    p.Within (TakesNone (count · orgId)) :=
  Changes.within h (fun s => Nat.le_refl (count s orgId)) (fun h h' => Nat.le_trans h' h) fun _ _ _ hk hchange =>
    hchange.count_le fun hkind => add (hkind ▸ hk)

theorem query_takesNone {α : Type} (f : Db → α) : (query f).Within (TakesNone (count · orgId)) :=
  AuthService.always_query fun s => Nat.le_refl (count s orgId)

theorem createSystem_takes {system : SystemCredential} : (createSystem system).Takes (count · orgId) := by
  refine access_takes fun s => ?_
  split
  · rename_i hop
    obtain ⟨-, -, u, stored, rfl⟩ := created_eq_ok.mp hop
    have hcount := length_filter_insert stored (·.orgId == orgId)
    show (u.filter (·.orgId == orgId)).length ≤ (s.systemCredential.filter (·.orgId == orgId)).length + 1
    rw [hcount]
    split <;> simp
  · exact Nat.le_succ _

/-- An account of another organisation. -/
theorem createSystem_takesNone {system : SystemCredential} (other : system.orgId ≠ orgId) :
    (createSystem system).Within (TakesNone (count · orgId)) := by
  refine always_create (fun s => Nat.le_refl (count s orgId)) fun s u _ stored => ?_
  have hcount := length_filter_insert stored (·.orgId == orgId)
  rw [if_neg (by simpa using other)] at hcount
  exact Nat.le_of_eq hcount

variable {js : Js} {io : SystemService.Io} {dto : RegisterSystemUserDto} {userId role : String} {limit : Nat}

/-- The check comes before the account, and the limit that it is checked against is no higher. -/
theorem registerSystemUser_looks {belongs : (userId orgId : String) → Prop} :
    (registerSystemUser js io orgId userId role dto).Looks (count · orgId) (Profiled belongs (Limited orgId limit)) limit := by
  refine failIf_bind_looks fun _ => access_bind_looks (fun _ => Nat.le_refl _) fun s found hs hfound => Or.inl ?_
  obtain rfl := Except.ok.inj hfound
  refine orFail_bind_looks fun organization horg => (query_takesNone _).bind_looks fun _ => orFail_bind_looks fun _ _ => ?_
  refine failIf_bind_looks fun _ => access_bind_looks (fun _ => Nat.le_refl _) fun t n _ hn => ?_
  obtain rfl := Except.ok.inj hn
  obtain ⟨hmem, hid⟩ := find_eq_some.mp horg
  have hlimit := hs.organizations organization hmem hid
  by_cases hfull : (count t orgId : Int) ≥ organization.accountLimit
  · refine Or.inl ?_
    show (failIf ((count t orgId : Int) ≥ organization.accountLimit) _ >>= _).Looks _ _ _
    rw [failIf_bind_of hfull]
    trivial
  · refine Or.inr ⟨?_, ?_⟩
    · show count t orgId < limit
      omega
    · show (failIf ((count t orgId : Int) ≥ organization.accountLimit) _ >>= _).Takes _
      rw [failIf_bind_of_not hfull]
      refine (query_takesNone _).bind_takes fun found => Within.bind_takes always_failIf fun _ => ?_
      exact createSystem_takes.bind fun _ => trivial

theorem registerSystemUser_takesNone {org : String} (other : org ≠ orgId) :
    (registerSystemUser js io org userId role dto).Within (TakesNone (count · orgId)) := by
  refine always_failIf.bind fun _ => (query_takesNone _).bind fun _ => always_orFail.bind fun _ => ?_
  refine (query_takesNone _).bind fun _ => always_orFail.bind fun _ => always_failIf.bind fun _ => ?_
  refine (query_takesNone _).bind fun _ => always_failIf.bind fun _ => ?_
  refine (query_takesNone _).bind fun _ => always_failIf.bind fun _ => ?_
  exact Always.bind (createSystem_takesNone other) fun _ => trivial

end Counts

/-! ### Requests -/

section Requests
variable {server : Server} {caller : Caller} {orgId : String} {limit : Nat} {belongs : (userId orgId : String) → Prop}

/-- The request registers a system account of the organisation. -/
def Request.Registers (server : Server) (orgId : String) : Request → Prop
  | authorized now authorization (.registerSystemUser ..) => ∃ caller, sender server.jwt now authorization = some caller ∧
      caller.orgId = some orgId
  | _ => False

/-- The request gives the organisation a higher limit. -/
def Endpoint.Raises (orgId : String) (limit : Int) : Endpoint → Prop
  | createOrganization io dto _ => io.organizationId = orgId ∧ limit < dto.accountLimit
  | editOrganizationDetails _ id dto _ => id = orgId ∧ ∃ accountLimit ∈ dto.accountLimit, limit < accountLimit
  | _ => False

def Request.Raises (server : Server) (orgId : String) (limit : Int) : Request → Prop
  | authorized now authorization endpoint => ∃ caller, sender server.jwt now authorization = some caller ∧
      caller.role = some "Root" ∧ endpoint.Raises orgId limit
  | anyone _ => False

theorem Endpoint.respects_limit {endpoint : Endpoint} (kept : caller.role = some "Root" → ¬endpoint.Raises orgId limit) :
    endpoint.Respects server caller belongs (Limited orgId limit) := by
  cases endpoint
  case createOrganization io dto logo =>
    intro hroot _ _ organization _ _ hid hlimit _ horg
    rw [hlimit]
    exact Int.not_lt.mp fun hlt => kept hroot ⟨hid.symm.trans horg, hlt⟩
  case editOrganizationDetails io id dto logo =>
    intro role hrole hcaller _ _ _ _ accountLimit organization _ _ hlimit hid hold horg
    have hold := hold horg
    show accountLimit.getD organization.accountLimit ≤ limit
    rcases List.mem_pair.mp hrole with rfl | rfl
    · rw [if_neg (by simp)] at hlimit
      cases hdto : dto.accountLimit with
      | none => rwa [hlimit, hdto]
      | some l =>
        rw [hlimit, hdto]
        exact Int.not_lt.mp fun hlt => kept hcaller ⟨hid.symm.trans horg, l, hdto, hlt⟩
    · rw [if_pos rfl] at hlimit
      rwa [hlimit]
  all_goals trivial

theorem Endpoint.handle_looks (endpoint : Endpoint) : (endpoint.handle server caller).Looks (count · orgId)
    (Profiled belongs (Limited orgId limit)) limit := by
  have rest (add : .addSystem ∉ endpoint.kinds) : (endpoint.handle server caller).Within (TakesNone (count · orgId)) :=
    takesNone_of_within (Endpoint.handle_within endpoint) fun hk => add hk.1
  cases endpoint
  case registerSystemUser io dto =>
    refine orFail_bind_looks fun org _ => orFail_bind_looks fun userId _ => Looks.bind ?_ fun _ => trivial
    by_cases horg : org = orgId
    · rw [horg]
      exact registerSystemUser_looks
    · exact Within.looks (registerSystemUser_takesNone horg)
  all_goals exact Within.looks (rest (by simp [kinds]))

theorem serve_looks (request : Request) :
    (serve server request).Looks (count · orgId) (Profiled belongs (Limited orgId limit)) limit := by
  cases request with
  | anyone endpoint =>
    refine Within.looks (takesNone_of_within (OpenEndpoint.handle_within endpoint) ?_)
    cases endpoint <;> simp [OpenEndpoint.kinds]
  | authorized now authorization endpoint =>
    exact Within.bind_looks (canActivate_within fun s => Nat.le_refl (count s orgId)) fun caller => endpoint.handle_looks

theorem serve_takesNone {request : Request} (other : ¬request.Registers server orgId) :
    (serve server request).Within (TakesNone (count · orgId)) := by
  refine serve_within (fun s => Nat.le_refl (count s orgId)) (fun endpoint _ => ?_)
    fun now authorization endpoint caller hrequest hcaller => ?_
  · refine takesNone_of_within (OpenEndpoint.handle_within endpoint) ?_
    cases endpoint <;> simp [OpenEndpoint.kinds]
  · have rest (add : .addSystem ∉ endpoint.kinds) : (endpoint.handle server caller).Within (TakesNone (count · orgId)) :=
      takesNone_of_within (Endpoint.handle_within endpoint) fun hk => add hk.1
    rw [hrequest] at other
    cases endpoint
    case registerSystemUser io dto =>
      refine Always.orFail_bind fun org horg => always_orFail.bind fun userId => Always.bind ?_ fun _ => trivial
      refine registerSystemUser_takesNone fun hsame => other ⟨caller, hcaller, ?_⟩
      rw [← hsame]
      exact horg
    all_goals exact rest (by simp [Endpoint.kinds])

end Requests

/-- Whatever is requested at the same time, and in whatever order the accesses come and fail: an organisation has no more
    system accounts than it had, or than its limit and one for each registration after the first. -/
theorem account_limit_overdrawn {server : Server} {ι : Type} [DecidableEq ι] {requests : ι → Request} {s : Db}
    {d : Threads ι Db HttpException Unit} {orgId : String} {limit : Nat} (registrations : Finset ι)
    (all : ∀ i, (requests i).Registers server orgId → i ∈ registrations)
    (limited : ∀ organization ∈ s.organization, organization.id = orgId → organization.accountLimit ≤ limit)
    (kept : ∀ i, ¬(requests i).Raises server orgId limit)
    (h : (Threads.interleaving ⟨s, fun i => serve server (requests i)⟩).Reachable d) :
    count d.state orgId ≤ max (count s orgId) (limit + registrations.card - 1) := by
  have respects (i : ι) : (requests i).Respects server (fun _ _ => True) (Limited orgId limit) := by
    have kept := kept i
    cases hrequest : requests i with
    | anyone endpoint => trivial
    | authorized now authorization endpoint =>
      rw [hrequest] at kept
      exact fun caller hcaller => Endpoint.respects_limit fun hroot hraises => kept ⟨caller, hcaller, hroot, hraises⟩
  have state : Profiled (fun _ _ => True) (Limited orgId limit) s := ⟨limited, fun _ _ _ _ => trivial⟩
  refine Threads.overdraft_of_reach (c := ⟨s, fun i => serve server (requests i)⟩) registrations
    (fun i => serve_profiled (respects i) (fun _ _ _ => trivial) state) state (fun i => serve_looks (requests i)) (fun i hi => ?_) h
  exact serve_takesNone (mt (all i) hi)

/-! ### Two doors -/

namespace Doors

def superAdmin : JwtPayload := { orgId := some "office", userId := some "ann", role := some "SuperAdmin" }

def register (door : String) : Endpoint :=
  .registerSystemUser ⟨door, id⟩ { email := door ++ "@mail.com", password := "open", secretCode := "0000" }

/-- An organisation with one place wants two accounts at the same time. -/
def requests : Bool → Request
  | false => .authorized 0 (Office.bearer superAdmin) (register "front")
  | true => .authorized 0 (Office.bearer superAdmin) (register "back")

def db : Db := { Office.db with
  organization := {{ id := "office", name := "Office", email := "office@mail.com", accountLimit := 1 }} }

/-- Both look before one of them has its account. -/
def after : Threads Bool Db HttpException Unit :=
  Threads.schedule ⟨db, fun i => serve Office.server (requests i)⟩
    [false, false, false, true, true, true, false, false, true, true]

theorem reachable_after : (Threads.interleaving ⟨db, fun i => serve Office.server (requests i)⟩).Reachable after :=
  Threads.reachable_schedule (.init rfl) _

/-- The one place is taken twice. -/
theorem count_after : count after.state "office" = 2 := by
  have handled : (fun i => serve Office.server (requests i)) = fun i =>
      (register (if i then "back" else "front")).handle Office.server (callerOf superAdmin) := by
    funext i
    cases i <;> exact Office.serve_bearer rfl (by decide)
  rw [after, handled]
  decide

end Doors

theorem account_limit_overdrawn_doors : count Doors.after.state "office" = 2 ∧
    count Doors.after.state "office" ≤ max (count Doors.db "office") (1 + 2 - 1) := by
  refine ⟨Doors.count_after, account_limit_overdrawn Finset.univ (fun i _ => Finset.mem_univ i) (fun organization horg _ => ?_)
    (fun i hraises => ?_) Doors.reachable_after⟩
  · obtain rfl := mem_singleton.mp horg
    exact Int.le_refl 1
  · cases i <;> exact hraises.elim fun _ h => h.2.2.elim

end Vms.Server
