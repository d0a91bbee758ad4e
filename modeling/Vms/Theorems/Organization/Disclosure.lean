import Vms.Organization
import Vms.VisitAnalytics

/-! What callers learn about organisations other than their own. The details, the plan and the statistics
    of an organisation are read for the organisation in the path, whatever the token says. -/

namespace Vms.Disclosure
open Relational HttpException OrganizationService VisitAnalyticsService

/-! ### Requests -/

inductive Operation where
  | getOrganizationDetails (orgId : String)
  | getOrgPlanDetails (orgId : String)
  | getSettingsCode
  | getVisitStats (orgId period : String)
  | getTopEmployees (orgId period : String)
  | getTopVisitors (orgId period : String)
  | getTopDepartments (orgId period : String)
  | getTopReasons (orgId period : String)

/-- A request with a token of an organisation, at a moment, to a server with its configuration. -/
structure Request where
  env : Env
  js : Js
  clock : Clock
  orgId : String
  userId : String
  role : String
  op : Operation

/-- The orders in which the store returns rows. -/
structure Io where
  workingHours : RowOrder WorkingHours
  features : RowOrder PlanFeature
  visits : RowOrder Visit

/-- The orders in which rows are stored. -/
def stored : Io := ⟨.stored, .stored, .stored⟩

inductive Reply where
  | organization (details : OrganizationDetails)
  | plan (details : OrgPlanDetails)
  | settingsCode (settingCode : Option String)
  | stats (stats : List VisitStats)
  | entries (entries : List TopEntry)
  | visitors (visitors : List TopVisitor)

def Request.call (q : Request) (io : Io) : Service Reply :=
  match q.op with
  | .getOrganizationDetails orgId => do
    let details ← getOrganizationDetails q.env ⟨io.workingHours, io.features⟩ orgId q.role
    return .organization details
  | .getOrgPlanDetails orgId => do
    let details ← getOrgPlanDetails q.env ⟨io.workingHours, io.features⟩ orgId q.role
    return .plan details
  | .getSettingsCode => do
    let settingCode ← getSettingsCode q.env q.orgId q.role q.userId
    return .settingsCode settingCode
  | .getVisitStats orgId period => do
    let stats ← getVisitStats q.clock orgId period
    return .stats stats
  | .getTopEmployees orgId period => do
    let entries ← getTopEmployees q.clock io.visits orgId period
    return .entries entries
  | .getTopVisitors orgId period => do
    let visitors ← getTopVisitors q.js q.clock io.visits orgId period
    return .visitors visitors
  | .getTopDepartments orgId period => do
    let entries ← getTopDepartments q.clock io.visits orgId period
    return .entries entries
  | .getTopReasons orgId period => do
    let entries ← getTopReasons q.clock io.visits orgId period
    return .entries entries

/-- The request may end with `r`, for some order of rows and some failures. -/
def Answers (q : Request) (s : Db) (r : Except HttpException Reply) : Prop := ∃ io t, Prog.Exec (q.call io) s r t

/-! ### Agreement -/

/-- Two states have the same rows of an organisation, in every table with a column for it. -/
structure Agree (orgId : String) (s t : Db) : Prop where
  organization : Table.Same (fun organization : Organization => organization.id = orgId) s.organization t.organization :=
    by exact Table.Same.refl _
  visit : Table.Same (fun visit : Visit => visit.orgId = orgId) s.visit t.visit := by exact Table.Same.refl _
  staff : Table.Same (fun staff : Staff => staff.orgId = orgId) s.staff t.staff := by exact Table.Same.refl _
  workingHours : Table.Same (fun hours : WorkingHours => hours.orgId = some orgId) s.workingHours t.workingHours :=
    by exact Table.Same.refl _
  attendanceSession : Table.Same (fun session : AttendanceSession => session.orgId = orgId) s.attendanceSession t.attendanceSession :=
    by exact Table.Same.refl _
  attendanceEvent : Table.Same (fun event : AttendanceEvent => event.orgId = orgId) s.attendanceEvent t.attendanceEvent :=
    by exact Table.Same.refl _
  userCredential : Table.Same (fun user : UserCredential => user.orgId = some orgId) s.userCredential t.userCredential :=
    by exact Table.Same.refl _
  systemCredential : Table.Same (fun system : SystemCredential => system.orgId = orgId) s.systemCredential t.systemCredential :=
    by exact Table.Same.refl _
  department : Table.Same (fun department : Department => department.orgId = orgId) s.department t.department :=
    by exact Table.Same.refl _
  reasonOfVisit : Table.Same (fun reason : ReasonOfVisit => reason.orgId = orgId) s.reasonOfVisit t.reasonOfVisit :=
    by exact Table.Same.refl _
  team : Table.Same (fun team : Team => team.orgId = orgId) s.team t.team := by exact Table.Same.refl _
  subscription : Table.Same (fun subscription : Subscription => subscription.orgId = orgId) s.subscription t.subscription :=
    by exact Table.Same.refl _
  notification : Table.Same (fun notification : Notification => notification.orgId = orgId) s.notification t.notification :=
    by exact Table.Same.refl _

/-- Any two states that agree on the organisation of the token give the same answers. -/
def Noninterfering (q : Request) : Prop :=
  ∀ s t : Db, s.WellFormed → t.WellFormed → Agree q.orgId s t → ∀ r, Answers q s r ↔ Answers q t r

section Agreement
variable {s t : Db} {orgId : String} {q : Request} {r : Except HttpException Reply}

theorem Agree.symm (h : Agree orgId s t) : Agree orgId t s :=
  ⟨h.organization.symm, h.visit.symm, h.staff.symm, h.workingHours.symm, h.attendanceSession.symm, h.attendanceEvent.symm,
    h.userCredential.symm, h.systemCredential.symm, h.department.symm, h.reasonOfVisit.symm, h.team.symm,
    h.subscription.symm, h.notification.symm⟩

theorem call_reads (q : Request) (io : Io) : (q.call io).Reads connectionLost := by
  unfold Request.call
  split
  · refine Prog.Reads.bind ?_ fun _ => Prog.reads_pure
    refine Prog.reads_failIf.bind fun _ => reads_query.bind fun _ => Prog.reads_orFail.bind fun _ => ?_
    exact Prog.reads_ofExcept.bind fun _ => Prog.reads_pure
  · refine Prog.Reads.bind ?_ fun _ => Prog.reads_pure
    refine Prog.reads_failIf.bind fun _ => reads_query.bind fun _ => Prog.reads_orFail.bind fun _ => ?_
    refine Prog.reads_ofExcept.bind fun _ => ?_
    unfold describePlan
    split
    · exact Prog.reads_pure
    · exact reads_query.bind fun _ => Prog.reads_orFail.bind fun _ => Prog.reads_pure
  · refine Prog.Reads.bind ?_ fun _ => Prog.reads_pure
    refine Prog.reads_failIf.bind fun _ => reads_query.bind fun _ => Prog.reads_orFail.bind fun _ => ?_
    exact Prog.reads_failIf.bind fun _ => reads_query.bind fun _ => Prog.reads_ofExcept
  · refine Prog.Reads.bind ?_ fun _ => Prog.reads_pure
    exact reads_query.bind fun _ => reads_query.bind fun _ => reads_query.bind fun _ => Prog.reads_pure
  all_goals exact Prog.Reads.bind (reads_query.bind fun _ => Prog.reads_pure) fun _ => Prog.reads_pure

/-- Answers without failures suffice: each ends the same way in both states, for a suitable order of rows. -/
theorem answers_of_returns (h : ∀ io, ∃ io', ∀ P : Except HttpException Reply → Prop,
    (q.call io).Returns (fun r _ => P r) s → (q.call io').Returns (fun r _ => P r) t) (hr : Answers q s r) : Answers q t r := by
  obtain ⟨io, s', hexec⟩ := hr
  obtain ⟨io', hio⟩ := h io
  rcases (call_reads q io).exec hexec with rfl | ⟨rfl, lost⟩
  · have hrun : ((q.call io').run t).1 = ((q.call io).run s).1 := hio (· = ((q.call io).run s).1) rfl
    exact ⟨io', _, hrun ▸ Prog.exec_run (q.call io') t⟩
  · exact ⟨io, t, lost t⟩

/-- A request that is answered differently in two states, whatever the order of rows. -/
theorem not_noninterfering {a b : Except HttpException Reply} (wf : s.WellFormed) (wf' : t.WellFormed)
    (agree : Agree q.orgId s t) (hs : ∀ io, (q.call io).Returns (fun r _ => r = a) s)
    (ht : ∀ io, (q.call io).Returns (fun r _ => r = b) t) (hne : b ≠ a) (hlost : a ≠ .error connectionLost) :
    ¬Noninterfering q := fun secure => by
  have hrun : ((q.call stored).run s).1 = a := hs stored
  obtain ⟨io, t', hexec⟩ := (secure s t wf wf' agree a).mp ⟨stored, _, hrun ▸ Prog.exec_run (q.call stored) s⟩
  rcases (call_reads q io).exec hexec with h | ⟨h, -⟩
  · exact hne ((ht io).symm.trans h.symm)
  · exact hlost h

end Agreement

/-! ### Reading one's own organisation -/

/-- The rows that the organisation's rows refer to are the same, wherever they belong, and so is the caller's
    credential. -/
structure Linked (orgId userId : String) (s t : Db) : Prop where
  staff : ∀ visit ∈ s.visit, visit.orgId = orgId → t.staff.find visit.staffId = s.staff.find visit.staffId
  department : ∀ visit ∈ s.visit, visit.orgId = orgId → ∀ staff, s.staff.find visit.staffId = some staff →
    ∀ id, staff.departmentId = some id → t.department.find id = s.department.find id
  reasonOfVisit : ∀ visit ∈ s.visit, visit.orgId = orgId → ∀ id, visit.reasonId = some id →
    t.reasonOfVisit.find id = s.reasonOfVisit.find id
  plan : ∀ subscription ∈ s.subscription, subscription.orgId = orgId →
    t.plan.find subscription.planId = s.plan.find subscription.planId ∧
      Table.Same (fun feature : PlanFeature => feature.planId = subscription.planId) s.planFeature t.planFeature
  caller : t.userCredential.find userId = s.userCredential.find userId

section Own
variable {s t : Db} {orgId userId role period : String} {env : Env} {js : Js} {clock : Clock}

theorem Linked.symm (agree : Agree orgId s t) (h : Linked orgId userId s t) : Linked orgId userId t s where
  staff visit hvisit horg := (h.staff visit ((agree.visit visit horg).mp hvisit) horg).symm
  department visit hvisit horg staff hstaff id hid := by
    have hvisit := (agree.visit visit horg).mp hvisit
    exact (h.department visit hvisit horg staff ((h.staff visit hvisit horg).symm.trans hstaff) id hid).symm
  reasonOfVisit visit hvisit horg id hid := (h.reasonOfVisit visit ((agree.visit visit horg).mp hvisit) horg id hid).symm
  plan subscription hsubscription horg := by
    obtain ⟨hplan, hfeatures⟩ := h.plan subscription ((agree.subscription subscription horg).mp hsubscription) horg
    exact ⟨hplan.symm, hfeatures.symm⟩
  caller := h.caller.symm

theorem Agree.find (agree : Agree orgId s t) : t.organization.find orgId = s.organization.find orgId :=
  agree.organization.find_eq fun _ => id

theorem getOrganizationDetails_congr {io : OrganizationService.Io} (agree : Agree orgId s t) :
    ∃ io', ∀ P : Except HttpException OrganizationDetails → Prop,
    (getOrganizationDetails env io orgId role).Returns (fun r _ => P r) s →
    (getOrganizationDetails env io' orgId role).Returns (fun r _ => P r) t := by
  obtain ⟨order, horder⟩ := io.workingHours.exists_rows
    (agree.workingHours.perm_filter (p := (·.orgId == some orgId)) fun _ => beq_iff_eq.mp)
  refine ⟨⟨order, io.features⟩, fun P h => ?_⟩
  have hfound : (t.organization.find orgId).map (fun organization =>
      (organization, order.rows (t.workingHours.filter (·.orgId == some organization.id)))) =
      (s.organization.find orgId).map fun organization =>
        (organization, io.workingHours.rows (s.workingHours.filter (·.orgId == some organization.id))) := by
    rw [agree.find]
    refine Option.map_congr fun organization horganization => ?_
    have hid : organization.id = orgId := (Table.find_eq_some.mp horganization).2
    rw [hid, horder]
  simp only [getOrganizationDetails, Prog.returns_bind, Prog.returns_failIf, Prog.then_error, Prog.then_ok, returns_query,
    Prog.returns_orFail, Prog.returns_ofExcept] at h ⊢
  rw [hfound]
  refine ⟨h.1, fun hrole => ⟨(h.2 hrole).1, fun found hsome => ?_⟩⟩
  have h := (h.2 hrole).2 found hsome
  cases hcode : settingCode env (.error "ENCRYPTION_KEY is not set in environment variables") found.1.settingCodeEncrypted <;>
    rw [hcode] at h <;> exact h

theorem describePlan_congr {io io' : OrganizationService.Io} {organization : Organization}
    {subscription : Option Subscription} {settingCode : Option String} {P : Except HttpException OrgPlanDetails → Prop}
    (hplan : ∀ sub, subscription = some sub → t.plan.find sub.planId = s.plan.find sub.planId ∧
      io'.features.rows (t.planFeature.filter (·.planId == sub.planId)) =
        io.features.rows (s.planFeature.filter (·.planId == sub.planId)))
    (h : (describePlan io organization subscription settingCode).Returns (fun r _ => P r) s) :
    (describePlan io' organization subscription settingCode).Returns (fun r _ => P r) t := by
  unfold describePlan at h ⊢
  split at h
  · exact h
  · rename_i planId hplanId
    obtain ⟨sub, hsub, rfl⟩ := Option.map_eq_some_iff.mp (truthy_eq_some.mp hplanId).1
    obtain ⟨hfind, hfeatures⟩ := hplan sub hsub
    have hfound : (t.plan.find sub.planId).map (fun plan =>
        ({ plan, features := io'.features.rows (t.planFeature.filter (·.planId == plan.id)) } : PlanDetails)) =
        (s.plan.find sub.planId).map fun plan =>
          ({ plan, features := io.features.rows (s.planFeature.filter (·.planId == plan.id)) } : PlanDetails) := by
      rw [hfind]
      refine Option.map_congr fun plan hfoundPlan => ?_
      have hid : plan.id = sub.planId := (Table.find_eq_some.mp hfoundPlan).2
      rw [hid, hfeatures]
    simp only [Prog.returns_bind, Prog.then_ok, Prog.then_error, returns_query, Prog.returns_orFail, Prog.returns_pure] at h ⊢
    rw [hfound]
    exact h

theorem subscription_unique (a b : Subscription) (ha : (a.orgId == orgId) = true) (hb : (b.orgId == orgId) = true) :
    Row.clash a b = true := beq_iff_eq.mpr ((beq_iff_eq.mp ha).trans (beq_iff_eq.mp hb).symm)

theorem getOrgPlanDetails_congr {io : OrganizationService.Io} (agree : Agree orgId s t) (linked : Linked orgId userId s t) :
    ∃ io', ∀ P : Except HttpException OrgPlanDetails → Prop,
    (getOrgPlanDetails env io orgId role).Returns (fun r _ => P r) s →
    (getOrgPlanDetails env io' orgId role).Returns (fun r _ => P r) t := by
  have hsubscription : t.subscription.findBy (·.orgId == orgId) = s.subscription.findBy (·.orgId == orgId) :=
    agree.subscription.findBy_eq subscription_unique fun _ => beq_iff_eq.mp
  -- one order for the features of the only plan that is read
  obtain ⟨order, horder⟩ : ∃ order : RowOrder PlanFeature, ∀ sub, s.subscription.findBy (·.orgId == orgId) = some sub →
      order.rows (t.planFeature.filter (·.planId == sub.planId)) =
        io.features.rows (s.planFeature.filter (·.planId == sub.planId)) := by
    cases hfind : s.subscription.findBy (·.orgId == orgId) with
    | none => exact ⟨io.features, fun _ h => nomatch h⟩
    | some sub =>
      obtain ⟨hmem, horg⟩ := Table.mem_of_findBy hfind
      obtain ⟨order, horder⟩ := io.features.exists_rows
        ((linked.plan sub hmem (beq_iff_eq.mp horg)).2.perm_filter (p := (·.planId == sub.planId)) fun _ => beq_iff_eq.mp)
      exact ⟨order, fun _ h => Option.some.inj h ▸ horder⟩
  refine ⟨⟨io.workingHours, order⟩, fun P h => ?_⟩
  have hfound : (t.organization.find orgId).map (fun organization =>
      (organization, t.subscription.findBy (·.orgId == organization.id))) =
      (s.organization.find orgId).map fun organization =>
        (organization, s.subscription.findBy (·.orgId == organization.id)) := by
    rw [agree.find]
    refine Option.map_congr fun organization horganization => ?_
    have hid : organization.id = orgId := (Table.find_eq_some.mp horganization).2
    rw [hid, hsubscription]
  simp only [getOrgPlanDetails, Prog.returns_bind, Prog.returns_failIf, Prog.then_error, Prog.then_ok, returns_query,
    Prog.returns_orFail, Prog.returns_ofExcept] at h ⊢
  rw [hfound]
  refine ⟨h.1, fun hrole => ⟨(h.2 hrole).1, fun found hsome => ?_⟩⟩
  have h := (h.2 hrole).2 found hsome
  obtain ⟨organization, horganization, rfl⟩ := Option.map_eq_some_iff.mp hsome
  have hid : organization.id = orgId := (Table.find_eq_some.mp horganization).2
  cases hcode : settingCode env (.error "ENCRYPTION_KEY is not set in environment variables") organization.settingCodeEncrypted with
  | error e =>
    rw [hcode] at h
    exact h
  | ok code =>
    rw [hcode] at h
    refine describePlan_congr (fun sub hsub => ?_) h
    rw [hid] at hsub
    obtain ⟨hmem, horg⟩ := Table.mem_of_findBy hsub
    exact ⟨(linked.plan sub hmem (beq_iff_eq.mp horg)).1, horder sub hsub⟩

theorem getSettingsCode_congr (agree : Agree orgId s t) (linked : Linked orgId userId s t)
    {P : Except HttpException (Option String) → Prop} (h : (getSettingsCode env orgId role userId).Returns (fun r _ => P r) s) :
    (getSettingsCode env orgId role userId).Returns (fun r _ => P r) t := by
  simp only [getSettingsCode, Prog.returns_bind, Prog.returns_failIf, Prog.then_error, Prog.then_ok, returns_query,
    Prog.returns_orFail, Prog.returns_ofExcept] at h ⊢
  rw [linked.caller, agree.find]
  exact h

theorem whereClause_orgId {visit : Visit} (h : whereClause clock orgId period visit = true) : visit.orgId = orgId := by
  simp only [whereClause, Bool.and_eq_true, beq_iff_eq] at h
  exact h.1

/-- A count over the organisation's visits. -/
theorem count_congr (agree : Agree orgId s t) {p : Visit → Bool} (hp : ∀ visit, p visit = true → visit.orgId = orgId) :
    (t.visit.filter p).length = (s.visit.filter p).length := (agree.visit.perm_filter hp).length_eq

theorem getVisitStats_congr (agree : Agree orgId s t) {P : Except HttpException (List VisitStats) → Prop}
    (h : (getVisitStats clock orgId period).Returns (fun r _ => P r) s) :
    (getVisitStats clock orgId period).Returns (fun r _ => P r) t := by
  have within : ∀ {status : Visit → Bool} (visit : Visit),
      (whereClause clock orgId period visit && status visit) = true → visit.orgId = orgId :=
    fun visit hvisit => whereClause_orgId (Bool.and_eq_true_iff.mp hvisit).1
  simp only [getVisitStats, Prog.returns_bind, Prog.then_ok, returns_query, Prog.returns_pure] at h ⊢
  rw [count_congr agree fun _ => whereClause_orgId, count_congr agree within, count_congr agree within]
  exact h

/-- The organisation's visits, with rows that are the same in both states. -/
theorem findVisits_congr {α : Type} {f : Db → Visit → α} (visits : RowOrder Visit) (agree : Agree orgId s t)
    (hf : ∀ visit ∈ s.visit, visit.orgId = orgId → f t visit = f s visit) :
    ∃ visits', ∀ P : Except HttpException (List α) → Prop,
    (findVisits clock visits orgId period f).Returns (fun r _ => P r) s →
    (findVisits clock visits' orgId period f).Returns (fun r _ => P r) t := by
  obtain ⟨order, horder⟩ := visits.exists_rows (agree.visit.perm_filter (p := whereClause clock orgId period)
    fun _ => whereClause_orgId)
  refine ⟨order, fun P h => ?_⟩
  have hmap : (order.rows (t.visit.filter (whereClause clock orgId period))).map (f t) =
      (visits.rows (s.visit.filter (whereClause clock orgId period))).map (f s) := by
    rw [horder]
    refine List.map_congr_left fun visit hvisit => ?_
    obtain ⟨hmem, hwhere⟩ := Table.mem_filter.mp ((visits.perm _).mem_iff.mp hvisit)
    exact hf visit hmem (whereClause_orgId hwhere)
  simp only [findVisits, returns_query] at h ⊢
  rw [hmap]
  exact h

/-- A leaderboard of the organisation's visits. -/
theorem leaderboard_congr {α β : Type} {f : Db → Visit → α} {rank : List α → β} {reply : β → Reply} (io : Io)
    (agree : Agree orgId s t) (hf : ∀ visit ∈ s.visit, visit.orgId = orgId → f t visit = f s visit) :
    ∃ io' : Io, ∀ P : Except HttpException Reply → Prop,
    (do let entries ← (do let visits ← findVisits clock io.visits orgId period f; return rank visits)
        return reply entries : Service Reply).Returns (fun r _ => P r) s →
    (do let entries ← (do let visits ← findVisits clock io'.visits orgId period f; return rank visits)
        return reply entries : Service Reply).Returns (fun r _ => P r) t := by
  obtain ⟨order, h⟩ := findVisits_congr io.visits agree hf
  refine ⟨⟨io.workingHours, io.features, order⟩, fun P hs => ?_⟩
  exact Prog.returns_map.mpr (Prog.returns_map.mpr (h _ (Prog.returns_map.mp (Prog.returns_map.mp hs))))

end Own

/-! ### The condition -/

/-- The service refuses the caller's role. -/
def Refused (q : Request) : Prop :=
  match q.op with
  | .getOrganizationDetails _ => q.role ∉ ["Root", "SuperAdmin", "Admin", "System", "Staff"]
  | .getOrgPlanDetails _ => q.role ∉ ["Root", "SuperAdmin"]
  | .getSettingsCode => q.role ∉ ["SuperAdmin"]
  | _ => False

/-- The path, if there is one, names the organisation of the token. -/
def Own (q : Request) : Prop :=
  match q.op with
  | .getOrganizationDetails orgId => orgId = q.orgId
  | .getOrgPlanDetails orgId => orgId = q.orgId
  | .getSettingsCode => True
  | .getVisitStats orgId _ => orgId = q.orgId
  | .getTopEmployees orgId _ => orgId = q.orgId
  | .getTopVisitors orgId _ => orgId = q.orgId
  | .getTopDepartments orgId _ => orgId = q.orgId
  | .getTopReasons orgId _ => orgId = q.orgId

/-- The request reads no rows but those of the organisation in its path: neither rows that these refer to
    nor the caller's credential. -/
def Direct (q : Request) : Prop :=
  match q.op with
  | .getOrganizationDetails _ => True
  | .getVisitStats _ _ => True
  | .getTopVisitors _ _ => True
  | _ => False

section Sufficient
variable {s t : Db} {q : Request} {r : Except HttpException Reply}

/-- A refused request ends with one error, whatever is stored. -/
theorem refused_returns (refused : Refused q) : ∃ e, ∀ io s, (q.call io).Returns (fun r _ => r = .error e) s := by
  obtain ⟨env, js, clock, orgId, userId, role, op⟩ := q
  cases op with
  | getOrganizationDetails path =>
    have hrole : role ∉ ["Root", "SuperAdmin", "Admin", "System", "Staff"] := refused
    exact ⟨_, fun io s => Prog.returns_map.mpr ((Prog.returns_refused hrole).mpr rfl)⟩
  | getOrgPlanDetails path =>
    have hrole : role ∉ ["Root", "SuperAdmin"] := refused
    exact ⟨_, fun io s => Prog.returns_map.mpr ((Prog.returns_refused hrole).mpr rfl)⟩
  | getSettingsCode =>
    have hrole : role ∉ ["SuperAdmin"] := refused
    exact ⟨_, fun io s => Prog.returns_map.mpr ((Prog.returns_refused hrole).mpr rfl)⟩
  | _ => exact absurd refused id

theorem answers_of_refused (refused : Refused q) (hr : Answers q s r) : Answers q t r := by
  obtain ⟨e, he⟩ := refused_returns refused
  refine answers_of_returns (fun io => ⟨io, fun P h => (he io t).mono fun r _ hr => ?_⟩) hr
  have hs : ((q.call io).run s).1 = .error e := he io s
  rw [hr, ← hs]
  exact h

/-- A request about the caller's own organisation, if it reads no other rows or these are the same. -/
theorem answers_of_own (own : Own q) (agree : Agree q.orgId s t) (linked : Direct q ∨ Linked q.orgId q.userId s t)
    (hr : Answers q s r) : Answers q t r := by
  obtain ⟨env, js, clock, orgId, userId, role, op⟩ := q
  refine answers_of_returns (fun io => ?_) hr
  cases op with
  | getOrganizationDetails path =>
    obtain rfl : path = orgId := own
    obtain ⟨io', h⟩ := getOrganizationDetails_congr agree
    exact ⟨⟨io'.workingHours, io'.features, io.visits⟩, fun P hs => Prog.returns_map.mpr (h _ (Prog.returns_map.mp hs))⟩
  | getOrgPlanDetails path =>
    obtain rfl : path = orgId := own
    obtain ⟨io', h⟩ := getOrgPlanDetails_congr agree (linked.resolve_left id)
    exact ⟨⟨io'.workingHours, io'.features, io.visits⟩, fun P hs => Prog.returns_map.mpr (h _ (Prog.returns_map.mp hs))⟩
  | getSettingsCode =>
    refine ⟨io, fun P hs => Prog.returns_map.mpr ?_⟩
    exact getSettingsCode_congr agree (linked.resolve_left id) (Prog.returns_map.mp hs)
  | getVisitStats path period =>
    obtain rfl : path = orgId := own
    exact ⟨io, fun P hs => Prog.returns_map.mpr (getVisitStats_congr agree (Prog.returns_map.mp hs))⟩
  | getTopEmployees path period =>
    obtain rfl : path = orgId := own
    exact leaderboard_congr io agree (linked.resolve_left id).staff
  | getTopVisitors path period =>
    obtain rfl : path = orgId := own
    exact leaderboard_congr io agree fun _ _ _ => rfl
  | getTopDepartments path period =>
    obtain rfl : path = orgId := own
    have linked := linked.resolve_left id
    refine leaderboard_congr io agree fun visit hvisit horg => ?_
    rw [linked.staff visit hvisit horg]
    cases hstaff : s.staff.find visit.staffId with
    | none => rfl
    | some staff => exact Option.bind_congr fun id hid => linked.department visit hvisit horg staff hstaff id hid
  | getTopReasons path period =>
    obtain rfl : path = orgId := own
    have linked := linked.resolve_left id
    exact leaderboard_congr io agree fun visit hvisit horg =>
      Option.bind_congr fun id hid => linked.reasonOfVisit visit hvisit horg id hid

end Sufficient

/-! ### Reading another organisation -/

section Necessary
variable {q : Request}

/-- An identifier that is none of the given ones. -/
def another (orgId path : String) : String := orgId ++ path ++ "'"

theorem another_ne (orgId path : String) : another orgId path ≠ orgId ∧ another orgId path ≠ path := by
  have hlength : (another orgId path).length = orgId.length + path.length + 1 := by
    simp only [another, String.length_append]
    rfl
  constructor <;> intro h <;> rw [h] at hlength <;> omega

theorem top_singleton {α : Type} (key : String) (value : α) : top [(key, value)] = [{ key, value, count := 1 }] := by
  unfold top objectValues
  cases h : arrayIndex key <;> simp [record, h]

def organization (id email : String) : Organization := { id, name := "", email }

def staff (orgId name : String) : Staff := { id := "", orgId, name, email := "", departmentId := some "" }

def department (orgId name : String) : Department := { id := "", orgId, name }

def reason (orgId name : String) : ReasonOfVisit := { id := "", orgId, name }

/-- A visit that is within every period. -/
def visit (clock : Clock) (orgId : String) : Visit where
  id := ""
  orgId := orgId
  fullName := ""
  visitorOrganization := ""
  email := ""
  reasonId := some ""
  staffId := ""
  startTime := some clock.now
  createdAt := clock.now

theorem whereClause_visit {clock : Clock} {orgId period : String} :
    whereClause clock orgId period (visit clock orgId) = true := by
  have hrange : ∀ start, (getDateRange clock period).1 = some start → start ≤ clock.now := by
    intro start hstart
    unfold getDateRange at hstart
    split at hstart <;> cases hstart
    · exact clock.day_le
    · exact clock.week_le
    · exact clock.month_le
    · exact clock.year_le
  simp only [whereClause, visit, beq_self_eq_true, Bool.true_and, Option.all_eq_true, Option.any_some, decide_eq_true_eq]
  exact fun start hstart => ⟨hrange start hstart, le_refl clock.now⟩

/-- The organisation of the path, and one that is not the token's either with a host, a department and a reason
    of visit of one name. -/
def world (orgId path name : String) (visits : Table Visit) : Db where
  organization := ⟨[organization path "", organization (another orgId path) "'"], by
    simpa [Row.conflict, Row.id, Row.clash, organization] using (another_ne orgId path).2.symm⟩
  visit := visits
  staff := {staff (another orgId path) name}
  department := {department (another orgId path) name}
  reasonOfVisit := {reason (another orgId path) name}

theorem world_wellFormed {orgId path name : String} (clock : Clock) {visits : Table Visit}
    (h : ∀ v ∈ visits, v = visit clock path) : (world orgId path name visits).WellFormed := by
  have path_mem : organization path "" ∈ (world orgId path name visits).organization := List.mem_cons_self
  have another_mem : organization (another orgId path) "'" ∈ (world orgId path name visits).organization :=
    List.mem_cons_of_mem _ List.mem_cons_self
  have self {α : Type} [Row α] (a : α) : a ∈ ({a} : Table α) := Table.mem_singleton.mpr rfl
  exact {
    visit_org := .of_mem path_mem fun v hv _ hid => by obtain rfl := h v hv; exact Option.some.inj hid
    visit_reason := .of_mem (self _) fun v hv _ hid => by obtain rfl := h v hv; exact Option.some.inj hid
    visit_staff := .of_mem (self _) fun v hv _ hid => by obtain rfl := h v hv; exact Option.some.inj hid
    staff_org := .singleton another_mem fun _ => Option.some.inj
    staff_user := fun a ha _ hid => by obtain rfl := Table.mem_singleton.mp ha; cases hid
    staff_department := .singleton (self _) fun _ => Option.some.inj
    department_org := .singleton another_mem fun _ => Option.some.inj
    reasonOfVisit_org := .singleton another_mem fun _ => Option.some.inj }

section Differences
variable {env : Env} {js : Js} {clock : Clock} {orgId userId role path period : String} {name : String}

theorem settingCode_organization (keyNotSet : HttpException) :
    settingCode env keyNotSet (organization path "").settingCodeEncrypted = .ok none := rfl

/-- The details of an organisation without working hours. -/
theorem getOrganizationDetails_found {s : Db} {io : OrganizationService.Io} {found : Organization} {code : Option String}
    (hrole : role ∈ ["Root", "SuperAdmin", "Admin", "System", "Staff"]) (hfind : s.organization.find path = some found)
    (hcode : ∀ keyNotSet, settingCode env keyNotSet found.settingCodeEncrypted = .ok code) (hempty : s.workingHours = ∅) :
    (getOrganizationDetails env io path role).Returns (fun r _ => r = .ok ⟨safeOrg found, [], code⟩) s := by
  have hhours : io.workingHours.rows ((∅ : Table WorkingHours).filter (·.orgId == some found.id)) = [] := RowOrder.rows_nil
  refine (Prog.returns_allowed (not_not.mpr hrole)).mpr ?_
  simp only [Prog.returns_bind, returns_query, Prog.then_ok, Prog.then_error, Prog.returns_orFail, Prog.returns_ofExcept,
    Prog.returns_pure, hfind, hempty, Option.map_some, reduceCtorEq, false_implies, true_and, Option.some.injEq, forall_eq',
    hcode, hhours]

theorem getOrganizationDetails_differs (hrole : role ∈ ["Root", "SuperAdmin", "Admin", "System", "Staff"])
    (hpath : path ≠ orgId) : ¬Noninterfering ⟨env, js, clock, orgId, userId, role, .getOrganizationDetails path⟩ := by
  refine not_noninterfering (s := {}) (t := { organization := {organization path ""} })
    (a := .error (.notFound "Organization doesn't exist.")) (b := .ok (.organization ⟨organization path "", [], none⟩))
    {} {} { organization := .empty_singleton hpath } (fun io => Prog.returns_map.mpr ?_) (fun io => Prog.returns_map.mpr ?_)
    nofun nofun
  · refine (Prog.returns_allowed (not_not.mpr hrole)).mpr ?_
    simp only [Prog.returns_bind, returns_query, Prog.then_ok, Prog.then_error, Prog.returns_orFail, Table.find_empty,
      Option.map_none, reduceCtorEq, false_implies, implies_true, forall_const, and_true]
    rfl
  · exact (getOrganizationDetails_found hrole (Table.find_singleton _) settingCode_organization rfl).mono fun _ _ h =>
      congrArg (Except.map Reply.organization) h

def subscription (orgId : String) : Subscription := { id := "", orgId, planId := "plan", startsAt := 0, endsAt := 0 }

def plan (name : String) : Plan := { id := "plan", code := "", name, billingCycle := .yearly, price := 0 }

/-- An organisation with a plan. -/
def planned (path name : String) : Db where
  organization := {organization path ""}
  subscription := {subscription path}
  plan := {plan name}

theorem planned_wellFormed : (planned path name).WellFormed where
  subscription_org := .singleton (Table.mem_singleton.mpr rfl) fun _ => Option.some.inj
  subscription_plan := .singleton (Table.mem_singleton.mpr rfl) fun _ => Option.some.inj

theorem truthy_planId : truthy (some (subscription path).planId) = some "plan" := by
  change truthy (some "plan") = some "plan"
  decide

/-- The reply about it. -/
def plannedDetails (path name : String) : OrgPlanDetails where
  message := "Organization details fetched successfully."
  safeOrg := organization path ""
  subscription := some (subscription path)
  settingCode := none
  planDetails := some { plan := plan name, features := [] }

theorem getOrgPlanDetails_planned {io : OrganizationService.Io} (hrole : role ∈ ["Root", "SuperAdmin"]) :
    (getOrgPlanDetails env io path role).Returns (fun r _ => r = .ok (plannedDetails path name)) (planned path name) := by
  have horganization : (planned path name).organization.find path = some (organization path "") := Table.find_singleton _
  have hsubscription : (planned path name).subscription.findBy (·.orgId == (organization path "").id) =
      some (subscription path) := Table.findBy_singleton (beq_self_eq_true path)
  have hplan : (planned path name).plan.find "plan" = some (plan name) := Table.find_singleton _
  have hfeatures : io.features.rows ((planned path name).planFeature.filter (·.planId == (plan name).id)) = [] := RowOrder.rows_nil
  refine (Prog.returns_allowed (not_not.mpr hrole)).mpr ?_
  simp only [describePlan, Prog.returns_bind, returns_query, Prog.then_ok, Prog.then_error, Prog.returns_orFail,
    Prog.returns_ofExcept, Prog.returns_pure, horganization, hsubscription, hplan, truthy_planId, hfeatures, Option.map_some,
    reduceCtorEq, false_implies, true_and, Option.some.injEq, forall_eq', settingCode_organization]
  rfl

/-- The plan of an organisation is a row of no organisation. -/
theorem getOrgPlanDetails_differs (hrole : role ∈ ["Root", "SuperAdmin"]) :
    ¬Noninterfering ⟨env, js, clock, orgId, userId, role, .getOrgPlanDetails path⟩ := by
  have answers : ∀ name io, (Request.call ⟨env, js, clock, orgId, userId, role, .getOrgPlanDetails path⟩ io).Returns
      (fun r _ => r = .ok (.plan (plannedDetails path name))) (planned path name) := fun name io =>
    Prog.returns_map.mpr ((getOrgPlanDetails_planned hrole).mono fun _ _ h => congrArg (Except.map Reply.plan) h)
  exact not_noninterfering planned_wellFormed planned_wellFormed {} (answers "A") (answers "B")
    (by simp [plannedDetails, plan]) nofun

/-- The reply tells whether the caller's credential is in another organisation or nowhere. -/
theorem getSettingsCode_differs (hrole : role ∈ ["SuperAdmin"]) :
    ¬Noninterfering ⟨env, js, clock, orgId, userId, role, .getSettingsCode⟩ := by
  have hne := (another_ne orgId "").1
  have hother : ¬some (another orgId "") = some orgId := fun h => hne (Option.some.inj h)
  refine not_noninterfering (s := {})
    (t := { organization := {organization (another orgId "") ""}
            userCredential := {{ id := userId, orgId := some (another orgId ""), email := "", role := .staff }} })
    (a := .error (.notFound "Users doesn't exists.")) (b := .error (.unauthorized "Invalid update attempt.")) {}
    { userCredential_org := .singleton (Table.mem_singleton.mpr rfl) fun _ => Option.some.inj }
    { organization := .empty_singleton hne, userCredential := .empty_singleton hother }
    (fun io => Prog.returns_map.mpr ?_) (fun io => Prog.returns_map.mpr ?_) nofun nofun
  · refine (Prog.returns_allowed (not_not.mpr hrole)).mpr ?_
    simp only [Prog.returns_bind, returns_query, Prog.then_ok, Prog.then_error, Prog.returns_orFail, Table.find_empty,
      reduceCtorEq, false_implies, implies_true, forall_const, and_true]
    rfl
  · have hfind : ({{ id := userId, orgId := some (another orgId ""), email := "", role := .staff }} :
        Table UserCredential).find userId = some { id := userId, orgId := some (another orgId ""), email := "", role := .staff } :=
      Table.find_singleton _
    refine (Prog.returns_allowed (not_not.mpr hrole)).mpr ?_
    simp only [Prog.returns_bind, returns_query, Prog.then_ok, Prog.then_error, Prog.returns_orFail, Prog.returns_failIf, hfind,
      reduceCtorEq, false_implies, true_and, Option.some.injEq, forall_eq', ne_eq]
    exact ⟨fun _ => rfl, fun h => absurd hne h⟩

section Visits
variable {α : Type} {order : RowOrder Visit} {f : Db → Visit → α} {s : Db} {a : α} {P : Except HttpException (List α) → Prop}

theorem findVisits_returns (hvisit : s.visit = {visit clock path}) (hf : f s (visit clock path) = a) (h : P (.ok [a])) :
    (findVisits clock order path period f).Returns (fun r _ => P r) s := by
  rw [findVisits, returns_query, hvisit, Table.filter_singleton whereClause_visit, RowOrder.rows_singleton, List.map_singleton, hf]
  exact h

end Visits

/-- The visits of another organisation may be there or not. -/
theorem world_agree (hpath : path ≠ orgId) :
    Agree orgId (world orgId path name ∅) (world orgId path name {visit clock path}) where
  visit := .empty_singleton hpath

/-- The names of another organisation may be any. -/
theorem names_agree {name' : String} {visits : Table Visit} :
    Agree orgId (world orgId path name visits) (world orgId path name' visits) where
  staff := .singleton (another_ne orgId path).1 (another_ne orgId path).1
  department := .singleton (another_ne orgId path).1 (another_ne orgId path).1
  reasonOfVisit := .singleton (another_ne orgId path).1 (another_ne orgId path).1

theorem quiet_wellFormed (clock : Clock) : (world orgId path name ∅).WellFormed :=
  world_wellFormed clock fun _ hv => absurd hv Table.not_mem_empty

theorem visited_wellFormed : (world orgId path name {visit clock path}).WellFormed :=
  world_wellFormed clock fun _ => Table.mem_singleton.mp

theorem getVisitStats_differs (hpath : path ≠ orgId) :
    ¬Noninterfering ⟨env, js, clock, orgId, userId, role, .getVisitStats path period⟩ := by
  refine not_noninterfering (a := .ok (.stats [{ total := 0, completed := 0, ongoing := 0 }]))
    (b := .ok (.stats [{ total := 1, completed := 0, ongoing := 0 }])) (s := world orgId path "" ∅)
    (t := world orgId path "" {visit clock path}) (quiet_wellFormed clock) visited_wellFormed (world_agree hpath)
    (fun io => Prog.returns_map.mpr rfl) (fun io => Prog.returns_map.mpr ?_) (by simp) nofun
  have hvisit : ({visit clock path} : Table Visit).filter (whereClause clock path period) = [visit clock path] :=
    Table.filter_singleton whereClause_visit
  have hother : ∀ status, status ≠ .pending → ({visit clock path} : Table Visit).filter (fun visit =>
      whereClause clock path period visit && visit.status == status) = [] := fun status hstatus =>
    Table.filter_singleton_of_not (Bool.and_eq_false_iff.mpr (Or.inr (beq_false_of_ne hstatus.symm)))
  simp only [getVisitStats, Prog.returns_bind, Prog.then_ok, returns_query, Prog.returns_pure, world, hvisit,
    hother .completed (by decide), hother .ongoing (by decide)]
  rfl

theorem getTopVisitors_differs (hpath : path ≠ orgId) :
    ¬Noninterfering ⟨env, js, clock, orgId, userId, role, .getTopVisitors path period⟩ := by
  refine not_noninterfering (a := .ok (.visitors [])) (b := .ok (.visitors [{ name := "", email := "", count := 1 }]))
    (s := world orgId path "" ∅) (t := world orgId path "" {visit clock path}) (quiet_wellFormed clock) visited_wellFormed
    (world_agree hpath) (fun io => Prog.returns_map.mpr (Prog.returns_map.mpr ?_))
    (fun io => Prog.returns_map.mpr (Prog.returns_map.mpr (findVisits_returns rfl rfl ?_))) (by simp) nofun
  · have hnone : (world orgId path "" ∅).visit.filter (whereClause clock path period) = [] := rfl
    rw [findVisits, returns_query]
    simp only [hnone, RowOrder.rows_nil]
    rfl
  · simp only [Except.map, List.map_cons, List.map_nil, top_singleton]
    rfl

/-- A leaderboard that shows a name of another organisation. -/
theorem entries_differ (path : String) {op : Operation} (answers : ∀ name io, name ≠ "" →
    (Request.call ⟨env, js, clock, orgId, userId, role, op⟩ io).Returns (fun r _ => r = .ok (.entries [{ name, count := 1 }]))
      (world orgId path name {visit clock path})) : ¬Noninterfering ⟨env, js, clock, orgId, userId, role, op⟩ :=
  not_noninterfering visited_wellFormed visited_wellFormed names_agree (answers "A" · (by decide)) (answers "B" · (by decide))
    (by simp) nofun

theorem orElse_some {text default : String} (h : text ≠ "") : orElse (some text) default = text := by
  have htruthy : truthy (some text) = some text := truthy_eq_some.mpr ⟨rfl, h⟩
  rw [orElse, htruthy, Option.getD_some]

/-- The leaderboard of one text. -/
theorem topTexts_singleton {text default : String} (h : text ≠ "") :
    topTexts [orElse (some text) default] = [{ name := text, count := 1 }] := by
  rw [orElse_some h, topTexts, List.map_singleton, top_singleton, List.map_singleton]

/-- The host of a visit may be a staff member of another organisation. -/
theorem getTopEmployees_differs : ¬Noninterfering ⟨env, js, clock, orgId, userId, role, .getTopEmployees path period⟩ := by
  refine entries_differ path fun name io hname => Prog.returns_map.mpr (Prog.returns_map.mpr ?_)
  refine findVisits_returns rfl (Table.find_singleton (staff (another orgId path) name)) ?_
  simp only [Except.map, List.filterMap_cons, Option.map_some, List.filterMap_nil, top_singleton]
  exact congrArg (fun name => Except.ok (Reply.entries [{ name, count := 1 }])) (orElse_some hname)

/-- So may the department of the host. -/
theorem getTopDepartments_differs : ¬Noninterfering ⟨env, js, clock, orgId, userId, role, .getTopDepartments path period⟩ := by
  refine entries_differ path fun name io hname => Prog.returns_map.mpr (Prog.returns_map.mpr ?_)
  refine findVisits_returns rfl (Table.find_singleton (department (another orgId path) name)) ?_
  exact congrArg (fun entries => Except.ok (Reply.entries entries)) (topTexts_singleton hname)

/-- So may the reason of a visit. -/
theorem getTopReasons_differs : ¬Noninterfering ⟨env, js, clock, orgId, userId, role, .getTopReasons path period⟩ := by
  refine entries_differ path fun name io hname => Prog.returns_map.mpr (Prog.returns_map.mpr ?_)
  refine findVisits_returns rfl (Table.find_singleton (reason (another orgId path) name)) ?_
  exact congrArg (fun entries => Except.ok (Reply.entries entries)) (topTexts_singleton hname)

end Differences

end Necessary

/-- Any two well-formed states that agree on the rows of the token's organisation give the same answers, exactly
    if the caller's role is refused, or the request is for the own organisation and reads only rows of it. If
    the states agree as well on the rows that these refer to and on the caller's credential, every request for
    the own organisation has the same answers. -/
theorem reads_within_tenant (q : Request) :
    (Noninterfering q ↔ Refused q ∨ (Own q ∧ Direct q)) ∧
    (Own q → ∀ s t, Agree q.orgId s t → Linked q.orgId q.userId s t → ∀ r, Answers q s r ↔ Answers q t r) := by
  refine ⟨⟨fun secure => ?_, ?_⟩, fun own s t agree linked r => ⟨answers_of_own own agree (Or.inr linked),
    answers_of_own own agree.symm (Or.inr (linked.symm agree))⟩⟩
  · obtain ⟨env, js, clock, orgId, userId, role, op⟩ := q
    cases op with
    | getOrganizationDetails path =>
      refine or_iff_not_imp_left.mpr fun allowed => ⟨?_, trivial⟩
      by_contra hpath
      exact getOrganizationDetails_differs (not_not.mp allowed) hpath secure
    | getOrgPlanDetails path =>
      exact Or.inl fun hrole => getOrgPlanDetails_differs hrole secure
    | getSettingsCode => exact Or.inl fun hrole => getSettingsCode_differs hrole secure
    | getVisitStats path period =>
      refine Or.inr ⟨?_, trivial⟩
      by_contra hpath
      exact getVisitStats_differs hpath secure
    | getTopEmployees path period => exact absurd secure getTopEmployees_differs
    | getTopVisitors path period =>
      refine Or.inr ⟨?_, trivial⟩
      by_contra hpath
      exact getTopVisitors_differs hpath secure
    | getTopDepartments path period => exact absurd secure getTopDepartments_differs
    | getTopReasons path period => exact absurd secure getTopReasons_differs
  · rintro (refused | ⟨own, direct⟩) s t - - agree r
    · exact ⟨answers_of_refused refused, answers_of_refused refused⟩
    · exact ⟨answers_of_own own agree (Or.inl direct), answers_of_own own agree.symm (Or.inl direct)⟩

/-! ### Two organisations -/

namespace Rivals

def encryptionKey : String := "000102030405060708090a0b0c0d0e0f101112131415161718191a1b1c1d1e1f"

/-- The decryption of two setting codes under the key. -/
def decipher (key : String) (iv authTag encrypted : Option String) : Except HttpException String :=
  if key = encryptionKey then
    match iv, authTag, encrypted with
    | some "00112233445566778899aabbccddeeff", some "945ae69832dbe17dea121470dcc2e048", some "2ab5d741" => .ok "1234"
    | some "ffeeddccbbaa99887766554433221100", some "11cd747b5ed9297f3f4740476caa9cde", some "de1b5629" => .ok "5678"
    | _, _, _ => .error (.error "Unsupported state or unable to authenticate data")
  else .error (.error "Unsupported state or unable to authenticate data")

def env : Env := { encryptionKey, crypto := { decipher } }

/-- The two codes as they are stored. -/
def encrypted1234 : String := "00112233445566778899aabbccddeeff:945ae69832dbe17dea121470dcc2e048:2ab5d741"

def encrypted5678 : String := "ffeeddccbbaa99887766554433221100:11cd747b5ed9297f3f4740476caa9cde:de1b5629"

def clock : Clock := ⟨0, 0, 0, 0, 0, le_refl 0, le_refl 0, le_refl 0, le_refl 0⟩

/-- The other organisation with its setting code. -/
def rival (settingCodeEncrypted : String) : Organization :=
  { id := "rival", name := "Rival", email := "rival@mail.com", settingCodeEncrypted }

def db (settingCodeEncrypted : String) : Db := { organization := {rival settingCodeEncrypted} }

/-- A staff member asks for the details of the other organisation. -/
def spy : Request where
  env := env
  js := { toLowerCase := id, trim := id, toLocaleString := fun _ => "" }
  clock := clock
  orgId := "org"
  userId := "ann-user"
  role := "Staff"
  op := .getOrganizationDetails "rival"

/-- The other organisation asks for its own details and plan. -/
def own : Request := { spy with orgId := "rival" }

def ownPlan : Request := { spy with orgId := "rival", role := "SuperAdmin", op := .getOrgPlanDetails "rival" }

/-- The same organisation with another one beside it. -/
def beside (settingCodeEncrypted : String) : Db where
  organization := ⟨[rival settingCodeEncrypted, organization "org" "org@mail.com"], by
    simp [Row.conflict, Row.id, Row.clash, rival, organization]⟩

end Rivals

section Rivals
open Rivals

theorem spy_answers {encrypted code : String} (hne : encrypted ≠ "")
    (hcode : decrypt env.crypto encrypted encryptionKey = .ok code) (io : Io) :
    (spy.call io).Returns (fun r _ => r = .ok (.organization ⟨safeOrg (rival encrypted), [], some code⟩)) (db encrypted) := by
  have hrole : "Staff" ∈ ["Root", "SuperAdmin", "Admin", "System", "Staff"] := by decide
  have hfind : (db encrypted).organization.find "rival" = some (rival encrypted) := Table.find_singleton _
  have hstored : truthy (rival encrypted).settingCodeEncrypted = some encrypted := truthy_eq_some.mpr ⟨rfl, hne⟩
  have hkey : truthy env.encryptionKey = some encryptionKey := truthy_eq_some.mpr ⟨rfl, by decide⟩
  have hsetting : ∀ keyNotSet, settingCode env keyNotSet (rival encrypted).settingCodeEncrypted = .ok (some code) := by
    intro keyNotSet
    rw [settingCode, hstored, hkey]
    simp only [hcode]
    rfl
  exact Prog.returns_map.mpr ((getOrganizationDetails_found hrole hfind hsetting rfl).mono fun _ _ h =>
    congrArg (Except.map Reply.organization) h)

theorem reads_within_tenant_rivals : Noninterfering own ∧
    ∀ r, Answers ownPlan (db encrypted1234) r ↔ Answers ownPlan (beside encrypted1234) r := by
  refine ⟨(reads_within_tenant own).1.mpr (Or.inr ⟨rfl, trivial⟩), (reads_within_tenant ownPlan).2 rfl _ _ ?_ ?_⟩
  · refine { organization := fun stored hid => ?_ }
    have hne : stored ≠ organization "org" "org@mail.com" := by
      rintro rfl
      exact absurd hid (by decide)
    show stored ∈ [rival encrypted1234, organization "org" "org@mail.com"] ↔ stored ∈ [rival encrypted1234]
    simp [hne]
  · have none {α : Type} [Row α] {P : α → Prop} : ∀ a ∈ (∅ : Table α), P a := fun _ ha => absurd ha Table.not_mem_empty
    exact ⟨none, none, none, none, rfl⟩

/-- The reply contains the other organisation's decrypted setting code. -/
theorem setting_code_disclosed : ¬Noninterfering spy := by
  have first : ∀ io, (spy.call io).Returns (fun r _ => r = .ok (.organization ⟨safeOrg (rival encrypted1234), [], some "1234"⟩))
      (db encrypted1234) := spy_answers (by decide) (by decide +kernel)
  have second : ∀ io, (spy.call io).Returns (fun r _ => r = .ok (.organization ⟨safeOrg (rival encrypted5678), [], some "5678"⟩))
      (db encrypted5678) := spy_answers (by decide) (by decide +kernel)
  refine not_noninterfering {} {} { organization := .singleton (by decide) (by decide) } first second (fun h => ?_) nofun
  exact absurd (Reply.organization.inj (Except.ok.inj h)) (by decide)

end Rivals

end Vms.Disclosure
