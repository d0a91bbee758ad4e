import Vms.Lib.System
import Vms.Plan
import Vms.Theorems.Organization.Step

/-! Whether a disabled plan has active subscriptions. A plan is not disabled while it has one, and a
    subscription is moved to an active plan only; but the plan that an organisation is created with may be
    disabled already. -/

namespace Vms.Plans
open Relational HttpException OrganizationService PlanService

/-! ### Requests -/

inductive Operation where
  | createPlan (io : PlanService.Io) (dto : CreatePlanDto)
  | updatePlan (io : PlanService.Io) (planId : String) (dto : UpdatePlanDto)
  | softDeletePlan (planId : String)
  | createOrganization (io : ChangeIo) (role : String) (dto : CreateOrganizationDto) (logo : Bool)
  | updateSubscription (io : ChangeIo) (userId role orgId : String) (dto : UpdateSubscriptionDto)
  | deleteOrganization (orgId role : String)

def perform (js : Js) : Operation → Service Unit
  | .createPlan io dto => do let _ ← createPlan io dto
  | .updatePlan io planId dto => do let _ ← updatePlan io planId dto
  | .softDeletePlan planId => do let _ ← softDeletePlan planId
  | .createOrganization io role dto logo => do let _ ← createOrganization js io role dto logo
  | .updateSubscription io userId role orgId dto => do let _ ← updateSubscription io userId role orgId dto
  | .deleteOrganization orgId role => do let _ ← deleteOrganization orgId role

/-! ### The invariant -/

/-- The plan is not disabled. -/
def Enabled (s : Db) (planId : String) : Prop := ∀ plan ∈ s.plan, plan.id = planId → plan.isActive = true

/-- No active subscription is to a disabled plan. -/
def NoneDisabled (s : Db) : Prop :=
  ∀ subscription ∈ s.subscription, subscription.status = .active → Enabled s subscription.planId

section Writes
variable {s t u : Db}

theorem enabled_of_mem {plan : Plan} (hmem : plan ∈ s.plan) (hactive : plan.isActive = true) : Enabled s plan.id := by
  intro other hother hid
  obtain rfl : other = plan := Table.eq_of_id hother hmem hid
  exact hactive

theorem NoneDisabled.subscribe (h : NoneDisabled s) {subscription : Subscription} {u : Table Subscription}
    (hu : s.subscription.insert subscription = some u) (plans : t.plan = s.plan) (subscriptions : t.subscription = u)
    (enabled : Enabled s subscription.planId) : NoneDisabled t := by
  intro other hother hactive plan hplan hid
  rw [plans] at hplan
  rw [subscriptions] at hother
  rcases (Table.mem_insert hu).mp hother with hold | rfl
  · exact h other hold hactive plan hplan hid
  · exact enabled plan hplan hid

/-- The plan service changes plans and features, and disables no plan, apart from `softDeletePlan`. -/
structure Priced (s t : Db) : Prop where
  subscriptions : t.subscription = s.subscription
  plans : ∀ plan ∈ t.plan, plan.isActive = true ∨ ∃ old ∈ s.plan, old.id = plan.id ∧ old.isActive = plan.isActive

theorem Priced.refl (s : Db) : Priced s s := ⟨rfl, fun plan hplan => Or.inr ⟨plan, hplan, rfl, rfl⟩⟩

theorem Priced.features {v : Table PlanFeature} : Priced s { s with planFeature := v } := ⟨rfl, (Priced.refl s).plans⟩

theorem Priced.trans (h : Priced s t) (h' : Priced t u) : Priced s u where
  subscriptions := h'.subscriptions.trans h.subscriptions
  plans := by
    intro plan hplan
    rcases h'.plans plan hplan with hactive | ⟨mid, hmid, hid, hsame⟩
    · exact Or.inl hactive
    · rcases h.plans mid hmid with hactive | ⟨old, hold, hid', hsame'⟩
      · exact Or.inl (hsame.symm.trans hactive)
      · exact Or.inr ⟨old, hold, hid'.trans hid, hsame'.trans hsame⟩

theorem NoneDisabled.price (h : NoneDisabled s) (priced : Priced s t) : NoneDisabled t := by
  intro subscription hsub hactive plan hplan hid
  rw [priced.subscriptions] at hsub
  rcases priced.plans plan hplan with hplan | ⟨old, hold, hid', hsame⟩
  · exact hplan
  · exact hsame.symm.trans (h subscription hsub hactive old hold (hid'.trans hid))

end Writes

/-! ### Plans -/

section Plans
variable {io : PlanService.Io} {s : Db} {planId : String}

theorem insertPlan_priced {plan : Plan} (hactive : plan.isActive = true) :
    (insertPlan plan).Post (fun _ t => Priced s t) s := by
  rw [insertPlan, post_mutate]
  refine ⟨⟨fun _ _ => Priced.refl s, fun a t h => ?_⟩, Priced.refl s⟩
  split at h
  · cases h
  · obtain ⟨-, rfl, u, hu, rfl⟩ := created_eq_ok.mp h
    refine ⟨rfl, fun plan hplan => ?_⟩
    rcases (Table.mem_insert hu).mp hplan with hold | rfl
    · exact Or.inr ⟨plan, hold, rfl, rfl⟩
    · exact Or.inl hactive

theorem insertFeature_priced {feature : PlanFeature} : (insertFeature feature).Post (fun _ t => Priced s t) s := by
  rw [insertFeature, post_mutate]
  refine ⟨⟨fun _ _ => Priced.refl s, fun a t h => ?_⟩, Priced.refl s⟩
  unfold created at h
  split at h
  · cases h
  · split at h
    · split at h <;> cases h
      exact Priced.features
    · cases h

theorem updateFeature_priced {f : PlanFeatureDto} : (updateFeature planId f).Post (fun _ t => Priced s t) s := by
  rw [updateFeature, post_mutate]
  refine ⟨⟨fun _ _ => Priced.refl s, fun a t h => ?_⟩, Priced.refl s⟩
  split at h
  · cases h
  · split at h <;> cases h
    exact Priced.features

theorem createFeatures_priced {features : List PlanFeatureDto} :
    (createFeatures io planId features).Post (fun _ t => Priced s t) s := by
  refine Prog.Post.transaction_rel (Priced.refl s) ?_
  induction features generalizing s with
  | nil => exact Priced.refl s
  | cons f features ih => exact Prog.Post.bind_rel Priced.trans insertFeature_priced fun _ _ _ => ih

theorem createPlan_priced {dto : CreatePlanDto} : (createPlan io dto).Post (fun _ t => Priced s t) s := by
  simp only [createPlan, Prog.post_bind, Prog.post_failIf, Prog.then_ok, Prog.then_error, post_query, Priced.refl, implies_true,
    true_and, and_true]
  rintro - - -
  refine Prog.Post.transaction_rel (Priced.refl s) ?_
  refine Prog.Post.bind_rel Priced.trans (insertPlan_priced rfl) fun plan t _ => ?_
  refine Prog.Post.bind_rel Priced.trans createFeatures_priced fun _ v _ => ?_
  simp only [Prog.post_bind, post_query, Prog.then_ok, Prog.then_error, Prog.post_pure, Priced.refl, and_self]

theorem setFeature_priced {existing : List FeatureCode} {f : PlanFeatureDto} :
    (setFeature io planId existing f).Post (fun _ t => Priced s t) s := by
  unfold setFeature
  split
  · exact updateFeature_priced
  · exact insertFeature_priced

theorem setFeatures_priced {existing : List FeatureCode} {features : List PlanFeatureDto} :
    (setFeatures io planId existing features).Post (fun _ t => Priced s t) s := by
  induction features generalizing s with
  | nil => exact Priced.refl s
  | cons f features ih => exact Prog.Post.bind_rel Priced.trans setFeature_priced fun _ _ _ => ih

theorem updatePlanFeatures_priced {features : Option (List PlanFeatureDto)} :
    (updatePlanFeatures io planId features).Post (fun _ t => Priced s t) s := by
  cases features with
  | none => exact Priced.refl s
  | some features =>
    rw [updatePlanFeatures, Prog.post_bind, post_query]
    refine ⟨?_, Priced.refl s⟩
    refine Prog.Post.bind_rel Priced.trans setFeatures_priced fun _ t _ => ?_
    rw [deleteFeatures, post_mutate_ok]
    exact ⟨Priced.features, Priced.refl t⟩

theorem updatePlanRow_priced {change : Plan → Plan} {keys : Row.Fixes change}
    (same : ∀ plan, (change plan).isActive = plan.isActive) :
    (updatePlanRow planId change keys).Post (fun _ t => Priced s t) s := by
  rw [updatePlanRow, post_mutate_ite]
  refine ⟨⟨fun _ => Priced.refl s, fun _ => ⟨rfl, fun plan hplan => ?_⟩⟩, Priced.refl s⟩
  have hplan : plan ∈ s.plan.update (·.id == planId) change keys := hplan
  rcases Table.mem_update_cases hplan with ⟨hold, -⟩ | ⟨old, hold, -, rfl⟩
  · exact Or.inr ⟨plan, hold, rfl, rfl⟩
  · exact Or.inr ⟨old, hold, (keys.1 old).symm, (same old).symm⟩

theorem updatePlan_priced {dto : UpdatePlanDto} : (updatePlan io planId dto).Post (fun _ t => Priced s t) s := by
  simp only [updatePlan, Prog.post_bind, Prog.post_orFail, Prog.then_ok, Prog.then_error, post_query, Priced.refl, implies_true,
    true_and, and_true]
  rintro plan -
  rw [← Prog.post_bind]
  refine Prog.Post.bind_rel Priced.trans (Prog.Post.transaction_rel (Priced.refl s) ?_) fun _ t _ => Priced.refl t
  simp only [Prog.post_bind, Prog.post_failIf, Prog.then_ok, Prog.then_error, Priced.refl, implies_true, true_and]
  rintro - -
  rw [← Prog.post_bind]
  exact Prog.Post.bind_rel Priced.trans (updatePlanRow_priced fun _ => rfl) fun _ _ _ => updatePlanFeatures_priced

/-- A plan is disabled when it has no active subscription. -/
theorem softDeletePlan_noneDisabled (h : NoneDisabled s) : (softDeletePlan planId).Post (fun _ t => NoneDisabled t) s := by
  simp only [softDeletePlan, Prog.post_bind, Prog.post_orFail, Prog.then_ok, Prog.then_error, post_query, h, implies_true, true_and,
    and_true]
  rintro plan -
  split
  · simp only [disablePlan, updatePlanRow, Prog.post_bind, Prog.post_failIf, Prog.then_ok, Prog.then_error, post_query,
      post_mutate_ite, Prog.post_pure, h, implies_true, true_and, and_true]
    intro hnone hfind subscription hsub hactive other hother hid
    have hother : other ∈ s.plan.update (·.id == planId) fun plan => { plan with isActive := false } := hother
    rcases Table.mem_update_cases hother with ⟨hold, -⟩ | ⟨old, -, hof, rfl⟩
    · exact h subscription hsub hactive other hold hid
    · refine absurd (List.length_pos_of_mem (a := subscription) (Table.mem_filter.mpr ⟨hsub, ?_⟩)) hnone
      rw [Bool.and_eq_true, beq_iff_eq, beq_iff_eq]
      exact ⟨hid.symm.trans (beq_iff_eq.mp hof), hactive⟩
  · exact h

end Plans

/-! ### Subscriptions -/

section Subscriptions
variable {js : Js} {io : ChangeIo} {s t : Db} {orgId userId role planId : String} {logo : Bool}

/-- The organisation that is created keeps the invariant exactly if its plan is not disabled. -/
theorem noneDisabled_of_founded (h : NoneDisabled s) {dto : CreateOrganizationDto} (founded : Founded js io s role dto t) :
    NoneDisabled t ↔ Enabled s dto.planId := by
  obtain ⟨-, -, -, subscribed, active, -, -, toPlan⟩ := founded
  constructor
  · intro ht
    rw [← toPlan]
    exact ht _ ((Table.mem_insert subscribed).mpr (Or.inr rfl)) active
  · intro enabled
    rw [← toPlan] at enabled
    exact h.subscribe subscribed rfl rfl enabled

theorem noneDisabled_of_moved (h : NoneDisabled s) (moved : Moved s orgId planId t) : NoneDisabled t := by
  cases moved with
  | @moved plan startsAt endsAt planMem id active =>
    intro subscription hsub hactive
    have hsub : subscription ∈ s.subscription.update (·.orgId == orgId) fun subscription =>
      { subscription with planId, startsAt, endsAt } := hsub
    rcases Table.mem_update_cases hsub with ⟨hold, -⟩ | ⟨old, -, -, rfl⟩
    · exact h subscription hold hactive
    · show Enabled s planId
      rw [← id]
      exact enabled_of_mem planMem active
  | subscribed planMem id active toPlan stored =>
    refine h.subscribe stored rfl rfl ?_
    rw [toPlan, ← id]
    exact enabled_of_mem planMem active

theorem noneDisabled_deleteOrganization (h : NoneDisabled s) : NoneDisabled (s.deleteOrganization orgId) :=
  fun subscription hsub => h subscription (Table.mem_delete.mp hsub).1

theorem createOrganization_noneDisabled (h : NoneDisabled s) {dto : CreateOrganizationDto}
    (enabled : Admitted js io s role dto → Enabled s dto.planId) :
    (createOrganization js io role dto logo).Post (fun _ t => NoneDisabled t) s := by
  refine createOrganization_post.mono fun r t attempt => ?_
  rcases attempt with founded | ⟨rfl, -⟩
  · exact (noneDisabled_of_founded h founded).mpr (enabled founded.admitted)
  · exact h

theorem updateSubscription_noneDisabled (h : NoneDisabled s) {dto : UpdateSubscriptionDto} :
    (updateSubscription io userId role orgId dto).Post (fun _ t => NoneDisabled t) s :=
  Post.state_of_allOrNothing updateSubscription_post h fun _ _ moved => noneDisabled_of_moved h moved

theorem deleteOrganization_noneDisabled (h : NoneDisabled s) :
    (deleteOrganization orgId role).Post (fun _ t => NoneDisabled t) s := by
  refine Post.state_of_allOrNothing deleteOrganization_post h fun _ t deleted => ?_
  rw [deleted]
  exact noneDisabled_deleteOrganization h

end Subscriptions

/-! ### Runs -/

/-- Requests one after another, each in one of its executions. -/
def system (js : Js) : System Db Operation where
  init := NoneDisabled
  step s q t := ∃ r, Prog.Exec (perform js q) s r t

/-- A creation that passes its checks does not name a disabled plan. -/
def Guarded (js : Js) (s : Db) : Operation → Prop
  | .createOrganization io role dto _ => Admitted js io s role dto → Enabled s dto.planId
  | _ => True

theorem perform_noneDisabled {js : Js} {s : Db} (h : NoneDisabled s) {q : Operation} (guarded : Guarded js s q) :
    (perform js q).Post (fun _ t => NoneDisabled t) s := by
  cases q with
  | createPlan io dto => exact Prog.post_discard.mpr (createPlan_priced.mono fun _ _ => h.price)
  | updatePlan io planId dto => exact Prog.post_discard.mpr (updatePlan_priced.mono fun _ _ => h.price)
  | softDeletePlan planId => exact Prog.post_discard.mpr (softDeletePlan_noneDisabled h)
  | createOrganization io role dto logo => exact Prog.post_discard.mpr (createOrganization_noneDisabled h guarded)
  | updateSubscription io userId role orgId dto => exact Prog.post_discard.mpr (updateSubscription_noneDisabled h)
  | deleteOrganization orgId role => exact Prog.post_discard.mpr (deleteOrganization_noneDisabled h)

theorem noneDisabled_of_reach {js : Js} {s : Db} (h : (system js).Reach (Guarded js) s) : NoneDisabled s :=
  h.invariant (fun _ => id) fun _ _ _ _ ih guarded hstep => by
    obtain ⟨r, hexec⟩ := hstep
    exact (perform_noneDisabled ih guarded).of_exec hexec

/-- In a run in which no organisation is created with a disabled plan, no active subscription is ever to a
    disabled plan; and a creation that is accepted keeps it so only if its plan is not disabled. -/
theorem disabled_plan_unused (js : Js) :
    (∀ s, (system js).Reach (Guarded js) s → NoneDisabled s) ∧
    ∀ s io role dto logo reply t, NoneDisabled s →
      Prog.Exec (createOrganization js io role dto logo) s (.ok reply) t → (NoneDisabled t ↔ Enabled s dto.planId) := by
  refine ⟨fun s h => noneDisabled_of_reach h, fun s io role dto logo reply t h hexec => ?_⟩
  rcases createOrganization_post.of_exec hexec with founded | ⟨-, e, he⟩
  · exact noneDisabled_of_founded h founded
  · cases he

/-! ### A plan out of use -/

namespace Retired

def plain : Js := { toLowerCase := id, trim := id, toLocaleString := fun _ => "" }

def basic : Plan := { id := "basic", code := "BASIC", name := "Basic", billingCycle := .monthly, price := 10 }

def start : Db := { plan := {basic} }

def changeIo : ChangeIo where
  organizationId := "org"
  subscriptionId := "sub"
  workingHoursId _ := "hours"
  logoUrl := ""
  encryptionKey := some "key"
  cipher := { iv := "iv", cipher := fun _ _ text => .ok ("tag", text) }
  newDate text := some text.length
  dateTime text := some text.length

def dto : CreateOrganizationDto where
  name := "Office"
  email := "office@mail.com"
  timezone := "UTC"
  address := "Street 1"
  contactNumber := "1"
  contactPerson := "Ann"
  settingCode := "1234"
  accountLimit := 1
  planId := "basic"
  startsAt := "2025"
  endsAt := "2025-02"

def create : Operation := .createOrganization changeIo "Root" dto false

def after (s : Db) (q : Operation) : Db := ((perform plain q).run s).2

theorem step_after (s : Db) (q : Operation) : (system plain).step s q (after s q) := ⟨_, Prog.exec_run (perform plain q) s⟩

theorem noneDisabled_start : NoneDisabled start := fun _ hsub => absurd hsub Table.not_mem_empty

/-- The creation as a service call. -/
def creation : Service CreateOrganizationReply := createOrganization plain changeIo "Root" dto false

/-- An organisation is created with a plan that is then disabled in vain. -/
theorem disabled_plan_unused_kept : NoneDisabled (after (after start create) (.softDeletePlan "basic")) ∧
    (NoneDisabled (creation.run start).2 ↔ Enabled start dto.planId) := by
  have hcreate : Guarded plain start create := by
    rintro - plan hplan -
    obtain rfl := Table.mem_singleton.mp hplan
    rfl
  have hdelete : Guarded plain (after start create) (.softDeletePlan "basic") := trivial
  have hreply : ∃ reply, (creation.run start).1 = .ok reply := ⟨_, rfl⟩
  obtain ⟨reply, hreply⟩ := hreply
  refine ⟨?_, ?_⟩
  · exact (disabled_plan_unused plain).1 _
      (.step (.step (.init noneDisabled_start) hcreate (step_after _ create)) hdelete (step_after _ (.softDeletePlan "basic")))
  · refine (disabled_plan_unused plain).2 _ changeIo "Root" dto false reply _ noneDisabled_start ?_
    rw [← hreply]
    exact Prog.exec_run creation start

/-- The plan is disabled first, and the organisation created with it then. -/
theorem disabled_plan_used : ¬∀ s, (system plain).Reachable s → NoneDisabled s := fun h => by
  have hreach : (system plain).Reachable ([.softDeletePlan "basic", create].foldl after start) :=
    System.Reach.foldl step_after (.init noneDisabled_start) fun _ _ _ => trivial
  have used : ∃ subscription ∈ ([.softDeletePlan "basic", create].foldl after start).subscription,
      subscription.status = .active ∧ ∃ plan ∈ ([.softDeletePlan "basic", create].foldl after start).plan,
        plan.id = subscription.planId ∧ plan.isActive = false := by decide
  obtain ⟨subscription, hsub, hactive, plan, hplan, hid, hdisabled⟩ := used
  rw [h _ hreach subscription hsub hactive plan hplan hid] at hdisabled
  cases hdisabled

end Retired

end Vms.Plans
