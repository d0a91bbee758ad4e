import Vms.Attendance

/-! The plan service (`src/plan/plan.service.ts`): plans and their features. A plan is never deleted, only
    disabled. -/

namespace Vms
open Relational HttpException

namespace PlanService
open Attendance (fitsInt)

structure PlanFeatureDto where
  feature : FeatureCode
  limit : Option Int := none

structure CreatePlanDto where
  code : String
  name : String
  price : Int
  billingCycle : BillingCycle
  description : Option String := none
  features : List PlanFeatureDto

/-- An optional field of a request may be left out, or be null. -/
structure UpdatePlanDto where
  name : Option (Option String) := none
  billingCycle : Option (Option BillingCycle) := none
  price : Option (Option Int) := none
  description : Option (Option String) := none
  features : Option (List PlanFeatureDto) := none

/-- What a request draws from outside: the identifiers of the rows it creates, and the order of features. -/
structure Io where
  planId : String
  featureId : FeatureCode → String
  features : RowOrder PlanFeature

structure CreatePlanReply where
  planDetails : Plan
  planFeatures : List PlanFeature
  deriving DecidableEq

/-! ### Statements -/

def insertPlan (plan : Plan) : Service Plan :=
  mutate fun s =>
    if !fitsInt plan.price then .error outOfRange
    else created true plan (s.plan.insert plan) fun u => { s with plan := u }

def updatePlanRow (id : String) (change : Plan → Plan)
    (keys : Row.Fixes change := by exact ⟨fun _ => rfl, fun _ _ => rfl⟩) : Service Unit :=
  mutate fun s =>
    if (s.plan.find id).isNone then .error rowNotFound
    else .ok ((), { s with plan := s.plan.update (·.id == id) change keys })

def newFeature (io : Io) (planId : String) (f : PlanFeatureDto) : PlanFeature :=
  { id := io.featureId f.feature, planId, feature := f.feature, limit := f.limit }

def insertFeature (feature : PlanFeature) : Service Unit :=
  mutate fun s =>
    if !feature.limit.all fitsInt then .error outOfRange
    else (created (s.plan.find feature.planId).isSome feature (s.planFeature.insert feature) fun u =>
      { s with planFeature := u }).map fun (_, t) => ((), t)

def updateFeature (planId : String) (f : PlanFeatureDto) : Service Unit :=
  let ofPlan (feature : PlanFeature) : Bool := feature.planId == planId && feature.feature == f.feature
  mutate fun s =>
    if !f.limit.all fitsInt then .error outOfRange
    else if (s.planFeature.findBy ofPlan).isNone then .error rowNotFound
    else .ok ((), { s with planFeature := s.planFeature.update ofPlan fun feature => { feature with limit := f.limit } })

def deleteFeatures (planId : String) (kept : List FeatureCode) : Service Unit :=
  mutate fun s => .ok ((), { s with
    planFeature := s.planFeature.delete fun feature => feature.planId == planId && !kept.contains feature.feature })

/-- `createMany`: one statement, which inserts all rows or none. -/
def createFeatures (io : Io) (planId : String) (features : List PlanFeatureDto) : Service Unit :=
  transaction (features.foldr (fun f rest => do insertFeature (newFeature io planId f); rest) (pure ()))

/-! ### Operations -/

def createPlan (io : Io) (dto : CreatePlanDto) : Service CreatePlanReply := do
  Prog.failIf (dto.features = []) (.badRequest "A plan must have at least one feature.")
  Prog.failIf (¬(dto.features.map (·.feature)).Nodup) (.badRequest "Duplicate features are not allowed.")
  let planExists ← query fun s => s.plan.findBy (·.code == dto.code)
  Prog.failIf planExists.isSome (.badRequest "A plan with same code already exists.")
  transaction do
    let plan ← insertPlan {
      id := io.planId
      code := dto.code, name := dto.name, price := dto.price, billingCycle := dto.billingCycle, description := dto.description }
    createFeatures io plan.id dto.features
    let planFeatures ← query fun s => io.features.rows (s.planFeature.filter (·.planId == plan.id))
    return { planDetails := plan, planFeatures }

/-- A feature that the plan had before is updated, another one is created. -/
def setFeature (io : Io) (planId : String) (existing : List FeatureCode) (f : PlanFeatureDto) : Service Unit :=
  if existing.contains f.feature then updateFeature planId f else insertFeature (newFeature io planId f)

def setFeatures (io : Io) (planId : String) (existing : List FeatureCode) : List PlanFeatureDto → Service Unit
  | [] => return ()
  | f :: features => do
    setFeature io planId existing f
    setFeatures io planId existing features

def updatePlanFeatures (io : Io) (planId : String) : Option (List PlanFeatureDto) → Service Unit
  | none => return ()
  | some features => do
    let existingFeatures ← query fun s => s.planFeature.filter (·.planId == planId)
    setFeatures io planId (existingFeatures.map (·.feature)) features
    deleteFeatures planId (features.map (·.feature))

/-- Whether a column for which null is no value is set to null. -/
def refusesNull (dto : UpdatePlanDto) : Bool :=
  dto.name == some none || dto.billingCycle == some none || dto.price == some none

def editedPlan (dto : UpdatePlanDto) (plan : Plan) : Plan :=
  { plan with
    name := dto.name.join.getD plan.name
    billingCycle := dto.billingCycle.join.getD plan.billingCycle
    price := dto.price.join.getD plan.price
    description := dto.description.getD plan.description }

def updatePlan (io : Io) (planId : String) (dto : UpdatePlanDto) : Service String := do
  let _ ← Prog.orFail (.notFound "Plan doesn't exists.") (← query (·.plan.find planId))
  transaction do
    Prog.failIf (refusesNull dto = true) invalidArgument
    Prog.failIf (¬dto.price.join.all fitsInt) outOfRange
    updatePlanRow planId (editedPlan dto)
    updatePlanFeatures io planId dto.features
  return "Plan updated successfully."

/-- A plan is disabled while nobody has an active subscription to it. -/
def disablePlan (planId : String) : Service String := do
  let activeSubscriptions ← query fun s =>
    (s.subscription.filter fun subscription => subscription.planId == planId && subscription.status == .active).length
  Prog.failIf (activeSubscriptions > 0) (.badRequest "Cannot disable a plan with active subscriptions.")
  updatePlanRow planId fun plan => { plan with isActive := false }
  return "Plan disabled successfully."

def softDeletePlan (planId : String) : Service String := do
  let plan ← Prog.orFail (.notFound "Plan doesn't exist.") (← query (·.plan.find planId))
  if plan.isActive then disablePlan planId else return "Plan is already disabled."

end PlanService
end Vms
