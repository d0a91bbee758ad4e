import Vms.Plan

/-! What an update of a plan makes of its features: exactly the features of the request, whatever the plan had
    before. Whether a request succeeds that names a feature twice depends on what the plan had. -/

namespace Vms.PlanService
open Relational HttpException
open Attendance (fitsInt)

def ofPlan (planId : String) (code : FeatureCode) (feature : PlanFeature) : Bool :=
  feature.planId == planId && feature.feature == code

/-- The limit of a feature of a plan, if the plan has the feature. -/
def limitOf (t : Table PlanFeature) (planId : String) (code : FeatureCode) : Option (Option Int) :=
  (t.findBy (ofPlan planId code)).map (·.limit)

/-- The limit of a feature in a request; of several, the last. -/
def requested (features : List PlanFeatureDto) (code : FeatureCode) : Option (Option Int) :=
  (features.reverse.find? (·.feature == code)).map (·.limit)

/-- The plan exists, and the identifiers that are drawn for its features are fresh. -/
structure Ready (s : Db) (io : Io) (planId : String) : Prop where
  plan : (s.plan.find planId).isSome
  fresh : ∀ feature ∈ s.planFeature, ∀ code, feature.id ≠ io.featureId code
  distinct : ∀ code code', io.featureId code = io.featureId code' → code = code'

/-- The features of the plan are those of the request, and those of other plans are as before. -/
structure Replaced (s : Db) (planId : String) (features : List PlanFeatureDto) (t : Db) : Prop where
  limits : ∀ code, limitOf t.planFeature planId code = requested features code
  others : ∀ feature, feature.planId ≠ planId → (feature ∈ t.planFeature ↔ feature ∈ s.planFeature)

/-- The update, with these features. -/
def withFeatures (dto : UpdatePlanDto) (features : List PlanFeatureDto) : UpdatePlanDto := { dto with features := some features }

def Succeeds (io : Io) (planId : String) (dto : UpdatePlanDto) (s : Db) : Prop :=
  ∃ message, ((updatePlan io planId dto).run s).1 = .ok message

/-- Whether the update succeeds and what it leaves do not depend on the features that the plan had. -/
structure Declarative (planId : String) (dto : UpdatePlanDto) (features : List PlanFeatureDto) : Prop where
  decided : ∀ io io' s s', Ready s io planId → Ready s' io' planId →
    Succeeds io planId (withFeatures dto features) s → Succeeds io' planId (withFeatures dto features) s'
  replaced : ∀ io s t message, Ready s io planId → (updatePlan io planId (withFeatures dto features)).run s = (.ok message, t) →
    Replaced s planId features t

/-- No column refuses its value. -/
structure Storable (dto : UpdatePlanDto) (features : List PlanFeatureDto) : Prop where
  notNull : refusesNull dto = false
  price : dto.price.join.all fitsInt = true
  limits : ∀ f ∈ features, f.limit.all fitsInt = true

/-! ### One feature after another -/

/-- The features of the plan, after those that were set so far. -/
structure SetTo (before : Table PlanFeature) (io : Io) (planId : String) (done : List PlanFeatureDto) (t : Table PlanFeature) :
    Prop where
  limits : ∀ code, limitOf t planId code = (requested done code).or (limitOf before planId code)
  others : ∀ feature, feature.planId ≠ planId → (feature ∈ t ↔ feature ∈ before)
  ids : ∀ feature ∈ t, (∃ old ∈ before, old.id = feature.id) ∨ ∃ f ∈ done, feature.id = io.featureId f.feature

section Loop
variable {s : Db} {before t : Table PlanFeature} {io : Io} {planId : String} {done features : List PlanFeatureDto}
  {f : PlanFeatureDto}
  {existing : List FeatureCode} {code : FeatureCode}

theorem requested_concat : requested (done ++ [f]) code = if f.feature = code then some f.limit else requested done code := by
  rw [requested, List.reverse_append, List.reverse_singleton, List.singleton_append, List.find?_cons]
  by_cases h : f.feature = code
  · simp [h]
  · rw [beq_eq_false_iff_ne.mpr h, if_neg h, requested]

theorem requested_isSome : (requested features code).isSome = true ↔ code ∈ features.map (·.feature) := by
  rw [requested, Option.isSome_map, List.find?_isSome]
  simp

def setLimit (limit : Option Int) (feature : PlanFeature) : PlanFeature := { feature with limit }

theorem setLimit_fixes (limit : Option Int) : Row.Fixes (setLimit limit) := ⟨fun _ => rfl, fun _ _ => rfl⟩

theorem ofPlan_iff {feature : PlanFeature} :
    ofPlan planId code feature = true ↔ feature.planId = planId ∧ feature.feature = code := by
  simp [ofPlan]

theorem limitOf_isSome : (limitOf t planId code).isSome = true ↔
    ∃ feature ∈ t, feature.planId = planId ∧ feature.feature = code := by
  simp only [limitOf, Option.isSome_map, Table.findBy, List.find?_isSome, ofPlan_iff]
  exact Iff.rfl

theorem limitOf_update {code' : FeatureCode} {limit : Option Int} :
    limitOf (t.update (ofPlan planId code) (setLimit limit) (setLimit_fixes limit)) planId code' =
      if code = code' then (limitOf t planId code').map fun _ => limit else limitOf t planId code' := by
  have keeps : ∀ feature, ofPlan planId code' (setLimit limit feature) = ofPlan planId code' feature := fun _ => rfl
  rw [limitOf, Table.findBy_update keeps, limitOf]
  cases hfind : t.findBy (ofPlan planId code') with
  | none => simp
  | some feature =>
    obtain ⟨hof, hcode⟩ := ofPlan_iff.mp (Table.mem_of_findBy hfind).2
    by_cases h : code = code'
    · subst h
      have hpicked : ofPlan planId code feature = true := ofPlan_iff.mpr ⟨hof, hcode⟩
      rw [Option.map_some, Option.map_some, if_pos hpicked, if_pos rfl]
      rfl
    · have hpicked : ¬ofPlan planId code feature = true := fun hp => h ((ofPlan_iff.mp hp).2.symm.trans hcode)
      simp [h, hpicked]

theorem limitOf_insert {u : Table PlanFeature} (h : t.insert (newFeature io planId f) = some u)
    (free : limitOf t planId f.feature = none) :
    limitOf u planId code = if f.feature = code then some f.limit else limitOf t planId code := by
  rw [limitOf, Table.findBy_insert h, limitOf]
  by_cases hcode : f.feature = code
  · subst hcode
    have hnew : ofPlan planId f.feature (newFeature io planId f) = true := ofPlan_iff.mpr ⟨rfl, rfl⟩
    have hnone : t.findBy (ofPlan planId f.feature) = none := Option.map_eq_none_iff.mp free
    rw [hnone, if_pos hnew, if_pos rfl]
    rfl
  · have hnew : ¬ofPlan planId code (newFeature io planId f) = true := fun h => hcode (ofPlan_iff.mp h).2
    rw [if_neg hnew, if_neg hcode, Option.or_none]

/-- A feature that the plan has gets its limit. -/
theorem SetTo.update (h : SetTo before io planId done t) (hsome : (limitOf t planId f.feature).isSome) :
    SetTo before io planId (done ++ [f]) (t.update (ofPlan planId f.feature) (setLimit f.limit) (setLimit_fixes f.limit)) where
  limits code := by
    rw [requested_concat, limitOf_update]
    by_cases hcode : f.feature = code
    · rw [← hcode, if_pos rfl, if_pos rfl]
      obtain ⟨limit, hlimit⟩ := Option.isSome_iff_exists.mp hsome
      rw [hlimit]
      rfl
    · rw [if_neg hcode, if_neg hcode, h.limits code]
  others feature hother := by
    rw [← h.others feature hother, Table.mem_update]
    constructor
    · rintro ⟨old, hold, rfl⟩
      split at hother
      · rename_i hof
        exact absurd (ofPlan_iff.mp hof).1 hother
      · rename_i hof
        rwa [if_neg hof]
    · exact fun hmem => ⟨feature, hmem, if_neg fun hof => hother (ofPlan_iff.mp hof).1⟩
  ids feature hfeature := by
    obtain ⟨old, hold, rfl⟩ := Table.mem_update.mp hfeature
    have hid : (if ofPlan planId f.feature old then setLimit f.limit old else old).id = old.id := by
      split <;> rfl
    rw [hid]
    exact (h.ids old hold).imp_right fun ⟨g, hg, heq⟩ => ⟨g, List.mem_append_left _ hg, heq⟩

/-- A feature that the plan does not have is created with its limit. -/
theorem SetTo.insert {u : Table PlanFeature} (h : SetTo before io planId done t) (hu : t.insert (newFeature io planId f) = some u)
    (free : limitOf t planId f.feature = none) : SetTo before io planId (done ++ [f]) u where
  limits code := by
    rw [requested_concat, limitOf_insert hu free, h.limits code]
    split <;> rfl
  others feature hother := by
    rw [← h.others feature hother, Table.mem_insert hu]
    exact or_iff_left fun hnew => hother (congrArg PlanFeature.planId hnew)
  ids feature hfeature := by
    rcases (Table.mem_insert hu).mp hfeature with hold | rfl
    · exact (h.ids feature hold).imp_right fun ⟨g, hg, heq⟩ => ⟨g, List.mem_append_left _ hg, heq⟩
    · exact Or.inr ⟨f, List.mem_append_right _ (List.mem_singleton.mpr rfl), rfl⟩

/-- The limit fits its column, and the feature is not created a second time. -/
def Accepted (existing : List FeatureCode) (done : List PlanFeatureDto) (f : PlanFeatureDto) : Prop :=
  f.limit.all fitsInt = true ∧ (f.feature ∈ existing ∨ f.feature ∉ done.map (·.feature))

/-- Every feature is accepted after the ones before it. -/
def AllAccepted (existing : List FeatureCode) : List PlanFeatureDto → List PlanFeatureDto → Prop
  | _, [] => True
  | done, f :: features => Accepted existing done f ∧ AllAccepted existing (done ++ [f]) features

theorem returns_updateFeature {Q : Except HttpException Unit → Db → Prop} (hsome : (limitOf t planId f.feature).isSome)
    (refused : ¬f.limit.all fitsInt = true → ∀ e t, Q (.error e) t)
    (stored : f.limit.all fitsInt = true → Q (.ok ()) { s with
      planFeature := t.update (ofPlan planId f.feature) (setLimit f.limit) (setLimit_fixes f.limit) }) :
    (updateFeature planId f).Returns Q { s with planFeature := t } := by
  simp only [updateFeature, returns_mutate]
  by_cases hfits : f.limit.all fitsInt = true
  · have hfound : (t.findBy fun feature => feature.planId == planId && feature.feature == f.feature).isNone = false := by
      rw [limitOf, Option.isSome_map] at hsome
      exact Option.isNone_eq_false_iff.mpr hsome
    rw [hfits, Bool.not_true, if_neg Bool.false_ne_true, hfound, if_neg Bool.false_ne_true]
    refine ⟨fun _ h => (by cases h), fun _ u hu => ?_⟩
    obtain ⟨-, rfl⟩ := Prod.mk.inj (Except.ok.inj hu)
    exact stored hfits
  · rw [Bool.eq_false_iff.mpr hfits, Bool.not_false, if_pos rfl]
    exact ⟨fun e _ => refused hfits e _, fun _ _ h => by cases h⟩

theorem returns_insertFeature {Q : Except HttpException Unit → Db → Prop} (hplan : (s.plan.find planId).isSome)
    (refused : (∀ u, f.limit.all fitsInt = true → t.insert (newFeature io planId f) ≠ some u) → ∀ e t, Q (.error e) t)
    (stored : f.limit.all fitsInt = true → ∀ u, t.insert (newFeature io planId f) = some u →
      Q (.ok ()) { s with planFeature := u }) :
    (insertFeature (newFeature io planId f)).Returns Q { s with planFeature := t } := by
  simp only [insertFeature, returns_mutate]
  have hlimit : (newFeature io planId f).limit = f.limit := rfl
  have href : (s.plan.find (newFeature io planId f).planId).isSome = true := hplan
  by_cases hfits : f.limit.all fitsInt = true
  · rw [hlimit, hfits, Bool.not_true, if_neg Bool.false_ne_true]
    simp only [created, href, if_true]
    cases hu : t.insert (newFeature io planId f) with
    | none =>
      rw [hu] at refused
      exact ⟨fun e _ => refused (fun _ _ h => by cases h) e _, fun _ _ h => by cases h⟩
    | some u =>
      refine ⟨fun _ h => (by cases h), fun _ v hv => ?_⟩
      obtain ⟨-, rfl⟩ := Prod.mk.inj (Except.ok.inj hv)
      exact stored hfits u hu
  · rw [hlimit, Bool.eq_false_iff.mpr hfits, Bool.not_false, if_pos rfl]
    exact ⟨fun e _ => refused (fun _ h => absurd h hfits) e _, fun _ _ h => by cases h⟩

section Features
variable (hplan : (s.plan.find planId).isSome) (fresh : ∀ feature ∈ before, ∀ code, feature.id ≠ io.featureId code)
  (distinct : ∀ code code', io.featureId code = io.featureId code' → code = code')
  (hexisting : ∀ code, code ∈ existing ↔ (limitOf before planId code).isSome = true)
include hplan fresh distinct hexisting

theorem returns_setFeature {Q : Except HttpException Unit → Db → Prop} (h : SetTo before io planId done t)
    (refused : ¬Accepted existing done f → ∀ e t, Q (.error e) t)
    (stored : Accepted existing done f → ∀ u, SetTo before io planId (done ++ [f]) u → Q (.ok ()) { s with planFeature := u }) :
    (setFeature io planId existing f).Returns Q { s with planFeature := t } := by
  unfold setFeature
  split
  · rename_i hcontains
    have hmem : f.feature ∈ existing := List.contains_iff_mem.mp hcontains
    have hsome : (limitOf t planId f.feature).isSome = true := by
      rw [h.limits f.feature, Option.isSome_or, (hexisting f.feature).mp hmem, Bool.or_true]
    refine returns_updateFeature hsome (fun hfits => refused fun accepted => hfits accepted.1) fun hfits => ?_
    exact stored ⟨hfits, Or.inl hmem⟩ _ (h.update hsome)
  · rename_i hcontains
    have hnot : f.feature ∉ existing := fun hmem => hcontains (List.contains_iff_mem.mpr hmem)
    have hbefore : limitOf before planId f.feature = none :=
      Option.not_isSome_iff_eq_none.mp fun hsome => hnot ((hexisting f.feature).mpr hsome)
    have hlimit : limitOf t planId f.feature = requested done f.feature := by
      rw [h.limits f.feature, hbefore, Option.or_none]
    by_cases hdone : f.feature ∈ done.map (·.feature)
    -- the row is there already
    · obtain ⟨feature, hfeature, hof, hcode⟩ := limitOf_isSome.mp (hlimit ▸ requested_isSome.mpr hdone)
      refine returns_insertFeature hplan (fun _ => refused fun accepted => accepted.2.elim hnot (absurd hdone)) fun _ u hu => ?_
      have hfree := (Table.insert_eq_some.mp hu).1 feature hfeature
      have hclash : Row.conflict feature (newFeature io planId f) = true := by
        simp [Row.conflict, Row.clash, newFeature, hof, hcode]
      rw [hclash] at hfree
      cases hfree
    · have hfree : limitOf t planId f.feature = none := by
        rw [hlimit]
        exact Option.not_isSome_iff_eq_none.mp fun hsome => hdone (requested_isSome.mp hsome)
      have noConflict : ∀ feature ∈ t, Row.conflict feature (newFeature io planId f) = false := by
        intro feature hfeature
        have hid : feature.id ≠ io.featureId f.feature := by
          rcases h.ids feature hfeature with ⟨old, hold, heq⟩ | ⟨g, hg, heq⟩
          · rw [← heq]
            exact fresh old hold f.feature
          · rw [heq]
            intro hsame
            exact hdone (List.mem_map.mpr ⟨g, hg, distinct _ _ hsame⟩)
        have hclash : ¬(feature.planId = planId ∧ feature.feature = f.feature) := fun hof =>
          absurd (limitOf_isSome.mpr ⟨feature, hfeature, hof⟩) (by rw [hfree]; exact Bool.false_ne_true)
        simpa [Row.conflict, Row.id, Row.clash, newFeature, hid] using hclash
      obtain ⟨u, hu⟩ := Table.insert_of_free noConflict
      refine returns_insertFeature hplan (fun stuck => refused fun accepted => stuck u accepted.1 hu) fun hfits v hv => ?_
      exact stored ⟨hfits, Or.inr hdone⟩ v (h.insert hv hfree)

/-- The induction is on the features that are left; `done` are the ones before them. -/
theorem returns_setFeatures {Q : Except HttpException Unit → Db → Prop} (h : SetTo before io planId done t)
    (refused : ¬AllAccepted existing done features → ∀ e t, Q (.error e) t)
    (stored : AllAccepted existing done features → ∀ u, SetTo before io planId (done ++ features) u →
      Q (.ok ()) { s with planFeature := u }) :
    (setFeatures io planId existing features).Returns Q { s with planFeature := t } := by
  induction features generalizing done t with
  | nil => exact stored trivial t (by rwa [List.append_nil])
  | cons f features ih =>
    rw [setFeatures, Prog.returns_bind]
    refine returns_setFeature hplan fresh distinct hexisting h (fun hnot => refused fun all => hnot all.1) fun accepted u hu => ?_
    refine ih hu (fun hnot => refused fun all => hnot all.2) fun all v hv => stored ⟨accepted, all⟩ v ?_
    rwa [List.append_assoc, List.singleton_append] at hv

end Features

end Loop

/-! ### Updates -/

section Update
variable {s : Db} {io : Io} {planId : String} {dto : UpdatePlanDto} {features : List PlanFeatureDto} {existing : List FeatureCode}

/-- The features that a plan has. -/
def featuresOf (s : Db) (planId : String) : List FeatureCode := (s.planFeature.filter (·.planId == planId)).map (·.feature)

theorem mem_featuresOf (code : FeatureCode) : code ∈ featuresOf s planId ↔ (limitOf s.planFeature planId code).isSome = true := by
  simp only [featuresOf, List.mem_map, Table.mem_filter, beq_iff_eq, limitOf_isSome, and_assoc]

/-- Features that the request does not name are deleted. -/
theorem SetTo.delete {before t : Table PlanFeature} (h : SetTo before io planId features t) (code : FeatureCode) :
    limitOf (t.delete fun feature =>
        feature.planId == planId && !(features.map (·.feature)).contains feature.feature) planId code =
      requested features code := by
  cases hcode : requested features code with
  | some limit =>
    have hmem : code ∈ features.map (·.feature) := requested_isSome.mp (by rw [hcode]; rfl)
    have stays : ∀ feature, ofPlan planId code feature = true →
        (feature.planId == planId && !(features.map (·.feature)).contains feature.feature) = false := by
      intro feature hof
      rw [(ofPlan_iff.mp hof).2, List.contains_iff_mem.mpr hmem, Bool.not_true, Bool.and_false]
    have hlimit := h.limits code
    rw [hcode, Option.some_or, limitOf] at hlimit
    rw [limitOf, Table.findBy_delete stays, hlimit]
  | none =>
    have hmem : code ∉ features.map (·.feature) := fun hmem => by
      have hsome := requested_isSome.mpr hmem
      rw [hcode] at hsome
      cases hsome
    have gone : ∀ feature, ofPlan planId code feature = true →
        (feature.planId == planId && !(features.map (·.feature)).contains feature.feature) = true := by
      intro feature hof
      obtain ⟨hplan, hfeature⟩ := ofPlan_iff.mp hof
      rw [hplan, hfeature, Bool.eq_false_iff.mpr fun hcontains => hmem (List.contains_iff_mem.mp hcontains)]
      simp
    rw [limitOf, Table.findBy_delete_eq_none gone]
    rfl

theorem returns_updatePlanFeatures {Q : Except HttpException Unit → Db → Prop} (ready : Ready s io planId)
    (refused : ¬AllAccepted (featuresOf s planId) [] features → ∀ e t, Q (.error e) t)
    (replaced : AllAccepted (featuresOf s planId) [] features → ∀ t, Replaced s planId features t → Q (.ok ()) t) :
    (updatePlanFeatures io planId (some features)).Returns Q s := by
  have start : SetTo s.planFeature io planId [] s.planFeature :=
    ⟨fun _ => rfl, fun _ _ => Iff.rfl, fun feature hfeature => Or.inl ⟨feature, hfeature, rfl⟩⟩
  simp only [updatePlanFeatures, Prog.returns_bind, returns_query, Prog.then_ok]
  refine returns_setFeatures ready.plan ready.fresh ready.distinct mem_featuresOf start (fun hnot => ?_) fun accepted u hu => ?_
  · exact fun e t => refused hnot e t
  · simp only [Prog.then_ok, deleteFeatures, returns_mutate, reduceCtorEq, false_implies, implies_true, true_and, Except.ok.injEq,
      Prod.mk.injEq]
    rintro _ _ ⟨-, rfl⟩
    refine replaced accepted _ ⟨hu.delete, fun feature hother => ?_⟩
    rw [← hu.others feature hother]
    have hstays : (feature.planId == planId && !(features.map (·.feature)).contains feature.feature) = false := by
      rw [beq_eq_false_iff_ne.mpr hother, Bool.false_and]
    exact Table.mem_delete.trans (and_iff_left hstays)

/-- An update succeeds if no column refuses its value and no feature is created twice. -/
theorem returns_updatePlan {Q : Except HttpException String → Db → Prop} (ready : Ready s io planId)
    (refused : ¬(refusesNull dto = false ∧ dto.price.join.all fitsInt = true ∧ AllAccepted (featuresOf s planId) [] features) →
      ∀ e t, Q (.error e) t)
    (replaced : refusesNull dto = false → dto.price.join.all fitsInt = true → AllAccepted (featuresOf s planId) [] features →
      ∀ message t, Replaced s planId features t → Q (.ok message) t) :
    (updatePlan io planId (withFeatures dto features)).Returns Q s := by
  obtain ⟨plan, hplan⟩ := Option.isSome_iff_exists.mp ready.plan
  have hnull : refusesNull (withFeatures dto features) = refusesNull dto := rfl
  have hprice : (withFeatures dto features).price = dto.price := rfl
  have hfeatures : (withFeatures dto features).features = some features := rfl
  simp only [updatePlan, updatePlanRow, Prog.returns_bind, Prog.returns_orFail, Prog.returns_failIf, returns_query,
    returns_mutate, returns_transaction, Prog.then_ok, Prog.then_error, hplan, hnull, hprice, hfeatures, reduceCtorEq,
    false_implies, true_and, Option.some.injEq, forall_eq', Option.isNone_some, Bool.false_eq_true, if_false, implies_true,
    Except.ok.injEq, Prod.mk.injEq]
  refine ⟨fun hnull => refused (fun h => ?_) _ _,
    fun hnull => ⟨fun hprice => refused (fun h => hprice h.2.1) _ _, fun hprice => ?_⟩⟩
  · rw [hnull] at h
    cases h.1
  intro _
  have hnotNull : refusesNull dto = false := Bool.eq_false_iff.mpr hnull
  have hfits : dto.price.join.all fitsInt = true := not_not.mp hprice
  obtain ⟨hmem, hid⟩ := Table.find_eq_some.mp hplan
  obtain ⟨edited, hedited, hsame⟩ := Table.exists_mem_update
    (⟨fun _ => rfl, fun _ _ => rfl⟩ : Row.Fixes (editedPlan (withFeatures dto features))) hmem
  refine returns_updatePlanFeatures ⟨Table.isSome_find hedited (hsame.trans hid), ready.fresh, ready.distinct⟩
    (fun hnot e t => ?_)
    fun accepted t ht => ?_
  · exact refused (fun h => hnot h.2.2) e _
  · exact replaced hnotNull hfits accepted _ t ⟨ht.limits, ht.others⟩

/-! ### Features that are named twice -/

variable {done : List PlanFeatureDto}

theorem limits_of_allAccepted (h : AllAccepted existing done features) : ∀ f ∈ features, f.limit.all fitsInt = true := by
  induction features generalizing done with
  | nil => exact fun _ hf => absurd hf List.not_mem_nil
  | cons f features ih =>
    intro g hg
    rcases List.mem_cons.mp hg with rfl | hg
    · exact h.1.1
    · exact ih h.2 g hg

/-- Without repetitions every feature is accepted, whatever the plan had. -/
theorem allAccepted_of_nodup (limits : ∀ f ∈ features, f.limit.all fitsInt = true)
    (nodup : ((done ++ features).map (·.feature)).Nodup) : AllAccepted existing done features := by
  induction features generalizing done with
  | nil => trivial
  | cons f features ih =>
    have hnew : f.feature ∉ done.map (·.feature) := by
      rw [List.map_append, List.map_cons] at nodup
      exact fun hdone => (List.nodup_append.mp nodup).2.2 _ hdone _ List.mem_cons_self rfl
    refine ⟨⟨limits f List.mem_cons_self, Or.inr hnew⟩, ih (fun g hg => limits g (List.mem_cons_of_mem _ hg)) ?_⟩
    rwa [List.append_assoc, List.singleton_append]

/-- Where the plan had every feature, every feature is accepted. -/
theorem allAccepted_of_existing (limits : ∀ f ∈ features, f.limit.all fitsInt = true) (all : ∀ code, code ∈ existing) :
    AllAccepted existing done features := by
  induction features generalizing done with
  | nil => trivial
  | cons f features ih =>
    exact ⟨⟨limits f List.mem_cons_self, Or.inl (all f.feature)⟩, ih fun g hg => limits g (List.mem_cons_of_mem _ hg)⟩

/-- Where the plan had no feature, none may be named twice. -/
theorem nodup_of_allAccepted (h : AllAccepted [] done features) (nodup : (done.map (·.feature)).Nodup) :
    ((done ++ features).map (·.feature)).Nodup := by
  induction features generalizing done with
  | nil => rwa [List.append_nil]
  | cons f features ih =>
    have hnew : f.feature ∉ done.map (·.feature) := h.1.2.resolve_left List.not_mem_nil
    have hnext : ((done ++ [f]).map (·.feature)).Nodup := by
      rw [List.map_append]
      exact List.nodup_append.mpr ⟨nodup, List.nodup_singleton _, fun code hcode _ hf heq => hnew (by
        rw [List.map_singleton, List.mem_singleton] at hf
        rwa [heq, hf] at hcode)⟩
    have hrest := ih h.2 hnext
    rwa [List.append_assoc, List.singleton_append] at hrest

end Update

/-- A plan without features. -/
def bare (planId : String) : Db where
  plan := {{ id := planId, code := "", name := "", price := 0, billingCycle := .monthly }}

/-- The plan with every feature. -/
def full (planId : String) : Db where
  plan := (bare planId).plan
  planFeature := ⟨[{ id := "1", planId, feature := .vmsAccess }, { id := "2", planId, feature := .staffManagementAccess }], by
    simp [Row.conflict, Row.id, Row.clash]⟩

def drawn : Io where
  planId := ""
  featureId code := if code = .vmsAccess then "3" else "4"
  features := .stored

section Named
variable {planId : String} {dto : UpdatePlanDto} {features : List PlanFeatureDto}

theorem drawn_distinct (code code' : FeatureCode) (h : drawn.featureId code = drawn.featureId code') : code = code' := by
  cases code <;> cases code' <;> first | rfl | exact absurd h (by decide)

theorem ready_bare : Ready (bare planId) drawn planId where
  plan := Table.isSome_find (Table.mem_singleton.mpr rfl) rfl
  fresh _ hfeature := absurd hfeature Table.not_mem_empty
  distinct := drawn_distinct

theorem ready_full : Ready (full planId) drawn planId where
  plan := ready_bare.plan
  fresh feature hfeature code := by
    rcases List.mem_cons.mp hfeature with rfl | hfeature
    · change "1" ≠ drawn.featureId code
      cases code <;> decide
    · rw [List.mem_singleton.mp hfeature]
      change "2" ≠ drawn.featureId code
      cases code <;> decide
  distinct := drawn_distinct

theorem mem_featuresOf_full (code : FeatureCode) : code ∈ featuresOf (full planId) planId := by
  refine (mem_featuresOf code).mpr (limitOf_isSome.mpr ?_)
  cases code with
  | vmsAccess => exact ⟨_, List.mem_cons_self, rfl, rfl⟩
  | staffManagementAccess => exact ⟨_, List.mem_cons_of_mem _ List.mem_cons_self, rfl, rfl⟩

end Named

/-- An update of the features of a plan depends on the request alone if and only if it names no feature twice, or
    is refused for one of its values. -/
theorem updatePlan_declarative_iff (planId : String) (dto : UpdatePlanDto) (features : List PlanFeatureDto) :
    Declarative planId dto features ↔ (Storable dto features → (features.map (·.feature)).Nodup) := by
  constructor
  · intro h storable
    have full : Succeeds drawn planId (withFeatures dto features) (full planId) := by
      have succeeds : (updatePlan drawn planId (withFeatures dto features)).Returns
          (fun r _ => ∃ message, r = .ok message) (full planId) := by
        refine returns_updatePlan ready_full (fun hnot => absurd ⟨storable.notNull, storable.price, ?_⟩ hnot)
          fun _ _ _ message _ _ => ⟨message, rfl⟩
        exact allAccepted_of_existing storable.limits mem_featuresOf_full
      exact succeeds
    obtain ⟨message, hok⟩ := h.decided drawn drawn _ _ ready_full ready_bare full
    have accepted : (updatePlan drawn planId (withFeatures dto features)).Returns
        (fun r _ => ∀ message, r = .ok message → AllAccepted (featuresOf (bare planId) planId) [] features) (bare planId) :=
      returns_updatePlan ready_bare (fun _ _ _ _ h => by cases h) fun _ _ accepted _ _ _ _ _ => accepted
    have hnone : AllAccepted [] [] features := accepted message hok
    exact nodup_of_allAccepted hnone List.nodup_nil
  · intro h
    constructor
    · intro io io' s s' ready ready' hsucceeds
      obtain ⟨message, hok⟩ := hsucceeds
      have storable : (updatePlan io planId (withFeatures dto features)).Returns
          (fun r _ => ∀ message, r = .ok message → Storable dto features) s :=
        returns_updatePlan ready (fun _ _ _ _ h => by cases h) fun hnull hprice accepted _ _ _ _ _ =>
          ⟨hnull, hprice, limits_of_allAccepted accepted⟩
      have hstorable := storable message hok
      have succeeds : (updatePlan io' planId (withFeatures dto features)).Returns (fun r _ => ∃ message, r = .ok message) s' := by
        refine returns_updatePlan ready' (fun hnot => absurd ⟨hstorable.notNull, hstorable.price, ?_⟩ hnot)
          fun _ _ _ message _ _ => ⟨message, rfl⟩
        have nodup : ((([] : List PlanFeatureDto) ++ features).map (·.feature)).Nodup := h hstorable
        exact allAccepted_of_nodup hstorable.limits nodup
      exact succeeds
    · intro io s t message ready hrun
      have replaced : (updatePlan io planId (withFeatures dto features)).Returns
          (fun r t => ∀ message, r = .ok message → Replaced s planId features t) s :=
        returns_updatePlan ready (fun _ _ _ _ h => by cases h) fun _ _ _ _ _ ht _ _ => ht
      rw [Prog.Returns, hrun] at replaced
      exact replaced message rfl

/-- The same feature twice. -/
def twice : List PlanFeatureDto := [{ feature := .vmsAccess, limit := some 1 }, { feature := .vmsAccess, limit := some 2 }]

/-- A plan that has the feature accepts it twice, and a plan that does not have it refuses. -/
theorem repeated_feature_refused : ¬∀ (planId : String) (dto : UpdatePlanDto) (features : List PlanFeatureDto),
    Declarative planId dto features := fun h => by
  have accepted : Succeeds drawn "plan" (withFeatures {} twice) (full "plan") := ⟨"Plan updated successfully.", by rfl⟩
  obtain ⟨message, hok⟩ := (h "plan" {} twice).decided drawn drawn _ _ ready_full ready_bare accepted
  have refused : ((updatePlan drawn "plan" (withFeatures {} twice)).run (bare "plan")).1 = .error uniqueViolation := by rfl
  rw [refused] at hok
  cases hok

end Vms.PlanService
