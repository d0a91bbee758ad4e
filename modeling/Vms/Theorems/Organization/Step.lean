import Vms.OrganizationChange

/-! What the changes of the organisation service do to the store: one description for each operation, which
    holds of every execution. -/

namespace Vms.OrganizationService
open Relational HttpException
open StaffService (WorkingHoursDto)

section
variable {js : Js} {io : ChangeIo} {s : Db} {orgId userId role : String} {logo : Bool}

/-! ### Creation -/

theorem uploadLogo_post {Q : Except HttpException (Option String) → Db → Prop} (fails : ∀ e, Q (.error e) s)
    (ok : ∀ logoUrl, Q (.ok logoUrl) s) : (uploadLogo io logo).Post Q s := by
  unfold uploadLogo
  split
  · simp only [Prog.post_bind, post_outside, Prog.then_ok, Prog.then_error, Prog.post_pure, fails, ok, and_self]
  · exact ok none

/-- The dates of a subscription are valid, and in order. -/
def Ordered (io : ChangeIo) (startsAt endsAt : String) : Prop :=
  ∃ d e, io.newDate startsAt = some d ∧ io.newDate endsAt = some e ∧ d < e

theorem subscriptionDates_post {startsAt endsAt : String} {Q : Except HttpException (Date × Date) → Db → Prop}
    (fails : ∀ e, Q (.error e) s) (ok : Ordered io startsAt endsAt → ∀ dates, Q (.ok dates) s) :
    (subscriptionDates io startsAt endsAt).Post Q s := by
  simp only [subscriptionDates, Prog.post_bind, Prog.post_orFail, Prog.post_failIf, Prog.then_ok, Prog.then_error, Prog.post_pure,
    fails, implies_true, true_and]
  intro d hd e he hlt
  exact ok ⟨d, e, hd, he, lt_of_not_ge hlt⟩ (d, e)

theorem insertOrganization_returns {organization : Organization} {Q : Except HttpException Organization → Db → Prop}
    (fails : ∀ e, Q (.error e) s)
    (ok : Attendance.fitsInt organization.accountLimit = true → ∀ u, s.organization.insert organization = some u →
      Q (.ok organization) { s with organization := u }) : (insertOrganization organization).Returns Q s := by
  rw [insertOrganization, returns_mutate]
  refine ⟨fun e _ => fails e, fun a t h => ?_⟩
  split at h
  · cases h
  · rename_i hfits
    obtain ⟨-, rfl, u, hu, rfl⟩ := created_eq_ok.mp h
    exact ok (by simpa using hfits) u hu

theorem insertSubscription_returns {subscription : Subscription} {Q : Except HttpException Subscription → Db → Prop}
    (fails : ∀ e, Q (.error e) s)
    (ok : ∀ u, s.subscription.insert subscription = some u → Q (.ok subscription) { s with subscription := u }) :
    (insertSubscription subscription).Returns Q s := by
  rw [insertSubscription, returns_mutate]
  refine ⟨fun e _ => fails e, fun a t h => ?_⟩
  obtain ⟨-, rfl, u, hu, rfl⟩ := created_eq_ok.mp h
  exact ok u hu

/-- The checks that a creation passes, apart from the plan. -/
structure Admitted (js : Js) (io : ChangeIo) (s : Db) (role : String) (dto : CreateOrganizationDto) : Prop where
  root : role = "Root"
  email : ∀ organization ∈ s.organization, organization.email ≠ js.trim (js.toLowerCase dto.email)
  code : ∃ key, truthy io.encryptionKey = some key ∧ ∃ data, encrypt io.cipher dto.settingCode key = .ok data
  dates : Ordered io dto.startsAt dto.endsAt
  limit : Attendance.fitsInt dto.accountLimit = true

/-- What a creation does that passes its checks: an organisation and its active subscription, to a plan that
    is in the store. -/
inductive Founded (js : Js) (io : ChangeIo) (s : Db) (role : String) (dto : CreateOrganizationDto) : Db → Prop where
  | intro {organization : Organization} {organizations : Table Organization} {subscription : Subscription}
      {subscriptions : Table Subscription} {plan : Plan} (admitted : Admitted js io s role dto)
      (stored : s.organization.insert organization = some organizations)
      (limit : organization.accountLimit = dto.accountLimit)
      (subscribed : s.subscription.insert subscription = some subscriptions)
      (active : subscription.status = .active) (planMem : plan ∈ s.plan) (planId : plan.id = dto.planId)
      (toPlan : subscription.planId = dto.planId) :
      Founded js io s role dto { s with organization := organizations, subscription := subscriptions }

theorem Founded.admitted {s t : Db} {dto : CreateOrganizationDto} (founded : Founded js io s role dto t) :
    Admitted js io s role dto := by
  obtain ⟨admitted, -, -, -, -, -, -, -⟩ := founded
  exact admitted

theorem createOrganization_post {dto : CreateOrganizationDto} :
    (createOrganization js io role dto logo).Post (Attempt s (Founded js io s role dto)) s := by
  have refused : ∀ {α : Type} (e : HttpException),
      Attempt s (Founded js io s role dto) (.error e : Except HttpException α) s := fun e => Attempt.refused
  simp only [createOrganization, Prog.post_bind, Prog.post_failIf, Prog.then_ok, Prog.then_error, post_query, refused, implies_true,
    true_and, and_true, not_not, List.mem_singleton]
  intro hrole hemail
  refine uploadLogo_post (fun e => refused e) fun logoUrl => ?_
  simp only [Prog.post_bind, Prog.post_orFail, Prog.post_ofExcept, Prog.then_ok, Prog.then_error, refused, implies_true, true_and]
  intro encryptionKey hkey
  cases hcode : encrypt io.cipher dto.settingCode encryptionKey with
  | error e => exact refused e
  | ok settingCodeEncrypted =>
    rw [Prog.then_ok, Prog.post_bind]
    refine subscriptionDates_post (fun e => refused e) fun hdates dates => ?_
    simp only [Prog.post_bind, Prog.post_orFail, post_query, post_transaction, Prog.then_ok, Prog.then_error, refused, implies_true,
      true_and, and_true, Table.find_eq_some]
    rintro plan ⟨hplan, hplanId⟩
    rw [Prog.returns_bind]
    refine insertOrganization_returns (fun e => refused e) fun hlimit organizations hstored => ?_
    rw [Prog.then_ok, Prog.returns_bind]
    refine insertSubscription_returns (fun e => refused e) fun subscriptions hsubscribed => ?_
    have admitted : Admitted js io s role dto := by
      refine ⟨hrole, fun organization hmem heq => hemail ?_, ⟨encryptionKey, hkey, settingCodeEncrypted, hcode⟩, hdates, hlimit⟩
      exact List.find?_isSome.mpr ⟨organization, hmem, beq_iff_eq.mpr heq⟩
    have founded : Founded js io s role dto { s with organization := organizations, subscription := subscriptions } :=
      .intro admitted hstored rfl hsubscribed rfl hplan hplanId rfl
    simp only [Prog.then_ok, Prog.returns_pure, Prog.rollback_ok, Prog.post_bind, post_outside, Prog.then_error, Prog.post_pure]
    exact ⟨.effect founded, .effect founded⟩

/-! ### Edits -/

/-- The limit with which a request is left. -/
def givenLimit (role : String) (accountLimit : Option Int) : Option Int := if role = "SuperAdmin" then none else accountLimit

theorem editableLimit_post {organization : Organization} {accountLimit : Option Int}
    {Q : Except HttpException (Option Int) → Db → Prop} (fails : ∀ e, Q (.error e) s)
    (ok : Q (.ok (givenLimit role accountLimit)) s) : (editableLimit role userId organization accountLimit).Post Q s := by
  unfold editableLimit
  unfold givenLimit at ok
  split at ok
  · rename_i hrole
    simp only [hrole, if_true, Prog.post_bind, post_query, Prog.post_orFail, Prog.post_failIf, Prog.then_ok, Prog.then_error,
      Prog.post_pure, fails, ok, implies_true, and_self]
  · rename_i hrole
    rw [if_neg hrole]
    exact ok

/-- The accounts of the organisation fit the limit. -/
def Fits (s : Db) (orgId : String) (accountLimit : Option Int) : Prop :=
  ∀ limit ∈ accountLimit, ((s.systemCredential.filter (·.orgId == orgId)).length : Int) ≤ limit

theorem checkAccountLimit_post {accountLimit : Option Int} {Q : Except HttpException Unit → Db → Prop}
    (fails : ∀ e, Q (.error e) s) (ok : Fits s orgId accountLimit → Q (.ok ()) s) :
    (checkAccountLimit orgId accountLimit).Post Q s := by
  cases accountLimit with
  | none => exact ok fun limit hlimit => by cases hlimit
  | some limit =>
    simp only [checkAccountLimit, Prog.post_bind, post_query, Prog.post_failIf, Prog.then_ok, Prog.then_error, fails, implies_true,
      true_and, and_true, not_lt, gt_iff_lt]
    intro hle
    refine ok fun other hother => ?_
    obtain rfl := Option.some.inj hother
    exact hle

/-- Working hours that an edit takes: they begin before they end, on at least one day. -/
def Sound (workingHours : Option WorkingHoursDto) : Prop :=
  ∀ dto ∈ workingHours, dto.startsAt < dto.endsAt ∧ dto.days ≠ []

theorem checkWorkingHours_post {workingHours : Option WorkingHoursDto} {Q : Except HttpException Unit → Db → Prop}
    (fails : ∀ e, Q (.error e) s) (ok : Sound workingHours → Q (.ok ()) s) : (checkWorkingHours workingHours).Post Q s := by
  cases workingHours with
  | none => exact ok fun dto hdto => by cases hdto
  | some workingHours =>
    simp only [checkWorkingHours, Prog.post_bind, Prog.post_failIf, Prog.then_ok, Prog.then_error, fails, implies_true, true_and]
    intro hbefore hdays
    refine ok fun dto hdto => ?_
    obtain rfl := Option.some.inj hdto
    exact ⟨not_not.mp hbefore, hdays⟩

theorem newSettingCode_post {settingCode encryptionKey : String} {Q : Except HttpException (Option String) → Db → Prop}
    (fails : ∀ e, Q (.error e) s) (ok : ∀ data, Q (.ok data) s) :
    (Prog.ofExcept (newSettingCode js io settingCode encryptionKey) : Service (Option String)).Post Q s := by
  rw [Prog.post_ofExcept]
  cases newSettingCode js io settingCode encryptionKey with
  | error e => exact fails e
  | ok data => exact ok data

/-- A change of the working hours only. -/
def HoursOnly (s t : Db) : Prop := ∃ u, t = { s with workingHours := u }

theorem HoursOnly.trans {s t u : Db} (h : HoursOnly s t) (h' : HoursOnly t u) : HoursOnly s u := by
  obtain ⟨_, rfl⟩ := h
  obtain ⟨_, rfl⟩ := h'
  exact ⟨_, rfl⟩

theorem upsertWorkingHours_hoursOnly {dto : WorkingHoursDto} {day : Weekday} :
    (upsertWorkingHours io orgId dto day).Post (fun _ t => HoursOnly s t) s := by
  rw [upsertWorkingHours, post_mutate]
  refine ⟨⟨fun _ _ => ⟨_, rfl⟩, fun a t h => ?_⟩, ⟨_, rfl⟩⟩
  split at h
  · cases h
    exact ⟨_, rfl⟩
  · obtain ⟨-, u, -, hx⟩ := created_map_eq_ok.mp h
    cases hx
    exact ⟨u, rfl⟩

theorem upsertEach_hoursOnly {dto : WorkingHoursDto} {days : List Weekday} :
    (upsertEach io orgId dto days).Post (fun _ t => HoursOnly s t) s := by
  induction days generalizing s with
  | nil => exact ⟨_, rfl⟩
  | cons day days ih => exact Prog.Post.bind_rel HoursOnly.trans upsertWorkingHours_hoursOnly fun _ _ _ => ih

theorem editWorkingHours_hoursOnly {workingHours : Option WorkingHoursDto} :
    (editWorkingHours io orgId workingHours).Post (fun _ t => HoursOnly s t) s := by
  cases workingHours with
  | none => exact ⟨_, rfl⟩
  | some workingHours => exact upsertEach_hoursOnly

/-- What an accepted edit does, apart from the working hours: it changes the row of one organisation, and its
    limit only to one that its accounts fit. -/
inductive Edited (s : Db) (orgId : String) (accountLimit : Option Int) : Db → Prop where
  | intro {organization : Organization} {change : Organization → Organization} {organizations : Table Organization}
      {hours : Table WorkingHours} (mem : organization ∈ s.organization) (id : organization.id = orgId)
      (stored : s.organization.modify (·.id == orgId) change = some organizations) (keys : ∀ o, (change o).id = o.id)
      (limit : ∀ o, (change o).accountLimit = accountLimit.getD o.accountLimit) (fits : Fits s orgId accountLimit) :
      Edited s orgId accountLimit { s with organization := organizations, workingHours := hours }

/-- What an accepted edit passes and does: the row of the organisation changes, and then its working hours, where
    nothing fails. -/
inductive Edits (io : ChangeIo) (s : Db) (orgId role : String) (dto : EditOrganizationDto) (t : Db) : Prop where
  | intro {organization : Organization} {settingCode logoUrl : Option String} {organizations : Table Organization}
      (allowed : role ∈ ["Root", "SuperAdmin"]) (mem : organization ∈ s.organization) (id : organization.id = orgId)
      (fits : Fits s orgId (givenLimit role dto.accountLimit)) (sound : Sound dto.workingHours)
      (stored : s.organization.modify (·.id == orgId)
        (editedOrganization dto (givenLimit role dto.accountLimit) settingCode logoUrl) = some organizations)
      (hours : (editWorkingHours io orgId dto.workingHours).run { s with organization := organizations } = (.ok (), t))

theorem updateOrganization_returns {change : Organization → Organization} {Q : Except HttpException Unit → Db → Prop}
    (fails : ∀ e, Q (.error e) s)
    (ok : ∀ u, s.organization.modify (·.id == orgId) change = some u → Q (.ok ()) { s with organization := u }) :
    (updateOrganization orgId change).Returns Q s := by
  rw [updateOrganization, returns_mutate]
  refine ⟨fun e _ => fails e, fun a t h => ?_⟩
  split at h
  · cases h
  · split at h
    · cases h
    · rename_i u hu
      cases h
      exact ok u hu

theorem editOrganizationDetails_edits {dto : EditOrganizationDto} :
    (editOrganizationDetails js io orgId role dto userId logo).Post (AllOrNothing s fun _ t => Edits io s orgId role dto t) s := by
  simp only [editOrganizationDetails, Prog.post_bind, Prog.post_failIf, Prog.post_orFail, Prog.then_ok, Prog.then_error, post_query,
    allOrNothing_error, implies_true, true_and, and_true, Table.find_eq_some, not_not]
  rintro hrole - organization ⟨hmem, hid⟩
  refine editableLimit_post (fun _ => rfl) ?_
  rw [Prog.then_ok, Prog.post_bind]
  refine checkAccountLimit_post (fun _ => rfl) fun hfits => ?_
  rw [Prog.then_ok, Prog.post_bind]
  refine uploadLogo_post (fun _ => rfl) fun logoUrl => ?_
  simp only [Prog.post_bind, Prog.post_orFail, Prog.then_ok, Prog.then_error, allOrNothing_error, implies_true, true_and]
  rintro encryptionKey -
  refine newSettingCode_post (fun _ => rfl) fun settingCodeEncrypted => ?_
  rw [Prog.then_ok, Prog.post_bind]
  refine checkWorkingHours_post (fun _ => rfl) fun hsound => ?_
  simp only [Prog.post_bind, post_transaction, Prog.returns_bind, Prog.returns_failIf, Prog.then_ok, Prog.then_error,
    Prog.rollback_error, allOrNothing_error, implies_true, true_and, and_true]
  rintro - -
  refine updateOrganization_returns (fun _ => rfl) fun organizations hstored => ?_
  rw [Prog.then_ok, Prog.Returns]
  rcases hrun : (editWorkingHours io orgId dto.workingHours).run { s with organization := organizations } with ⟨_ | _, t⟩
  · rfl
  · exact .intro hrole hmem hid hfits hsound hstored hrun

theorem editOrganizationDetails_post {dto : EditOrganizationDto} :
    (editOrganizationDetails js io orgId role dto userId logo).Post
      (AllOrNothing s fun _ t => Edited s orgId (givenLimit role dto.accountLimit) t) s := by
  refine Post.allOrNothing editOrganizationDetails_edits fun _ t edits => ?_
  obtain ⟨-, hmem, hid, hfits, -, hstored, hours⟩ := edits
  obtain ⟨u, rfl⟩ := editWorkingHours_hoursOnly.of_exec (Prog.exec_of_run hours)
  exact .intro hmem hid hstored (fun _ => rfl) (fun _ => rfl) hfits

/-! ### Subscription and deletion -/

/-- What a change of the plan does: the organisation's subscription, or a new one, is to a plan that is active. -/
inductive Moved (s : Db) (orgId planId : String) : Db → Prop where
  | moved {plan : Plan} {startsAt endsAt : Date} (planMem : plan ∈ s.plan) (id : plan.id = planId) (active : plan.isActive = true) :
      Moved s orgId planId { s with subscription := s.subscription.update (·.orgId == orgId) fun subscription =>
          { subscription with planId, startsAt, endsAt } }
  | subscribed {plan : Plan} {subscription : Subscription} {u : Table Subscription} (planMem : plan ∈ s.plan)
      (id : plan.id = planId) (active : plan.isActive = true) (toPlan : subscription.planId = planId)
      (stored : s.subscription.insert subscription = some u) : Moved s orgId planId { s with subscription := u }

theorem updateSubscription_post {dto : UpdateSubscriptionDto} :
    (updateSubscription io userId role orgId dto).Post (AllOrNothing s fun _ t => Moved s orgId dto.planId t) s := by
  simp only [updateSubscription, Prog.post_bind, Prog.post_failIf, Prog.post_orFail, Prog.then_ok, Prog.then_error, post_query,
    allOrNothing_error, implies_true, true_and, and_true, post_transaction, Prog.returns_bind, returns_query, Prog.returns_orFail,
    Prog.rollback_error, Option.filter_eq_some_iff, Table.find_eq_some]
  rintro - user - - organization - plan ⟨⟨hplan, hid⟩, hactive⟩ startsAt - endsAt -
  rw [upsertSubscription, returns_mutate]
  refine ⟨fun _ _ => rfl, fun a t h => ?_⟩
  split at h
  · split at h <;> cases h
    exact .moved hplan hid hactive
  · obtain ⟨-, u, hu, hx⟩ := created_map_eq_ok.mp h
    cases hx
    exact .subscribed hplan hid hactive rfl hu

theorem deleteOrganization_post :
    (deleteOrganization orgId role).Post (AllOrNothing s fun _ t => t = s.deleteOrganization orgId) s := by
  simp only [deleteOrganization, removeOrganization, Prog.post_bind, Prog.post_failIf, Prog.post_orFail, Prog.then_ok,
    Prog.then_error, post_query, post_mutate_ite, Prog.post_pure, allOrNothing_error, allOrNothing_ok, implies_true, and_self]

end

end Vms.OrganizationService
