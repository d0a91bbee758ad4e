import Vms.Lib.Interleave
import Vms.Theorems.Visit.Step

/-! One active visit for each visitor of an organisation. A check-in looks for one and creates its own
    later, in another statement: between the two another check-in may create one. The statements of all
    other requests only end or move visits. -/

namespace Vms.VisitService
open Relational HttpException

/-- At most one active visit for each organisation and email. -/
def OneActive (s : Db) : Prop := ∀ v ∈ s.visit, ∀ w ∈ s.visit, isActive v.status = true → isActive w.status = true →
  v.orgId = w.orgId → v.email = w.email → v = w

/-- Every active visit of `t` was active in `s`, in the same organisation with the same email. -/
def Quiet (s t : Db) : Prop := ∀ w ∈ t.visit, isActive w.status = true →
  ∃ v ∈ s.visit, isActive v.status = true ∧ v.id = w.id ∧ v.orgId = w.orgId ∧ v.email = w.email

/-- What the statement that creates a visit leaves. -/
def storeVisit (v : Visit) (s : Db) : Db := ((createVisit v).run s).2

/-- A statement creates a pending visit, or brings no visit to activity. -/
def Admits (g : Db → Db) : Prop := (∀ s, Quiet s (g s)) ∨ ∃ v, isActive v.status = true ∧ g = storeVisit v

/-- The next statement of a request creates the visit `v`. -/
def AtCreate (p : Service Unit) (v : Visit) : Prop := isActive v.status = true ∧ ∃ k f, p = .stmt (storeVisit v) k f

/-- A request that is about to create its visit finds no active one of its organisation and email. -/
def Free {ι : Type} (c : Threads ι Db HttpException Unit) (i : ι) : Prop :=
  ∀ v, AtCreate (c.threads i) v → ∀ w ∈ c.state.visit, isActive w.status = true → w.orgId = v.orgId → w.email ≠ v.email

/-! ### Statements -/

section Statements
variable {s t : Db} {v v' : Visit}

theorem Quiet.of_eq (h : t.visit = s.visit) : Quiet s t := fun w hw hactive =>
  ⟨w, by rw [← h]; exact hw, hactive, rfl, rfl, rfl⟩

theorem Replaces.quiet (h : Replaces s t v v') (hid : v'.id = v.id) (horg : v'.orgId = v.orgId)
    (hemail : v'.email = v.email) (hactive : isActive v'.status = true → isActive v.status = true) : Quiet s t := by
  intro w hw hw'
  rcases (h.visits w).mp hw with rfl | ⟨hw, -⟩
  · exact ⟨v, h.mem, hactive hw', hid.symm, horg.symm, hemail.symm⟩
  · exact ⟨w, hw, hw', rfl, rfl, rfl⟩

theorem Quiet.oneActive (one : OneActive s) (h : Quiet s t) : OneActive t := by
  intro v hv w hw hvactive hwactive horg hemail
  obtain ⟨v₀, hv₀, hva, hvid, hvorg, hvemail⟩ := h v hv hvactive
  obtain ⟨w₀, hw₀, hwa, hwid, hworg, hwemail⟩ := h w hw hwactive
  have heq := one v₀ hv₀ w₀ hw₀ hva hwa (by rw [hvorg, hworg, horg]) (by rw [hvemail, hwemail, hemail])
  exact Table.eq_of_id hv hw (hvid.symm.trans ((congrArg Visit.id heq).trans hwid))

/-- Creating a visit keeps one active visit exactly if there is none yet. -/
theorem Adds.oneActive (one : OneActive s) (hv : isActive v.status = true) (h : Adds s t v) :
    OneActive t ↔ ∀ w ∈ s.visit, isActive w.status = true → w.orgId = v.orgId → w.email ≠ v.email := by
  have hmem : ∀ w, w ∈ t.visit ↔ w ∈ s.visit ∨ w = v := fun w => Table.mem_insert h.visit
  constructor
  · intro one' w hw hwactive horg hemail
    obtain rfl := one' w ((hmem w).mpr (Or.inl hw)) v ((hmem v).mpr (Or.inr rfl)) hwactive hv horg hemail
    exact Table.id_ne_of_insert h.visit hw rfl
  · intro free w hw x hx hwactive hxactive horg hemail
    rcases (hmem w).mp hw with hw | rfl <;> rcases (hmem x).mp hx with hx | rfl
    · exact one w hw x hx hwactive hxactive horg hemail
    · exact absurd hemail (free w hw hwactive horg)
    · exact absurd hemail.symm (free x hx hxactive horg.symm)
    · rfl

theorem storeVisit_spec : storeVisit v s = s ∨ Adds s (storeVisit v s) v := by
  have hspec : (createVisit v).Post (fun _ t => t = s ∨ Adds s t v) s :=
    createVisit_spec (fun _ => Or.inl rfl) fun _ _ _ _ adds => Or.inr adds
  exact hspec.returns

theorem admits_still {g : Db → Db} (h : ∀ s, (g s).visit = s.visit) : Admits g := Or.inl fun s => .of_eq (h s)

theorem always_query {α : Type} {f : Db → α} : (query f).Always Admits := Prog.always_access (admits_still fun _ => rfl)

theorem always_outside {e : HttpException} : (outside e).Always Admits := Prog.always_access (admits_still fun _ => rfl)

theorem always_createVisit (hv : isActive v.status = true) : (createVisit v).Always Admits := by
  refine Prog.always_access (Or.inr ⟨v, hv, ?_⟩)
  funext s
  rw [storeVisit, createVisit, mutate, Prog.run_access]

theorem always_createNotification {n : Notification} : (createNotification n).Always Admits := by
  refine Prog.always_access (admits_still fun s => ?_)
  have hspec : (createNotification n).Returns (fun _ t => t.visit = s.visit) s :=
    (createNotification_spec (fun _ => rfl) fun t notifies => by rw [notifies.rest]).returns
  exact Prog.returns_access.mp hspec

theorem always_completeVisit {id : String} {endTime : Date} : (completeVisit id endTime).Always Admits := by
  refine Prog.always_access (Or.inl fun s => ?_)
  have hspec : (completeVisit id endTime).Returns (fun _ t => Quiet s t) s := by
    cases hfind : s.visit.find id with
    | none =>
      rw [completeVisit, returns_mutate, hfind]
      exact ⟨fun e _ => .of_eq rfl, fun _ _ h => by cases h⟩
    | some v =>
      obtain ⟨hv, hid⟩ := Table.find_eq_some.mp hfind
      have hid : v.id = id := hid
      subst hid
      exact (completeVisit_spec hv (fun _ => Quiet.of_eq rfl) fun _ t completes =>
        completes.quiet rfl rfl rfl fun h => Bool.noConfusion h).returns
  exact Prog.returns_access.mp hspec

theorem always_transaction {α : Type} {p : Service α}
    (h : ∀ s, p.Returns (fun r t => ∀ a, r = .ok a → Quiet s t) s) : (transaction p).Always Admits := by
  refine Prog.always_access (Or.inl fun s => ?_)
  show Quiet s (p.commit s).2
  cases hrun : (p.run s).1 with
  | ok a =>
    rw [Prog.commit_of_ok hrun]
    exact h s a hrun
  | error e =>
    rw [Prog.commit_of_error hrun]
    exact .of_eq rfl

/-- A decision moves a visit that was active before. -/
theorem always_decision {visitId : String} {action : NotificationAction} {change : Visit → Visit} {keys : Row.Fixes change}
    (same : ∀ v, (change v).orgId = v.orgId ∧ (change v).email = v.email) :
    (transaction (decision visitId action change keys)).Always Admits := by
  refine always_transaction fun s => ?_
  by_cases hwaits : ∃ v ∈ s.visit, v.id = visitId ∧ v.status = .pending
  · obtain ⟨v, hv, rfl, hpending⟩ := hwaits
    refine (decision_pending hv hpending).mono fun r t hr _ _ => ?_
    exact hr.2.quiet (keys.1 v) (same v).1 (same v).2 fun _ => by rw [hpending]; rfl
  · refine (decision_not_pending fun v hv hid hpending => hwaits ⟨v, hv, hid, hpending⟩).mono fun r t hr a ha => ?_
    rw [hr] at ha
    cases ha

end Statements

/-! ### Requests -/

section Requests
variable {js : Js}

theorem always_sendMail : sendMail.Always Admits := always_outside

theorem always_startVisit {io : Io} {orgId : String} {systemId : Option String} {dto : StartVisitDto}
    {checkInPicture : Bool} : (startVisit js io orgId systemId dto checkInPicture).Always Admits := by
  have upload : (uploadImage io checkInPicture).Always Admits := by
    unfold uploadImage
    split
    · exact always_outside.bind fun _ => trivial
    · trivial
  refine Prog.always_orFail.bind fun _ => always_query.bind fun _ => Prog.always_orFail.bind fun _ => ?_
  refine Prog.always_failIf.bind fun _ => always_query.bind fun _ => Prog.always_orFail.bind fun _ => ?_
  refine always_query.bind fun _ => Prog.always_failIf.bind fun _ => upload.bind fun _ => ?_
  refine (always_createVisit rfl).bind fun _ => always_createNotification.bind fun _ => ?_
  exact always_sendMail.bind fun _ => always_sendMail.bind fun _ => trivial

theorem always_endVisit {io : Io} {orgId : String} {dto : EndVisitDto} {systemId role : Option String} :
    (endVisit js io orgId dto systemId role).Always Admits := by
  have account : (checkSystemAccount orgId systemId).Always Admits := by
    unfold checkSystemAccount
    split
    · trivial
    · exact always_query.bind fun _ => Prog.always_orFail.bind fun _ => Prog.always_failIf
  refine account.bind fun _ => always_query.bind fun _ => Prog.always_orFail.bind fun _ => ?_
  refine Prog.always_failIf.bind fun _ => always_completeVisit.bind fun _ => ?_
  exact always_sendMail.bind fun _ => always_sendMail.bind fun _ => trivial

theorem always_endVisitQr {io : Io} {orgId role visitId : String} : (endVisitQr io orgId role visitId).Always Admits := by
  refine Prog.always_failIf.bind fun _ => Prog.always_failIf.bind fun _ => Prog.always_failIf.bind fun _ => ?_
  refine always_query.bind fun _ => Prog.always_orFail.bind fun _ => always_query.bind fun _ => ?_
  refine Prog.always_orFail.bind fun _ => Prog.always_failIf.bind fun _ => always_completeVisit.bind fun _ => ?_
  exact always_sendMail.bind fun _ => always_sendMail.bind fun _ => trivial

theorem always_decideVisit {orgId userId role visitId : String} {action : NotificationAction} {change : Visit → Visit}
    {keys : Row.Fixes change} (same : ∀ v, (change v).orgId = v.orgId ∧ (change v).email = v.email) :
    (decideVisit orgId userId role visitId action change keys).Always Admits := by
  refine Prog.always_failIf.bind fun _ => always_query.bind fun _ => Prog.always_orFail.bind fun _ => ?_
  refine always_query.bind fun _ => Prog.always_orFail.bind fun _ => Prog.always_failIf.bind fun _ => ?_
  exact always_decision same

theorem always_resendVisitNotification {io : Io} {systemId : Option String} {role orgId visitId : String} :
    (resendVisitNotification io systemId role orgId visitId).Always Admits := by
  refine Prog.always_failIf.bind fun _ => Prog.always_orFail.bind fun _ => always_query.bind fun _ => ?_
  refine Prog.always_orFail.bind fun _ => always_query.bind fun _ => Prog.always_orFail.bind fun _ => ?_
  refine Prog.always_failIf.bind fun _ => always_query.bind fun _ => Prog.always_failIf.bind fun _ => ?_
  exact always_createNotification

theorem always_deleteNotification {userId orgId role notificationId : String} :
    (NotificationsService.deleteNotification userId orgId role notificationId).Always Admits := by
  refine Prog.always_failIf.bind fun _ => always_query.bind fun _ => Prog.always_orFail.bind fun _ => ?_
  refine Prog.Always.bind (always_transaction fun s => ?_) fun _ => trivial
  simp only [Prog.returns_bind, returns_query, Prog.then_ok, Prog.then_error, Prog.returns_orFail, returns_mutate,
    reduceCtorEq, false_implies, implies_true, true_and]
  intro n _ _ t h a _
  split at h
  · cases h
  · obtain ⟨-, rfl⟩ := Prod.mk.inj (Except.ok.inj h)
    exact .of_eq rfl

theorem always_acceptVisit {io : Io} {orgId userId role visitId : String} {dto : AcceptVisitDto} :
    (acceptVisit io orgId userId role visitId dto).Always Admits := by
  refine Prog.Always.bind (always_decideVisit fun v => ⟨rfl, rfl⟩) fun _ => ?_
  refine Prog.Always.bind (always_outside.orElse fun _ => trivial) fun _ => ?_
  exact Prog.Always.bind ((always_sendMail.bind fun _ => always_sendMail).orElse fun _ => trivial) fun _ => trivial

theorem always_rejectVisit {orgId userId role visitId : String} {dto : RejectVisitDto} :
    (rejectVisit orgId userId role visitId dto).Always Admits := by
  refine Prog.Always.bind (always_decideVisit fun v => ⟨rfl, rfl⟩) fun _ => ?_
  exact Prog.Always.bind (always_sendMail.orElse fun _ => trivial) fun _ => trivial

theorem Request.always (q : Request) : (q.call js).Always Admits := by
  unfold Request.call
  split
  · exact Prog.Always.bind always_startVisit fun _ => trivial
  · exact Prog.Always.bind always_endVisit fun _ => trivial
  · exact Prog.Always.bind always_endVisitQr fun _ => trivial
  · exact Prog.Always.bind always_acceptVisit fun _ => trivial
  · exact Prog.Always.bind always_rejectVisit fun _ => trivial
  · exact Prog.Always.bind always_resendVisitNotification fun _ => trivial
  · exact Prog.Always.bind always_deleteNotification fun _ => trivial

end Requests

/-! ### Interleavings -/

section Interleavings
variable {ι : Type} [DecidableEq ι] {c d : Threads ι Db HttpException Unit} {i : ι} {v : Visit}

/-- A statement of a request keeps one active visit for each visitor, unless it creates a second one. -/
theorem step_oneActive (one : OneActive c.state) (always : (c.threads i).Always Admits) (free : Free c i)
    (step : Threads.Step c i d) : OneActive d.state := by
  cases step with
  | @mk p s hstep =>
    rcases (always.step hstep).2 with hsame | ⟨g, k, f, hp, hg, hs⟩
    · rw [hsame]
      exact one
    · rw [hs]
      rcases hg with quiet | ⟨v, hactive, rfl⟩
      · exact (quiet c.state).oneActive one
      · rcases storeVisit_spec (v := v) (s := c.state) with hsame | adds
        · rw [hsame]
          exact one
        · exact (adds.oneActive one hactive).mpr (free v ⟨hactive, k, f, hp⟩)

/-- A statement that creates a visit keeps one active visit exactly if it finds none. -/
theorem step_oneActive_iff (one : OneActive c.state) (create : AtCreate (c.threads i) v) (step : Threads.Step c i d)
    (stored : d.state ≠ c.state) : OneActive d.state ↔ Free c i := by
  obtain ⟨hactive, k, f, hp⟩ := create
  have adds : Adds c.state d.state v ∧ d.state = storeVisit v c.state := by
    cases step with
    | @mk p s hstep =>
      rw [hp] at hstep
      cases hstep with
      | stmt => exact ⟨storeVisit_spec.resolve_left stored, rfl⟩
      | fault => exact absurd rfl stored
  obtain ⟨adds, hstate⟩ := adds
  rw [adds.oneActive one hactive]
  constructor
  · intro free v' ⟨_, k', f', hp'⟩
    -- the statement determines the visit that it creates
    have hstore : storeVisit v = storeVisit v' := by
      rw [hp] at hp'
      exact (Prog.stmt.inj hp').1
    have adds' : Adds c.state d.state v' := by
      rw [hstate, hstore]
      refine storeVisit_spec.resolve_left fun hsame => stored ?_
      rw [hstate, hstore, hsame]
    have hmem : v' ∈ d.state.visit := (Table.mem_insert adds'.visit).mpr (Or.inr rfl)
    rcases (Table.mem_insert adds.visit).mp hmem with hold | rfl
    · exact absurd rfl (Table.id_ne_of_insert adds'.visit hold)
    · exact free
  · exact fun free => free v ⟨hactive, k, f, hp⟩

theorem oneActive_of_reach {js : Js} {s₀ : Db} {requests : ι → Request} (one : OneActive s₀)
    (h : (Threads.interleaving ⟨s₀, fun i => (requests i).call js⟩).Reach Free c) : OneActive c.state := by
  refine h.invariant (I := fun c => OneActive c.state) (fun c init => ?_) fun c i d hr hone hfree step => ?_
  · obtain rfl : c = ⟨s₀, fun i => (requests i).call js⟩ := init
    exact one
  · exact step_oneActive hone (Threads.always_of_reach (fun i => (requests i).always) hr i) hfree step

end Interleavings

/-- In an interleaving of any number of requests in which every check-in that is about to create its visit
    finds no active one, there is at most one active visit for each organisation and email; and a
    statement that creates a visit keeps this only if it finds none. -/
theorem one_active_visit {ι : Type} [DecidableEq ι] (js : Js) (s₀ : Db) (one : OneActive s₀) (requests : ι → Request) :
    (∀ c, (Threads.interleaving ⟨s₀, fun i => (requests i).call js⟩).Reach Free c → OneActive c.state) ∧
    ∀ c i v d, (Threads.interleaving ⟨s₀, fun i => (requests i).call js⟩).Reachable c → OneActive c.state →
      AtCreate (c.threads i) v → Threads.Step c i d → d.state ≠ c.state → (OneActive d.state ↔ Free c i) :=
  ⟨fun _ h => oneActive_of_reach one h, fun _ _ _ _ _ hone create step stored =>
    step_oneActive_iff hone create step stored⟩

section Reception
open Reception

theorem free_of_empty {ι : Type} {c : Threads ι Db HttpException Unit} {i : ι} (h : c.state.visit = ∅) : Free c i :=
  fun _ _ w hw => by
    rw [h] at hw
    exact absurd hw Table.not_mem_empty

/-- Two check-ins of Bob at the same time. -/
def twice : Bool → Request
  | true => request "1" 10 checkIn
  | false => request "2" 10 checkIn

def start : Threads Bool Db HttpException Unit := ⟨db, fun i => (twice i).call js⟩

theorem oneActive_db : OneActive db := fun _ hv => absurd hv Table.not_mem_empty

/-- Both check-ins have looked for an active visit, and one has created its own. -/
def raced : Threads Bool Db HttpException Unit := start.schedule [true, true, true, false, false, false, true]

theorem reach_raced : (Threads.interleaving start).Reach Free raced :=
  Threads.reach_schedule (.init rfl) ⟨free_of_empty rfl, free_of_empty rfl, free_of_empty rfl, free_of_empty rfl,
    free_of_empty rfl, free_of_empty rfl, free_of_empty rfl, trivial⟩

/-- The visit that the other check-in is about to create. -/
def second : Visit := newVisit (twice false).io "org" "bob" "bob@mail.com"
  { fullName := "bob", visitorOrganization := "Co", email := "bob@mail.com", reasonId := "meeting", staffId := "ann" } none

theorem atCreate_of_eq {p : Service Unit} {v : Visit} {g : Db → Db} {k : Db → Service Unit} {f : Service Unit}
    (hv : isActive v.status = true) (hp : p = .stmt g k f) (hg : ∀ s, storeVisit v s = g s) : AtCreate p v :=
  ⟨hv, k, f, by rw [hp, funext hg]⟩

theorem atCreate_raced : AtCreate (raced.threads false) second := by
  refine atCreate_of_eq rfl rfl fun s => ?_
  rw [storeVisit, createVisit, mutate, Prog.run_access]
  rfl

theorem one_active_visit_reception : OneActive raced.state ∧ (OneActive (raced.advance false).state ↔ Free raced false) :=
  ⟨(one_active_visit js db oneActive_db twice).1 raced reach_raced,
    (one_active_visit js db oneActive_db twice).2 raced false second (raced.advance false) reach_raced.reachable
      ((one_active_visit js db oneActive_db twice).1 raced reach_raced) atCreate_raced (Threads.step_advance rfl)
      (by decide)⟩

/-- Both check-ins look for an active visit before either creates its own. -/
theorem two_active_visits : ¬∀ c, (Threads.interleaving start).Reachable c → OneActive c.state := fun h => by
  have one := h _ (reach_raced.reachable.step trivial (Threads.step_advance (i := false) rfl))
  have two : ∃ v ∈ (raced.advance false).state.visit, ∃ w ∈ (raced.advance false).state.visit,
      isActive v.status = true ∧ isActive w.status = true ∧ v.orgId = w.orgId ∧ v.email = w.email ∧ v ≠ w := by decide
  obtain ⟨v, hv, w, hw, hvactive, hwactive, horg, hemail, hne⟩ := two
  exact hne (one v hv w hw hvactive hwactive horg hemail)

end Reception

end Vms.VisitService
