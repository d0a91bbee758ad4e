import Vms.Lib.Interleave
import Vms.Theorems.Visit.Step

/-! Decisions about one visit race: every request may have read the visit as pending before any of them
    commits, but only the first transaction finds it pending still. -/

namespace Vms.VisitService
open Relational

/-- A request to decide about a visit. -/
inductive Decision where
  | accept (io : Io) (orgId userId role : String) (dto : AcceptVisitDto)
  | reject (orgId userId role : String) (dto : RejectVisitDto)

def Decision.call (visitId : String) : Decision → Service String
  | .accept io orgId userId role dto => acceptVisit io orgId userId role visitId dto
  | .reject orgId userId role dto => rejectVisit orgId userId role visitId dto

/-- The visit waits for a decision. -/
def Waits (visitId : String) (s : Db) : Prop := ∃ v ∈ s.visit, v.id = visitId ∧ v.status = .pending

instance (visitId : String) (s : Db) : Decidable (Waits visitId s) :=
  inferInstanceAs (Decidable (∃ v ∈ s.visit, v.id = visitId ∧ v.status = .pending))

section Shots
variable {visitId : String}

theorem still_sendMail : sendMail.Still := ⟨fun _ => rfl, fun _ => trivial, trivial⟩

/-- A mail that may fail, with its failure caught. -/
theorem settled_sendMail : (sendMail.orElse fun _ => (pure () : Service Unit)).Settled () := still_sendMail.settled

/-- A decision has one shot: the transaction that finds the visit waiting. -/
theorem oneShot_decideVisit {orgId userId role : String} {action : NotificationAction} {change : Visit → Visit}
    {keys : Row.Fixes change} (decides : ∀ v, (change v).status ≠ .pending) :
    (decideVisit orgId userId role visitId action change keys).OneShot (Waits visitId) := by
  refine Prog.oneShot_failIf fun _ => Prog.oneShot_access (fun _ => rfl) fun staff => ?_
  refine Prog.oneShot_orFail fun staff _ => Prog.oneShot_access (fun _ => rfl) fun visit => ?_
  refine Prog.oneShot_orFail fun visit _ => Prog.oneShot_failIf fun _ => ?_
  refine Prog.oneShot_transaction (fun s ⟨v, hv, hid, hpending⟩ => ?_) fun s hclosed => ?_
  · subst hid
    have hspec : (decision v.id action change keys).Returns
        (fun r t => r = .ok (change v) ∧ Decides s t v (change v) action) s := decision_pending hv hpending
    obtain ⟨hrun, hdecides⟩ := hspec
    refine ⟨change v, hrun, fun ⟨w, hw, hwid, hwpending⟩ => ?_⟩
    rcases (hdecides.visits w).mp hw with rfl | ⟨-, hne⟩
    · exact decides v hwpending
    · exact hne hwid
  · exact ⟨_, decision_not_pending fun v hv hid hpending => hclosed ⟨v, hv, hid, hpending⟩⟩

theorem Decision.oneShot (d : Decision) : (d.call visitId).OneShot (Waits visitId) := by
  cases d with
  | accept io orgId userId role dto =>
    refine (oneShot_decideVisit fun v => by nofun).bind fun v =>
      ⟨"Host has accepted the visit request.", ?_⟩
    have code : ((outside (.error "Failed to generate QR code")).orElse fun _ => (pure () : Service Unit)).Settled () :=
      Prog.Still.settled ⟨fun _ => rfl, fun _ => trivial, trivial⟩
    have mails : ((do sendMail; sendMail : Service Unit).orElse fun _ => (pure () : Service Unit)).Settled () :=
      (still_sendMail.bind fun _ => still_sendMail).settled
    exact code.bind (mails.bind rfl)
  | reject orgId userId role dto =>
    exact (oneShot_decideVisit fun v => by nofun).bind fun v => ⟨_, settled_sendMail.bind rfl⟩

end Shots

/-- Any number of requests decide about one pending visit, their statements in any order, and any
    statement may fail. At most one succeeds; a success leaves the database that the request alone leaves
    from the start; and a request that changes anything does not fail, and nothing changes after it. -/
theorem one_decision {ι : Type} [DecidableEq ι] (s₀ : Db) (visitId : String) (waits : Waits visitId s₀)
    (requests : ι → Decision) (c : Threads ι Db HttpException String)
    (h : (Threads.interleaving ⟨s₀, fun i => (requests i).call visitId⟩).Reachable c) :
    (∀ i j a b, c.threads i = .ret a → c.threads j = .ret b → i = j) ∧
    (∀ i a, c.threads i = .ret a → ((requests i).call visitId).run s₀ = (.ok a, c.state)) ∧
    ∀ i d, Threads.Step c i d → d.state ≠ c.state → ∀ e, (Threads.interleaving d).Reachable e →
      e.state = d.state ∧ (∀ x, e.threads i ≠ .fail x) ∧ ∀ j a, e.threads j = .ret a → j = i := by
  have hrace := Threads.race waits (fun i => (requests i).oneShot) h
  refine ⟨fun i j a b hi hj => ?_, fun i a hi => ?_, fun i d step hne e he => ?_⟩
  · rcases hrace with hopen | ⟨w, x, hwon⟩
    · exact absurd hi hopen.ne_ret
    · exact (hwon.of_ret hi).1.trans (hwon.of_ret hj).1.symm
  · rcases hrace with hopen | ⟨w, x, hwon⟩
    · exact absurd hi hopen.ne_ret
    · obtain ⟨rfl, rfl⟩ := hwon.of_ret hi
      exact hwon.alone
  · -- the step that changes the state is the shot of its program, which wins
    have hwon : ∃ a, Threads.Won (Waits visitId) s₀ (fun i => (requests i).call visitId) i a d := by
      rcases hrace with hopen | ⟨w, x, hwon⟩
      · rcases hopen.step step with ⟨-, hsame⟩ | hwon
        · exact absurd hsame hne
        · exact hwon
      · exact absurd (hwon.step step).2 hne
    obtain ⟨a, hwon⟩ := hwon
    obtain ⟨hfinal, hstate⟩ := hwon.final he
    exact ⟨hstate, fun x => hfinal.ne_fail, fun j b hj => (hfinal.of_ret hj).1⟩

section Reception
open Reception

/-- Ann accepts and rejects Bob's visit at the same time. -/
def both : Bool → Decision
  | true => .accept (request "2" 20 checkIn).io "org" "ann-user" "Staff" {}
  | false => .reject "org" "ann-user" "Staff" { reason := "busy" }

/-- Both have read the visit as pending when the rejection commits. -/
def bothRead : Threads Bool Db HttpException String :=
  .schedule ⟨runAll js db [request "1" 10 checkIn], fun i => (both i).call "v1"⟩
    [true, true, false, false, false, true, false]

theorem one_decision_reception : ((both false).call "v1").run (runAll js db [request "1" 10 checkIn]) =
    (.ok "Host has rejected the visit request.", bothRead.state) :=
  (one_decision (runAll js db [request "1" 10 checkIn]) "v1" (by decide) both bothRead
    (Threads.reachable_schedule (.init rfl) _)).2.1 false _ rfl

end Reception

end Vms.VisitService
