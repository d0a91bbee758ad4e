import Vms.Theorems.Attendance.Invariant

/-! What the kiosk shows and what the server accepts. The state that a scan shows at an instant is read
    off the sessions of that day and the open ones before it; the five handlers check less than that.
    An accepted action is one that the scan of the same instant offers exactly under `Agrees`. -/

namespace Vms.Attendance
open Relational HttpException

/-! ### The state that a scan shows -/

/-- An open session of the staff member is left from before the day. -/
def OldOpen (s : Db) (staffId : String) (day : Date) : Prop :=
  ∃ x ∈ s.attendanceSession, x.staffId = staffId ∧ x.status = .open ∧ x.date < day

/-- A session of the staff member is dated the day. -/
structure OfDay (s : Db) (staffId : String) (day : Date) (x : AttendanceSession) : Prop where
  mem : x ∈ s.attendanceSession
  owner : x.staffId = staffId
  date : x.date = day

/-- No event of the session is later. -/
structure Latest (s : Db) (x : AttendanceSession) (e : AttendanceEvent) : Prop where
  mem : e ∈ eventsOf s x.id
  le : ∀ a ∈ eventsOf s x.id, a.timestamp ≤ e.timestamp

/-- The state of an open session with a last event. -/
def stateOf : Option AttendanceEventType → AttendanceState
  | some .breakStart => .onBreak
  | some .punchIn | some .breakEnd => .working
  | some .punchOut | some .latePunchOut | none => .noSessionToday

/-- The state that `getStateForScan` returns. -/
def shown (io : Io) (s : Db) (staffId : String) (day : Date) : AttendanceState :=
  match (io.sessions.desc (·.date) (s.attendanceSession.filter fun x =>
    x.staffId == staffId && x.status == .open && decide (x.date < day))).head? with
  | some _ => .previousSessionOpen
  | none =>
    match io.sessions.first (s.attendanceSession.filter fun x => x.staffId == staffId && x.date == day) with
    | none => .noSessionToday
    | some x => if x.status = .closed then .dayCompleted else stateOf ((lastEvent io s x.id).map (·.eventType))

/-- The actions that a scan offers in a state. -/
def AttendanceState.offers : AttendanceState → List Action
  | .noSessionToday => [.punchIn]
  | .working => [.breakStart, .punchOut]
  | .onBreak => [.breakEnd]
  | .dayCompleted => []
  | .previousSessionOpen => [.latePunchOutAndPunchIn]

/-- The state in which a scan offers an action. -/
def Action.state : Action → AttendanceState
  | .punchIn => .noSessionToday
  | .breakStart | .punchOut => .working
  | .breakEnd => .onBreak
  | .latePunchOutAndPunchIn => .previousSessionOpen

theorem mem_offers {action : Action} {state : AttendanceState} :
    action ∈ state.offers ↔ state = action.state := by
  cases action <;> cases state <;> simp [AttendanceState.offers, Action.state]

section Scan
variable {luxon : Luxon} {s : Db} {io : Io} {staff : Staff} {zone : Zone} {t : Date} {orgId systemId role : String}
  {dto : ScanAttendanceDto}

theorem getStateForScan_spec (hstaff : staff ∈ s.staff) (hzone : orgZone luxon s staff.orgId = some zone) :
    (getStateForScan luxon io staff.id (some t)).Returns
      (fun r u => u = s ∧ ∃ v, r = .ok v ∧ v.1 = shown io s staff.id (zone.startOfDay t)) s := by
  obtain ⟨tz, htz, hluxon⟩ := Option.bind_eq_some_iff.mp hzone
  have hday : startOfOrgDay luxon t tz = some (zone.startOfDay t) := by rw [startOfOrgDay, hluxon]; rfl
  have hfind : s.staff.find staff.id = some staff := Table.find_of_mem hstaff
  simp only [getStateForScan, Prog.returns_bind, returns_query, Prog.then_ok, hfind, Option.bind_some, htz, hday,
    Prog.returns_orFail, reduceCtorEq, false_implies, Option.some.injEq, forall_eq', true_and]
  unfold shown
  cases hold : (io.sessions.desc (·.date) (s.attendanceSession.filter fun x =>
      x.staffId == staff.id && x.status == .open && decide (x.date < zone.startOfDay t))).head? with
  | some openOldSession => exact ⟨rfl, _, rfl, rfl⟩
  | none =>
    simp only [Prog.returns_bind, returns_query, Prog.then_ok]
    cases hfirst : io.sessions.first (s.attendanceSession.filter fun x =>
        x.staffId == staff.id && x.date == zone.startOfDay t) with
    | none => exact ⟨rfl, _, rfl, rfl⟩
    | some x =>
      simp only [Option.map_some]
      split
      · exact ⟨rfl, _, rfl, rfl⟩
      · cases hlast : lastEvent io s x.id with
        | none => exact ⟨rfl, _, rfl, rfl⟩
        | some e =>
          rw [Option.map_some]
          cases htype : e.eventType <;> (simp only [htype]; exact ⟨rfl, _, rfl, rfl⟩)

theorem checkSystem_returns {code : String} (badge : Badge s orgId systemId role code staff) :
    (checkSystem orgId systemId role).Returns
      (fun r u => u = s ∧ ∃ org, s.organization.find orgId = some org ∧ r = .ok org) s := by
  obtain ⟨org, horg⟩ := Option.isSome_iff_exists.mp badge.organization
  obtain ⟨system, hsystem, hsystemOrg⟩ := badge.system
  have hfilter : (some system).filter (·.orgId == orgId) = some system := by simp [hsystemOrg]
  simp only [checkSystem, Prog.returns_bind, Prog.returns_failIf, Prog.then_ok, Prog.then_error, returns_query, horg,
    hsystem, hfilter, Prog.returns_orFail, badge.isSystem, List.mem_singleton, not_true_eq_false, false_implies,
    true_and, not_false_eq_true, true_implies, reduceCtorEq, Option.some.injEq, forall_eq', Prog.returns_pure]
  exact ⟨org, rfl, rfl⟩

/-- A scan at time `t` of the staff member's badge, or of the email if no badge is given. -/
structure ScanOf (staff : Staff) (t : Date) (dto : ScanAttendanceDto) : Prop where
  atTime : dto.scanTime = some t
  badge : truthy dto.employeeCode = staff.employeeCode ∨
    truthy dto.employeeCode = none ∧ truthy dto.email = some staff.email

theorem getStaffByEmployeeCode_returns {code : String} (badge : Badge s orgId systemId role code staff)
    (scanned : ScanOf staff t dto) : (getStaffByEmployeeCode orgId dto.employeeCode dto.email).Returns
      (fun r u => u = s ∧ r = .ok staff) s := by
  obtain ⟨org, horg⟩ := Option.isSome_iff_exists.mp badge.organization
  have hid : org.id = staff.orgId := (Table.find_eq_some.mp horg).2.trans badge.org.symm
  obtain ⟨hmem, hcode⟩ := badge.mem
  have byEmail : s.staff.findBy (·.email == staff.email) = some staff := by
    cases hfind : s.staff.findBy (·.email == staff.email) with
    | none => exact absurd (beq_self_eq_true _) (List.find?_eq_none.mp hfind staff hmem)
    | some other =>
      obtain ⟨hother, hemail⟩ := Table.mem_of_findBy hfind
      have hclash : Row.clash other staff = true := by
        show (_ || other.email == staff.email || _) = true
        rw [hemail]
        simp
      rw [Table.eq_of_clash hother hmem hclash]
  rcases scanned.badge with hscan | ⟨hnone, hscan⟩
  · rw [hcode] at hscan
    simp [getStaffByEmployeeCode, horg, hscan, badge.found, badge.active, hid]
  · simp [getStaffByEmployeeCode, horg, hnone, hscan, byEmail, badge.active, hid]

/-- A scan of an active badge shows the state of the day, with the actions of that state. -/
theorem scan_spec (io : Io) {code : String} (badge : Badge s orgId systemId role code staff)
    (hzone : orgZone luxon s staff.orgId = some zone) (scanned : ScanOf staff t dto) :
    (scan luxon io orgId systemId role dto).Returns
      (fun r _ => ∃ reply, r = .ok reply ∧
        reply.allowedActions = (shown io s staff.id (zone.startOfDay t)).offers) s := by
  rw [scan, Prog.returns_bind]
  refine (checkSystem_returns badge).mono fun r u hr => ?_
  obtain ⟨rfl, org, horg, rfl⟩ := hr
  rw [Prog.then_ok, Prog.returns_bind]
  refine (getStaffByEmployeeCode_returns badge scanned).mono fun r v hr => ?_
  obtain ⟨rfl, rfl⟩ := hr
  rw [Prog.then_ok, Prog.returns_bind, scanned.atTime]
  refine (getStateForScan_spec badge.mem.1 hzone).mono fun r w hr => ?_
  obtain ⟨rfl, ⟨state, session, last⟩, rfl, hstate⟩ := hr
  rw [← hstate, Prog.then_ok]
  obtain ⟨tz, htz, -⟩ := Option.bind_eq_some_iff.mp hzone
  rw [badge.org, horg] at htz
  cases state <;> simp [AttendanceState.offers, show truthy org.timezone = some tz from htz]

end Scan

/-! ### When every scan shows a state -/

section Shown
variable {s : Db} {io : Io} {staffId : String} {day : Date} {x : AttendanceSession} {e : AttendanceEvent}

theorem lastEvent_latest (h : lastEvent io s x.id = some e) : Latest s x e := by
  obtain ⟨hmem, hle⟩ := RowOrder.head_desc h
  exact ⟨hmem, hle⟩

theorem shown_old (h : OldOpen s staffId day) : shown io s staffId day = .previousSessionOpen := by
  obtain ⟨x, hx, howner, hopen, hdate⟩ := h
  unfold shown
  split
  · rfl
  · rename_i hnone
    have hmem : x ∈ s.attendanceSession.filter fun x =>
        x.staffId == staffId && x.status == .open && decide (x.date < day) :=
      Table.mem_filter.mpr ⟨hx, by simp [howner, hopen, hdate]⟩
    rw [RowOrder.head_desc_eq_none.mp hnone] at hmem
    cases hmem

/-- What a scan shows of a day, where no open session is left from before. -/
theorem shown_of_not_old (h : ¬OldOpen s staffId day) : shown io s staffId day =
    match io.sessions.first (s.attendanceSession.filter fun x => x.staffId == staffId && x.date == day) with
    | none => .noSessionToday
    | some x => if x.status = .closed then .dayCompleted else stateOf ((lastEvent io s x.id).map (·.eventType)) := by
  unfold shown
  split
  · rename_i x hx
    obtain ⟨hmem, hp⟩ := Table.mem_filter.mp (RowOrder.head_desc hx).1
    simp only [Bool.and_eq_true, beq_iff_eq, decide_eq_true_eq] at hp
    exact absurd ⟨x, hmem, hp.1.1, hp.1.2, hp.2⟩ h
  · rfl

theorem mem_ofDay : x ∈ s.attendanceSession.filter (fun x => x.staffId == staffId && x.date == day) ↔
    OfDay s staffId day x := by
  rw [Table.mem_filter, Bool.and_eq_true, beq_iff_eq, beq_iff_eq]
  exact ⟨fun ⟨hx, howner, hdate⟩ => ⟨hx, howner, hdate⟩, fun ⟨hx, howner, hdate⟩ => ⟨hx, howner, hdate⟩⟩

/-- The session that a scan looks at, if there is one. -/
theorem shown_cases (io : Io) (h : ¬OldOpen s staffId day) :
    (shown io s staffId day = .noSessionToday ∧ ∀ x, ¬OfDay s staffId day x) ∨
      ∃ x, OfDay s staffId day x ∧ shown io s staffId day =
        if x.status = .closed then .dayCompleted else stateOf ((lastEvent io s x.id).map (·.eventType)) := by
  rw [shown_of_not_old h]
  split
  · rename_i hnone
    refine Or.inl ⟨rfl, fun x hx => ?_⟩
    have hmem := mem_ofDay.mpr hx
    rw [RowOrder.first_eq_none.mp hnone] at hmem
    cases hmem
  · rename_i x hx
    exact Or.inr ⟨x, mem_ofDay.mp (RowOrder.mem_of_first hx), rfl⟩

/-- The store may return any session of the day, and any of its latest events. -/
theorem shown_chosen (io : Io) (h : ¬OldOpen s staffId day) (hx : OfDay s staffId day x) :
    shown { io with sessions := .front x } s staffId day =
      if x.status = .closed then .dayCompleted else stateOf ((lastEvent io s x.id).map (·.eventType)) := by
  rw [shown_of_not_old h, RowOrder.first_front (mem_ofDay.mpr hx)]
  rfl

theorem lastEvent_chosen (io : Io) (h : Latest s x e) : lastEvent { io with events := .front e } s x.id = some e :=
  RowOrder.head_desc_front h.mem h.le

end Shown

/-! ### Offered actions -/

/-- An open session is in the state `state` at each of its latest events. -/
def Stands (s : Db) (x : AttendanceSession) (state : AttendanceState) : Prop :=
  x.status = .open ∧ ∀ e, Latest s x e → stateOf (some e.eventType) = state

/-- The sessions of the staff member show nothing but `state` on a day. -/
def Uniform (s : Db) (staffId : String) (day : Date) (state : AttendanceState) : Prop :=
  ¬OldOpen s staffId day ∧ (∃ x, OfDay s staffId day x) ∧ ∀ x, OfDay s staffId day x → Stands s x state

/-- The condition under which an action that the server accepts is one that a scan offers. -/
def Agrees (s : Db) (staffId : String) (day : Date) : Action → Prop
  | .punchIn => ∀ x, ¬OfDay s staffId day x
  | .breakStart | .punchOut => Uniform s staffId day .working
  | .breakEnd => Uniform s staffId day .onBreak
  | .latePunchOutAndPunchIn => OldOpen s staffId day

section Agrees
variable {luxon : Luxon} {s : Db} {staffId : String} {day : Date} {x : AttendanceSession} {state : AttendanceState}

/-- An open session of a reachable state is at work or on a break. -/
theorem stateOf_running (inv : Inv luxon s) (hx : x ∈ s.attendanceSession) (hopen : x.status = .open) (io : Io) :
    ∃ e, lastEvent io s x.id = some e ∧ stateOf (some e.eventType) ≠ .noSessionToday := by
  obtain ⟨-, -, e, he, -⟩ := inv.started x hx
  cases hlast : lastEvent io s x.id with
  | none =>
    have hnil : eventsOf s x.id = [] := RowOrder.head_desc_eq_none.mp hlast
    rw [hnil] at he
    cases he
  | some last =>
    obtain ⟨hout, hlate⟩ := inv.running x hx hopen last (lastEvent_latest hlast).mem
    refine ⟨last, rfl, ?_⟩
    cases htype : last.eventType <;> simp_all [stateOf]

theorem stateOf_ne_previous {last : Option AttendanceEventType} : stateOf last ≠ .previousSessionOpen := by
  rcases last with _ | (_ | _ | _ | _ | _) <;> nofun

theorem all_noSession_iff (inv : Inv luxon s) (io : Io) (h : ¬OldOpen s staffId day) :
    (∀ io, shown io s staffId day = .noSessionToday) ↔ ∀ x, ¬OfDay s staffId day x := by
  constructor
  · intro hshown x hx
    have hchosen := hshown { io with sessions := .front x }
    rw [shown_chosen io h hx] at hchosen
    split at hchosen
    · cases hchosen
    · rename_i hclosed
      have hopen : x.status = .open := by cases hstatus : x.status <;> simp_all
      obtain ⟨e, hlast, hne⟩ := stateOf_running inv hx.mem hopen io
      rw [hlast] at hchosen
      exact hne hchosen
  · intro hnone io
    rcases shown_cases io h with ⟨hshown, -⟩ | ⟨x, hx, -⟩
    · exact hshown
    · exact absurd hx (hnone x)

theorem all_uniform_iff (inv : Inv luxon s) (io : Io) (hstate : state = .working ∨ state = .onBreak) :
    (∀ io, shown io s staffId day = state) ↔ Uniform s staffId day state := by
  constructor
  · intro hshown
    have hold : ¬OldOpen s staffId day := fun hold => by
      have := (hshown io).symm.trans (shown_old hold)
      rcases hstate with rfl | rfl <;> cases this
    refine ⟨hold, ?_, fun x hx => ?_⟩
    · rcases shown_cases io hold with ⟨hnone, -⟩ | ⟨x, hx, -⟩
      · have := (hshown io).symm.trans hnone
        rcases hstate with rfl | rfl <;> cases this
      · exact ⟨x, hx⟩
    · -- the store may return any of the sessions, and any of its latest events
      have hchosen : ∀ io : Io, (if x.status = .closed then AttendanceState.dayCompleted
          else stateOf ((lastEvent io s x.id).map (·.eventType))) = state := fun io =>
        (shown_chosen io hold hx).symm.trans (hshown _)
      have hopen : x.status = .open := by
        cases hstatus : x.status with
        | «open» => rfl
        | closed =>
          have := hchosen io
          rw [if_pos hstatus] at this
          rcases hstate with rfl | rfl <;> cases this
      refine ⟨hopen, fun e he => ?_⟩
      have := hchosen { io with events := .front e }
      rw [if_neg (by rw [hopen]; nofun), lastEvent_chosen io he] at this
      exact this
  · rintro ⟨hold, ⟨x₀, hx₀⟩, hall⟩ io
    rcases shown_cases io hold with ⟨-, hnone⟩ | ⟨x, hx, hshown⟩
    · exact absurd hx₀ (hnone x₀)
    · obtain ⟨hopen, hlatest⟩ := hall x hx
      obtain ⟨e, hlast, -⟩ := stateOf_running inv hx.mem hopen io
      rw [hshown, if_neg (by rw [hopen]; nofun), hlast]
      exact hlatest e (lastEvent_latest hlast)

theorem all_previous_iff (io : Io) : (∀ io, shown io s staffId day = .previousSessionOpen) ↔ OldOpen s staffId day := by
  constructor
  · intro hshown
    by_contra hold
    rcases shown_cases io hold with ⟨hnone, -⟩ | ⟨x, -, hx⟩
    · exact AttendanceState.noConfusion (hnone.symm.trans (hshown io))
    · have := hx.symm.trans (hshown io)
      split at this
      · cases this
      · exact stateOf_ne_previous this
  · intro hold io
    exact shown_old hold

end Agrees

/-! ### Refinement -/

/-- The instant of an action: its time, or the time of the new punch-in of a late flow. -/
def Request.time (q : Request) : JsDate :=
  match q.dto.action with
  | .latePunchOutAndPunchIn => q.dto.currentPunchInTime.join
  | _ => q.dto.time.getD (some q.io.now)

/-- Every scan of the staff member at `t` by the same system account offers the action of the request. -/
def Offered (luxon : Luxon) (s : Db) (q : Request) (staff : Staff) (t : Date) : Prop :=
  ∀ io dto, ScanOf staff t dto → (scan luxon io q.orgId q.systemId q.role dto).Returns
    (fun r _ => ∃ reply, r = .ok reply ∧ q.dto.action ∈ reply.allowedActions) s

section Refinement
variable {luxon : Luxon} {s s' : Db} {q : Request} {staff : Staff} {zone : Zone} {t : Date}

theorem offered_iff (badge : q.Badge s staff) (hzone : orgZone luxon s staff.orgId = some zone) :
    Offered luxon s q staff t ↔ ∀ io, shown io s staff.id (zone.startOfDay t) = q.dto.action.state := by
  constructor
  · intro hoffered io
    have scanned : ScanOf staff t { employeeCode := some q.dto.employeeCode, scanTime := some t } :=
      ⟨rfl, Or.inl (by rw [badge.mem.2]; exact truthy_eq_some.mpr ⟨rfl, badge.given⟩)⟩
    obtain ⟨reply, hreply, hmem⟩ := hoffered io _ scanned
    obtain ⟨reply', hreply', hactions⟩ := scan_spec io badge hzone scanned
    obtain rfl := Except.ok.inj (hreply.symm.trans hreply')
    rw [hactions] at hmem
    exact mem_offers.mp hmem
  · intro hshown io dto scanned
    refine (scan_spec io badge hzone scanned).mono fun r u hr => ?_
    obtain ⟨reply, rfl, hactions⟩ := hr
    exact ⟨reply, rfl, by rw [hactions]; exact mem_offers.mpr (hshown io)⟩

/-- An accepted action is one of a staff member whose organisation has a time zone. -/
theorem Acted.located (inv : Inv luxon s) (badge : q.Badge s staff) (h : Acted luxon s q staff s') :
    ∃ zone, orgZone luxon s staff.orgId = some zone := by
  have located : ∀ {x}, x ∈ s.attendanceSession → x.staffId = staff.id →
      ∃ zone, orgZone luxon s staff.orgId = some zone := fun hx howner => by
    obtain ⟨other, hother, hid, hzone⟩ := inv.located _ hx
    obtain rfl := Table.eq_of_id hother badge.mem.1 (hid.trans howner)
    exact Option.isSome_iff_exists.mp hzone
  cases h with
  | punchIn zone time action may opens => exact ⟨zone, may.inZone⟩
  | breakStart x time action may marks => exact located may.names.mem may.names.owner
  | breakEnd x time action may marks => exact located may.names.mem may.names.owner
  | punchOut x x' time action may closes => exact located may.names.mem may.names.owner
  | late x x' zone approxOut punchIn u action may closes opens => exact ⟨zone, may.inZone⟩

/-- The handlers check what is needed of the open sessions from before the day: what is left is `Agrees`. -/
theorem Acted.all_shown_iff (inv : Inv luxon s) (h : Acted luxon s q staff s') (htime : q.time = some t)
    (hzone : orgZone luxon s staff.orgId = some zone) :
    (∀ io, shown io s staff.id (zone.startOfDay t) = q.dto.action.state) ↔
      Agrees s staff.id (zone.startOfDay t) q.dto.action := by
  cases h with
  | punchIn zone' time action may opens =>
    obtain rfl := Option.some.inj (hzone.symm.trans may.inZone)
    rw [Request.time, action] at htime
    obtain rfl := Option.some.inj (htime.symm.trans may.atTime)
    rw [action]
    refine all_noSession_iff inv q.io fun ⟨x, hx, howner, hopen, hdate⟩ => ?_
    exact lt_asymm hdate (may.noneOpen x hx howner hopen)
  | breakStart x time action may marks =>
    rw [action]
    exact all_uniform_iff inv q.io (Or.inl rfl)
  | breakEnd x time action may marks =>
    rw [action]
    exact all_uniform_iff inv q.io (Or.inr rfl)
  | punchOut x x' time action may closes =>
    rw [action]
    exact all_uniform_iff inv q.io (Or.inl rfl)
  | late x x' zone' approxOut punchIn u action may closes opens =>
    rw [action]
    exact all_previous_iff q.io

/-- An action that the server accepts of a staff member at `t` is one that a scan at `t` offers exactly
    if: no session is dated the day, for a punch-in; an open session is dated before the day, for a late
    punch-out; and else no such session is left open, and the sessions of the day are all open and at
    work (on a break, for the end of one). -/
theorem accepted_offered_iff {reply : ActionReply} (h : (attendance luxon).Reachable s)
    (accepted : Prog.Exec (q.call luxon) s (.ok reply) s') (hstaff : staff ∈ s.staff)
    (hcode : staff.employeeCode = some q.dto.employeeCode) (htime : q.time = some t) :
    Offered luxon s q staff t ↔
      ∃ zone, orgZone luxon s staff.orgId = some zone ∧ Agrees s staff.id (zone.startOfDay t) q.dto.action := by
  obtain ⟨staff', badge, acted⟩ := action_accepted accepted
  have hclash : Row.clash staff' staff = true := by
    show (_ || _ || sameValue staff'.employeeCode staff.employeeCode) = true
    rw [badge.mem.2, hcode]
    simp [sameValue]
  obtain rfl := Table.eq_of_clash badge.mem.1 hstaff hclash
  have inv := reachable_inv h
  obtain ⟨zone, hzone⟩ := acted.located inv badge
  rw [offered_iff badge hzone, acted.all_shown_iff inv htime hzone]
  constructor
  · exact fun agrees => ⟨zone, hzone, agrees⟩
  · rintro ⟨zone', hzone', agrees⟩
    obtain rfl := Option.some.inj (hzone.symm.trans hzone')
    exact agrees

end Refinement

section Office
open Office

theorem accepted_offered_iff_office : Offered utc (runAll utc db firstDay) (request "3" .punchIn (33 * hour)) ann (33 * hour) ↔
    ∃ zone, orgZone utc (runAll utc db firstDay) ann.orgId = some zone ∧
      Agrees (runAll utc db firstDay) ann.id (zone.startOfDay (33 * hour)) .punchIn := by
  have accepted : Prog.Exec (Request.call utc (request "3" .punchIn (33 * hour))) (runAll utc db firstDay)
      (.ok (.punchIn "s3" (33 * hour))) _ := Prog.exec_run (Request.call utc (request "3" .punchIn (33 * hour))) _
  exact accepted_offered_iff (reachable firstDay) accepted (List.mem_singleton.mpr rfl) rfl rfl

/-- The server accepts a punch-in on a day that a scan shows as completed. -/
theorem accepted_not_offered : ¬∀ luxon s q staff t reply s', (attendance luxon).Reachable s →
    Prog.Exec (q.call luxon) s (.ok reply) s' → staff ∈ s.staff → staff.employeeCode = some q.dto.employeeCode →
    q.time = some t → Offered luxon s q staff t := fun h => by
  have hoffered := h utc _ (request "3" .punchIn (18 * hour)) ann (18 * hour) (.punchIn "s3" (18 * hour)) _
    (reachable firstDay) (Prog.exec_run (Request.call utc (request "3" .punchIn (18 * hour))) _)
    (List.mem_singleton.mpr rfl) rfl rfl
  obtain ⟨reply, hreply, hmem⟩ := hoffered (request "3" .punchIn (18 * hour)).io
    { employeeCode := some "ANN1", scanTime := some (18 * hour) } ⟨rfl, Or.inl (by decide)⟩
  have hscan : ((scan utc (request "3" .punchIn (18 * hour)).io "org" "kiosk" "System"
      { employeeCode := some "ANN1", scanTime := some (18 * hour) }).run (runAll utc db firstDay)).1 =
        .ok { staffId := "ann", staffName := "Ann", state := .dayCompleted, allowedActions := [],
              message := some "You have already completed attendance for today." } := rfl
  obtain rfl := Except.ok.inj (hscan.symm.trans hreply)
  cases hmem

end Office

end Vms.Attendance
