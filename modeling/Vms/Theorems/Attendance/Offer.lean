import Vms.Theorems.Attendance.Kiosk

/-! What the kiosk offers works: an action that a scan offers is accepted in the same state, at the time of
    the scan and with the session that it returns. The one thing that a scan cannot know is whether the
    seconds that the closing of a session adds up fit their columns (`TotalsFit`). -/

namespace Vms.Attendance
open Relational HttpException

/-! ### What a scan sees -/

/-- The session that a scan looks at in each state. -/
inductive Seen (io : Io) (s : Db) (staffId : String) (day : Date) : AttendanceState → Option AttendanceSession → Prop where
  | previous {x : AttendanceSession} (mem : x ∈ s.attendanceSession) (owner : x.staffId = staffId) (isOpen : x.status = .open) :
    Seen io s staffId day .previousSessionOpen (some x)
  | noSession (old : ¬OldOpen s staffId day) (noneToday : ∀ x, ¬OfDay s staffId day x) : Seen io s staffId day .noSessionToday none
  | closed : Seen io s staffId day .dayCompleted none
  | ended {x : AttendanceSession} (ofDay : OfDay s staffId day x) (isOpen : x.status = .open)
    (last : stateOf ((lastEvent io s x.id).map (·.eventType)) = .noSessionToday) : Seen io s staffId day .noSessionToday none
  | working {x : AttendanceSession} {e : AttendanceEvent} (ofDay : OfDay s staffId day x) (isOpen : x.status = .open)
    (last : lastEvent io s x.id = some e) (type : e.eventType = .punchIn ∨ e.eventType = .breakEnd) :
    Seen io s staffId day .working (some x)
  | onBreak {x : AttendanceSession} {e : AttendanceEvent} (ofDay : OfDay s staffId day x) (isOpen : x.status = .open)
    (last : lastEvent io s x.id = some e) (type : e.eventType = .breakStart) : Seen io s staffId day .onBreak (some x)

section Scan
variable {luxon : Luxon} {s : Db} {io : Io} {staff : Staff} {zone : Zone} {t : Date} {orgId systemId role code : String}
  {dto : ScanAttendanceDto}

theorem getStateForScan_seen (hstaff : staff ∈ s.staff) (hzone : orgZone luxon s staff.orgId = some zone) :
    (getStateForScan luxon io staff.id (some t)).Returns
      (fun r u => u = s ∧ ∃ v, r = .ok v ∧ Seen io s staff.id (zone.startOfDay t) v.1 v.2.1) s := by
  obtain ⟨tz, htz, hluxon⟩ := Option.bind_eq_some_iff.mp hzone
  have hday : startOfOrgDay luxon t tz = some (zone.startOfDay t) := by rw [startOfOrgDay, hluxon]; rfl
  have hfind : s.staff.find staff.id = some staff := Table.find_of_mem hstaff
  simp only [getStateForScan, Prog.returns_bind, returns_query, Prog.then_ok, hfind, Option.bind_some, htz, hday,
    Prog.returns_orFail, reduceCtorEq, false_implies, Option.some.injEq, forall_eq', true_and]
  cases hold : (io.sessions.desc (·.date) (s.attendanceSession.filter fun x =>
      x.staffId == staff.id && x.status == .open && decide (x.date < zone.startOfDay t))).head? with
  | some x =>
    obtain ⟨hmem, hp⟩ := Table.mem_filter.mp (RowOrder.head_desc hold).1
    simp only [Bool.and_eq_true, beq_iff_eq] at hp
    exact ⟨rfl, _, rfl, .previous hmem hp.1.1 hp.1.2⟩
  | none =>
    have hnotOld : ¬OldOpen s staff.id (zone.startOfDay t) := by
      rintro ⟨x, hx, howner, hopen, hdate⟩
      have hmem : x ∈ s.attendanceSession.filter fun x =>
          x.staffId == staff.id && x.status == .open && decide (x.date < zone.startOfDay t) :=
        Table.mem_filter.mpr ⟨hx, by simp [howner, hopen, hdate]⟩
      rw [RowOrder.head_desc_eq_none.mp hold] at hmem
      cases hmem
    simp only [Prog.returns_bind, returns_query, Prog.then_ok]
    cases hfirst : io.sessions.first (s.attendanceSession.filter fun x =>
        x.staffId == staff.id && x.date == zone.startOfDay t) with
    | none =>
      refine ⟨rfl, _, rfl, .noSession hnotOld fun x hx => ?_⟩
      have hmem := mem_ofDay.mpr hx
      rw [RowOrder.first_eq_none.mp hfirst] at hmem
      cases hmem
    | some x =>
      have hday := mem_ofDay.mp (RowOrder.mem_of_first hfirst)
      simp only [Option.map_some]
      split
      · exact ⟨rfl, _, rfl, .closed⟩
      · rename_i hclosed
        have hopen : x.status = .open := by cases hstatus : x.status <;> simp_all
        cases hlast : lastEvent io s x.id with
        | none => exact ⟨rfl, _, rfl, .ended hday hopen (by rw [hlast]; rfl)⟩
        | some e =>
          have ended (h : stateOf (some e.eventType) = .noSessionToday) : Seen io s staff.id (zone.startOfDay t) .noSessionToday none :=
            .ended hday hopen (by rw [hlast]; exact h)
          cases htype : e.eventType <;> rw [htype] at ended <;> simp only [htype]
          · exact ⟨rfl, _, rfl, .working hday hopen hlast (Or.inl htype)⟩
          · exact ⟨rfl, _, rfl, ended rfl⟩
          · exact ⟨rfl, _, rfl, .onBreak hday hopen hlast htype⟩
          · exact ⟨rfl, _, rfl, .working hday hopen hlast (Or.inr htype)⟩
          · exact ⟨rfl, _, rfl, ended rfl⟩

/-- Without a valid time zone a scan fails. -/
theorem zone_of_scan (hstaff : staff ∈ s.staff) (h : (getStateForScan luxon io staff.id (some t)).Returns
    (fun r _ => ∃ v, r = .ok v) s) : ∃ zone, orgZone luxon s staff.orgId = some zone := by
  have hfind : s.staff.find staff.id = some staff := Table.find_of_mem hstaff
  cases htz : truthy ((s.organization.find staff.orgId).bind (·.timezone)) with
  | none => simp [getStateForScan, hfind, htz] at h
  | some tz =>
    cases hluxon : luxon tz with
    | none => simp [getStateForScan, hfind, htz, startOfOrgDay, hluxon] at h
    | some zone => exact ⟨zone, by rw [orgZone, htz, Option.bind_some, hluxon]⟩

/-- The reply to a scan: the actions of a state, and the session that the scan has seen in it. -/
theorem scan_seen (badge : Badge s orgId systemId role code staff) (scanned : ScanOf staff t dto) {reply : ScanReply}
    (h : ((scan luxon io orgId systemId role dto).run s).1 = .ok reply) :
    ∃ zone state session, orgZone luxon s staff.orgId = some zone ∧ Seen io s staff.id (zone.startOfDay t) state session ∧
      reply.allowedActions = state.offers ∧ reply.sessionId = session.map (·.id) := by
  obtain ⟨hsystem, org, horg, hsystem'⟩ := checkSystem_returns badge
  obtain ⟨hstaff, hstaff'⟩ := getStaffByEmployeeCode_returns badge scanned
  have hsystemRun : (checkSystem orgId systemId role).run s = (.ok org, s) := Prod.ext hsystem' hsystem
  have hstaffRun : (getStaffByEmployeeCode orgId dto.employeeCode dto.email).run s = (.ok staff, s) :=
    Prod.ext hstaff' hstaff
  rw [scan, Prog.run_bind_ok hsystemRun, Prog.run_bind_ok hstaffRun, scanned.atTime] at h
  cases hstate : (getStateForScan luxon io staff.id (some t)).run s with
  | mk r u =>
    cases r with
    | error e =>
      rw [Prog.run_bind_error hstate] at h
      cases h
    | ok v =>
      have hok : (getStateForScan luxon io staff.id (some t)).Returns (fun r _ => ∃ v, r = .ok v) s :=
        ⟨v, congrArg Prod.fst hstate⟩
      obtain ⟨zone, hzone⟩ := zone_of_scan badge.mem.1 hok
      have hseen : (getStateForScan luxon io staff.id (some t)).Returns (fun r u => u = s ∧
          ∃ v, r = .ok v ∧ Seen io s staff.id (zone.startOfDay t) v.1 v.2.1) s := getStateForScan_seen badge.mem.1 hzone
      obtain ⟨hsame, v', hv', seen⟩ := hseen
      rw [hstate] at hsame hv'
      cases hv'
      obtain rfl : u = s := hsame
      rw [Prog.run_bind_ok hstate] at h
      obtain ⟨state, session, last⟩ := v
      refine ⟨zone, state, session, hzone, seen, ?_⟩
      cases state with
      | noSessionToday =>
        obtain rfl : session = none := by cases seen <;> rfl
        cases h
        exact ⟨rfl, rfl⟩
      | working =>
        cases h
        exact ⟨rfl, rfl⟩
      | onBreak =>
        cases h
        exact ⟨rfl, rfl⟩
      | dayCompleted =>
        obtain rfl : session = none := by cases seen; rfl
        cases h
        exact ⟨rfl, rfl⟩
      | previousSessionOpen =>
        cases htz : truthy org.timezone with
        | none => simp [htz, Prog.orFail, Prog.run, Bind.bind, Prog.bind] at h
        | some tz =>
          simp only [htz] at h
          cases h
          exact ⟨rfl, rfl⟩

end Scan

/-! ### What the handlers need -/

/-- The identifiers that a request draws are new. -/
structure Fresh (s : Db) (io : Io) : Prop where
  session : ∀ x ∈ s.attendanceSession, x.id ≠ io.sessionId
  event : ∀ e ∈ s.attendanceEvent, e.id ≠ io.eventId
  lateEvent : ∀ e ∈ s.attendanceEvent, e.id ≠ io.lateEventId
  distinct : io.lateEventId ≠ io.eventId

/-- The seconds that a session has if it is closed at an event fit their columns. -/
def TotalsFit (s : Db) (io : Io) (sessionId : String) (e : AttendanceEvent) : Prop :=
  let totals := recalcTotals ((io.events.asc (·.timestamp) (eventsOf s sessionId) ++ [e]).map (·.mark))
  fitsInt totals.1 = true ∧ fitsInt totals.2 = true

instance (s : Db) (io : Io) (sessionId : String) (e : AttendanceEvent) : Decidable (TotalsFit s io sessionId e) :=
  inferInstanceAs (Decidable (_ ∧ _))

/-- The request passes. -/
def Accepts (p : Service ActionReply) (s : Db) : Prop := p.Returns (fun r _ => ∃ reply, r = .ok reply) s

section Statements
variable {s : Db}

theorem createSession_accepts {x : AttendanceSession} {Q : Except HttpException AttendanceSession → Db → Prop}
    (horg : (s.organization.find x.orgId).isSome) (hstaff : (s.staff.find x.staffId).isSome)
    (fresh : ∀ y ∈ s.attendanceSession, y.id ≠ x.id)
    (added : ∀ u, s.attendanceSession.insert x = some u → Q (.ok x) { s with attendanceSession := u }) :
    (createSession x).Returns Q s := by
  obtain ⟨u, hu⟩ : ∃ u, s.attendanceSession.insert x = some u :=
    Table.insert_of_free fun y hy => by simpa [Row.conflict, Row.id, Row.clash] using fresh y hy
  rw [createSession, returns_mutate]
  simp only [created, horg, hstaff, hu, Bool.and_self, if_true, reduceCtorEq, false_implies, implies_true, true_and]
  intro a t h
  cases h
  exact added u hu

theorem createEvent_accepts {e : AttendanceEvent} {x : AttendanceSession} {Q : Except HttpException AttendanceEvent → Db → Prop}
    (horg : (s.organization.find e.orgId).isSome) (hstaff : (s.staff.find e.staffId).isSome)
    (hx : x ∈ s.attendanceSession) (hsession : e.sessionId = some x.id) (fresh : ∀ a ∈ s.attendanceEvent, a.id ≠ e.id)
    (added : ∀ u, s.attendanceEvent.insert e = some u → Q (.ok e) { s with attendanceEvent := u }) :
    (createEvent e).Returns Q s := by
  obtain ⟨u, hu⟩ : ∃ u, s.attendanceEvent.insert e = some u :=
    Table.insert_of_free fun a ha => by simpa [Row.conflict, Row.id, Row.clash] using fresh a ha
  have hfound : (s.attendanceSession.find x.id).isSome := Option.isSome_of_eq_some (Table.find_of_mem hx)
  rw [createEvent, returns_mutate]
  simp only [created, horg, hstaff, hsession, Option.all_some, hfound, hu, Bool.and_self, if_true, reduceCtorEq, false_implies,
    implies_true, true_and]
  intro a t h
  cases h
  exact added u hu

theorem closeSession_accepts {x : AttendanceSession} {totals : Int × Int} {close : AttendanceSession → AttendanceSession}
    {keys : Row.Fixes close} {Q : Except HttpException Unit → Db → Prop} (hx : x ∈ s.attendanceSession)
    (hfits : fitsInt totals.1 = true ∧ fitsInt totals.2 = true)
    (closed : ∀ u : Table AttendanceSession, (∀ y, y ∈ u ↔ y = close x ∨ (y ∈ s.attendanceSession ∧ y.id ≠ x.id)) →
      Q (.ok ()) { s with attendanceSession := u }) : (closeSession x.id totals close keys).Returns Q s := by
  have hfound : s.attendanceSession.find x.id = some x := Table.find_of_mem hx
  rw [closeSession, returns_mutate]
  simp only [hfits.1, hfits.2, hfound, Bool.and_self, Bool.not_true, Bool.false_eq_true, if_false, Option.isNone_some,
    reduceCtorEq, false_implies, implies_true, true_and]
  intro _ t h
  cases h
  exact closed _ (Table.mem_update_one keys hx fun _ _ => beq_iff_eq)

theorem openSession_accepts {x : AttendanceSession} {missing notOpen : String}
    {Q : Except HttpException AttendanceSession → Db → Prop} (hx : x ∈ s.attendanceSession) (hopen : x.status = .open)
    (found : Q (.ok x) s) : (openSession x.staffId x.id missing notOpen).Returns Q s := by
  have hfind : s.attendanceSession.find x.id = some x := Table.find_of_mem hx
  simpa [openSession, hfind, hopen] using found

end Statements

section Handlers
variable {luxon : Luxon} {s : Db} {io : Io} {dto : AttendanceActionDto} {staff : Staff} {x : AttendanceSession}
  {zone : Zone} {t : Date}

theorem handlePunchIn_accepts (horg : (s.organization.find staff.orgId).isSome) (hstaff : staff ∈ s.staff)
    (hzone : orgZone luxon s staff.orgId = some zone) (htime : dto.time = some (some t)) (fresh : Fresh s io)
    (old : ¬OldOpen s staff.id (zone.startOfDay t)) (noneToday : ∀ x, ¬OfDay s staff.id (zone.startOfDay t) x) :
    Accepts (handlePunchIn luxon io staff.id staff.orgId dto) s := by
  obtain ⟨tz, htz, hluxon⟩ := Option.bind_eq_some_iff.mp hzone
  have hday : startOfOrgDay luxon t tz = some (zone.startOfDay t) := by rw [startOfOrgDay, hluxon]; rfl
  have hstaff' : (s.staff.find staff.id).isSome := Option.isSome_of_eq_some (Table.find_of_mem hstaff)
  have hold : io.sessions.first (s.attendanceSession.filter fun x =>
      x.staffId == staff.id && x.status == .open && decide (x.date < zone.startOfDay t)) = none := by
    refine RowOrder.first_eq_none.mpr (List.eq_nil_iff_forall_not_mem.mpr fun x hx => ?_)
    obtain ⟨hmem, hp⟩ := Table.mem_filter.mp hx
    simp only [Bool.and_eq_true, beq_iff_eq, decide_eq_true_eq] at hp
    exact old ⟨x, hmem, hp.1.1, hp.1.2, hp.2⟩
  have htoday : io.sessions.first (s.attendanceSession.filter fun x =>
      x.staffId == staff.id && x.status == .open && x.date == zone.startOfDay t) = none := by
    refine RowOrder.first_eq_none.mpr (List.eq_nil_iff_forall_not_mem.mpr fun x hx => ?_)
    obtain ⟨hmem, hp⟩ := Table.mem_filter.mp hx
    simp only [Bool.and_eq_true, beq_iff_eq] at hp
    exact noneToday x ⟨hmem, hp.1.1, hp.2⟩
  simp only [Accepts, handlePunchIn, actionTime, htime, Option.getD_some, Prog.returns_bind, Prog.returns_orFail, Prog.then_ok,
    Prog.then_error, returns_query, htz, returns_transaction, hday, hold, htoday, Prog.returns_failIf, reduceCtorEq,
    false_implies, Option.some.injEq, forall_eq', true_and, Option.isSome_none, Bool.false_eq_true, not_false_eq_true,
    true_implies]
  refine createSession_accepts horg hstaff' fresh.session fun u hu => ?_
  rw [Prog.then_ok, Prog.returns_bind]
  refine createEvent_accepts (x := newSession io.sessionId staff.orgId staff.id (zone.startOfDay t) t) horg hstaff'
    ((Table.mem_insert hu).mpr (Or.inr rfl)) rfl fresh.event fun v hv => ?_
  exact ⟨_, rfl⟩

theorem handleBreak_accepts {eventType : AttendanceEventType} {admits : AttendanceEventType → Bool}
    {required refused : String} {reply : Date → ActionReply} (horg : (s.organization.find staff.orgId).isSome)
    (hstaff : staff ∈ s.staff) (names : Names s staff.id dto.sessionId x) (htime : dto.time = some (some t)) (fresh : Fresh s io)
    {e : AttendanceEvent} (hlast : lastEvent io s x.id = some e) (hadmits : admits e.eventType = true) :
    Accepts (handleBreak eventType admits required refused reply io staff.id staff.orgId dto) s := by
  have hstaff' : (s.staff.find staff.id).isSome := Option.isSome_of_eq_some (Table.find_of_mem hstaff)
  simp only [Accepts, handleBreak, actionTime, htime, names.id, Option.getD_some, Prog.returns_bind, Prog.returns_orFail,
    Prog.then_ok, Prog.then_error, returns_transaction, reduceCtorEq, false_implies, Option.some.injEq, forall_eq', true_and,
    ← names.owner]
  refine openSession_accepts names.mem names.isOpen ?_
  have hfilter : (some e).filter (fun last => admits last.eventType) = some e := by simp [hadmits]
  simp only [Prog.then_ok, returns_query, Prog.returns_bind, Prog.returns_orFail, hlast, hfilter, reduceCtorEq, false_implies,
    Option.some.injEq, forall_eq', true_and]
  rw [names.owner]
  refine createEvent_accepts horg hstaff' names.mem rfl fresh.event fun u hu => ?_
  exact ⟨_, rfl⟩

theorem handlePunchOut_accepts (horg : (s.organization.find staff.orgId).isSome) (hstaff : staff ∈ s.staff)
    (names : Names s staff.id dto.sessionId x) (htime : dto.time = some (some t)) (fresh : Fresh s io)
    (fits : TotalsFit s io x.id (newEvent io.eventId staff.orgId staff.id x.id .punchOut t)) :
    Accepts (handlePunchOut io staff.id staff.orgId dto) s := by
  have hstaff' : (s.staff.find staff.id).isSome := Option.isSome_of_eq_some (Table.find_of_mem hstaff)
  simp only [Accepts, handlePunchOut, actionTime, htime, names.id, Option.getD_some, Prog.returns_bind, Prog.returns_orFail,
    Prog.then_ok, Prog.then_error, returns_transaction, reduceCtorEq, false_implies, Option.some.injEq, forall_eq', true_and]
  rw [← names.owner] at hstaff' fits ⊢
  refine openSession_accepts names.mem names.isOpen ?_
  simp only [Prog.then_ok, returns_query, Prog.returns_bind]
  refine createEvent_accepts horg hstaff' names.mem rfl fresh.event fun u hu => ?_
  rw [Prog.then_ok, Prog.returns_bind]
  refine closeSession_accepts names.mem fits fun w hw => ?_
  exact ⟨_, rfl⟩

theorem handleLate_accepts {first approx : Date} (horg : (s.organization.find staff.orgId).isSome) (hstaff : staff ∈ s.staff)
    (hzone : orgZone luxon s staff.orgId = some zone) (names : Names s staff.id dto.previousSessionId x)
    (hin : dto.currentPunchInTime = some (some t)) (hout : dto.approxPunchOutTime = some (some approx))
    (hfirst : x.firstPunchInAt = some first) (hafter : first < approx) (hbefore : approx < t) (fresh : Fresh s io)
    (fits : TotalsFit s io x.id (newLateEvent io.lateEventId staff.orgId staff.id x.id approx dto.reason)) :
    Accepts (handleLatePunchOutAndPunchIn luxon io staff.id staff.orgId dto) s := by
  obtain ⟨tz, htz, hluxon⟩ := Option.bind_eq_some_iff.mp hzone
  have hday : startOfOrgDay luxon t tz = some (zone.startOfDay t) := by rw [startOfOrgDay, hluxon]; rfl
  have hstaff' : (s.staff.find staff.id).isSome := Option.isSome_of_eq_some (Table.find_of_mem hstaff)
  have hnotBefore : notBefore (some approx) (some t) = false := by simpa [notBefore] using hbefore
  have hnotAfter : decide (approx ≤ first) = false := by simpa using hafter
  simp only [Accepts, handleLatePunchOutAndPunchIn, names.id, hout, hin, hnotBefore, htz, Prog.returns_bind, Prog.returns_orFail,
    Prog.then_ok, Prog.then_error, returns_query, returns_transaction, Prog.returns_failIf, reduceCtorEq, false_implies,
    Option.some.injEq, forall_eq', true_and, Bool.false_eq_true, not_false_eq_true, true_implies]
  rw [← names.owner] at hstaff' fits ⊢
  refine openSession_accepts names.mem names.isOpen ?_
  simp only [Prog.then_ok, Prog.then_error, returns_query, Prog.returns_bind, Prog.returns_failIf, hfirst, Option.any_some,
    hnotAfter, Bool.false_eq_true, false_implies, not_false_eq_true, true_implies, true_and]
  refine createEvent_accepts horg hstaff' names.mem rfl fresh.lateEvent fun u hu => ?_
  rw [Prog.then_ok, Prog.returns_bind]
  refine closeSession_accepts names.mem fits fun w hw => ?_
  simp only [Prog.then_ok, Prog.then_error, Prog.returns_bind, Prog.returns_orFail, hday, reduceCtorEq, false_implies,
    Option.some.injEq, forall_eq', true_and]
  have freshSession : ∀ y ∈ w, y.id ≠ io.sessionId := fun y hy => by
    rcases (hw y).mp hy with rfl | ⟨hy, -⟩
    · exact fresh.session x names.mem
    · exact fresh.session y hy
  have freshEvent : ∀ a ∈ u, a.id ≠ io.eventId := fun a ha => by
    rcases (Table.mem_insert hu).mp ha with ha | rfl
    · exact fresh.event a ha
    · exact fresh.distinct
  refine createSession_accepts horg hstaff' freshSession fun v hv => ?_
  rw [Prog.then_ok, Prog.returns_bind]
  refine createEvent_accepts (x := newSession io.sessionId staff.orgId x.staffId (zone.startOfDay t) t) horg hstaff'
    ((Table.mem_insert hv).mpr (Or.inr rfl)) rfl freshEvent fun v' hv' => ?_
  exact ⟨_, rfl⟩

end Handlers

/-! ### Offered actions are accepted -/

/-- A generated identifier is not the empty text. -/
def Named (_ : Db) (q : Request) : Prop := q.io.sessionId ≠ ""

/-- No session has the empty text as its identifier. -/
def AllNamed (s : Db) : Prop := ∀ x ∈ s.attendanceSession, x.id ≠ ""

/-- A request follows a scan at `t`: it sends an offered action with that time and the returned session. -/
structure Follows (s : Db) (reply : ScanReply) (t : Date) (q : Request) : Prop where
  offered : q.dto.action ∈ reply.allowedActions
  simple : q.dto.action ≠ .latePunchOutAndPunchIn → q.dto.time = some (some t) ∧ q.dto.sessionId = reply.sessionId
  late : q.dto.action = .latePunchOutAndPunchIn → q.dto.previousSessionId = reply.sessionId ∧
    q.dto.currentPunchInTime = some (some t) ∧ ∃ approx, q.dto.approxPunchOutTime = some (some approx) ∧ approx < t ∧
      ∀ x ∈ s.attendanceSession, reply.sessionId = some x.id → ∀ first, x.firstPunchInAt = some first → first < approx

/-- The event with which a request closes a session, if it does. -/
def Request.closing (q : Request) (staff : Staff) (sessionId : String) : Option AttendanceEvent :=
  match q.dto.action with
  | .punchOut => (q.dto.time.getD (some q.io.now)).map fun time =>
    newEvent q.io.eventId staff.orgId staff.id sessionId .punchOut time
  | .latePunchOutAndPunchIn => q.dto.approxPunchOutTime.join.map fun approxOut =>
    newLateEvent q.io.lateEventId staff.orgId staff.id sessionId approxOut q.dto.reason
  | _ => none

/-- What is left of a request when its staff member is found. -/
def Request.handler (luxon : Luxon) (q : Request) (staff : Staff) : Service ActionReply :=
  match q.dto.action with
  | .punchIn => handlePunchIn luxon q.io staff.id staff.orgId q.dto
  | .breakStart => handleBreakStart q.io staff.id staff.orgId q.dto
  | .breakEnd => handleBreakEnd q.io staff.id staff.orgId q.dto
  | .punchOut => handlePunchOut q.io staff.id staff.orgId q.dto
  | .latePunchOutAndPunchIn => handleLatePunchOutAndPunchIn luxon q.io staff.id staff.orgId q.dto

section Accepted
variable {luxon : Luxon} {s t' : Db} {q : Request} {staff : Staff} {io : Io} {t : Date} {dto : ScanAttendanceDto}
  {reply : ScanReply}

theorem Acted.allNamed (named : AllNamed s) (hq : Named s q) (h : Acted luxon s q staff t') : AllNamed t' := by
  have opened : ∀ {u v : Db} {x : AttendanceSession} {e : AttendanceEvent}, AllNamed u → Opens u v x e →
      x.id = q.io.sessionId → AllNamed v := fun hu opens hid y hy => by
    rcases opens.mem_session.mp hy with hy | rfl
    · exact hu y hy
    · exact hid ▸ hq
  have closed : ∀ {u : Db} {x x' : AttendanceSession} {e : AttendanceEvent}, Closes s u x x' e →
      x ∈ s.attendanceSession → AllNamed u := fun closes hx y hy => by
    obtain ⟨y₀, hy₀, hid, -⟩ := closes.origin hx hy
    exact hid ▸ named y₀ hy₀
  cases h with
  | punchIn zone time action may opens => exact opened named opens rfl
  | breakStart x time action may marks =>
    unfold AllNamed
    rw [marks.sessions]
    exact named
  | breakEnd x time action may marks =>
    unfold AllNamed
    rw [marks.sessions]
    exact named
  | punchOut x x' time action may closes => exact closed closes may.names.mem
  | late x x' zone approxOut punchIn u action may closes opens => exact opened (closed closes may.names.mem) opens rfl

theorem reach_allNamed (h : (attendance luxon).Reach Named s) : AllNamed s := by
  refine attendance_invariant h (fun s hsessions _ x hx => ?_) fun s q staff t _ named hq _ acted => acted.allNamed named hq
  rw [hsessions] at hx
  cases hx

/-- The checks of `action` pass, and what is left is the handler of the action. -/
theorem accepts_of_handler (badge : q.Badge s staff) (h : Accepts (q.handler luxon staff) s) : Accepts (q.call luxon) s := by
  obtain ⟨hsystem, org, horg, hsystem'⟩ := checkSystem_returns badge
  have scanned : ScanOf staff 0 { employeeCode := some q.dto.employeeCode, scanTime := some 0 } :=
    ⟨rfl, Or.inl (by rw [badge.mem.2]; exact truthy_eq_some.mpr ⟨rfl, badge.given⟩)⟩
  obtain ⟨hstaff, hstaff'⟩ := getStaffByEmployeeCode_returns badge scanned
  unfold Accepts Prog.Returns
  rw [Request.call, action, Prog.run_bind_ok (Prod.ext hsystem' hsystem), Prog.run_bind_ok (Prod.ext hstaff' hstaff)]
  exact h

/-- Every action that a scan offers is accepted in the same state, at the time of the scan and with the
    session that it returns, whichever rows both calls see first, if both see the same last event and
    the seconds that a closing adds up fit their columns. -/
theorem offered_accepted (h : (attendance luxon).Reach Named s) (badge : q.Badge s staff) (scanned : ScanOf staff t dto)
    (hscan : ((scan luxon io q.orgId q.systemId q.role dto).run s).1 = .ok reply) (follows : Follows s reply t q)
    (sameLast : ∀ id, reply.sessionId = some id → lastEvent q.io s id = lastEvent io s id) (fresh : Fresh s q.io)
    (fits : ∀ id e, reply.sessionId = some id → q.closing staff id = some e → TotalsFit s q.io id e) :
    ∃ r, ((q.call luxon).run s).1 = .ok r := by
  have inv := reachable_inv h.reachable
  have named := reach_allNamed h
  obtain ⟨zone, state, session, hzone, seen, hactions, hsession⟩ := scan_seen badge scanned hscan
  have horg : (s.organization.find staff.orgId).isSome := badge.org ▸ badge.organization
  have hstaff := badge.mem.1
  have offered : q.dto.action ∈ state.offers := hactions ▸ follows.offered
  have names : ∀ {x : AttendanceSession} {id : Option String}, x ∈ s.attendanceSession → x.staffId = staff.id → x.status = .open →
      id = some x.id → Names s staff.id id x := fun hx howner hopen hid =>
    ⟨hx, truthy_eq_some.mpr ⟨hid, named _ hx⟩, howner, hopen⟩
  refine accepts_of_handler badge ?_
  unfold Request.handler
  cases seen with
  | @previous x hx howner hopen =>
    have action : q.dto.action = .latePunchOutAndPunchIn := List.mem_singleton.mp offered
    obtain ⟨hprevious, hin, approx, hout, hbefore, hafter⟩ := follows.late action
    obtain ⟨first, hfirst, -⟩ := inv.started x hx
    simp only [action]
    refine handleLate_accepts horg hstaff hzone (names hx howner hopen (hprevious.trans hsession)) hin hout hfirst
      (hafter x hx hsession first hfirst) hbefore fresh (fits x.id _ hsession ?_)
    simp [Request.closing, action, hout]
  | noSession old noneToday =>
    have action : q.dto.action = .punchIn := List.mem_singleton.mp offered
    obtain ⟨htime, -⟩ := follows.simple (by rw [action]; decide)
    simp only [action]
    exact handlePunchIn_accepts horg hstaff hzone htime fresh old noneToday
  | closed => exact absurd offered List.not_mem_nil
  | @ended x ofDay isOpen last =>
    -- an open session has a last event, which is no punch-out
    obtain ⟨e, hlast, hne⟩ := stateOf_running inv ofDay.mem isOpen io
    rw [hlast] at last
    exact absurd last hne
  | @working x e ofDay isOpen last type =>
    have simple : q.dto.action = .breakStart ∨ q.dto.action = .punchOut := by simpa [AttendanceState.offers] using offered
    obtain ⟨htime, hid⟩ := follows.simple (by rcases simple with action | action <;> rw [action] <;> decide)
    have hnames := names ofDay.mem ofDay.owner isOpen (hid.trans hsession)
    rcases simple with action | action <;> simp only [action]
    · refine handleBreak_accepts horg hstaff hnames htime fresh ((sameLast x.id hsession).trans last) ?_
      rcases type with type | type <;> simp [type]
    · refine handlePunchOut_accepts horg hstaff hnames htime fresh (fits x.id _ hsession ?_)
      simp [Request.closing, action, htime]
  | @onBreak x e ofDay isOpen last type =>
    have action : q.dto.action = .breakEnd := List.mem_singleton.mp offered
    obtain ⟨htime, hid⟩ := follows.simple (by rw [action]; decide)
    simp only [action]
    exact handleBreak_accepts horg hstaff (names ofDay.mem ofDay.owner isOpen (hid.trans hsession)) htime fresh
      ((sameLast x.id hsession).trans last) (by simp [type])

end Accepted

namespace Office

/-- Ann has come in the morning. -/
def atDesk : Db := runAll utc db [request "1" .punchIn (9 * hour)]

theorem reach_atDesk : (attendance utc).Reach Named atDesk :=
  .step (.init ⟨rfl, rfl⟩) (by show _ ≠ _; decide) ⟨_, Prog.exec_run (Request.call utc (request "1" .punchIn (9 * hour))) _⟩

theorem badge_atDesk (n : String) (action : Action) (time : Date) (sessionId : Option String) :
    (request n action time sessionId).Badge atDesk ann :=
  ⟨rfl, rfl, ⟨_, rfl, rfl⟩, by show "ANN1" ≠ ""; decide, rfl, rfl, rfl⟩

theorem scanned (t : Date) : ScanOf ann t { employeeCode := some "ANN1", scanTime := some t } :=
  ⟨rfl, Or.inl (by show truthy (some "ANN1") = some "ANN1"; decide)⟩

/-- Ann's badge is scanned at noon, and she goes on a break. -/
theorem offered_accepted_noon : ∃ r, (((request "2" .breakStart (12 * hour) (some "s1")).call utc).run atDesk).1 = .ok r := by
  have hscan : ((scan utc (request "2" .breakStart (12 * hour)).io "org" "kiosk" "System"
      { employeeCode := some "ANN1", scanTime := some (12 * hour) }).run atDesk).1 =
        .ok { staffId := "ann", staffName := "Ann", state := .working, sessionId := some "s1",
              allowedActions := [.breakStart, .punchOut] } := rfl
  refine offered_accepted reach_atDesk (badge_atDesk "2" .breakStart (12 * hour) (some "s1")) (scanned (12 * hour)) hscan
    ⟨List.mem_cons_self, fun _ => ⟨rfl, rfl⟩, nofun⟩ (fun _ _ => rfl) ⟨by decide, by decide, by decide, by decide⟩
    fun _ _ _ hclosing => ?_
  cases hclosing

/-- In the year 2065, Ann gives a time in 2061 at which she left in 1970. -/
def longAgo : Request :=
  { request "5" .latePunchOutAndPunchIn 3000000000000 with
    dto := { employeeCode := "ANN1", action := .latePunchOutAndPunchIn, previousSessionId := some "s1",
             approxPunchOutTime := some (some 2900000000000), currentPunchInTime := some (some 3000000000000) } }

/-- What the kiosk then shows. -/
def overdue : ScanReply where
  staffId := "ann"
  staffName := "Ann"
  state := .previousSessionOpen
  sessionId := some "s1"
  previousDate := some "1970-01-01"
  allowedActions := [.latePunchOutAndPunchIn]
  message := some ("You forgot to punch out on previous day. Please enter your approximate " ++ "punch-out time and reason.")

theorem offered_not_accepted : ¬∀ (luxon : Luxon) (s : Db) (q : Request) (staff : Staff) (io : Io) (t : Date)
    (dto : ScanAttendanceDto) (reply : ScanReply), (attendance luxon).Reach Named s → q.Badge s staff → ScanOf staff t dto →
    ((scan luxon io q.orgId q.systemId q.role dto).run s).1 = .ok reply → Follows s reply t q →
    (∀ id, reply.sessionId = some id → lastEvent q.io s id = lastEvent io s id) → Fresh s q.io →
    ∃ r, ((q.call luxon).run s).1 = .ok r := fun h => by
  have hscan : ((scan utc longAgo.io "org" "kiosk" "System"
      { employeeCode := some "ANN1", scanTime := some 3000000000000 }).run atDesk).1 = .ok overdue := rfl
  have follows : Follows atDesk overdue 3000000000000 longAgo := by
    refine ⟨List.mem_cons_self, fun hne => absurd rfl hne, fun _ => ⟨rfl, rfl, 2900000000000, rfl, by decide, ?_⟩⟩
    intro x hx _ first hfirst
    have firsts : ∀ x ∈ atDesk.attendanceSession, x.firstPunchInAt = some (9 * hour) := by decide
    obtain rfl := Option.some.inj ((firsts x hx).symm.trans hfirst)
    decide
  obtain ⟨r, hr⟩ := h utc atDesk longAgo ann longAgo.io 3000000000000 _ _ reach_atDesk
    ⟨rfl, rfl, ⟨_, rfl, rfl⟩, by show "ANN1" ≠ ""; decide, rfl, rfl, rfl⟩ (scanned 3000000000000) hscan follows (fun _ _ => rfl)
    ⟨by decide, by decide, by decide, by decide⟩
  have hrefused : ((longAgo.call utc).run atDesk).1 = .error outOfRange := by decide
  rw [hrefused] at hr
  cases hr

end Office

end Vms.Attendance
