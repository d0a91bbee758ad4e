import Vms.Service

/-! The attendance service (`src/attendance/attendance.service.ts`): what the kiosk is shown when a staff
    member scans a badge, and the actions it sends. Times come from the client; a time that a request
    gives is the `Date` its ISO string denotes, `none` for an Invalid Date. -/

namespace Vms
open Relational HttpException

/-- The type and the time of an event, which is all that the totals depend on. -/
def AttendanceEvent.mark (e : AttendanceEvent) : AttendanceEventType × Date := (e.eventType, e.timestamp)

namespace Attendance

/-- A JavaScript `Date` made from a client's string: `none` is an Invalid Date. -/
abbrev JsDate := Option Date

/-- What luxon does in one time zone. -/
structure Zone where
  startOfDay : Date → Date
  toISODate : Date → String

/-- `setZone` of luxon: the zone of a name, if there is one. -/
abbrev Luxon := String → Option Zone

inductive AttendanceState where
  | noSessionToday | working | onBreak | previousSessionOpen | dayCompleted
  deriving DecidableEq, Repr

/-- The actions that `AttendanceActionDto` admits. -/
inductive Action where
  | punchIn | breakStart | breakEnd | punchOut | latePunchOutAndPunchIn
  deriving DecidableEq, Repr

structure ScanAttendanceDto where
  employeeCode : Option String := none
  email : Option String := none
  scanTime : JsDate

structure AttendanceActionDto where
  employeeCode : String
  action : Action
  sessionId : Option String := none
  time : Option JsDate := none
  previousSessionId : Option String := none
  approxPunchOutTime : Option JsDate := none
  reason : Option String := none
  currentPunchInTime : Option JsDate := none

/-- What a request draws from outside: the clock, the identifiers of the rows it creates, and the order
    in which the store returns rows that no `orderBy` separates. -/
structure Io where
  now : Date
  sessionId : String
  eventId : String
  lateEventId : String
  sessions : RowOrder AttendanceSession
  events : RowOrder AttendanceEvent

structure ScanReply where
  staffId : String
  staffName : String
  state : AttendanceState
  sessionId : Option String := none
  previousDate : Option String := none
  allowedActions : List Action
  message : Option String := none
  deriving DecidableEq

inductive ActionReply where
  | punchIn (sessionId : String) (time : Date)
  | breakStart (time : Date)
  | breakEnd (time : Date)
  | punchOut (time : Date)
  | latePunchOutAndPunchIn (closedSessionId newSessionId : String) (latePunchOutTime newPunchInTime : Date)
  deriving DecidableEq

/-! ### Helpers -/

def startOfOrgDay (luxon : Luxon) (date : Date) (timezone : String) : JsDate :=
  (luxon timezone).map (·.startOfDay date)

/-- `a >= b` of two dates: a comparison with an Invalid Date is false. -/
def notBefore (a b : JsDate) : Bool :=
  match a, b with
  | some a, some b => decide (b ≤ a)
  | _, _ => false

def floorToSecond (date : Date) : Date := date / 1000 * 1000

/-- The state of the loop of `recalcTotals`. -/
structure Totals where
  totalWorkSeconds : Int := 0
  totalBreakSeconds : Int := 0
  currentWorkStart : Option Date := none
  currentBreakStart : Option Date := none
  deriving DecidableEq

/-- Seconds from the start of an open stretch, if there is one. -/
def elapsed (start : Option Date) (timestamp : Date) : Int :=
  match start with
  | some t => (timestamp - t) / 1000
  | none => 0

def Totals.add (acc : Totals) (e : AttendanceEventType × Date) : Totals :=
  match e.1 with
  | .punchIn | .breakEnd =>
    { acc with
      totalBreakSeconds := acc.totalBreakSeconds + elapsed acc.currentBreakStart e.2
      currentBreakStart := none
      currentWorkStart := some e.2 }
  | .breakStart =>
    -- finish work segment till break start
    { acc with
      totalWorkSeconds := acc.totalWorkSeconds + elapsed acc.currentWorkStart e.2
      currentWorkStart := none
      currentBreakStart := some e.2 }
  | .punchOut | .latePunchOut =>
    -- finish work or break and end day
    match acc.currentBreakStart with
    | some _ =>
      { acc with
        totalBreakSeconds := acc.totalBreakSeconds + elapsed acc.currentBreakStart e.2
        currentBreakStart := none }
    | none =>
      { acc with
        totalWorkSeconds := acc.totalWorkSeconds + elapsed acc.currentWorkStart e.2
        currentWorkStart := none }

/-- The events, floored to seconds and sorted; the sort is stable. -/
def sortedMarks (events : List (AttendanceEventType × Date)) : List (AttendanceEventType × Date) :=
  (events.map fun e => (e.1, floorToSecond e.2)).insertionSort (·.2 ≤ ·.2)

/-- The total work and break seconds of a session: zero without events, for which the source returns early. -/
def recalcTotals (events : List (AttendanceEventType × Date)) : Int × Int :=
  let totals := (sortedMarks events).foldl Totals.add {}
  (totals.totalWorkSeconds, totals.totalBreakSeconds)

def getStaffByEmployeeCode (orgId : String) (employeeCode email : Option String) : Service Staff := do
  let orgExists ← Prog.orFail (.notFound "Invalid org id.") (← query (·.organization.find orgId))
  let staff ← match truthy employeeCode with
    | some code => query (·.staff.findBy (·.employeeCode == some code))
    | none => match truthy email with
      | some email => query (·.staff.findBy (·.email == email))
      | none => pure none
  let staff ← Prog.orFail (.notFound "No employee found for these credentials.") staff
  Prog.failIf (staff.badgeActive = false) (.badRequest "This badge is deactivated.")
  Prog.failIf (orgExists.id ≠ staff.orgId) (.badRequest "Employee belongs to different organization.")
  return staff

/-- The checks with which `scan` and `action` begin. -/
def checkSystem (orgId systemId role : String) : Service Organization := do
  let allowedRoles := ["System"]
  Prog.failIf (role ∉ allowedRoles) (.badRequest "Invalid role, only System can do this action.")
  let orgExists ← Prog.orFail (.notFound "Invalid organization id.") (← query (·.organization.find orgId))
  let systemExists ← query (·.systemCredential.find systemId)
  let _ ← Prog.orFail
    (.badRequest "Invalid credentials, system account belongs to different organization.")
    (systemExists.filter (·.orgId == orgId))
  return orgExists

/-! ### Scan -/

/-- The events of a session. -/
def eventsOf (s : Db) (sessionId : String) : List AttendanceEvent :=
  s.attendanceEvent.filter (·.sessionId == some sessionId)

/-- The most recent event of a session. -/
def lastEvent (io : Io) (s : Db) (sessionId : String) : Option AttendanceEvent :=
  (io.events.desc (·.timestamp) (eventsOf s sessionId)).head?

def getStateForScan (luxon : Luxon) (io : Io) (staffId : String) (now : JsDate) :
    Service (AttendanceState × Option AttendanceSession × Option AttendanceEvent) := do
  let staff ← query (·.staff.find staffId)
  let organization ← query fun s => staff.bind fun staff => s.organization.find staff.orgId
  let tz ← Prog.orFail (.badRequest "Organization timezone not configured")
    (truthy (organization.bind (·.timezone)))
  let todayDate ← Prog.orFail invalidArgument (now.bind (startOfOrgDay luxon · tz))
  let openOldSession ← query fun s => (io.sessions.desc (·.date) (s.attendanceSession.filter fun x =>
    x.staffId == staffId && x.status == .open && decide (x.date < todayDate))).head?
  match openOldSession with
  | some openOldSession => return (.previousSessionOpen, some openOldSession, none)
  | none =>
    -- check today's session FIRST
    let todaySession ← query fun s => (io.sessions.first (s.attendanceSession.filter fun x =>
      x.staffId == staffId && x.date == todayDate)).map fun x => (x, lastEvent io s x.id)
    match todaySession with
    | none => return (.noSessionToday, none, none)
    | some (session, lastEvent) =>
      -- day finished
      if session.status = .closed then
        return (.dayCompleted, none, none)
      match lastEvent with
      | none => return (.noSessionToday, none, none)
      | some lastEvent =>
        match lastEvent.eventType with
        | .breakStart => return (.onBreak, some session, some lastEvent)
        | .punchIn | .breakEnd => return (.working, some session, some lastEvent)
        | .punchOut | .latePunchOut => return (.noSessionToday, none, none)

def scan (luxon : Luxon) (io : Io) (orgId systemId role : String) (dto : ScanAttendanceDto) : Service ScanReply := do
  let orgExists ← checkSystem orgId systemId role
  let staff ← getStaffByEmployeeCode orgId dto.employeeCode dto.email
  let (state, session, _) ← getStateForScan luxon io staff.id dto.scanTime
  let sessionId := session.map (·.id)
  match state with
  | .noSessionToday =>
    return { staffId := staff.id, staffName := staff.name, state, allowedActions := [.punchIn] }
  | .working =>
    return { staffId := staff.id, staffName := staff.name, state, sessionId, allowedActions := [.breakStart, .punchOut] }
  | .onBreak =>
    return { staffId := staff.id, staffName := staff.name, state, sessionId, allowedActions := [.breakEnd] }
  | .dayCompleted =>
    return { staffId := staff.id, staffName := staff.name, state, allowedActions := [],
             message := some "You have already completed attendance for today." }
  | .previousSessionOpen =>
    let tz ← Prog.orFail (.badRequest "Organization timezone not configured") (truthy orgExists.timezone)
    let previousDate := session.bind fun x => (luxon tz).map (·.toISODate x.date)
    return { staffId := staff.id, staffName := staff.name, state, sessionId, previousDate,
             allowedActions := [.latePunchOutAndPunchIn],
             message := some ("You forgot to punch out on previous day. Please enter your approximate " ++
               "punch-out time and reason.") }

/-! ### Statements -/

def createSession (x : AttendanceSession) : Service AttendanceSession :=
  mutate fun s => created ((s.organization.find x.orgId).isSome && (s.staff.find x.staffId).isSome) x
    (s.attendanceSession.insert x) fun u => { s with attendanceSession := u }

def createEvent (e : AttendanceEvent) : Service AttendanceEvent :=
  mutate fun s => created ((s.organization.find e.orgId).isSome && (s.staff.find e.staffId).isSome &&
      e.sessionId.all fun id => (s.attendanceSession.find id).isSome) e
    (s.attendanceEvent.insert e) fun u => { s with attendanceEvent := u }

/-- An `Int` column holds 32 bits. -/
def fitsInt (n : Int) : Bool := decide (-2147483648 ≤ n) && decide (n ≤ 2147483647)

/-- The update that closes a session. -/
def closeSession (id : String) (totals : Int × Int) (close : AttendanceSession → AttendanceSession)
    (keys : Row.Fixes close := by exact ⟨fun _ => rfl, fun _ _ => rfl⟩) : Service Unit :=
  mutate fun s =>
    if !(fitsInt totals.1 && fitsInt totals.2) then .error outOfRange
    else if (s.attendanceSession.find id).isNone then .error rowNotFound
    else .ok ((), { s with attendanceSession := s.attendanceSession.update (·.id == id) close keys })

/-! ### Actions -/

/-- The session that a punch-in opens. -/
def newSession (id orgId staffId : String) (date time : Date) : AttendanceSession :=
  { id, orgId, staffId, date, status := .open, firstPunchInAt := some time }

/-- An event that an action records. -/
def newEvent (id orgId staffId sessionId : String) (eventType : AttendanceEventType) (timestamp : Date) : AttendanceEvent :=
  { id, orgId, staffId, sessionId := some sessionId, eventType, source := .qr, timestamp }

/-- The late punch-out that closes a session left open. -/
def newLateEvent (id orgId staffId sessionId : String) (timestamp : Date) (reason : Option String) : AttendanceEvent :=
  { newEvent id orgId staffId sessionId .latePunchOut timestamp with
    isCorrection := true, correctionNote := truthy reason }

/-- The time of a simple action: the client's, or the clock's if the client gives none. -/
def actionTime (io : Io) (dto : AttendanceActionDto) : Service Date :=
  Prog.orFail (.badRequest "Invalid time") (dto.time.getD (some io.now))

/-- The session that an action names, if it belongs to the staff member and is open. -/
def openSession (staffId sessionId missing notOpen : String) : Service AttendanceSession := do
  let session ← query (·.attendanceSession.find sessionId)
  let session ← Prog.orFail (.notFound missing) (session.filter (·.staffId == staffId))
  Prog.failIf (session.status ≠ .open) (.badRequest notOpen)
  return session

def handlePunchIn (luxon : Luxon) (io : Io) (staffId orgId : String) (dto : AttendanceActionDto) : Service ActionReply := do
  let time ← actionTime io dto
  let org ← query (·.organization.find orgId)
  let tz ← Prog.orFail (.badRequest "Organization timezone not configured") (truthy (org.bind (·.timezone)))
  transaction do
    let today ← Prog.orFail invalidArgument (startOfOrgDay luxon time tz)
    -- make sure there is no open session from previous days
    let openOldSession ← query fun s => io.sessions.first (s.attendanceSession.filter fun x =>
      x.staffId == staffId && x.status == .open && decide (x.date < today))
    Prog.failIf openOldSession.isSome (.badRequest "Previous day session is still open. Use late punch flow.")
    let openToday ← query fun s => io.sessions.first (s.attendanceSession.filter fun x =>
      x.staffId == staffId && x.status == .open && x.date == today)
    Prog.failIf openToday.isSome (.badRequest "Already punched in today.")
    let session ← createSession (newSession io.sessionId orgId staffId today time)
    let _ ← createEvent (newEvent io.eventId orgId staffId session.id .punchIn time)
    return .punchIn session.id time

/-- What `handleBreakStart` and `handleBreakEnd` share: an event that the session's last event admits. -/
def handleBreak (eventType : AttendanceEventType) (admits : AttendanceEventType → Bool) (required refused : String)
    (reply : Date → ActionReply) (io : Io) (staffId orgId : String) (dto : AttendanceActionDto) : Service ActionReply := do
  let sessionId ← Prog.orFail (.badRequest required) (truthy dto.sessionId)
  let time ← actionTime io dto
  transaction do
    let session ← openSession staffId sessionId "Session not found." "Session is not open."
    let last ← query fun s => lastEvent io s session.id
    let _ ← Prog.orFail (.badRequest refused) (last.filter fun last => admits last.eventType)
    let _ ← createEvent (newEvent io.eventId orgId staffId session.id eventType time)
    return reply time

def handleBreakStart : Io → String → String → AttendanceActionDto → Service ActionReply :=
  handleBreak .breakStart (fun last => last == .punchIn || last == .breakEnd)
    "sessionId is required for BREAK_START" "Cannot start break – invalid state (must be working)." .breakStart

def handleBreakEnd : Io → String → String → AttendanceActionDto → Service ActionReply :=
  handleBreak .breakEnd (fun last => last == .breakStart)
    "sessionId is required for BREAK_END" "Cannot end break – not currently on break." .breakEnd

def handlePunchOut (io : Io) (staffId orgId : String) (dto : AttendanceActionDto) : Service ActionReply := do
  let sessionId ← Prog.orFail (.badRequest "sessionId is required for PUNCH_OUT") (truthy dto.sessionId)
  let time ← actionTime io dto
  transaction do
    let session ← openSession staffId sessionId "Session not found." "Session is not open."
    let events ← query fun s => io.events.asc (·.timestamp) (eventsOf s session.id)
    -- create punch-out event
    let punchOutEvent ← createEvent (newEvent io.eventId orgId staffId session.id .punchOut time)
    let totals := recalcTotals ((events ++ [punchOutEvent]).map (·.mark))
    closeSession session.id totals fun x => { x with
      status := .closed
      closureType := some .normal
      lastPunchOutAt := some time
      totalWorkSeconds := totals.1
      totalBreakSeconds := totals.2 }
    return .punchOut time

def handleLatePunchOutAndPunchIn (luxon : Luxon) (io : Io) (staffId orgId : String) (dto : AttendanceActionDto) :
    Service ActionReply := do
  let (previousSessionId, approxPunchOutTime, currentPunchInTime) ← Prog.orFail
    (.badRequest "previousSessionId, approxPunchOutTime and currentPunchInTime are required.")
    (match truthy dto.previousSessionId, dto.approxPunchOutTime, dto.currentPunchInTime with
      | some id, some approxOut, some punchIn => some (id, approxOut, punchIn)
      | _, _, _ => none)
  let org ← query (·.organization.find orgId)
  Prog.failIf (notBefore approxPunchOutTime currentPunchInTime)
    (.badRequest "Late punch-out must be before new punch-in time.")
  let approxOut ← Prog.orFail (.badRequest "Invalid approx punch-out time") approxPunchOutTime
  let punchIn ← Prog.orFail (.badRequest "Invalid current punch-in time") currentPunchInTime
  let tz ← Prog.orFail (.badRequest "Organization timezone not configured") (truthy (org.bind (·.timezone)))
  transaction do
    let prevSession ← openSession staffId previousSessionId "Previous session not found." "Previous session is not open."
    let events ← query fun s => io.events.asc (·.timestamp) (eventsOf s prevSession.id)
    Prog.failIf (prevSession.firstPunchInAt.any fun first => decide (approxOut ≤ first))
      (.badRequest "Punch-out must be after the original punch-in time.")
    -- late punch-out event
    let lateEvent ← createEvent (newLateEvent io.lateEventId orgId staffId prevSession.id approxOut dto.reason)
    let totals := recalcTotals ((events ++ [lateEvent]).map (·.mark))
    closeSession prevSession.id totals fun x => { x with
      status := .closed
      closureType := some .late
      isLateClosure := true
      lastPunchOutAt := some approxOut
      totalWorkSeconds := totals.1
      totalBreakSeconds := totals.2
      latePunchOutReason := truthy dto.reason
      latePunchOutRecordedAt := some io.now }
    -- now create today's session & punch in
    let today ← Prog.orFail invalidArgument (startOfOrgDay luxon punchIn tz)
    let sessionToday ← createSession (newSession io.sessionId orgId staffId today punchIn)
    let _ ← createEvent (newEvent io.eventId orgId staffId sessionToday.id .punchIn punchIn)
    return .latePunchOutAndPunchIn prevSession.id sessionToday.id approxOut punchIn

def action (luxon : Luxon) (io : Io) (orgId systemId role : String) (dto : AttendanceActionDto) : Service ActionReply := do
  let _ ← checkSystem orgId systemId role
  let staff ← getStaffByEmployeeCode orgId (some dto.employeeCode) none
  match dto.action with
  | .punchIn => handlePunchIn luxon io staff.id staff.orgId dto
  | .breakStart => handleBreakStart io staff.id staff.orgId dto
  | .breakEnd => handleBreakEnd io staff.id staff.orgId dto
  | .punchOut => handlePunchOut io staff.id staff.orgId dto
  | .latePunchOutAndPunchIn => handleLatePunchOutAndPunchIn luxon io staff.id staff.orgId dto

end Attendance
end Vms
