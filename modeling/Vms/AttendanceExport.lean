import Mathlib.Logic.Function.Basic
import Vms.Attendance

/-! The attendance export of an organisation (`exportAttendanceRangeExcel` of
    `src/attendance/attendance.service.ts`): a row for each day of a range and each staff member. -/

namespace Vms.Attendance
open Relational HttpException

/-- What luxon does in one time zone, where a `DateTime` of the zone is the instant that it denotes. A day
    begins at `startOf('day')`, and `plus({ days: 1 })` is a time on the day that follows. Zones where a clock goes back to
    midnight or over it are outside the laws: there a day has two midnights (Atlantic/Azores, America/Havana), or goes on
    after the next has begun (America/St_Johns, as it was). -/
structure Calendar extends Zone where
  fromISO : String → JsDate
  plusDay : Date → Date
  weekday : Date → Weekday
  toFormat : String → Date → String
  startOfDay_le : ∀ t, startOfDay t ≤ t
  startOfDay_mono : ∀ t u, t ≤ u → startOfDay t ≤ startOfDay u
  startOfDay_idem : ∀ t, startOfDay (startOfDay t) = startOfDay t
  lt_plusDay : ∀ t, startOfDay t < startOfDay (plusDay t)
  plusDay_le : ∀ t u, startOfDay t < startOfDay u → startOfDay (plusDay t) ≤ startOfDay u

theorem Calendar.later (cal : Calendar) (t : Date) : t < cal.plusDay t := by
  by_contra hle
  exact absurd (cal.startOfDay_mono _ _ (not_lt.mp hle)) (not_le.mpr (cal.lt_plusDay t))

/-- The loop that builds the date range. -/
def Calendar.days (cal : Calendar) (cur endDT : Date) : List Date :=
  if _h : cur ≤ endDT then cur :: cal.days (cal.plusDay cur) endDT else []
termination_by (endDT + 1 - cur).toNat
decreasing_by
  have hleft : 0 < endDT + 1 - cur := Int.sub_pos.mpr (Int.lt_add_one_iff.mpr _h)
  exact (Int.toNat_lt_toNat hleft).mpr (Int.sub_lt_sub_left (cal.later cur) _)

/-- The calendar date of an instant in UTC. -/
def utcDate (t : Date) : Int := t / 86400000

/-- The orders in which the export sees rows that no `orderBy` separates. -/
structure ExportOrder where
  staff : RowOrder Staff
  sessions : RowOrder AttendanceSession
  events : RowOrder AttendanceEvent

/-- A staff member with `include: { department: true, workingHours: true }`. -/
structure ExportStaff where
  staff : Staff
  department : Option Department
  workingHours : List WorkingHours

/-- A session with `include: { events: … }`. -/
structure ExportSession where
  session : AttendanceSession
  events : List AttendanceEvent

/-- A row of the sheet, with the variables of the loop from which it is written. -/
structure ExportRow where
  staff : Staff
  dt : Date
  session : Option AttendanceSession
  status : String
  cells : List String
  color : String

/-- The rows of one day below their title. -/
structure ExportDay where
  title : String
  rows : List ExportRow

/-- The rows of an export. -/
abbrev Export := List ExportDay

/-! ### One row -/

/-- Hours and minutes of a number of seconds, empty for none. -/
def hoursText (seconds : Int) : String :=
  if seconds = 0 then ""
  else
    let minutes := toString (seconds % 3600 / 60)
    toString (seconds / 3600) ++ ":" ++ (if minutes.length < 2 then "0" ++ minutes else minutes)

/-- One event of the loop of `recalcTotalsLocal`. -/
def Totals.addLocal (acc : Totals) (e : AttendanceEventType × Date) : Totals :=
  match e.1 with
  | .punchIn | .breakEnd =>
    let acc := match acc.currentBreakStart with
      | some start => { acc with
          totalBreakSeconds := acc.totalBreakSeconds + (e.2 - start) / 1000
          currentBreakStart := none }
      | none => acc
    { acc with currentWorkStart := some e.2 }
  | .breakStart =>
    let acc := match acc.currentWorkStart with
      | some start => { acc with
          totalWorkSeconds := acc.totalWorkSeconds + (e.2 - start) / 1000
          currentWorkStart := none }
      | none => acc
    { acc with currentBreakStart := some e.2 }
  | .punchOut | .latePunchOut =>
    match acc.currentBreakStart, acc.currentWorkStart with
    | some start, _ => { acc with
        totalBreakSeconds := acc.totalBreakSeconds + (e.2 - start) / 1000
        currentBreakStart := none }
    | none, some start => { acc with
        totalWorkSeconds := acc.totalWorkSeconds + (e.2 - start) / 1000
        currentWorkStart := none }
    | none, none => acc

/-- The totals of a row: a second loop, beside the one of `recalcTotals`. -/
def recalcTotalsLocal (events : List (AttendanceEventType × Date)) : Int × Int :=
  let sorted := (events.map fun e => (e.1, e.2 / 1000 * 1000)).insertionSort (·.2 ≤ ·.2)
  let totals := sorted.foldl Totals.addLocal {}
  (totals.totalWorkSeconds, totals.totalBreakSeconds)

def getScheduleFor (cal : Calendar) (orgHours : List WorkingHours) (staff : ExportStaff) (dt : Date) : Option WorkingHours :=
  let wh := if staff.workingHours = [] then orgHours else staff.workingHours
  wh.find? (·.dayOfWeek == cal.weekday dt)

/-- The moment at which the schedule of a day has a time of day. -/
def scheduled (cal : Calendar) (dt : Date) (time : String) : JsDate :=
  if time = "" then none else cal.fromISO (cal.toISODate dt ++ "T" ++ time)

/-- `a > b` of two times: a comparison with a missing or invalid one is false. -/
def after (a b : JsDate) : Bool :=
  match a, b with
  | some a, some b => decide (b < a)
  | _, _ => false

def yesNo (b : Bool) : String := if b then "Yes" else "No"

/-- The status of a row: whether there is a session, and else whether the schedule is closed. -/
def rowStatus (schedule : Option WorkingHours) (session : Option ExportSession) : String :=
  if session.isSome then "Present"
  else if schedule.any (·.isClosed) then "Off Day"
  else "Absent"

def rowColor (status : String) (latePunchOut lateArrival leftEarly : Bool) : String :=
  if status = "Absent" then "FFFFCCCC"
  else if status = "Off Day" then "FFEFEFEF"
  else if latePunchOut then "FFE0CCFF"
  else if lateArrival then "FFFFFF99"
  else if leftEarly then "FFFFCC99"
  else "FFCCFFCC"

def exportRow (cal : Calendar) (orgHours : List WorkingHours) (dt : Date) (staff : ExportStaff)
    (session : Option ExportSession) : ExportRow :=
  let schedule := getScheduleFor cal orgHours staff dt
  let status := rowStatus schedule session
  let events := (session.map (·.events)).getD []
  let firstTs := (events.find? fun e => e.eventType == .punchIn || e.eventType == .breakEnd).map (·.timestamp)
  let lastTs := (events.reverse.find? fun e => e.eventType == .punchOut || e.eventType == .latePunchOut).map (·.timestamp)
  let totals := recalcTotalsLocal (events.map (·.mark))
  let lateEvent := events.find? (·.eventType == .latePunchOut)
  let latePunchOut := lateEvent.isSome || session.any (·.session.closureType == some .late)
  let lateArrival := after firstTs (schedule.bind fun wh => scheduled cal dt wh.startsAt)
  let leftEarly := after (schedule.bind fun wh => scheduled cal dt wh.endsAt) lastTs
  { staff := staff.staff
    dt
    session := session.map (·.session)
    status
    cells := [staff.staff.name, staff.staff.employeeCode.getD "", staff.staff.email, (staff.department.map (·.name)).getD "",
      cal.toFormat "dd/MM/yyyy" dt, status, (firstTs.map (cal.toFormat "HH:mm:ss")).getD "",
      (lastTs.map (cal.toFormat "HH:mm:ss")).getD "", hoursText totals.1, hoursText totals.2, yesNo latePunchOut,
      (lateEvent.bind (·.correctionNote)).getD "", yesNo lateArrival, yesNo leftEarly]
    color := rowColor status latePunchOut lateArrival leftEarly }

/-! ### The export -/

/-- The key `${staffId}:${date}` of the map of sessions: the date, which is written without a colon, is
    the calendar date of the session in UTC. -/
abbrev SessionKey := String × Int

/-- The map of sessions: a session replaces an earlier one with its key. -/
def sessionsByKey (sessions : List ExportSession) : SessionKey → Option ExportSession :=
  sessions.foldl (fun map s => Function.update map (s.session.staffId, utcDate s.session.date) (some s)) fun _ => none

/-- The session that the row of a staff member and a day shows. -/
def rowSession (cal : Calendar) (sessions : List ExportSession) (staffId : String) (dt : Date) : Option ExportSession :=
  sessionsByKey sessions (staffId, utcDate (cal.startOfDay dt))

def exportDay (cal : Calendar) (orgHours : List WorkingHours) (staffList : List ExportStaff) (sessions : List ExportSession)
    (dt : Date) : ExportDay where
  title := (cal.toFormat "EEEE" dt).toUpper ++ " – " ++ cal.toFormat "dd/MM/yyyy" dt
  rows := staffList.map fun staff => exportRow cal orgHours dt staff (rowSession cal sessions staff.staff.id dt)

/-- The days of the range: none, where the zone or a date is invalid. -/
def dateRange (cal : Option Calendar) (startIso endIso : String) : Option (Calendar × Date × Date) := do
  let cal ← cal
  let startDT ← cal.fromISO startIso
  let endDT ← cal.fromISO endIso
  return (cal, cal.startOfDay startDT, cal.startOfDay endDT)

def exportAttendanceRangeExcel (luxon : String → Option Calendar) (order : ExportOrder)
    (orgId role startIso endIso : String) : Service Export := do
  let allowedRoles := ["SuperAdmin", "Admin"]
  Prog.failIf (role ∉ allowedRoles) (.forbidden "Access denied.")
  let found ← query fun s => (s.organization.find orgId).map fun org => (org, s.workingHours.filter (·.orgId == some orgId))
  let (org, orgHours) ← Prog.orFail (.error "Invalid org id") found
  let tz := (truthy org.timezone).getD "UTC"
  let range := dateRange (luxon tz) startIso endIso
  Prog.failIf (range.any fun (_, startDT, endDT) => decide (endDT < startDT))
    (.badRequest "Ending data cannot be beofre start date.")
  let staffList ← query fun s => (order.staff.rows (s.staff.filter (·.orgId == orgId))).map fun staff =>
    { staff, department := staff.departmentId.bind s.department.find,
      workingHours := s.workingHours.filter (·.staffId == some staff.id) : ExportStaff }
  match range with
  | none =>
    let _ ← query fun _ => ([] : List ExportSession)
    return []
  | some (cal, startDT, endDT) =>
    let days := cal.days startDT endDT
    let dateUTCs := days.map cal.startOfDay
    let sessions ← query fun s => (order.sessions.rows (s.attendanceSession.filter fun x =>
        x.orgId == orgId && dateUTCs.contains x.date)).map fun x =>
      { session := x, events := order.events.asc (·.timestamp) (eventsOf s x.id) : ExportSession }
    return days.map (exportDay cal orgHours staffList sessions)

end Vms.Attendance
