import Vms.Service

/-! The visit statistics of an organisation (`src/visit/visit.analytics.service.ts`). -/

namespace Vms
open Relational HttpException

namespace VisitAnalyticsService

/-- The moment of a request, with the moments a day, a week, a month and a year before it in the time zone
    of the server. -/
structure Clock where
  now : Date
  dayAgo : Date
  weekAgo : Date
  monthAgo : Date
  yearAgo : Date
  day_le : dayAgo ≤ now
  week_le : weekAgo ≤ now
  month_le : monthAgo ≤ now
  year_le : yearAgo ≤ now

structure VisitStats where
  total : Nat
  completed : Nat
  ongoing : Nat
  deriving DecidableEq, Repr

structure TopVisitor where
  name : String
  email : String
  count : Nat
  deriving DecidableEq, Repr

/-- The entry of an employee, a department or a reason. -/
structure TopEntry where
  name : String
  count : Nat
  deriving DecidableEq, Repr

/-! ### Counting -/

/-- One property of a `counts` object: what was last stored under its key, and how often. -/
structure Count (α : Type) where
  key : String
  value : α
  count : Nat

section Counting
variable {α : Type}

/-- Store a value under its key and count it. -/
def record (counts : List (Count α)) (entry : String × α) : List (Count α) :=
  -- `__proto__` and the names that an object inherits (`constructor`, `toString` and the like) are outside this: no address and
  -- no identifier is one of them, and a department or reason that is named so would not be counted from 0.
  if counts.any (·.key == entry.1) then
    counts.map fun c => if c.key == entry.1 then { c with value := entry.2, count := c.count + 1 } else c
  else counts ++ [{ key := entry.1, value := entry.2, count := 1 }]

/-- The array index that a property key spells. -/
def arrayIndex (key : String) : Option Nat := key.toNat?.filter fun n => toString n = key ∧ n + 1 < UInt32.size

/-- `Object.values`: array indices come first, in increasing order, and then the other keys in the order in
    which they were added. -/
def objectValues (counts : List (Count α)) : List (Count α) :=
  (counts.filter fun c => (arrayIndex c.key).isSome).insertionSort (fun a b => (arrayIndex a.key).getD 0 ≤ (arrayIndex b.key).getD 0) ++
    counts.filter fun c => (arrayIndex c.key).isNone

/-- The ten most frequent entries. -/
def top (entries : List (String × α)) : List (Count α) :=
  ((objectValues (entries.foldl record [])).insertionSort fun a b => a.count ≥ b.count).take 10

end Counting

/-! ### Queries -/

def getDateRange (clock : Clock) (period : String) : Option Date × Date :=
  let start := match period with
    | "day" => some clock.dayAgo
    | "week" => some clock.weekAgo
    | "month" => some clock.monthAgo
    | "year" => some clock.yearAgo
    | _ => none
  (start, clock.now)

def whereClause (clock : Clock) (orgId period : String) (visit : Visit) : Bool :=
  let (start, stop) := getDateRange clock period
  visit.orgId == orgId && start.all fun start => visit.startTime.any fun time => start ≤ time ∧ time ≤ stop

def getVisitStats (clock : Clock) (orgId period : String) : Service (List VisitStats) := do
  let total ← query fun s => (s.visit.filter (whereClause clock orgId period)).length
  let completed ← query fun s => (s.visit.filter fun visit =>
    whereClause clock orgId period visit && visit.status == .completed).length
  let ongoing ← query fun s => (s.visit.filter fun visit =>
    whereClause clock orgId period visit && visit.status == .ongoing).length
  return [{ total, completed, ongoing }]

/-- The visits of a period, each with what a query includes. -/
def findVisits {α : Type} (clock : Clock) (visits : RowOrder Visit) (orgId period : String) (include_ : Db → Visit → α) :
    Service (List α) :=
  query fun s => (visits.rows (s.visit.filter (whereClause clock orgId period))).map (include_ s)

/-- `text || default`. -/
def orElse (text : Option String) (default : String) : String := (truthy text).getD default

def getTopEmployees (clock : Clock) (visits : RowOrder Visit) (orgId period : String) : Service (List TopEntry) := do
  let visits ← findVisits clock visits orgId period fun s visit => s.staff.find visit.staffId
  let entries := visits.filterMap fun staff => staff.map fun staff => (staff.id, orElse (some staff.name) "Unknown")
  return (top entries).map fun c => { name := c.value, count := c.count }

def getTopVisitors (js : Js) (clock : Clock) (visits : RowOrder Visit) (orgId period : String) : Service (List TopVisitor) := do
  let visits ← findVisits clock visits orgId period fun _ visit => (visit.fullName, visit.email)
  let entries := visits.map fun (fullName, email) => (js.toLowerCase email, (fullName, email))
  return (top entries).map fun c => { name := c.value.1, email := c.value.2, count := c.count }

/-- The most frequent of the texts. -/
def topTexts (texts : List String) : List TopEntry :=
  (top (texts.map fun text => (text, ()))).map fun c => { name := c.key, count := c.count }

def getTopDepartments (clock : Clock) (visits : RowOrder Visit) (orgId period : String) : Service (List TopEntry) := do
  let departments ← findVisits clock visits orgId period fun s visit =>
    ((s.staff.find visit.staffId).bind (·.departmentId)).bind s.department.find
  return topTexts (departments.map fun department => orElse (department.map (·.name)) "No Department")

def getTopReasons (clock : Clock) (visits : RowOrder Visit) (orgId period : String) : Service (List TopEntry) := do
  let reasons ← findVisits clock visits orgId period fun s visit => visit.reasonId.bind s.reasonOfVisit.find
  return topTexts (reasons.map fun reason => orElse (reason.map (·.name)) "No Reason")

end VisitAnalyticsService
end Vms
