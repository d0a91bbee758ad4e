import Vms.Theorems.Organization.Step
import Vms.Theorems.Staff.Step

/-! The working hours of organisations and of staff members lie in one table, which two services write day by day.
    What they show of an owner is the timetable that the owner's edits make, one after another. -/

namespace Vms.Timetables
open Relational StaffService

/-! ### Timetables -/

/-- The hours of a day. -/
structure Hours where
  isClosed : Bool
  startsAt : String
  endsAt : String
  deriving DecidableEq

/-- An edit opens the days it names, and closes the others, which keep their times. -/
def edited (dto : WorkingHoursDto) (day : Weekday) (old : Option Hours) : Hours :=
  if dto.days.contains day then { isClosed := false, startsAt := dto.startsAt, endsAt := dto.endsAt }
  else { isClosed := true, startsAt := (old.map (·.startsAt)).getD "09:00", endsAt := (old.map (·.endsAt)).getD "18:00" }

/-- The timetable after some edits, the latest first. -/
def timetable : List WorkingHoursDto → Weekday → Option Hours
  | [], _ => none
  | dto :: earlier, day => some (edited dto day (timetable earlier day))

/-- The times of a day: those of the latest edit that opens it. -/
def keptTimes (edits : List WorkingHoursDto) (day : Weekday) : String × String :=
  match edits.find? (·.days.contains day) with
  | some dto => (dto.startsAt, dto.endsAt)
  | none => ("09:00", "18:00")

theorem timetable_times {edits : List WorkingHoursDto} {day : Weekday} {hours : Hours} (h : timetable edits day = some hours) :
    (hours.startsAt, hours.endsAt) = keptTimes edits day := by
  induction edits generalizing hours with
  | nil => cases h
  | cons dto earlier ih =>
    obtain rfl := Option.some.inj h
    unfold edited keptTimes
    rw [List.find?_cons]
    cases hday : dto.days.contains day with
    | true => simp
    | false =>
      cases hold : timetable earlier day with
      | none =>
        have hnil : earlier = [] := by
          cases earlier with
          | nil => rfl
          | cons => cases hold
        simp [hnil]
      | some old =>
        have times := ih hold
        simpa [keptTimes] using times

theorem timetable_open {dto : WorkingHoursDto} {earlier : List WorkingHoursDto} {day : Weekday} {hours : Hours}
    (h : timetable (dto :: earlier) day = some hours) : hours.isClosed = false ↔ day ∈ dto.days := by
  obtain rfl := Option.some.inj h
  unfold edited
  split
  · rename_i hday
    simpa using hday
  · rename_i hday
    simpa using hday

/-! ### Texts in HH:mm format -/

theorem twoDigits_lt {c d c' d' : Char} {bound n n' : Nat} (h : twoDigits c d bound = some n)
    (h' : twoDigits c' d' bound = some n') : (n < n' ↔ c < c' ∨ c = c' ∧ d < d') ∧ (n = n' ↔ c = c' ∧ d = d') := by
  unfold twoDigits at h h'
  simp only [Bool.and_eq_true, Char.isDigit, decide_eq_true_eq, UInt32.le_iff_toNat_le, Option.ite_none_right_eq_some,
    Option.some.injEq, ge_iff_le, Char.toNat] at h h'
  simp only [Char.lt_def, UInt32.lt_iff_toNat_lt, Char.ext_iff, UInt32.ext_iff]
  simp at h h' ⊢
  omega

theorem exists_of_minuteOfDay {a : String} {m : Nat} (h : minuteOfDay a = some m) :
    ∃ c d c' d' hour minute, a.toList = [c, d, ':', c', d'] ∧ twoDigits c d 24 = some hour ∧ twoDigits c' d' 60 = some minute ∧
      m = 60 * hour + minute := by
  unfold minuteOfDay at h
  split at h
  · rename_i c d c' d' htext
    cases hhour : twoDigits c d 24 with
    | none => simp [hhour] at h
    | some hour =>
      cases hminute : twoDigits c' d' 60 with
      | none => simp [hhour, hminute] at h
      | some minute =>
        simp only [hhour, hminute, Option.pure_def, Option.bind_eq_bind, Option.bind_some, Option.some.injEq] at h
        exact ⟨c, d, c', d', hour, minute, htext, hhour, hminute, h.symm⟩
  · cases h

theorem twoDigits_bound {c d : Char} {bound n : Nat} (h : twoDigits c d bound = some n) : n < bound := by
  unfold twoDigits at h
  simp only [Bool.and_eq_true, decide_eq_true_eq, Option.ite_none_right_eq_some, Option.some.injEq] at h
  omega

/-- The texts are ordered as the times that they stand for. -/
theorem minuteOfDay_lt {a b : String} {m n : Nat} (ha : minuteOfDay a = some m) (hb : minuteOfDay b = some n) :
    a < b ↔ m < n := by
  obtain ⟨c, d, c', d', hour, minute, htext, hhour, hminute, rfl⟩ := exists_of_minuteOfDay ha
  obtain ⟨e, f, e', f', hour', minute', htext', hhour', hminute', rfl⟩ := exists_of_minuteOfDay hb
  have hours := twoDigits_lt hhour hhour'
  have minutes := twoDigits_lt hminute hminute'
  have hbound := twoDigits_bound hminute
  have hbound' := twoDigits_bound hminute'
  have lexical : a < b ↔ c < e ∨ c = e ∧ (d < f ∨ d = f ∧ (c' < e' ∨ c' = e' ∧ d' < f')) := by
    show a.toList < b.toList ↔ _
    rw [htext, htext']
    simp [List.cons_lt_cons_iff]
  rw [lexical, ← minutes.1, and_or_left, ← or_assoc, ← and_assoc, ← hours.1, ← hours.2]
  omega

/-! ### The rows of an owner -/

inductive Owner where
  | organization (id : String)
  | staff (id : String)
  deriving DecidableEq

def Owner.owns : Owner → WorkingHours → Bool
  | .organization id, row => row.orgId == some id
  | .staff id, row => row.staffId == some id

/-- The row of a day. -/
def Owner.onDay (o : Owner) (day : Weekday) (row : WorkingHours) : Bool := row.dayOfWeek == day && o.owns row

def hoursOf (row : WorkingHours) : Hours := ⟨row.isClosed, row.startsAt, row.endsAt⟩

/-- What the table shows of an owner. -/
def Owner.hours (o : Owner) (u : Table WorkingHours) (day : Weekday) : Option Hours := (u.findBy (o.onDay day)).map hoursOf

/-- Every row has one owner. -/
def Owned (u : Table WorkingHours) : Prop := ∀ row ∈ u, ∃! o : Owner, o.owns row = true

section Rows
variable {o : Owner} {u u' v : Table WorkingHours} {day day' : Weekday} {row : WorkingHours} {dto : WorkingHoursDto}

theorem onDay_iff : o.onDay day row = true ↔ row.dayOfWeek = day ∧ o.owns row = true := by
  simp [Owner.onDay]

/-- Two rows of an owner are of different days. -/
theorem onDay_unique (a b : WorkingHours) (ha : o.onDay day a = true) (hb : o.onDay day b = true) : Row.clash a b = true := by
  obtain ⟨hday, howns⟩ := onDay_iff.mp ha
  obtain ⟨hday', howns'⟩ := onDay_iff.mp hb
  cases o with
  | organization id =>
    have horg : a.orgId = some id := beq_iff_eq.mp howns
    have horg' : b.orgId = some id := beq_iff_eq.mp howns'
    simp [Row.clash, sameValue, hday, hday', horg, horg']
  | staff id =>
    have hstaff : a.staffId = some id := beq_iff_eq.mp howns
    have hstaff' : b.staffId = some id := beq_iff_eq.mp howns'
    simp [Row.clash, sameValue, hday, hday', hstaff, hstaff']

theorem findBy_onDay : u.findBy (o.onDay day) = some row ↔ row ∈ u ∧ row.dayOfWeek = day ∧ o.owns row = true := by
  rw [Table.findBy_eq_some onDay_unique, onDay_iff]

theorem hours_of_mem (hmem : row ∈ u) (howns : o.owns row = true) : o.hours u row.dayOfWeek = some (hoursOf row) := by
  rw [Owner.hours, findBy_onDay.mpr ⟨hmem, rfl, howns⟩, Option.map_some]

theorem mem_of_hours {hours : Hours} (h : o.hours u day = some hours) :
    ∃ row ∈ u, row.dayOfWeek = day ∧ o.owns row = true ∧ hoursOf row = hours := by
  obtain ⟨row, hfind, hhours⟩ := Option.map_eq_some_iff.mp h
  obtain ⟨hmem, hday, howns⟩ := findBy_onDay.mp hfind
  exact ⟨row, hmem, hday, howns, hhours⟩

/-- An edit has written some days of an owner, and no rows of others. -/
structure Written (o : Owner) (dto : WorkingHoursDto) (days : List Weekday) (u u' : Table WorkingHours) : Prop where
  frame : Table.Same (fun row => o.owns row = false) u u'
  hours : ∀ day, o.hours u' day = if day ∈ days then some (edited dto day (o.hours u day)) else o.hours u day
  owned : Owned u → Owned u'

theorem Written.refl : Written o dto [] u u where
  frame := .refl u
  hours day := by simp
  owned := id

theorem Written.cons {days : List Weekday} (first : Written o dto [day] u u') (rest : Written o dto days u' v)
    (hday : day ∉ days) : Written o dto (day :: days) u v where
  frame := first.frame.trans rest.frame
  hours other := by
    rw [rest.hours, first.hours]
    by_cases hother : other = day
    · simp [hother, hday]
    · simp [hother]
  owned h := rest.owned (first.owned h)

/-- The day of one owner is written, and the other days are not. -/
theorem hours_of_day (hwritten : o.hours u' day = some (edited dto day (o.hours u day)))
    (others : Table.Same (fun row => o.onDay day row = false) u u') (other : Weekday) :
    o.hours u' other = if other ∈ [day] then some (edited dto other (o.hours u other)) else o.hours u other := by
  by_cases hother : other = day
  · subst hother
    simp [hwritten]
  · rw [if_neg (by simpa using hother), Owner.hours, Owner.hours, others.findBy_eq onDay_unique fun row hrow => ?_]
    simp [Owner.onDay, (onDay_iff.mp hrow).1, hother]

/-- The row of a day is there, and changes. -/
theorem Written.update (hfind : u.findBy (o.onDay day) = some row) :
    Written o dto [day] u (u.update (o.onDay day) (OrganizationService.setHours dto (dto.days.contains day))
      (OrganizationService.setHours_keys dto _)) := by
  obtain ⟨hmem, hday, howns⟩ := findBy_onDay.mp hfind
  have sameOwner : ∀ (p : Owner) (a : WorkingHours),
      p.owns (OrganizationService.setHours dto (dto.days.contains day) a) = p.owns a := by
    intro p a
    cases p <;> rfl
  have others : Table.Same (fun row => o.onDay day row = false) u (u.update (o.onDay day)
      (OrganizationService.setHours dto (dto.days.contains day)) (OrganizationService.setHours_keys dto _)) := by
    refine Table.Same.update fun a _ ha => ?_
    have hset : o.onDay day (OrganizationService.setHours dto (dto.days.contains day) a) = true :=
      onDay_iff.mpr ⟨(onDay_iff.mp ha).1, by rw [sameOwner, (onDay_iff.mp ha).2]⟩
    simp only [ha, hset, reduceCtorEq, not_false_eq_true, and_self]
  refine ⟨fun a ha => others a (by simp [Owner.onDay, ha]), hours_of_day ?_ others, fun owned a ha => ?_⟩
  · have hset : OrganizationService.setHours dto (dto.days.contains day) row ∈ u.update (o.onDay day)
        (OrganizationService.setHours dto (dto.days.contains day)) (OrganizationService.setHours_keys dto _) :=
      Table.mem_update_of_mem hmem (onDay_iff.mpr ⟨hday, howns⟩)
    have hfind' := hours_of_mem (o := o) hset (by rw [sameOwner, howns])
    have hold : o.hours u day = some (hoursOf row) := hday ▸ hours_of_mem hmem howns
    rw [hold]
    refine (hday ▸ hfind').trans ?_
    simp only [edited, hoursOf, OrganizationService.setHours]
    cases dto.days.contains day <;> rfl
  · rcases Table.mem_update_cases ha with ⟨ha, -⟩ | ⟨b, hb, -, rfl⟩
    · exact owned a ha
    · simpa only [sameOwner] using owned b hb

/-- The row of a day is not there, and is created. -/
theorem Written.insert (hfind : u.findBy (o.onDay day) = none) (hday : row.dayOfWeek = day)
    (howner : ∀ p : Owner, p.owns row = true ↔ p = o) (hhours : hoursOf row = edited dto day none)
    (stored : u.insert row = some u') : Written o dto [day] u u' := by
  have howns : o.owns row = true := (howner o).mpr rfl
  have others : Table.Same (fun row => o.onDay day row = false) u u' := by
    refine Table.Same.insert stored ?_
    simp [onDay_iff.mpr ⟨hday, howns⟩]
  refine ⟨fun a ha => others a (by simp [Owner.onDay, ha]), hours_of_day ?_ others, fun owned a ha => ?_⟩
  · have hfind' : o.hours u' row.dayOfWeek = some (hoursOf row) :=
      hours_of_mem ((Table.mem_insert stored).mpr (Or.inr rfl)) howns
    rw [← hday, hfind', hhours, Owner.hours, hday, hfind]
    rfl
  · rcases (Table.mem_insert stored).mp ha with ha | rfl
    · exact owned a ha
    · exact ⟨o, howns, fun p hp => (howner p).mp hp⟩

end Rows

/-! ### The two services -/

section Services
variable {s t : Db} {dto : WorkingHoursDto} {orgId staffId : String}

/-- One day after another, as both services do. -/
theorem written_of_each {o : Owner} (upsert : Weekday → Service Unit) (each : List Weekday → Service Unit)
    (nil : each [] = return ()) (cons : ∀ day days, each (day :: days) = upsert day >>= fun _ => each days)
    (one : ∀ s day, (upsert day).Returns (fun r t => r = .ok () → Written o dto [day] s.workingHours t.workingHours) s)
    {days : List Weekday} (nodup : days.Nodup) :
    (each days).Returns (fun r t => r = .ok () → Written o dto days s.workingHours t.workingHours) s := by
  induction days generalizing s with
  | nil =>
    rw [nil]
    exact fun _ => .refl
  | cons day days ih =>
    obtain ⟨hday, hrest⟩ := List.nodup_cons.mp nodup
    rw [cons, Prog.returns_bind]
    refine Prog.Returns.mono (one s day) fun r t first => ?_
    cases r with
    | error e => exact fun h => by cases h
    | ok _ => exact Prog.Returns.mono (ih hrest) fun r v rest hr => (first rfl).cons (rest hr) hday

theorem written_organization {io : OrganizationService.ChangeIo} {day : Weekday} :
    (OrganizationService.upsertWorkingHours io orgId dto day).Returns
      (fun r t => r = .ok () → Written (.organization orgId) dto [day] s.workingHours t.workingHours) s := by
  rw [OrganizationService.upsertWorkingHours, returns_mutate]
  refine ⟨fun e _ h => (by cases h), fun a t ht _ => ?_⟩
  split at ht
  · rename_i row hfind
    obtain ⟨-, rfl⟩ := Prod.mk.inj (Except.ok.inj ht)
    exact .update hfind
  · rename_i hfind
    obtain ⟨-, u, stored, hx⟩ := created_map_eq_ok.mp ht
    cases hx
    refine .insert hfind rfl (fun p => ?_) ?_ stored
    · cases p with
      | organization id => exact beq_iff_eq.trans (by simp [OrganizationService.newHours, eq_comm])
      | staff id => simp [Owner.owns, OrganizationService.newHours]
    · simp only [edited, hoursOf, OrganizationService.newHours]
      cases dto.days.contains day <;> rfl

theorem written_staff {io : Io} {day : Weekday} : (upsertWorkingHours io staffId dto day).Returns
    (fun r t => r = .ok () → Written (.staff staffId) dto [day] s.workingHours t.workingHours) s := by
  rw [upsertWorkingHours, returns_mutate]
  refine ⟨fun e _ h => (by cases h), fun a t ht _ => ?_⟩
  split at ht
  · rename_i row hfind
    obtain ⟨-, rfl⟩ := Prod.mk.inj (Except.ok.inj ht)
    exact .update hfind
  · rename_i hfind
    obtain ⟨-, u, stored, hx⟩ := created_map_eq_ok.mp ht
    cases hx
    refine .insert hfind rfl (fun p => ?_) ?_ stored
    · cases p with
      | organization id => simp [Owner.owns, newHours]
      | staff id => exact beq_iff_eq.trans (by simp [newHours, eq_comm])
    · simp only [edited, hoursOf, newHours]
      cases dto.days.contains day <;> rfl

theorem mem_allDays (day : Weekday) : day ∈ allDays := by cases day <;> decide

theorem nodup_allDays : allDays.Nodup := by decide

theorem written_editOrganization {io : OrganizationService.ChangeIo}
    (h : (OrganizationService.editWorkingHours io orgId (some dto)).run s = (.ok (), t)) :
    Written (.organization orgId) dto allDays s.workingHours t.workingHours := by
  have written := written_of_each (s := s) (OrganizationService.upsertWorkingHours io orgId dto)
    (OrganizationService.upsertEach io orgId dto) rfl (fun _ _ => rfl) (fun _ _ => written_organization) nodup_allDays
  have hrun : (OrganizationService.upsertEach io orgId dto allDays).run s = (.ok (), t) := h
  rw [Prog.Returns, hrun] at written
  exact written rfl

theorem written_editStaff {io : Io} (h : (editWorkingHours io staffId (some dto)).run s = (.ok (), t)) :
    dto.startsAt < dto.endsAt ∧ Written (.staff staffId) dto allDays s.workingHours t.workingHours := by
  have checked : (editWorkingHours io staffId (some dto)).Returns (fun r t => r = .ok () →
      dto.startsAt < dto.endsAt ∧ Written (.staff staffId) dto allDays s.workingHours t.workingHours) s := by
    simp only [editWorkingHours, Prog.returns_bind, Prog.returns_failIf, Prog.then_ok, Prog.then_error, reduceCtorEq,
      false_implies, implies_true, true_and, not_not]
    intro hbefore _
    have written := written_of_each (s := s) (upsertWorkingHours io staffId dto) (upsertEach io staffId dto) rfl
      (fun _ _ => rfl) (fun _ _ => written_staff) nodup_allDays
    exact Prog.Returns.mono written fun _ _ hwritten hr => ⟨hbefore, hwritten hr⟩
  rw [Prog.Returns, h] at checked
  exact checked rfl

end Services

/-! ### Runs of edits -/

inductive Call where
  | organization (io : OrganizationService.ChangeIo) (orgId role : String) (dto : OrganizationService.EditOrganizationDto)
      (userId : String) (logo : Bool)
  | staff (io : Io) (orgId : Option String) (role staffId : String) (dto : EditStaffMemberDto) (qOrgId : Option String)

def Call.perform (js : Js) : Call → Service Unit
  | .organization io orgId role dto userId logo => do
    let _ ← OrganizationService.editOrganizationDetails js io orgId role dto userId logo
  | .staff io orgId role staffId dto qOrgId => do let _ ← editStaffMemberDetails io orgId role staffId dto qOrgId

def Call.owner : Call → Owner
  | .organization _ orgId _ _ _ _ => .organization orgId
  | .staff _ _ _ staffId _ _ => .staff staffId

def Call.workingHours : Call → Option WorkingHoursDto
  | .organization _ _ _ dto _ _ => dto.workingHours
  | .staff _ _ _ _ dto _ => dto.workingHours

/-- The working hours of the request pass its validation. -/
def Call.Valid (call : Call) : Prop := ∀ dto ∈ call.workingHours, dto.Valid

abbrev Reply := Except HttpException Unit

/-- The runs of edits, one after another, in which any statement may fail. They start without working hours. -/
def edits (js : Js) : System (System.Run Db Call Reply) Call :=
  System.logged (·.workingHours = ∅) fun s call r t => Prog.Exec (call.perform js) s r t

/-- The working hours that an owner has been given by a call that succeeded. -/
def givenTo (o : Owner) (entry : System.Entry Db Call Reply) : Option WorkingHoursDto :=
  match entry.reply with
  | .ok _ => if entry.call.owner = o then entry.call.workingHours else none
  | .error _ => none

/-- The working hours that an owner has been given, the latest first. -/
def editsOf (o : Owner) (log : List (System.Entry Db Call Reply)) : List WorkingHoursDto := log.filterMap (givenTo o)

/-- The table shows of an owner what the owner's edits ask for. -/
structure Consistent (u : Table WorkingHours) (o : Owner) (edits : List WorkingHoursDto) : Prop where
  unedited : edits = [] → ∀ row ∈ u, o.owns row = false
  complete : edits ≠ [] → ∀ day, ∃! row, row ∈ u ∧ o.owns row = true ∧ row.dayOfWeek = day
  ordered : ∀ row ∈ u, o.owns row = true →
    ∃ start finish, minuteOfDay row.startsAt = some start ∧ minuteOfDay row.endsAt = some finish ∧ start < finish
  someOpen : edits ≠ [] → ∃ row ∈ u, o.owns row = true ∧ row.isClosed = false
  openDays : ∀ dto ∈ edits.head?, ∀ row ∈ u, o.owns row = true → (row.isClosed = false ↔ row.dayOfWeek ∈ dto.days)
  times : ∀ row ∈ u, o.owns row = true → (row.startsAt, row.endsAt) = keptTimes edits row.dayOfWeek

/-- The hours of an edit that was accepted. -/
def Accepted (dto : WorkingHoursDto) : Prop := dto.Valid ∧ dto.startsAt < dto.endsAt

section Tables
variable {u u' : Table WorkingHours} {o p : Owner} {list : List WorkingHoursDto} {dto : WorkingHoursDto}

/-- Kept times are those of an accepted edit, or those of a closed day. -/
theorem keptTimes_ordered (accepted : ∀ dto ∈ list, Accepted dto) {day : Weekday} {startsAt endsAt : String}
    (times : (startsAt, endsAt) = keptTimes list day) :
    ∃ start finish, minuteOfDay startsAt = some start ∧ minuteOfDay endsAt = some finish ∧ start < finish := by
  unfold keptTimes at times
  cases hfind : list.find? (·.days.contains day) with
  | none =>
    rw [hfind] at times
    obtain ⟨rfl, rfl⟩ := Prod.mk.inj times
    exact ⟨540, 1080, by decide, by decide, by decide⟩
  | some dto =>
    rw [hfind] at times
    obtain ⟨rfl, rfl⟩ := Prod.mk.inj times
    obtain ⟨valid, hbefore⟩ := accepted dto (List.mem_of_find?_eq_some hfind)
    obtain ⟨start, hs⟩ := Option.isSome_iff_exists.mp valid.startsAt
    obtain ⟨finish, hf⟩ := Option.isSome_iff_exists.mp valid.endsAt
    exact ⟨start, finish, hs, hf, (minuteOfDay_lt hs hf).mp hbefore⟩

/-- A timetable that the table shows is consistent. -/
theorem consistent_of_hours (h : ∀ day, o.hours u day = timetable list day) (accepted : ∀ dto ∈ list, Accepted dto) :
    Consistent u o list := by
  have shown : ∀ row ∈ u, o.owns row = true → timetable list row.dayOfWeek = some (hoursOf row) :=
    fun row hmem howns => (h row.dayOfWeek).symm.trans (hours_of_mem hmem howns)
  have present : list ≠ [] → ∀ day, ∃ row ∈ u, row.dayOfWeek = day ∧ o.owns row = true := by
    intro hne day
    cases list with
    | nil => exact absurd rfl hne
    | cons dto earlier =>
      obtain ⟨row, hmem, hday, howns, -⟩ := mem_of_hours (h day)
      exact ⟨row, hmem, hday, howns⟩
  refine ⟨?unedited, ?complete, ?ordered, ?someOpen, ?openDays, ?times⟩
  case unedited =>
    rintro rfl row hmem
    rw [Bool.eq_false_iff]
    intro howns
    cases shown row hmem howns
  case complete =>
    intro hne day
    obtain ⟨row, hmem, hday, howns⟩ := present hne day
    refine ⟨row, ⟨hmem, howns, hday⟩, fun other h' => ?_⟩
    obtain ⟨hother, howns', hday'⟩ := h'
    exact Table.eq_of_clash hother hmem (onDay_unique other row (onDay_iff.mpr ⟨hday', howns'⟩) (onDay_iff.mpr ⟨hday, howns⟩))
  case ordered => exact fun row hmem howns => keptTimes_ordered accepted (timetable_times (shown row hmem howns))
  case someOpen =>
    intro hne
    cases list with
    | nil => exact absurd rfl hne
    | cons dto earlier =>
      obtain ⟨day, hday⟩ := List.exists_mem_of_ne_nil _ (accepted dto List.mem_cons_self).1.days
      obtain ⟨row, hmem, rfl, howns⟩ := present hne day
      exact ⟨row, hmem, howns, (timetable_open (shown row hmem howns)).mpr hday⟩
  case openDays =>
    intro dto hdto row hmem howns
    cases list with
    | nil => cases hdto
    | cons latest earlier =>
      obtain rfl := Option.some.inj hdto
      exact timetable_open (shown row hmem howns)
  case times => exact fun row hmem howns => timetable_times (shown row hmem howns)

/-- What an edit writes is not of another owner. -/
theorem Written.other {days : List Weekday} (h : Written o dto days u u') (owned : Owned u) (hother : p ≠ o) :
    Table.Same (fun row => p.owns row = true) u u' := by
  intro row howns
  have apart : ∀ v : Table WorkingHours, Owned v → row ∈ v → o.owns row = false := by
    intro v hv hmem
    rw [Bool.eq_false_iff]
    exact fun h' => hother ((hv row hmem).unique howns h')
  constructor
  · exact fun hmem => (h.frame row (apart u' (h.owned owned) hmem)).mp hmem
  · exact fun hmem => (h.frame row (apart u owned hmem)).mpr hmem

theorem hours_of_same (h : Table.Same (fun row => o.owns row = true) u u') (day : Weekday) : o.hours u' day = o.hours u day := by
  rw [Owner.hours, Owner.hours, h.findBy_eq onDay_unique fun row hrow => (onDay_iff.mp hrow).2]

end Tables

section Calls
variable {js : Js} {s t : Db} {call : Call}

/-- What a call does to the working hours that succeeds. -/
def Takes (s t : Db) (o : Owner) : Option WorkingHoursDto → Prop
  | none => t.workingHours = s.workingHours
  | some dto => dto.startsAt < dto.endsAt ∧ Written o dto allDays s.workingHours t.workingHours

theorem perform_takes (h : Prog.Exec (call.perform js) s (.ok ()) t) : Takes s t call.owner call.workingHours := by
  cases call with
  | organization io orgId role dto userId logo =>
    obtain ⟨reply, hexec⟩ := h.of_discard
    obtain ⟨-, -, -, -, sound, -, hrun⟩ := OrganizationService.editOrganizationDetails_edits.of_exec hexec
    show Takes s t (.organization orgId) dto.workingHours
    cases hdto : dto.workingHours with
    | none =>
      rw [hdto] at hrun
      have hsame := (Prod.mk.inj hrun).2
      exact (congrArg Db.workingHours hsame).symm
    | some hours =>
      rw [hdto] at hrun
      have written := written_editOrganization hrun
      exact ⟨(sound hours hdto).1, written⟩
  | staff io orgId role staffId dto qOrgId =>
    obtain ⟨reply, hexec⟩ := h.of_discard
    have hrun := (editStaffMemberDetails_edits.of_exec hexec : Edits s io orgId role staffId dto qOrgId t).hours
    show Takes s t (.staff staffId) dto.workingHours
    cases hdto : dto.workingHours with
    | none =>
      rw [hdto] at hrun
      have hsame := (Prod.mk.inj hrun).2
      exact (congrArg Db.workingHours hsame).symm
    | some hours =>
      rw [hdto] at hrun
      have written := written_editStaff hrun
      exact written

theorem perform_refused {e : HttpException} (h : Prog.Exec (call.perform js) s (.error e) t) : t = s := by
  cases call with
  | organization io orgId role dto userId logo =>
    exact OrganizationService.editOrganizationDetails_edits.of_exec (Prog.exec_discard_error.mp h)
  | staff io orgId role staffId dto qOrgId => exact editStaffMemberDetails_edits.of_exec (Prog.exec_discard_error.mp h)

/-- A call leaves the rows of the other owners as they are. -/
theorem perform_other {r : Reply} {p : Owner} (owned : Owned s.workingHours) (h : Prog.Exec (call.perform js) s r t)
    (hother : p ≠ call.owner) : Table.Same (fun row => p.owns row = true) s.workingHours t.workingHours := by
  cases r with
  | error e => rw [perform_refused h]
  | ok _ =>
    have takes := perform_takes h
    cases hdto : call.workingHours with
    | none =>
      rw [hdto] at takes
      exact .of_eq takes
    | some dto =>
      rw [hdto] at takes
      exact takes.2.other owned hother

/-- The table shows the edits of a run. -/
structure Shows (u : Table WorkingHours) (log : List (System.Entry Db Call Reply)) : Prop where
  owned : Owned u
  hours : ∀ o day, o.hours u day = timetable (editsOf o log) day
  accepted : ∀ o, ∀ dto ∈ editsOf o log, Accepted dto

theorem Shows.refused {log : List (System.Entry Db Call Reply)} {e : HttpException} (h : Shows s.workingHours log) :
    Shows s.workingHours (⟨s, call, .error e⟩ :: log) := ⟨h.owned, h.hours, h.accepted⟩

theorem Shows.accept {log : List (System.Entry Db Call Reply)} (h : Shows s.workingHours log) (valid : call.Valid)
    (hexec : Prog.Exec (call.perform js) s (.ok ()) t) : Shows t.workingHours (⟨s, call, .ok ()⟩ :: log) := by
  have takes := perform_takes hexec
  have others : ∀ o ≠ call.owner, editsOf o (⟨s, call, .ok ()⟩ :: log) = editsOf o log := by
    intro o ho
    have hnone : givenTo o ⟨s, call, .ok ()⟩ = none := if_neg fun heq => ho heq.symm
    rw [editsOf, List.filterMap_cons, hnone]
    rfl
  have own : editsOf call.owner (⟨s, call, .ok ()⟩ :: log) = call.workingHours.toList ++ editsOf call.owner log := by
    have hgiven : givenTo call.owner ⟨s, call, .ok ()⟩ = call.workingHours := if_pos rfl
    rw [editsOf, List.filterMap_cons, hgiven]
    cases call.workingHours <;> rfl
  cases hdto : call.workingHours with
  | none =>
    rw [hdto] at takes own
    have same : ∀ o, editsOf o (⟨s, call, .ok ()⟩ :: log) = editsOf o log := by
      intro o
      by_cases ho : o = call.owner
      · rw [ho, own]
        rfl
      · exact others o ho
    have htable : t.workingHours = s.workingHours := takes
    rw [htable]
    exact ⟨h.owned, fun o => by rw [same]; exact h.hours o, fun o => by rw [same]; exact h.accepted o⟩
  | some dto =>
    rw [hdto] at takes own
    obtain ⟨hbefore, written⟩ := takes
    refine ⟨written.owned h.owned, fun o day => ?_, fun o => ?_⟩
    · by_cases ho : o = call.owner
      · subst ho
        rw [own, written.hours, if_pos (mem_allDays day), h.hours]
        rfl
      · rw [others o ho, ← h.hours]
        exact hours_of_same (perform_other h.owned hexec ho) day
    · by_cases ho : o = call.owner
      · subst ho
        rw [own]
        intro other hother
        rcases List.mem_cons.mp hother with rfl | hother
        · exact ⟨valid other hdto, hbefore⟩
        · exact h.accepted _ other hother
      · rw [others o ho]
        exact h.accepted o

theorem shows_of_reach {c : System.Run Db Call Reply} (h : (edits js).Reach (fun _ call => call.Valid) c) :
    Shows c.state.workingHours c.log := by
  refine h.invariant (I := fun c => Shows c.state.workingHours c.log) (fun c hinit => ?_)
    fun c call d _ shows valid hstep => ?_
  · obtain ⟨hempty, hlog⟩ := hinit
    rw [hempty, hlog]
    exact ⟨fun row hrow => absurd hrow Table.not_mem_empty, fun _ _ => rfl, fun _ dto hdto => absurd hdto List.not_mem_nil⟩
  · obtain ⟨r, hexec, hlog⟩ := hstep
    rw [hlog]
    cases r with
    | ok _ => exact shows.accept valid hexec
    | error e =>
      rw [perform_refused hexec]
      exact shows.refused

end Calls

/-- In every run of edits, every row has one owner, and of every organisation and staff member the table shows what
    the owner's edits ask for; and an edit of one owner changes no row of another. -/
theorem working_hours_consistent (js : Js) (c : System.Run Db Call Reply)
    (h : (edits js).Reach (fun _ call => call.Valid) c) :
    Owned c.state.workingHours ∧ (∀ o, Consistent c.state.workingHours o (editsOf o c.log)) ∧
    ∀ (call : Call) (r : Reply) (t : Db), Prog.Exec (call.perform js) c.state r t → ∀ o : Owner, o ≠ call.owner →
      Table.Same (fun row => o.owns row = true) c.state.workingHours t.workingHours := by
  have shows := shows_of_reach h
  exact ⟨shows.owned, fun o => consistent_of_hours (shows.hours o) (shows.accepted o),
    fun call r t hexec o ho => perform_other shows.owned hexec ho⟩

/-! ### A clinic -/

namespace Clinic

def js : Js := { toLowerCase := id, trim := id, toLocaleString := fun _ => "" }

def db : Db where
  organization := {{ id := "org", name := "Clinic", email := "clinic@mail.com" }}
  staff := {{ id := "ann", orgId := "org", name := "Ann", email := "ann@mail.com" }}

def io : OrganizationService.ChangeIo where
  organizationId := ""
  subscriptionId := ""
  workingHoursId day := s!"{allDays.idxOf day}"
  logoUrl := ""
  encryptionKey := some "key"
  cipher := { iv := "iv", cipher := fun _ _ text => .ok ("tag", text) }
  newDate _ := some 0
  dateTime _ := some 0

def long : WorkingHoursDto := { startsAt := "08:00", endsAt := "17:00", days := [.monday, .tuesday] }

def short : WorkingHoursDto := { startsAt := "10:00", endsAt := "12:00", days := [.monday] }

/-- The edit leaves the limit of accounts as it is. -/
theorem no_limit : ∀ limit ∈ (none : Option Int), OrganizationService.minAccountLimit ≤ limit := by simp

/-- Root gives the clinic working hours. -/
def give (dto : WorkingHoursDto) : Call :=
  .organization io "org" "Root"
    { timezone := "UTC", settingCode := "", accountLimit_min := no_limit, workingHours := some dto } "root" false

/-- The clinic opens on two days, and then on Monday only. -/
def run : System.Run Db Call Reply := .replay (fun call => (call.perform js).run) db [give long, give short]

theorem valid_give {dto : WorkingHoursDto} (h : dto.Valid) : (give dto).Valid := by
  intro other hother
  obtain rfl := Option.some.inj hother
  exact h

theorem reach : (edits js).Reach (fun _ call => call.Valid) run := by
  refine .call (.call (.init ⟨rfl, rfl⟩) (valid_give ?_) (Prog.exec_run _ _)) (valid_give ?_) (Prog.exec_run _ _)
  · exact ⟨by decide, by decide, List.cons_ne_nil _ _⟩
  · exact ⟨by decide, by decide, List.cons_ne_nil _ _⟩

theorem editsOf_run : editsOf (.organization "org") run.log = [short, long] := rfl

end Clinic

open Clinic in
/-- Closed on Tuesday by the second edit, the clinic keeps the hours of the first. -/
theorem working_hours_consistent_clinic : Consistent run.state.workingHours (.organization "org") [short, long] ∧
    keptTimes [short, long] .tuesday = ("08:00", "17:00") := by
  have h := (working_hours_consistent js run reach).2.1 (.organization "org")
  rw [editsOf_run] at h
  exact ⟨h, rfl⟩

end Vms.Timetables
