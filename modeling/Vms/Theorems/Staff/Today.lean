import Vms.StaffView
import Vms.Theorems.Attendance.Export

/-! Whether the views of staff members and the attendance mean the same day by today. Attendance takes the day of
    the organisation's time zone, and the views that of a fixed one. -/

namespace Vms.StaffService
open Relational HttpException
open Attendance (Luxon Calendar startOfOrgDay)

/-- The day window of the views selects, of the sessions of the staff member that are dated the beginning of a
    day of the organisation, those of today. -/
structure AgreesToday (luxon : Luxon) (dayjs : Dayjs) (tz : String) (now : Date) (s : Db) (staff : Staff) : Prop where
  includes : ∀ x ∈ s.attendanceSession, x.staffId = staff.id → startOfOrgDay luxon now tz = some x.date →
    x ∈ sessionsToday dayjs now staff.id s
  excludes : ∀ x ∈ sessionsToday dayjs now staff.id s, ∀ u, startOfOrgDay luxon u tz = some x.date →
    startOfOrgDay luxon now tz = some x.date

/-- What luxon does, where the days of every zone are those of a calendar. -/
def zonesOf (calendars : String → Option Calendar) : Luxon := fun tz => (calendars tz).map (·.toZone)

/-- At this time the views agree with the attendance for all staff of every organisation in a time zone. -/
def TodayAgrees (luxon : Luxon) (dayjs : Dayjs) (tz : String) (now : Date) : Prop :=
  ∀ s : Db, ∀ organization ∈ s.organization, organization.timezone = some tz →
    ∀ staff ∈ s.staff, staff.orgId = organization.id → AgreesToday luxon dayjs tz now s staff

/-- Of the days of the organisation, today is the only one that begins on the day of the fixed zone. -/
structure SameDay (cal : Calendar) (dayjs : Dayjs) (now : Date) : Prop where
  yesterday : cal.startOfDay (cal.startOfDay now - 1) < dayjs.startOfDay now
  today : dayjs.startOfDay now ≤ cal.startOfDay now
  tomorrow : dayjs.startOfDay (dayjs.addDay now) ≤ cal.startOfDay (cal.plusDay now)

section Views
variable {dayjs : Dayjs} {io : ViewIo} {orgId qOrgId : Option String} {role staffId : String} {s : Db}

/-- What the view of a staff member shows is one of the selected sessions, if there is one. -/
theorem getStaffMemberDetails_post : (getStaffMemberDetails dayjs io orgId role staffId qOrgId).Post
    (AllOrNothing s fun reply t => t = s ∧ reply.staff ∈ s.staff ∧
      reply.attendanceSessions = (io.sessions.rows (sessionsToday dayjs io.now staffId s)).take 1) s := by
  simp only [getStaffMemberDetails, Prog.post_bind, Prog.post_failIf, Prog.post_orFail, post_query, Prog.then_ok,
    Prog.then_error, Prog.post_pure, allOrNothing_error, allOrNothing_ok, implies_true, true_and, and_true]
  rintro - targetOrg - organization - details hdetails -
  obtain ⟨staff, hstaff, rfl⟩ := Option.map_eq_some_iff.mp hdetails
  obtain ⟨hmem, hid⟩ := Table.find_eq_some.mp hstaff
  exact ⟨hmem, by rw [← hid]; rfl⟩

theorem getAllStaffMemberDetails_post : (getAllStaffMemberDetails dayjs io orgId role qOrgId).Post
    (AllOrNothing s fun reply t => t = s ∧ ∀ n views, reply = .staff n views → ∀ view ∈ views, view.staff ∈ s.staff ∧
      view.attendanceSessions = (io.sessions.rows (sessionsToday dayjs io.now view.staff.id s)).take 1) s := by
  simp only [getAllStaffMemberDetails, Prog.post_bind, Prog.post_failIf, Prog.post_orFail, post_query, Prog.then_ok,
    Prog.then_error, allOrNothing_error, implies_true, true_and, and_true]
  rintro - targetOrg - organization -
  split
  · exact ⟨rfl, fun _ _ h => by cases h⟩
  · refine ⟨rfl, ?_⟩
    rintro _ _ ⟨⟩ view hview
    obtain ⟨staff, hstaff, rfl⟩ := List.mem_map.mp hview
    exact ⟨(Table.mem_filter.mp ((io.staff.perm _).mem_iff.mp hstaff)).1, rfl⟩

theorem mem_sessionsToday {now : Date} {x : AttendanceSession} : x ∈ sessionsToday dayjs now staffId s ↔
    x ∈ s.attendanceSession ∧ x.staffId = staffId ∧ dayjs.startOfDay now ≤ x.date ∧
    x.date < dayjs.startOfDay (dayjs.addDay now) := by
  simp only [sessionsToday, isToday, Table.mem_filter, Bool.and_eq_true, beq_iff_eq, decide_eq_true_iff]

end Views

/-! ### The days of a time zone -/

section Days
variable {calendars : String → Option Calendar} {cal : Calendar} {dayjs : Dayjs} {tz : String} {now : Date} {s : Db}
  {staff : Staff}

theorem startOfOrgDay_zonesOf (hcal : calendars tz = some cal) (t : Date) :
    startOfOrgDay (zonesOf calendars) t tz = some (cal.startOfDay t) := by
  simp [startOfOrgDay, zonesOf, hcal]

theorem startOfOrgDay_zonesOf_none (hcal : calendars tz = none) (t : Date) :
    startOfOrgDay (zonesOf calendars) t tz = none := by
  simp [startOfOrgDay, zonesOf, hcal]

theorem lt_tomorrow (t : Date) : cal.startOfDay t < dayjs.startOfDay (dayjs.addDay t) :=
  lt_of_le_of_lt (cal.startOfDay_le t) (dayjs.lt_startOfDay_addDay t)

/-- A day that begins before today begins yesterday at the latest. -/
theorem startOfDay_le_yesterday {u : Date} (h : cal.startOfDay u < cal.startOfDay now) :
    cal.startOfDay u ≤ cal.startOfDay (cal.startOfDay now - 1) := by
  have hle : cal.startOfDay u ≤ cal.startOfDay now - 1 := Int.le_sub_one_of_lt h
  have hmono := cal.startOfDay_mono _ _ hle
  rwa [cal.startOfDay_idem] at hmono

theorem yesterday_lt : cal.startOfDay (cal.startOfDay now - 1) < cal.startOfDay now :=
  lt_of_le_of_lt (cal.startOfDay_le _) (Int.sub_one_lt_of_le (le_refl _))

/-- The window holds the beginning of today, and that of no other day. -/
theorem SameDay.window (h : SameDay cal dayjs now) (u : Date) :
    dayjs.startOfDay now ≤ cal.startOfDay u ∧ cal.startOfDay u < dayjs.startOfDay (dayjs.addDay now) ↔
      cal.startOfDay u = cal.startOfDay now := by
  constructor
  · rintro ⟨hfrom, hto⟩
    rcases lt_trichotomy (cal.startOfDay u) (cal.startOfDay now) with hearlier | hsame | hlater
    · have hle := startOfDay_le_yesterday hearlier
      exact absurd (lt_of_le_of_lt hle h.yesterday) (not_lt.mpr hfrom)
    · exact hsame
    · have hle := cal.plusDay_le now u hlater
      exact absurd (lt_of_lt_of_le hto h.tomorrow) (not_lt.mpr hle)
  · intro hsame
    rw [hsame]
    exact ⟨h.today, lt_tomorrow now⟩

theorem SameDay.agrees (h : SameDay cal dayjs now) (hcal : calendars tz = some cal) :
    AgreesToday (zonesOf calendars) dayjs tz now s staff := by
  refine ⟨fun x hx hstaff hdate => ?_, fun x hx u hu => ?_⟩
  · rw [startOfOrgDay_zonesOf hcal] at hdate
    have hdate : cal.startOfDay now = x.date := Option.some.inj hdate
    rw [mem_sessionsToday, ← hdate]
    exact ⟨hx, hstaff, (h.window now).mpr rfl⟩
  · rw [startOfOrgDay_zonesOf hcal] at hu ⊢
    have hu : cal.startOfDay u = x.date := Option.some.inj hu
    obtain ⟨-, -, hwindow⟩ := mem_sessionsToday.mp hx
    rw [← hu] at hwindow ⊢
    rw [(h.window u).mp hwindow]

/-- Where there is one session a day, the views show that of today, and nothing if there is none. -/
theorem SameDay.mem_shown (h : SameDay cal dayjs now) {sessions : RowOrder AttendanceSession} {staffId : String}
    (dated : ∀ x ∈ s.attendanceSession, ∃ u, cal.startOfDay u = x.date)
    (single : ∀ x ∈ s.attendanceSession, ∀ y ∈ s.attendanceSession, x.staffId = y.staffId → x.date = y.date → x = y)
    (x : AttendanceSession) : x ∈ (sessions.rows (sessionsToday dayjs now staffId s)).take 1 ↔
      x ∈ s.attendanceSession ∧ x.staffId = staffId ∧ x.date = cal.startOfDay now := by
  have selected : ∀ y, y ∈ sessionsToday dayjs now staffId s ↔
      y ∈ s.attendanceSession ∧ y.staffId = staffId ∧ y.date = cal.startOfDay now := by
    intro y
    rw [mem_sessionsToday]
    refine and_congr_right fun hy => and_congr_right fun _ => ?_
    obtain ⟨u, hu⟩ := dated y hy
    rw [← hu]
    exact h.window u
  have hperm := sessions.perm (sessionsToday dayjs now staffId s)
  rw [← selected, ← hperm.mem_iff]
  refine ⟨List.mem_of_mem_take, fun hx => ?_⟩
  cases hrows : sessions.rows (sessionsToday dayjs now staffId s) with
  | nil =>
    rw [hrows] at hx
    cases hx
  | cons first rest =>
    -- the first row is the only one: all of them are of today
    have hfirst : first ∈ sessions.rows (sessionsToday dayjs now staffId s) := by simp [hrows]
    obtain ⟨hmem, hstaff, hdate⟩ := (selected first).mp (hperm.mem_iff.mp hfirst)
    obtain ⟨hxmem, hxstaff, hxdate⟩ := (selected x).mp (hperm.mem_iff.mp hx)
    have hsame : x = first := single x hxmem first hmem (hxstaff.trans hstaff.symm) (hxdate.trans hdate.symm)
    rw [hsame, List.take_succ_cons, List.take_zero]
    exact List.mem_singleton.mpr rfl

/-- The organisation of one staff member with one session. -/
def oneSession (tz : String) (date : Date) : Db where
  organization := {{ id := "org", name := "Org", email := "org@mail.com", timezone := some tz }}
  staff := {{ id := "ann", orgId := "org", name := "Ann", email := "ann@mail.com" }}
  attendanceSession := {{ id := "s1", orgId := "org", staffId := "ann", date := date }}

/-- Where the views agree, one session on any day is selected only if the day is today, and is if it is. -/
theorem TodayAgrees.iff (h : TodayAgrees (zonesOf calendars) dayjs tz now) (hcal : calendars tz = some cal) (u : Date) :
    dayjs.startOfDay now ≤ cal.startOfDay u ∧ cal.startOfDay u < dayjs.startOfDay (dayjs.addDay now) ↔
      cal.startOfDay u = cal.startOfDay now := by
  have agrees := h (oneSession tz (cal.startOfDay u)) _ (Table.mem_singleton.mpr rfl) rfl _ (Table.mem_singleton.mpr rfl) rfl
  constructor
  · intro hwindow
    have hnow := agrees.excludes _ (mem_sessionsToday.mpr ⟨Table.mem_singleton.mpr rfl, rfl, hwindow⟩) u
      (startOfOrgDay_zonesOf hcal u)
    rw [startOfOrgDay_zonesOf hcal] at hnow
    exact (Option.some.inj hnow).symm
  · intro hsame
    have hmem := agrees.includes _ (Table.mem_singleton.mpr rfl) rfl (by rw [startOfOrgDay_zonesOf hcal, hsame])
    exact (mem_sessionsToday.mp hmem).2.2

theorem TodayAgrees.sameDay (h : TodayAgrees (zonesOf calendars) dayjs tz now) (hcal : calendars tz = some cal) :
    SameDay cal dayjs now := by
  have htoday : dayjs.startOfDay now ≤ cal.startOfDay now := ((h.iff hcal now).mpr rfl).1
  refine ⟨?_, htoday, ?_⟩
  · by_contra hnot
    have hto : cal.startOfDay (cal.startOfDay now - 1) < dayjs.startOfDay (dayjs.addDay now) :=
      lt_trans yesterday_lt (lt_tomorrow now)
    exact absurd ((h.iff hcal _).mp ⟨not_lt.mp hnot, hto⟩) (ne_of_lt yesterday_lt)
  · by_contra hnot
    have hfrom := le_trans htoday (le_of_lt (cal.lt_plusDay now))
    exact absurd ((h.iff hcal _).mp ⟨hfrom, not_le.mp hnot⟩) (ne_of_gt (cal.lt_plusDay now))

/-- On such a day the view of a staff member shows the session that an attendance request would find. -/
theorem SameDay.getStaffMemberDetails_shows {io : ViewIo} {orgId qOrgId : Option String} {role staffId : String}
    (h : SameDay cal dayjs io.now) (dated : ∀ x ∈ s.attendanceSession, ∃ u, cal.startOfDay u = x.date)
    (single : ∀ x ∈ s.attendanceSession, ∀ y ∈ s.attendanceSession, x.staffId = y.staffId → x.date = y.date → x = y) :
    (getStaffMemberDetails dayjs io orgId role staffId qOrgId).Post (AllOrNothing s fun reply _ => ∀ x,
      x ∈ reply.attendanceSessions ↔ x ∈ s.attendanceSession ∧ x.staffId = staffId ∧ x.date = cal.startOfDay io.now) s := by
  refine Post.allOrNothing getStaffMemberDetails_post fun reply t hreply x => ?_
  rw [hreply.2.2]
  exact h.mem_shown dated single x

theorem SameDay.getAllStaffMemberDetails_shows {io : ViewIo} {orgId qOrgId : Option String} {role : String}
    (h : SameDay cal dayjs io.now) (dated : ∀ x ∈ s.attendanceSession, ∃ u, cal.startOfDay u = x.date)
    (single : ∀ x ∈ s.attendanceSession, ∀ y ∈ s.attendanceSession, x.staffId = y.staffId → x.date = y.date → x = y) :
    (getAllStaffMemberDetails dayjs io orgId role qOrgId).Post (AllOrNothing s fun reply _ => ∀ n views,
      reply = .staff n views → ∀ view ∈ views, ∀ x, x ∈ view.attendanceSessions ↔
        x ∈ s.attendanceSession ∧ x.staffId = view.staff.id ∧ x.date = cal.startOfDay io.now) s := by
  refine Post.allOrNothing getAllStaffMemberDetails_post fun reply t hreply n views hviews view hview x => ?_
  rw [(hreply.2 n views hviews view hview).2]
  exact h.mem_shown dated single x

end Days

/-- The views agree with the attendance at a time exactly if the days of the organisation's zone, if it is a
    time zone, are then those of the fixed zone. -/
theorem staff_views_today_iff (calendars : String → Option Calendar) (dayjs : Dayjs) (tz : String) (now : Date) :
    TodayAgrees (zonesOf calendars) dayjs tz now ↔ ∀ cal, calendars tz = some cal → SameDay cal dayjs now := by
  constructor
  · exact fun h cal hcal => h.sameDay hcal
  · intro h s organization _ _ staff _ _
    cases hcal : calendars tz with
    | none =>
      refine ⟨fun x _ _ hdate => ?_, fun x _ u hu => ?_⟩
      · rw [startOfOrgDay_zonesOf_none hcal] at hdate
        cases hdate
      · rw [startOfOrgDay_zonesOf_none hcal] at hu
        cases hu
    | some cal => exact (h cal hcal).agrees hcal

/-! ### An evening in London -/

/-- Kolkata is five and a half hours ahead of UTC. -/
def kolkataDay (t : Int) : Int := (t + 19800000) / 86400000 * 86400000 - 19800000

theorem lt_kolkataDay_add (t : Int) : t < kolkataDay (t + 86400000) := by
  unfold kolkataDay
  omega

def kolkata : Dayjs where
  startOfDay := kolkataDay
  addDay t := t + 86400000
  lt_startOfDay_addDay := lt_kolkataDay_add

/-- Sunday, 30 March 2025, at nine in the evening, when it is Monday in Kolkata. -/
def evening : Date := 1743364800000

theorem evening_session_missing : ¬TodayAgrees (zonesOf Attendance.London.luxon) kolkata "Europe/London" evening := by
  intro h
  have agrees := h (oneSession "Europe/London" Attendance.London.sunday) _ (Table.mem_singleton.mpr rfl) rfl _
    (Table.mem_singleton.mpr rfl) rfl
  have hmem := agrees.includes _ (Table.mem_singleton.mpr rfl) rfl (by decide)
  revert hmem
  rw [mem_sessionsToday]
  decide

end Vms.StaffService
