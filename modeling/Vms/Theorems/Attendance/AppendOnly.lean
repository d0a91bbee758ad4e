import Vms.Theorems.Attendance.Invariant

/-! The attendance log only grows: an accepted action adds events and sessions of the staff member whose
    badge it carries, and changes at most one session, an open one of that staff member. Events, closed
    days and the sessions of everybody else stay as they are. -/

namespace Vms.Attendance
open Relational

/-- `t` is `s` with events and sessions added for the staff member, and one of the open sessions of the
    staff member changed at most. -/
structure Appends (s t : Db) (staff : Staff) : Prop where
  events : ∀ e ∈ s.attendanceEvent, e ∈ t.attendanceEvent
  newEvents : ∀ e ∈ t.attendanceEvent, e ∈ s.attendanceEvent ∨ (e.staffId = staff.id ∧ e.orgId = staff.orgId)
  sessions : ∀ x ∈ s.attendanceSession, ∃ y ∈ t.attendanceSession, y.id = x.id
  newSessions : ∀ y ∈ t.attendanceSession,
    (∃ x ∈ s.attendanceSession, x.id = y.id) ∨ (y.staffId = staff.id ∧ y.orgId = staff.orgId)
  oneChanged : ∃ id, ∀ x ∈ s.attendanceSession, x.id ≠ id → x ∈ t.attendanceSession
  changed : ∀ x ∈ s.attendanceSession, x ∉ t.attendanceSession →
    x.status = .open ∧ x.staffId = staff.id ∧ x.orgId = staff.orgId

section Frames
variable {s t : Db} {staff : Staff} {x : AttendanceSession}

/-- A closed day is frozen. -/
theorem Appends.closed (h : Appends s t staff) (hx : x ∈ s.attendanceSession) (hclosed : x.status = .closed) :
    x ∈ t.attendanceSession := by
  by_contra hnot
  have hopen := (h.changed x hx hnot).1
  rw [hclosed] at hopen
  cases hopen

theorem Appends.otherStaff (h : Appends s t staff) (hx : x ∈ s.attendanceSession) (hother : x.staffId ≠ staff.id) :
    x ∈ t.attendanceSession := by
  by_contra hnot
  exact hother (h.changed x hx hnot).2.1

theorem Appends.otherOrg (h : Appends s t staff) (hx : x ∈ s.attendanceSession) (hother : x.orgId ≠ staff.orgId) :
    x ∈ t.attendanceSession := by
  by_contra hnot
  exact hother (h.changed x hx hnot).2.2

end Frames

/-! ### Sessions lie in the organisation of their staff member -/

/-- Every session has the organisation of the staff member it is of. -/
def InOrg (s : Db) : Prop := ∀ x ∈ s.attendanceSession, ∀ staff ∈ s.staff, staff.id = x.staffId → x.orgId = staff.orgId

section Updates
variable {luxon : Luxon} {s t u : Db} {x x' : AttendanceSession} {e : AttendanceEvent} {staff : Staff}

theorem Closes.orgId (h : Closes s t x x' e) : x'.orgId = x.orgId := by
  obtain ⟨_, _, _, _, h⟩ := h.row
  rw [h]

theorem Opens.inOrg (inv : InOrg s) (h : Opens s t x e) (hstaff : staff ∈ s.staff) (hid : x.staffId = staff.id)
    (horg : x.orgId = staff.orgId) : InOrg t := by
  intro y hy other hother hof
  rw [h.rest] at hother
  rcases h.mem_session.mp hy with hy | rfl
  · exact inv y hy other hother hof
  · obtain rfl : other = staff := Table.eq_of_id hother hstaff (hof.trans hid)
    exact horg

theorem Marks.inOrg (inv : InOrg s) (h : Marks s t e) : InOrg t := by
  intro y hy other hother hof
  rw [h.sessions] at hy
  rw [h.rest] at hother
  exact inv y hy other hother hof

theorem Closes.inOrg (inv : InOrg s) (h : Closes s t x x' e) (hx : x ∈ s.attendanceSession) : InOrg t := by
  intro y hy other hother hof
  rw [h.rest] at hother
  rcases (h.sessions y).mp hy with rfl | ⟨hy, -⟩
  · rw [h.orgId]
    exact inv x hx other hother (hof.trans h.same.2.1)
  · exact inv y hy other hother hof

theorem Acted.inOrg {q : Request} (inv : InOrg s) (badge : q.Badge s staff) (h : Acted luxon s q staff t) : InOrg t := by
  cases h with
  | punchIn zone time action may opens => exact opens.inOrg inv badge.mem.1 rfl rfl
  | breakStart x time action may marks => exact marks.inOrg inv
  | breakEnd x time action may marks => exact marks.inOrg inv
  | punchOut x x' time action may closes => exact closes.inOrg inv may.names.mem
  | late x x' zone approxOut punchIn u action may closes opens =>
    have hstaff : staff ∈ u.staff := by
      rw [closes.rest]
      exact badge.mem.1
    exact opens.inOrg (closes.inOrg inv may.names.mem) hstaff rfl rfl

theorem reachable_inOrg (h : (attendance luxon).Reachable s) : InOrg s := by
  refine attendance_invariant h (fun s hsessions _ x hx => ?_) fun s q staff t _ inv _ badge acted => acted.inOrg inv badge
  rw [hsessions] at hx
  cases hx

/-! ### What the elementary updates append -/

theorem Opens.appends (h : Opens s t x e) (hx : x.staffId = staff.id ∧ x.orgId = staff.orgId)
    (he : e.staffId = staff.id ∧ e.orgId = staff.orgId) : Appends s t staff where
  events a ha := (Table.mem_insert h.event).mpr (Or.inl ha)
  newEvents a ha := by
    rcases (Table.mem_insert h.event).mp ha with ha | rfl
    · exact Or.inl ha
    · exact Or.inr he
  sessions y hy := ⟨y, h.mem_session.mpr (Or.inl hy), rfl⟩
  newSessions y hy := by
    rcases h.mem_session.mp hy with hy | rfl
    · exact Or.inl ⟨y, hy, rfl⟩
    · exact Or.inr hx
  oneChanged := ⟨x.id, fun y hy _ => h.mem_session.mpr (Or.inl hy)⟩
  changed y hy hnot := absurd (h.mem_session.mpr (Or.inl hy)) hnot

theorem Marks.appends (h : Marks s t e) (he : e.staffId = staff.id ∧ e.orgId = staff.orgId) : Appends s t staff where
  events a ha := (Table.mem_insert h.event).mpr (Or.inl ha)
  newEvents a ha := by
    rcases (Table.mem_insert h.event).mp ha with ha | rfl
    · exact Or.inl ha
    · exact Or.inr he
  sessions y hy := ⟨y, h.sessions ▸ hy, rfl⟩
  newSessions y hy := Or.inl ⟨y, h.sessions ▸ hy, rfl⟩
  oneChanged := ⟨"", fun y hy _ => h.sessions ▸ hy⟩
  changed y hy hnot := absurd (h.sessions ▸ hy) hnot

theorem Closes.appends (h : Closes s t x x' e) (hx : x ∈ s.attendanceSession) (hopen : x.status = .open)
    (hstaff : x.staffId = staff.id ∧ x.orgId = staff.orgId) (he : e.staffId = staff.id ∧ e.orgId = staff.orgId) :
    Appends s t staff where
  events a ha := (Table.mem_insert h.event).mpr (Or.inl ha)
  newEvents a ha := by
    rcases (Table.mem_insert h.event).mp ha with ha | rfl
    · exact Or.inl ha
    · exact Or.inr he
  sessions y hy := by
    obtain ⟨y', hy', hid, -⟩ := h.kept hx hy
    exact ⟨y', hy', hid⟩
  newSessions y hy := by
    obtain ⟨y₀, hy₀, hid, -⟩ := h.origin hx hy
    exact Or.inl ⟨y₀, hy₀, hid⟩
  oneChanged := ⟨x.id, fun y hy hne => (h.sessions y).mpr (Or.inr ⟨hy, hne⟩)⟩
  changed y hy hnot := by
    -- only the closed session can be gone
    have hid : y.id = x.id := by
      by_contra hne
      exact hnot ((h.sessions y).mpr (Or.inr ⟨hy, hne⟩))
    obtain rfl : y = x := Table.eq_of_id hy hx hid
    exact ⟨hopen, hstaff⟩

/-- After a closing, a new session of the same staff member: still one session changed. -/
theorem Appends.opens (h : Appends s u staff) (h' : Opens u t x e) (hx : x.staffId = staff.id ∧ x.orgId = staff.orgId)
    (he : e.staffId = staff.id ∧ e.orgId = staff.orgId) : Appends s t staff where
  events a ha := (h'.appends hx he).events a (h.events a ha)
  newEvents a ha := by
    rcases (h'.appends hx he).newEvents a ha with ha | ha
    · exact h.newEvents a ha
    · exact Or.inr ha
  sessions y hy := by
    obtain ⟨z, hz, hid⟩ := h.sessions y hy
    exact ⟨z, h'.mem_session.mpr (Or.inl hz), hid⟩
  newSessions y hy := by
    rcases h'.mem_session.mp hy with hy | rfl
    · exact h.newSessions y hy
    · exact Or.inr hx
  oneChanged := by
    obtain ⟨id, hothers⟩ := h.oneChanged
    exact ⟨id, fun y hy hne => h'.mem_session.mpr (Or.inl (hothers y hy hne))⟩
  changed y hy hnot := h.changed y hy fun hu => hnot (h'.mem_session.mpr (Or.inl hu))

theorem Names.appends {sessionId : Option String} (inv : InOrg s) (hstaff : staff ∈ s.staff)
    (h : Names s staff.id sessionId x) : x.staffId = staff.id ∧ x.orgId = staff.orgId :=
  ⟨h.owner, inv x h.mem staff hstaff h.owner.symm⟩

theorem Acted.appends {q : Request} (inv : InOrg s) (badge : q.Badge s staff) (h : Acted luxon s q staff t) :
    Appends s t staff := by
  have hstaff := badge.mem.1
  cases h with
  | punchIn zone time action may opens => exact opens.appends ⟨rfl, rfl⟩ ⟨rfl, rfl⟩
  | breakStart x time action may marks => exact marks.appends ⟨rfl, rfl⟩
  | breakEnd x time action may marks => exact marks.appends ⟨rfl, rfl⟩
  | punchOut x x' time action may closes =>
    exact closes.appends may.names.mem may.names.isOpen (may.names.appends inv hstaff) ⟨rfl, rfl⟩
  | late x x' zone approxOut punchIn u action may closes opens =>
    have closed : Appends s u staff :=
      closes.appends may.names.mem may.names.isOpen (may.names.appends inv hstaff) ⟨rfl, rfl⟩
    exact closed.opens opens ⟨rfl, rfl⟩ ⟨rfl, rfl⟩

end Updates

/-! ### The law -/

/-- A call that throws leaves all sessions and events; one that replies only appends, for the owner of
    the code, who belongs to the organisation. -/
theorem log_append_only (luxon : Luxon) (s t : Db) (q : Request) (r : Except HttpException ActionReply)
    (h : (attendance luxon).Reachable s) (hexec : Prog.Exec (q.call luxon) s r t) :
    (∀ e, r = .error e → t.attendanceSession = s.attendanceSession ∧ t.attendanceEvent = s.attendanceEvent) ∧
      ∀ reply, r = .ok reply → ∃ staff ∈ s.staff,
        staff.employeeCode = some q.dto.employeeCode ∧ staff.orgId = q.orgId ∧ Appends s t staff := by
  have hpost := action_spec.of_exec hexec
  cases r with
  | error e =>
    obtain rfl : t = s := hpost
    exact ⟨fun _ _ => ⟨rfl, rfl⟩, nofun⟩
  | ok reply =>
    obtain ⟨staff, badge, acted⟩ := hpost
    exact ⟨nofun, fun _ _ => ⟨staff, badge.mem.1, badge.mem.2, badge.org, acted.appends (reachable_inOrg h) badge⟩⟩

namespace Office

/-- Ann leaves in the evening. -/
def leave : Request := request "2" .punchOut (17 * hour) (some "s1")

theorem log_append_only_leave : ∃ staff ∈ (runAll utc db [request "1" .punchIn (9 * hour)]).staff,
    staff.employeeCode = some "ANN1" ∧ staff.orgId = "org" ∧
      Appends (runAll utc db [request "1" .punchIn (9 * hour)])
        ((leave.call utc).run (runAll utc db [request "1" .punchIn (9 * hour)])).2 staff := by
  have hreply : ((leave.call utc).run (runAll utc db [request "1" .punchIn (9 * hour)])).1 = .ok (.punchOut (17 * hour)) := by
    decide
  exact (log_append_only utc _ _ leave _ (reachable [request "1" .punchIn (9 * hour)]) (Prog.exec_run _ _)).2 _ hreply

end Office

end Vms.Attendance
