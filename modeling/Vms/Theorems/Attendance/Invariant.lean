import Vms.Theorems.Attendance.Step

/-! What holds in every state that attendance actions reach: each session belongs to a staff member of an
    organisation with a time zone, each event to a session, each session has the event of its punch-in,
    and no punch-out is recorded for an open session. -/

namespace Vms.Attendance
open Relational

/-! ### What the elementary updates keep -/

theorem mem_eventsOf {s : Db} {id : String} {e : AttendanceEvent} :
    e ∈ eventsOf s id ↔ e ∈ s.attendanceEvent ∧ e.sessionId = some id := by
  rw [eventsOf, Table.mem_filter, beq_iff_eq]

section Updates
variable {s t : Db} {x x' y : AttendanceSession} {e a : AttendanceEvent} {id : String}

/-- A new event counts for the session it names. -/
theorem mem_eventsOf_insert (h : s.attendanceEvent.insert e = some t.attendanceEvent) :
    a ∈ eventsOf t id ↔ a ∈ eventsOf s id ∨ (a = e ∧ e.sessionId = some id) := by
  rw [mem_eventsOf, mem_eventsOf, Table.mem_insert h, or_and_right]
  exact or_congr_right (and_congr_right fun ha => by rw [ha])

theorem Opens.mem_session (h : Opens s t x e) : y ∈ t.attendanceSession ↔ y ∈ s.attendanceSession ∨ y = x :=
  Table.mem_insert h.session

/-- The key of the new session was free. -/
theorem Opens.id_ne (h : Opens s t x e) (hy : y ∈ s.attendanceSession) : y.id ≠ x.id :=
  Table.id_ne_of_insert h.session hy

theorem Marks.sessions (h : Marks s t e) : t.attendanceSession = s.attendanceSession := by rw [h.rest]

/-- A closed session keeps its key, its staff member, its day and its punch-in. -/
theorem Closes.same (h : Closes s t x x' e) : x'.id = x.id ∧ x'.staffId = x.staffId ∧ x'.date = x.date ∧
    x'.firstPunchInAt = x.firstPunchInAt ∧ x'.status = .closed ∧ x'.lastPunchOutAt = some e.timestamp := by
  obtain ⟨_, _, _, _, h⟩ := h.row
  rw [h]
  exact ⟨rfl, rfl, rfl, rfl, rfl, rfl⟩

/-- Every session of `s` is still there, under its key, for the same staff member and day. -/
theorem Closes.kept (h : Closes s t x x' e) (hx : x ∈ s.attendanceSession) (hy : y ∈ s.attendanceSession) :
    ∃ y' ∈ t.attendanceSession, y'.id = y.id ∧ y'.staffId = y.staffId ∧ y'.date = y.date := by
  by_cases hid : y.id = x.id
  · obtain rfl : y = x := Table.eq_of_id hy hx hid
    exact ⟨x', (h.sessions x').mpr (Or.inl rfl), h.same.1, h.same.2.1, h.same.2.2.1⟩
  · exact ⟨y, (h.sessions y).mpr (Or.inr ⟨hy, hid⟩), rfl, rfl, rfl⟩

/-- Every session of `t` was there before, under its key, for the same staff member and day. -/
theorem Closes.origin (h : Closes s t x x' e) (hx : x ∈ s.attendanceSession) (hy : y ∈ t.attendanceSession) :
    ∃ y₀ ∈ s.attendanceSession, y₀.id = y.id ∧ y₀.staffId = y.staffId ∧ y₀.date = y.date ∧
      y₀.firstPunchInAt = y.firstPunchInAt ∧ (y.status = .open → y₀ = y) := by
  rcases (h.sessions y).mp hy with rfl | ⟨hy, -⟩
  · obtain ⟨hid, hstaff, hdate, hfirst, hclosed, -⟩ := h.same
    exact ⟨x, hx, hid.symm, hstaff.symm, hdate.symm, hfirst.symm, fun hopen => by rw [hclosed] at hopen; cases hopen⟩
  · exact ⟨y, hy, rfl, rfl, rfl, rfl, fun _ => rfl⟩

end Updates

/-! ### The invariant -/

structure Inv (luxon : Luxon) (s : Db) : Prop where
  located : ∀ x ∈ s.attendanceSession, ∃ staff ∈ s.staff, staff.id = x.staffId ∧ (orgZone luxon s staff.orgId).isSome
  stored : ∀ e ∈ s.attendanceEvent, ∃ x ∈ s.attendanceSession, e.sessionId = some x.id
  started : ∀ x ∈ s.attendanceSession, ∃ first, x.firstPunchInAt = some first ∧ ∃ e ∈ eventsOf s x.id, e.timestamp = first
  running : ∀ x ∈ s.attendanceSession, x.status = .open →
    ∀ e ∈ eventsOf s x.id, e.eventType ≠ .punchOut ∧ e.eventType ≠ .latePunchOut

section Keeps
variable {luxon : Luxon} {s t : Db} {x x' : AttendanceSession} {e : AttendanceEvent}

/-- No event refers to a session that is not there. -/
theorem Inv.eventsOf_fresh (inv : Inv luxon s) {id : String} (fresh : ∀ y ∈ s.attendanceSession, y.id ≠ id)
    {a : AttendanceEvent} : a ∉ eventsOf s id := fun ha => by
  obtain ⟨ha, hid⟩ := mem_eventsOf.mp ha
  obtain ⟨y, hy, hya⟩ := inv.stored a ha
  exact fresh y hy (Option.some.inj (hya.symm.trans hid))

theorem Opens.inv (inv : Inv luxon s) (h : Opens s t x e)
    (located : ∃ staff ∈ s.staff, staff.id = x.staffId ∧ (orgZone luxon s staff.orgId).isSome)
    (hfirst : x.firstPunchInAt = some e.timestamp) (hsession : e.sessionId = some x.id)
    (htype : e.eventType = .punchIn) : Inv luxon t where
  located y hy := by
    rw [h.rest]
    rcases h.mem_session.mp hy with hy | rfl
    · exact inv.located y hy
    · exact located
  stored a ha := by
    rcases (Table.mem_insert h.event).mp ha with ha | rfl
    · obtain ⟨y, hy, hid⟩ := inv.stored a ha
      exact ⟨y, h.mem_session.mpr (Or.inl hy), hid⟩
    · exact ⟨x, h.mem_session.mpr (Or.inr rfl), hsession⟩
  started y hy := by
    rcases h.mem_session.mp hy with hy | rfl
    · obtain ⟨first, hy', a, ha, htime⟩ := inv.started y hy
      exact ⟨first, hy', a, (mem_eventsOf_insert h.event).mpr (Or.inl ha), htime⟩
    · exact ⟨_, hfirst, e, (mem_eventsOf_insert h.event).mpr (Or.inr ⟨rfl, hsession⟩), rfl⟩
  running y hy hopen a ha := by
    rcases (mem_eventsOf_insert h.event).mp ha with ha | ⟨rfl, -⟩
    · rcases h.mem_session.mp hy with hy | rfl
      · exact inv.running y hy hopen a ha
      · exact absurd ha (inv.eventsOf_fresh fun z hz => h.id_ne hz)
    · rw [htype]
      exact ⟨nofun, nofun⟩

theorem Marks.inv (inv : Inv luxon s) (h : Marks s t e) (hx : x ∈ s.attendanceSession) (hsession : e.sessionId = some x.id)
    (htype : e.eventType ≠ .punchOut ∧ e.eventType ≠ .latePunchOut) : Inv luxon t where
  located y hy := by
    rw [h.sessions] at hy
    rw [h.rest]
    exact inv.located y hy
  stored a ha := by
    rw [h.sessions]
    rcases (Table.mem_insert h.event).mp ha with ha | rfl
    · exact inv.stored a ha
    · exact ⟨x, hx, hsession⟩
  started y hy := by
    rw [h.sessions] at hy
    obtain ⟨first, hy', a, ha, htime⟩ := inv.started y hy
    exact ⟨first, hy', a, (mem_eventsOf_insert h.event).mpr (Or.inl ha), htime⟩
  running y hy hopen a ha := by
    rw [h.sessions] at hy
    rcases (mem_eventsOf_insert h.event).mp ha with ha | ⟨rfl, -⟩
    · exact inv.running y hy hopen a ha
    · exact htype

theorem Closes.inv (inv : Inv luxon s) (h : Closes s t x x' e) (hx : x ∈ s.attendanceSession)
    (hsession : e.sessionId = some x.id) : Inv luxon t where
  located y hy := by
    obtain ⟨y₀, hy₀, -, hstaff, -⟩ := h.origin hx hy
    rw [h.rest, ← hstaff]
    exact inv.located y₀ hy₀
  stored a ha := by
    rcases (Table.mem_insert h.event).mp ha with ha | rfl
    · obtain ⟨y, hy, hid⟩ := inv.stored a ha
      obtain ⟨y', hy', hid', -⟩ := h.kept hx hy
      exact ⟨y', hy', by rw [hid, hid']⟩
    · exact ⟨x', (h.sessions x').mpr (Or.inl rfl), by rw [hsession, h.same.1]⟩
  started y hy := by
    obtain ⟨y₀, hy₀, hid, -, -, hfirst, -⟩ := h.origin hx hy
    obtain ⟨first, hy', a, ha, htime⟩ := inv.started y₀ hy₀
    exact ⟨first, hfirst ▸ hy', a, (mem_eventsOf_insert h.event).mpr (Or.inl (hid ▸ ha)), htime⟩
  running y hy hopen a ha := by
    -- an open session of `t` is not the closed one, so the new event is not its event
    rcases (h.sessions y).mp hy with rfl | ⟨hy, hid⟩
    · rw [h.same.2.2.2.2.1] at hopen
      cases hopen
    · rcases (mem_eventsOf_insert h.event).mp ha with ha | ⟨-, hid'⟩
      · exact inv.running y hy hopen a ha
      · exact absurd (Option.some.inj (hid'.symm.trans hsession)) hid

theorem Badge.mem {orgId systemId role code : String} {staff : Staff} (h : Badge s orgId systemId role code staff) :
    staff ∈ s.staff ∧ staff.employeeCode = some code := by
  obtain ⟨hmem, hcode⟩ := Table.mem_of_findBy h.found
  exact ⟨hmem, by simpa using hcode⟩

/-- An accepted action keeps the invariant. -/
theorem Acted.inv {q : Request} {staff : Staff} (inv : Inv luxon s) (badge : q.Badge s staff)
    (h : Acted luxon s q staff t) : Inv luxon t := by
  have opened : ∀ zone, orgZone luxon s staff.orgId = some zone →
      ∃ staff' ∈ s.staff, staff'.id = staff.id ∧ (orgZone luxon s staff'.orgId).isSome := fun zone hzone =>
    ⟨staff, badge.mem.1, rfl, by rw [hzone]; rfl⟩
  cases h with
  | punchIn zone time action may opens => exact opens.inv inv (opened zone may.inZone) rfl rfl rfl
  | breakStart x time action may marks => exact marks.inv inv may.names.mem rfl ⟨nofun, nofun⟩
  | breakEnd x time action may marks => exact marks.inv inv may.names.mem rfl ⟨nofun, nofun⟩
  | punchOut x x' time action may closes => exact closes.inv inv may.names.mem rfl
  | late x x' zone approxOut punchIn u action may closes opens =>
    refine opens.inv (closes.inv inv may.names.mem rfl) ?_ rfl rfl rfl
    rw [closes.rest]
    exact opened zone may.inZone

theorem reachable_inv (h : (attendance luxon).Reachable s) : Inv luxon s := by
  refine attendance_invariant h (fun s hsessions hevents => ?_) fun s q staff t _ inv _ badge acted => acted.inv inv badge
  refine ⟨?_, ?_, ?_, ?_⟩ <;> simp [hsessions, hevents]

end Keeps

end Vms.Attendance
