import Vms.Lib.ReadCommitted
import Vms.Theorems.Attendance.Invariant

/-! Double taps. The transactions of a punch-in and of a punch-out check first and write later, under READ
    COMMITTED and without a unique constraint: two of them that have both made their checks both commit.
    They are harmless as long as none makes its check between the check and the commit of another one. -/

namespace Vms.Attendance
open Relational HttpException

/-! ### The transactions -/

/-- The transaction of `handlePunchIn`. -/
def punchInTransaction (luxon : Luxon) (io : Io) (staffId orgId tz : String) (time : Date) : Service ActionReply := do
  let today ← Prog.orFail invalidArgument (startOfOrgDay luxon time tz)
  let openOldSession ← query fun s => io.sessions.first (s.attendanceSession.filter fun x =>
    x.staffId == staffId && x.status == .open && decide (x.date < today))
  Prog.failIf openOldSession.isSome (.badRequest "Previous day session is still open. Use late punch flow.")
  let openToday ← query fun s => io.sessions.first (s.attendanceSession.filter fun x =>
    x.staffId == staffId && x.status == .open && x.date == today)
  Prog.failIf openToday.isSome (.badRequest "Already punched in today.")
  let session ← createSession (newSession io.sessionId orgId staffId today time)
  let _ ← createEvent (newEvent io.eventId orgId staffId session.id .punchIn time)
  return .punchIn session.id time

/-- The update with which a punch-out closes a session. -/
def punchedOut (time : Date) (totals : Int × Int) (x : AttendanceSession) : AttendanceSession :=
  { x with
    status := .closed
    closureType := some .normal
    lastPunchOutAt := some time
    totalWorkSeconds := totals.1
    totalBreakSeconds := totals.2 }

theorem punchedOut_keys (time : Date) (totals : Int × Int) : Row.Fixes (punchedOut time totals) :=
  ⟨fun _ => rfl, fun _ _ => rfl⟩

/-- The transaction of `handlePunchOut`. -/
def punchOutTransaction (io : Io) (staffId orgId sessionId : String) (time : Date) : Service ActionReply := do
  let session ← openSession staffId sessionId "Session not found." "Session is not open."
  let events ← query fun s => io.events.asc (·.timestamp) (eventsOf s session.id)
  let punchOutEvent ← createEvent (newEvent io.eventId orgId staffId session.id .punchOut time)
  let totals := recalcTotals ((events ++ [punchOutEvent]).map (·.mark))
  closeSession session.id totals (punchedOut time totals) (punchedOut_keys time totals)
  return .punchOut time

theorem handlePunchIn_eq (luxon : Luxon) (io : Io) (staffId orgId : String) (dto : AttendanceActionDto) :
    handlePunchIn luxon io staffId orgId dto = (do
      let time ← actionTime io dto
      let org ← query (·.organization.find orgId)
      let tz ← Prog.orFail (.badRequest "Organization timezone not configured") (truthy (org.bind (·.timezone)))
      transaction (punchInTransaction luxon io staffId orgId tz time)) := rfl

theorem handlePunchOut_eq (io : Io) (staffId orgId : String) (dto : AttendanceActionDto) :
    handlePunchOut io staffId orgId dto = (do
      let sessionId ← Prog.orFail (.badRequest "sessionId is required for PUNCH_OUT") (truthy dto.sessionId)
      let time ← actionTime io dto
      transaction (punchOutTransaction io staffId orgId sessionId time)) := rfl

/-- A tap on the kiosk, whose request has come to its transaction. -/
inductive Tap where
  | punchIn (io : Io) (staffId orgId tz : String) (time : Date)
  | punchOut (io : Io) (staffId orgId sessionId : String) (time : Date)

def Tap.transaction (luxon : Luxon) : Tap → Service ActionReply
  | .punchIn io staffId orgId tz time => punchInTransaction luxon io staffId orgId tz time
  | .punchOut io staffId orgId sessionId time => punchOutTransaction io staffId orgId sessionId time

/-- The statement that makes the check: a punch-in looks for an old session before it looks for today's. -/
def Tap.check : Tap → Nat
  | .punchIn .. => 1
  | .punchOut .. => 0

/-- Two punch-ins of one staff member on one day, or two punch-outs of one session. -/
def Rivals (luxon : Luxon) : Tap → Tap → Prop
  | .punchIn _ staffId _ tz time, .punchIn _ staffId' _ tz' time' =>
    staffId = staffId' ∧ startOfOrgDay luxon time tz = startOfOrgDay luxon time' tz'
  | .punchOut _ _ _ sessionId _, .punchOut _ _ _ sessionId' _ => sessionId = sessionId'
  | _, _ => False

/-! ### What must not happen -/

/-- No staff member has two open sessions on one day. -/
def OneOpenADay (s : Db) : Prop := ∀ x ∈ s.attendanceSession, ∀ y ∈ s.attendanceSession,
  x.staffId = y.staffId → x.date = y.date → x.status = .open → y.status = .open → x = y

/-- No session has two punch-outs. -/
def OnePunchOut (s : Db) : Prop := ∀ e ∈ s.attendanceEvent, ∀ a ∈ s.attendanceEvent,
  e.sessionId = a.sessionId → e.eventType = .punchOut → a.eventType = .punchOut → e = a

/-- Events belong to sessions, an open session has no punch-out, and no session has two. -/
structure Sound (s : Db) : Prop where
  stored : ∀ e ∈ s.attendanceEvent, ∃ x ∈ s.attendanceSession, e.sessionId = some x.id
  running : ∀ x ∈ s.attendanceSession, x.status = .open → ∀ e ∈ s.attendanceEvent, e.sessionId = some x.id →
    e.eventType ≠ .punchOut
  onePunchOut : OnePunchOut s

/-- What the writes of a punch-in may do: they add the session and its event, if the keys are free. -/
structure TapsIn (s t : Db) (x : AttendanceSession) (e : AttendanceEvent) : Prop where
  kept : ∀ y ∈ s.attendanceSession, y ∈ t.attendanceSession
  sessions : ∀ y ∈ t.attendanceSession, y ∈ s.attendanceSession ∨ (y = x ∧ ∀ z ∈ s.attendanceSession, z.id ≠ x.id)
  events : ∀ a ∈ t.attendanceEvent, a ∈ s.attendanceEvent ∨ (a = e ∧ ∃ y ∈ t.attendanceSession, e.sessionId = some y.id)

/-- What the writes of a punch-out may do: they close the session and add an event of it. -/
structure TapsOut (s t : Db) (id : String) (e : AttendanceEvent) : Prop where
  kept : ∀ y ∈ s.attendanceSession, ∃ y' ∈ t.attendanceSession, y'.id = y.id ∧ (y.id ≠ id → y' = y)
  sessions : ∀ y ∈ t.attendanceSession, (y.id = id ∧ y.status = .closed) ∨ (y ∈ s.attendanceSession ∧ y.id ≠ id)
  events : ∀ a ∈ t.attendanceEvent, a ∈ s.attendanceEvent ∨ (a = e ∧ e.sessionId = some id)

section Keeps
variable {s t : Db} {x y : AttendanceSession} {e : AttendanceEvent} {id : String}

theorem TapsIn.sound (sound : Sound s) (h : TapsIn s t x e) (htype : e.eventType ≠ .punchOut) : Sound t where
  stored a ha := by
    rcases h.events a ha with ha | ⟨rfl, hstored⟩
    · obtain ⟨y, hy, hid⟩ := sound.stored a ha
      exact ⟨y, h.kept y hy, hid⟩
    · exact hstored
  running y hy hopen a ha hid := by
    rcases h.events a ha with ha | ⟨rfl, -⟩
    · rcases h.sessions y hy with hy | ⟨rfl, fresh⟩
      · exact sound.running y hy hopen a ha hid
      · obtain ⟨z, hz, hza⟩ := sound.stored a ha
        exact absurd (Option.some.inj (hza.symm.trans hid)) (fresh z hz)
    · exact htype
  onePunchOut a ha b hb hid hatype hbtype := by
    rcases h.events a ha with ha | ⟨rfl, -⟩
    · rcases h.events b hb with hb | ⟨rfl, -⟩
      · exact sound.onePunchOut a ha b hb hid hatype hbtype
      · exact absurd hbtype htype
    · exact absurd hatype htype

theorem TapsIn.oneOpenADay (one : OneOpenADay s) (h : TapsIn s t x e)
    (none : ∀ y ∈ s.attendanceSession, y.staffId = x.staffId → y.date = x.date → y.status ≠ .open) : OneOpenADay t := by
  intro y hy z hz hstaff hdate hyopen hzopen
  rcases h.sessions y hy with hy | ⟨rfl, -⟩ <;> rcases h.sessions z hz with hz | ⟨rfl, -⟩
  · exact one y hy z hz hstaff hdate hyopen hzopen
  · exact absurd hyopen (none y hy hstaff hdate)
  · exact absurd hzopen (none z hz hstaff.symm hdate.symm)
  · rfl

/-- The sessions that are open after a punch-out were open before. -/
theorem TapsOut.open_origin (h : TapsOut s t id e) (hy : y ∈ t.attendanceSession) (hopen : y.status = .open) :
    y ∈ s.attendanceSession ∧ y.id ≠ id := by
  rcases h.sessions y hy with ⟨-, hclosed⟩ | hy
  · rw [hclosed] at hopen
    cases hopen
  · exact hy

theorem TapsOut.sound (sound : Sound s) (h : TapsOut s t id e) (hx : x ∈ s.attendanceSession) (hid : x.id = id)
    (hopen : x.status = .open) : Sound t where
  stored a ha := by
    rcases h.events a ha with ha | ⟨rfl, hsession⟩
    · obtain ⟨y, hy, hya⟩ := sound.stored a ha
      obtain ⟨y', hy', hid', -⟩ := h.kept y hy
      exact ⟨y', hy', by rw [hid']; exact hya⟩
    · obtain ⟨x', hx', hid', -⟩ := h.kept x hx
      exact ⟨x', hx', by rw [hid', hid]; exact hsession⟩
  running y hy hyopen a ha hya := by
    obtain ⟨hmem, hne⟩ := h.open_origin hy hyopen
    rcases h.events a ha with ha | ⟨rfl, hsession⟩
    · exact sound.running y hmem hyopen a ha hya
    · exact absurd (Option.some.inj (hya.symm.trans hsession)) hne
  onePunchOut a ha b hb hab hatype hbtype := by
    -- the session was open, so its punch-out is the first one
    have first : ∀ c ∈ s.attendanceEvent, c.sessionId = some id → c.eventType ≠ .punchOut := fun c hc hsession =>
      sound.running x hx hopen c hc (hid ▸ hsession)
    rcases h.events a ha with ha | ⟨rfl, ha'⟩ <;> rcases h.events b hb with hb | ⟨rfl, hb'⟩
    · exact sound.onePunchOut a ha b hb hab hatype hbtype
    · exact absurd hatype (first a ha (hab.trans hb'))
    · exact absurd hbtype (first b hb (hab.symm.trans ha'))
    · rfl

theorem TapsOut.oneOpenADay (one : OneOpenADay s) (h : TapsOut s t id e) : OneOpenADay t := by
  intro y hy z hz hstaff hdate hyopen hzopen
  exact one y (h.open_origin hy hyopen).1 z (h.open_origin hz hzopen).1 hstaff hdate hyopen hzopen

end Keeps

/-! ### One tap after another -/

section Sequential
variable {luxon : Luxon} {s t : Db} {x x' : AttendanceSession} {e : AttendanceEvent} {q : Request} {staff : Staff}

theorem Opens.tapsIn (h : Opens s t x e) (hsession : e.sessionId = some x.id) : TapsIn s t x e where
  kept _ hy := h.mem_session.mpr (Or.inl hy)
  sessions _ hy := (h.mem_session.mp hy).imp_right fun hyx => ⟨hyx, fun _ hz => h.id_ne hz⟩
  events _ ha := ((Table.mem_insert h.event).mp ha).imp_right fun hae =>
    ⟨hae, x, h.mem_session.mpr (Or.inr rfl), hsession⟩

theorem Closes.tapsOut (h : Closes s t x x' e) (hsession : e.sessionId = some x.id) :
    TapsOut s t x.id e where
  kept y hy := by
    by_cases hid : y.id = x.id
    · exact ⟨x', (h.sessions x').mpr (Or.inl rfl), h.same.1.trans hid.symm, fun hne => absurd hid hne⟩
    · exact ⟨y, (h.sessions y).mpr (Or.inr ⟨hy, hid⟩), rfl, fun _ => rfl⟩
  sessions y hy := by
    rcases (h.sessions y).mp hy with rfl | hy
    · exact Or.inl ⟨h.same.1, h.same.2.2.2.2.1⟩
    · exact Or.inr hy
  events _ ha := ((Table.mem_insert h.event).mp ha).imp_right fun hae => ⟨hae, hsession⟩

theorem Marks.sound (sound : Sound s) (h : Marks s t e) (hx : x ∈ s.attendanceSession) (hsession : e.sessionId = some x.id)
    (htype : e.eventType ≠ .punchOut) : Sound t := by
  have tapsIn : TapsIn s t x e := by
    refine ⟨fun y hy => h.sessions ▸ hy, fun y hy => Or.inl (h.sessions ▸ hy), fun a ha => ?_⟩
    exact ((Table.mem_insert h.event).mp ha).imp_right fun hae => ⟨hae, x, h.sessions ▸ hx, hsession⟩
  exact tapsIn.sound sound htype

theorem Acted.sound (sound : Sound s) (h : Acted luxon s q staff t) : Sound t := by
  cases h with
  | punchIn zone time action may opens => exact (opens.tapsIn rfl).sound sound nofun
  | breakStart x time action may marks => exact marks.sound sound may.names.mem rfl nofun
  | breakEnd x time action may marks => exact marks.sound sound may.names.mem rfl nofun
  | punchOut x x' time action may closes =>
    exact (closes.tapsOut rfl).sound sound may.names.mem rfl may.names.isOpen
  | late x x' zone approxOut punchIn u action may closes opens =>
    have closed := (closes.tapsOut rfl).sound sound may.names.mem rfl may.names.isOpen
    exact (opens.tapsIn rfl).sound closed nofun

theorem reachable_sound (h : (attendance luxon).Reachable s) : Sound s := by
  refine attendance_invariant h (fun s hsessions hevents => ⟨?_, ?_, ?_⟩) fun s q staff t _ sound _ _ acted => acted.sound sound
  · simp [hevents]
  · simp [hsessions]
  · intro e he
    rw [hevents] at he
    cases he

end Sequential

/-! ### The writes of the transactions -/

/-- What a statement writes. -/
def effect {α : Type} (op : Db → Except HttpException (α × Db)) (s : Db) : Db :=
  match op s with
  | .ok (_, t) => t
  | .error _ => s

theorem effect_cases {α : Type} (op : Db → Except HttpException (α × Db)) (s : Db) :
    effect op s = s ∨ ∃ a t, op s = .ok (a, t) ∧ effect op s = t := by
  unfold effect
  rcases op s with e | ⟨a, t⟩
  · exact Or.inl rfl
  · exact Or.inr ⟨a, t, rfl, rfl⟩

theorem writes_mutate {α β : Type} {op : Db → Except HttpException (α × Db)} {h : α → Service β} {W : (Db → Db) → Prop}
    {w : Db → Db} (hh : ∀ s a t, op s = .ok (a, t) → (h a).Writes W (effect op ∘ w)) : (mutate op >>= h).Writes W w := by
  refine Prog.writes_access (g := effect op) (fun s => ?_) fun s a hop => ?_
  · unfold effect
    rcases op s with e | ⟨a, t⟩ <;> rfl
  · rcases hs : op s with e | ⟨b, t⟩ <;> simp only [hs] at hop <;> cases hop
    exact hh s a t hs

/-- A statement that creates the session, if its key is free when the transaction commits. -/
def CreatesSession (x : AttendanceSession) (add : Db → Db) : Prop := ∀ s, add s = s ∨
  ∃ u, s.attendanceSession.insert x = some u ∧ add s = { s with attendanceSession := u }

/-- A statement that creates the event, if its session exists. -/
def CreatesEvent (e : AttendanceEvent) (add : Db → Db) : Prop := ∀ s, add s = s ∨
  ∃ u, (∀ id, e.sessionId = some id → (s.attendanceSession.find id).isSome) ∧
    s.attendanceEvent.insert e = some u ∧ add s = { s with attendanceEvent := u }

/-- A statement that closes the session, if it exists. -/
def Shuts (id : String) (shut : Db → Db) : Prop := ∃ (close : AttendanceSession → AttendanceSession) (keys : Row.Fixes close),
  (∀ y, (close y).status = .closed) ∧ ∀ s, (s.attendanceSession.find id).isSome →
    shut s = { s with attendanceSession := s.attendanceSession.update (·.id == id) close keys }

section Statements
variable {β : Type} {s : Db} {x : AttendanceSession} {e : AttendanceEvent} {W : (Db → Db) → Prop} {w add add' shut : Db → Db}
  {id : String}

theorem writes_createSession {h : AttendanceSession → Service β}
    (hh : ∀ add, CreatesSession x add → (h x).Writes W (add ∘ w)) : (createSession x >>= h).Writes W w := by
  refine writes_mutate fun s a t hop => ?_
  obtain ⟨-, rfl, -⟩ := created_eq_ok.mp hop
  refine hh _ fun s => ?_
  rcases effect_cases _ s with hsame | ⟨b, t, hcreated, heffect⟩
  · exact Or.inl hsame
  · obtain ⟨-, -, u, hu, rfl⟩ := created_eq_ok.mp hcreated
    exact Or.inr ⟨u, hu, heffect⟩

theorem writes_createEvent {h : AttendanceEvent → Service β} (hh : ∀ add, CreatesEvent e add → (h e).Writes W (add ∘ w)) :
    (createEvent e >>= h).Writes W w := by
  refine writes_mutate fun s a t hop => ?_
  obtain ⟨-, rfl, -⟩ := created_eq_ok.mp hop
  refine hh _ fun s => ?_
  rcases effect_cases _ s with hsame | ⟨b, t, hcreated, heffect⟩
  · exact Or.inl hsame
  · obtain ⟨hreferences, -, u, hu, rfl⟩ := created_eq_ok.mp hcreated
    refine Or.inr ⟨u, fun id hid => ?_, hu, heffect⟩
    simp only [Bool.and_eq_true, hid, Option.all_some] at hreferences
    exact hreferences.2

theorem writes_closeSession {totals : Int × Int} {close : AttendanceSession → AttendanceSession} {keys : Row.Fixes close}
    {h : Unit → Service β} (hclose : ∀ y, (close y).status = .closed)
    (hh : ∀ shut, Shuts id shut → (h ()).Writes W (shut ∘ w)) : (closeSession id totals close keys >>= h).Writes W w := by
  refine writes_mutate fun s a t hop => ?_
  -- the totals fit, since the statement has passed once
  have hfits : (fitsInt totals.1 && fitsInt totals.2) = true := by
    by_contra hfits
    rw [Bool.not_eq_true] at hfits
    simp [hfits] at hop
  refine hh _ ⟨close, keys, hclose, fun s hfound => ?_⟩
  simp [effect, hfits, Option.isSome_iff_ne_none.mp hfound]

theorem CreatesEvent.sessions (h : CreatesEvent e add) : (add s).attendanceSession = s.attendanceSession := by
  rcases h s with h | ⟨u, -, -, h⟩ <;> rw [h]

theorem CreatesEvent.mem {a : AttendanceEvent} (h : CreatesEvent e add) (ha : a ∈ (add s).attendanceEvent) :
    a ∈ s.attendanceEvent ∨ (a = e ∧ ∀ id, e.sessionId = some id → (s.attendanceSession.find id).isSome) := by
  rcases h s with h | ⟨u, hfound, hu, h⟩ <;> rw [h] at ha
  · exact Or.inl ha
  · exact ((Table.mem_insert hu).mp ha).imp_right fun hae => ⟨hae, hfound⟩

theorem CreatesSession.tapsIn (h : CreatesSession x add) (h' : CreatesEvent e add') (hsession : e.sessionId = some x.id) :
    TapsIn s (add' (add s)) x e := by
  have events : (add s).attendanceEvent = s.attendanceEvent := by
    rcases h s with h | ⟨u, -, h⟩ <;> rw [h]
  refine ⟨fun y hy => ?_, fun y hy => ?_, fun a ha => ?_⟩
  · rw [h'.sessions]
    rcases h s with h | ⟨u, hu, h⟩ <;> rw [h]
    · exact hy
    · exact (Table.mem_insert hu).mpr (Or.inl hy)
  · rw [h'.sessions] at hy
    rcases h s with h | ⟨u, hu, h⟩ <;> rw [h] at hy
    · exact Or.inl hy
    · exact ((Table.mem_insert hu).mp hy).imp_right fun hyx => ⟨hyx, fun z hz => Table.id_ne_of_insert hu hz⟩
  · rw [h'.sessions]
    rcases h'.mem ha with ha | ⟨ha, hfound⟩
    · exact Or.inl (events ▸ ha)
    · obtain ⟨y, hy⟩ := Option.isSome_iff_exists.mp (hfound x.id hsession)
      obtain ⟨hmem, hid⟩ := Table.find_eq_some.mp hy
      exact Or.inr ⟨ha, y, hmem, hsession.trans (congrArg some hid.symm)⟩

theorem Shuts.tapsOut (h' : Shuts id shut) (h : CreatesEvent e add) (hsession : e.sessionId = some id)
    (hx : x ∈ s.attendanceSession) (hid : x.id = id) : TapsOut s (shut (add s)) id e := by
  obtain ⟨close, keys, hclose, hshut⟩ := h'
  have hfound : ((add s).attendanceSession.find id).isSome := by
    rw [h.sessions, ← hid]
    exact Option.isSome_of_eq_some (Table.find_of_mem hx)
  rw [hshut _ hfound, h.sessions]
  refine ⟨fun y hy => ?_, fun y hy => ?_, fun a ha => ?_⟩
  · show ∃ y' ∈ s.attendanceSession.update (·.id == id) close keys, y'.id = y.id ∧ (y.id ≠ id → y' = y)
    by_cases hyid : y.id = id
    · exact ⟨close y, Table.mem_update_of_mem hy (by simpa using hyid), keys.1 y, fun hne => absurd hyid hne⟩
    · exact ⟨y, Table.mem_update_of_not hy (by simpa using hyid), rfl, fun _ => rfl⟩
  · change y ∈ s.attendanceSession.update (·.id == id) close keys at hy
    rcases Table.mem_update_cases hy with ⟨hy, hne⟩ | ⟨z, hz, hzid, rfl⟩
    · exact Or.inr ⟨hy, by simpa using hne⟩
    · have hzid' : z.id = id := by simpa using hzid
      exact Or.inl ⟨(keys.1 z).trans hzid', hclose z⟩
  · exact (h.mem (s := s) ha).imp_right fun hae => ⟨hae.1, hsession⟩

end Statements

/-! ### The checks of the transactions -/

/-- What the check of a tap sees where it passes. -/
def Tap.Free (luxon : Luxon) : Tap → Db → Prop
  | .punchIn _ staffId _ tz time, s => ∀ today, startOfOrgDay luxon time tz = some today →
    ∀ y ∈ s.attendanceSession, y.staffId = staffId → y.date = today → y.status ≠ .open
  | .punchOut _ _ _ sessionId _, s => ∃ y ∈ s.attendanceSession, y.id = sessionId ∧ y.status = .open

/-- What a tap has written when it commits. -/
def Tap.Written (luxon : Luxon) : Tap → (Db → Db) → Prop
  | .punchIn io staffId orgId tz time, w => ∃ today, startOfOrgDay luxon time tz = some today ∧ ∀ s,
    TapsIn s (w s) (newSession io.sessionId orgId staffId today time)
      (newEvent io.eventId orgId staffId io.sessionId .punchIn time)
  | .punchOut io staffId orgId sessionId time, w => ∀ s, ∀ y ∈ s.attendanceSession, y.id = sessionId →
    TapsOut s (w s) sessionId (newEvent io.eventId orgId staffId sessionId .punchOut time)

section Guarded
variable {luxon : Luxon}

theorem guarded_punchIn {io : Io} {staffId orgId tz : String} {time : Date} :
    (punchInTransaction luxon io staffId orgId tz time).Guarded ((Tap.punchIn io staffId orgId tz time).Free luxon)
      ((Tap.punchIn io staffId orgId tz time).Written luxon) 1 := by
  refine Prog.guarded_orFail fun today htoday => Prog.guarded_access (fun _ => rfl) fun s old _ => ?_
  refine Prog.guarded_failIf fun _ => Prog.guarded_check (fun _ => rfl) fun s openToday hopenToday => ?_
  cases hopenToday
  by_cases hfirst : (io.sessions.first (s.attendanceSession.filter fun x =>
      x.staffId == staffId && x.status == .open && x.date == today)).isSome
  · exact Or.inr ⟨_, Prog.failIf_bind_of hfirst⟩
  · rw [Prog.failIf_bind_of_not hfirst]
    refine Or.inl ⟨fun today' htoday' y hy howner hdate hopen => ?_, ?_⟩
    · obtain rfl := Option.some.inj (htoday.symm.trans htoday')
      have hnone := not_mem_of_first hfirst hy
      simp [howner, hdate, hopen] at hnone
    · refine writes_createSession fun add hadd => writes_createEvent fun add' hadd' => ?_
      exact ⟨today, htoday, fun s => hadd.tapsIn hadd' rfl⟩

theorem guarded_punchOut {io : Io} {staffId orgId sessionId : String} {time : Date} :
    (punchOutTransaction io staffId orgId sessionId time).Guarded ((Tap.punchOut io staffId orgId sessionId time).Free luxon)
      ((Tap.punchOut io staffId orgId sessionId time).Written luxon) 0 := by
  simp only [punchOutTransaction, openSession, Prog.bind_assoc]
  refine Prog.guarded_check (fun _ => rfl) fun s found hfound => ?_
  cases hfound
  cases hsession : (s.attendanceSession.find sessionId).filter (·.staffId == staffId) with
  | none => exact Or.inr ⟨_, rfl⟩
  | some session =>
    rw [Option.filter_eq_some_iff, Table.find_eq_some] at hsession
    obtain ⟨⟨hmem, hid⟩, -⟩ := hsession
    obtain rfl : session.id = sessionId := hid
    show (_ ∧ (Prog.failIf (session.status ≠ .open) _ >>= _ : Service ActionReply).Writes _ id) ∨
      ∃ e, (Prog.failIf (session.status ≠ .open) _ >>= _ : Service ActionReply) = .fail e
    by_cases hopen : session.status = .open
    · rw [Prog.failIf_bind_of_not (not_not.mpr hopen)]
      refine Or.inl ⟨⟨session, hmem, rfl, hopen⟩, Prog.writes_access (fun _ => rfl) fun s events _ => ?_⟩
      refine writes_createEvent fun add hadd => writes_closeSession (fun _ => rfl) fun shut hshut => ?_
      exact fun s y hy hid => hshut.tapsOut hadd rfl hy hid
    · exact Or.inr ⟨_, Prog.failIf_bind_of hopen⟩

theorem Tap.guarded (tap : Tap) : (tap.transaction luxon).Guarded (tap.Free luxon) (tap.Written luxon) tap.check := by
  cases tap with
  | punchIn io staffId orgId tz time => exact guarded_punchIn
  | punchOut io staffId orgId sessionId time => exact guarded_punchOut

end Guarded

/-! ### Taps at the same time -/

section Concurrent
variable {luxon : Luxon} {s : Db} {w : Db → Db} {tap other : Tap}

/-- A tap whose check still holds when it commits keeps what must not happen from happening. -/
theorem Tap.keeps (sound : Sound s) (free : tap.Free luxon s) (hw : tap.Written luxon w) :
    Sound (w s) ∧ (OneOpenADay s → OneOpenADay (w s)) := by
  cases tap with
  | punchIn io staffId orgId tz time =>
    obtain ⟨today, htoday, hw⟩ := hw
    exact ⟨(hw s).sound sound nofun, fun one => (hw s).oneOpenADay one fun y hy => free today htoday y hy⟩
  | punchOut io staffId orgId sessionId time =>
    obtain ⟨x, hx, hid, hopen⟩ := free
    exact ⟨(hw s x hx hid).sound sound hx hid hopen, fun one => (hw s x hx hid).oneOpenADay one⟩

/-- A tap leaves alone what another one has checked, unless they are rivals. -/
theorem Tap.frees (rivals : ¬Rivals luxon tap other) (free : tap.Free luxon s) (hw : tap.Written luxon w)
    (hother : other.Free luxon s) : other.Free luxon (w s) := by
  cases tap with
  | punchIn io staffId orgId tz time =>
    obtain ⟨today, htoday, hw⟩ := hw
    cases other with
    | punchIn io' staffId' orgId' tz' time' =>
      intro today' htoday' y hy howner hdate hopen
      rcases (hw s).sessions y hy with hy | ⟨rfl, -⟩
      · exact hother today' htoday' y hy howner hdate hopen
      · -- the new session is of another staff member or day
        obtain rfl : today = today' := hdate
        exact rivals ⟨howner, htoday.trans htoday'.symm⟩
    | punchOut io' staffId' orgId' sessionId time' =>
      obtain ⟨y, hy, hid, hopen⟩ := hother
      exact ⟨y, (hw s).kept y hy, hid, hopen⟩
  | punchOut io staffId orgId sessionId time =>
    obtain ⟨x, hx, hid, -⟩ := free
    cases other with
    | punchIn io' staffId' orgId' tz' time' =>
      intro today htoday y hy howner hdate hopen
      exact hother today htoday y ((hw s x hx hid).open_origin hy hopen).1 howner hdate hopen
    | punchOut io' staffId' orgId' sessionId' time' =>
      obtain ⟨y, hy, hyid, hopen⟩ := hother
      obtain ⟨y', hy', -, hsame⟩ := (hw s x hx hid).kept y hy
      have hne : y.id ≠ sessionId := fun heq => rivals (heq.symm.trans hyid)
      exact ⟨y, hsame hne ▸ hy', hyid, hopen⟩

theorem rivals_symm (h : Rivals luxon tap other) : Rivals luxon other tap := by
  cases tap <;> cases other <;> first | exact h.elim | exact ⟨h.1.symm, h.2.symm⟩ | exact Eq.symm h

/-- Taps of which none makes its check between the check and the commit of a rival. -/
def Apart {ι : Type} (luxon : Luxon) (taps : ι → Tap) (c : Txns ι Db HttpException ActionReply) (i : ι) : Prop :=
  Txns.Apart (fun i => (taps i).check) (fun i j => i ≠ j ∧ Rivals luxon (taps i) (taps j)) c i

end Concurrent

/-- Any number of taps at the same time, from a state that actions have reached. If none makes its check
    between the check and the commit of a rival, no session gets two punch-outs, and no staff member
    two open sessions on one day who had not two before. -/
theorem taps_apart {ι : Type} [DecidableEq ι] (luxon : Luxon) (s : Db) (taps : ι → Tap)
    (c : Txns ι Db HttpException ActionReply) (hs : (attendance luxon).Reachable s)
    (h : (Txns.readCommitted s fun i => (taps i).transaction luxon).Reach (Apart luxon taps) c) :
    OnePunchOut c.store ∧ (OneOpenADay s → OneOpenADay c.store) := by
  have sound : Sound c.store ∧ (OneOpenADay s → OneOpenADay c.store) := by
    refine Txns.invariant_of_apart (J := fun t => Sound t ∧ (OneOpenADay s → OneOpenADay t)) ⟨reachable_sound hs, id⟩
      (fun i => (taps i).guarded) (fun i j hij => ⟨hij.1.symm, rivals_symm hij.2⟩) (fun i hii => hii.1 rfl) ?_ ?_ h
    · intro i w t ⟨sound, one⟩ free hw
      have keeps := Tap.keeps sound free hw
      exact ⟨keeps.1, fun hone => keeps.2 (one hone)⟩
    · intro i j w t hne hrival _ free hw hother
      exact Tap.frees (fun hrivals => hrival ⟨hne, hrivals⟩) free hw hother
  exact ⟨sound.1.onePunchOut, sound.2⟩

namespace Office

/-- Ann's badge is scanned twice in the morning. -/
def comings : Bool → Tap
  | true => .punchIn (request "1" .punchIn (9 * hour)).io "ann" "org" "UTC" (9 * hour)
  | false => .punchIn (request "2" .punchIn (9 * hour)).io "ann" "org" "UTC" (9 * hour)

/-- Ann's badge is scanned twice in the evening. -/
def leavings : Bool → Tap
  | true => .punchOut (request "3" .punchOut (17 * hour)).io "ann" "org" "s1" (17 * hour)
  | false => .punchOut (request "4" .punchOut (17 * hour)).io "ann" "org" "s1" (17 * hour)

def working : Db := runAll utc db [request "1" .punchIn (9 * hour)]

theorem oneOpenADay_db : OneOpenADay db := fun _ hx => absurd hx Table.not_mem_empty

/-- The first morning tap commits, and then the second one makes its check. -/
def inTurn : Txns Bool Db HttpException ActionReply :=
  .schedule db (fun i => (comings i).transaction utc) [true, true, true, true, true, false, false]

theorem reach_inTurn : (Txns.readCommitted db fun i => (comings i).transaction utc).Reach (Apart utc comings) inTurn := by
  refine System.Reach.schedule Txns.advance_step (.init rfl) ⟨?_, ?_, ?_, ?_, ?_, ?_, ?_, trivial⟩
  · exact fun htaken => absurd htaken (by decide)
  · rintro - (_ | _) ⟨hne, -⟩ hpast
    · exact absurd hpast.1 (by decide)
    · exact hne rfl
  · exact fun htaken => absurd htaken (by decide)
  · exact fun htaken => absurd htaken (by decide)
  · exact fun htaken => absurd htaken (by decide)
  · exact fun htaken => absurd htaken (by decide)
  · rintro - (_ | _) ⟨hne, -⟩ hpast
    · exact hne rfl
    · exact absurd hpast.2.1 (by decide)

theorem taps_apart_comings : OneOpenADay inTurn.store :=
  (taps_apart utc db comings _ (.init ⟨rfl, rfl⟩) reach_inTurn).2 oneOpenADay_db

/-- Both morning taps make their checks before they commit. -/
def bothIn : Txns Bool Db HttpException ActionReply :=
  .schedule db (fun i => (comings i).transaction utc) [true, true, false, false, true, true, true, false, false, false]

/-- Both evening taps read the session before they commit. -/
def bothOut : Txns Bool Db HttpException ActionReply :=
  .schedule working (fun i => (leavings i).transaction utc) [true, false, true, true, true, true, false, false, false, false]

theorem double_taps :
    (¬∀ (s : Db) (taps : Bool → Tap) (c : Txns Bool Db HttpException ActionReply), (attendance utc).Reachable s →
      OneOpenADay s → (Txns.readCommitted s fun i => (taps i).transaction utc).Reachable c → OneOpenADay c.store) ∧
    ¬∀ (s : Db) (taps : Bool → Tap) (c : Txns Bool Db HttpException ActionReply), (attendance utc).Reachable s →
      (Txns.readCommitted s fun i => (taps i).transaction utc).Reachable c → OnePunchOut c.store := by
  constructor
  · intro h
    have one := h db comings bothIn (.init ⟨rfl, rfl⟩) oneOpenADay_db (Txns.reachable_schedule db _ _)
    have two : ∃ x ∈ bothIn.store.attendanceSession, ∃ y ∈ bothIn.store.attendanceSession,
      x.staffId = y.staffId ∧ x.date = y.date ∧ x.status = .open ∧ y.status = .open ∧ x ≠ y := by decide
    obtain ⟨x, hx, y, hy, hstaff, hdate, hxopen, hyopen, hne⟩ := two
    exact hne (one x hx y hy hstaff hdate hxopen hyopen)
  · intro h
    have one := h working leavings bothOut (reachable [request "1" .punchIn (9 * hour)]) (Txns.reachable_schedule working _ _)
    have two : ∃ e ∈ bothOut.store.attendanceEvent, ∃ a ∈ bothOut.store.attendanceEvent,
      e.sessionId = a.sessionId ∧ e.eventType = .punchOut ∧ a.eventType = .punchOut ∧ e ≠ a := by decide
    obtain ⟨e, he, a, ha, hsession, hetype, hatype, hne⟩ := two
    exact hne (one e he a ha hsession hetype hatype)

end Office

end Vms.Attendance
