import Vms.Theorems.Attendance.Invariant
import Vms.Theorems.Organization.Step

/-! The day of a session is computed in the time zone that the organisation has when the session is opened, and
    sessions are looked up by days of the time zone that it has then. An edit of the organisation may change the
    zone under the sessions. -/

namespace Vms.Attendance
open Relational HttpException OrganizationService

/-- Every session is dated the day of its punch-in, in the zone that its organisation has now. -/
def Keyed (luxon : Luxon) (s : Db) : Prop :=
  ∀ x ∈ s.attendanceSession, ∃ zone first, orgZone luxon s x.orgId = some zone ∧ x.firstPunchInAt = some first ∧
    x.date = zone.startOfDay first

/-- An attendance action, or an edit of an organisation. -/
inductive Call where
  | attend (q : Request)
  | edit (io : ChangeIo) (orgId role : String) (dto : EditOrganizationDto) (userId : String) (logo : Bool)

def Call.perform (luxon : Luxon) (js : Js) : Call → Service Unit
  | .attend q => do let _ ← q.call luxon
  | .edit io orgId role dto userId logo => do let _ ← editOrganizationDetails js io orgId role dto userId logo

/-- The runs of these calls, one after another, in which any statement may fail. They start without sessions. -/
def calls (luxon : Luxon) (js : Js) : System Db Call where
  init s := s.attendanceSession = ∅
  step s call t := ∃ r, Prog.Exec (call.perform luxon js) s r t

/-- The zone that an edit sets. -/
def newZone (luxon : Luxon) (dto : EditOrganizationDto) : Option Zone := (truthy (some dto.timezone)).bind luxon

/-- In the zone that the call sets, the day of the first punch-in of every session of the organisation begins when it
    began. -/
def KeepsDays (luxon : Luxon) (s : Db) : Call → Prop
  | .attend _ => True
  | .edit _ orgId role dto _ _ => role ∈ ["Root", "SuperAdmin"] → ∀ x ∈ s.attendanceSession, x.orgId = orgId →
    ∃ zone, newZone luxon dto = some zone ∧ ∀ first, x.firstPunchInAt = some first → zone.startOfDay first = x.date

section Steps
variable {luxon : Luxon} {js : Js} {s t : Db} {q : Request} {staff : Staff} {x x' : AttendanceSession} {e : AttendanceEvent}

/-- The zones are those of the organisations. -/
theorem orgZone_of_organization (h : t.organization = s.organization) {orgId : String} :
    orgZone luxon t orgId = orgZone luxon s orgId := by
  rw [orgZone, orgZone, h]

theorem Opens.keyed (keyed : Keyed luxon s) (h : Opens s t x e) {zone : Zone} (hzone : orgZone luxon s x.orgId = some zone)
    (hfirst : x.firstPunchInAt = some e.timestamp) (hdate : x.date = zone.startOfDay e.timestamp) : Keyed luxon t := by
  intro y hy
  rw [orgZone_of_organization (show t.organization = s.organization by rw [h.rest])]
  rcases h.mem_session.mp hy with hy | rfl
  · exact keyed y hy
  · exact ⟨zone, e.timestamp, hzone, hfirst, hdate⟩

theorem Marks.keyed (keyed : Keyed luxon s) (h : Marks s t e) : Keyed luxon t := by
  intro y hy
  rw [h.sessions] at hy
  rw [orgZone_of_organization (show t.organization = s.organization by rw [h.rest])]
  exact keyed y hy

theorem Closes.keyed (keyed : Keyed luxon s) (h : Closes s t x x' e) (hx : x ∈ s.attendanceSession) : Keyed luxon t := by
  intro y hy
  rw [orgZone_of_organization (show t.organization = s.organization by rw [h.rest])]
  rcases (h.sessions y).mp hy with rfl | ⟨hy, -⟩
  · obtain ⟨_, _, _, _, hrow⟩ := h.row
    rw [hrow]
    exact keyed x hx
  · exact keyed y hy

theorem Acted.keyed (keyed : Keyed luxon s) (h : Acted luxon s q staff t) : Keyed luxon t := by
  cases h with
  | punchIn zone time action may opens => exact opens.keyed keyed may.inZone rfl rfl
  | breakStart x time action may marks => exact marks.keyed keyed
  | breakEnd x time action may marks => exact marks.keyed keyed
  | punchOut x x' time action may closes => exact closes.keyed keyed may.names.mem
  | late x x' zone approxOut punchIn u action may closes opens =>
    have hzone : orgZone luxon u staff.orgId = some zone := by
      rw [orgZone_of_organization (show u.organization = s.organization by rw [closes.rest])]
      exact may.inZone
    exact opens.keyed (closes.keyed keyed may.names.mem) hzone rfl rfl

/-- An edit changes the zone of its organisation. -/
theorem orgZone_edits {io : ChangeIo} {orgId role : String} {dto : EditOrganizationDto} (h : Edits io s orgId role dto t)
    {id : String} : orgZone luxon t id = if id = orgId then newZone luxon dto else orgZone luxon s id := by
  obtain ⟨-, hmem, hid, -, -, hstored, hours⟩ := h
  obtain ⟨u, rfl⟩ := editWorkingHours_hoursOnly.of_exec (Prog.exec_of_run hours)
  have hfind := Table.find_modify hstored (fun _ => rfl) id
  rw [orgZone, hfind]
  by_cases horg : id = orgId
  · subst horg
    rw [Table.find_eq_some.mpr ⟨hmem, hid⟩, Option.map_some, if_pos (beq_iff_eq.mpr hid), if_pos rfl]
    rfl
  · rw [if_neg horg, orgZone]
    cases hold : s.organization.find id with
    | none => rfl
    | some old =>
      have hne : ¬(old.id == orgId) = true := fun heq =>
        horg ((Table.find_eq_some.mp hold).2.symm.trans (beq_iff_eq.mp heq))
      rw [Option.map_some, if_neg hne]

theorem sessions_edits {io : ChangeIo} {orgId role : String} {dto : EditOrganizationDto} (h : Edits io s orgId role dto t) :
    t.attendanceSession = s.attendanceSession := by
  obtain ⟨-, -, -, -, -, -, hours⟩ := h
  obtain ⟨u, rfl⟩ := editWorkingHours_hoursOnly.of_exec (Prog.exec_of_run hours)
  rfl

/-- An accepted edit keeps the sessions under their keys exactly if it keeps their days. -/
theorem keyed_edits {io : ChangeIo} {orgId role userId : String} {dto : EditOrganizationDto} {logo : Bool}
    (keyed : Keyed luxon s) (h : Edits io s orgId role dto t) :
    Keyed luxon t ↔ KeepsDays luxon s (.edit io orgId role dto userId logo) := by
  have hallowed : role ∈ ["Root", "SuperAdmin"] := by
    obtain ⟨hallowed, -⟩ := h
    exact hallowed
  unfold Keyed
  rw [sessions_edits h]
  simp only [orgZone_edits h]
  constructor
  · intro keyed' _ x hx horg
    obtain ⟨zone, first, hzone, hfirst, hdate⟩ := keyed' x hx
    rw [if_pos horg] at hzone
    refine ⟨zone, hzone, fun first' hfirst' => ?_⟩
    obtain rfl := Option.some.inj (hfirst.symm.trans hfirst')
    exact hdate.symm
  · intro keeps x hx
    obtain ⟨zone, first, hzone, hfirst, hdate⟩ := keyed x hx
    by_cases horg : x.orgId = orgId
    · obtain ⟨zone', hzone', hstart⟩ := keeps hallowed x hx horg
      exact ⟨zone', first, by rw [if_pos horg, hzone'], hfirst, (hstart first hfirst).symm⟩
    · exact ⟨zone, first, by rw [if_neg horg, hzone], hfirst, hdate⟩

end Steps

/-- A refused call changes nothing. -/
theorem perform_refused {luxon : Luxon} {js : Js} {s t : Db} {call : Call} {e : HttpException}
    (h : Prog.Exec (call.perform luxon js) s (.error e) t) : t = s := by
  cases call with
  | attend q => exact action_spec.of_exec (Prog.exec_discard_error.mp h)
  | edit io orgId role dto userId logo => exact editOrganizationDetails_edits.of_exec (Prog.exec_discard_error.mp h)

/-- In a run whose edits keep the days of the sessions, every session is dated the day of its punch-in in the
    organisation's zone; and an accepted call keeps the sessions under their keys only if it keeps their days. -/
theorem session_keys (luxon : Luxon) (js : Js) :
    (∀ s, (calls luxon js).Reach (KeepsDays luxon) s → Keyed luxon s) ∧
    ∀ s call t, Keyed luxon s → Prog.Exec (call.perform luxon js) s (.ok ()) t → (Keyed luxon t ↔ KeepsDays luxon s call) := by
  have accepted : ∀ s call t, Keyed luxon s → Prog.Exec (call.perform luxon js) s (.ok ()) t →
      (Keyed luxon t ↔ KeepsDays luxon s call) := by
    intro s call t keyed hexec
    cases call with
    | attend q =>
      obtain ⟨reply, hexec⟩ := hexec.of_discard
      obtain ⟨staff, -, acted⟩ := action_accepted hexec
      exact iff_of_true (acted.keyed keyed) trivial
    | edit io orgId role dto userId logo =>
      obtain ⟨reply, hexec⟩ := hexec.of_discard
      exact keyed_edits keyed (editOrganizationDetails_edits.of_exec hexec)
  refine ⟨fun s h => h.invariant (fun s hinit x hx => ?_) fun s call t _ keyed keeps step => ?_, accepted⟩
  · have hnone : s.attendanceSession = ∅ := hinit
    rw [hnone] at hx
    exact absurd hx Table.not_mem_empty
  · obtain ⟨r, hexec⟩ := step
    cases r with
    | ok _ => exact (accepted s call t keyed hexec).mpr keeps
    | error e =>
      rw [perform_refused hexec]
      exact keyed

section Moving
open Office

/-- Kolkata is five and a half hours ahead of UTC. -/
def kolkata : Zone where
  startOfDay t := (t + 11 * (hour / 2)) / (24 * hour) * (24 * hour) - 11 * (hour / 2)
  toISODate _ := "1970-01-01"

def zones : Luxon := fun name => if name = "UTC" then some zone else if name = "Asia/Kolkata" then some kolkata else none

def plain : Js := { toLowerCase := id, trim := id, toLocaleString := fun _ => "" }

def changeIo : ChangeIo where
  organizationId := "new"
  subscriptionId := "sub"
  workingHoursId _ := "hours"
  logoUrl := ""
  encryptionKey := some "key"
  cipher := { iv := "iv", cipher := fun _ _ text => .ok ("tag", text) }
  newDate _ := some 0
  dateTime _ := some 0

/-- Root sets the time zone of the organisation. -/
def setZone (timezone : String) : Call :=
  .edit changeIo "org" "Root" { timezone, settingCode := "" } "root-user" false

/-- The state after some calls, each of them run without failures. -/
def runCalls (cs : List Call) : Db := cs.foldl (fun s call => ((call.perform zones plain).run s).2) db

theorem reach_runCalls {C : Db → Call → Prop} {cs : List Call} (meets : ∀ s, ∀ call ∈ cs, C s call) :
    (calls zones plain).Reach C (runCalls cs) := by
  have hrun : ∀ s call, (calls zones plain).step s call ((call.perform zones plain).run s).2 :=
    fun s call => ⟨_, Prog.exec_run (call.perform zones plain) s⟩
  have hstart : (calls zones plain).Reach C db := .init rfl
  exact hstart.foldl hrun meets

/-- Ann punches in at nine o'clock. -/
def morning : Call := .attend (request "1" .punchIn (9 * hour))

theorem session_keys_morning : Keyed zones (runCalls [morning]) ∧
    (Keyed zones (runCalls [morning, setZone "UTC"]) ↔ KeepsDays zones (runCalls [morning]) (setZone "UTC")) := by
  have hreach : (calls zones plain).Reach (KeepsDays zones) (runCalls [morning]) := by
    refine reach_runCalls fun s call hcall => ?_
    obtain rfl := List.mem_singleton.mp hcall
    trivial
  have keyed := (session_keys zones plain).1 _ hreach
  refine ⟨keyed, (session_keys zones plain).2 _ _ _ keyed (Prog.exec_of_run (Prod.ext ?_ rfl))⟩
  decide

/-- After Ann's punch-in, root moves the organisation to Kolkata. -/
theorem session_unkeyed : ¬∀ s, (calls zones plain).Reachable s → Keyed zones s := fun h => by
  have keyed := h (runCalls [morning, setZone "Asia/Kolkata"]) (reach_runCalls fun _ _ _ => trivial)
  have moved : ∃ x ∈ (runCalls [morning, setZone "Asia/Kolkata"]).attendanceSession, x.orgId = "org" ∧
      x.firstPunchInAt = some (9 * hour) ∧ x.date ≠ kolkata.startOfDay (9 * hour) := by decide
  obtain ⟨x, hx, horg, hfirst, hdate⟩ := moved
  obtain ⟨zone', first, hzone, hfirst', hdate'⟩ := keyed x hx
  rw [horg] at hzone
  obtain rfl := Option.some.inj (hzone.symm.trans (rfl : orgZone zones _ "org" = some kolkata))
  obtain rfl := Option.some.inj (hfirst.symm.trans hfirst')
  exact hdate hdate'

end Moving

end Vms.Attendance
