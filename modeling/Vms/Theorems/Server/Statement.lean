import Vms.Theorems.Server.Change

/-! The statements of the services are changes of their kinds. -/

namespace Vms.Server
open Relational Table HttpException
open AuthService (always_query always_mutate)

section Rules
variable {K : Kind → Prop} {α β : Type}

theorem within_query {f : Db → α} : (query f).Within (Changes K) := always_query fun s => .refl s

theorem within_outside {e : HttpException} : (outside e).Within (Changes K) := Prog.always_access fun s => .refl s

theorem within_mutate {op : Db → Except HttpException (α × Db)} (h : ∀ s a t, op s = .ok (a, t) → Changes K s t) :
    (mutate op).Within (Changes K) := always_mutate .refl h

/-- The client refuses the row, or stores it. -/
theorem always_create [Row α] {R : Db → Db → Prop} (refl : ∀ s, R s s) {references : Db → Bool} {a : α}
    {table : Db → Option (Table α)} {store : Db → Table α → Db}
    (h : ∀ s u, references s = true → table s = some u → R s (store s u)) :
    (mutate fun s => created (references s) a (table s) (store s)).Within R :=
  always_mutate refl fun s b t hop => by
    obtain ⟨hrefs, -, u, hu, rfl⟩ := created_eq_ok.mp hop
    exact h s u hrefs hu

theorem always_create_map [Row α] {R : Db → Db → Prop} (refl : ∀ s, R s s) {references : Db → Bool} {a : α}
    {table : Db → Option (Table α)} {store : Db → Table α → Db} {f : α × Db → β × Db} (hf : ∀ x, (f x).2 = x.2)
    (h : ∀ s u, references s = true → table s = some u → R s (store s u)) :
    (mutate fun s => (created (references s) a (table s) (store s)).map f).Within R :=
  always_mutate refl fun s b t hop => by
    obtain ⟨hrefs, u, hu, hx⟩ := created_map_eq_ok.mp hop
    have ht : store s u = t := (hf (a, store s u)).symm.trans (congrArg Prod.snd hx)
    exact ht ▸ h s u hrefs hu

/-! Statements among others that keep to a relation. -/

theorem obeys_query {R : Db → Db → Prop} (refl : ∀ s, R s s) {f : Db → α} {Q : Except HttpException α → Db → Prop} {s : Db} :
    (query f).Obeys R Q s ↔ ∀ t, R s t → Q (.ok (f t)) t ∧ Q (.error connectionLost) t :=
  Prog.obeys_access.trans (forall₂_congr fun t _ => and_iff_right (refl t))

theorem query_bind_obeys {R : Db → Db → Prop} (refl : ∀ s, R s s) {f : Db → α} {h : α → Service β}
    {Q : Except HttpException β → Db → Prop} {s : Db} (error : ∀ e t, Q (.error e) t)
    (hh : ∀ t, R s t → (h (f t)).Obeys R Q t) : (query f >>= h).Obeys R Q s :=
  Prog.obeys_bind.mpr ((obeys_query refl).mpr fun t ht => ⟨hh t ht, error _ t⟩)

theorem query_bind_keeps {R : Db → Db → Prop} (refl : ∀ s, R s s) {f : Db → α} {h : α → Service β} {s : Db}
    (hh : ∀ t, R s t → (h (f t)).Keeps R t) : (query f >>= h).Keeps R s :=
  query_bind_obeys refl (fun _ _ => trivial) hh

theorem mutate_obeys {R : Db → Db → Prop} {op : Db → Except HttpException (α × Db)} {Q : Except HttpException α → Db → Prop}
    {s : Db} (refl : ∀ s, R s s) (error : ∀ e t, Q (.error e) t)
    (h : ∀ t, R s t → ∀ a u, op t = .ok (a, u) → R t u ∧ Q (.ok a) u) : (mutate op).Obeys R Q s := by
  refine Prog.obeys_access.mpr fun t ht => ?_
  cases hop : op t with
  | error e => exact ⟨refl t, error e t, error _ t⟩
  | ok x => exact ⟨(h t ht x.1 x.2 hop).1, (h t ht x.1 x.2 hop).2, error _ t⟩

theorem mutate_keeps {R : Db → Db → Prop} {op : Db → Except HttpException (α × Db)} {s : Db} (refl : ∀ s, R s s)
    (h : ∀ t, R s t → ∀ a u, op t = .ok (a, u) → R t u) : (mutate op).Keeps R s :=
  mutate_obeys refl (fun _ _ => trivial) fun t ht a u hop => ⟨h t ht a u hop, trivial⟩

theorem within_transaction {p : Service α} (h : p.Within (Changes K)) : (transaction p).Within (Changes K) :=
  h.transaction .refl .trans

end Rules

section Visits
open VisitService
variable {K : Kind → Prop}

theorem createVisit_within {v : Visit} (hk : K .addVisit) (pending : v.status = .pending ∧ v.startTime = none ∧ v.endTime = none) :
    (createVisit v).Within (Changes K) := by
  refine always_create_map .refl (fun x => rfl) fun s u hrefs hu => ?_
  simp only [Bool.and_eq_true, Option.all_eq_true] at hrefs
  exact .one hk (.addVisit pending hrefs.1.1 hrefs.1.2 (fun id hid => hrefs.2 id hid) hu)

theorem createNotification_within {n : Notification} (hk : K .notify) (unanswered : n.action = .pending ∧ n.isRead = false) :
    (createNotification n).Within (Changes K) := by
  refine always_create .refl fun s u hrefs hu => ?_
  simp only [Bool.and_eq_true] at hrefs
  exact .one hk (.notify unanswered hrefs.1.1 hrefs.1.2 hrefs.2 hu)

theorem completeVisit_within {id : String} {endTime : Date} (hk : K .endVisit) : (completeVisit id endTime).Within (Changes K) := by
  refine within_mutate fun s d t h => ?_
  cases hfind : s.visit.find id with
  | none =>
    rw [hfind] at h
    cases h
  | some v =>
    rw [hfind] at h
    cases h
    exact .one hk (.endVisit (.update (fun _ => Or.inl rfl) fun _ _ _ => Or.inr ⟨_, rfl⟩))

theorem updatePending_within {visitId : String} {change : Visit → Visit} {keys : Row.Fixes change} (hk : K .decideVisit)
    (decides : ∀ v, v.status = .pending → Decided v (change v)) : (updatePending visitId change keys).Within (Changes K) := by
  refine within_mutate fun s d t h => ?_
  cases h
  refine .one hk (.decideVisit (.update (fun _ => Or.inl rfl) fun v _ hv => decides v ?_))
  rw [Bool.and_eq_true, beq_iff_eq, beq_iff_eq] at hv
  exact hv.2

theorem updateNotifications_within {visitId : String} {action : NotificationAction} (hk : K .answerNotifications) :
    (updateNotifications visitId action).Within (Changes K) := by
  refine within_mutate fun s d t h => ?_
  cases h
  exact .one hk (.answerNotifications (.update (fun _ => Or.inl rfl) fun _ _ _ => Or.inr ⟨_, rfl⟩))

end Visits

section AttendanceLog
open Attendance
variable {K : Kind → Prop}

theorem createSession_within {x : AttendanceSession} (hk : K .openSession) (isOpen : x.status = .open) :
    (createSession x).Within (Changes K) := by
  refine always_create .refl fun s u hrefs hu => ?_
  rw [Bool.and_eq_true] at hrefs
  exact .one hk (.openSession isOpen hrefs.1 hrefs.2 hu)

theorem createEvent_within {e : AttendanceEvent} (hk : K .recordEvent) : (createEvent e).Within (Changes K) := by
  refine always_create .refl fun s u hrefs hu => ?_
  simp only [Bool.and_eq_true, Option.all_eq_true] at hrefs
  exact .one hk (.recordEvent hrefs.1.1 hrefs.1.2 (fun id hid => hrefs.2 id hid) hu)

theorem closeSession_within {id : String} {totals : Int × Int} {close : AttendanceSession → AttendanceSession}
    {keys : Row.Fixes close} (hk : K .closeSession) (closes : ∀ x, ClosedAs x (close x)) :
    (closeSession id totals close keys).Within (Changes K) := by
  refine within_mutate fun s d t h => ?_
  split at h
  · cases h
  · split at h
    · cases h
    · cases h
      exact .one hk (.closeSession (.update (fun _ => ⟨rfl, rfl, rfl, rfl, rfl, Or.inl rfl⟩) fun x _ _ => closes x))

end AttendanceLog

section Users
open AuthService
variable {K : Kind → Prop}

theorem updateUser_within {id : String} {change : UserCredential → UserCredential} {keys : Row.Fixes change} {k : Kind}
    (hk : K k) (changes : ∀ s, Change s k { s with userCredential := s.userCredential.update (·.id == id) change keys }) :
    (updateUser id change keys).Within (Changes K) := by
  refine within_mutate fun s d t h => ?_
  split at h
  · cases h
  · cases h
    exact .one hk (changes s)

theorem setPassword_within {id password : String} (hk : K .setPassword) :
    (updateUser id fun user => { user with password }).Within (Changes K) :=
  updateUser_within hk fun _ => .setPassword (.update (fun a => ⟨a.password, rfl⟩) fun _ _ _ => ⟨password, rfl⟩)

theorem setReady_within {id : String} (hk : K .setReady) :
    (updateUser id fun user => { user with firstTimeLogin := some false }).Within (Changes K) :=
  updateUser_within hk fun _ => .setReady (.update (fun _ => Or.inl rfl) fun _ _ _ => Or.inr rfl)

theorem createUser_within {user : UserCredential} (hk : K .addRoot) (root : user.role = .root ∧ user.orgId = none) :
    (AuthService.createUser user).Within (Changes K) :=
  always_create .refl fun _ _ _ hu => .one hk (.addRoot root hu)

theorem upsertResetToken_within {id userId token : String} (hk : K .setResetCode) :
    (AuthService.upsertResetToken id userId token).Within (Changes K) := by
  refine within_mutate fun s d t h => ?_
  split at h
  · split at h
    · cases h
    · rename_i u hu
      cases h
      have rows := Evolves.modify (R := fun a b : ResetToken => b.userId = a.userId) hu (fun _ => rfl) fun _ _ _ => rfl
      refine .one hk (.setResetCode fun b hb => Or.inl ?_)
      obtain ⟨a, ha, hab⟩ := rows.only b hb
      exact ⟨a, ha, hab.symm⟩
  · obtain ⟨huser, u, hu, hx⟩ := created_map_eq_ok.mp h
    cases hx
    refine .one hk (.setResetCode fun b hb => ?_)
    rcases (mem_insert hu).mp hb with hb | rfl
    · exact Or.inl ⟨b, hb, rfl⟩
    · exact Or.inr huser

theorem deleteResetToken_within {id : String} (hk : K .dropResetCode) :
    (AuthService.deleteResetToken id).Within (Changes K) := by
  refine within_mutate fun s d t h => ?_
  split at h
  · cases h
  · cases h
    exact .one hk (.dropResetCode shrinks_delete)

theorem deleteRefreshTokens_within {userId : String} (hk : K .dropTokens) :
    (AuthService.deleteRefreshTokens userId).Within (Changes K) := by
  refine within_mutate fun s d t h => ?_
  cases h
  exact .one hk (.dropTokens shrinks_delete)

theorem createRefreshToken_within {token : RefreshToken} (hk : K .addToken)
    (owner : token.userId.isSome ≠ token.systemId.isSome) : (createRefreshToken token).Within (Changes K) := by
  refine always_create .refl fun s u hrefs hu => ?_
  simp only [Bool.and_eq_true, Option.all_eq_true] at hrefs
  exact .one hk (.addToken (fun id hid => hrefs.1 id hid) (fun id hid => hrefs.2 id hid) owner hu)

theorem rotateRefreshToken_within {id token : String} {expiryDate : Date} (hk : K .rotateToken) :
    (rotateRefreshToken id token expiryDate).Within (Changes K) := by
  refine within_mutate fun s d t h => ?_
  split at h
  · cases h
  · split at h
    · cases h
    · rename_i u hu
      cases h
      exact .one hk (.rotateToken (.modify hu (fun _ => ⟨rfl, rfl⟩) fun _ _ _ => ⟨rfl, rfl⟩))

end Users

section Systems
open SystemService
variable {K : Kind → Prop}

theorem createSystem_within {system : SystemCredential} (hk : K .addSystem) : (createSystem system).Within (Changes K) :=
  always_create .refl fun _ _ hrefs hu => .one hk (.addSystem hrefs hu)

theorem updateSystem_within {id : String} {change : SystemCredential → SystemCredential} {keys : Row.Fixes change}
    (hk : K .updateSystem) (updates : ∀ a, SystemUpdated a (change a)) : (updateSystem id change keys).Within (Changes K) := by
  refine within_mutate fun s d t h => ?_
  split at h
  · cases h
  · cases h
    exact .one hk (.updateSystem (.update (fun a => ⟨a.password, a.secretCode, a.activityStatus, a.sessionId, rfl⟩) fun a _ _ =>
      updates a))

theorem logOutSystems_within {orgId : String} (hk : K .updateSystem) : (logOutSystems orgId).Within (Changes K) := by
  refine within_mutate fun s d t h => ?_
  cases h
  exact .one hk (.updateSystem (.update (fun a => ⟨a.password, a.secretCode, a.activityStatus, a.sessionId, rfl⟩) fun a _ _ =>
    ⟨a.password, a.secretCode, .loggedOut, none, rfl⟩))

theorem deleteSystem_within {id : String} (hk : K .dropSystem) : (deleteSystem id).Within (Changes K) := by
  refine within_mutate fun s d t h => ?_
  split at h
  · cases h
  · cases h
    exact .one hk .dropSystem

theorem deleteSystemTokens_within {systemIds : List String} (hk : K .dropTokens) :
    (SystemService.deleteRefreshTokens systemIds).Within (Changes K) := by
  refine within_mutate fun s d t h => ?_
  cases h
  exact .one hk (.dropTokens shrinks_delete)

theorem upsertSystemResetToken_within {id systemId token : String} (hk : K .setSystemResetCode) :
    (SystemService.upsertResetToken id systemId token).Within (Changes K) := by
  refine within_mutate fun s d t h => ?_
  split at h
  · split at h
    · cases h
    · rename_i u hu
      cases h
      have rows := Evolves.modify (R := fun a b : ResetTokenSystem => b.systemId = a.systemId) hu (fun _ => rfl) fun _ _ _ => rfl
      refine .one hk (.setSystemResetCode fun b hb => Or.inl ?_)
      obtain ⟨a, ha, hab⟩ := rows.only b hb
      exact ⟨a, ha, hab.symm⟩
  · obtain ⟨hsystem, u, hu, hx⟩ := created_map_eq_ok.mp h
    cases hx
    refine .one hk (.setSystemResetCode fun b hb => ?_)
    rcases (mem_insert hu).mp hb with hb | rfl
    · exact Or.inl ⟨b, hb, rfl⟩
    · exact Or.inr hsystem

theorem deleteSystemResetToken_within {id : String} (hk : K .dropSystemResetCode) :
    (SystemService.deleteResetToken id).Within (Changes K) := by
  refine within_mutate fun s d t h => ?_
  split at h
  · cases h
  · cases h
    exact .one hk (.dropSystemResetCode shrinks_delete)

end Systems

section Listings
open DepartmentService ReasonService
variable {K : Kind → Prop}

theorem createDepartment_within {d : Department} (hk : K .addDepartment) : (departments.create d).Within (Changes K) :=
  always_create .refl fun _ _ hrefs hu => .one hk (.addDepartment hrefs hu)

theorem createReason_within {r : ReasonOfVisit} (hk : K .addReason) : (reasons.create r).Within (Changes K) :=
  always_create .refl fun _ _ hrefs hu => .one hk (.addReason hrefs hu)

theorem deleteDepartment_within {id : String} (hk : K .dropDepartment) : (departments.delete id).Within (Changes K) := by
  refine within_mutate fun s d t h => ?_
  split at h
  · cases h
  · cases h
    refine .one hk (.dropDepartment (.of_map rfl fun a _ => ?_))
    by_cases hof : a.departmentId = some id
    · rw [if_pos (beq_iff_eq.mpr hof)]
      exact Or.inl rfl
    · rw [if_neg (by simpa using hof)]
      exact Or.inr ⟨rfl, hof⟩

theorem deleteReason_within {id : String} (hk : K .dropReason) : (reasons.delete id).Within (Changes K) := by
  refine within_mutate fun s d t h => ?_
  split at h
  · cases h
  · cases h
    refine .one hk (.dropReason (.of_map rfl fun v _ => ?_))
    by_cases hof : v.reasonId = some id
    · rw [if_pos (beq_iff_eq.mpr hof)]
      exact Or.inl rfl
    · rw [if_neg (by simpa using hof)]
      exact Or.inr ⟨rfl, hof⟩

end Listings

section StaffMembers
open StaffService
variable {K : Kind → Prop}

theorem createStaff_within {staff : Staff} (hk : K .addStaff) (user : staff.userId = none) :
    (createStaff staff).Within (Changes K) := by
  refine always_create .refl fun s u hrefs hu => ?_
  simp only [Bool.and_eq_true, Option.all_eq_true] at hrefs
  exact .one hk (.addStaff user hrefs.1 (fun id hid => hrefs.2 id hid) hu)

theorem updateStaff_within {id : String} {change : Staff → Staff} (hk : K .updateStaff)
    (updates : ∀ a, StaffUpdated a (change a)) : (updateStaff id change).Within (Changes K) := by
  refine within_mutate fun s d t h => ?_
  obtain ⟨staff, u, hfind, hdepartment, hu, rfl⟩ := StaffService.updatedStaff_eq_ok.mp h
  have refl : ∀ a, StaffUpdated a a := fun a => ⟨a.name, a.email, a.role, a.departmentId, a.designation, rfl⟩
  refine .one hk (.updateStaff (.modify hu refl fun a _ _ => updates a) fun b hb department hof => ?_)
  obtain ⟨a, ha, rfl⟩ := (mem_modify hu).mp hb
  by_cases hid : a.id = id
  · obtain ⟨hmem, hstaff⟩ := find_eq_some.mp hfind
    obtain rfl : a = staff := eq_of_id ha hmem (hid.trans hstaff.symm)
    rw [if_pos (beq_iff_eq.mpr hid)] at hof
    exact Or.inr (hdepartment department hof)
  · rw [if_neg (by simpa using hid)] at hof
    exact Or.inl ⟨a, ha, hof⟩

theorem createMemberUser_within {user : UserCredential} {staffId : String} (hk : K .addUser) (role : user.role ≠ .root) :
    (StaffService.createUser user staffId).Within (Changes K) := by
  refine within_mutate fun s d t h => ?_
  obtain ⟨horg, -, users, staff, husers, hstaff, rfl⟩ := StaffService.createdUser_eq_ok.mp h
  exact .one hk (.addUser role horg husers hstaff)

theorem updateMemberUser_within {id : String} {change : UserCredential → UserCredential} (hk : K .updateUser)
    (reassigns : ∀ a, Reassigned a (change a)) : (StaffService.updateUser id change).Within (Changes K) := by
  refine within_mutate fun s d t h => ?_
  split at h
  · cases h
  · split at h
    · cases h
    · rename_i u hu
      cases h
      have refl : ∀ a, Reassigned a a := fun a => ⟨a.role, a.email, a.accountStatus, Or.inl rfl, rfl⟩
      exact .one hk (.updateUser (.modify hu refl fun a _ _ => reassigns a))

theorem hoursSet_refl (a : WorkingHours) : HoursSet a a := ⟨a.isClosed, a.startsAt, a.endsAt, rfl⟩

theorem upsertStaffHours_within {io : StaffService.Io} {staffId : String} {dto : WorkingHoursDto} {day : Weekday}
    (hk : K .setStaffHours) : (StaffService.upsertWorkingHours io staffId dto day).Within (Changes K) := by
  refine within_mutate fun s d t h => ?_
  split at h
  · cases h
    refine .one hk (.setStaffHours fun b hb => Or.inl ?_)
    exact (Evolves.update hoursSet_refl fun a _ _ => ⟨_, _, _, rfl⟩).only b hb
  · obtain ⟨hstaff, u, hu, hx⟩ := created_map_eq_ok.mp h
    cases hx
    refine .one hk (.setStaffHours fun b hb => ?_)
    rcases (mem_insert hu).mp hb with hb | rfl
    · exact Or.inl ⟨b, hb, hoursSet_refl b⟩
    · exact Or.inr ⟨rfl, staffId, rfl, hstaff⟩

theorem deleteStaff_within {id : String} (hk : K .dropStaff) : (deleteStaff id).Within (Changes K) := by
  refine within_mutate fun s d t h => ?_
  split at h
  · cases h
  · cases h
    exact .one hk .dropStaff

theorem deleteUser_within {id : String} (hk : K .dropUser) : (deleteUser id).Within (Changes K) := by
  refine within_mutate fun s d t h => ?_
  split at h
  · cases h
  · cases h
    exact .one hk .dropUser

end StaffMembers

section Teams
open TeamService
variable {K : Kind → Prop}

theorem createTeam_within {team : Team} (hk : K .addTeam) : (createTeam team).Within (Changes K) := by
  refine always_create .refl fun s u hrefs hu => ?_
  rw [Bool.and_eq_true] at hrefs
  exact .one hk (.addTeam hrefs.1 hrefs.2 hu)

theorem createTeamMember_within {member : TeamMember} (hk : K .addMembers) : (createTeamMember member).Within (Changes K) := by
  refine always_create .refl fun s u hrefs hu => ?_
  rw [Bool.and_eq_true] at hrefs
  refine .one hk (.addMembers (fun b hb => ?_) fun a ha => (mem_insert hu).mpr (Or.inl ha))
  rcases (mem_insert hu).mp hb with hb | rfl
  · exact Or.inl hb
  · exact Or.inr hrefs

theorem createTeamMembers_within {members : List TeamMember} (hk : K .addMembers) :
    (createTeamMembers members).Within (Changes K) := by
  refine within_mutate fun s d t h => ?_
  split at h
  · rename_i hrefs
    cases h
    refine .one hk (.addMembers (fun b hb => ?_) fun a ha => mem_insertAll_of_mem ha)
    rcases mem_of_mem_insertAll hb with hb | hb
    · exact Or.inl hb
    · have hb := List.all_eq_true.mp hrefs b hb
      rw [Bool.and_eq_true] at hb
      exact Or.inr hb
  · cases h

theorem createTeamReporting_within {reporting : List TeamReporting} (hk : K .addReporting) :
    (createTeamReporting reporting).Within (Changes K) := by
  refine within_mutate fun s d t h => ?_
  split at h
  · rename_i hrefs
    cases h
    refine .one hk (.addReporting fun b hb => ?_)
    rcases mem_of_mem_insertAll hb with hb | hb
    · exact Or.inl hb
    · have hb := List.all_eq_true.mp hrefs b hb
      simp only [Bool.and_eq_true, Option.all_eq_true] at hb
      exact Or.inr ⟨hb.1.1.1, hb.1.1.2, hb.1.2, fun id hid => hb.2 id hid⟩
  · cases h

theorem deleteTeamReporting_within {p : TeamReporting → Bool} (hk : K .dropReporting) :
    (deleteTeamReporting p).Within (Changes K) := by
  refine within_mutate fun s d t h => ?_
  cases h
  exact .one hk (.dropReporting shrinks_delete)

theorem deleteTeamMember_within {memberId teamId : String} (hk : K .dropMember) :
    (deleteTeamMember memberId teamId).Within (Changes K) := by
  refine within_mutate fun s d t h => ?_
  split at h
  · cases h
  · cases h
    exact .one hk .dropMember

theorem deleteTeamCascade_within {teamId : String} (hk : K .dropTeam) : (deleteTeamCascade teamId).Within (Changes K) := by
  refine within_mutate fun s d t h => ?_
  split at h
  · cases h
  · cases h
    exact .one hk .dropTeam

theorem updateTeam_within {teamId : String} {dto : EditTeamDto} (hk : K .updateTeam) :
    (updateTeam teamId dto).Within (Changes K) := by
  refine within_mutate fun s d t h => ?_
  split at h
  · cases h
  · split at h
    · rename_i hmanager
      cases h
      refine .one hk (.updateTeam (.update (fun a => ⟨a.name, a.masterManagerId, rfl⟩) fun _ _ _ => ⟨_, _, rfl⟩) fun b hb => ?_)
      obtain ⟨a, ha, rfl⟩ := mem_update.mp hb
      split
      · cases hgiven : truthy dto.masterManagerId with
        | none => exact Or.inl ⟨a, ha, rfl⟩
        | some id =>
          rw [hgiven] at hmanager
          exact Or.inr hmanager
      · exact Or.inl ⟨a, ha, rfl⟩
    · cases h

end Teams

section Organizations
open OrganizationService PlanService
variable {K : Kind → Prop}

theorem insertOrganization_within {organization : Organization} (hk : K .addOrganization) :
    (insertOrganization organization).Within (Changes K) := by
  refine within_mutate fun s d t h => ?_
  split at h
  · cases h
  · obtain ⟨-, -, u, hu, rfl⟩ := created_eq_ok.mp h
    exact .one hk (.addOrganization hu)

theorem insertSubscription_within {subscription : Subscription} (hk : K .addSubscription) :
    (insertSubscription subscription).Within (Changes K) := by
  refine always_create .refl fun s u hrefs hu => ?_
  rw [Bool.and_eq_true] at hrefs
  exact .one hk (.addSubscription hrefs.1 hrefs.2 hu)

theorem editOrganization_within {id : String} {change : Organization → Organization} (hk : K .editOrganization)
    (edits : ∀ a, OrganizationEdited a (change a)) : (updateOrganization id change).Within (Changes K) := by
  refine within_mutate fun s d t h => ?_
  split at h
  · cases h
  · split at h
    · cases h
    · rename_i u hu
      cases h
      exact .one hk (.editOrganization (.modify hu (fun _ => ⟨rfl, rfl⟩) fun a _ _ => edits a))

theorem limitOrganization_within {id : String} {change : Organization → Organization} (hk : K .limitOrganization)
    (ids : ∀ a, (change a).id = a.id) : (updateOrganization id change).Within (Changes K) := by
  refine within_mutate fun s d t h => ?_
  split at h
  · cases h
  · split at h
    · cases h
    · rename_i u hu
      cases h
      exact .one hk (.limitOrganization (.modify hu (fun _ => rfl) fun a _ _ => ids a))

theorem upsertOrganizationHours_within {io : ChangeIo} {orgId : String} {dto : StaffService.WorkingHoursDto} {day : Weekday}
    (hk : K .setOrganizationHours) : (OrganizationService.upsertWorkingHours io orgId dto day).Within (Changes K) := by
  refine within_mutate fun s d t h => ?_
  split at h
  · cases h
    refine .one hk (.setOrganizationHours fun b hb => Or.inl ?_)
    exact (Evolves.update hoursSet_refl fun a _ _ => ⟨_, _, _, rfl⟩).only b hb
  · obtain ⟨horg, u, hu, hx⟩ := created_map_eq_ok.mp h
    cases hx
    refine .one hk (.setOrganizationHours fun b hb => ?_)
    rcases (mem_insert hu).mp hb with hb | rfl
    · exact Or.inl ⟨b, hb, hoursSet_refl b⟩
    · exact Or.inr ⟨rfl, orgId, rfl, horg⟩

theorem upsertSubscription_within {io : ChangeIo} {orgId planId : String} {startsAt endsAt : Date} (hk : K .setSubscription) :
    (upsertSubscription io orgId planId startsAt endsAt).Within (Changes K) := by
  refine within_mutate fun s d t h => ?_
  split at h
  · split at h
    · cases h
    · rename_i hplan
      cases h
      have hplan : (s.plan.find planId).isSome := Option.isSome_iff_ne_none.mpr fun hnone => hplan (by rw [hnone]; rfl)
      have rows : Evolves (fun a b : Subscription => b.orgId = a.orgId ∧ (b.planId = a.planId ∨ b.planId = planId)) s.subscription
          (s.subscription.update (·.orgId == orgId) fun subscription => { subscription with planId, startsAt, endsAt }) :=
        .update (fun _ => ⟨rfl, Or.inl rfl⟩) fun _ _ _ => ⟨rfl, Or.inr rfl⟩
      refine .one hk (.setSubscription (fun b hb => ?_) fun b hb => ?_)
      · obtain ⟨a, ha, horg, -⟩ := rows.only b hb
        exact Or.inl ⟨a, ha, horg.symm⟩
      · obtain ⟨a, ha, -, hsame | hnew⟩ := rows.only b hb
        · exact Or.inl ⟨a, ha, hsame.symm⟩
        · exact Or.inr (hnew ▸ hplan)
  · obtain ⟨hrefs, u, hu, hx⟩ := created_map_eq_ok.mp h
    cases hx
    obtain ⟨hplan, horg⟩ := Bool.and_eq_true_iff.mp hrefs
    refine .one hk (.setSubscription (fun b hb => ?_) fun b hb => ?_)
    · rcases (mem_insert hu).mp hb with hb | rfl
      · exact Or.inl ⟨b, hb, rfl⟩
      · exact Or.inr horg
    · rcases (mem_insert hu).mp hb with hb | rfl
      · exact Or.inl ⟨b, hb, rfl⟩
      · exact Or.inr hplan

theorem removeOrganization_within {orgId : String} (hk : K .dropOrganization) :
    (removeOrganization orgId).Within (Changes K) := by
  refine within_mutate fun s d t h => ?_
  split at h
  · cases h
  · cases h
    exact .one hk .dropOrganization

theorem insertPlan_within {plan : Plan} (hk : K .addPlan) : (insertPlan plan).Within (Changes K) := by
  refine within_mutate fun s d t h => ?_
  split at h
  · cases h
  · obtain ⟨-, -, u, hu, rfl⟩ := created_eq_ok.mp h
    exact .one hk (.addPlan hu)

theorem updatePlanRow_within {id : String} {change : Plan → Plan} {keys : Row.Fixes change} (hk : K .updatePlan) :
    (updatePlanRow id change keys).Within (Changes K) := by
  refine within_mutate fun s d t h => ?_
  split at h
  · cases h
  · cases h
    exact .one hk (.updatePlan (.update (fun _ => rfl) fun a _ _ => keys.1 a))

theorem insertFeature_within {feature : PlanFeature} (hk : K .setFeature) : (insertFeature feature).Within (Changes K) := by
  refine within_mutate fun s d t h => ?_
  split at h
  · cases h
  · obtain ⟨hplan, u, hu, hx⟩ := created_map_eq_ok.mp h
    cases hx
    refine .one hk (.setFeature fun b hb => ?_)
    rcases (mem_insert hu).mp hb with hb | rfl
    · exact Or.inl ⟨b, hb, rfl⟩
    · exact Or.inr hplan

theorem updateFeature_within {planId : String} {f : PlanFeatureDto} (hk : K .setFeature) :
    (updateFeature planId f).Within (Changes K) := by
  refine within_mutate fun s d t h => ?_
  split at h
  · cases h
  · split at h
    · cases h
    · cases h
      refine .one hk (.setFeature fun b hb => Or.inl ?_)
      obtain ⟨a, ha, rfl⟩ := mem_update.mp hb
      refine ⟨a, ha, ?_⟩
      split <;> rfl

theorem deleteFeatures_within {planId : String} {kept : List FeatureCode} (hk : K .dropFeatures) :
    (deleteFeatures planId kept).Within (Changes K) := by
  refine within_mutate fun s d t h => ?_
  cases h
  exact .one hk (.dropFeatures shrinks_delete)

end Organizations

end Vms.Server
