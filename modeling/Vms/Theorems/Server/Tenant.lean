import Vms.Theorems.Server.Root

/-! What belongs to an organisation, and when a change leaves it alone. Departments, reasons, teams and system accounts are
    not among it: a superadmin or an admin of another organisation can delete them. -/

namespace Vms.Server
open Relational Table HttpException Prog

/-! ### Belongings -/

/-- A visit, perhaps without the reason that it had. -/
def SameVisit (v w : Visit) : Prop := w = v ∨ w = { v with reasonId := none }

/-- A staff member, perhaps without the department they had. -/
def SameStaff (a b : Staff) : Prop := b = a ∨ b = { a with departmentId := none }

section Belongings
variable (orgId : String)

/-- The identifier of a staff member of the organisation. -/
def Employs (s : Db) (id : String) : Prop := s.staff.Has (·.orgId = orgId) id

/-- The identifier of an account of the organisation. -/
def Accounts (s : Db) (id : String) : Prop := s.userCredential.Has (·.orgId = some orgId) id

/-- The working hours of the organisation and of its staff members. -/
def HoursOf (s : Db) (hours : WorkingHours) : Prop :=
  (hours.orgId = some orgId ∧ hours.staffId = none) ∨ hours.orgId = none ∧ ∃ id, hours.staffId = some id ∧ Employs orgId s id

/-- Staff members of other organisations log in with other accounts. -/
def Strangers (s : Db) : Prop := ∀ staff ∈ s.staff, staff.orgId ≠ orgId → ∀ id, staff.userId = some id → ¬Accounts orgId s id

/-- What belongs to the organisation is as it was, up to passwords, and up to reasons and departments that are gone. -/
structure Spares (s t : Db) : Prop where
  organization : s.organization.EvolvesOn (·.id = orgId) Eq t.organization
  visit : s.visit.EvolvesOn (·.orgId = orgId) SameVisit t.visit
  notification : s.notification.EvolvesOn (·.orgId = orgId) Eq t.notification
  attendanceSession : s.attendanceSession.EvolvesOn (·.orgId = orgId) Eq t.attendanceSession
  attendanceEvent : s.attendanceEvent.EvolvesOn (·.orgId = orgId) Eq t.attendanceEvent
  staff : s.staff.EvolvesOn (·.orgId = orgId) SameStaff t.staff
  workingHours : s.workingHours.EvolvesOn (HoursOf orgId s) Eq t.workingHours
  userCredential : s.userCredential.EvolvesOn (·.orgId = some orgId) SameAccount t.userCredential
  strangers : Strangers orgId s → Strangers orgId t

/-- Rows of the organisation refer to rows of the organisation. -/
structure Linked (s : Db) : Prop where
  visit : ∀ v ∈ s.visit, v.orgId = orgId → Employs orgId s v.staffId
  notification : ∀ n ∈ s.notification, n.orgId = orgId → Employs orgId s n.staffId ∧ s.visit.Has (·.orgId = orgId) n.visitId
  attendanceSession : ∀ x ∈ s.attendanceSession, x.orgId = orgId → Employs orgId s x.staffId
  attendanceEvent : ∀ e ∈ s.attendanceEvent, e.orgId = orgId → Employs orgId s e.staffId ∧
    ∀ id, e.sessionId = some id → s.attendanceSession.Has (·.orgId = orgId) id
  staff : ∀ staff ∈ s.staff, staff.orgId = orgId → ∀ id, staff.userId = some id → Accounts orgId s id
  strangers : Strangers orgId s

end Belongings

namespace SameVisit
variable {u v w : Visit}

theorem refl (v : Visit) : SameVisit v v := Or.inl rfl

theorem trans (h : SameVisit u v) (h' : SameVisit v w) : SameVisit u w := by
  rcases h with rfl | rfl <;> rcases h' with rfl | rfl
  · exact Or.inl rfl
  all_goals exact Or.inr rfl

theorem columns (h : SameVisit v w) : w.id = v.id ∧ w.orgId = v.orgId ∧ w.staffId = v.staffId := by
  rcases h with rfl | rfl <;> exact ⟨rfl, rfl, rfl⟩

end SameVisit

namespace SameStaff
variable {a b c : Staff}

theorem refl (a : Staff) : SameStaff a a := Or.inl rfl

theorem trans (h : SameStaff a b) (h' : SameStaff b c) : SameStaff a c := by
  rcases h with rfl | rfl <;> rcases h' with rfl | rfl
  · exact Or.inl rfl
  all_goals exact Or.inr rfl

theorem columns (h : SameStaff a b) : b.id = a.id ∧ b.orgId = a.orgId ∧ b.userId = a.userId := by
  rcases h with rfl | rfl <;> exact ⟨rfl, rfl, rfl⟩

end SameStaff

theorem SameAccount.orgId {a b : UserCredential} (h : SameAccount a b) : b.orgId = a.orgId := by
  obtain ⟨-, -, rfl⟩ := h
  rfl

namespace Spares
variable {orgId : String} {s t u : Db}

section Identifiers
variable (h : Spares orgId s t) {id : String}
include h

theorem employs_iff : Employs orgId t id ↔ Employs orgId s id :=
  h.staff.has_iff fun a b hab => ⟨hab.columns.1, by rw [hab.columns.2.1]⟩

theorem accounts_iff : Accounts orgId t id ↔ Accounts orgId s id :=
  h.userCredential.has_iff fun a b hab => ⟨hab.id, by rw [hab.orgId]⟩

theorem visit_iff : t.visit.Has (·.orgId = orgId) id ↔ s.visit.Has (·.orgId = orgId) id :=
  h.visit.has_iff fun v w hvw => ⟨hvw.columns.1, by rw [hvw.columns.2.1]⟩

theorem session_iff : t.attendanceSession.Has (·.orgId = orgId) id ↔ s.attendanceSession.Has (·.orgId = orgId) id :=
  h.attendanceSession.has_iff fun x y hxy => by rw [hxy]; exact ⟨rfl, Iff.rfl⟩

theorem hoursOf_iff {hours : WorkingHours} : HoursOf orgId t hours ↔ HoursOf orgId s hours :=
  or_congr Iff.rfl (and_congr Iff.rfl (exists_congr fun _ => and_congr Iff.rfl h.employs_iff))

end Identifiers

theorem refl (s : Db) : Spares orgId s s where
  organization := .refl fun _ => rfl
  visit := .refl SameVisit.refl
  notification := .refl fun _ => rfl
  attendanceSession := .refl fun _ => rfl
  attendanceEvent := .refl fun _ => rfl
  staff := .refl SameStaff.refl
  workingHours := .refl fun _ => rfl
  userCredential := .refl SameAccount.refl
  strangers h := h

theorem trans (h : Spares orgId s t) (h' : Spares orgId t u) : Spares orgId s u where
  organization := h.organization.trans (fun a b hab => by rw [hab]) Eq.trans h'.organization
  visit := h.visit.trans (fun v w hvw => by rw [hvw.columns.2.1]) SameVisit.trans h'.visit
  notification := h.notification.trans (fun a b hab => by rw [hab]) Eq.trans h'.notification
  attendanceSession := h.attendanceSession.trans (fun a b hab => by rw [hab]) Eq.trans h'.attendanceSession
  attendanceEvent := h.attendanceEvent.trans (fun a b hab => by rw [hab]) Eq.trans h'.attendanceEvent
  staff := h.staff.trans (fun a b hab => by rw [hab.columns.2.1]) SameStaff.trans h'.staff
  workingHours := h.workingHours.trans (fun a b hab => by rw [hab]) Eq.trans (h'.workingHours.congr fun _ => h.hoursOf_iff.symm)
  userCredential := h.userCredential.trans (fun a b hab => by rw [hab.orgId]) SameAccount.trans h'.userCredential
  strangers hs := h'.strangers (h.strangers hs)

/-- The links survive. -/
theorem linked (h : Spares orgId s t) (hs : Linked orgId s) : Linked orgId t where
  visit w hw horg := by
    obtain ⟨v, hv, hvw⟩ := h.visit.only w hw horg
    rw [hvw.columns.2.2, h.employs_iff]
    exact hs.visit v hv (hvw.columns.2.1.symm.trans horg)
  notification m hm horg := by
    obtain ⟨n, hn, rfl⟩ := h.notification.only m hm horg
    rw [h.employs_iff, h.visit_iff]
    exact hs.notification n hn horg
  attendanceSession y hy horg := by
    obtain ⟨x, hx, rfl⟩ := h.attendanceSession.only y hy horg
    rw [h.employs_iff]
    exact hs.attendanceSession x hx horg
  attendanceEvent e he horg := by
    obtain ⟨e₀, he₀, rfl⟩ := h.attendanceEvent.only e he horg
    rw [h.employs_iff]
    exact (hs.attendanceEvent e₀ he₀ horg).imp id fun sessions id hid => h.session_iff.mpr (sessions id hid)
  staff b hb horg id hid := by
    obtain ⟨a, ha, hab⟩ := h.staff.only b hb horg
    rw [h.accounts_iff]
    exact hs.staff a ha (hab.columns.2.1.symm.trans horg) id (hab.columns.2.2.symm.trans hid)
  strangers := h.strangers hs.strangers

/-! ### One table -/

theorem withOrganization {u : Table Organization} (h : s.organization.EvolvesOn (·.id = orgId) Eq u) :
    Spares orgId s { s with organization := u } :=
  { Spares.refl s with organization := h }

theorem withVisit {u : Table Visit} (h : s.visit.EvolvesOn (·.orgId = orgId) SameVisit u) : Spares orgId s { s with visit := u } :=
  { Spares.refl s with visit := h }

theorem withNotification {u : Table Notification} (h : s.notification.EvolvesOn (·.orgId = orgId) Eq u) :
    Spares orgId s { s with notification := u } :=
  { Spares.refl s with notification := h }

theorem withSession {u : Table AttendanceSession} (h : s.attendanceSession.EvolvesOn (·.orgId = orgId) Eq u) :
    Spares orgId s { s with attendanceSession := u } :=
  { Spares.refl s with attendanceSession := h }

theorem withEvent {u : Table AttendanceEvent} (h : s.attendanceEvent.EvolvesOn (·.orgId = orgId) Eq u) :
    Spares orgId s { s with attendanceEvent := u } :=
  { Spares.refl s with attendanceEvent := h }

theorem withHours {u : Table WorkingHours} (h : s.workingHours.EvolvesOn (HoursOf orgId s) Eq u) :
    Spares orgId s { s with workingHours := u } :=
  { Spares.refl s with workingHours := h }

/-- Staff members change, whose accounts are not of the organisation unless they are. -/
theorem withStaff {u : Table Staff} (h : s.staff.EvolvesOn (·.orgId = orgId) SameStaff u)
    (strangers : Strangers orgId s → Strangers orgId { s with staff := u }) : Spares orgId s { s with staff := u } :=
  { Spares.refl s with staff := h, strangers }

theorem withUser {u : Table UserCredential} (h : s.userCredential.EvolvesOn (·.orgId = some orgId) SameAccount u) :
    Spares orgId s { s with userCredential := u } :=
  { Spares.refl s with
    userCredential := h
    strangers := fun hs staff hstaff horg id hid hacc =>
      hs staff hstaff horg id hid ((h.has_iff fun a b hab => ⟨hab.id, by rw [hab.orgId]⟩).mp hacc) }

end Spares

/-! ### Cascades -/

section Cascades
variable {tenant : String} {s : Db} (linked : Linked tenant s)
include linked

/-- None of the deleted staff members is the organisation's. -/
theorem deleteStaff_spares {gone : String → Bool} (stay : ∀ id, Employs tenant s id → gone id = false) :
    Spares tenant s (s.deleteStaff gone) where
  organization := .refl fun _ => rfl
  visit := .delete SameVisit.refl fun v hv horg => stay v.staffId (linked.visit v hv horg)
  notification := .delete (fun _ => rfl) fun n hn horg => by
    obtain ⟨hstaff, v, hv, hid, hvorg⟩ := linked.notification n hn horg
    have hhost : gone v.staffId = false := stay v.staffId (linked.visit v hv hvorg)
    rw [stay n.staffId hstaff, ← hid, find_of_mem hv]
    exact hhost
  attendanceSession := .delete (fun _ => rfl) fun x hx horg => stay x.staffId (linked.attendanceSession x hx horg)
  attendanceEvent := by
    refine EvolvesOn.trans (fun a b hab => by rw [hab]) Eq.trans
      (.delete (c := fun e => gone e.staffId) (fun _ => rfl) fun e he horg => stay e.staffId (linked.attendanceEvent e he horg).1)
      (.of_rows rfl (fun _ => rfl) fun e he hc => ?_)
    have hne : e.orgId ≠ tenant := fun horg => by
      obtain ⟨id, hid⟩ : ∃ id, e.sessionId = some id := Option.ne_none_iff_exists'.mp fun hnone => by simp [hnone] at hc
      obtain ⟨x, hx, rfl, hxorg⟩ := (linked.attendanceEvent e (mem_delete.mp he).1 horg).2 id hid
      rw [hid, Option.bind_some, find_of_mem hx, Option.any_some, stay x.staffId (linked.attendanceSession x hx hxorg)] at hc
      cases hc
    exact ⟨hne, hne⟩
  staff := .delete SameStaff.refl fun a ha horg => stay a.id ⟨a, ha, rfl, horg⟩
  workingHours := .delete (fun _ => rfl) fun hours _ hof => by
    rcases hof with ⟨-, hnone⟩ | ⟨-, id, hid, hemployed⟩
    · rw [hnone]
      rfl
    · rw [hid]
      exact stay id hemployed
  userCredential := .refl SameAccount.refl
  strangers hs a ha := hs a (mem_delete.mp ha).1

/-- The deleted account is not the organisation's. -/
theorem deleteUser_spares {id : String} (other : ¬Accounts tenant s id) : Spares tenant s (s.deleteUser id) := by
  have staff : Spares tenant s (s.deleteStaff fun staffId => (s.staff.find staffId).any (·.userId == some id)) := by
    refine deleteStaff_spares linked fun staffId hemployed => ?_
    obtain ⟨a, ha, rfl, horg⟩ := hemployed
    rw [find_of_mem ha, Option.any_some, beq_eq_false_iff_ne]
    exact fun hid => other (linked.staff a ha horg id hid)
  have users : s.userCredential.EvolvesOn (·.orgId = some tenant) SameAccount (s.userCredential.delete (·.id == id)) :=
    .delete SameAccount.refl fun a ha horg => beq_eq_false_iff_ne.mpr fun hid => other ⟨a, ha, hid, horg⟩
  exact { staff with
    userCredential := users
    strangers := fun hs a ha horg user huser hacc => staff.strangers hs a ha horg user huser <|
      (users.has_iff fun a b hab => ⟨hab.id, by rw [hab.orgId]⟩).mp hacc }

end Cascades

/-! ### Changes -/

/-- The changes that leave what belongs to an organisation alone, whatever they are about. -/
def Kind.Apart : Kind → Prop
  | addVisit | endVisit | decideVisit | notify | answerNotifications | dropNotification | openSession | closeSession | recordEvent
  | addStaff | updateStaff | addUser | updateUser | setStaffHours | dropStaff | dropUser | addOrganization | editOrganization
  | limitOrganization | setOrganizationHours | dropOrganization => False
  | _ => True

theorem Change.spares {orgId : String} {s t : Db} {k : Kind} (h : Change s k t) (apart : k.Apart) : Spares orgId s t := by
  cases h <;> first
    | exact apart.elim
    | exact { Spares.refl s with }
    | skip
  case addRoot user u role stored =>
    exact .withUser (.insert stored SameAccount.refl (by rw [role.2]; simp))
  case setPassword u users =>
    exact .withUser (.of_evolves users fun a _ b ⟨password, hb⟩ _ => ⟨password, a.firstTimeLogin, hb⟩)
  case setReady u users =>
    refine .withUser (.of_evolves users fun a _ b hab _ => ?_)
    rcases hab with rfl | rfl
    · exact .refl b
    · exact ⟨a.password, some false, rfl⟩
  case dropDepartment id u staff =>
    have same (a b : Staff) (hab : WithoutDepartment id a b) : SameStaff a b := by
      rcases hab with rfl | ⟨rfl, -⟩
      · exact Or.inr rfl
      · exact .refl b
    refine { Spares.refl s with
      staff := .of_evolves staff fun a _ b hab _ => same a b hab
      strangers := fun hs b hb horg user hid => ?_ }
    obtain ⟨a, ha, hab⟩ := staff.only b hb
    have hcolumns := (same a b hab).columns
    exact hs a ha (hcolumns.2.1 ▸ horg) user (hcolumns.2.2 ▸ hid)
  case dropReason id u visits =>
    refine { Spares.refl s with visit := .of_evolves visits fun v _ w hvw _ => ?_ }
    rcases hvw with rfl | ⟨rfl, -⟩
    · exact Or.inr rfl
    · exact .refl w

theorem spares_of_within {α : Type} {orgId : String} {K : Kind → Prop} {p : Service α} (hp : p.Within (Changes K))
    (apart : ∀ k, K k → k.Apart) : p.Within (Spares orgId) :=
  Changes.within hp Spares.refl Spares.trans fun _ _ _ hk hchange => hchange.spares (apart _ hk)

end Vms.Server
