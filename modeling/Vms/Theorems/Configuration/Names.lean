import Vms.Lib.System
import Vms.Configuration

/-! Names of departments and of reasons of visit that differ in case or in the spaces around them. A creation
    looks for a row under the name as it is given, so the comparison of the normalised names after the
    lookup never says no; two spellings of a name are kept apart only if nobody uses a second one. -/

namespace Vms.Configuration
open Relational HttpException DepartmentService ReasonService

/-! ### Requests -/

/-- A request about a listing. -/
inductive Change (α : Type) where
  | add (io : Listing.Io α) (orgId : Option String) (userId role name : String) (qOrgId : Option String)
  | addBulk (io : Listing.Io α) (orgId : Option String) (role : String) (names : List String) (qOrgId : Option String)
  | delete (orgId : Option String) (userId role id : String) (qOrgId : Option String)

def departmentCall (js : Js) : Change Department → Service Unit
  | .add io orgId userId role name qOrgId => do let _ ← createDepartment js io orgId userId role { name } qOrgId
  | .addBulk io orgId role names qOrgId => do let _ ← addDepartmentBulk js io orgId role (names.map CreateDepartmentDto.mk) qOrgId
  | .delete orgId userId role id qOrgId => deleteDepartment orgId userId role id qOrgId

def reasonCall (js : Js) : Change ReasonOfVisit → Service Unit
  | .add io orgId userId role name qOrgId => do let _ ← addReason js io orgId userId role { name } qOrgId
  | .addBulk io orgId role names qOrgId => do let _ ← addReasonBulk js io orgId role (names.map AddReasonDto.mk) qOrgId
  | .delete orgId userId role id qOrgId => deleteReason orgId userId role id qOrgId

section Listings
variable {α : Type} [Row α]

/-- The organisation that the request acts for. -/
def Change.target : Change α → Option String
  | .add _ orgId _ role _ qOrgId => truthy (targetOrgId orgId role qOrgId)
  | .addBulk _ orgId role _ qOrgId => truthy (targetOrgId orgId role qOrgId)
  | .delete orgId _ role _ qOrgId => truthy (targetOrgId orgId role qOrgId)

/-- The names that the request adds. -/
def Change.names : Change α → List String
  | .add _ _ _ _ name _ => [name]
  | .addBulk _ _ _ names _ => names
  | .delete .. => []

/-- No two rows of an organisation have the same normalised name. -/
def Distinct (L : Listing α) (js : Js) (s : Db) : Prop := ∀ a ∈ L.table s, ∀ b ∈ L.table s, L.orgId a = L.orgId b →
  Listing.normalized js (L.name a) = Listing.normalized js (L.name b) → a = b

/-- The request spells its names as the organisation already does, and each in one way. -/
def Alike (L : Listing α) (js : Js) (s : Db) (c : Change α) : Prop := ∀ orgId, c.target = some orgId → ∀ name ∈ c.names,
  (∀ a ∈ L.table s, L.orgId a = orgId → Listing.normalized js (L.name a) = Listing.normalized js name → L.name a = name) ∧
  ∀ other ∈ c.names, Listing.normalized js other = Listing.normalized js name → other = name

/-- What is stored is what is read, and a row has the organisation and the name that it is created with. -/
structure Lawful (L : Listing α) : Prop where
  row_orgId : ∀ id orgId name, L.orgId (L.row id orgId name) = orgId
  row_name : ∀ id orgId name, L.name (L.row id orgId name) = name
  table_store : ∀ u s, L.table (L.store u s) = u
  table_unlink : ∀ id s, L.table (L.unlink id s) = L.table s

theorem lawful_departments : Lawful departments := ⟨fun _ _ _ => rfl, fun _ _ _ => rfl, fun _ _ => rfl, fun _ _ => rfl⟩

theorem lawful_reasons : Lawful reasons := ⟨fun _ _ _ => rfl, fun _ _ _ => rfl, fun _ _ => rfl, fun _ _ => rfl⟩

/-! ### One request -/

/-- The rows that are added: each has one of the names, which no other row of the organisation has. -/
structure Grows (L : Listing α) (orgId : String) (names : List String) (s t : Db) : Prop where
  kept : ∀ a ∈ L.table s, a ∈ L.table t
  named : ∀ a ∈ L.table t, a ∉ L.table s → L.orgId a = orgId ∧ L.name a ∈ names
  once : ∀ a ∈ L.table t, a ∉ L.table s → ∀ b ∈ L.table t, L.orgId b = L.orgId a → L.name b = L.name a → b = a

/-- The organisation has a row of this name. -/
def Listed (L : Listing α) (orgId name : String) (s : Db) : Prop := ∃ a ∈ L.table s, L.orgId a = orgId ∧ L.name a = name

section Grows
variable {L : Listing α} {js : Js} {s t u : Db} {orgId name : String} {names : List String}

theorem Grows.refl : Grows L orgId names s s := ⟨fun _ h => h, fun _ h hn => absurd h hn, fun _ h hn => absurd h hn⟩

theorem Grows.trans (h : Grows L orgId names s t) (h' : Grows L orgId names t u) : Grows L orgId names s u where
  kept a ha := h'.kept a (h.kept a ha)
  named a ha hnew := by
    by_cases hat : a ∈ L.table t
    · exact h.named a hat hnew
    · exact h'.named a ha hat
  once a ha hnew b hb horg hname := by
    by_cases hat : a ∈ L.table t
    · by_cases hbt : b ∈ L.table t
      · exact h.once a hat hnew b hbt horg hname
      · exact (h'.once b hb hbt a ha horg.symm hname.symm).symm
    · exact h'.once a ha hat b hb horg hname

theorem Grows.mono {names' : List String} (h : Grows L orgId names s t) (hsub : ∀ n ∈ names, n ∈ names') :
    Grows L orgId names' s t :=
  ⟨h.kept, fun a ha hnew => ⟨(h.named a ha hnew).1, hsub _ (h.named a ha hnew).2⟩, h.once⟩

theorem Listed.kept (h : Listed L orgId name s) (grows : Grows L orgId names s t) : Listed L orgId name t := by
  obtain ⟨a, ha, hof⟩ := h
  exact ⟨a, grows.kept a ha, hof⟩

/-- A row whose name no row of the organisation has. -/
theorem grows_insert (lawful : Lawful L) {id : String} {table : Table α} (free : ¬Listed L orgId name s)
    (h : (L.table s).insert (L.row id orgId name) = some table) : Grows L orgId [name] s (L.store table s) := by
  have hrow : ∀ a ∈ table, a ∉ L.table s → a = L.row id orgId name := fun a ha hnew =>
    ((Table.mem_insert h).mp ha).resolve_left hnew
  constructor
  · intro a ha
    rw [lawful.table_store]
    exact (Table.mem_insert h).mpr (Or.inl ha)
  · intro a ha hnew
    rw [lawful.table_store] at ha
    rw [hrow a ha hnew, lawful.row_orgId, lawful.row_name]
    exact ⟨rfl, List.mem_singleton.mpr rfl⟩
  · intro a ha hnew b hb horg hname
    rw [lawful.table_store] at ha hb
    obtain rfl := hrow a ha hnew
    rw [lawful.row_orgId] at horg
    rw [lawful.row_name] at hname
    rcases (Table.mem_insert h).mp hb with hb | hb
    · exact absurd ⟨b, hb, horg, hname⟩ free
    · exact hb

/-- Names that are spelled alike stay distinct. -/
theorem Grows.distinct (h : Grows L orgId names s t) (distinct : Distinct L js s) (alike : ∀ name ∈ names,
    (∀ a ∈ L.table s, L.orgId a = orgId → Listing.normalized js (L.name a) = Listing.normalized js name → L.name a = name) ∧
    ∀ other ∈ names, Listing.normalized js other = Listing.normalized js name → other = name) : Distinct L js t := by
  -- a new row has the spelling of every row with its normalised name
  have new : ∀ a ∈ L.table t, a ∉ L.table s → ∀ b ∈ L.table t, L.orgId b = L.orgId a →
      Listing.normalized js (L.name b) = Listing.normalized js (L.name a) → b = a := by
    intro a ha hnew b hb horg hnorm
    obtain ⟨haorg, haname⟩ := h.named a ha hnew
    refine h.once a ha hnew b hb horg ?_
    by_cases hbs : b ∈ L.table s
    · exact (alike _ haname).1 b hbs (horg.trans haorg) hnorm
    · exact (alike _ haname).2 _ (h.named b hb hbs).2 hnorm
  intro a ha b hb horg hnorm
  by_cases has : a ∈ L.table s
  · by_cases hbs : b ∈ L.table s
    · exact distinct a has b hbs horg hnorm
    · exact new b hb hbs a ha horg hnorm
  · exact (new a ha has b hb horg.symm hnorm.symm).symm

/-- Where all names are stored and distinct, they are spelled alike. -/
theorem Grows.alike (h : Grows L orgId names s t) (distinct : Distinct L js t) (listed : ∀ name ∈ names, Listed L orgId name t)
    {name : String} (hname : name ∈ names) :
    (∀ a ∈ L.table s, L.orgId a = orgId → Listing.normalized js (L.name a) = Listing.normalized js name → L.name a = name) ∧
    ∀ other ∈ names, Listing.normalized js other = Listing.normalized js name → other = name := by
  obtain ⟨b, hb, hborg, rfl⟩ := listed _ hname
  refine ⟨fun a ha haorg hnorm => ?_, fun other hother hnorm => ?_⟩
  · rw [distinct a (h.kept a ha) b hb (haorg.trans hborg.symm) hnorm]
  · obtain ⟨a, ha, haorg, rfl⟩ := listed _ hother
    rw [distinct a ha b hb (haorg.trans hborg.symm) hnorm]

end Grows

section Requests
variable {L : Listing α} {js : Js} {io : Listing.Io α} {s : Db} {orgId : String} {names : List String}

/-- Who a request acts for is known from the request alone. -/
theorem authorize_post {orgId : Option String} {userId role message : String} {qOrgId : Option String}
    {allowedRoles : List String} : (authorize orgId userId role qOrgId allowedRoles message).Post
      (AllOrNothing s fun o t => t = s ∧ truthy (targetOrgId orgId role qOrgId) = some o) s := by
  by_cases hroot : role = "Root"
  · simp only [authorize, checkUser, hroot, Prog.post_bind, Prog.post_orFail, Prog.post_failIf, Prog.then_ok, Prog.then_error,
      allOrNothing_error, allOrNothing_ok, Prog.post_pure, ne_eq, not_true_eq_false, if_false, true_and, implies_true]
    exact fun o ho _ => ho
  · simp only [authorize, checkUser, hroot, Prog.post_bind, Prog.post_orFail, Prog.post_failIf, Prog.then_ok, Prog.then_error,
      allOrNothing_error, allOrNothing_ok, Prog.post_pure, post_query, ne_eq, not_false_eq_true, if_true, true_and, and_true,
      implies_true]
    exact fun o ho _ _ _ _ => ho

/-- The lookup finds a row exactly if one has the name as it is given: its normalised name is then the same. -/
theorem exists?_spec {name : String} {Q : Except HttpException Bool → Db → Prop} (fails : Q (.error connectionLost) s)
    (done : ∀ b, (b = true ↔ Listed L orgId name s) → Q (.ok b) s) : (L.exists? js io orgId name).Post Q s := by
  simp only [Listing.exists?, Prog.post_bind, post_query, Prog.then_ok, Prog.then_error, Prog.post_pure]
  refine ⟨done _ ?_, fails⟩
  cases hfirst : io.order.first ((L.table s).filter fun a => L.orgId a == orgId && L.name a == name) with
  | none =>
    have hnil := RowOrder.first_eq_none.mp hfirst
    refine iff_of_false (by simp) ?_
    rintro ⟨a, ha, horg, hname⟩
    have hmem : a ∈ (L.table s).filter fun a => L.orgId a == orgId && L.name a == name :=
      Table.mem_filter.mpr ⟨ha, by simp [horg, hname]⟩
    rw [hnil] at hmem
    cases hmem
  | some a =>
    obtain ⟨ha, hof⟩ := Table.mem_filter.mp (RowOrder.mem_of_first hfirst)
    have hof : L.orgId a = orgId ∧ L.name a = name := by simpa using hof
    exact iff_of_true (by simp [hof.2]) ⟨a, ha, hof⟩

theorem create_grows (lawful : Lawful L) {id name : String} (free : ¬Listed L orgId name s) :
    (L.create (L.row id orgId name)).Post
      (AllOrNothing s fun _ t => Grows L orgId [name] s t ∧ Listed L orgId name t) s := by
  simp only [Listing.create, post_mutate, created_eq_ok, allOrNothing_ok, allOrNothing_error, implies_true, true_and, and_true]
  rintro _ t ⟨-, -, table, htable, rfl⟩
  refine ⟨grows_insert lawful free htable, L.row id orgId name, ?_, lawful.row_orgId id orgId name, lawful.row_name id orgId name⟩
  rw [lawful.table_store]
  exact (Table.mem_insert htable).mpr (Or.inr rfl)

theorem add_grows (lawful : Lawful L) {userId role name taken : String} {orgId qOrgId : Option String} :
    (L.add js io orgId userId role name qOrgId taken).Post (AllOrNothing s fun _ t =>
      ∃ o, truthy (targetOrgId orgId role qOrgId) = some o ∧ Grows L o [name] s t ∧ Listed L o name t) s := by
  rw [Listing.add, Prog.post_bind]
  refine authorize_post.mono fun r t hr => ?_
  rcases r with e | o
  · exact hr
  obtain ⟨rfl, ho⟩ := hr
  rw [Prog.then_ok, Prog.post_bind]
  refine exists?_spec rfl fun b hb => ?_
  simp only [Prog.then_ok, Prog.post_bind, Prog.post_failIf, Prog.then_error, allOrNothing_error, implies_true, true_and]
  intro hfree
  exact Post.allOrNothing (create_grows lawful fun hlisted => hfree (hb.mpr hlisted)) fun _ _ h => ⟨o, ho, h⟩

/-- One entry: its name is then listed. -/
theorem addOne_grows (lawful : Lawful L) {name : String} {i : Nat} : (L.addOne js io orgId name i).Post
    (AllOrNothing s fun _ t => Grows L orgId [name] s t ∧ Listed L orgId name t) s := by
  rw [Listing.addOne, Prog.post_bind]
  refine exists?_spec rfl fun b hb => ?_
  rw [Prog.then_ok]
  split
  · rename_i hlisted
    exact ⟨Grows.refl, hb.mp hlisted⟩
  · rename_i hfree
    rw [Prog.post_bind]
    refine (create_grows lawful fun hlisted => hfree (hb.mpr hlisted)).mono fun r t hr => ?_
    cases r with
    | error e => exact hr
    | ok a => exact hr

/-- The loop is an induction on the names that are left; what fails leaves the entries before it. -/
theorem addEach_grows (lawful : Lawful L) {i : Nat} {results : List (Listing.Result α)} :
    (L.addEach js io orgId names i results).Post (fun r t => Grows L orgId names s t ∧
      ∀ done, r = .ok done → ∀ name ∈ names, Listed L orgId name t) s := by
  induction names generalizing i results s with
  | nil => exact ⟨Grows.refl, fun _ _ _ h => absurd h List.not_mem_nil⟩
  | cons name names ih =>
    rw [Listing.addEach, Prog.post_bind]
    refine (addOne_grows lawful).mono fun r t hr => ?_
    cases r with
    | error e =>
      obtain rfl : t = s := hr
      exact ⟨Grows.refl, fun _ h => by cases h⟩
    | ok result =>
      obtain ⟨hgrows, hlisted⟩ := hr
      refine ih.mono fun r u hu => ?_
      have hrest : Grows L orgId (name :: names) t u := hu.1.mono fun n hn => List.mem_cons_of_mem _ hn
      refine ⟨(hgrows.mono fun n hn => ?_).trans hrest, fun done hdone n hn => ?_⟩
      · rw [List.mem_singleton.mp hn]
        exact List.mem_cons_self
      · rcases List.mem_cons.mp hn with rfl | hn
        · exact hlisted.kept hrest
        · exact hu.2 done hdone n hn

theorem addBulk_grows (lawful : Lawful L) {role : String} {orgId qOrgId : Option String} :
    (L.addBulk js io orgId role names qOrgId).Post (fun r t => (t = s ∧ ∀ reply, r ≠ .ok reply) ∨
      ∃ o, truthy (targetOrgId orgId role qOrgId) = some o ∧ Grows L o names s t ∧
        ∀ reply, r = .ok reply → ∀ name ∈ names, Listed L o name t) s := by
  simp only [Listing.addBulk, Prog.post_bind, Prog.post_orFail, Prog.post_failIf, Prog.then_ok, Prog.then_error, post_query,
    true_and, ne_eq, reduceCtorEq, not_false_eq_true, implies_true, true_or, and_true]
  intro o ho _ organization _
  refine (addEach_grows lawful).mono fun r t hr => ?_
  cases r with
  | error e => exact Or.inr ⟨o, ho, hr.1, fun _ h => by cases h⟩
  | ok results => exact Or.inr ⟨o, ho, hr.1, fun _ _ => hr.2 results rfl⟩

end Requests

/-- What a request does to a listing: it adds rows under its names, all of them if it succeeds; or it adds none. -/
def Changes (L : Listing α) (c : Change α) (s : Db) (r : Except HttpException Unit) (t : Db) : Prop :=
  (∃ orgId, c.target = some orgId ∧ Grows L orgId c.names s t ∧ (r = .ok () → ∀ name ∈ c.names, Listed L orgId name t)) ∨
  ((∀ a ∈ L.table t, a ∈ L.table s) ∧ (r = .ok () → c.names = []))

section Changes
variable {L : Listing α} {js : Js} {s t : Db} {c : Change α} {r : Except HttpException Unit}

theorem changes_add (lawful : Lawful L) {io : Listing.Io α} {userId role name taken : String} {orgId qOrgId : Option String} :
    (do let _ ← L.add js io orgId userId role name qOrgId taken : Service Unit).Post
      (Changes L (.add io orgId userId role name qOrgId) s) s := by
  rw [Prog.post_bind]
  refine (add_grows lawful).mono fun r t hr => ?_
  cases r with
  | error e =>
    obtain rfl : t = s := hr
    exact Or.inr ⟨fun _ h => h, fun h => by cases h⟩
  | ok a =>
    obtain ⟨o, ho, hgrows, hlisted⟩ := hr
    refine Or.inl ⟨o, ho, hgrows, fun _ n hn => ?_⟩
    rw [List.mem_singleton.mp hn]
    exact hlisted

theorem changes_addBulk (lawful : Lawful L) {io : Listing.Io α} {role : String} {names : List String}
    {orgId qOrgId : Option String} : (do let _ ← L.addBulk js io orgId role names qOrgId : Service Unit).Post
      (Changes L (.addBulk io orgId role names qOrgId) s) s := by
  rw [Prog.post_bind]
  refine (addBulk_grows lawful).mono fun r t hr => ?_
  rcases hr with ⟨rfl, hfailed⟩ | ⟨o, ho, hgrows, hlisted⟩
  · cases r with
    | error e => exact Or.inr ⟨fun _ h => h, fun h => by cases h⟩
    | ok reply => exact absurd rfl (hfailed reply)
  · cases r with
    | error e => exact Or.inl ⟨o, ho, hgrows, fun h => by cases h⟩
    | ok reply => exact Or.inl ⟨o, ho, hgrows, fun _ => hlisted reply rfl⟩

theorem changes_remove (lawful : Lawful L) {userId role id message missing : String} {orgId qOrgId : Option String}
    {allowedRoles : List String} : (L.remove orgId userId role id qOrgId allowedRoles message missing).Post
      (Changes L (.delete orgId userId role id qOrgId) s) s := by
  have same : ∀ r, Changes L (.delete orgId userId role id qOrgId) s r s := fun r => Or.inr ⟨fun _ h => h, fun _ => rfl⟩
  rw [Listing.remove, Prog.post_bind]
  refine authorize_post.mono fun r t hr => ?_
  rcases r with e | o
  · obtain rfl : t = s := hr
    exact same _
  obtain ⟨rfl, -⟩ := hr
  simp only [Prog.then_ok, Prog.post_bind, post_query, Prog.post_orFail, Prog.then_error, Listing.delete, post_mutate_ite, same,
    implies_true, true_and, and_true]
  rintro row - -
  refine Or.inr ⟨fun a ha => ?_, fun _ => rfl⟩
  rw [lawful.table_unlink, lawful.table_store] at ha
  exact (Table.mem_delete.mp ha).1

/-- A request that spells its names alike keeps names distinct. -/
theorem Changes.distinct (h : Changes L c s r t) (distinct : Distinct L js s) (alike : Alike L js s c) : Distinct L js t := by
  rcases h with ⟨orgId, htarget, hgrows, -⟩ | ⟨hsub, -⟩
  · exact hgrows.distinct distinct (alike orgId htarget)
  · exact fun a ha b hb => distinct a (hsub a ha) b (hsub b hb)

/-- An accepted request keeps names distinct exactly if it spells them alike. -/
theorem Changes.distinct_iff (h : Changes L c s (.ok ()) t) (distinct : Distinct L js s) :
    Distinct L js t ↔ Alike L js s c := by
  refine ⟨fun distinct' orgId htarget name hname => ?_, h.distinct distinct⟩
  rcases h with ⟨orgId', htarget', hgrows, hlisted⟩ | ⟨-, hnone⟩
  · obtain rfl : orgId' = orgId := Option.some.inj (htarget'.symm.trans htarget)
    exact hgrows.alike distinct' (hlisted rfl) hname
  · rw [hnone rfl] at hname
    cases hname

end Changes

/-- The requests about a listing; any statement of a request may fail. -/
def naming (L : Listing α) (js : Js) (call : Change α → Service Unit) : System Db (Change α) where
  init := Distinct L js
  step s c t := ∃ r, Prog.Exec (call c) s r t

theorem distinct_of_reach {L : Listing α} {js : Js} {call : Change α → Service Unit}
    (changes : ∀ c s, (call c).Post (Changes L c s) s) {s : Db} (h : (naming L js call).Reach (Alike L js) s) : Distinct L js s :=
  h.invariant (fun _ hinit => hinit) fun s c t _ distinct alike hstep => by
    obtain ⟨r, hexec⟩ := hstep
    exact ((changes c s).of_exec hexec).distinct distinct alike

end Listings

theorem departmentCall_changes (js : Js) (c : Change Department) (s : Db) :
    (departmentCall js c).Post (Changes departments c s) s := by
  cases c with
  | add io orgId userId role name qOrgId => exact changes_add lawful_departments
  | addBulk io orgId role names qOrgId =>
    have hnames : (names.map CreateDepartmentDto.mk).map (·.name) = names := by simp [Function.comp_def]
    rw [departmentCall, addDepartmentBulk, hnames]
    exact changes_addBulk lawful_departments
  | delete orgId userId role id qOrgId => exact changes_remove lawful_departments

theorem reasonCall_changes (js : Js) (c : Change ReasonOfVisit) (s : Db) :
    (reasonCall js c).Post (Changes reasons c s) s := by
  cases c with
  | add io orgId userId role name qOrgId => exact changes_add lawful_reasons
  | addBulk io orgId role names qOrgId =>
    have hnames : (names.map AddReasonDto.mk).map (·.name) = names := by simp [Function.comp_def]
    rw [reasonCall, addReasonBulk, hnames]
    exact changes_addBulk lawful_reasons
  | delete orgId userId role id qOrgId => exact changes_remove lawful_reasons

/-! ### Every run -/

/-- In every run whose requests spell the names as the organisation already does, no two departments, and no two
    reasons of visit, of an organisation have the same normalised name; an accepted request keeps this
    exactly if it spells them so. -/
theorem names_distinct (js : Js) :
    ((∀ s, (naming departments js (departmentCall js)).Reach (Alike departments js) s → Distinct departments js s) ∧
      ∀ c s t, Distinct departments js s → Prog.Exec (departmentCall js c) s (.ok ()) t →
        (Distinct departments js t ↔ Alike departments js s c)) ∧
    ((∀ s, (naming reasons js (reasonCall js)).Reach (Alike reasons js) s → Distinct reasons js s) ∧
      ∀ c s t, Distinct reasons js s → Prog.Exec (reasonCall js c) s (.ok ()) t →
        (Distinct reasons js t ↔ Alike reasons js s c)) :=
  ⟨⟨fun _ => distinct_of_reach (departmentCall_changes js),
      fun c s _ distinct hexec => ((departmentCall_changes js c s).of_exec hexec).distinct_iff distinct⟩,
    ⟨fun _ => distinct_of_reach (reasonCall_changes js),
      fun c s _ distinct hexec => ((reasonCall_changes js c s).of_exec hexec).distinct_iff distinct⟩⟩

namespace Clinic

def db : Db where
  organization := {{ id := "clinic", name := "Clinic", email := "clinic@mail.com" }}

def js : Js where
  toLowerCase text := if text = "HR" then "hr" else text
  trim := id
  toLocaleString _ := ""

/-- The root user creates a department. -/
def create (id name : String) : Change Department :=
  .add { id := fun _ => id, order := .stored } none "root" "Root" name (some "clinic")

/-- The store after the creation of some departments. -/
def filled (names : List (String × String)) : Db :=
  names.foldl (fun s n => ((departmentCall js (create n.1 n.2)).run s).2) db

theorem distinct_db : Distinct departments js db := fun _ ha => absurd ha Table.not_mem_empty

theorem alike_first (id name : String) : Alike departments js db (create id name) := by
  intro orgId _ n hn
  refine ⟨fun a ha => absurd ha Table.not_mem_empty, fun other hother _ => ?_⟩
  rw [List.mem_singleton.mp hn, List.mem_singleton.mp hother]

theorem not_alike_second : ¬Alike departments js (filled [("1", "HR")]) (create "2" "hr") := fun h => by
  have hstored : ({ id := "1", orgId := "clinic", name := "HR" } : Department) ∈ (filled [("1", "HR")]).department := by decide
  have hname : "HR" = "hr" := (h "clinic" (by decide) "hr" (by decide)).1 _ hstored (by decide) (by decide)
  simp at hname

end Clinic

section Clinic
open Clinic

/-- The first department is alone; another spelling of its name makes a second one. -/
theorem names_distinct_clinic : Distinct departments Clinic.js (filled [("1", "HR")]) ∧
    ¬Distinct departments Clinic.js (filled [("1", "HR"), ("2", "hr")]) := by
  obtain ⟨⟨runs, accepted⟩, -⟩ := names_distinct Clinic.js
  have reach : (naming departments Clinic.js (departmentCall Clinic.js)).Reach (Alike departments Clinic.js)
      (filled [("1", "HR")]) := .step (.init distinct_db) (alike_first "1" "HR") ⟨_, Prog.exec_run _ _⟩
  have hfirst := runs _ reach
  have hok : ((departmentCall Clinic.js (create "2" "hr")).run (filled [("1", "HR")])).1 = .ok () := by decide
  have hexec : Prog.Exec (departmentCall Clinic.js (create "2" "hr")) (filled [("1", "HR")]) (.ok ())
      (filled [("1", "HR"), ("2", "hr")]) := hok ▸ Prog.exec_run _ _
  exact ⟨hfirst, fun h => not_alike_second ((accepted _ _ _ hfirst hexec).mp h)⟩

/-- Two departments whose names differ in case. -/
theorem names_not_distinct : ¬∀ (js : Js) (s : Db), (naming departments js (departmentCall js)).Reachable s →
    Distinct departments js s := fun h => by
  have reach : (naming departments Clinic.js (departmentCall Clinic.js)).Reachable (filled [("1", "HR"), ("2", "hr")]) :=
    .step (.step (.init distinct_db) trivial ⟨_, Prog.exec_run _ _⟩) trivial ⟨_, Prog.exec_run _ _⟩
  have hfirst : ({ id := "1", orgId := "clinic", name := "HR" } : Department) ∈
      (filled [("1", "HR"), ("2", "hr")]).department := by decide
  have hsecond : ({ id := "2", orgId := "clinic", name := "hr" } : Department) ∈
      (filled [("1", "HR"), ("2", "hr")]).department := by decide
  have hsame := h Clinic.js _ reach _ hfirst _ hsecond (by decide) (by decide)
  simp at hsame

end Clinic

end Vms.Configuration
