import Vms.SystemCode
import Vms.Theorems.Organization.SettingCode
import Vms.Theorems.Server.Profile
import Vms.Theorems.Server.Tenant

/-! The setting code that opens the settings of a system account. Whoever writes organisations at the same time, the code
    that is stored can be read, and it is one that somebody set who may. -/

namespace Vms.Server
open Relational Table HttpException Prog OrganizationService SystemService Hex

/-- The configuration that reads what the cipher of Node writes under the key. -/
def Node.env (node : Node) (key : String) : Env := { encryptionKey := some key, crypto := node.crypto }

/-- The setting code of the organisation reads as `code`. -/
def Opens (env : Env) (organization : Organization) (code : Option String) : Prop :=
  ∀ keyNotSet, settingCode env keyNotSet organization.settingCodeEncrypted = .ok code

/-- A request encrypts under the key, with an initialisation vector of the right length. -/
def Seals (node : Node) (key : String) (io : ChangeIo) : Prop :=
  io.encryptionKey = some key ∧ ∃ iv, iv.length = ivLength ∧ io.cipher = node.cipher iv

section Codes
variable {node : Node} {key : String} {io : ChangeIo}

theorem opens_encrypted (hkey : (fromHex key).length = 32) (seals : Seals node key io) {key' text data : String}
    (hset : truthy io.encryptionKey = some key') (h : encrypt io.cipher text key' = .ok data) {organization : Organization}
    (stored : organization.settingCodeEncrypted = some data) : Opens (Node.env node key) organization (some text) := by
  obtain ⟨hio, iv, hiv, hcipher⟩ := seals
  obtain rfl : key = key' := Option.some.inj (hio.symm.trans (truthy_eq_some.mp hset).1)
  rw [hcipher] at h
  intro keyNotSet
  rw [stored]
  exact settingCode_of_encrypt rfl rfl hkey hiv h keyNotSet

/-- An edit leaves the setting code, or sets the one of the request. -/
theorem opens_edited (hkey : (fromHex key).length = 32) (seals : Seals node key io) {js : Js} {dto : EditOrganizationDto}
    {key' : String} {code url : Option String} {limit : Option Int} (hset : truthy io.encryptionKey = some key')
    (hcode : newSettingCode js io dto.settingCode key' = .ok code) (organization : Organization) :
    (editedOrganization dto limit code url organization).settingCodeEncrypted = organization.settingCodeEncrypted ∨
      js.trim dto.settingCode ≠ "" ∧
        Opens (Node.env node key) (editedOrganization dto limit code url organization) (some dto.settingCode) := by
  unfold newSettingCode at hcode
  split at hcode
  · rename_i htrim
    cases hencrypt : encrypt io.cipher dto.settingCode key' with
    | error e =>
      rw [hencrypt] at hcode
      cases hcode
    | ok data =>
      rw [hencrypt] at hcode
      obtain rfl := Except.ok.inj hcode
      exact Or.inr ⟨htrim, opens_encrypted hkey seals hset hencrypt rfl⟩
  · obtain rfl := Except.ok.inj hcode
    exact Or.inl rfl

end Codes

/-! ### Requests -/

/-- The endpoint writes setting codes, if any, as the server is set up. -/
def Endpoint.Seals (node : Node) (key : String) : Endpoint → Prop
  | createOrganization io .. | editOrganizationDetails io .. => Server.Seals node key io
  | _ => True

def Request.Seals (node : Node) (key : String) : Request → Prop
  | authorized _ _ endpoint => endpoint.Seals node key
  | anyone _ => True

/-- The caller may edit the organisation: a root user, or a superadmin with an account of the organisation. -/
def MayEdit (belongs : (userId orgId : String) → Prop) (caller : Caller) (orgId : String) : Prop :=
  caller.role = some "Root" ∨ caller.role = some "SuperAdmin" ∧ ∃ userId, caller.userId = some userId ∧ belongs userId orgId

/-- The caller may set the setting code of the organisation, and the endpoint sets it. -/
def Endpoint.Sets (server : Server) (belongs : (userId orgId : String) → Prop) (caller : Caller) (orgId code : String) :
    Endpoint → Prop
  | createOrganization io dto _ => caller.role = some "Root" ∧ io.organizationId = orgId ∧ dto.settingCode = code
  | editOrganizationDetails _ id dto _ => MayEdit belongs caller orgId ∧ id = orgId ∧ dto.settingCode = code ∧
      server.js.trim code ≠ ""
  | _ => False

def Request.Sets (server : Server) (belongs : (userId orgId : String) → Prop) (orgId code : String) : Request → Prop
  | authorized now authorization endpoint => ∃ caller, sender server.jwt now authorization = some caller ∧
      endpoint.Sets server belongs caller orgId code
  | anyone _ => False

theorem Endpoint.respects_codes {server : Server} {caller : Caller} {node : Node} {key : String}
    {belongs : (userId orgId : String) → Prop} {has : (orgId : String) → Option String → Prop}
    (hkey : (fromHex key).length = 32) {endpoint : Endpoint} (seals : endpoint.Seals node key)
    (sets : ∀ orgId code, endpoint.Sets server belongs caller orgId code → has orgId (some code)) :
    endpoint.Respects server caller belongs fun organization =>
      ∃ code, has organization.id code ∧ Opens (Node.env node key) organization code := by
  cases endpoint
  case createOrganization io dto logo =>
    intro hroot key' data organization hset hencrypt hid _ stored
    exact ⟨_, sets _ _ ⟨hroot, hid.symm, rfl⟩, opens_encrypted hkey seals hset hencrypt stored⟩
  case editOrganizationDetails io orgId dto logo =>
    intro role hrole hcaller home key' code url limit organization hset hcode _ hid ⟨old, hold, opens⟩
    rcases opens_edited hkey seals hset hcode organization with hsame | ⟨htrim, opens'⟩
    · refine ⟨old, hold, fun keyNotSet => ?_⟩
      rw [hsame]
      exact opens keyNotSet
    · refine ⟨_, sets _ _ ⟨?_, hid.symm, rfl, htrim⟩, opens'⟩
      rcases List.mem_pair.mp hrole with rfl | rfl
      · exact Or.inl hcaller
      · exact Or.inr ⟨hcaller, hid ▸ home rfl⟩
  all_goals trivial

/-- An account of the organisation, or one that a request adds to it. -/
def Belongs {ι : Type} (server : Server) (requests : ι → Request) (s : Db) (userId orgId : String) : Prop :=
  Accounts orgId s userId ∨ ∃ i, (requests i).Enrols server userId orgId

/-- The setting codes that an organisation may have: its own, and those that requests set. -/
def HasCode {ι : Type} (server : Server) (requests : ι → Request) (env : Env) (s : Db) (orgId : String)
    (code : Option String) : Prop :=
  (∃ organization ∈ s.organization, organization.id = orgId ∧ Opens env organization code) ∨
    ∃ i text, code = some text ∧ (requests i).Sets server (Belongs server requests s) orgId text

/-- A system account of the organisation is let in with the setting code, and with nothing else. -/
theorem verifySettingsCode_returns {env : Env} {s : Db} {organization : Organization} {system : SystemCredential}
    {code : Option String} (horg : organization ∈ s.organization) (hsystem : system ∈ s.systemCredential)
    (hof : system.orgId = organization.id)
    (opens : Opens env organization code) (secretCode : Option (Option String)) :
    (verifySettingsCode env organization.id "System" system.id secretCode).Returns
      (fun r t => r = (if secretCode = some code then .ok () else .error (.badRequest "Secret code mismatch.")) ∧ t = s) s := by
  have hfind : s.systemCredential.find system.id = some system := find_eq_some.mpr ⟨hsystem, rfl⟩
  have hfound : s.organization.find organization.id = some organization := find_eq_some.mpr ⟨horg, rfl⟩
  have hcode := opens (.internalServerError "ENCRYPTION_KEY is not set in environment variables")
  unfold verifySettingsCode
  by_cases hsame : secretCode = some code <;> simp [hfind, hfound, hcode, hof, hsame]

/-- The stored code of an organisation reads as one that the organisation may have; a system account of the organisation is
    let in with it, and with nothing else. -/
def OpenWith (env : Env) (has : (orgId : String) → Option String → Prop) (s : Db) : Prop :=
  ∀ organization ∈ s.organization, ∃ code, has organization.id code ∧ Opens env organization code ∧
    ∀ system ∈ s.systemCredential, system.orgId = organization.id → ∀ secretCode,
      (verifySettingsCode env organization.id "System" system.id secretCode).Returns
        (fun r t => r = (if secretCode = some code then .ok () else .error (.badRequest "Secret code mismatch.")) ∧ t = s) s

/-- Whatever is requested at the same time, and in whatever order the accesses come and fail: the setting code of an
    organisation is the one that it had, or one that a root user or a superadmin of the organisation sets; and a system account
    is let in with it, and with nothing else. -/
theorem setting_codes_open {server : Server} {ι : Type} [DecidableEq ι] {requests : ι → Request} {node : Node} {key : String}
    {s : Db} {d : Threads ι Db HttpException Unit} (hkey : (fromHex key).length = 32) (seals : ∀ i, (requests i).Seals node key)
    (hs : ∀ organization ∈ s.organization, ∃ code, Opens (Node.env node key) organization code)
    (h : (Threads.interleaving ⟨s, fun i => serve server (requests i)⟩).Reachable d) :
    OpenWith (Node.env node key) (HasCode server requests (Node.env node key) s) d.state := by
  have respects (i : ι) : (requests i).Respects server (Belongs server requests s) fun organization =>
      ∃ code, HasCode server requests (Node.env node key) s organization.id code ∧ Opens (Node.env node key) organization code := by
    cases hrequest : requests i with
    | anyone endpoint => trivial
    | authorized now authorization endpoint =>
      intro caller hcaller
      have seals := seals i
      rw [hrequest] at seals
      refine Endpoint.respects_codes hkey seals fun orgId text hsets => Or.inr ⟨i, text, rfl, ?_⟩
      rw [hrequest]
      exact ⟨caller, hcaller, hsets⟩
  have start : Profiled (Belongs server requests s) (fun organization => ∃ code,
      HasCode server requests (Node.env node key) s organization.id code ∧ Opens (Node.env node key) organization code) s := by
    refine ⟨fun organization horg => ?_, fun user huser orgId hof => Or.inl ⟨user, huser, rfl, hof⟩⟩
    obtain ⟨code, opens⟩ := hs organization horg
    exact ⟨code, Or.inl ⟨organization, horg, rfl, opens⟩, opens⟩
  have enrols (i : ι) (userId orgId : String) (h : (requests i).Enrols server userId orgId) :
      Belongs server requests s userId orgId := Or.inr ⟨i, h⟩
  intro organization horg
  obtain ⟨code, has, opens⟩ := (profiled_of_reach respects enrols start h).organizations organization horg
  exact ⟨code, has, opens, fun system hsystem hof => verifySettingsCode_returns horg hsystem hof opens⟩

/-! ### Two superadmins -/

namespace Codes
open TwoCodes

def server : Server := { Office.server with js := { Office.server.js with trim := id } }

def superAdmin : JwtPayload := { orgId := some "office", userId := some "ann", role := some "SuperAdmin" }

def io (iv : List UInt8) : ChangeIo where
  organizationId := ""
  subscriptionId := ""
  workingHoursId _ := ""
  logoUrl := ""
  encryptionKey := some encryptionKey
  cipher := node.cipher iv
  newDate _ := none
  dateTime _ := none

/-- The edit leaves the limit of accounts as it is. -/
theorem no_limit : ∀ limit ∈ (none : Option Int), OrganizationService.minAccountLimit ≤ limit := by simp

def edit (iv : List UInt8) (settingCode : String) : Request :=
  .authorized 0 (Office.bearer superAdmin)
    (.editOrganizationDetails (io iv) "office" { timezone := "UTC", settingCode, accountLimit_min := no_limit } false)

/-- Two edits of one setting code at the same time. -/
def requests : Bool → Request
  | false => edit iv1234 "1234"
  | true => edit iv5678 "5678"

def db : Db := { Office.db with systemCredential := {{ id := "door", orgId := "office", email := "door@mail.com" }} }

/-- The accesses of the two in turn. -/
def after : Threads Bool Db HttpException Unit :=
  Threads.schedule ⟨db, fun i => serve server (requests i)⟩ [false, true, false, true, false, true, true, false]

theorem reachable_after : (Threads.interleaving ⟨db, fun i => serve server (requests i)⟩).Reachable after :=
  Threads.reachable_schedule (.init rfl) _

theorem seals (i : Bool) : (requests i).Seals node encryptionKey := by
  cases i
  · exact ⟨rfl, iv1234, rfl, rfl⟩
  · exact ⟨rfl, iv5678, rfl, rfl⟩

end Codes

open Codes TwoCodes in
theorem setting_codes_open_edits : OpenWith (Node.env node encryptionKey)
    (HasCode server requests (Node.env node encryptionKey) db) after.state := by
  refine setting_codes_open rfl seals (fun organization horg => ⟨none, fun keyNotSet => ?_⟩) reachable_after
  obtain rfl := mem_singleton.mp horg
  rfl

end Vms.Server
