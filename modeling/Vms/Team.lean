import Vms.Service

/-! The team service (`src/team/team.service.ts`): teams with a master manager, their members, and who
    reports to whom inside a team. -/

namespace Vms
open Relational HttpException

/-- The message of an exception; the database client words its own errors. -/
def HttpException.message (client : String → String) : HttpException → String
  | .badRequest message => message
  | .unauthorized message => message
  | .forbidden message => message
  | .notFound message => message
  | .conflict message => message
  | .internalServerError message => message
  | .error message => message
  | .prisma code => client code

namespace TeamService

structure CreateTeamDto where
  name : String
  masterManagerId : String

structure EditTeamDto where
  name : Option String := none
  masterManagerId : Option String := none

structure AddMembersDto where
  staffIds : List String

structure SetReportingDto where
  staffId : String
  managerIds : List String

structure BulkSetReportingDto where
  staffIds : List String
  managerIds : List String

structure RemoveReportingDto where
  staffId : String
  managerId : String

/-- What a request draws from outside: the identifiers of the rows it creates (of a member by its staff
    member, of a reporting by its manager), the orders in which rows are read, and the texts of database
    errors. -/
structure Io where
  teamId : String
  memberId : String → String
  reportingId : String → String
  staff : RowOrder Staff
  members : RowOrder TeamMember
  reporting : RowOrder TeamReporting
  client : String → String

structure AddMembersReply where
  teamId : String
  added : Int
  duplicates : List String
  skippedMasterManager : Int
  skippedInvalidStaff : Int
  deriving DecidableEq, Repr

structure SetReportingReply where
  assigned : Nat
  skipped : Nat
  deriving DecidableEq, Repr

/-- The outcome of a bulk request; a failure is a staff member with a reason. -/
structure Summary where
  assigned : Nat := 0
  skipped : Nat := 0
  failed : List (String × String) := []
  deriving DecidableEq, Repr

/-! ### Statements -/

def createTeam (team : Team) : Service Team :=
  mutate fun s => created ((s.organization.find team.orgId).isSome && (s.staff.find team.masterManagerId).isSome) team
    (s.team.insert team) fun u => { s with team := u }

def createTeamMember (member : TeamMember) : Service TeamMember :=
  mutate fun s => created ((s.team.find member.teamId).isSome && (s.staff.find member.staffId).isSome) member
    (s.teamMember.insert member) fun u => { s with teamMember := u }

/-- `createMany` with `skipDuplicates`. -/
def createTeamMembers (members : List TeamMember) : Service Unit :=
  mutate fun s =>
    if members.all fun member => (s.team.find member.teamId).isSome && (s.staff.find member.staffId).isSome then
      .ok ((), { s with teamMember := s.teamMember.insertAll members })
    else .error foreignKeyViolation

/-- `createMany` with `skipDuplicates`. -/
def createTeamReporting (reporting : List TeamReporting) : Service Unit :=
  mutate fun s =>
    if reporting.all fun link => (s.team.find link.teamId).isSome && (s.staff.find link.staffId).isSome &&
        (s.staff.find link.managerId).isSome && link.teamMemberId.all fun id => (s.teamMember.find id).isSome then
      .ok ((), { s with teamReporting := s.teamReporting.insertAll reporting })
    else .error foreignKeyViolation

def deleteTeamReporting (p : TeamReporting → Bool) : Service Unit :=
  mutate fun s => .ok ((), { s with teamReporting := s.teamReporting.delete p })

/-- The reporting rows that name a team member go with it. -/
def deleteTeamMember (memberId teamId : String) : Service Unit :=
  mutate fun s =>
    if ((s.teamMember.find memberId).filter (·.teamId == teamId)).isNone then .error rowNotFound
    else .ok ((), { s with
      teamMember := s.teamMember.delete (·.id == memberId)
      teamReporting := s.teamReporting.delete (·.teamMemberId == some memberId) })

/-- A reporting row goes with its team, and with the member of the team that it names. -/
def reportsUnder (s : Db) (teamId : String) (link : TeamReporting) : Bool :=
  link.teamId == teamId || link.teamMemberId.any fun id => (s.teamMember.find id).any (·.teamId == teamId)

def deleteTeamCascade (teamId : String) : Service Unit :=
  mutate fun s =>
    if (s.team.find teamId).isNone then .error rowNotFound
    else .ok ((), { s with
      team := s.team.delete (·.id == teamId)
      teamMember := s.teamMember.delete (·.teamId == teamId)
      teamReporting := s.teamReporting.delete (reportsUnder s teamId) })

def updateTeam (teamId : String) (dto : EditTeamDto) : Service Unit :=
  mutate fun s =>
    if (s.team.find teamId).isNone then .error rowNotFound
    else if (truthy dto.masterManagerId).all fun id => (s.staff.find id).isSome then
      .ok ((), { s with team := s.team.update (·.id == teamId) fun team => { team with
        name := (truthy dto.name).getD team.name
        masterManagerId := (truthy dto.masterManagerId).getD team.masterManagerId } })
    else .error foreignKeyViolation

/-- The member of a team for a staff member. -/
def findMember (teamId staffId : String) : Service (Option TeamMember) :=
  query fun s => s.teamMember.findBy fun member => member.teamId == teamId && member.staffId == staffId

/-! ### Teams -/

/-- The caller's organisation exists, and so does the caller in it. -/
def checkCredentials (orgId userId : String) : Service Unit := do
  let organizationExists ← query (·.organization.find orgId)
  let userExists ← query fun s => (s.userCredential.find userId).filter (·.orgId == some orgId)
  Prog.failIf (organizationExists.isNone ∨ userExists.isNone) (.badRequest "Invalid credentials.")

/-- The same check together with a team, which belongs to the caller's organisation. -/
def findTeam (orgId userId teamId : String) (error : HttpException) : Service Team := do
  let organization ← query (·.organization.find orgId)
  let user ← query fun s => (s.userCredential.find userId).filter (·.orgId == some orgId)
  let team ← query (·.team.find teamId)
  Prog.failIf (organization.isNone ∨ user.isNone) (.badRequest "Invalid credentials.")
  Prog.orFail error (team.filter (·.orgId == orgId))

def addTeam (io : Io) (orgId userId role : String) (createTeamDto : CreateTeamDto) : Service Team := do
  Prog.failIf (role ∉ ["SuperAdmin"]) (.unauthorized "Only superadmin is allowed to add team.")
  checkCredentials orgId userId
  -- the master manager is from the same organisation
  let masterManager ← query fun s => (s.staff.find createTeamDto.masterManagerId).filter (·.orgId == orgId)
  let _ ← Prog.orFail (.badRequest "Master manager not in organization.") masterManager
  let team ← createTeam { id := io.teamId, orgId, name := createTeamDto.name, masterManagerId := createTeamDto.masterManagerId }
  -- the master manager is a member
  let _ ← createTeamMember { id := io.memberId createTeamDto.masterManagerId, teamId := team.id,
                             staffId := createTeamDto.masterManagerId }
  return team

/-- A reporting row of the team that a member takes part in. -/
def involves (teamId : String) (member : TeamMember) (link : TeamReporting) : Bool :=
  link.teamId == teamId &&
    (link.staffId == member.staffId || link.managerId == member.staffId || link.teamMemberId == some member.id)

/-- Validate and clean up the new master manager. -/
def cleanUpNewManager (orgId teamId : String) : Option String → Service Unit
  | none => return ()
  | some masterManagerId => do
    let newManager ← query fun s => (s.staff.find masterManagerId).filter (·.orgId == orgId)
    let _ ← Prog.orFail (.badRequest "Master manager not in organization.") newManager
    let newManagerInTeam ← Prog.orFail (.badRequest "Selected master manager is not a team member.")
      (← findMember teamId masterManagerId)
    deleteTeamReporting (involves teamId newManagerInTeam)

/-- Clean up the old master manager, unless the request names the same one. -/
def cleanUpOldManager (team : Team) (teamId : String) (masterManagerId : Option String) : Service Unit :=
  if team.masterManagerId ≠ "" ∧ masterManagerId ≠ some team.masterManagerId then do
    match ← findMember teamId team.masterManagerId with
    | none => return ()
    | some oldManager => deleteTeamReporting (involves teamId oldManager)
  else return ()

def editTeam (orgId userId role teamId : String) (editTeamDto : EditTeamDto) : Service String := do
  Prog.failIf (role ≠ "SuperAdmin") (.unauthorized "Only superadmin can update team.")
  let team ← findTeam orgId userId teamId (.notFound "Team not found.")
  transaction do
    cleanUpNewManager orgId teamId (truthy editTeamDto.masterManagerId)
    cleanUpOldManager team teamId editTeamDto.masterManagerId
    updateTeam teamId editTeamDto
  return "Team updated successfully."

def deleteTeam (orgId userId role teamId : String) : Service Unit := do
  let allowedRoles := ["SuperAdmin", "Admin", "Root", "Staff"]
  Prog.failIf (role ∉ allowedRoles) (.unauthorized "Role not allowed.")
  checkCredentials orgId userId
  deleteTeamCascade teamId

/-! ### Members -/

def addMembers (io : Io) (orgId userId role teamId : String) (dto : AddMembersDto) : Service AddMembersReply := do
  Prog.failIf (role ∉ ["SuperAdmin"]) (.unauthorized "Only superadmin is allowed to add team.")
  checkCredentials orgId userId
  let team ← Prog.orFail (.notFound "Team not found.") (← query (·.team.find teamId))
  -- the staff members of the same organisation
  let validStaff ← query fun s => io.staff.rows (s.staff.filter fun staff => dto.staffIds.contains staff.id && staff.orgId == orgId)
  let validIds := validStaff.map (·.id)
  Prog.failIf (validIds.length = 0) (.badRequest "No valid staff provided.")
  -- the master manager is not added by hand
  let filteredIds := validIds.filter (· ≠ team.masterManagerId)
  let existingMembers ← query fun s => io.members.rows (s.teamMember.filter fun member =>
    member.teamId == teamId && filteredIds.contains member.staffId)
  let duplicates := existingMembers.map (·.staffId)
  let newStaffIds := filteredIds.filter fun id => !duplicates.contains id
  createTeamMembers (newStaffIds.map fun id => { id := io.memberId id, teamId, staffId := id })
  return {
    teamId
    added := newStaffIds.length
    duplicates
    skippedMasterManager := validIds.length - filteredIds.length
    skippedInvalidStaff := dto.staffIds.length - validIds.length }

def removeMember (orgId userId role teamId memberId : String) : Service String := do
  Prog.failIf (role ∉ ["SuperAdmin"]) (.unauthorized "Only superadmin is allowed to add team.")
  checkCredentials orgId userId
  let memberExistsInTeam ← query fun s => (s.teamMember.find memberId).filter (·.teamId == teamId)
  let memberExistsInTeam ← Prog.orFail (.notFound "Member does not exists.") memberExistsInTeam
  deleteTeamMember memberId teamId
  deleteTeamReporting (involves teamId memberExistsInTeam)
  return "Member deleted successfully."

/-! ### Reporting -/

/-- The new managers do not report to the staff member, and become the staff member's managers. -/
def assignManagers (io : Io) (teamId staffId teamMemberId : String) (newManagerIds : List String) :
    Service SetReportingReply := do
  let reverseReporting ← query fun s => s.teamReporting.filter fun link =>
    link.teamId == teamId && newManagerIds.contains link.staffId && link.managerId == staffId
  Prog.failIf (reverseReporting.length > 0) (.badRequest "Reverse reporting relationship detected.")
  createTeamReporting (newManagerIds.map fun managerId =>
    { id := io.reportingId managerId, teamId, staffId, managerId, teamMemberId := some teamMemberId })
  return { assigned := newManagerIds.length, skipped := 0 }

def setReporting (io : Io) (orgId userId role teamId : String) (dto : SetReportingDto) : Service SetReportingReply := do
  Prog.failIf (role ≠ "SuperAdmin") (.unauthorized "Only superadmin is allowed to assign reporting.")
  let team ← findTeam orgId userId teamId (.notFound "Team doesn't exist.")
  let staffTeamMember ← Prog.orFail (.badRequest "Staff is not a member of the team.") (← findMember teamId dto.staffId)
  Prog.failIf (dto.staffId ∈ dto.managerIds) (.badRequest "A staff member cannot report to themselves.")
  Prog.failIf (team.masterManagerId = dto.staffId) (.badRequest "Master manager cannot report to other managers.")
  -- the managers are in the team
  let validManagers ← query fun s => io.members.rows (s.teamMember.filter fun member =>
    member.teamId == teamId && dto.managerIds.contains member.staffId)
  let validManagerIds := validManagers.map (·.staffId)
  Prog.failIf (validManagerIds.length ≠ dto.managerIds.length)
    (.badRequest "One or more managers are not members of the team.")
  let existing ← query fun s => io.reporting.rows (s.teamReporting.filter fun link =>
    link.teamId == teamId && link.staffId == dto.staffId && validManagerIds.contains link.managerId)
  let alreadyAssigned := existing.map (·.managerId)
  let newManagerIds := validManagerIds.filter fun id => !alreadyAssigned.contains id
  -- nothing to assign is no error
  if newManagerIds.length = 0 then return { assigned := 0, skipped := alreadyAssigned.length }
  else assignManagers io teamId dto.staffId staffTeamMember.id newManagerIds

def Summary.add (summary : Summary) (result : SetReportingReply) : Summary :=
  if result.assigned = 0 then { summary with skipped := summary.skipped + 1 }
  else { summary with assigned := summary.assigned + result.assigned }

def Summary.fail (summary : Summary) (staffId message : String) : Summary :=
  { summary with failed := summary.failed ++ [(staffId, (truthy (some message)).getD "Failed to assign reporting")] }

/-- The loop of `setReportingBulk`; `io i` is what its `i`-th pass draws. -/
def setReportingEach (io : Nat → Io) (orgId userId role teamId : String) (managerIds : List String) :
    List String → Nat → Summary → Service Summary
  | [], _, summary => return summary
  | staffId :: staffIds, i, summary => do
    let summary ← Prog.orElse (do
      let result ← setReporting (io i) orgId userId role teamId { staffId, managerIds }
      return summary.add result) fun error => return summary.fail staffId (error.message (io i).client)
    setReportingEach io orgId userId role teamId managerIds staffIds (i + 1) summary

def setReportingBulk (io : Nat → Io) (orgId userId role teamId : String) (dto : BulkSetReportingDto) : Service Summary :=
  setReportingEach io orgId userId role teamId dto.managerIds dto.staffIds 0 {}

def removeReporting (io : Io) (orgId userId role teamId : String) (dto : RemoveReportingDto) : Service RemoveReportingDto := do
  Prog.failIf (role ≠ "SuperAdmin") (.unauthorized "Only SuperAdmin can remove reporting.")
  checkCredentials orgId userId
  let team ← query (·.team.find teamId)
  let _ ← Prog.orFail (.notFound "Team not found in organization.") (team.filter (·.orgId == orgId))
  let _ ← Prog.orFail (.badRequest "Staff is not a member of this team.") (← findMember teamId dto.staffId)
  let _ ← query fun s => s.teamMember.filter (·.teamId == teamId)
  let _ ← Prog.orFail (.badRequest "Manager is not a member of this team.") (← findMember teamId dto.managerId)
  let relationExists ← query fun s => io.reporting.first (s.teamReporting.filter fun link =>
    link.teamId == teamId && link.staffId == dto.staffId && link.managerId == dto.managerId)
  let _ ← Prog.orFail (.badRequest "Reporting relationship does not exist.") relationExists
  deleteTeamReporting fun link => link.teamId == teamId && link.staffId == dto.staffId && link.managerId == dto.managerId
  return dto

end TeamService
end Vms
