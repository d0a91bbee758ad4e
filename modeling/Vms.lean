import Vms.Lib.Prog
import Vms.Schema
import Vms.Attendance
import Vms.Lib.System
import Vms.Theorems.Attendance.Step
import Vms.Theorems.Attendance.Invariant
import Vms.Theorems.Attendance.Days
import Vms.Theorems.Attendance.Closed
import Vms.Theorems.Attendance.Kiosk
import Vms.Theorems.Attendance.AppendOnly
import Vms.Theorems.Attendance.Exclusive
import Vms.Theorems.Attendance.Grammar
import Vms.Theorems.Visit.Step
import Vms.Theorems.Visit.Lifecycle
import Vms.Theorems.Visit.Tenancy
import Vms.Lib.Interleave
import Vms.Theorems.Visit.Decision
import Vms.Theorems.Visit.Admission
import Vms.Team
import Vms.Theorems.Team.Tenancy
import Vms.Configuration
import Vms.Theorems.Configuration.Tenancy
import Vms.Organization
import Vms.Theorems.Organization.Disclosure
import Vms.Lib.Acyclic
import Vms.Guard
import Vms.Theorems.Guard
import Vms.Auth
import Vms.Staff
import Vms.Theorems.Staff.Step
import Vms.Theorems.Staff.InStep
import Vms.Theorems.Staff.Hierarchy
import Vms.Theorems.Auth.Disabled
import Vms.Theorems.Team.Step
import Vms.Theorems.Team.Reporting
import Vms.Theorems.Team.Hierarchy
import Vms.Theorems.Team.MasterManager
import Vms.SystemSession
import Vms.Theorems.System.Step
import Vms.Theorems.System.Session
import Vms.Theorems.System.Refresh
import Vms.Lib.ReadCommitted
import Vms.Theorems.Attendance.DoubleTap
import Vms.AttendanceExport
import Vms.Theorems.Attendance.Export
import Vms.Theorems.Attendance.Offer
import Vms.OrganizationChange
import Vms.Plan
import Vms.Theorems.Organization.AccountLimit
import Vms.Theorems.Organization.Step
import Vms.Theorems.Organization.DisabledPlan
import Vms.Theorems.Visit.Throttle
import Vms.Theorems.Visit.CheckOut
import Vms.Theorems.Auth.Email
import Vms.Theorems.Organization.References
import Vms.Theorems.Attendance.Totals
import Vms.Theorems.Configuration.Names
import Vms.Theorems.Team.AllOrNothing
import Vms.Theorems.Visit.Failure
import Vms.Theorems.System.Logout
import Vms.Lib.OneTimeCode
import Vms.Theorems.Auth.ResetCode
import Vms.Theorems.Attendance.Timezone
import Vms.Theorems.Organization.WorkingHours
import Vms.Theorems.Visit.Reminder
import Vms.Theorems.Auth.Rotation
import Vms.Theorems.Auth.SingleUse
import Vms.Theorems.Attendance.LocalTotals
import Vms.Theorems.Staff.EmployeeCode
import Vms.Theorems.Team.Bulk
import Vms.Theorems.Team.EditTeam
import Vms.Theorems.Staff.BulkImport
import Vms.Theorems.Staff.BadRow
import Vms.Theorems.Staff.EditMember
import Vms.Theorems.Auth.RefusedLogin
import Vms.Theorems.Plan.Features
import Vms.StaffView
import Vms.Theorems.Staff.Today
import Vms.Lib.Tally
import Vms.Theorems.Visit.Leaderboard
import Vms.Lib.Hex
import Vms.Lib.Utf8
import Vms.Encryption
import Vms.Theorems.Organization.SettingCode
import Vms.Lib.RelyGuarantee
import Vms.Server
import Vms.Lib.Evolution
import Vms.Theorems.Server.Change
import Vms.Theorems.Server.Statement
import Vms.Theorems.Server.Step
import Vms.Theorems.Server.Authority
import Vms.Theorems.Server.Root
import Vms.Theorems.Server.Integrity
import Vms.Theorems.Server.History
import Vms.Theorems.Server.Tenant
import Vms.Theorems.Server.Isolation
import Vms.Theorems.Server.Account
import Vms.Theorems.Server.Notice
import Vms.SystemCode
import Vms.Theorems.Server.Code
import Vms.Lib.Overdraft
import Vms.Theorems.Server.Profile
import Vms.Theorems.Server.Limit
