import AuditSphere.Auth.Entra
import AuditSphere.Auth.ObjectAccess
import AuditSphere.Auth.Scopes
import AuditSphere.Auth.Service
import AuditSphere.Auth.Store
import AuditSphere.Comments.Internal
import AuditSphere.Comments.Service
import AuditSphere.Common.Crypto
import AuditSphere.Common.Dates
import AuditSphere.Common.Maps
import AuditSphere.Common.Months
import AuditSphere.Common.Pagination
import AuditSphere.Common.Redaction
import AuditSphere.Common.References
import AuditSphere.Common.Values
import AuditSphere.Controls.Effectiveness
import AuditSphere.Controls.Service
import AuditSphere.Controls.Updates
import AuditSphere.Db.Client
import AuditSphere.Db.Journal
import AuditSphere.Db.Numbered
import AuditSphere.Db.Schema
import AuditSphere.Documents.Context
import AuditSphere.Documents.Framing
import AuditSphere.Documents.Privacy
import AuditSphere.Documents.Queries
import AuditSphere.Documents.Restricted
import AuditSphere.Documents.Scanned
import AuditSphere.Documents.Service
import AuditSphere.Documents.Storage
import AuditSphere.Documents.Uploads
import AuditSphere.Engagements.Closure
import AuditSphere.Engagements.Codec
import AuditSphere.Engagements.History
import AuditSphere.Engagements.Lifecycle
import AuditSphere.Engagements.Listing
import AuditSphere.Engagements.Numbering
import AuditSphere.Engagements.Reporting
import AuditSphere.Engagements.Requests
import AuditSphere.Engagements.Service
import AuditSphere.Engagements.Team
import AuditSphere.Engagements.Work
import AuditSphere.Evidence.Lock
import AuditSphere.Evidence.Numbering
import AuditSphere.Evidence.Requests
import AuditSphere.Evidence.Service
import AuditSphere.Findings.Agreement
import AuditSphere.Findings.History
import AuditSphere.Findings.Lifecycle
import AuditSphere.Findings.Listing
import AuditSphere.Findings.Numbering
import AuditSphere.Findings.Operations
import AuditSphere.Findings.Recommendations
import AuditSphere.Findings.Requests
import AuditSphere.Findings.Service
import AuditSphere.Intelligence.Answers
import AuditSphere.Intelligence.Bounds
import AuditSphere.Intelligence.Draft
import AuditSphere.Intelligence.Filters
import AuditSphere.Intelligence.Index
import AuditSphere.Intelligence.Links
import AuditSphere.Intelligence.Merged
import AuditSphere.Intelligence.Negation
import AuditSphere.Intelligence.Provider
import AuditSphere.Intelligence.Query
import AuditSphere.Intelligence.Records
import AuditSphere.Intelligence.Register
import AuditSphere.Intelligence.Scope
import AuditSphere.Intelligence.Search
import AuditSphere.Intelligence.Walks
import AuditSphere.Jobs.Cadence
import AuditSphere.Jobs.Daily
import AuditSphere.Jobs.Events
import AuditSphere.Jobs.Reminders
import AuditSphere.Jobs.Runs
import AuditSphere.Library.Service
import AuditSphere.Library.Versions
import AuditSphere.Plans.Approval
import AuditSphere.Plans.Requests
import AuditSphere.Plans.Service
import AuditSphere.Plans.Starting
import AuditSphere.Prisma.Operations
import AuditSphere.Prisma.TenantExtension
import AuditSphere.Prisma.Where
import AuditSphere.Programs.Approval
import AuditSphere.Programs.Operations
import AuditSphere.Programs.Ordering
import AuditSphere.Programs.Requests
import AuditSphere.Programs.Service
import AuditSphere.Qr.Blocks
import AuditSphere.Qr.Codewords
import AuditSphere.Qr.Masks
import AuditSphere.Qr.Matrix
import AuditSphere.Qr.Message
import AuditSphere.Qr.Patterns
import AuditSphere.Qr.Penalty
import AuditSphere.Qr.Placement
import AuditSphere.Qr.Reader
import AuditSphere.Qr.ReedSolomon
import AuditSphere.Qr.RoundTrip
import AuditSphere.Qr.Zigzag
import AuditSphere.Records.Contents
import AuditSphere.Records.History
import AuditSphere.Records.Journal
import AuditSphere.Records.Links
import AuditSphere.Records.Numbering
import AuditSphere.Records.Paging
import AuditSphere.Reports.Findings
import AuditSphere.Reports.Overdue
import AuditSphere.Reports.Rollups
import AuditSphere.Requests.Calls
import AuditSphere.Requests.Documents
import AuditSphere.Requests.Numbering
import AuditSphere.Requests.Offered
import AuditSphere.Requests.Operations
import AuditSphere.Requests.Responses
import AuditSphere.Requests.Service
import AuditSphere.Risks.DefaultModel
import AuditSphere.Risks.HeatMap
import AuditSphere.Risks.Listing
import AuditSphere.Risks.Monotone
import AuditSphere.Risks.Scoring
import AuditSphere.Risks.Service
import AuditSphere.Sessions.Accounts
import AuditSphere.Sessions.Cache
import AuditSphere.Sessions.Families
import AuditSphere.Sessions.Lockout
import AuditSphere.Sessions.RecoveryCodes
import AuditSphere.Sessions.Requests
import AuditSphere.Sessions.Revocation
import AuditSphere.Sessions.Runs
import AuditSphere.Sessions.Tokens
import AuditSphere.Shared.Ageing
import AuditSphere.Shared.Workflows
import AuditSphere.Tenancy.Closure
import AuditSphere.Tenancy.Isolation
import AuditSphere.Tenancy.Reads
import AuditSphere.Tenancy.References
import AuditSphere.Theory.Bits
import AuditSphere.Theory.Blocks
import AuditSphere.Theory.Cadence
import AuditSphere.Theory.Calendar
import AuditSphere.Theory.Cells
import AuditSphere.Theory.Closure
import AuditSphere.Theory.Follow
import AuditSphere.Theory.Forest
import AuditSphere.Theory.Interleaving
import AuditSphere.Theory.Journal
import AuditSphere.Theory.Latest
import AuditSphere.Theory.Lockout
import AuditSphere.Theory.Marks
import AuditSphere.Theory.Numbering
import AuditSphere.Theory.Pages
import AuditSphere.Theory.Path
import AuditSphere.Theory.Table
import AuditSphere.Theory.Ties
import AuditSphere.Theory.Transactions
import AuditSphere.Theory.Trees
import AuditSphere.Theory.Truth
import AuditSphere.Theory.Walk
import AuditSphere.Theory.Yields
import AuditSphere.Timesheets.Calls
import AuditSphere.Timesheets.Frozen
import AuditSphere.Timesheets.Runs
import AuditSphere.Timesheets.Service
import AuditSphere.Timesheets.Totals
import AuditSphere.Timesheets.Weeks
import AuditSphere.Universe.Calls
import AuditSphere.Universe.Forest
import AuditSphere.Universe.Service
import AuditSphere.Universe.Tree
import AuditSphere.Users.Administration
import AuditSphere.Users.Emails
import AuditSphere.Users.Escalation
import AuditSphere.Users.Service
import AuditSphere.Web.Calls
import AuditSphere.Web.Client
import AuditSphere.Web.Session
import AuditSphere.Workflow.Offered
import AuditSphere.Workflow.Service
import AuditSphere.Workpapers.History
import AuditSphere.Workpapers.Lifecycle
import AuditSphere.Workpapers.Notes
import AuditSphere.Workpapers.Requests
import AuditSphere.Workpapers.Service
import AuditSphere.Workpapers.Versions
