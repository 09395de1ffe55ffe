import AuditSphere.Findings.Listing

/-!
# The register of findings

`ReportsService.findings`: the findings with the totals of their severities, statuses and ages, for the
screen page by page, and for an export all at once.
-/

namespace AuditSphere.Reports

open Prisma Theory Shared Findings

/-- `reportRows`: an export is not cut into pages, but has a limit. -/
def reportRows {α : Type} (query : PaginationDto) (count : Service ℕ) (find : ℕ → ℕ → Service (List α)) (all : Bool) :
    Service (Page α) :=
  if !all then paginate query count find
  else do
    let total ← count
    if total > 10000 then
      throw (.badRequest "More than 10,000 records match. Narrow the report filters before exporting.")
    else do
      let items ← find 0 total
      pure ⟨items, total, 1, total⟩

/-- `FindingRegisterReportQueryDto`; `q` says which texts the search finds. -/
structure FindingRegisterReportQueryDto extends PaginationDto where
  status : Option FindingStatus := none
  severity : Option FindingSeverity := none
  q : Option (String → Bool) := none

/-- The columns by which the register sorts. -/
def reportColumns : List FindingColumn := [.dueDate, .severity, .status, .createdAt]

/-- The `where` of the register. -/
def reported (ctx : Ctx) (query : FindingRegisterReportQueryDto) (db : Db) (f : Finding) : Bool :=
  f.deletedAt.isNone && ObjectAccess.findingScope ctx db f && query.status.all (f.status = ·) &&
    query.severity.all (f.severity = ·) && query.q.all fun finds => finds f.title || finds f.reference

/-- A row of the register, with what is selected of it. -/
structure FindingRow where
  id : Uuid
  reference : String
  title : String
  severity : FindingSeverity
  status : FindingStatus
  dueDate : Option Date
  isRepeat : Bool
  engagement : Option (WithId Engagement)
  entity : Option (WithId AuditEntity)
  actionOwner : Option (WithId User)
  actionOwnerName : Option String

/-- The columns that are selected. -/
def findingRow (db : Db) (row : WithId Finding) : FindingRow where
  id := row.1
  reference := row.2.reference
  title := row.2.title
  severity := row.2.severity
  status := row.2.status
  dueDate := row.2.dueDate
  isRepeat := row.2.isRepeat
  engagement := related db.engagements (some row.2.engagementId)
  entity := related db.entities row.2.entityId
  actionOwner := related db.users row.2.actionOwnerId
  actionOwnerName := row.2.actionOwnerName

/-- What `findings` answers. -/
structure FindingsReport where
  generatedAt : Date
  bySeverity : List (FindingSeverity × ℕ)
  byStatus : List (FindingStatus × ℕ)
  ageing : List (String × ℕ)
  /-- The rows, each with its bucket. -/
  rows : Page (FindingRow × String)

/-- The buckets of the rows, counted. -/
def ageingCounts (now : Date) (items : List FindingRow) : List (String × ℕ) :=
  items.foldl (fun buckets item =>
    let bucket := ageingBucket item.dueDate now
    mapSet bucket ((mapGet bucket buckets).getD 0 + 1) buckets) (ageingBuckets.map fun b => (b, 0))

/-- `findings`. -/
def findings [Collation] (arrangement : Arrangement FindingColumn.value) (ctx : Ctx)
    (query : FindingRegisterReportQueryDto) (all : Bool) : Service FindingsReport := do
  let orderBy := parseSort FindingColumn.name query.sort reportColumns (.dueDate, .asc)
  let matching := fun db => ctx.findMany db.findings fun _ f => reported ctx query db f
  let bySeverity ← .read fun db => groupBy Finding.severity (matching db)
  let byStatus ← .read fun db => groupBy Finding.status (matching db)
  let rows ← reportRows query.toPaginationDto (.read fun db => (matching db).length) (fun skip take =>
    .read fun db => (arrangement.find orderBy (matching db) skip take).map (findingRow db)) all
  pure {
    generatedAt := ctx.now
    bySeverity
    byStatus
    ageing := ageingCounts ctx.now rows.items
    rows := { rows with items := rows.items.map fun item => (item, ageingBucket item.dueDate ctx.now) } }

end AuditSphere.Reports
