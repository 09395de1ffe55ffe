import AuditSphere.Common.Maps
import AuditSphere.Common.Pagination
import AuditSphere.Findings.Service

/-!
# Lists of findings

`FindingsService.list` with its order and its page, and `ageing`, the summary of how overdue the
findings are.
-/

namespace AuditSphere.Findings

open Prisma Theory Shared

/-! ### Sorted pages -/

/-- The columns by which findings are sorted. -/
inductive FindingColumn where
  | reference | title | severity | status | dueDate | createdAt | agreedAt | closedAt
  deriving DecidableEq

/-- The name of a column. -/
def FindingColumn.name : FindingColumn → String
  | .reference => "reference"
  | .title => "title"
  | .severity => "severity"
  | .status => "status"
  | .dueDate => "dueDate"
  | .createdAt => "createdAt"
  | .agreedAt => "agreedAt"
  | .closedAt => "closedAt"

/-- The value of a column. -/
def FindingColumn.value : FindingColumn → Finding → Option SortValue
  | .reference, f => some (.text f.reference)
  | .title, f => some (.text f.title)
  | .severity, f => some (.number f.severity.ctorIdx)
  | .status, f => some (.number f.status.ctorIdx)
  | .dueDate, f => f.dueDate.map fun d => .number d
  | .createdAt, f => some (.number f.createdAt)
  | .agreedAt, f => f.agreedAt.map fun d => .number d
  | .closedAt, f => f.closedAt.map fun d => .number d

/-- The columns by which `list` sorts. -/
def listColumns : List FindingColumn :=
  [.reference, .title, .severity, .status, .dueDate, .createdAt, .agreedAt, .closedAt]

/-- The `where` of `list`. -/
def listed (ctx : Ctx) (query : FindingListQueryDto) (db : Db) (f : Finding) : Bool :=
  findingsWhere query ctx f && ObjectAccess.findingScope ctx db f

/-- `list`, a page of it. -/
def listPage [Collation] (arrangement : Arrangement FindingColumn.value) (ctx : Ctx) (query : FindingListQueryDto)
    (paging : PaginationDto) : Service (Page AgedFinding) := do
  let orderBy := parseSort FindingColumn.name paging.sort listColumns (.createdAt, .desc)
  let page ← paginate paging (.read fun db => ctx.count db.findings fun _ f => listed ctx query db f) fun skip take =>
    .read fun db =>
      (arrangement.find orderBy (ctx.findMany db.findings fun _ f => listed ctx query db f) skip take).map (view db)
  pure { page with items := page.items.map fun v => (v, withAgeing v.row.2 ctx.now) }

/-! ### Ageing -/

/-- `OPEN_STATUSES`. -/
def openStatuses : List FindingStatus := [.draft, .managementReview, .agreed, .implementation, .validation]

/-- `groupBy` one column, with the counts; the order of the groups is left open. -/
def groupBy {κ ρ : Type} [BEq κ] (key : ρ → κ) (rows : List (WithId ρ)) : List (κ × ℕ) :=
  (rows.map fun r => key r.2).eraseDups.map fun k => (k, rows.countP fun r => key r.2 == k)

/-- What the loop of `ageing` counts. -/
structure Tally where
  bucketCounts : List (String × ℕ)
  overdueBySeverity : List (FindingSeverity × ℕ)
  overdueTotal : ℕ

/-- Before the loop. -/
def Tally.start : Tally := ⟨ageingBuckets.map fun b => (b, 0), [], 0⟩

/-- One turn of the loop. -/
def Tally.add (now : Date) (t : Tally) (f : Finding) : Tally :=
  let b := ageingBucket f.dueDate now
  let t := { t with bucketCounts := mapSet b ((mapGet b t.bucketCounts).getD 0 + 1) t.bucketCounts }
  if b = "NOT_DUE" then t
  else { t with
    overdueTotal := t.overdueTotal + 1
    overdueBySeverity :=
      mapSet f.severity ((mapGet f.severity t.overdueBySeverity).getD 0 + 1) t.overdueBySeverity }

/-- What `ageing` answers. -/
structure AgeingSummary where
  buckets : List (String × ℕ)
  /-- Of each severity, how many are open, and how many overdue. -/
  bySeverity : List (FindingSeverity × ℕ × ℕ)
  byStatus : List (FindingStatus × ℕ)
  overdueTotal : ℕ
  openTotal : ℕ

/-- The `where` of `ageing`, but for the status. -/
def aged (ctx : Ctx) (engagementId entityId : Option Uuid) (db : Db) (f : Finding) : Bool :=
  f.deletedAt.isNone && engagementId.all (f.engagementId = ·) && entityId.all (f.entityId = some ·) &&
    ObjectAccess.findingScope ctx db f

/-- The summary of the rows that the queries of `ageing` return. -/
def summary (now : Date) (opened : List Finding) (bySeverity : List (FindingSeverity × ℕ))
    (byStatus : List (FindingStatus × ℕ)) : AgeingSummary :=
  let t := opened.foldl (Tally.add now) Tally.start
  { buckets := ageingBuckets.map fun b => (b, (mapGet b t.bucketCounts).getD 0)
    bySeverity := bySeverity.map fun r => (r.1, r.2, (mapGet r.1 t.overdueBySeverity).getD 0)
    byStatus
    overdueTotal := t.overdueTotal
    openTotal := opened.length }

/-- `ageing`. -/
def ageing (ctx : Ctx) (engagementId entityId : Option Uuid) : Service AgeingSummary := do
  let opened ← .read fun db => (ctx.findMany db.findings fun _ f =>
    aged ctx engagementId entityId db f && f.status ∈ actionableStatuses).map Prod.snd
  let bySeverityRows ← .read fun db => groupBy Finding.severity (ctx.findMany db.findings fun _ f =>
    aged ctx engagementId entityId db f && f.status ∈ openStatuses)
  let byStatusRows ← .read fun db => groupBy Finding.status (ctx.findMany db.findings fun _ f =>
    aged ctx engagementId entityId db f)
  pure (summary ctx.now opened bySeverityRows byStatusRows)

/-- How many findings `ageing` counts as overdue. -/
theorem overdueTotal_summary (now : Date) (opened : List Finding) (bySeverity : List (FindingSeverity × ℕ))
    (byStatus : List (FindingStatus × ℕ)) : (summary now opened bySeverity byStatus).overdueTotal =
      opened.countP fun f => ageingBucket f.dueDate now ≠ "NOT_DUE" := by
  suffices ∀ t : Tally, (opened.foldl (Tally.add now) t).overdueTotal =
      t.overdueTotal + opened.countP fun f => ageingBucket f.dueDate now ≠ "NOT_DUE" by
    simpa [summary, Tally.start] using this Tally.start
  induction opened with
  | nil => intro t; rfl
  | cons f opened ih =>
    intro t
    rw [List.foldl_cons, ih, List.countP_cons, Tally.add]
    by_cases hbucket : ageingBucket f.dueDate now = "NOT_DUE"
    · simp [hbucket]
    · simp only [hbucket, if_false, ne_eq, not_false_eq_true, decide_true, if_true]
      omega

end AuditSphere.Findings
