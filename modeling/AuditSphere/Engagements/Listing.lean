import AuditSphere.Common.Pagination
import AuditSphere.Engagements.Service

/-!
# Lists of engagements

`EngagementsService.list`, a page of it.
-/

namespace AuditSphere.Engagements

open Prisma Theory Shared

/-- `EngagementListQueryDto`; `q` says which texts the search finds. -/
structure EngagementListQueryDto where
  stage : Option EngagementStage := none
  status : Option EngagementStatus := none
  entityId : Option Uuid := none
  type : Option EngagementType := none
  leadId : Option Uuid := none
  mine : Option Bool := none
  q : Option (String → Bool) := none

/-- `buildEngagementWhere`. -/
def engagementWhere (query : EngagementListQueryDto) (userId : Uuid) (e : Engagement) : Bool :=
  e.deletedAt.isNone && query.stage.all (e.stage = ·) && query.status.all (e.status = ·) &&
    query.entityId.all (e.entityId = some ·) && query.type.all (e.type = ·) && query.leadId.all (e.leadId = some ·) &&
    (query.mine ≠ some true || e.leadId = some userId || e.managerId = some userId || e.partnerId = some userId ||
      decide (userId ∈ e.members)) &&
    query.q.all fun finds => finds e.title || finds e.auditNumber

/-- The `where` of `list`. -/
def listed (ctx : Ctx) (query : EngagementListQueryDto) (db : Db) (id : Uuid) (e : Engagement) : Bool :=
  engagementWhere query ctx.userId e && ObjectAccess.engagementScope ctx db id e

/-! ### Sorted pages -/

/-- The columns by which engagements are sorted. -/
inductive EngagementColumn where
  | auditNumber | title | stage | status | plannedStart | plannedEnd | createdAt | riskRating
  deriving DecidableEq

/-- The name of a column. -/
def EngagementColumn.name : EngagementColumn → String
  | .auditNumber => "auditNumber"
  | .title => "title"
  | .stage => "stage"
  | .status => "status"
  | .plannedStart => "plannedStart"
  | .plannedEnd => "plannedEnd"
  | .createdAt => "createdAt"
  | .riskRating => "riskRating"

/-- The value of a column. -/
def EngagementColumn.value : EngagementColumn → Engagement → Option SortValue
  | .auditNumber, e => some (.text e.auditNumber)
  | .title, e => some (.text e.title)
  | .stage, e => some (.number e.stage.ctorIdx)
  | .status, e => some (.number e.status.ctorIdx)
  | .plannedStart, e => e.plannedStart.map fun d => .number d
  | .plannedEnd, e => e.plannedEnd.map fun d => .number d
  | .createdAt, e => some (.number e.createdAt)
  | .riskRating, e => some (.number e.riskRating.ctorIdx)

/-- The columns by which `list` sorts. -/
def listColumns : List EngagementColumn :=
  [.auditNumber, .title, .stage, .status, .plannedStart, .plannedEnd, .createdAt, .riskRating]

/-- `list`, a page of it: the engagements, each with its progress. -/
def listPage [Collation] (arrangement : Arrangement EngagementColumn.value) (ctx : Ctx)
    (query : EngagementListQueryDto) (paging : PaginationDto) : Service (Page (EngagementView × ℕ)) := do
  let orderBy := parseSort EngagementColumn.name paging.sort listColumns (.createdAt, .desc)
  let page ← paginate paging (.read fun db => ctx.count db.engagements (listed ctx query db)) fun skip take =>
    .read fun db => (arrangement.find orderBy (ctx.findMany db.engagements (listed ctx query db)) skip take).map (view db)
  let progress ← .read fun db => progressFor ctx db
  pure { page with items := page.items.map fun e => (e, progress e.row.1) }

end AuditSphere.Engagements
