import AuditSphere.Common.Pagination
import AuditSphere.Risks.Service

/-!
# Lists of risks

`RisksService.list`, a page of the register.
-/

namespace AuditSphere.Risks

open Prisma Theory Shared

/-- `RiskListQueryDto`; `q` says which texts the search finds. -/
structure RiskListQueryDto where
  entityId : Option Uuid := none
  processId : Option Uuid := none
  categoryId : Option Uuid := none
  ownerId : Option Uuid := none
  rating : Option RiskRating := none
  status : Option RiskStatus := none
  q : Option (String → Bool) := none

/-- The `where` of `list`. -/
def listed (query : RiskListQueryDto) (r : Risk) : Bool :=
  r.deletedAt.isNone && query.entityId.all (r.entityId = some ·) && query.processId.all (r.processId = some ·) &&
    query.categoryId.all (r.categoryId = some ·) && query.ownerId.all (r.ownerId = some ·) &&
    query.rating.all (r.rating = ·) && query.status.all (r.status = ·) &&
    query.q.all fun finds => finds r.title || finds r.code

/-- The columns by which risks are sorted. -/
inductive RiskColumn where
  | code | title | rating | residualScore | inherentScore | lastAssessedAt | createdAt
  deriving DecidableEq

/-- The name of a column. -/
def RiskColumn.name : RiskColumn → String
  | .code => "code"
  | .title => "title"
  | .rating => "rating"
  | .residualScore => "residualScore"
  | .inherentScore => "inherentScore"
  | .lastAssessedAt => "lastAssessedAt"
  | .createdAt => "createdAt"

/-- The value of a column. -/
def RiskColumn.value : RiskColumn → Risk → Option SortValue
  | .code, r => some (.text r.code)
  | .title, r => some (.text r.title)
  | .rating, r => some (.number r.rating.ctorIdx)
  | .residualScore, r => some (.number r.residualScore)
  | .inherentScore, r => some (.number r.inherentScore)
  | .lastAssessedAt, r => r.lastAssessedAt.map fun d => .number d
  | .createdAt, r => some (.number r.createdAt)

/-- The columns by which `list` sorts. -/
def listColumns : List RiskColumn :=
  [.code, .title, .rating, .residualScore, .inherentScore, .lastAssessedAt, .createdAt]

/-- `list`, a page of it. -/
def listPage [Collation] (arrangement : Arrangement RiskColumn.value) (ctx : Ctx) (query : RiskListQueryDto)
    (paging : PaginationDto) : Method (Page RiskView) :=
  let orderBy := parseSort RiskColumn.name paging.sort listColumns (.residualScore, .desc)
  paginate paging (.read fun b => ctx.count b.risks fun _ r => listed query r) fun skip take =>
    .read fun b => (arrangement.find orderBy (ctx.findMany b.risks fun _ r => listed query r) skip take).map (view b)

end AuditSphere.Risks
