import AuditSphere.Db.Client

/-!
# Access to single records

`ObjectAccessService`, as far as engagements, findings, requests and documents go. Users of the audit
function and of the committee see every record of their tenant; business owners and
management reviewers are confined to the records that concern them.

E-mail addresses compare without regard to the case of ASCII letters.
-/

namespace AuditSphere.ObjectAccess

open Prisma Theory Shared

/-- `AUDIT_FUNCTION_ROLES`. -/
def auditFunctionRoles : List String :=
  ["GLOBAL_ADMIN", "AUDIT_PARTNER", "CHIEF_AUDIT_EXECUTIVE", "AUDIT_MANAGER", "SENIOR_AUDITOR", "JUNIOR_AUDITOR"]

/-- `isPortalScoped`. -/
def isPortalScoped (ctx : Ctx) : Bool :=
  let isAuditFunction := ctx.roles.any fun role => role ∈ auditFunctionRoles
  let isCommittee := decide ("AUDIT_COMMITTEE_VIEWER" ∈ ctx.roles)
  let isManagementUser := decide ("BUSINESS_OWNER" ∈ ctx.roles) || decide ("MANAGEMENT_REVIEWER" ∈ ctx.roles)
  isManagementUser && !isAuditFunction && !isCommittee

/-- The column has the e-mail address of the user; no address matches nothing. -/
def byEmail (ctx : Ctx) (email : Option String) : Bool :=
  match ctx.email, email with
  | some mine, some theirs => mine ≠ "" && mine.toLower = theirs.toLower
  | _, _ => false

/-- `directEngagementScope`. -/
def directEngagementScope (ctx : Ctx) (e : Engagement) : Bool :=
  e.leadId = some ctx.userId || e.managerId = some ctx.userId || e.partnerId = some ctx.userId ||
    decide (ctx.userId ∈ e.members) || e.stakeholders.any fun s => s.userId = some ctx.userId || byEmail ctx s.email

/-- `directFindingOwnerScope`. -/
def directFindingOwnerScope (ctx : Ctx) (f : Finding) : Bool :=
  f.actionOwnerId = some ctx.userId || byEmail ctx f.actionOwnerEmail

/-- `findingScope`. -/
def findingScope (ctx : Ctx) (db : Db) (f : Finding) : Bool :=
  !isPortalScoped ctx || directFindingOwnerScope ctx f ||
    (db.engagements.find f.engagementId).any (directEngagementScope ctx)

/-- `requestScope`. -/
def requestScope (ctx : Ctx) (r : DocumentRequest) : Bool :=
  !isPortalScoped ctx || r.assigneeId = some ctx.userId || byEmail ctx r.assigneeEmail

/-- `engagementScope`. -/
def engagementScope (ctx : Ctx) (db : Db) (id : Uuid) (e : Engagement) : Bool :=
  !isPortalScoped ctx || directEngagementScope ctx e ||
    (db.requests.first fun _ r => r.engagementId = id && requestScope ctx r).isSome ||
    (db.findings.first fun _ f => f.engagementId = id && directFindingOwnerScope ctx f).isSome

/-- The user's private context for the assistant. -/
def ownContext (ctx : Ctx) (d : Document) : Bool :=
  d.ownerType = some "AiContext" && d.ownerId = some ctx.userId && d.uploadedById = ctx.userId

/-- `documentScope`: which documents the user may see. For a portal user it queries the
findings, their recommendations and the requests that concern the user. -/
def documentScope (ctx : Ctx) : Service (Uuid → Document → Bool) :=
  if !isPortalScoped ctx then
    pure fun _ d => d.ownerType ≠ some "AiContext" || ownContext ctx d
  else do
    let findingIds ← .read fun db =>
      (ctx.findMany db.findings fun _ f => f.deletedAt.isNone && findingScope ctx db f).map Prod.fst
    let requests ← .read fun db => ctx.findMany db.requests fun _ r => requestScope ctx r
    let recommendationIds ← if findingIds = [] then pure []
      else .read fun db => (ctx.findMany db.recommendations fun _ r => r.findingId ∈ findingIds).map Prod.fst
    pure fun id d => ownContext ctx d ||
      (d.ownerType = some "Finding" && d.ownerId.any (· ∈ findingIds)) ||
      (d.ownerType = some "Recommendation" && d.ownerId.any (· ∈ recommendationIds)) ||
      (d.ownerType = some "DocumentRequest" && d.ownerId.any (· ∈ requests.map Prod.fst)) ||
      requests.any fun r => id ∈ r.2.documentIds

/-- It only looks. -/
theorem documentScope_quiet (ctx : Ctx) : (documentScope ctx).Within Quiet := by
  unfold documentScope
  refine Prog.Within.ite (Prog.within_pure _) ?_
  refine (Prog.within_read _ Quiet.refl).bind fun ids => (Prog.within_read _ Quiet.refl).bind fun requests => ?_
  refine Prog.Within.ite ?_ ?_
  · exact (Prog.within_pure _).bind fun _ => Prog.within_pure _
  · exact (Prog.within_read _ Quiet.refl).bind fun _ => Prog.within_pure _

/-- `assertEngagement`. -/
def assertEngagement (ctx : Ctx) (id : Uuid) : Service Unit := do
  let found ← .read fun db => ctx.count db.engagements fun j e =>
    j = id && e.deletedAt.isNone && engagementScope ctx db j e
  if found = 0 then throw (.notFound "Engagement not found") else pure ()

/-- `assertFinding`. -/
def assertFinding (ctx : Ctx) (id : Uuid) : Service Unit := do
  let found ← .read fun db => ctx.count db.findings fun j f => j = id && f.deletedAt.isNone && findingScope ctx db f
  if found = 0 then throw (.notFound "Finding not found") else pure ()

/-- `assertRequest`. -/
def assertRequest (ctx : Ctx) (id : Uuid) : Service Unit := do
  let found ← .read fun db => ctx.count db.requests fun j r => j = id && requestScope ctx r
  if found = 0 then throw (.notFound "Request not found") else pure ()

/-- `assertDocument`. -/
def assertDocument (ctx : Ctx) (id : Uuid) : Service Unit := do
  let scope ← documentScope ctx
  let found ← .read fun db => ctx.count db.documents fun j d => j = id && d.deletedAt.isNone && scope j d
  if found = 0 then throw (.notFound "Document not found") else pure ()

/-! ### Uploads -/

/-- `DocumentOwnerType`: what a document can be uploaded to. -/
inductive DocumentOwnerType where
  | engagement | workpaper | finding | recommendation | documentRequest | evidence | libraryItem | aiContext
  deriving DecidableEq

/-- The type as it is stored. -/
def DocumentOwnerType.text : DocumentOwnerType → String
  | .engagement => "Engagement"
  | .workpaper => "Workpaper"
  | .finding => "Finding"
  | .recommendation => "Recommendation"
  | .documentRequest => "DocumentRequest"
  | .evidence => "Evidence"
  | .libraryItem => "LibraryItem"
  | .aiContext => "AiContext"

/-- `permissionByOwner`, and what is asked for a type that it does not have. -/
def permissionByOwner : DocumentOwnerType → PermissionKey
  | .engagement => .engagementRead
  | .workpaper => .workpaperRead
  | .finding => .findingRead
  | .recommendation => .findingRead
  | .documentRequest => .requestRead
  | .evidence => .workpaperRead
  | .libraryItem => .libraryRead
  | .aiContext => .documentUpload

/-- How many owners of the type have the id. -/
def countOwners (ctx : Ctx) (db : Db) (ownerId : Uuid) : DocumentOwnerType → ℕ
  | .engagement => ctx.count db.engagements fun j e => j = ownerId && e.deletedAt.isNone
  | .workpaper => ctx.count db.workpapers fun j w => j = ownerId && w.deletedAt.isNone
  | .finding => ctx.count db.findings fun j f => j = ownerId && f.deletedAt.isNone
  | .recommendation => ctx.count db.recommendations fun j _ => j = ownerId
  | .documentRequest => ctx.count db.requests fun j _ => j = ownerId
  | .evidence => ctx.count db.evidence fun j _ => j = ownerId
  | .libraryItem => ctx.count db.libraryItems fun j _ => j = ownerId
  | .aiContext => 0

/-- `assertUploadOwner` for a portal user. -/
def assertPortalOwner (ctx : Ctx) (ownerType : DocumentOwnerType) (ownerId : Uuid) : Service Unit :=
  match ownerType with
  | .documentRequest => assertRequest ctx ownerId
  | .finding => assertFinding ctx ownerId
  | .recommendation => do
    let record ← .read fun db => ctx.findById db.recommendations ownerId fun r =>
      (db.findings.find r.findingId).any fun f => f.deletedAt.isNone && findingScope ctx db f
    if record.isNone then throw (.notFound "Recommendation not found") else pure ()
  | _ => throw (.forbidden ("Portal users may upload only to an assigned request, accessible finding, " ++
      "recommendation, or their private AI context"))

/-- `assertUploadOwner`. -/
def assertUploadOwner (ctx : Ctx) (ownerType : DocumentOwnerType) (ownerId : Uuid) : Service Unit :=
  if ownerType = .aiContext then
    if ownerId ≠ ctx.userId ∨ !ctx.hasPermission .aiUse then
      throw (.forbidden "AI context uploads must belong to the current user")
    else pure ()
  else if isPortalScoped ctx then assertPortalOwner ctx ownerType ownerId
  else if !ctx.hasPermission (permissionByOwner ownerType) then
    throw (.forbidden s!"Missing permission: {(permissionByOwner ownerType).key}")
  else do
    let found ← .read fun db => countOwners ctx db ownerId ownerType
    if found = 0 then throw (.notFound s!"{ownerType.text} not found") else pure ()

end AuditSphere.ObjectAccess
