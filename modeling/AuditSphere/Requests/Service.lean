import AuditSphere.Common.Dates
import AuditSphere.Common.References
import AuditSphere.Db.Client

/-!
# The document request service

How `RequestsService` raises a request for documents. Its reference is the number after that
of the greatest reference of the engagement, as for an evidence record, and the insertion is
tried up to five times while it violates a unique constraint.
-/

namespace AuditSphere.Requests

open Prisma Theory Shared

/-- `CreateRequestDto`. -/
structure CreateRequestDto where
  engagementId : Uuid
  title : String
  description : Field String := none
  assigneeId : Field Uuid := none
  assigneeEmail : Field String := none
  dueDate : Date

/-! ### References -/

/-- The number of a reference such as `DR-01`. -/
def requestNumber (reference : String) : Option ℕ :=
  match reference.toList with
  | 'D' :: 'R' :: '-' :: digits =>
    if digits ≠ [] ∧ digits.all Char.isDigit then (String.ofList digits).toNat? else none
  | _ => none

/-- `nextRequestReference`. -/
def nextRequestReference (latest : Option String) : String :=
  let seq := ((latest.bind requestNumber).map (· + 1)).getD 1
  "DR-" ++ pad seq 2

/-- The latest reference of an engagement. -/
def latestReference (ctx : Ctx) (db : Db) (engagementId : Uuid) : Option String :=
  greatest ((ctx.findMany db.requests fun _ r => r.engagementId = engagementId && r.reference.startsWith "DR-").map
    fun r => r.2.reference)

/-! ### Creation -/

/-- The constraints of the table. -/
def constrained (db : Db) (id : Uuid) (r : DocumentRequest) : Except HttpError Unit :=
  if (db.requests.first fun j r' => j ≠ id && r'.engagementId = r.engagementId && r'.reference = r.reference).isSome then
    .error (.prisma .p2002)
  else if refersTo db.engagements (some r.engagementId) && refersTo db.users (some r.requestedById) &&
      refersTo db.users r.assigneeId then .ok ()
  else .error (.prisma .p2003)

/-- A request with what every response includes. -/
structure RequestView where
  row : WithId DocumentRequest
  engagement : Option (WithId Engagement)
  requestedBy : Option (WithId User)
  assignee : Option (WithId User)
  documentsCount : ℕ

/-- `REQUEST_INCLUDE`. -/
def view (db : Db) (row : WithId DocumentRequest) : RequestView where
  row
  engagement := related db.engagements (some row.2.engagementId)
  requestedBy := related db.users (some row.2.requestedById)
  assignee := related db.users row.2.assigneeId
  documentsCount := db.documents.count fun i d => i ∈ row.2.documentIds && d.deletedAt.isNone

/-- `documentRequest.create`. -/
def insertRequest (id : Uuid) (r : DocumentRequest) : Service (WithId DocumentRequest) := .call fun db => do
  constrained db id r
  let requests ← insertRow db.requests id r
  return ((id, r), { db with requests })

/-- The row of a new request. -/
def newRequest (ctx : Ctx) (dto : CreateRequestDto) (reference : String) : DocumentRequest where
  tenantId := ctx.tenantId
  engagementId := dto.engagementId
  reference
  title := dto.title
  description := dto.description.orNull
  requestedById := ctx.userId
  dueDate := dto.dueDate
  assigneeId := dto.assigneeId.orNull
  assigneeEmail := dto.assigneeEmail.orNull
  status := .opened
  responseNote := none
  submittedAt := none
  acceptedAt := none
  returnReason := none
  reminderCount := 0
  lastReminderAt := none
  documentIds := []

/-- The loop of `create`: with so many attempts left, number the request and insert it. -/
def insertNumbered (ctx : Ctx) (dto : CreateRequestDto) : ℕ → Service (WithId DocumentRequest)
  | 0 => throw (.conflict "Could not allocate a request reference")
  | left + 1 => do
    let attempt := 4 - left
    let latest ← .read fun db => latestReference ctx db dto.engagementId
    (insertRequest (ctx.uuid attempt) (newRequest ctx dto (nextRequestReference latest))).catching fun err =>
      if err = .prisma .p2002 ∧ attempt < 4 then insertNumbered ctx dto left else throw err

/-- The assignee of a new request, if one is given, must be a user of the tenant. -/
def assertAssignee (ctx : Ctx) (assigneeId : Field Uuid) : Service Unit :=
  assertRelated ctx Db.users assigneeId (fun _ u => u.deletedAt.isNone) (.badRequest "Assignee not found")

/-- `create`. -/
def create (ctx : Ctx) (dto : CreateRequestDto) : Service RequestView := do
  let engagement ← .read fun db => ctx.findById db.engagements dto.engagementId fun e => e.deletedAt.isNone
  match engagement with
  | none => throw (.notFound "Engagement not found")
  | some engagement => do
    assertAssignee ctx dto.assigneeId
    let created ← insertNumbered ctx dto 5
    auditRecord ctx "request.created" "DocumentRequest" created.1
    notify ctx created.2.assigneeId {
      type := "request.assigned"
      title := s!"Document request {created.2.reference}: {created.2.title}"
      body := some s!"Due {isoDate created.2.dueDate} for {engagement.auditNumber}"
      link := s!"/requests/{created.1}" }
    let found ← .read fun db => (ctx.findById db.requests created.1 fun _ => true).map fun r => view db (created.1, r)
    match found with
    | none => throw (.prisma .p2025)
    | some found => pure found

/-! ### All requests -/

/-- A request that raises requests for documents, with its user. -/
inductive Request where
  | create (ctx : Ctx) (dto : CreateRequestDto)

/-- The user who makes the request. -/
def Request.ctx : Request → Ctx
  | .create ctx _ => ctx

/-- The permission that the route asks for. -/
def Request.permission : Request → PermissionKey
  | .create .. => .requestManage

/-- The controller: the user must hold the permission of the route. -/
def serve (r : Request) : Service RequestView :=
  if !r.ctx.hasPermission r.permission then throw (.forbidden s!"Missing permission: {r.permission.key}")
  else match r with
    | .create ctx dto => create ctx dto

end AuditSphere.Requests
