import AuditSphere.Db.Requests
import AuditSphere.Requests.Documents

/-!
# Editing requests, and moving them on

`RequestsService.update` and `transition`, and what each call of the service does. A request
is submitted with a note or with a document; afterwards the note may be edited until the
request is closed.
-/

namespace AuditSphere.Requests

open Prisma Theory Shared

/-! ### Editing -/

/-- `UpdateRequestDto`. -/
structure UpdateRequestDto where
  title : Field String := none
  description : Field String := none
  assigneeId : Field Uuid := none
  assigneeEmail : Field String := none
  dueDate : Field Date := none
  responseNote : Field String := none

/-- What the supplied properties make of a request; a null date is left out. -/
def UpdateRequestDto.apply (dto : UpdateRequestDto) (r : DocumentRequest) : Except HttpError DocumentRequest :=
  match dto.title.onRequired r.title with
  | none => .error (.prisma .validation)
  | some title => .ok { r with
      title
      description := dto.description.onNullable r.description
      assigneeId := dto.assigneeId.onNullable r.assigneeId
      assigneeEmail := dto.assigneeEmail.onNullable r.assigneeEmail
      dueDate := dto.dueDate.orNull.getD r.dueDate
      responseNote := dto.responseNote.onNullable r.responseNote }

/-- Nothing but the note is supplied. -/
def UpdateRequestDto.onlyNote (dto : UpdateRequestDto) : Bool :=
  dto.title.isNone && dto.description.isNone && dto.assigneeId.isNone && dto.assigneeEmail.isNone &&
    dto.dueDate.isNone

/-- The request is assigned to someone else. -/
def assignedElsewhere (ctx : Ctx) (r : DocumentRequest) : Bool :=
  r.assigneeId.isSome && decide (r.assigneeId ≠ some ctx.userId)

/-- `documentRequest.update` of one row. -/
def updateRequestRow (ctx : Ctx) (id : Uuid) (f : DocumentRequest → Except HttpError DocumentRequest) :
    Service RequestView := .call fun db => do
  let (r, requests) ← updateRow ctx db.requests id f
  constrained db id r
  pure (view { db with requests } (id, r), { db with requests })

/-- The new assignee is told. -/
def notifyAssignee (ctx : Ctx) (id : Uuid) (dto : UpdateRequestDto) (before : DocumentRequest) (after : RequestView) :
    Service Unit :=
  if dto.assigneeId.orNull.isSome ∧ dto.assigneeId.orNull ≠ before.assigneeId ∧
      dto.assigneeId.orNull ≠ some ctx.userId then
    notify ctx dto.assigneeId.orNull {
      type := "request.assigned"
      title := s!"Document request {after.row.2.reference}: {after.row.2.title}"
      link := s!"/requests/{id}" }
  else pure ()

/-- `update`, once the user may edit the request. -/
def updateChecked (ctx : Ctx) (id : Uuid) (dto : UpdateRequestDto) (before : DocumentRequest) : Service RequestView :=
  if before.status = .accepted ∨ before.status = .cancelled then throw (.conflict "Closed requests cannot be edited")
  else do
    let after ← updateRequestRow ctx id dto.apply
    auditRecord ctx "request.updated" "DocumentRequest" id
    notifyAssignee ctx id dto before after
    pure after

/-- `update`. -/
def update (ctx : Ctx) (id : Uuid) (dto : UpdateRequestDto) : Service RequestView := do
  let before ← assertRequest ctx id
  if !ctx.hasPermission .requestManage && !dto.onlyNote then
    throw (.forbidden "Responders may only edit responseNote")
  else if !ctx.hasPermission .requestManage && assignedElsewhere ctx before then
    throw (.forbidden "This request is assigned to someone else")
  else updateChecked ctx id dto before

/-! ### The workflow -/

/-- A status as it is stored. -/
def statusText : RequestStatus → String
  | .opened => "OPEN"
  | .submitted => "SUBMITTED"
  | .accepted => "ACCEPTED"
  | .returned => "RETURNED"
  | .cancelled => "CANCELLED"

/-- The action is the assignee's. -/
def responds (action : String) : Bool := action = "submit" || action = "resubmit"

/-- What a transition makes of a request. -/
def transitioned (ctx : Ctx) (t : Transition RequestStatus) (comment : Option String) (r : DocumentRequest) :
    DocumentRequest := { r with
  status := t.toState
  submittedAt := if responds t.action then some ctx.now else r.submittedAt
  acceptedAt := if t.action = "accept" then some ctx.now else r.acceptedAt
  returnReason := if t.action = "return" then comment else r.returnReason }

/-- Who is told of a transition, unless it is the user. -/
def recipient (ctx : Ctx) (t : Transition RequestStatus) (r : DocumentRequest) : Option Uuid :=
  let user := if responds t.action then some r.requestedById else r.assigneeId
  if user = some ctx.userId then none else user

/-- `transition`, once it is validated. -/
def transitionChecked (ctx : Ctx) (id : Uuid) (dto : TransitionDto) (request : DocumentRequest)
    (t : Transition RequestStatus) : Service (RequestDetail × List (AvailableAction RequestStatus)) :=
  if t.action = "return" ∧ isBlank dto.comment.orNull then
    throw (.badRequest "A comment explaining why the request is returned is required")
  else do
    let updated ← updateRequestRow ctx id fun r => .ok (transitioned ctx t dto.comment.orNull r)
    auditRecord ctx "request.status_changed" "DocumentRequest" id
    notify ctx (recipient ctx t request) {
      type := "request.status_changed"
      title := s!"Request {updated.row.2.reference} {updated.row.2.title}: {t.label.toLower}"
      body := dto.comment.orNull
      link := s!"/requests/{id}" }
    get ctx id

/-- `transition`. -/
def transition (ctx : Ctx) (id : Uuid) (dto : TransitionDto) :
    Service (RequestDetail × List (AvailableAction RequestStatus)) := do
  let request ← assertRequest ctx id
  if (request.status = .opened ∨ request.status = .returned) ∧ responds dto.action ∧
      assignedElsewhere ctx request ∧ !ctx.hasPermission .requestManage then
    throw (.forbidden "This request is assigned to someone else")
  else do
    let t ← workflowTransition guardRegistry statusText requestWorkflow request.status
      ⟨(id, request), ctx, dto.action, dto.comment.orNull⟩ []
    transitionChecked ctx id dto request t

/-! ### All operations -/

/-- An operation on requests, with its user. -/
inductive Operation where
  | create (ctx : Ctx) (dto : CreateRequestDto)
  | update (ctx : Ctx) (id : Uuid) (dto : UpdateRequestDto)
  | transition (ctx : Ctx) (id : Uuid) (dto : TransitionDto)
  | linkDocument (ctx : Ctx) (id documentId : Uuid)

/-- What an operation answers. -/
inductive Response where
  | row (v : RequestView)
  | detail (d : RequestDetail × List (AvailableAction RequestStatus))

/-- The user. -/
def Operation.ctx : Operation → Ctx
  | .create ctx _ | .update ctx .. | .transition ctx .. | .linkDocument ctx .. => ctx

/-- The permissions of which the route asks for one. -/
def Operation.permissions : Operation → List PermissionKey
  | .create .. => [.requestManage]
  | .update .. | .linkDocument .. => [.requestManage, .requestRespond]
  | .transition .. => [.requestRead]

/-- The controller: the user must hold one of the permissions of the route. -/
def perform (o : Operation) : Service Response :=
  if !o.permissions.any o.ctx.hasPermission then
    throw (.forbidden ("Missing permission: " ++ " or ".intercalate (o.permissions.map PermissionKey.key)))
  else match o with
    | .create ctx dto => do return .row (← create ctx dto)
    | .update ctx id dto => do return .row (← update ctx id dto)
    | .transition ctx id dto => do return .detail (← transition ctx id dto)
    | .linkDocument ctx id documentId => do return .detail (← linkDocument ctx id documentId)

end AuditSphere.Requests
