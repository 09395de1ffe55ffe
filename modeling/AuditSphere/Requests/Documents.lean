import AuditSphere.Auth.ObjectAccess
import AuditSphere.Requests.Service
import AuditSphere.Workflow.Service

/-!
# The documents of a request

How `RequestsService` shows a request with its documents, and links a document to it.
-/

namespace AuditSphere.Requests

open Prisma Theory Shared

/-! ### The workflow -/

namespace RequestWorkflow

/-- The assignee responds. -/
def submit : Transition RequestStatus where
  fromState := .opened
  toState := .submitted
  action := "submit"
  label := "Submit response"
  permission := .requestRespond
  guards := ["has_attachment_or_response"]

/-- The auditor accepts the response. -/
def accept : Transition RequestStatus where
  fromState := .submitted
  toState := .accepted
  action := "accept"
  label := "Accept"
  permission := .requestManage

/-- The auditor returns it. -/
def return_ : Transition RequestStatus where
  fromState := .submitted
  toState := .returned
  action := "return"
  label := "Return"
  permission := .requestManage

/-- The assignee responds again. -/
def resubmit : Transition RequestStatus where
  fromState := .returned
  toState := .submitted
  action := "resubmit"
  label := "Resubmit"
  permission := .requestRespond
  guards := ["has_attachment_or_response"]

/-- The request is withdrawn. -/
def cancel (fromState : RequestStatus) : Transition RequestStatus where
  fromState
  toState := .cancelled
  action := "cancel"
  label := "Cancel"
  permission := .requestManage

end RequestWorkflow

open RequestWorkflow in
/-- `REQUEST_WORKFLOW`. -/
def requestWorkflow : StateMachine RequestStatus where
  name := "document_request"
  initial := .opened
  terminal := [.accepted, .cancelled]
  transitions := [submit, accept, return_, resubmit, cancel .opened, cancel .returned]

/-- How many uploaded documents are linked to a request. -/
def attachedCount (ctx : Ctx) (db : Db) (id : Uuid) : ℕ :=
  ctx.count db.documents fun i d =>
    (db.requests.find id).any (fun r => decide (i ∈ r.documentIds)) && d.deletedAt.isNone && d.uploadedAt.isSome

/-- The guard that the service registers. -/
def guardRegistry : GuardRegistry (WithId DocumentRequest) RequestStatus :=
  let empty : GuardRegistry (WithId DocumentRequest) RequestStatus := []
  empty.register requestWorkflow.name "has_attachment_or_response" fun g =>
    if !isBlank g.entity.2.responseNote then pure ⟨true, none⟩
    else .read fun db =>
      ⟨0 < attachedCount g.actor db g.entity.1, "Attach at least one document or write a response note"⟩

/-! ### Reading -/

/-- A request with everything that `get` includes. -/
structure RequestDetail extends RequestView where
  /-- The linked documents that the user may see, with who uploaded them. -/
  documents : List (WithId Document × Option (WithId User))

/-- The linked documents that the user may see. -/
def documentsOf (ctx : Ctx) (scope : Uuid → Document → Bool) (db : Db) (r : DocumentRequest) : List (WithId Document) :=
  db.documents.rows fun i d => i ∈ r.documentIds && d.deletedAt.isNone &&
    (ctx.hasPermission .documentRestricted || d.classification ≠ .restricted) && scope i d

/-- The row with what `get` includes. -/
def detail (ctx : Ctx) (scope : Uuid → Document → Bool) (db : Db) (row : WithId DocumentRequest) : RequestDetail where
  toRequestView := view db row
  documents := (documentsOf ctx scope db row.2).map fun d => (d, related db.users (some d.2.uploadedById))

/-- `get`. -/
def get (ctx : Ctx) (id : Uuid) : Service (RequestDetail × List (AvailableAction RequestStatus)) := do
  ObjectAccess.assertRequest ctx id
  let scope ← ObjectAccess.documentScope ctx
  let r ← .read fun db => (ctx.findById db.requests id fun _ => true).map fun r => detail ctx scope db (id, r)
  match r with
  | none => throw (.notFound "Request not found")
  | some r => do
    let actions ← workflowAvailableActions guardRegistry requestWorkflow r.row.2.status ctx r.row fun _ => []
    pure (r, actions)

/-- `assertRequest`. -/
def assertRequest (ctx : Ctx) (id : Uuid) : Service DocumentRequest := do
  ObjectAccess.assertRequest ctx id
  let r ← .read fun db => ctx.findById db.requests id fun _ => true
  match r with
  | none => throw (.notFound "Request not found")
  | some r => pure r

/-! ### Linking -/

/-- `documentRequest.update`, which connects a document. -/
def connectDocument (ctx : Ctx) (id documentId : Uuid) : Service Unit :=
  .call fun db =>
    if (db.documents.find documentId).isNone then .error (.prisma .p2025)
    else do
      let (_, requests) ← updateRow ctx db.requests id fun r =>
        .ok (if documentId ∈ r.documentIds then r else { r with documentIds := r.documentIds ++ [documentId] })
      pure ((), { db with requests })

/-- `document.update`, which makes the request the owner of a document. -/
def ownDocument (ctx : Ctx) (id documentId : Uuid) : Service Unit :=
  .call fun db => do
    let (_, documents) ← updateRow ctx db.documents documentId fun d =>
      .ok { d with ownerType := some "DocumentRequest", ownerId := some id }
    pure ((), { db with documents })

/-- A document that has no owner, or belongs to a request, now belongs to this one. -/
def adoptDocument (ctx : Ctx) (id documentId : Uuid) (doc : Document) : Service Unit :=
  if doc.ownerType = none ∨ doc.ownerType = some "DocumentRequest" then ownDocument ctx id documentId else pure ()

/-- `linkDocument`, once the request is checked. -/
def linkChecked (ctx : Ctx) (id documentId : Uuid) :
    Service (RequestDetail × List (AvailableAction RequestStatus)) := do
  ObjectAccess.assertDocument ctx documentId
  let doc ← .read fun db => ctx.findById db.documents documentId fun d => d.deletedAt.isNone
  match doc with
  | none => throw (.badRequest "Document not found")
  | some doc =>
    if doc.ownerType = some "AiContext" then
      throw (.badRequest ("Private AI context cannot be linked to a shared request. Upload the document to the " ++
        "request separately."))
    else do
      connectDocument ctx id documentId
      adoptDocument ctx id documentId doc
      auditRecord ctx "request.document_linked" "DocumentRequest" id
      get ctx id

/-- `linkDocument`. -/
def linkDocument (ctx : Ctx) (id documentId : Uuid) :
    Service (RequestDetail × List (AvailableAction RequestStatus)) := do
  let request ← assertRequest ctx id
  if request.status = .accepted ∨ request.status = .cancelled then
    throw (.conflict "Closed requests cannot receive documents")
  else if !ctx.hasPermission .requestManage && request.assigneeId.isSome && request.assigneeId ≠ some ctx.userId then
    throw (.forbidden "This request is assigned to someone else")
  else linkChecked ctx id documentId

end AuditSphere.Requests
