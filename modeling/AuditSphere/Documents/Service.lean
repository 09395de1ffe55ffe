import AuditSphere.Auth.ObjectAccess

/-!
# The documents service

What other services use of `DocumentsService`: the check that a document may be referred to.
-/

namespace AuditSphere.Documents

open Prisma Theory Shared

/-- `assertContextOwner`: the context for the assistant is private to its uploader. -/
def assertContextOwner (ctx : Ctx) (doc : Document) : Except HttpError Unit :=
  if doc.ownerType = some "AiContext" ∧ (doc.ownerId ≠ some ctx.userId ∨ doc.uploadedById ≠ ctx.userId) then
    .error (.forbidden "AI context documents are private to their uploader.")
  else .ok ()

/-- `assertClassification`. -/
def assertClassification (ctx : Ctx) (classification : DocumentClassification) : Except HttpError Unit :=
  if classification = .restricted ∧ !ctx.hasPermission .documentRestricted then
    .error (.forbidden "This document is RESTRICTED; document:restricted permission is required")
  else .ok ()

/-- What `assertDocument` asks of the document that it has found. -/
def assertUsable (ctx : Ctx) (requireUploaded allowQuarantined : Bool) (doc : Document) : Except HttpError Unit := do
  assertContextOwner ctx doc
  assertClassification ctx doc.classification
  if requireUploaded && doc.uploadedAt.isNone then throw (.conflict "Upload has not been completed")
  if doc.isQuarantined && !allowQuarantined then throw (.forbidden "Document is quarantined")

/-- `assertDocument`. -/
def assertDocument (ctx : Ctx) (id : Uuid) (requireUploaded allowQuarantined : Bool) : Service Document := do
  ObjectAccess.assertDocument ctx id
  let doc ← .read fun db => ctx.findById db.documents id fun d => d.deletedAt.isNone
  match doc with
  | none => throw (.notFound "Document not found")
  | some doc => match assertUsable ctx requireUploaded allowQuarantined doc with
    | .error e => throw e
    | .ok () => pure doc

end AuditSphere.Documents
