import AuditSphere.Documents.Queries
import AuditSphere.Documents.Storage

/-!
# Uploads and downloads

The methods of `DocumentsService` that change documents, or serve their contents. A document
is quarantined until its upload is completed: the object is looked up, its checksum compared
with that of the client, and its bytes are scanned. These are separate calls to storage, the
scanner and the database.
-/

namespace AuditSphere.Documents

open Prisma Theory Shared ObjectAccess

variable (env : Platform)

/-! ### Requests -/

/-- `PresignUploadDto`. -/
structure PresignUploadDto where
  fileName : String
  mimeType : String
  sizeBytes : ℕ
  ownerType : DocumentOwnerType
  ownerId : Uuid
  classification : Option DocumentClassification := none

/-- A file of a multipart upload. -/
structure UploadedFile where
  originalname : String
  mimetype : String
  buffer : Bytes

/-- `UploadDocumentDto`. -/
structure UploadDocumentDto where
  ownerType : DocumentOwnerType
  ownerId : Uuid
  classification : Option DocumentClassification := none

/-- `MAX_DOCUMENT_BYTES`. -/
def maxDocumentBytes : ℕ := 50 * 1024 * 1024

/-- `safeFileName`. -/
def safeFileName (name : String) : String :=
  let chars := (name.toList.map fun c => if c = '/' ∨ c.toNat = 0x5C then '_' else c).filter fun c =>
    c.toNat ∉ [0x0D, 0x0A, 0x22]
  let base := ((chars.dropWhile isTrimmed).reverse.dropWhile isTrimmed).reverse
  if base = [] then "document" else String.ofList (base.take 255)

/-! ### Calls to the database -/

/-- `document.create`. -/
def insertDocument (id : Uuid) (d : Document) : Service Unit := .call fun db =>
  if refersTo db.users (some d.uploadedById) then do
    let documents ← insertRow db.documents id d
    pure ((), { db with documents })
  else .error (.prisma .p2003)

/-- `document.update` of one document. -/
def updateDocument (ctx : Ctx) (id : Uuid) (f : Date → Document → Document) : Method DocumentView := .call fun s =>
  match updateRow ctx s.db.documents id fun d => .ok (f s.clock d) with
  | .error e => .error (.http e)
  | .ok (d, documents) => .ok (view { s.db with documents } (id, d), { s with db := { s.db with documents } })

/-- `documentVersion.create`. -/
def insertVersion (id : Uuid) (v : DocumentVersion) : Service Unit := .call fun db =>
  if (db.documentVersions.first fun j r => j ≠ id && r.documentId = v.documentId &&
      r.versionNumber = v.versionNumber).isSome then .error (.prisma .p2002)
  else if refersTo db.documents (some v.documentId) && refersTo db.users (some v.uploadedById) then do
    let documentVersions ← insertRow db.documentVersions id v
    pure ((), { db with documentVersions })
  else .error (.prisma .p2003)

/-! ### Starting an upload -/

/-- The row of a new document. -/
def newDocument (ctx : Ctx) (dto : PresignUploadDto) (classification : DocumentClassification) : Document where
  tenantId := ctx.tenantId
  ownerType := some dto.ownerType.text
  ownerId := some dto.ownerId
  fileName := safeFileName dto.fileName
  mimeType := dto.mimeType
  sizeBytes := dto.sizeBytes
  storageKey := .uuid ctx.tenantId (ctx.uuid 1)
  checksumSha256 := none
  classification
  uploadedById := ctx.userId
  isQuarantined := true
  uploadedAt := none
  deletedAt := none

/-- `presignUpload`. -/
def presignUpload (ctx : Ctx) (dto : PresignUploadDto) : Method PresignedUpload := do
  let classification := dto.classification.getD .confidential
  onDb (check (assertClassification ctx classification))
  onDb (assertUploadOwner ctx dto.ownerType dto.ownerId)
  let doc := newDocument ctx dto classification
  onDb (insertDocument (ctx.uuid 0) doc)
  let presigned ← Storage.presignUpload doc.storageKey (ctx.uuid 0) dto.mimeType dto.sizeBytes
  onDb (auditRecord ctx "document.upload_started" "Document" (ctx.uuid 0))
  pure presigned

/-! ### Completing it -/

/-- What `complete` answers: the document as it is, if the upload was completed before. -/
inductive Completion where
  | before (d : DocumentDetail)
  | updated (d : DocumentView)

/-- `complete`, once the object has been scanned. -/
def completeScanned (ctx : Ctx) (id : Uuid) (doc : Document) (stat : ObjectStat) (checksum : Option String)
    (scan : ScanResult) : Method DocumentView :=
  if scan.status = .infected then do
    onDb (auditRecord ctx "document.quarantined" "Document" id)
    throw (.http (.forbidden "The document failed malware scanning and remains quarantined"))
  else do
    let updated ← .transaction do
      let d ← updateDocument ctx id fun now d => { d with
        uploadedAt := some now, sizeBytes := stat.sizeBytes, checksumSha256 := checksum, isQuarantined := false }
      let existing ← .read fun s => ctx.count s.db.documentVersions fun _ v => v.documentId = id
      if existing = 0 then
        onDb (insertVersion (ctx.uuid 2) {
          tenantId := ctx.tenantId, documentId := id, versionNumber := 1, storageKey := doc.storageKey
          sizeBytes := stat.sizeBytes, checksumSha256 := checksum, uploadedById := ctx.userId, note := none })
        pure d
      else pure d
    let _ ← .read fun s => ctx.count s.db.documents fun j _ => j = id
    onDb (auditRecord ctx "document.uploaded" "Document" id)
    pure updated

/-- `complete`, once the object has been found. -/
def completeFound (ctx : Ctx) (id : Uuid) (doc : Document) (given : Option String) (stat : ObjectStat) :
    Method DocumentView :=
  if stat.sizeBytes > maxDocumentBytes then do
    Storage.deleteObject doc.storageKey
    throw (.http (.badRequest "File exceeds the 50 MB limit"))
  else if given.isSome ∧ stat.checksumSha256.isSome ∧ given.map String.toLower ≠ stat.checksumSha256 then
    throw (.http (.badRequest "Checksum does not match the uploaded content"))
  else do
    let body ← Storage.getObject doc.storageKey
    let scan ← Storage.scan env id body
    completeScanned ctx id doc stat ((given.map String.toLower).or stat.checksumSha256) scan

/-- `complete`, with the checksum that the client gives. -/
def complete (ctx : Ctx) (id : Uuid) (given : Option String) : Method Completion := do
  let doc ← onDb (assertDocument ctx id false true)
  if doc.uploadedAt.isSome then .before <$> onDb (get ctx id)
  else do
    let stat ← Storage.stat env doc.storageKey
    match stat with
    | none => throw (.http (.conflict "No object found in storage for this document; upload it first"))
    | some stat => .updated <$> completeFound env ctx id doc given stat

/-! ### Uploading through the API -/

/-- `upload`. -/
def upload (ctx : Ctx) (file : UploadedFile) (input : UploadDocumentDto) : Method Completion :=
  if file.buffer = [] then throw (.http (.badRequest "File is empty"))
  else if file.buffer.length > maxDocumentBytes then throw (.http (.badRequest "File exceeds the 50 MB limit"))
  else do
    let presigned ← presignUpload ctx {
      fileName := file.originalname
      mimeType := if file.mimetype = "" then "application/octet-stream" else file.mimetype
      sizeBytes := file.buffer.length
      ownerType := input.ownerType
      ownerId := input.ownerId
      classification := input.classification }
    let doc ← .read fun s => ctx.findById s.db.documents presigned.documentId fun _ => true
    match doc with
    | none => throw (.http (.prisma .p2025))
    | some doc => do
      Storage.putObject doc.storageKey file.buffer
      complete env ctx presigned.documentId (some (env.sha256 file.buffer))

/-- `putContent`. -/
def putContent (ctx : Ctx) (id : Uuid) (body : Bytes) : Method Completion :=
  if env.driver ≠ .localFiles then
    throw (.http (.conflict "Direct content upload is only available with the local storage driver"))
  else if body = [] then throw (.http (.badRequest "Request body must contain the file bytes"))
  else if body.length > maxDocumentBytes then throw (.http (.badRequest "File exceeds the 50 MB limit"))
  else do
    let doc ← onDb (assertDocument ctx id false true)
    if doc.uploadedAt.isSome then throw (.http (.conflict "Document content has already been uploaded"))
    else do
      Storage.putObject doc.storageKey body
      complete env ctx id (some (env.sha256 body))

/-! ### Serving contents -/

/-- `getContent`. -/
def getContent (ctx : Ctx) (id : Uuid) : Method (Document × Bytes) :=
  if env.driver ≠ .localFiles then
    throw (.http (.conflict "Direct content download is only available with the local storage driver"))
  else do
    let doc ← onDb (assertDocument ctx id true false)
    let stream ← Storage.getObject doc.storageKey
    onDb (auditRecord ctx "document.content_read" "Document" id)
    pure (doc, stream)

/-- `download`. -/
def download (ctx : Ctx) (id : Uuid) : Method PresignedDownload := do
  let doc ← onDb (assertDocument ctx id true false)
  let presigned ← Storage.presignDownload doc.storageKey id doc.fileName doc.mimeType
  onDb (auditRecord ctx "document.downloaded" "Document" id)
  pure presigned

/-! ### Removing -/

/-- `remove`. -/
def remove (ctx : Ctx) (id : Uuid) : Method Unit := do
  let _ ← onDb (assertDocument ctx id false false)
  let linkedReports ← .read fun s => ctx.count s.db.engagements fun _ e =>
    e.reportDocumentId = some id && e.deletedAt.isNone
  if linkedReports ≠ 0 then
    throw (.http (.conflict "Detach this file from the engagement Report tab before deleting it"))
  else do
    let _ ← updateDocument ctx id fun now d => { d with deletedAt := some now }
    onDb (auditRecord ctx "document.deleted" "Document" id)

end AuditSphere.Documents
