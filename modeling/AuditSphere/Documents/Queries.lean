import AuditSphere.Documents.Service

/-!
# Queries for documents

`DocumentsService.list` and `get`. The text search of a listing (`q`) and its order are
parameters of the query.
-/

namespace AuditSphere.Documents

open Prisma Theory Shared ObjectAccess

/-- A check that may throw. -/
def check (r : Except HttpError Unit) : Service Unit :=
  match r with
  | .error e => throw e
  | .ok () => pure ()

/-! ### Pages -/

/-- A page of a listing. -/
structure Page (α : Type) where
  items : List α
  total : ℕ
  page : ℕ
  pageSize : ℕ

/-- What `pageArgs` makes of the number of a page, which is counted from one. -/
def pageNumber (page : Option ℕ) : ℕ := max 1 (page.getD 1)

/-- What it makes of the size. -/
def pageLength (pageSize : Option ℕ) : ℕ := min 200 (max 1 (pageSize.getD 25))

/-! ### Documents as they are shown -/

/-- A document with what `DOC_INCLUDE` adds. -/
structure DocumentView where
  row : WithId Document
  uploadedBy : Option (WithId User)

/-- The row with what `DOC_INCLUDE` adds. -/
def view (db : Db) (row : WithId Document) : DocumentView where
  row
  uploadedBy := related db.users (some row.2.uploadedById)

/-- A document with its versions and who uploaded them. -/
structure DocumentDetail extends DocumentView where
  versions : List (WithId DocumentVersion × Option (WithId User))

/-- The row with what `get` includes. -/
def detail (db : Db) (row : WithId Document) : DocumentDetail where
  toDocumentView := view db row
  versions := (db.documentVersions.rows fun _ v => v.documentId = row.1).map fun v =>
    (v, related db.users (some v.2.uploadedById))

/-! ### Methods -/

/-- `DocumentListQueryDto`; `q` says which names the search finds. -/
structure DocumentListQueryDto where
  ownerType : Option DocumentOwnerType := none
  ownerId : Option Uuid := none
  classification : Option DocumentClassification := none
  minSizeBytes : Option ℕ := none
  q : Option (String → Bool) := none
  page : Option ℕ := none
  pageSize : Option ℕ := none
  /-- What the sort makes of the rows. -/
  sort : List (WithId Document) → List (WithId Document) := id

/-- The `where` of a listing. A classification that is asked for takes the place of
`classificationFilter`. -/
def documentsWhere (ctx : Ctx) (query : DocumentListQueryDto) (d : Document) : Bool :=
  d.deletedAt.isNone && d.uploadedAt.isSome && !d.isQuarantined &&
    (match query.classification with
      | some c => decide (d.classification = c)
      | none => ctx.hasPermission .documentRestricted || d.classification ≠ .restricted) &&
    query.ownerType.all (fun t => d.ownerType = some t.text) && query.ownerId.all (fun i => d.ownerId = some i) &&
    query.minSizeBytes.all (fun n => n ≤ d.sizeBytes) && query.q.all fun finds => finds d.fileName

/-- `list`. -/
def list (ctx : Ctx) (query : DocumentListQueryDto) : Service (Page DocumentView) := do
  check (query.classification.elim (.ok ()) (assertClassification ctx))
  let scope ← documentScope ctx
  let page := pageNumber query.page
  let pageSize := pageLength query.pageSize
  let total ← .read fun db => ctx.count db.documents fun i d => scope i d && documentsWhere ctx query d
  let items ← .read fun db =>
    (((query.sort (ctx.findMany db.documents fun i d => scope i d && documentsWhere ctx query d)).drop
      ((page - 1) * pageSize)).take pageSize).map (view db)
  pure { items, total, page, pageSize }

/-- `get`. -/
def get (ctx : Ctx) (id : Uuid) : Service DocumentDetail := do
  ObjectAccess.assertDocument ctx id
  let doc ← .read fun db => (ctx.findById db.documents id fun d => d.deletedAt.isNone).map fun d => detail db (id, d)
  match doc with
  | none => throw (.notFound "Document not found")
  | some doc => do
    check (assertContextOwner ctx doc.row.2)
    check (assertClassification ctx doc.row.2.classification)
    pure doc

end AuditSphere.Documents
