import AuditSphere.Common.References
import AuditSphere.Db.Client

/-!
# The evidence service

`EvidenceService`, method by method. A reference is the number after that of the
greatest reference of the engagement; as two requests may choose the same one, the
insertion is tried up to five times while it violates a unique constraint. The text
search of a listing is a parameter of the query (`q`); its order and page are left open.
-/

namespace AuditSphere.Evidence

open Prisma Theory Shared

/-! ### Requests -/

/-- `CreateEvidenceDto`. -/
structure CreateEvidenceDto where
  engagementId : Uuid
  workpaperId : Field Uuid := none
  documentId : Field Uuid := none
  description : String
  type : Field EvidenceType := none
  obtainedFrom : Field String := none
  obtainedAt : Field Date := none
  isSufficient : Field Bool := none

/-- `UpdateEvidenceDto`. -/
structure UpdateEvidenceDto where
  workpaperId : Field Uuid := none
  documentId : Field Uuid := none
  description : Field String := none
  type : Field EvidenceType := none
  obtainedFrom : Field String := none
  obtainedAt : Field Date := none
  isSufficient : Field Bool := none

/-- `EvidenceListQueryDto`; `q` says which texts the search finds. -/
structure EvidenceListQueryDto where
  workpaperId : Option Uuid := none
  type : Option EvidenceType := none
  q : Option (String → Bool) := none

/-! ### References -/

/-- `nextEvidenceReference`: `E-001` style reference from the highest existing sequence. -/
def nextEvidenceReference (latest : Option String) : String :=
  let seq := ((latest.bind (referenceNumber 'E')).map (· + 1)).getD 1
  "E-" ++ pad seq 3

/-- The latest reference of an engagement. -/
def latestReference (ctx : Ctx) (db : Db) (engagementId : Uuid) : Option String :=
  greatest ((ctx.findMany db.evidence fun _ e => e.engagementId = engagementId && e.reference.startsWith "E-").map
    fun e => e.2.reference)

/-! ### Writes of a record -/

/-- The constraints of the table. -/
def constrained (db : Db) (id : Uuid) (e : Evidence) : Except HttpError Unit :=
  if (db.evidence.first fun j r => j ≠ id && r.engagementId = e.engagementId && r.reference = e.reference).isSome then
    .error (.prisma .p2002)
  else if refersTo db.engagements (some e.engagementId) && refersTo db.workpapers e.workpaperId &&
      refersTo db.documents e.documentId && refersTo db.users (some e.obtainedById) then .ok ()
  else .error (.prisma .p2003)

/-- A record with what every response includes. -/
structure EvidenceView where
  row : WithId Evidence
  document : Option (WithId Document)
  workpaper : Option (WithId Workpaper)
  obtainedBy : Option (WithId User)
  findingsCount : ℕ

/-- `EVIDENCE_INCLUDE`. -/
def view (db : Db) (row : WithId Evidence) : EvidenceView where
  row
  document := related db.documents row.2.documentId
  workpaper := related db.workpapers row.2.workpaperId
  obtainedBy := related db.users (some row.2.obtainedById)
  findingsCount := db.findings.count fun _ f => row.1 ∈ f.evidenceIds

/-- `evidence.create`. -/
def insertEvidence (id : Uuid) (e : Evidence) : Service (WithId Evidence) :=
  .call fun db => do
    constrained db id e
    let evidence ← insertRow db.evidence id e
    pure ((id, e), { db with evidence })

/-- `evidence.update` of one record. -/
def updateEvidence (ctx : Ctx) (id : Uuid) (f : Evidence → Except HttpError Evidence) : Service EvidenceView :=
  .call fun db => do
    let (e, evidence) ← updateRow ctx db.evidence id f
    constrained db id e
    pure (view { db with evidence } (id, e), { db with evidence })

/-! ### Methods -/

/-- `listForEngagement`. -/
def listForEngagement (ctx : Ctx) (engagementId : Uuid) (query : EvidenceListQueryDto) :
    Service (List EvidenceView) := do
  let engagement ← .read fun db => ctx.findById db.engagements engagementId fun e => e.deletedAt.isNone
  if engagement.isNone then throw (.notFound "Engagement not found")
  else .read fun db => (ctx.findMany db.evidence fun _ e =>
    e.engagementId = engagementId && query.workpaperId.all (e.workpaperId = some ·) && query.type.all (e.type = ·) &&
      query.q.all fun finds => finds e.description || finds e.reference).map (view db)

/-- The document of a record, if one is given, must exist and be shared. -/
def assertDocument (ctx : Ctx) (documentId : Field Uuid) : Service Unit :=
  match documentId.orNull with
  | none => pure ()
  | some d => do
    let doc ← .read fun db => ctx.findById db.documents d fun doc => doc.deletedAt.isNone
    match doc with
    | none => throw (.badRequest "Document not found")
    | some doc =>
      if doc.ownerType = some "AiContext" then throw (.badRequest ("Private AI context cannot be linked as shared " ++
        "evidence. Upload the document to the engagement separately."))
      else pure ()

/-- The workpaper of a new record, if one is given, must be one of the engagement and unlocked. -/
def assertUnlocked (ctx : Ctx) (engagementId : Uuid) (workpaperId : Field Uuid) : Service Unit :=
  match workpaperId.orNull with
  | none => pure ()
  | some i => do
    let wp ← .read fun db => ctx.findById db.workpapers i fun w =>
      w.engagementId = engagementId && w.deletedAt.isNone
    match wp with
    | none => throw (.badRequest "Workpaper not found on this engagement")
    | some wp =>
      if wp.isLocked then throw (.conflict "Workpaper is signed off and locked") else pure ()

/-- The row of a new record. -/
def newEvidence (ctx : Ctx) (dto : CreateEvidenceDto) (reference : String) : Evidence where
  tenantId := ctx.tenantId
  engagementId := dto.engagementId
  workpaperId := dto.workpaperId.orNull
  documentId := dto.documentId.orNull
  reference
  description := dto.description
  type := dto.type.orNull.getD .document
  obtainedFrom := dto.obtainedFrom.orNull
  obtainedAt := dto.obtainedAt.orNull
  obtainedById := ctx.userId
  isSufficient := dto.isSufficient.orNull

/-- The loop of `create`: with so many attempts left, number the record and insert it. -/
def insertNumbered (ctx : Ctx) (dto : CreateEvidenceDto) : ℕ → Service (WithId Evidence)
  | 0 => throw (.conflict "Could not allocate an evidence reference")
  | left + 1 => do
    let attempt := 4 - left
    let latest ← .read fun db => latestReference ctx db dto.engagementId
    (insertEvidence (ctx.uuid attempt) (newEvidence ctx dto (nextEvidenceReference latest))).catching fun err =>
      if err = .prisma .p2002 ∧ attempt < 4 then insertNumbered ctx dto left else throw err

/-- `document.updateMany`: a document without an owner now belongs to the record. -/
def adoptDocument (ctx : Ctx) (documentId : Field Uuid) (id : Uuid) : Service Unit :=
  match documentId.orNull with
  | none => pure ()
  | some d => .write fun db => { db with
      documents := db.documents.modify (fun j doc => ctx.sees doc && j = d && doc.ownerType = none)
        fun doc => { doc with ownerType := some "Evidence", ownerId := some id } }

/-- `create`, once the engagement and the workpaper are checked. -/
def createUnlocked (ctx : Ctx) (dto : CreateEvidenceDto) : Service EvidenceView := do
  assertDocument ctx dto.documentId
  let created ← insertNumbered ctx dto 5
  adoptDocument ctx dto.documentId created.1
  auditRecord ctx "evidence.created" "Evidence" created.1
  let found ← .read fun db => (ctx.findById db.evidence created.1 fun _ => true).map fun e => view db (created.1, e)
  match found with
  | none => throw (.prisma .p2025)
  | some found => pure found

/-- `create`. -/
def create (ctx : Ctx) (dto : CreateEvidenceDto) : Service EvidenceView := do
  let engagement ← .read fun db => ctx.findById db.engagements dto.engagementId fun e => e.deletedAt.isNone
  if engagement.isNone then throw (.notFound "Engagement not found")
  else do
    assertUnlocked ctx dto.engagementId dto.workpaperId
    createUnlocked ctx dto

/-- The workpaper that a record is moved to must be one of its engagement. -/
def assertWorkpaperOf (ctx : Ctx) (engagementId : Uuid) (workpaperId : Field Uuid) : Service Unit :=
  assertRelated ctx Db.workpapers workpaperId (fun _ w => w.engagementId = engagementId && w.deletedAt.isNone)
    (.badRequest "Workpaper not found on this engagement")

/-- What the supplied fields make of a record. -/
def UpdateEvidenceDto.apply (dto : UpdateEvidenceDto) (e : Evidence) : Except HttpError Evidence :=
  match dto.description.onRequired e.description, dto.type.onRequired e.type with
  | some description, some type => .ok { e with
      workpaperId := dto.workpaperId.onNullable e.workpaperId
      documentId := dto.documentId.onNullable e.documentId
      description
      type
      obtainedFrom := dto.obtainedFrom.onNullable e.obtainedFrom
      obtainedAt := dto.obtainedAt.onNullable e.obtainedAt
      isSufficient := dto.isSufficient.onNullable e.isSufficient }
  | _, _ => .error (.prisma .validation)

/-- `update`. Unlike `create` it does not look at the lock of a workpaper. -/
def update (ctx : Ctx) (id : Uuid) (dto : UpdateEvidenceDto) : Service EvidenceView := do
  let before ← .read fun db => ctx.findById db.evidence id fun _ => true
  match before with
  | none => throw (.notFound "Evidence not found")
  | some before => do
    assertWorkpaperOf ctx before.engagementId dto.workpaperId
    assertDocument ctx dto.documentId
    let after ← updateEvidence ctx id dto.apply
    auditRecord ctx "evidence.updated" "Evidence" id
    pure after

/-! ### All requests -/

/-- A request that changes evidence records, with its user. -/
inductive Request where
  | create (ctx : Ctx) (dto : CreateEvidenceDto)
  | update (ctx : Ctx) (id : Uuid) (dto : UpdateEvidenceDto)

/-- The user who makes the request. -/
def Request.ctx : Request → Ctx
  | .create ctx _ | .update ctx _ _ => ctx

/-- The permission that the route asks for; several are alternatives. -/
def Request.permissions : Request → List PermissionKey
  | .create .. => [.workpaperPrepare, .documentUpload]
  | .update .. => [.workpaperPrepare]

/-- The controller: the user must hold a permission of the route. -/
def serve (r : Request) : Service EvidenceView :=
  let required := " or ".intercalate (r.permissions.map PermissionKey.key)
  if r.permissions.all fun p => !r.ctx.hasPermission p then throw (.forbidden s!"Missing permission: {required}")
  else match r with
    | .create ctx dto => create ctx dto
    | .update ctx id dto => update ctx id dto

end AuditSphere.Evidence
