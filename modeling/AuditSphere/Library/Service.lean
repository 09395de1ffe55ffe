import AuditSphere.Db.Client
import AuditSphere.Theory.Follow

/-!
# The library

`LibraryService`: items of content are drafted, submitted, approved and retired. A draft is changed
in place; a change of a published item, or of global content, is a new draft with a higher version.
-/

namespace AuditSphere.Library

open Prisma Theory Shared

/-! ### Rows -/

/-- An item, with all that is kept of it; one without a tenant is global. -/
structure LibraryItem where
  tenantId : Option Uuid
  type : LibraryItemType
  code : String
  title : String
  summary : Option String
  content : Json
  industry : Option String
  tags : List String
  version : ℕ
  parentVersionId : Option Uuid
  status : LibraryStatus
  createdById : Uuid
  approvedById : Option Uuid
  approvedAt : Option Date

/-- The database, with the tables of the library. -/
structure Collection where
  db : Db
  items : Table Uuid LibraryItem
  /-- The references of the frameworks. -/
  references : List Uuid
  /-- `LibraryItemFrameworkRef`: an item, and a reference of it. -/
  frameworkRefs : List (Uuid × Uuid)
  /-- A user, and the key of a role of that user. -/
  userRoles : List (Uuid × String)

instance : TenantRow LibraryItem := ⟨.libraryItem, fun r => r.tenantId⟩

/-- A method. -/
abbrev Method (α : Type) := Prog Collection HttpError α

/-- A program on the rest of the database. -/
def onDb {α : Type} (p : Service α) : Method α := p.embed Collection.db (fun b db => { b with db }) id

/-! ### Requests -/

/-- `CreateLibraryItemDto`. -/
structure CreateLibraryItemDto where
  type : LibraryItemType
  code : String
  title : String
  summary : Field String := none
  content : List (String × Json)
  industry : Field String := none
  tags : Field (List String) := none
  frameworkReferenceIds : Field (List Uuid) := none

/-- `UpdateLibraryItemDto`. -/
structure UpdateLibraryItemDto where
  type : Field LibraryItemType := none
  code : Field String := none
  title : Field String := none
  summary : Field String := none
  content : Field (List (String × Json)) := none
  industry : Field String := none
  tags : Field (List String) := none
  frameworkReferenceIds : Field (List Uuid) := none

/-- `LibraryDecisionDto`. -/
structure LibraryDecisionDto where
  comment : Field String := none

/-! ### Content -/

/-- Each section has an array of steps. -/
def validateSection : Json → Except HttpError Unit
  | .null => .error (.internal "Cannot read properties of null (reading 'steps')")
  | s => match s.property "steps" with
    | some (.arr _) => .ok ()
    | _ => .error (.badRequest "Each section must contain a steps array")

/-- `validateContent`: a programme has sections, one at least. -/
def validateContent (type : LibraryItemType) (content : Json) : Except HttpError Unit :=
  if type ≠ .auditProgram then .ok ()
  else match content with
    | .null => .error (.internal "Cannot read properties of null (reading 'sections')")
    | content => match content.property "sections" with
      | some (.arr (s :: sections)) => (s :: sections).forM validateSection
      | _ => .error (.badRequest "AUDIT_PROGRAM content must contain a non-empty sections array")

/-! ### Views -/

/-- An item with what `ITEM_INCLUDE` adds. -/
structure ItemView where
  row : WithId LibraryItem
  createdBy : Option (WithId User)
  approvedBy : Option (WithId User)
  frameworkRefs : List Uuid
  programCount : ℕ
  newerVersionCount : ℕ

/-- The references of an item. -/
def refsOf (b : Collection) (id : Uuid) : List Uuid := (b.frameworkRefs.filter fun r => r.1 = id).map Prod.snd

/-- The row with what `ITEM_INCLUDE` adds. -/
def view (b : Collection) (row : WithId LibraryItem) : ItemView where
  row
  createdBy := related b.db.users (some row.2.createdById)
  approvedBy := related b.db.users row.2.approvedById
  frameworkRefs := refsOf b row.1
  programCount := b.db.programs.count fun _ p => p.libraryItemId = some row.1
  newerVersionCount := b.items.count fun _ i => i.parentVersionId = some row.1

/-! ### Checks -/

/-- `assertItem`. -/
def assertItem (ctx : Ctx) (id : Uuid) : Method LibraryItem := do
  let item ← .read fun b => ctx.findById b.items id fun _ => true
  match item with
  | none => throw (.notFound "Library item not found")
  | some item => pure item

/-- `assertTenantOwned`. -/
def assertTenantOwned (ctx : Ctx) (item : LibraryItem) : Method Unit :=
  if item.tenantId.isNone ∧ "GLOBAL_ADMIN" ∉ ctx.roles then
    throw (.forbidden "Global BDO content is read-only; edit a published item to create a tenant version")
  else pure ()

/-- `assertReferences`. -/
def assertReferences (ids : Option (List Uuid)) : Method Unit :=
  match ids with
  | none | some [] => pure ()
  | some ids => do
    let count ← .read fun b => (b.references.filter (· ∈ ids)).length
    if count ≠ ids.eraseDups.length then throw (.badRequest "One or more framework references were not found")
    else pure ()

/-! ### Writes -/

/-- The constraints of the table: the version of a code is unique within the tenant, where NULL is no tenant, it
fits four bytes, and what the item refers to exists. -/
def constrained (b : Collection) (id : Uuid) (i : LibraryItem) : Except HttpError Unit :=
  if (b.items.first fun j i' =>
      j ≠ id && i.tenantId.isSome && i'.tenantId = i.tenantId && i'.code = i.code && i'.version = i.version).isSome then
    .error (.prisma .p2002)
  else if 2147483647 < i.version then .error (.internal "Unable to fit integer value into an INT4")
  else if refersTo b.items i.parentVersionId && refersTo b.db.users (some i.createdById) &&
      refersTo b.db.users i.approvedById then .ok ()
  else .error (.prisma .p2003)

/-- Give an item references: each exists, and none is given twice. -/
def insertRefs (id : Uuid) (refs : List Uuid) (b : Collection) : Except HttpError Collection :=
  if ¬(refs ++ refsOf b id).Nodup then .error (.prisma .p2002)
  else if refs.all (· ∈ b.references) then .ok { b with frameworkRefs := b.frameworkRefs ++ refs.map fun r => (id, r) }
  else .error (.prisma .p2003)

/-- `libraryItem.create`, with the references of the item. -/
def insertItem (id : Uuid) (i : LibraryItem) (refs : List Uuid) (b : Collection) :
    Except HttpError (ItemView × Collection) := do
  constrained b id i
  let items ← insertRow b.items id i
  let b ← insertRefs id refs { b with items }
  return (view b (id, i), b)

/-- `libraryItem.update` of one item. -/
def updateItem (ctx : Ctx) (id : Uuid) (f : LibraryItem → Except HttpError LibraryItem) (b : Collection) :
    Except HttpError (ItemView × Collection) := do
  let (i, items) ← updateRow ctx b.items id f
  constrained b id i
  return (view { b with items } (id, i), { b with items })

/-! ### Creation -/

/-- The row of a new item. -/
def newItem (ctx : Ctx) (dto : CreateLibraryItemDto) : LibraryItem where
  tenantId := some ctx.tenantId
  type := dto.type
  code := dto.code
  title := dto.title
  summary := dto.summary.orNull
  content := .obj dto.content
  industry := dto.industry.orNull
  tags := dto.tags.orNull.getD []
  version := 1
  parentVersionId := none
  status := .draft
  createdById := ctx.userId
  approvedById := none
  approvedAt := none

/-- `create`. -/
def create (ctx : Ctx) (dto : CreateLibraryItemDto) : Method ItemView := do
  match validateContent dto.type (.obj dto.content) with
  | .error e => throw e
  | .ok () => do
    assertReferences dto.frameworkReferenceIds.orNull
    let dup ← .read fun b => ctx.findFirst b.items fun _ i =>
      i.tenantId = some ctx.tenantId && i.code = dto.code && i.version = 1
    if dup.isSome then throw (.conflict s!"Library code {dto.code} already exists")
    else do
      let created ← .call (insertItem (ctx.uuid 0) (newItem ctx dto) (dto.frameworkReferenceIds.orNull.getD []))
      onDb (auditRecord ctx "library_item.created" "LibraryItem" (ctx.uuid 0))
      pure created

/-! ### Changes -/

/-- A new version of an item. -/
def newVersion (ctx : Ctx) (id : Uuid) (dto : UpdateLibraryItemDto) (before : LibraryItem) (content : Json)
    (version : ℕ) : LibraryItem where
  tenantId := some ctx.tenantId
  type := dto.type.orNull.getD before.type
  code := before.code
  title := dto.title.orNull.getD before.title
  summary := dto.summary.onNullable before.summary
  content
  industry := dto.industry.onNullable before.industry
  tags := dto.tags.orNull.getD before.tags
  version
  parentVersionId := some id
  status := .draft
  createdById := ctx.userId
  approvedById := none
  approvedAt := none

/-- The version of the newest item with a code in the tenant. -/
def latestVersion (ctx : Ctx) (code : String) (b : Collection) : Option ℕ :=
  ((ctx.findMany b.items fun _ i => i.tenantId = some ctx.tenantId && i.code = code).map fun i => i.2.version).max?

/-- The part of `update` that makes a new version. -/
def createVersion (ctx : Ctx) (id : Uuid) (dto : UpdateLibraryItemDto) (before : LibraryItem) (content : Json) :
    Method ItemView := do
  let existingNewer ← .read fun b => ctx.findFirst b.items fun _ i =>
    i.parentVersionId = some id && i.status ∈ [.draft, .pendingApproval]
  match existingNewer with
  | some newer => throw (.conflict s!"A newer draft (v{newer.2.version}) already exists for this item")
  | none => do
    let latest ← .read (latestVersion ctx before.code)
    let refs ← .read fun b => dto.frameworkReferenceIds.orNull.getD (refsOf b id)
    let version := max before.version (latest.getD 0) + 1
    let created ← .call (insertItem (ctx.uuid 0) (newVersion ctx id dto before content version) refs)
    onDb (auditRecord ctx "library_item.version_created" "LibraryItem" (ctx.uuid 0))
    pure created

/-- What an update in place makes of an item. -/
def UpdateLibraryItemDto.apply (dto : UpdateLibraryItemDto) (i : LibraryItem) : Except HttpError LibraryItem :=
  match dto.type.onRequired i.type, dto.title.onRequired i.title, dto.tags.onRequired i.tags,
    dto.code.onRequired i.code with
  | some type, some title, some tags, some code => .ok { i with
      type
      title
      summary := dto.summary.onNullable i.summary
      content := (dto.content.map (jsonOf .obj)).getD i.content
      industry := dto.industry.onNullable i.industry
      tags
      code }
  | _, _, _, _ => .error (.prisma .validation)

/-- The references of an item are replaced, if they are given. -/
def replaceRefs (id : Uuid) (refs : Option (List Uuid)) (b : Collection) : Except HttpError Collection :=
  match refs with
  | none => .ok b
  | some refs => insertRefs id refs { b with frameworkRefs := b.frameworkRefs.filter fun r => r.1 ≠ id }

/-- The transaction of an update in place. -/
def editItem (ctx : Ctx) (id : Uuid) (dto : UpdateLibraryItemDto) (b : Collection) :
    Except HttpError (ItemView × Collection) := do
  let b ← replaceRefs id dto.frameworkReferenceIds.orNull b
  updateItem ctx id dto.apply b

/-- The content of an item after an update. -/
def UpdateLibraryItemDto.contentOf (dto : UpdateLibraryItemDto) (before : LibraryItem) : Json :=
  match dto.content.orNull with
  | some content => .obj content
  | none => before.content

/-- `update`. -/
def update (ctx : Ctx) (id : Uuid) (dto : UpdateLibraryItemDto) : Method ItemView := do
  let before ← assertItem ctx id
  if before.status = .retired then throw (.conflict "Retired items cannot be edited")
  else match validateContent (dto.type.orNull.getD before.type) (dto.contentOf before) with
    | .error e => throw e
    | .ok () => do
      assertReferences dto.frameworkReferenceIds.orNull
      if before.status = .published ∨ before.tenantId.isNone then
        createVersion ctx id dto before (dto.contentOf before)
      else do
        let after ← .call (editItem ctx id dto)
        onDb (auditRecord ctx "library_item.updated" "LibraryItem" id)
        pure after

/-! ### Decisions -/

/-- The status as it is told. -/
def statusText : LibraryStatus → String
  | .draft => "DRAFT"
  | .pendingApproval => "PENDING_APPROVAL"
  | .published => "PUBLISHED"
  | .retired => "RETIRED"

/-- The users who can be asked for an approval, twenty at most. -/
def approvers (ctx : Ctx) (b : Collection) : List Uuid :=
  ((ctx.findMany b.db.users fun id u => u.deletedAt.isNone && u.status = .active &&
    ["CHIEF_AUDIT_EXECUTIVE", "AUDIT_PARTNER"].any fun role => (id, role) ∈ b.userRoles).map Prod.fst).take 20

/-- `submit`. -/
def submit (ctx : Ctx) (id : Uuid) (dto : LibraryDecisionDto) : Method ItemView := do
  let before ← assertItem ctx id
  assertTenantOwned ctx before
  if before.status ≠ .draft then
    throw (.conflict s!"Only DRAFT items can be submitted (current: {statusText before.status})")
  else do
    let after ← .call (updateItem ctx id fun i => .ok { i with status := .pendingApproval })
    onDb (auditRecord ctx "library_item.submitted" "LibraryItem" id)
    let approvers ← .read (approvers ctx)
    onDb (notifyMany ctx ((approvers.filter (· ≠ ctx.userId)).map some) {
      type := "library_item.pending_approval"
      title := s!"Library item {after.row.2.code} v{after.row.2.version} awaits approval"
      body := dto.comment.orNull
      link := s!"/library/{id}" })
    pure after

/-- The published items with the code of an item, in its tenant, are retired, except the item itself. -/
def retireOthers (ctx : Ctx) (id : Uuid) (before : LibraryItem) (b : Collection) : Collection :=
  { b with items := b.items.modify (fun j i => ctx.sees i && i.code = before.code && i.status = .published && j ≠ id &&
      i.tenantId = before.tenantId) fun i => { i with status := .retired } }

/-- A published item. -/
def published (ctx : Ctx) (i : LibraryItem) : LibraryItem :=
  { i with status := .published, approvedById := some ctx.userId, approvedAt := some ctx.now }

/-- `approve`. -/
def approve (ctx : Ctx) (id : Uuid) (dto : LibraryDecisionDto) : Method ItemView := do
  let before ← assertItem ctx id
  assertTenantOwned ctx before
  if before.status ≠ .pendingApproval then
    throw (.conflict s!"Only PENDING_APPROVAL items can be approved (current: {statusText before.status})")
  else do
    let after ← .call fun b => updateItem ctx id (fun i => .ok (published ctx i)) (retireOthers ctx id before b)
    onDb (auditRecord ctx "library_item.approved" "LibraryItem" id)
    onDb (notify ctx (if before.createdById = ctx.userId then none else some before.createdById) {
      type := "library_item.approved"
      title := s!"Library item {after.row.2.code} v{after.row.2.version} published"
      body := dto.comment.orNull
      link := s!"/library/{id}" })
    pure after

/-- `retire`. -/
def retire (ctx : Ctx) (id : Uuid) : Method ItemView := do
  let before ← assertItem ctx id
  assertTenantOwned ctx before
  if before.status = .retired then throw (.conflict "Item is already retired")
  else do
    let after ← .call (updateItem ctx id fun i => .ok { i with status := .retired })
    onDb (auditRecord ctx "library_item.retired" "LibraryItem" id)
    pure after

/-! ### All requests -/

/-- A request for the library, with its user. -/
inductive Request where
  | create (ctx : Ctx) (dto : CreateLibraryItemDto)
  | update (ctx : Ctx) (id : Uuid) (dto : UpdateLibraryItemDto)
  | submit (ctx : Ctx) (id : Uuid) (dto : LibraryDecisionDto)
  | approve (ctx : Ctx) (id : Uuid) (dto : LibraryDecisionDto)
  | retire (ctx : Ctx) (id : Uuid)

/-- The user who makes the request. -/
def Request.ctx : Request → Ctx
  | .create ctx .. | .update ctx .. | .submit ctx .. | .approve ctx .. | .retire ctx .. => ctx

/-- The permission that the route asks for. -/
def Request.permission : Request → PermissionKey
  | .create .. | .update .. | .submit .. => .libraryContribute
  | .approve .. | .retire .. => .libraryApprove

/-- The controller: the user must hold the permission of the route. -/
def serve (r : Request) : Method ItemView :=
  if !r.ctx.hasPermission r.permission then throw (.forbidden s!"Missing permission: {r.permission.key}")
  else match r with
    | .create ctx dto => create ctx dto
    | .update ctx id dto => update ctx id dto
    | .submit ctx id dto => submit ctx id dto
    | .approve ctx id dto => approve ctx id dto
    | .retire ctx id => retire ctx id

end AuditSphere.Library
