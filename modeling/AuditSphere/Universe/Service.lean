import AuditSphere.Common.Dates
import AuditSphere.Db.Client
import AuditSphere.Theory.Follow

/-!
# The audit universe

`UniverseService`, as far as entities go. An entity may have a parent. It is given another one
after a walk up from there: the rows are read one after the other, 64 of them at most, and the
entity must not be met.
-/

namespace AuditSphere.Universe

open Prisma Theory Shared

/-! ### Rows -/

/-- The type of an entity. -/
inductive EntityType where
  | legalEntity | businessUnit | country | department | process | system | product | thirdParty
  deriving DecidableEq

/-- An entity, with all that is kept of it. -/
structure AuditEntity where
  tenantId : Uuid
  parentId : Option Uuid
  type : EntityType
  code : String
  name : String
  description : Option String
  ownerId : Option Uuid
  country : Option String
  strategicObjectives : List String
  regulatoryRequirements : Json
  riskRating : RiskRating
  lastAuditDate : Option Date
  nextAuditDue : Option Date
  auditFrequencyMonths : Option ℕ
  metadata : Json
  isActive : Bool
  deletedAt : Option Date

instance : TenantRow AuditEntity := ⟨.auditEntity, fun r => some r.tenantId⟩

/-- The database, with the table of entities. -/
structure Hierarchy where
  db : Db
  entities : Table Uuid AuditEntity

/-- A method. -/
abbrev Method (α : Type) := Prog Hierarchy HttpError α

/-- A program on the rest of the database. -/
def onDb {α : Type} (p : Service α) : Method α := p.embed Hierarchy.db (fun u db => { u with db }) id

/-! ### Requests -/

/-- `CreateEntityDto`. -/
structure CreateEntityDto where
  parentId : Field Uuid := none
  type : EntityType
  code : String
  name : String
  description : Field String := none
  ownerId : Field Uuid := none
  country : Field String := none
  strategicObjectives : Field (List String) := none
  regulatoryRequirements : Field (List Json) := none
  riskRating : Field RiskRating := none
  lastAuditDate : Field Date := none
  nextAuditDue : Field Date := none
  auditFrequencyMonths : Field ℕ := none
  metadata : Field (List (String × Json)) := none

/-- `UpdateEntityDto`. -/
structure UpdateEntityDto where
  parentId : Field Uuid := none
  type : Field EntityType := none
  code : Field String := none
  name : Field String := none
  description : Field String := none
  ownerId : Field Uuid := none
  country : Field String := none
  strategicObjectives : Field (List String) := none
  regulatoryRequirements : Field (List Json) := none
  riskRating : Field RiskRating := none
  lastAuditDate : Field Date := none
  nextAuditDue : Field Date := none
  auditFrequencyMonths : Field ℕ := none
  metadata : Field (List (String × Json)) := none
  isActive : Field Bool := none

/-- The columns of an update that are not nullable. -/
def UpdateEntityDto.required (dto : UpdateEntityDto) (e : AuditEntity) : Option AuditEntity := do
  let type ← dto.type.onRequired e.type
  let code ← dto.code.onRequired e.code
  let name ← dto.name.onRequired e.name
  let strategicObjectives ← dto.strategicObjectives.onRequired e.strategicObjectives
  let riskRating ← dto.riskRating.onRequired e.riskRating
  let isActive ← dto.isActive.onRequired e.isActive
  return { e with type, code, name, strategicObjectives, riskRating, isActive }

/-- What the supplied properties make of an entity. -/
def UpdateEntityDto.apply (dto : UpdateEntityDto) (e : AuditEntity) : Except HttpError AuditEntity :=
  match dto.required e with
  | none => .error (.prisma .validation)
  | some e => .ok { e with
      parentId := dto.parentId.onNullable e.parentId
      description := dto.description.onNullable e.description
      ownerId := dto.ownerId.onNullable e.ownerId
      country := dto.country.onNullable e.country
      regulatoryRequirements := (dto.regulatoryRequirements.map (jsonOf .arr)).getD e.regulatoryRequirements
      lastAuditDate := dto.lastAuditDate.onNullable e.lastAuditDate
      nextAuditDue := dto.nextAuditDue.onNullable e.nextAuditDue
      auditFrequencyMonths := dto.auditFrequencyMonths.onNullable e.auditFrequencyMonths
      metadata := (dto.metadata.map (jsonOf .obj)).getD e.metadata }

/-- When the next audit is due: as it is given, or so many months after the last one. -/
def CreateEntityDto.due (dto : CreateEntityDto) : Except HttpError (Option Date) :=
  match dto.nextAuditDue.orNull, dto.lastAuditDate.orNull, dto.auditFrequencyMonths.orNull with
  | some date, _, _ => .ok (some date)
  | none, some last, some months =>
    match addMonths last months with
    | none => .error (.prisma .validation)
    | some date => .ok (some date)
  | none, _, _ => .ok none

/-! ### Checks -/

/-- `assertEntity`. -/
def assertEntity (ctx : Ctx) (id : Uuid) : Method AuditEntity := do
  let e ← .read fun u => ctx.findById u.entities id fun e => e.deletedAt.isNone
  match e with
  | none => throw (.notFound "Entity not found")
  | some e => pure e

/-- `isDescendant`, with so many rows left to read. -/
def isDescendant (ctx : Ctx) (ancestorId : Uuid) : ℕ → Option Uuid → Method Bool
  | 0, _ | _, none => pure false
  | left + 1, some current => do
    let row ← .read fun u => ctx.findById u.entities current fun _ => true
    match row with
    | none => pure false
    | some row =>
      if row.parentId = some ancestorId then pure true else isDescendant ctx ancestorId left row.parentId

/-- How many rows `isDescendant` reads. -/
def maxDepth : ℕ := 64

/-! ### Writes -/

/-- The constraints of the table: the code is unique within the tenant, the parent and the owner exist, and
the number of months is an integer of four bytes. -/
def constrained (u : Hierarchy) (id : Uuid) (e : AuditEntity) : Except HttpError Unit :=
  if (u.entities.first fun j e' => j ≠ id && e'.tenantId = e.tenantId && e'.code = e.code).isSome then
    .error (.prisma .p2002)
  else if !(refersTo u.entities e.parentId && refersTo u.db.users e.ownerId) then .error (.prisma .p2003)
  else if e.auditFrequencyMonths.any fun months => 2147483647 < months then .error (.prisma .validation)
  else .ok ()

/-- `auditEntity.create`. -/
def insertEntity (id : Uuid) (e : AuditEntity) (u : Hierarchy) : Except HttpError (WithId AuditEntity × Hierarchy) := do
  constrained u id e
  let entities ← insertRow u.entities id e
  return ((id, e), { u with entities })

/-- `auditEntity.update` of one entity. -/
def updateEntityRow (ctx : Ctx) (id : Uuid) (f : AuditEntity → Except HttpError AuditEntity) (u : Hierarchy) :
    Except HttpError (WithId AuditEntity × Hierarchy) := do
  let (e, entities) ← updateRow ctx u.entities id f
  constrained u id e
  return ((id, e), { u with entities })

/-! ### Methods -/

/-- The row of a new entity. -/
def newEntity (ctx : Ctx) (dto : CreateEntityDto) (nextAuditDue : Option Date) : AuditEntity where
  tenantId := ctx.tenantId
  parentId := dto.parentId.orNull
  type := dto.type
  code := dto.code
  name := dto.name
  description := dto.description.orNull
  ownerId := dto.ownerId.orNull
  country := dto.country.orNull
  strategicObjectives := dto.strategicObjectives.orNull.getD []
  regulatoryRequirements := .arr (dto.regulatoryRequirements.orNull.getD [])
  riskRating := dto.riskRating.orNull.getD .medium
  lastAuditDate := dto.lastAuditDate.orNull
  nextAuditDue
  auditFrequencyMonths := dto.auditFrequencyMonths.orNull
  metadata := .obj (dto.metadata.orNull.getD [])
  isActive := true
  deletedAt := none

/-- The parent that is given, if one is, must be there. -/
def assertParent (ctx : Ctx) (parentId : Option Uuid) : Method Unit :=
  match parentId with
  | none => pure ()
  | some p => do
    let _ ← assertEntity ctx p
    pure ()

/-- `createEntity`. -/
def createEntity (ctx : Ctx) (dto : CreateEntityDto) : Method (WithId AuditEntity) := do
  assertParent ctx dto.parentId.orNull
  let created ← .call fun u => do
    let due ← dto.due
    insertEntity (ctx.uuid 0) (newEntity ctx dto due) u
  onDb (auditRecord ctx "entity.created" "AuditEntity" created.1)
  pure created

/-- An entity may be moved under another one. -/
def assertMove (ctx : Ctx) (id : Uuid) (parentId : Option Uuid) : Method Unit :=
  match parentId with
  | none => pure ()
  | some p =>
    if p = id then throw (.badRequest "An entity cannot be its own parent")
    else do
      let _ ← assertEntity ctx p
      if ← isDescendant ctx id maxDepth (some p) then
        throw (.badRequest "Cannot move an entity under its own descendant")
      else pure ()

/-- `updateEntity`. -/
def updateEntity (ctx : Ctx) (id : Uuid) (dto : UpdateEntityDto) : Method (WithId AuditEntity) := do
  let _ ← assertEntity ctx id
  assertMove ctx id dto.parentId.orNull
  let after ← .call (updateEntityRow ctx id dto.apply)
  onDb (auditRecord ctx "entity.updated" "AuditEntity" id)
  pure after

/-- A deleted entity. -/
def deleted (ctx : Ctx) (e : AuditEntity) : AuditEntity := { e with deletedAt := some ctx.now, isActive := false }

/-- `deleteEntity`. -/
def deleteEntity (ctx : Ctx) (id : Uuid) : Method Unit := do
  let _ ← assertEntity ctx id
  let children ← .read fun u => ctx.count u.entities fun _ e => e.parentId = some id && e.deletedAt.isNone
  if 0 < children then throw (.badRequest "Delete or move child entities first")
  else do
    let _ ← .call (updateEntityRow ctx id fun e => .ok (deleted ctx e))
    onDb (auditRecord ctx "entity.deleted" "AuditEntity" id)

/-! ### All requests -/

/-- A request for entities, with its user. -/
inductive Request where
  | createEntity (ctx : Ctx) (dto : CreateEntityDto)
  | updateEntity (ctx : Ctx) (id : Uuid) (dto : UpdateEntityDto)
  | deleteEntity (ctx : Ctx) (id : Uuid)

/-- The user who makes the request. -/
def Request.ctx : Request → Ctx
  | .createEntity ctx .. | .updateEntity ctx .. | .deleteEntity ctx .. => ctx

/-- The controller: the user must hold the permission of the routes. What is deleted is answered with nothing. -/
def serve (r : Request) : Method (Option (WithId AuditEntity)) :=
  if !r.ctx.hasPermission .universeManage then
    throw (.forbidden s!"Missing permission: {PermissionKey.universeManage.key}")
  else match r with
    | .createEntity ctx dto => do return some (← createEntity ctx dto)
    | .updateEntity ctx id dto => do return some (← updateEntity ctx id dto)
    | .deleteEntity ctx id => do
      deleteEntity ctx id
      return none

end AuditSphere.Universe
