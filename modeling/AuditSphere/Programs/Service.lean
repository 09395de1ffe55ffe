import AuditSphere.Db.Client

/-!
# The programmes service

`ProgramsService`, as far as the steps of a programme go: the listing of the programmes
of an engagement, and the creation and editing of a step. The first change of an
approved programme puts it in progress. The order of a listing is left open.
-/

namespace AuditSphere.Programs

open Prisma Theory Shared

/-! ### Requests -/

/-- `CreateStepDto`. -/
structure CreateStepDto where
  sectionName : String
  reference : String
  objective : String
  procedure : String
  riskId : Field Uuid := none
  controlId : Field Uuid := none
  assigneeId : Field Uuid := none
  estimatedHours : Field ℚ := none
  sortOrder : Field ℕ := none

/-- `UpdateStepDto`. -/
structure UpdateStepDto where
  sectionName : Field String := none
  reference : Field String := none
  objective : Field String := none
  procedure : Field String := none
  riskId : Field Uuid := none
  controlId : Field Uuid := none
  assigneeId : Field Uuid := none
  estimatedHours : Field ℚ := none
  sortOrder : Field ℕ := none
  status : Field StepStatus := none

/-- What the supplied properties make of a step. -/
def UpdateStepDto.apply (dto : UpdateStepDto) (s : AuditProgramStep) : Except HttpError AuditProgramStep :=
  match dto.sectionName.onRequired s.sectionName, dto.reference.onRequired s.reference,
    dto.objective.onRequired s.objective, dto.procedure.onRequired s.procedure,
    dto.sortOrder.onRequired s.sortOrder, dto.status.onRequired s.status with
  | some sectionName, some reference, some objective, some procedure, some sortOrder, some status => .ok { s with
      sectionName
      reference
      objective
      procedure
      riskId := dto.riskId.onNullable s.riskId
      controlId := dto.controlId.onNullable s.controlId
      assigneeId := dto.assigneeId.onNullable s.assigneeId
      estimatedHours := dto.estimatedHours.onNullable s.estimatedHours
      sortOrder
      status }
  | _, _, _, _, _, _ => .error (.prisma .validation)

/-! ### Queries -/

/-- A step with `STEP_INCLUDE`. The related rows are not scoped. -/
structure StepView where
  row : WithId AuditProgramStep
  assignee : Option (WithId User)
  risk : Option (WithId Risk)
  control : Option (WithId Control)
  workpapers : List (WithId Workpaper)

/-- The row with what `STEP_INCLUDE` adds. -/
def stepView (db : Db) (row : WithId AuditProgramStep) : StepView where
  row
  assignee := related db.users row.2.assigneeId
  risk := related db.risks row.2.riskId
  control := related db.controls row.2.controlId
  workpapers := db.workpapers.rows fun _ w => w.programStepId = some row.1 && w.deletedAt.isNone

/-- A programme with `PROGRAM_INCLUDE`. -/
structure ProgramView where
  row : WithId AuditProgram
  approvedBy : Option (WithId User)
  libraryItem : Option (WithId LibraryItem)
  steps : List StepView

/-- The row with what `PROGRAM_INCLUDE` adds. -/
def view (db : Db) (row : WithId AuditProgram) : ProgramView where
  row
  approvedBy := related db.users row.2.approvedById
  libraryItem := related db.libraryItems row.2.libraryItemId
  steps := (db.programSteps.rows fun _ s => s.programId = row.1).map (stepView db)

/-- `listForEngagement`. -/
def listForEngagement (ctx : Ctx) (engagementId : Uuid) : Service (List ProgramView) := do
  let engagement ← .read fun db => ctx.findById db.engagements engagementId fun e => e.deletedAt.isNone
  if engagement.isNone then throw (.notFound "Engagement not found")
  else .read fun db => (ctx.findMany db.programs fun _ p => p.engagementId = engagementId).map (view db)

/-- `assertProgram`. -/
def assertProgram (ctx : Ctx) (id : Uuid) : Service AuditProgram := do
  let program ← .read fun db => ctx.findById db.programs id fun _ => true
  match program with
  | none => throw (.notFound "Programme not found")
  | some program => pure program

/-! ### Writes -/

/-- The constraints of the table of steps: the reference is unique within the programme,
and the foreign keys refer to rows. -/
def constrained (db : Db) (id : Uuid) (s : AuditProgramStep) : Except HttpError Unit :=
  if (db.programSteps.first fun j r => j ≠ id && r.programId = s.programId && r.reference = s.reference).isSome then
    .error (.prisma .p2002)
  else if refersTo db.programs (some s.programId) && refersTo db.risks s.riskId && refersTo db.controls s.controlId &&
      refersTo db.users s.assigneeId then .ok ()
  else .error (.prisma .p2003)

/-- `auditProgramStep.create`. -/
def insertStep (id : Uuid) (s : AuditProgramStep) : Service StepView :=
  .call fun db => do
    constrained db id s
    let programSteps ← insertRow db.programSteps id s
    pure (stepView { db with programSteps } (id, s), { db with programSteps })

/-- `auditProgramStep.update` of one row. -/
def updateStepRow (ctx : Ctx) (id : Uuid) (f : AuditProgramStep → Except HttpError AuditProgramStep) :
    Service StepView :=
  .call fun db => do
    let (s, programSteps) ← updateRow ctx db.programSteps id f
    constrained db id s
    pure (stepView { db with programSteps } (id, s), { db with programSteps })

/-- `auditProgram.update` of the status of one row. -/
def updateProgramStatus (ctx : Ctx) (id : Uuid) (status : ProgramStatus) : Service Unit :=
  .call fun db => do
    let (_, programs) ← updateRow ctx db.programs id fun p => .ok { p with status }
    pure ((), { db with programs })

/-! ### Steps -/

/-- `notifyAssignee`: no one is told of a step that is the user's own. -/
def notifyAssignee (ctx : Ctx) (assigneeId : Option Uuid) (reference objective : String) (engagementId : Uuid) :
    Service Unit :=
  notify ctx (assigneeId.filter (· ≠ ctx.userId)) {
    type := "program_step.assigned"
    title := s!"Programme step {reference} assigned to you"
    body := objective
    link := s!"/engagements/{engagementId}/programme" }

/-- Where a new step goes: where it is put, or after the last one. -/
def nextSortOrder (ctx : Ctx) (programId : Uuid) (sortOrder : Field ℕ) : Service ℕ :=
  match sortOrder.orNull with
  | some n => pure n
  | none => .read fun db => ((ctx.findMany db.programSteps fun _ s => s.programId = programId).map
      fun s => s.2.sortOrder + 1).foldl max 0

/-- The row of a new step. -/
def newStep (ctx : Ctx) (programId : Uuid) (dto : CreateStepDto) (sortOrder : ℕ) : AuditProgramStep where
  tenantId := ctx.tenantId
  programId
  sectionName := dto.sectionName
  reference := dto.reference
  sortOrder
  objective := dto.objective
  procedure := dto.procedure
  riskId := dto.riskId.orNull
  controlId := dto.controlId.orNull
  assigneeId := dto.assigneeId.orNull
  estimatedHours := dto.estimatedHours.orNull
  status := .notStarted

/-- `addStep`. -/
def addStep (ctx : Ctx) (programId : Uuid) (dto : CreateStepDto) : Service StepView := do
  let program ← assertProgram ctx programId
  if program.status = .completed then throw (.conflict "Completed programmes cannot be changed")
  else do
    let dup ← .read fun db => ctx.findFirst db.programSteps fun _ s =>
      s.programId = programId && s.reference = dto.reference
    if dup.isSome then throw (.conflict s!"Step reference {dto.reference} already exists in this programme")
    else do
      let sortOrder ← nextSortOrder ctx programId dto.sortOrder
      let created ← insertStep (ctx.uuid 0) (newStep ctx programId dto sortOrder)
      if program.status = .approved then updateProgramStatus ctx programId .inProgress else pure ()
      auditRecord ctx "program_step.created" "AuditProgramStep" created.row.1
      notifyAssignee ctx created.row.2.assigneeId created.row.2.reference created.row.2.objective program.engagementId
      pure created

/-- A new reference must not be in use in the programme. -/
def assertReferenceFree (ctx : Ctx) (id : Uuid) (before : AuditProgramStep) (reference : Field String) :
    Service Unit :=
  match reference.orNull with
  | none => pure ()
  | some reference =>
    if reference = "" ∨ reference = before.reference then pure ()
    else do
      let dup ← .read fun db => ctx.findFirst db.programSteps fun j s =>
        s.programId = before.programId && s.reference = reference && j ≠ id
      if dup.isSome then throw (.conflict s!"Step reference {reference} already exists in this programme")
      else pure ()

/-- The new status of a step puts an approved programme in progress. -/
def startsProgram (program : AuditProgram) (status : Field StepStatus) : Bool :=
  status.orNull.any (· ≠ .notStarted) && program.status = .approved

/-- `updateStep`. The programme of the step is there by the foreign key. -/
def updateStep (ctx : Ctx) (id : Uuid) (dto : UpdateStepDto) : Service StepView := do
  let before ← .read fun db => do
    let step ← ctx.findById db.programSteps id fun _ => true
    let program ← db.programs.find step.programId
    pure (step, program)
  match before with
  | none => throw (.notFound "Programme step not found")
  | some (before, program) => do
    assertReferenceFree ctx id before dto.reference
    let after ← updateStepRow ctx id dto.apply
    if startsProgram program dto.status then updateProgramStatus ctx before.programId .inProgress else pure ()
    auditRecord ctx "program_step.updated" "AuditProgramStep" id
    notifyAssignee ctx (dto.assigneeId.orNull.filter fun u => before.assigneeId ≠ some u) after.row.2.reference
      after.row.2.objective program.engagementId
    pure after

/-! ### All requests -/

/-- A request that creates or edits a step, with its user. -/
inductive Request where
  | addStep (ctx : Ctx) (programId : Uuid) (dto : CreateStepDto)
  | updateStep (ctx : Ctx) (id : Uuid) (dto : UpdateStepDto)

/-- The user who makes the request. -/
def Request.ctx : Request → Ctx
  | .addStep ctx _ _ | .updateStep ctx _ _ => ctx

/-- The permission that the route asks for; several are alternatives. -/
def Request.permissions : Request → List PermissionKey
  | .addStep .. => [.programManage]
  | .updateStep .. => [.programManage, .workpaperPrepare]

/-- The controller: the user must hold a permission of the route. -/
def serve (r : Request) : Service StepView :=
  let required := " or ".intercalate (r.permissions.map PermissionKey.key)
  if r.permissions.all fun p => !r.ctx.hasPermission p then throw (.forbidden s!"Missing permission: {required}")
  else match r with
    | .addStep ctx programId dto => addStep ctx programId dto
    | .updateStep ctx id dto => updateStep ctx id dto

end AuditSphere.Programs
