import AuditSphere.Programs.Service
import AuditSphere.Workpapers.Service
import Mathlib.Data.Nat.Digits.Defs

/-!
# All operations on programmes

The rest of `ProgramsService`: a programme is created, perhaps from the library, approved once
it has a step, and reordered; a step is deleted, or becomes a workpaper. A programme that has
been approved is put in progress by the first change of its steps. Nothing completes one.
-/

namespace AuditSphere.Programs

open Prisma Theory Shared

/-! ### From the library -/

/-- `LibraryStepInput`. -/
structure LibraryStepInput where
  sectionName : String
  reference : String
  objective : String
  procedure : String
  estimatedHours : Option ℚ
  sortOrder : ℕ

/-- The text without white space at its ends. -/
def trim (s : String) : String :=
  String.ofList ((s.toList.dropWhile isTrimmed).reverse.dropWhile isTrimmed).reverse

/-- The items of an array property. -/
def array (key : String) (j : Json) : List Json :=
  match j.property key with
  | some (.arr items) => items
  | _ => []

/-- A text property that is not blank, or what stands for it. -/
def textOr (key : String) (j : Json) (default : String) : String :=
  match j.string? key with
  | some s => if trim s = "" then default else trim s
  | none => default

/-- The steps of a section, the `i`-th one; `sortOrder` is set when all are known. -/
def sectionSteps (i : ℕ) (sec : Json) : List LibraryStepInput :=
  (array "steps" sec).mapIdx fun k st => {
    sectionName := textOr "name" sec s!"Section {i + 1}"
    reference := textOr "reference" st s!"{i + 1}.{k + 1}"
    objective := (st.string? "objective").getD ""
    procedure := (st.string? "procedure").getD ""
    estimatedHours := match st.property "estimatedHours" with
      | some (.num q) => some q
      | _ => none
    sortOrder := 0 }

/-- `stepsFromLibraryContent`. -/
def stepsFromLibraryContent (content : Json) : List LibraryStepInput :=
  ((array "sections" content).mapIdx sectionSteps).flatten.mapIdx fun n step => { step with sortOrder := n }

/-- The first reference that occurs before. -/
def duplicateReference : List String → List LibraryStepInput → Option String
  | _, [] => none
  | seen, s :: steps => if s.reference ∈ seen then some s.reference else duplicateReference (s.reference :: seen) steps

/-- `CreateProgramDto`. -/
structure CreateProgramDto where
  title : String
  description : Field String := none
  libraryItemId : Field Uuid := none

/-- `libraryItem.update`: it has been used once more. -/
def countUsage (ctx : Ctx) (id : Uuid) : Service Unit := .call fun db => do
  let (_, libraryItems) ← updateRow ctx db.libraryItems id fun i => .ok { i with usageCount := i.usageCount + 1 }
  pure ((), { db with libraryItems })

/-- The steps that a new programme has: those of its library item. -/
def librarySteps (ctx : Ctx) (libraryItemId : Field Uuid) : Service (List LibraryStepInput) :=
  match libraryItemId.orNull with
  | none => pure []
  | some id => do
    let item ← .read fun db => ctx.findById db.libraryItems id fun i =>
      i.type = .auditProgram && i.status ∈ [.published, .draft, .pendingApproval]
    match item with
    | none => throw (.badRequest "Library audit programme not found")
    | some item =>
      let steps := stepsFromLibraryContent item.content
      if steps = [] then throw (.badRequest "Library item has no steps")
      else match duplicateReference [] steps with
        | some reference => throw (.badRequest s!"Library item has duplicate step reference {reference}")
        | none => do
          countUsage ctx id
          pure steps

/-! ### Programmes -/

/-- The row of a new programme. -/
def newProgram (ctx : Ctx) (engagementId : Uuid) (dto : CreateProgramDto) : AuditProgram where
  tenantId := ctx.tenantId
  engagementId
  title := dto.title
  description := dto.description.orNull
  status := .draft
  libraryItemId := dto.libraryItemId.orNull
  approvedById := none
  approvedAt := none

/-- The row of a step from the library. -/
def libraryStep (ctx : Ctx) (programId : Uuid) (s : LibraryStepInput) : AuditProgramStep where
  tenantId := ctx.tenantId
  programId
  sectionName := s.sectionName
  reference := s.reference
  sortOrder := s.sortOrder
  objective := s.objective
  procedure := s.procedure
  riskId := none
  controlId := none
  assigneeId := none
  estimatedHours := s.estimatedHours
  status := .notStarted

/-- The rows of the steps of a new programme, with the uuids drawn for them after `n`. -/
def insertLibrarySteps (ctx : Ctx) (programId : Uuid) :
    ℕ → List LibraryStepInput → Table Uuid AuditProgramStep → Except HttpError (Table Uuid AuditProgramStep)
  | _, [], t => .ok t
  | n, s :: steps, t => do
    let t ← insertRow t (ctx.uuid n) (libraryStep ctx programId s)
    insertLibrarySteps ctx programId (n + 1) steps t

/-- `auditProgram.create`, with its steps. -/
def insertProgram (ctx : Ctx) (id : Uuid) (p : AuditProgram) (steps : List LibraryStepInput) : Service ProgramView :=
  .call fun db =>
    if !(refersTo db.engagements (some p.engagementId) && refersTo db.libraryItems p.libraryItemId) then
      .error (.prisma .p2003)
    else do
      let programs ← insertRow db.programs id p
      let programSteps ← insertLibrarySteps ctx id 1 steps db.programSteps
      pure (view { db with programs, programSteps } (id, p), { db with programs, programSteps })

/-- `create`. -/
def create (ctx : Ctx) (engagementId : Uuid) (dto : CreateProgramDto) : Service ProgramView := do
  let engagement ← .read fun db => ctx.findById db.engagements engagementId fun e => e.deletedAt.isNone
  match engagement with
  | none => throw (.notFound "Engagement not found")
  | some engagement =>
    if engagement.stage = .closed then throw (.conflict "Closed engagements cannot receive programmes")
    else do
      let steps ← librarySteps ctx dto.libraryItemId
      let created ← insertProgram ctx (ctx.uuid 0) (newProgram ctx engagementId dto) steps
      auditRecord ctx "program.created" "AuditProgram" created.row.1
      pure created

/-- A status as `toLowerCase` gives it. -/
def statusText : ProgramStatus → String
  | .draft => "draft"
  | .pendingApproval => "pending_approval"
  | .approved => "approved"
  | .inProgress => "in_progress"
  | .completed => "completed"

/-- The programme has been approved. -/
def inForce (status : ProgramStatus) : Bool := status ∈ [.approved, .inProgress, .completed]

/-- `auditProgram.update` of `approve`. -/
def approveRow (ctx : Ctx) (id : Uuid) : Service ProgramView := .call fun db => do
  let (p, programs) ← updateRow ctx db.programs id fun p => .ok { p with
    status := .approved
    approvedById := some ctx.userId
    approvedAt := some ctx.now }
  if refersTo db.users (some ctx.userId) then pure (view { db with programs } (id, p), { db with programs })
  else .error (.prisma .p2003)

/-- The lead of the engagement is told of the approval, if it is someone else. -/
def notifyLead (ctx : Ctx) (program : AuditProgram) : Service Unit := do
  let engagement ← .read fun db => ctx.findById db.engagements program.engagementId fun _ => true
  notify ctx (engagement.bind fun e => e.leadId.filter (· ≠ ctx.userId)) {
    type := "program.approved"
    title := "Programme \"" ++ program.title ++ "\" approved on " ++ (engagement.map (·.auditNumber)).getD ""
    link := s!"/engagements/{program.engagementId}/programme" }

/-- `approve`. -/
def approve (ctx : Ctx) (id : Uuid) : Service ProgramView := do
  let program ← assertProgram ctx id
  if inForce program.status then throw (.conflict s!"Programme is already {statusText program.status}")
  else do
    let steps ← .read fun db => ctx.count db.programSteps fun _ s => s.programId = id
    if steps = 0 then throw (.badRequest "A programme needs at least one step before approval")
    else do
      let after ← approveRow ctx id
      auditRecord ctx "program.approved" "AuditProgram" id
      notifyLead ctx program
      pure after

/-! ### Steps -/

/-- `auditProgramStep.delete`; the workpapers that refer to the step no longer do. -/
def deleteStepRow (ctx : Ctx) (id : Uuid) : Service Unit := .call fun db =>
  if (ctx.findById db.programSteps id fun _ => true).isNone then .error (.prisma .p2025)
  else .ok ((), { db with
    programSteps := db.programSteps.remove fun j _ => j = id
    workpapers := db.workpapers.modify (fun _ w => w.programStepId = some id) fun w => { w with programStepId := none } })

/-- `deleteStep`. -/
def deleteStep (ctx : Ctx) (id : Uuid) : Service Unit := do
  let before ← .read fun db => (ctx.findById db.programSteps id fun _ => true).map fun s =>
    (s, db.workpapers.count fun _ w => w.programStepId = some id)
  match before with
  | none => throw (.notFound "Programme step not found")
  | some (_, workpapers) =>
    if 0 < workpapers then throw (.conflict "Step has linked workpapers; mark it NOT_APPLICABLE instead")
    else do
      deleteStepRow ctx id
      auditRecord ctx "program_step.deleted" "AuditProgramStep" id

/-- The steps are numbered in the order given, from `n`. -/
def renumber (ctx : Ctx) : ℕ → List Uuid → Service Unit
  | _, [] => pure ()
  | n, id :: ids => do
    .call fun db => do
      let (_, programSteps) ← updateRow ctx db.programSteps id fun s => .ok { s with sortOrder := n }
      pure ((), { db with programSteps })
    renumber ctx (n + 1) ids

/-- `reorder`. -/
def reorder (ctx : Ctx) (programId : Uuid) (stepIds : List Uuid) : Service (Option ProgramView) := do
  let _ ← assertProgram ctx programId
  let ids ← .read fun db => (ctx.findMany db.programSteps fun _ s => s.programId = programId).map Prod.fst
  if stepIds.any fun id => id ∉ ids then throw (.badRequest "stepIds contains steps not in this programme")
  else do
    .transaction (renumber ctx 0 (stepIds ++ ids.filter fun id => id ∉ stepIds))
    auditRecord ctx "program.reordered" "AuditProgram" programId
    .read fun db => (ctx.findById db.programs programId fun _ => true).map fun p => view db (programId, p)

/-- The digits of a number to the base 36. -/
def base36 (n : ℕ) : List Char :=
  (Nat.digits 36 n).reverse.map fun d => if d < 10 then Char.ofNat (48 + d) else Char.ofNat (55 + d)

/-- The reference of a workpaper for a step, if that of the step is in use. -/
def stampedReference (now : Date) (reference : String) : String :=
  let digits := base36 now
  reference ++ "-" ++ String.ofList (digits.drop (digits.length - 4))

/-- The workpaper that a step asks for. -/
def workpaperOf (id : Uuid) (step : AuditProgramStep) (reference : String) : Workpapers.CreateWorkpaperDto where
  reference
  title := excerpt 200 step.objective
  objective := some step.objective
  procedure := some step.procedure
  riskId := some step.riskId
  controlId := some step.controlId
  programStepId := some id
  sortOrder := some step.sortOrder

/-- `createWorkpaperFromStep`. The programme of the step is there by the foreign key. -/
def createWorkpaperFromStep (ctx : Ctx) (stepId : Uuid) : Service (WithId Workpaper) := do
  let found ← .read fun db => do
    let step ← ctx.findById db.programSteps stepId fun _ => true
    let program ← db.programs.find step.programId
    pure (step, program)
  match found with
  | none => throw (.notFound "Programme step not found")
  | some (step, program) => do
    let existing ← .read fun db => ctx.findFirst db.workpapers fun _ w =>
      w.programStepId = some stepId && w.deletedAt.isNone
    match existing with
    | some existing => throw (.conflict s!"Workpaper {existing.2.reference} is already linked to this step")
    | none => do
      let taken ← .read fun db => ctx.findFirst db.workpapers fun _ w =>
        w.engagementId = program.engagementId && w.reference = step.reference
      Workpapers.create ctx program.engagementId (workpaperOf stepId step
        (if taken.isSome then stampedReference ctx.now step.reference else step.reference))

/-! ### All operations -/

/-- An operation on programmes, with its user. -/
inductive Operation where
  | create (ctx : Ctx) (engagementId : Uuid) (dto : CreateProgramDto)
  | approve (ctx : Ctx) (id : Uuid)
  | edit (r : Request)
  | deleteStep (ctx : Ctx) (id : Uuid)
  | reorder (ctx : Ctx) (programId : Uuid) (stepIds : List Uuid)
  | createWorkpaper (ctx : Ctx) (stepId : Uuid)

/-- What an operation answers. -/
inductive Response where
  | program (p : ProgramView)
  | step (s : StepView)
  | deleted
  | reordered (p : Option ProgramView)
  | workpaper (w : WithId Workpaper)

/-- The controller: the user must hold the permission of the route. -/
def guarded {α : Type} (ctx : Ctx) (permission : PermissionKey) (p : Service α) : Service α :=
  if !ctx.hasPermission permission then throw (.forbidden s!"Missing permission: {permission.key}") else p

/-- The controller. -/
def perform : Operation → Service Response
  | .create ctx engagementId dto => guarded ctx .programManage do return .program (← create ctx engagementId dto)
  | .approve ctx id => guarded ctx .programApprove do return .program (← approve ctx id)
  | .edit r => do return .step (← serve r)
  | .deleteStep ctx id => guarded ctx .programManage do
    deleteStep ctx id
    return .deleted
  | .reorder ctx programId stepIds => guarded ctx .programManage do
    return .reordered (← reorder ctx programId stepIds)
  | .createWorkpaper ctx stepId => guarded ctx .workpaperPrepare do
    return .workpaper (← createWorkpaperFromStep ctx stepId)

end AuditSphere.Programs
