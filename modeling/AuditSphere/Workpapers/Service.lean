import AuditSphere.Workflow.Service

/-!
# The workpapers service

`WorkpapersService`, method by method. A method reads, checks, writes in one call
and then records and notifies. The row of a workpaper is read before the
transaction that writes it, so other requests may come between: what `update` and
`transition` write they compute from the row they have read (`before`, `wp`), but
`currentVersion` is incremented in the database.

The last part of `update` and of `transition`, from the transaction on, has a name
of its own. The order in which a response lists related rows is left open.
-/

namespace AuditSphere.Workpapers

open Prisma Theory Shared

/-! ### Requests -/

/-- `CreateWorkpaperDto`. -/
structure CreateWorkpaperDto where
  reference : String
  title : String
  objective : Field String := none
  procedure : Field String := none
  riskId : Field Uuid := none
  controlId : Field Uuid := none
  templateId : Field Uuid := none
  programStepId : Field Uuid := none
  sortOrder : Field ℕ := none

/-- `UpdateWorkpaperDto`. -/
structure UpdateWorkpaperDto where
  reference : Field String := none
  title : Field String := none
  objective : Field String := none
  procedure : Field String := none
  testPerformed : Field String := none
  results : Field String := none
  exceptions : Field String := none
  conclusion : Field String := none
  content : Field Json := none
  riskId : Field Uuid := none
  controlId : Field Uuid := none
  sortOrder : Field ℕ := none
  changeSummary : Field String := none

/-- `CreateReviewNoteDto`. -/
structure CreateReviewNoteDto where
  text : String
  priority : Field ReviewNotePriority := none
  assignedToId : Field Uuid := none

/-- `UpdateReviewNoteDto`. -/
structure UpdateReviewNoteDto where
  response : Field String := none
  clear : Field Bool := none
  reopen : Field Bool := none

/-- The content fields that are supplied, of `CONTENT_FIELDS`. -/
def UpdateWorkpaperDto.changed (dto : UpdateWorkpaperDto) : List String :=
  [("reference", dto.reference.isSome), ("title", dto.title.isSome), ("objective", dto.objective.isSome),
    ("procedure", dto.procedure.isSome), ("testPerformed", dto.testPerformed.isSome),
    ("results", dto.results.isSome), ("exceptions", dto.exceptions.isSome),
    ("conclusion", dto.conclusion.isSome), ("content", dto.content.isSome), ("riskId", dto.riskId.isSome),
    ("controlId", dto.controlId.isSome), ("sortOrder", dto.sortOrder.isSome)].filterMap
      fun f => if f.2 then some f.1 else none

/-- What the supplied fields make of the content; a required column takes no null. -/
def UpdateWorkpaperDto.apply (dto : UpdateWorkpaperDto) (c : WorkpaperContent) : Option WorkpaperContent :=
  match dto.reference.onRequired c.reference, dto.title.onRequired c.title,
    dto.sortOrder.onRequired c.sortOrder with
  | some reference, some title, some sortOrder => some {
      reference
      title
      objective := dto.objective.onNullable c.objective
      procedure := dto.procedure.onNullable c.procedure
      testPerformed := dto.testPerformed.onNullable c.testPerformed
      results := dto.results.onNullable c.results
      exceptions := dto.exceptions.onNullable c.exceptions
      conclusion := dto.conclusion.onNullable c.conclusion
      -- `json` turns a null into an empty document
      content := (dto.content.map fun v => v.getD (.obj [])).getD c.content
      riskId := dto.riskId.onNullable c.riskId
      controlId := dto.controlId.onNullable c.controlId
      sortOrder }
  | _, _, _ => none

/-- Builds an empty `content` document from a template structure. -/
def contentFromTemplate (structure' : Json) : Json :=
  match structure'.property "sections" with
  | some (.arr sections) => .obj [("sections", .arr (sections.mapIdx fun i sec => .obj [
      ("key", .str ((sec.string? "key").getD s!"section_{i + 1}")),
      ("title", .str (((sec.string? "title").orElse fun _ => sec.string? "name").getD s!"Section {i + 1}")),
      ("prompt", ((sec.string? "prompt").map Json.str).getD .null),
      ("required", .bool (Json.truthy (sec.property "required"))),
      ("value", .str "")]))]
  | _ => .obj []

/-! ### Guards -/

/-- How many notes of a workpaper the tenant sees with one of the statuses. -/
def noteCount (ctx : Ctx) (db : Db) (id : Uuid) (statuses : List ReviewNoteStatus) : ℕ :=
  ctx.count db.reviewNotes fun _ n => n.workpaperId = id && n.status ∈ statuses

/-- The actor is not the one who prepared the workpaper. -/
def notPreparer (g : GuardContext (Uuid × Workpaper) WorkpaperStatus) : Bool :=
  g.entity.2.preparedById.isNone || g.entity.2.preparedById ≠ some g.actor.userId

/-- The guards that the service registers. -/
def guardRegistry : GuardRegistry (Uuid × Workpaper) WorkpaperStatus :=
  let m := workpaperWorkflow.name
  let empty : GuardRegistry (Uuid × Workpaper) WorkpaperStatus := []
  let r := empty.register m "has_procedure_and_conclusion" fun g =>
    pure ⟨!isBlank g.entity.2.procedure && !isBlank g.entity.2.conclusion,
      "Procedure and conclusion must be documented"⟩
  let r := r.register m "reviewer_is_not_preparer" fun g =>
    pure ⟨notPreparer g, "The preparer cannot review their own workpaper"⟩
  let r := r.register m "signer_is_not_preparer" fun g =>
    pure ⟨notPreparer g, "The preparer cannot sign off their own workpaper"⟩
  let r := r.register m "all_notes_addressed" fun g => .read fun db =>
    let count := noteCount g.actor db g.entity.1 [.opened]
    ⟨count = 0, s!"{count} review note(s) not yet addressed"⟩
  r.register m "no_open_review_notes" fun g => .read fun db =>
    let count := noteCount g.actor db g.entity.1 [.opened, .addressed]
    ⟨count = 0, s!"{count} review note(s) not yet cleared"⟩

/-! ### Writes of a workpaper -/

/-- The constraints of the table: the reference is unique within the engagement, and
the foreign keys refer to rows. -/
def constrained (db : Db) (id : Uuid) (w : Workpaper) : Except HttpError Unit :=
  if (db.workpapers.first fun j r =>
      j ≠ id && r.engagementId = w.engagementId && r.reference = w.reference).isSome then
    .error (.prisma .p2002)
  else if refersTo db.engagements (some w.engagementId) && refersTo db.programSteps w.programStepId &&
      refersTo db.templates w.templateId && refersTo db.risks w.riskId && refersTo db.controls w.controlId &&
      refersTo db.users w.preparedById && refersTo db.users w.reviewedById &&
      refersTo db.users w.signedOffById then .ok ()
  else .error (.prisma .p2003)

/-- `workpaper.create`. -/
def insertWorkpaper (id : Uuid) (w : Workpaper) : Service Unit :=
  .call fun db => do
    constrained db id w
    let workpapers ← insertRow db.workpapers id w
    pure ((), { db with workpapers })

/-- `workpaper.update` of one row. -/
def updateWorkpaper (ctx : Ctx) (id : Uuid) (f : Workpaper → Except HttpError Workpaper) : Service Workpaper :=
  .call fun db => do
    let (w, workpapers) ← updateRow ctx db.workpapers id f
    constrained db id w
    pure (w, { db with workpapers })

/-- `workpaperVersion.create`: a workpaper has each version number once. -/
def insertVersion (id : Uuid) (v : WorkpaperVersion) : Service Unit :=
  .call fun db =>
    if (db.versions.first fun _ r => r.workpaperId = v.workpaperId && r.versionNumber = v.versionNumber).isSome then
      .error (.prisma .p2002)
    else if !(refersTo db.workpapers (some v.workpaperId) && refersTo db.users (some v.changedById)) then
      .error (.prisma .p2003)
    else do
      let versions ← insertRow db.versions id v
      pure ((), { db with versions })

/-- `review.create`. -/
def insertReview (id : Uuid) (r : Review) : Service Unit :=
  .call fun db =>
    if !refersTo db.users (some r.reviewerId) then .error (.prisma .p2003)
    else do
      let reviews ← insertRow db.reviews id r
      pure ((), { db with reviews })

/-- `auditProgramStep.update` of the status of one row. -/
def updateStepStatus (ctx : Ctx) (id : Uuid) (status : StepStatus) : Service Unit :=
  .call fun db => do
    let (_, programSteps) ← updateRow ctx db.programSteps id fun step => .ok { step with status }
    pure ((), { db with programSteps })

/-! ### Queries -/

/-- A workpaper with `LIST_INCLUDE`. The related rows are not scoped. -/
structure WorkpaperView where
  row : WithId Workpaper
  preparedBy : Option (WithId User)
  reviewedBy : Option (WithId User)
  signedOffBy : Option (WithId User)
  programStep : Option (WithId AuditProgramStep)
  openReviewNotes : ℕ
  evidenceCount : ℕ
  findingsCount : ℕ

/-- The row with what `LIST_INCLUDE` adds. -/
def view (db : Db) (row : WithId Workpaper) : WorkpaperView where
  row := row
  preparedBy := related db.users row.2.preparedById
  reviewedBy := related db.users row.2.reviewedById
  signedOffBy := related db.users row.2.signedOffById
  programStep := related db.programSteps row.2.programStepId
  openReviewNotes := db.reviewNotes.count fun _ n => n.workpaperId = row.1 && n.status ∈ [.opened, .addressed]
  evidenceCount := db.evidence.count fun _ e => e.workpaperId = some row.1
  findingsCount := db.findings.count fun _ f => f.workpaperId = some row.1

/-- A workpaper with everything that `get` includes. -/
structure WorkpaperDetail extends WorkpaperView where
  engagement : Option (WithId Engagement)
  template : Option (WithId WorkpaperTemplate)
  risk : Option (WithId Risk)
  control : Option (WithId Control)
  /-- The versions, with the user who made the change. -/
  versions : List (WithId WorkpaperVersion × Option (WithId User))
  /-- The notes, with who raised them, to whom they are assigned and who cleared them. -/
  reviewNotes : List (WithId ReviewNote × Option (WithId User) × Option (WithId User) × Option (WithId User))
  /-- The evidence records, with their document and who obtained them. -/
  evidence : List (WithId Evidence × Option (WithId Document) × Option (WithId User))
  findings : List (WithId Finding)

/-- The row with what `get` includes. -/
def detail (db : Db) (row : WithId Workpaper) : WorkpaperDetail where
  toWorkpaperView := view db row
  engagement := related db.engagements (some row.2.engagementId)
  template := related db.templates row.2.templateId
  risk := related db.risks row.2.riskId
  control := related db.controls row.2.controlId
  versions := (db.versions.rows fun _ v => v.workpaperId = row.1).map fun v =>
    (v, related db.users (some v.2.changedById))
  reviewNotes := (db.reviewNotes.rows fun _ n => n.workpaperId = row.1).map fun n =>
    (n, related db.users (some n.2.raisedById), related db.users n.2.assignedToId, related db.users n.2.clearedById)
  evidence := (db.evidence.rows fun _ e => e.workpaperId = some row.1).map fun e =>
    (e, related db.documents e.2.documentId, related db.users (some e.2.obtainedById))
  findings := db.findings.rows fun _ f => f.workpaperId = some row.1 && f.deletedAt.isNone

/-- `listForEngagement`. -/
def listForEngagement (ctx : Ctx) (engagementId : Uuid) : Service (List WorkpaperView) := do
  let engagement ← .read fun db => ctx.findById db.engagements engagementId fun e => e.deletedAt.isNone
  if engagement.isNone then throw (.notFound "Engagement not found")
  else .read fun db => (ctx.findMany db.workpapers fun _ w =>
    w.engagementId = engagementId && w.deletedAt.isNone).map (view db)

/-- `get`. -/
def get (ctx : Ctx) (id : Uuid) : Service (WorkpaperDetail × List (AvailableAction WorkpaperStatus)) := do
  let wp ← .read fun db =>
    (ctx.findById db.workpapers id fun w => w.deletedAt.isNone).map fun w => detail db (id, w)
  match wp with
  | none => throw (.notFound "Workpaper not found")
  | some wp => do
    let actions ← workflowAvailableActions guardRegistry workpaperWorkflow wp.row.2.status ctx wp.row fun _ => []
    pure (wp, actions)

/-- `assertWorkpaper`. -/
def assertWorkpaper (ctx : Ctx) (id : Uuid) : Service Workpaper := do
  let wp ← .read fun db => ctx.findById db.workpapers id fun w => w.deletedAt.isNone
  match wp with
  | none => throw (.notFound "Workpaper not found")
  | some wp => pure wp

/-! ### Creation -/

/-- The content of a new workpaper: from its template, if it has one. -/
def templateContent (ctx : Ctx) (templateId : Field Uuid) : Service Json :=
  match templateId.orNull with
  | none => pure (.obj [])
  | some t => do
    let template ← .read fun db => ctx.findById db.templates t fun t => t.isActive
    match template with
    | none => throw (.badRequest "Template not found")
    | some template => pure (contentFromTemplate template.structure')

/-- A programme step, if one is given, must be one of the engagement. -/
def assertStep (ctx : Ctx) (engagementId : Uuid) (programStepId : Field Uuid) : Service Unit :=
  assertRelated ctx Db.programSteps programStepId
    (fun db step => (db.programs.find step.programId).any fun p => p.engagementId = engagementId)
    (.badRequest "Programme step not found on this engagement")

/-- The row of a new workpaper. -/
def newWorkpaper (ctx : Ctx) (engagementId : Uuid) (dto : CreateWorkpaperDto) (content : Json) : Workpaper where
  tenantId := ctx.tenantId
  engagementId := engagementId
  programStepId := dto.programStepId.orNull
  templateId := dto.templateId.orNull
  reference := dto.reference
  title := dto.title
  objective := dto.objective.orNull
  procedure := dto.procedure.orNull
  testPerformed := none
  results := none
  exceptions := none
  conclusion := none
  content := content
  riskId := dto.riskId.orNull
  controlId := dto.controlId.orNull
  sortOrder := dto.sortOrder.orNull.getD 0
  status := .draft
  currentVersion := 1
  preparedById := some ctx.userId
  preparedAt := none
  reviewedById := none
  reviewedAt := none
  signedOffById := none
  signedOffAt := none
  isLocked := false
  deletedAt := none

/-- `auditProgramStep.updateMany`: a step that has not started is in progress now. -/
def startStep (ctx : Ctx) (programStepId : Field Uuid) : Service Unit :=
  match programStepId.orNull with
  | none => pure ()
  | some s => .write fun db => { db with
      programSteps := db.programSteps.modify (fun i step => ctx.sees step && i = s && step.status = .notStarted)
        fun step => { step with status := .inProgress } }

/-- `create`. -/
def create (ctx : Ctx) (engagementId : Uuid) (dto : CreateWorkpaperDto) : Service (WithId Workpaper) := do
  let engagement ← .read fun db => ctx.findById db.engagements engagementId fun e => e.deletedAt.isNone
  match engagement with
  | none => throw (.notFound "Engagement not found")
  | some engagement =>
    if engagement.stage = .closed then throw (.conflict "Closed engagements cannot receive new workpapers")
    else do
      let content ← templateContent ctx dto.templateId
      assertStep ctx engagementId dto.programStepId
      let duplicate ← .read fun db => ctx.findFirst db.workpapers fun _ w =>
        w.engagementId = engagementId && w.reference = dto.reference
      if duplicate.isSome then
        throw (.conflict s!"Workpaper reference {dto.reference} already exists on this engagement")
      else do
        let created := newWorkpaper ctx engagementId dto content
        insertWorkpaper (ctx.uuid 0) created
        startStep ctx dto.programStepId
        auditRecord ctx "workpaper.created" "Workpaper" (ctx.uuid 0)
        pure (ctx.uuid 0, created)

/-! ### Editing -/

/-- The row that an edit leaves, where `before` is the row that the request has read. -/
def edited (ctx : Ctx) (dto : UpdateWorkpaperDto) (before w : Workpaper) : Except HttpError Workpaper :=
  match dto.apply w.toWorkpaperContent with
  | none => .error (.prisma .validation)
  | some content => .ok { w with
      toWorkpaperContent := content
      currentVersion := w.currentVersion + 1
      preparedById := before.preparedById.or (some ctx.userId) }

/-- The transaction of `update`: the row that was read becomes a version, and the
supplied fields are written. -/
def updateTransaction (ctx : Ctx) (id : Uuid) (dto : UpdateWorkpaperDto) (before : Workpaper) : Service Workpaper :=
  .transaction do
    let fields := ", ".intercalate dto.changed
    insertVersion (ctx.uuid 0) {
      tenantId := ctx.tenantId
      workpaperId := id
      versionNumber := before.currentVersion
      snapshot := before
      changeSummary := dto.changeSummary.orNull.getD s!"Updated {fields}"
      changedById := ctx.userId }
    updateWorkpaper ctx id (edited ctx dto before)

/-- A new reference must not be in use on the engagement. -/
def assertReferenceFree (ctx : Ctx) (id : Uuid) (before : Workpaper) (reference : Field String) : Service Unit :=
  match reference.orNull with
  | none => pure ()
  | some reference =>
    if reference = "" ∨ reference = before.reference then pure ()
    else do
      let dup ← .read fun db => ctx.findFirst db.workpapers fun j w =>
        w.engagementId = before.engagementId && w.reference = reference && j ≠ id
      if dup.isSome then throw (.conflict s!"Workpaper reference {reference} already exists on this engagement")
      else pure ()

/-- `update`, with the row that it has read. -/
def updateRead (ctx : Ctx) (id : Uuid) (dto : UpdateWorkpaperDto) (before : Workpaper) :
    Service (WithId Workpaper) :=
  if before.isLocked then throw (.conflict "Workpaper is signed off and locked; unlock it first")
  else if before.status = .inReview ∧ ¬ctx.hasPermission .workpaperReview then
    throw (.conflict "Workpaper is in review; it can be edited once notes are raised or it is reopened")
  else if dto.changed = [] then throw (.badRequest "No content fields supplied")
  else do
    assertReferenceFree ctx id before dto.reference
    let after ← updateTransaction ctx id dto before
    auditRecord ctx "workpaper.updated" "Workpaper" id
    pure (id, after)

/-- `update`. -/
def update (ctx : Ctx) (id : Uuid) (dto : UpdateWorkpaperDto) : Service (WithId Workpaper) := do
  let before ← assertWorkpaper ctx id
  updateRead ctx id dto before

/-! ### Transitions -/

/-- The row that a transition leaves, where `wp` is the row that the request has read. -/
def transitioned (ctx : Ctx) (t : Transition WorkpaperStatus) (wp w : Workpaper) : Workpaper :=
  let w := { w with status := t.toState }
  match t.action with
  | "mark_prepared" =>
    { w with preparedById := wp.preparedById.or (some ctx.userId), preparedAt := some ctx.now }
  | "reopen" => { w with preparedAt := none }
  | "start_review" => { w with reviewedById := some ctx.userId, reviewedAt := none }
  | "approve_review" => { w with reviewedById := some ctx.userId, reviewedAt := some ctx.now }
  | "sign_off" =>
    { w with signedOffById := some ctx.userId, signedOffAt := some ctx.now, isLocked := true }
  | "unlock" =>
    { w with
      isLocked := false, signedOffById := none, signedOffAt := none, reviewedAt := none, preparedAt := none }
  | _ => w

/-- The review that a transition records. -/
def reviewOf (ctx : Ctx) (t : Transition WorkpaperStatus) : Option (ReviewLevel × ReviewDecision) :=
  match t.action with
  | "raise_notes" => some (.first, .changesRequested)
  | "approve_review" => some (.first, .approved)
  | "sign_off" => some (if "AUDIT_PARTNER" ∈ ctx.roles then .partner else .second, .approved)
  | _ => none

/-- Record a review, if the transition is one. -/
def recordReview (ctx : Ctx) (id : Uuid) (dto : TransitionDto) (t : Transition WorkpaperStatus) : Service Unit :=
  match reviewOf ctx t with
  | none => pure ()
  | some (level, decision) =>
    insertReview (ctx.uuid 0) ⟨ctx.tenantId, "Workpaper", id, level, ctx.userId, decision, dto.comment.orNull⟩

/-- Sign-off completes the programme step of a workpaper, unlocking puts it in progress. -/
def moveStep (ctx : Ctx) (wp : Workpaper) (t : Transition WorkpaperStatus) : Service Unit :=
  match wp.programStepId with
  | none => pure ()
  | some step =>
    if t.action = "sign_off" then updateStepStatus ctx step .completed
    else if t.action = "unlock" then updateStepStatus ctx step .inProgress
    else pure ()

/-- The transaction of `transition`. -/
def transitionTransaction (ctx : Ctx) (id : Uuid) (dto : TransitionDto) (t : Transition WorkpaperStatus)
    (wp : Workpaper) : Service Workpaper :=
  .transaction do
    let w ← updateWorkpaper ctx id fun w => .ok (transitioned ctx t wp w)
    recordReview ctx id dto t
    moveStep ctx wp t
    pure w

/-- Who is told of a transition. -/
def recipients (ctx : Ctx) (wp : Workpaper) (t : Transition WorkpaperStatus) : Service (List (Option Uuid)) := do
  let preparer :=
    if t.action ∈ ["start_review", "raise_notes", "approve_review", "sign_off", "unlock"] then [wp.preparedById]
    else []
  if t.action ∈ ["mark_prepared", "address_notes"] then do
    let eng ← .read fun db => ctx.findById db.engagements wp.engagementId fun _ => true
    pure ((preparer ++ [wp.reviewedById, eng.bind fun e => e.managerId.or e.leadId]).filter (· ≠ some ctx.userId))
  else pure (preparer.filter (· ≠ some ctx.userId))

/-- The rest of `transition`, after its transaction. -/
def afterTransition (ctx : Ctx) (id : Uuid) (dto : TransitionDto) (wp : Workpaper)
    (t : Transition WorkpaperStatus) : Service Unit := do
  auditRecord ctx
    (if t.action = "sign_off" then "workpaper.signed_off" else if t.action = "unlock" then "workpaper.unlocked"
      else "workpaper.status_changed") "Workpaper" id
  let users ← recipients ctx wp t
  notifyMany ctx users {
    type := "workpaper.status_changed"
    title := s!"Workpaper {wp.reference} {wp.title}: {t.label.toLower}"
    body := dto.comment.orNull
    link := s!"/engagements/{wp.engagementId}/workpapers/{id}" }

/-- `transition`. -/
def transition (ctx : Ctx) (id : Uuid) (dto : TransitionDto) :
    Service (WorkpaperDetail × List (AvailableAction WorkpaperStatus)) := do
  let wp ← assertWorkpaper ctx id
  let t ← workflowTransition guardRegistry WorkpaperStatus.text workpaperWorkflow wp.status
    ⟨(id, wp), ctx, dto.action, dto.comment.orNull⟩ []
  let _ ← transitionTransaction ctx id dto t wp
  afterTransition ctx id dto wp t
  get ctx id

/-! ### Review notes -/

/-- The foreign keys of a note refer to rows. -/
def noteConstrained (db : Db) (n : ReviewNote) : Except HttpError Unit :=
  if refersTo db.workpapers (some n.workpaperId) && refersTo db.users (some n.raisedById) &&
      refersTo db.users n.assignedToId && refersTo db.users n.clearedById then .ok ()
  else .error (.prisma .p2003)

/-- `reviewNote.create`. -/
def insertReviewNote (id : Uuid) (n : ReviewNote) : Service Unit :=
  .call fun db => do
    noteConstrained db n
    let reviewNotes ← insertRow db.reviewNotes id n
    pure ((), { db with reviewNotes })

/-- `reviewNote.update` of one row. -/
def updateNoteRow (ctx : Ctx) (id : Uuid) (f : ReviewNote → ReviewNote) : Service ReviewNote :=
  .call fun db => do
    let (n, reviewNotes) ← updateRow ctx db.reviewNotes id fun n => .ok (f n)
    noteConstrained db n
    pure (n, { db with reviewNotes })

/-- The row of a new note; by default it is assigned to the preparer. -/
def newReviewNote (ctx : Ctx) (workpaperId : Uuid) (dto : CreateReviewNoteDto) (wp : Workpaper) : ReviewNote where
  tenantId := ctx.tenantId
  workpaperId
  text := dto.text
  priority := dto.priority.orNull.getD .normal
  status := .opened
  raisedById := ctx.userId
  assignedToId := dto.assignedToId.orNull.or wp.preparedById
  response := none
  respondedAt := none
  clearedById := none
  clearedAt := none

/-- `createReviewNote`. -/
def createReviewNote (ctx : Ctx) (workpaperId : Uuid) (dto : CreateReviewNoteDto) : Service (WithId ReviewNote) := do
  let wp ← assertWorkpaper ctx workpaperId
  let note := newReviewNote ctx workpaperId dto wp
  insertReviewNote (ctx.uuid 0) note
  auditRecord ctx "review_note.created" "ReviewNote" (ctx.uuid 0)
  notify ctx (note.assignedToId.filter (· ≠ ctx.userId)) {
    type := "review_note.raised"
    title := s!"Review note on {wp.reference} {wp.title}"
    body := dto.text
    link := s!"/engagements/{wp.engagementId}/workpapers/{workpaperId}" }
  pure (ctx.uuid 0, note)

/-- What an update makes of a note, and the name of the action. -/
def noteChange (ctx : Ctx) (before : ReviewNote) (wp : Workpaper) (dto : UpdateReviewNoteDto) :
    Except HttpError ((ReviewNote → ReviewNote) × String) :=
  let canReview := decide (before.raisedById = ctx.userId) || ctx.hasPermission .workpaperReview
  if dto.clear.orNull = some true then
    if !canReview then .error (.forbidden "Only the raiser or a reviewer can clear a note")
    else if before.status = .cleared then .error (.conflict "Note is already cleared")
    else .ok (fun n => { n with status := .cleared, clearedById := some ctx.userId, clearedAt := some ctx.now },
      "review_note.cleared")
  else if dto.reopen.orNull = some true then
    if !canReview then .error (.forbidden "Only the raiser or a reviewer can reopen a note")
    else if before.status = .opened then .error (.conflict "Note is already open")
    else .ok (fun n => { n with status := .opened, clearedById := none, clearedAt := none }, "review_note.reopened")
  else match dto.response with
    | some response =>
      let canRespond := canReview || decide (before.assignedToId = some ctx.userId) ||
        decide (wp.preparedById = some ctx.userId) || ctx.hasPermission .workpaperPrepare
      if !canRespond then .error (.forbidden "You cannot respond to this note")
      else if before.status = .cleared then .error (.conflict "Cleared notes cannot be responded to")
      else .ok (fun n => { n with response, respondedAt := some ctx.now, status := .addressed },
        "review_note.addressed")
    | none => .error (.badRequest "Provide response, clear or reopen")

/-- `updateReviewNote`. The workpaper of the note is there by the foreign key. -/
def updateReviewNote (ctx : Ctx) (id : Uuid) (dto : UpdateReviewNoteDto) : Service (WithId ReviewNote) := do
  let before ← .read fun db => do
    let note ← ctx.findById db.reviewNotes id fun _ => true
    let wp ← db.workpapers.find note.workpaperId
    pure (note, wp)
  match before with
  | none => throw (.notFound "Review note not found")
  | some (before, wp) =>
    match noteChange ctx before wp dto with
    | .error e => throw e
    | .ok (data, action) => do
      let after ← updateNoteRow ctx id data
      auditRecord ctx action "ReviewNote" id
      let verb := (action.splitOn ".").getD 1 ""
      notify ctx ((if action = "review_note.addressed" then some before.raisedById
          else before.assignedToId).filter (· ≠ ctx.userId)) {
        type := action
        title := s!"Review note on {wp.reference} {verb}"
        body := dto.response.orNull
        link := s!"/engagements/{wp.engagementId}/workpapers/{before.workpaperId}" }
      pure (id, after)

/-! ### All requests -/

/-- A request that changes workpapers or their notes, with its user. -/
inductive Request where
  | create (ctx : Ctx) (engagementId : Uuid) (dto : CreateWorkpaperDto)
  | update (ctx : Ctx) (id : Uuid) (dto : UpdateWorkpaperDto)
  | transition (ctx : Ctx) (id : Uuid) (dto : TransitionDto)
  | createReviewNote (ctx : Ctx) (workpaperId : Uuid) (dto : CreateReviewNoteDto)
  | updateReviewNote (ctx : Ctx) (id : Uuid) (dto : UpdateReviewNoteDto)

/-- The user who makes the request. -/
def Request.ctx : Request → Ctx
  | .create ctx _ _ | .update ctx _ _ | .transition ctx _ _ | .createReviewNote ctx _ _
  | .updateReviewNote ctx _ _ => ctx

/-- What a request answers. -/
inductive Response where
  | workpaper (w : WithId Workpaper)
  | detail (d : WorkpaperDetail × List (AvailableAction WorkpaperStatus))
  | note (n : WithId ReviewNote)

/-- The permission that the route asks for; several are alternatives. -/
def Request.permissions : Request → List PermissionKey
  | .create .. | .update .. => [.workpaperPrepare]
  | .transition .. => [.workpaperRead]
  | .createReviewNote .. => [.workpaperReview]
  | .updateReviewNote .. => [.workpaperPrepare, .workpaperReview]

/-- The controller: the user must hold a permission of the route. -/
def serve (r : Request) : Service Response :=
  let required := " or ".intercalate (r.permissions.map PermissionKey.key)
  if r.permissions.all fun p => !r.ctx.hasPermission p then throw (.forbidden s!"Missing permission: {required}")
  else match r with
    | .create ctx engagementId dto => do return .workpaper (← create ctx engagementId dto)
    | .update ctx id dto => do return .workpaper (← update ctx id dto)
    | .transition ctx id dto => do return .detail (← transition ctx id dto)
    | .createReviewNote ctx workpaperId dto => do return .note (← createReviewNote ctx workpaperId dto)
    | .updateReviewNote ctx id dto => do return .note (← updateReviewNote ctx id dto)

end AuditSphere.Workpapers
