import AuditSphere.Common.Dates
import AuditSphere.Findings.Service

/-!
# The life of a finding

`FindingsService`: the transitions of a finding, the extension of its due date, and its
recommendations. A transition writes the new status, an entry of the history and, for
some actions, the status of the recommendations in one transaction; whether the action
is available is checked before, on the row as it was read then.
-/

namespace AuditSphere.Findings

open Prisma Theory Shared

/-! ### Requests -/

/-- `ExtendFindingDto`. -/
structure ExtendFindingDto where
  dueDate : Date
  reason : String

/-- `CreateRecommendationDto`. -/
structure CreateRecommendationDto where
  text : String
  priority : Field TaskPriority := none
  ownerId : Field Uuid := none
  ownerName : Field String := none
  dueDate : Field Date := none
  actionPlan : Field String := none

/-- `UpdateRecommendationDto`. -/
structure UpdateRecommendationDto where
  text : Field String := none
  priority : Field TaskPriority := none
  ownerId : Field Uuid := none
  ownerName : Field String := none
  dueDate : Field Date := none
  actionPlan : Field String := none
  status : Field RecommendationStatus := none
  progressNote : Field String := none
  progressPct : Field ℕ := none

/-- The properties that are supplied. -/
def UpdateRecommendationDto.supplied (dto : UpdateRecommendationDto) : List String :=
  [("text", dto.text.isSome), ("priority", dto.priority.isSome), ("ownerId", dto.ownerId.isSome),
    ("ownerName", dto.ownerName.isSome), ("dueDate", dto.dueDate.isSome), ("actionPlan", dto.actionPlan.isSome),
    ("status", dto.status.isSome), ("progressNote", dto.progressNote.isSome),
    ("progressPct", dto.progressPct.isSome)].filterMap fun f => if f.2 then some f.1 else none

/-- The new status says that the recommendation is carried out. -/
def UpdateRecommendationDto.carriesOut (dto : UpdateRecommendationDto) : Bool :=
  dto.status.orNull = some .implemented || dto.status.orNull = some .validated

/-- What the supplied properties make of a recommendation, where `before` is the row that
the request has read. -/
def UpdateRecommendationDto.apply (dto : UpdateRecommendationDto) (ctx : Ctx) (before r : Recommendation) :
    Except HttpError Recommendation :=
  match dto.text.onRequired r.text, dto.priority.onRequired r.priority, dto.status.onRequired r.status,
    Field.onRequired (if dto.carriesOut then some (some 100) else dto.progressPct) r.progressPct with
  | some text, some priority, some status, some progressPct => .ok { r with
      text
      priority
      ownerId := dto.ownerId.onNullable r.ownerId
      ownerName := dto.ownerName.onNullable r.ownerName
      dueDate := dto.dueDate.onNullable r.dueDate
      actionPlan := dto.actionPlan.onNullable r.actionPlan
      status
      progressNote := dto.progressNote.onNullable r.progressNote
      progressPct
      completedAt := if dto.carriesOut then before.completedAt.or (some ctx.now) else r.completedAt }
  | _, _, _, _ => .error (.prisma .validation)

/-! ### Transitions -/

/-- The row that a transition leaves, where `finding` is the row that the request has read. -/
def transitioned (ctx : Ctx) (t : Transition FindingStatus) (finding f : Finding) : Finding :=
  let f := { f with status := t.toState }
  match t.action with
  | "agree" => { f with
      agreedAt := some ctx.now
      originalDueDate := if finding.originalDueDate.isNone then finding.dueDate else f.originalDueDate }
  | "request_validation" => { f with implementedAt := some ctx.now }
  | "validate_and_close" => { f with
      validatedById := some ctx.userId
      validatedAt := some ctx.now
      closedAt := some ctx.now }
  | "accept_risk" => { f with closedAt := some ctx.now }
  | "return_to_draft" => { f with agreedAt := none }
  | _ => f

/-- What a transition makes of the recommendations that are open. -/
def recommendationChange (ctx : Ctx) (t : Transition FindingStatus) : Option (Recommendation → Recommendation) :=
  match t.action with
  | "agree" => some fun r => { r with status := .agreed }
  | "start_implementation" => some fun r => { r with status := .inProgress }
  | "validate_and_close" => some fun r => { r with
      status := .validated
      progressPct := 100
      completedAt := some ctx.now }
  | "accept_risk" => some fun r => { r with status := .notImplemented }
  | _ => none

/-- The entry of the history that a transition writes. -/
def statusEntry (ctx : Ctx) (id : Uuid) (dto : TransitionDto) (t : Transition FindingStatus) (finding : Finding) :
    FindingStatusHistory where
  tenantId := ctx.tenantId
  findingId := id
  fromStatus := some finding.status
  toStatus := t.toState
  changedById := ctx.userId
  comment := some (dto.comment.orNull.getD t.label)

/-- `findingStatusHistory.create`. -/
def insertStatusEntry (id : Uuid) (h : FindingStatusHistory) : Service Unit :=
  .call fun db =>
    if refersTo db.findings (some h.findingId) && refersTo db.users (some h.changedById) then do
      let findingHistory ← insertRow db.findingHistory id h
      pure ((), { db with findingHistory })
    else .error (.prisma .p2003)

/-- `recommendation.updateMany`: the recommendations of a finding that are neither
superseded nor validated. -/
def updateRecommendations (ctx : Ctx) (findingId : Uuid) (change : Option (Recommendation → Recommendation)) :
    Service Unit :=
  match change with
  | none => pure ()
  | some f => .write fun db => { db with
      recommendations := db.recommendations.modify
        (fun _ r => ctx.sees r && r.findingId = findingId && r.status ∉ [.superseded, .validated]) f }

/-- The transaction of `transition`. -/
def transitionTransaction (ctx : Ctx) (id : Uuid) (dto : TransitionDto) (t : Transition FindingStatus)
    (finding : Finding) : Service FindingView :=
  .transaction do
    let f ← updateFinding ctx id fun f => .ok (transitioned ctx t finding f)
    insertStatusEntry (ctx.uuid 0) (statusEntry ctx id dto t finding)
    updateRecommendations ctx id (recommendationChange ctx t)
    pure f

/-- Who is told of a transition. -/
def recipients (ctx : Ctx) (finding : Finding) (t : Transition FindingStatus) : Service (List (Option Uuid)) := do
  let eng ←
    if t.action ∈ ["submit", "request_validation"] then
      .read fun db => ctx.findById db.engagements finding.engagementId fun _ => true
    else pure none
  let leads := match eng with
    | some e => [e.leadId, e.managerId]
    | none => []
  pure (([some finding.raisedById, finding.actionOwnerId] ++ leads).filter (· ≠ some ctx.userId))

/-- The rest of `transition`, after its transaction. -/
def afterTransition (ctx : Ctx) (id : Uuid) (dto : TransitionDto) (finding updated : Finding)
    (t : Transition FindingStatus) : Service Unit := do
  auditRecord ctx "finding.status_changed" "Finding" id
  let users ← recipients ctx finding t
  notifyMany ctx users {
    type := "finding.status_changed"
    title := s!"{updated.reference} {updated.title}: {t.label.toLower}"
    body := dto.comment.orNull
    link := s!"/findings/{id}" }

/-- `transition`. -/
def transition (ctx : Ctx) (id : Uuid) (dto : TransitionDto) : Service FindingResponse := do
  let finding ← assertFinding ctx id
  let t ← workflowTransition guardRegistry FindingStatus.text findingWorkflow finding.status
    ⟨(id, finding), ctx, dto.action, dto.comment.orNull⟩ (extraGuardsFor dto.action)
  let updated ← transitionTransaction ctx id dto t finding
  afterTransition ctx id dto finding updated.row.2 t
  get ctx id

/-! ### Extensions -/

/-- The row that an extension leaves, where `before` is the row that the request has read. -/
def extended (dto : ExtendFindingDto) (before f : Finding) : Finding := { f with
  dueDate := some dto.dueDate
  originalDueDate := before.originalDueDate.or before.dueDate
  extensionCount := f.extensionCount + 1
  escalationLevel := 0 }

/-- `extend`. -/
def extend (ctx : Ctx) (id : Uuid) (dto : ExtendFindingDto) : Service AgedFinding := do
  let before ← assertFinding ctx id
  if before.status ∉ actionableStatuses then
    throw (.conflict "Only agreed findings that are being implemented can be extended")
  else if before.dueDate.any (dto.dueDate ≤ ·) then
    throw (.badRequest "The new due date must be later than the current one")
  else do
    let after ← updateFinding ctx id fun f => .ok (extended dto before f)
    auditRecord ctx "finding.extended" "Finding" id
    let newDue := isoDate dto.dueDate
    notifyMany ctx ([some before.raisedById, before.actionOwnerId].filter (· ≠ some ctx.userId)) {
      type := "finding.extended"
      title := s!"{after.row.2.reference} due date extended to {newDue} (extension #{after.row.2.extensionCount})"
      body := some dto.reason
      link := s!"/findings/{id}" }
    pure (after, withAgeing after.row.2 ctx.now)

/-! ### Recommendations -/

/-- The foreign keys of a recommendation refer to rows. -/
def recommendationConstrained (db : Db) (r : Recommendation) : Except HttpError Unit :=
  if refersTo db.findings (some r.findingId) && refersTo db.users r.ownerId then .ok () else .error (.prisma .p2003)

/-- A recommendation, with its owner. -/
abbrev RecommendationView := WithId Recommendation × Option (WithId User)

/-- `recommendation.create`. -/
def insertRecommendation (id : Uuid) (r : Recommendation) : Service RecommendationView :=
  .call fun db => do
    recommendationConstrained db r
    let recommendations ← insertRow db.recommendations id r
    pure (((id, r), related db.users r.ownerId), { db with recommendations })

/-- `recommendation.update` of one row. -/
def updateRecommendationRow (ctx : Ctx) (id : Uuid) (f : Recommendation → Except HttpError Recommendation) :
    Service RecommendationView :=
  .call fun db => do
    let (r, recommendations) ← updateRow ctx db.recommendations id f
    recommendationConstrained db r
    pure (((id, r), related db.users r.ownerId), { db with recommendations })

/-- The greatest sequence number of a finding's recommendations, or 0. -/
def maxSequence (ctx : Ctx) (db : Db) (findingId : Uuid) : ℕ :=
  ((ctx.findMany db.recommendations fun _ r => r.findingId = findingId).map fun r => r.2.sequence).foldr max 0

/-- The row of a new recommendation. -/
def newRecommendation (ctx : Ctx) (findingId : Uuid) (dto : CreateRecommendationDto) (finding : Finding)
    (sequence : ℕ) : Recommendation where
  tenantId := ctx.tenantId
  findingId
  sequence
  text := dto.text
  priority := dto.priority.orNull.getD .medium
  ownerId := dto.ownerId.orNull
  ownerName := dto.ownerName.orNull
  dueDate := dto.dueDate.orNull
  status := if finding.status = .draft ∨ finding.status = .managementReview then .proposed else .agreed
  actionPlan := dto.actionPlan.orNull
  progressNote := none
  progressPct := 0
  completedAt := none

/-- `addRecommendation`. -/
def addRecommendation (ctx : Ctx) (findingId : Uuid) (dto : CreateRecommendationDto) : Service RecommendationView := do
  let finding ← assertFinding ctx findingId
  if finding.status = .closed ∨ finding.status = .riskAccepted then
    throw (.conflict "Closed findings cannot receive recommendations")
  else do
    let max ← .read fun db => maxSequence ctx db findingId
    let created ← insertRecommendation (ctx.uuid 0) (newRecommendation ctx findingId dto finding (max + 1))
    auditRecord ctx "recommendation.created" "Recommendation" created.1.1
    pure created

/-- What those who may not manage findings may edit of a recommendation. -/
def recommendationOwnerFields : List String :=
  ["actionPlan", "progressNote", "progressPct", "status", "ownerId", "ownerName", "dueDate"]

/-- Who may edit what of a recommendation. -/
def assertRecommendationEditable (ctx : Ctx) (before : Recommendation) (finding : Finding)
    (dto : UpdateRecommendationDto) : Except HttpError Unit := do
  if !ctx.hasPermission .findingManage then
    let isOwner := before.ownerId = some ctx.userId || finding.actionOwnerId = some ctx.userId ||
      ctx.hasPermission .findingRespond
    if !isOwner then throw (.forbidden "You cannot edit this recommendation")
    if dto.supplied.any fun k => k ∉ recommendationOwnerFields then
      let allowed := ", ".intercalate recommendationOwnerFields
      throw (.forbidden s!"Business owners may only edit: {allowed}")
    if dto.status.orNull.any fun s => s ∉ [.inProgress, .implemented] then
      throw (.forbidden "Business owners can only mark recommendations IN_PROGRESS or IMPLEMENTED")

/-- `updateRecommendation`. The finding of the recommendation is there by the foreign key. -/
def updateRecommendation (ctx : Ctx) (id : Uuid) (dto : UpdateRecommendationDto) : Service RecommendationView := do
  let before ← .read fun db => do
    let r ← ctx.findById db.recommendations id fun _ => true
    let f ← db.findings.find r.findingId
    pure (r, f)
  match before with
  | none => throw (.notFound "Recommendation not found")
  | some (before, finding) => do
    ObjectAccess.assertFinding ctx before.findingId
    match assertRecommendationEditable ctx before finding dto with
    | .error e => throw e
    | .ok () => do
      let after ← updateRecommendationRow ctx id (dto.apply ctx before)
      auditRecord ctx "recommendation.updated" "Recommendation" id
      notify ctx ((some finding.raisedById).filter fun u =>
          dto.status.orNull = some .implemented && u ≠ ctx.userId) {
        type := "recommendation.implemented"
        title := s!"Recommendation {before.sequence} on {finding.reference} marked implemented"
        body := dto.progressNote.orNull
        link := s!"/findings/{before.findingId}" }
      pure after

/-! ### All operations -/

/-- A request that changes findings or their recommendations, with its user. -/
inductive Operation where
  /-- A finding is created or edited. -/
  | edit (r : Request)
  | transition (ctx : Ctx) (id : Uuid) (dto : TransitionDto)
  | extend (ctx : Ctx) (id : Uuid) (dto : ExtendFindingDto)
  | addRecommendation (ctx : Ctx) (findingId : Uuid) (dto : CreateRecommendationDto)
  | updateRecommendation (ctx : Ctx) (id : Uuid) (dto : UpdateRecommendationDto)

/-- The user who makes the request. -/
def Operation.ctx : Operation → Ctx
  | .edit r => r.ctx
  | .transition ctx _ _ | .extend ctx _ _ | .addRecommendation ctx _ _ | .updateRecommendation ctx _ _ => ctx

/-- What a request answers. -/
inductive Outcome where
  | edited (r : Response)
  | moved (f : FindingResponse)
  | extended (f : AgedFinding)
  | recommendation (r : RecommendationView)

/-- The permission that the route asks for; several are alternatives. -/
def Operation.permissions : Operation → List PermissionKey
  | .edit r => r.permissions
  | .transition .. => [.findingRead]
  | .extend .. => [.findingManage, .findingValidate]
  | .addRecommendation .. => [.findingManage]
  | .updateRecommendation .. => [.findingManage, .findingRespond]

/-- The controller: the user must hold a permission of the route. -/
def perform (o : Operation) : Service Outcome :=
  let required := " or ".intercalate (o.permissions.map PermissionKey.key)
  if o.permissions.all fun p => !o.ctx.hasPermission p then throw (.forbidden s!"Missing permission: {required}")
  else match o with
    | .edit r => do return .edited (← serve r)
    | .transition ctx id dto => do return .moved (← transition ctx id dto)
    | .extend ctx id dto => do return .extended (← extend ctx id dto)
    | .addRecommendation ctx findingId dto => do return .recommendation (← addRecommendation ctx findingId dto)
    | .updateRecommendation ctx id dto => do return .recommendation (← updateRecommendation ctx id dto)

end AuditSphere.Findings
