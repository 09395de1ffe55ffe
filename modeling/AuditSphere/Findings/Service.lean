import AuditSphere.Auth.ObjectAccess
import AuditSphere.Common.References
import AuditSphere.Shared.Ageing
import AuditSphere.Workflow.Service

/-!
# The findings service

`FindingsService`: the guards it registers, its queries, and the creation and editing
of findings. Every access to one finding goes through `assertFinding`, which confines
portal users to the findings that concern them.

A reference is allocated as for evidence, by up to five attempts. The evidence linked
to a finding is a set of ids on its row. The text search of a listing is a parameter
of the query (`q`); its order and page are left open.
-/

namespace AuditSphere.Findings

open Prisma Theory Shared

/-! ### Requests -/

/-- `FindingListQueryDto`; `q` says which texts the search finds. -/
structure FindingListQueryDto where
  engagementId : Option Uuid := none
  entityId : Option Uuid := none
  status : Option FindingStatus := none
  severity : Option FindingSeverity := none
  actionOwnerId : Option Uuid := none
  overdue : Option Bool := none
  mine : Option Bool := none
  isRepeat : Option Bool := none
  q : Option (String → Bool) := none

/-- `CreateFindingDto`. -/
structure CreateFindingDto where
  engagementId : Uuid
  title : String
  severity : FindingSeverity
  condition : String
  criteria : String
  cause : Field String := none
  impact : Field String := none
  recommendation : Field String := none
  workpaperId : Field Uuid := none
  riskId : Field Uuid := none
  controlId : Field Uuid := none
  processId : Field Uuid := none
  entityId : Field Uuid := none
  rootCauseCategory : Field RootCauseCategory := none
  category : Field String := none
  repeatOfId : Field Uuid := none
  actionOwnerId : Field Uuid := none
  actionOwnerName : Field String := none
  actionOwnerEmail : Field String := none
  dueDate : Field Date := none

/-- `UpdateFindingDto`. -/
structure UpdateFindingDto where
  engagementId : Field Uuid := none
  title : Field String := none
  severity : Field FindingSeverity := none
  condition : Field String := none
  criteria : Field String := none
  cause : Field String := none
  impact : Field String := none
  recommendation : Field String := none
  managementResponse : Field String := none
  workpaperId : Field Uuid := none
  riskId : Field Uuid := none
  controlId : Field Uuid := none
  processId : Field Uuid := none
  entityId : Field Uuid := none
  rootCauseCategory : Field RootCauseCategory := none
  category : Field String := none
  repeatOfId : Field Uuid := none
  actionOwnerId : Field Uuid := none
  actionOwnerName : Field String := none
  actionOwnerEmail : Field String := none
  dueDate : Field Date := none
  evidenceIds : Field (List Uuid) := none

/-- `BUSINESS_OWNER_FIELDS`. -/
def businessOwnerFields : List String :=
  ["managementResponse", "actionOwnerId", "actionOwnerName", "actionOwnerEmail", "dueDate"]

/-- The properties that are supplied. -/
def UpdateFindingDto.supplied (dto : UpdateFindingDto) : List String :=
  [("engagementId", dto.engagementId.isSome), ("title", dto.title.isSome), ("severity", dto.severity.isSome),
    ("condition", dto.condition.isSome), ("criteria", dto.criteria.isSome), ("cause", dto.cause.isSome),
    ("impact", dto.impact.isSome), ("recommendation", dto.recommendation.isSome),
    ("managementResponse", dto.managementResponse.isSome), ("workpaperId", dto.workpaperId.isSome),
    ("riskId", dto.riskId.isSome), ("controlId", dto.controlId.isSome), ("processId", dto.processId.isSome),
    ("entityId", dto.entityId.isSome), ("rootCauseCategory", dto.rootCauseCategory.isSome),
    ("category", dto.category.isSome), ("repeatOfId", dto.repeatOfId.isSome),
    ("actionOwnerId", dto.actionOwnerId.isSome), ("actionOwnerName", dto.actionOwnerName.isSome),
    ("actionOwnerEmail", dto.actionOwnerEmail.isSome), ("dueDate", dto.dueDate.isSome),
    ("evidenceIds", dto.evidenceIds.isSome)].filterMap fun f => if f.2 then some f.1 else none

/-- What the supplied properties make of a finding; the engagement is not changed. -/
def UpdateFindingDto.apply (dto : UpdateFindingDto) (f : Finding) : Except HttpError Finding :=
  match dto.title.onRequired f.title, dto.severity.onRequired f.severity, dto.condition.onRequired f.condition,
    dto.criteria.onRequired f.criteria with
  | some title, some severity, some condition, some criteria => .ok { f with
      title
      severity
      condition
      criteria
      cause := dto.cause.onNullable f.cause
      impact := dto.impact.onNullable f.impact
      recommendation := dto.recommendation.onNullable f.recommendation
      managementResponse := dto.managementResponse.onNullable f.managementResponse
      workpaperId := dto.workpaperId.onNullable f.workpaperId
      riskId := dto.riskId.onNullable f.riskId
      controlId := dto.controlId.onNullable f.controlId
      processId := dto.processId.onNullable f.processId
      entityId := dto.entityId.onNullable f.entityId
      rootCauseCategory := dto.rootCauseCategory.onNullable f.rootCauseCategory
      category := dto.category.onNullable f.category
      repeatOfId := dto.repeatOfId.onNullable f.repeatOfId
      isRepeat := (dto.repeatOfId.map Option.isSome).getD f.isRepeat
      actionOwnerId := dto.actionOwnerId.onNullable f.actionOwnerId
      actionOwnerName := dto.actionOwnerName.onNullable f.actionOwnerName
      actionOwnerEmail := dto.actionOwnerEmail.onNullable f.actionOwnerEmail
      dueDate := dto.dueDate.onNullable f.dueDate
      -- the linked set is replaced if a list is given
      evidenceIds := (dto.evidenceIds.orNull.map List.eraseDups).getD f.evidenceIds }
  | _, _, _, _ => .error (.prisma .validation)

/-! ### Guards -/

/-- `ACTIONABLE_STATUSES`. -/
def actionableStatuses : List FindingStatus := [.agreed, .implementation, .validation]

/-- `VALIDATOR_GUARD`. -/
def validatorGuard : String := "validator_is_not_action_owner"

/-- The guards that the service registers. -/
def guardRegistry : GuardRegistry (Uuid × Finding) FindingStatus :=
  let m := findingWorkflow.name
  let empty : GuardRegistry (Uuid × Finding) FindingStatus := []
  let r := empty.register m "has_condition_criteria" fun g =>
    pure ⟨!isBlank g.entity.2.condition && !isBlank g.entity.2.criteria, "Condition and criteria must be documented"⟩
  let r := r.register m "has_recommendation" fun g =>
    if !isBlank g.entity.2.recommendation then pure ⟨true, none⟩
    else .read fun db =>
      let count := g.actor.count db.recommendations fun _ r => r.findingId = g.entity.1
      ⟨0 < count, "At least one recommendation is required"⟩
  let r := r.register m "has_management_response" fun g =>
    pure ⟨!isBlank g.entity.2.managementResponse, "A management response is required"⟩
  let r := r.register m "has_action_owner_and_due_date" fun g =>
    let f := g.entity.2
    let hasOwner := f.actionOwnerId.isSome || !isBlank f.actionOwnerName || !isBlank f.actionOwnerEmail
    let hasDueDate := f.dueDate.isSome
    pure ⟨hasOwner && hasDueDate,
      if !hasOwner && !hasDueDate then "An action owner and a due date are required"
      else if !hasOwner then "An action owner is required. Select a platform user or enter an external owner."
      else if !hasDueDate then "A due date is required. The recorded action owner is already sufficient."
      else "Action owner and due date are recorded."⟩
  let r := r.register m "has_implementation_evidence" fun g => do
    let evidence ← .read fun db => g.actor.count db.evidence fun i _ =>
      (db.findings.find g.entity.1).any fun f => i ∈ f.evidenceIds
    let documents ← .read fun db => g.actor.count db.documents fun _ d =>
      d.ownerType = some "Finding" && d.ownerId = some g.entity.1 && d.deletedAt.isNone && d.uploadedAt.isSome
    let implemented ← .read fun db => g.actor.count db.recommendations fun _ r =>
      r.findingId = g.entity.1 && r.status ∈ [.implemented, .validated]
    pure ⟨0 < evidence + documents + implemented,
      "Attach implementation evidence (document or evidence record) before requesting validation"⟩
  r.register m validatorGuard fun g =>
    pure ⟨g.entity.2.actionOwnerId.isNone || g.entity.2.actionOwnerId ≠ some g.actor.userId,
      "The action owner cannot validate their own finding"⟩

/-- `extraGuardsFor`. -/
def extraGuardsFor (action : String) : List String :=
  if action = "validate_and_close" ∨ action = "reject_validation" then [validatorGuard] else []

/-! ### Queries -/

/-- `buildFindingsWhere`: by email the user is also the owner of findings that are only
addressed to the user. -/
def findingsWhere (query : FindingListQueryDto) (ctx : Ctx) (f : Finding) : Bool :=
  f.deletedAt.isNone && query.engagementId.all (f.engagementId = ·) && query.entityId.all (f.entityId = some ·) &&
    query.severity.all (f.severity = ·) && query.isRepeat.all (f.isRepeat = ·) &&
    (if query.mine = some true then f.actionOwnerId = some ctx.userId || ObjectAccess.byEmail ctx f.actionOwnerEmail
      else query.actionOwnerId.all (f.actionOwnerId = some ·)) &&
    (if query.overdue = some true then f.dueDate.any (· < ctx.now) &&
        (match query.status with | some s => f.status = s | none => f.status ∈ actionableStatuses)
      else query.status.all (f.status = ·)) &&
    query.q.all fun finds => finds f.title || finds f.reference || finds f.condition

/-- A finding with `LIST_INCLUDE`. The related rows are not scoped. -/
structure FindingView where
  row : WithId Finding
  engagement : Option (WithId Engagement)
  entity : Option (WithId AuditEntity)
  actionOwner : Option (WithId User)
  raisedBy : Option (WithId User)
  recommendationCount : ℕ
  evidenceCount : ℕ

/-- The row with what `LIST_INCLUDE` adds. -/
def view (db : Db) (row : WithId Finding) : FindingView where
  row
  engagement := related db.engagements (some row.2.engagementId)
  entity := related db.entities row.2.entityId
  actionOwner := related db.users row.2.actionOwnerId
  raisedBy := related db.users (some row.2.raisedById)
  recommendationCount := db.recommendations.count fun _ r => r.findingId = row.1
  evidenceCount := db.evidence.count fun i _ => i ∈ row.2.evidenceIds

/-- How overdue a finding is. -/
structure FindingAge where
  ageingBucket : String
  daysOverdue : ℕ
  isOverdue : Bool
  deriving DecidableEq

/-- `withAgeing`: only findings that are being acted on can be overdue. -/
def withAgeing (f : Finding) (now : Date) : FindingAge :=
  let active := decide (f.status ∈ actionableStatuses)
  { ageingBucket := if active then ageingBucket f.dueDate now else "NOT_DUE"
    daysOverdue := if active then daysOverdue f.dueDate now else 0
    isOverdue := active && 0 < daysOverdue f.dueDate now }

/-- A finding as it is listed. -/
abbrev AgedFinding := FindingView × FindingAge

/-- A finding with everything that `get` includes. -/
structure FindingDetail extends FindingView where
  workpaper : Option (WithId Workpaper)
  risk : Option (WithId Risk)
  control : Option (WithId Control)
  process : Option (WithId Process)
  validatedBy : Option (WithId User)
  repeatOf : Option (WithId Finding)
  /-- The recommendations, with their owner. -/
  recommendations : List (WithId Recommendation × Option (WithId User))
  /-- The changes of the status, with the user who made them. -/
  statusHistory : List (WithId FindingStatusHistory × Option (WithId User))
  /-- The linked evidence, with its document. -/
  evidence : List (WithId Evidence × Option (WithId Document))

/-- The row with what `get` includes. -/
def detail (db : Db) (row : WithId Finding) : FindingDetail where
  toFindingView := view db row
  workpaper := related db.workpapers row.2.workpaperId
  risk := related db.risks row.2.riskId
  control := related db.controls row.2.controlId
  process := related db.processes row.2.processId
  validatedBy := related db.users row.2.validatedById
  repeatOf := related db.findings row.2.repeatOfId
  recommendations := (db.recommendations.rows fun _ r => r.findingId = row.1).map fun r =>
    (r, related db.users r.2.ownerId)
  statusHistory := (db.findingHistory.rows fun _ h => h.findingId = row.1).map fun h =>
    (h, related db.users (some h.2.changedById))
  evidence := (db.evidence.rows fun i _ => i ∈ row.2.evidenceIds).map fun e =>
    (e, related db.documents e.2.documentId)

/-- `list`. -/
def list (ctx : Ctx) (query : FindingListQueryDto) : Service (List AgedFinding) :=
  .read fun db => (ctx.findMany db.findings fun _ f => findingsWhere query ctx f && ObjectAccess.findingScope ctx db f).map
    fun row => (view db row, withAgeing row.2 ctx.now)

/-- The documents of a finding that the user may see. -/
def documentsOf (ctx : Ctx) (id : Uuid) (scope : Uuid → Document → Bool) (db : Db) : List (WithId Document) :=
  ctx.findMany db.documents fun j d => d.ownerType = some "Finding" && d.ownerId = some id && d.deletedAt.isNone &&
    (ctx.hasPermission .documentRestricted || d.classification ≠ .restricted) && scope j d

/-- What `get` answers. -/
structure FindingResponse where
  finding : FindingDetail
  age : FindingAge
  documents : List (WithId Document)
  availableActions : List (AvailableAction FindingStatus)

/-- `get`. -/
def get (ctx : Ctx) (id : Uuid) : Service FindingResponse := do
  ObjectAccess.assertFinding ctx id
  let scope ← ObjectAccess.documentScope ctx
  let f ← .read fun db =>
    (ctx.findById db.findings id fun f => f.deletedAt.isNone).map fun f => detail db (id, f)
  match f with
  | none => throw (.notFound "Finding not found")
  | some f => do
    let documents ← .read (documentsOf ctx id scope)
    let actions ← workflowAvailableActions guardRegistry findingWorkflow f.row.2.status ctx f.row
      fun t => extraGuardsFor t.action
    pure ⟨f, withAgeing f.row.2 ctx.now, documents, actions⟩

/-- `assertFinding`. -/
def assertFinding (ctx : Ctx) (id : Uuid) : Service Finding := do
  ObjectAccess.assertFinding ctx id
  let f ← .read fun db => ctx.findById db.findings id fun f => f.deletedAt.isNone
  match f with
  | none => throw (.notFound "Finding not found")
  | some f => pure f

/-! ### Writes of a finding -/

/-- The constraints of the table: the reference is unique within the engagement, and
the foreign keys and links refer to rows. -/
def constrained (db : Db) (id : Uuid) (f : Finding) : Except HttpError Unit :=
  if (db.findings.first fun j r => j ≠ id && r.engagementId = f.engagementId && r.reference = f.reference).isSome then
    .error (.prisma .p2002)
  else if f.evidenceIds.any fun e => (db.evidence.find e).isNone then .error (.prisma .p2025)
  else if refersTo db.engagements (some f.engagementId) && refersTo db.workpapers f.workpaperId &&
      refersTo db.entities f.entityId && refersTo db.processes f.processId && refersTo db.risks f.riskId &&
      refersTo db.controls f.controlId && refersTo db.users f.actionOwnerId && refersTo db.users f.validatedById &&
      refersTo db.findings f.repeatOfId && refersTo db.users (some f.raisedById) then .ok ()
  else .error (.prisma .p2003)

/-- `finding.create`, with the first entry of its history. -/
def insertFinding (id historyId : Uuid) (f : Finding) (h : FindingStatusHistory) : Service (WithId Finding) :=
  .call fun db => do
    constrained db id f
    let findings ← insertRow db.findings id f
    let findingHistory ← insertRow db.findingHistory historyId h
    pure ((id, f), { db with findings, findingHistory })

/-- `finding.update` of one row. -/
def updateFinding (ctx : Ctx) (id : Uuid) (f : Finding → Except HttpError Finding) : Service FindingView :=
  .call fun db => do
    let (f', findings) ← updateRow ctx db.findings id f
    constrained db id f'
    pure (view { db with findings } (id, f'), { db with findings })

/-! ### Checks -/

/-- `assertActionOwner`, if an owner is given. -/
def assertActionOwner (ctx : Ctx) (actionOwnerId : Field Uuid) : Service Unit :=
  assertRelated ctx Db.users actionOwnerId (fun _ u => u.status = .active && u.deletedAt.isNone)
    (.badRequest "Action owner must be an active user in this organisation.")

/-- The workpaper of a new finding, if one is given, must be one of the engagement. -/
def assertWorkpaperOf (ctx : Ctx) (engagementId : Uuid) (workpaperId : Field Uuid) : Service Unit :=
  assertRelated ctx Db.workpapers workpaperId (fun _ w => w.engagementId = engagementId && w.deletedAt.isNone)
    (.badRequest "Workpaper not found on this engagement")

/-- The finding that a new one repeats, if one is given, must be one of the tenant. -/
def assertRepeated (ctx : Ctx) (repeatOfId : Field Uuid) : Service Unit :=
  assertRelated ctx Db.findings repeatOfId (fun _ f => f.deletedAt.isNone)
    (.badRequest "repeatOfId does not reference a finding in this tenant")

/-- The evidence to link, if it is given, must all be on the engagement. -/
def assertEvidence (ctx : Ctx) (engagementId : Uuid) (evidenceIds : Field (List Uuid)) : Service Unit :=
  match evidenceIds.orNull with
  | none => pure ()
  | some ids => do
    let count ← .read fun db => ctx.count db.evidence fun i e => i ∈ ids && e.engagementId = engagementId
    if count ≠ ids.eraseDups.length then
      throw (.badRequest "One or more evidence records were not found on this engagement")
    else pure ()

/-- Who may edit what of a finding, and when. -/
def assertEditable (ctx : Ctx) (before : Finding) (dto : UpdateFindingDto) : Except HttpError Unit := do
  if !ctx.hasPermission .findingManage then
    if !ctx.hasPermission .findingRespond then throw (.forbidden "Missing permission: finding:manage")
    if dto.supplied.any fun k => k ∉ businessOwnerFields then
      let fields := ", ".intercalate businessOwnerFields
      throw (.forbidden s!"Business owners may only edit: {fields}")
    if before.status ∉ [.managementReview, .agreed, .implementation] then
      throw (.conflict ("Management response can only be edited while the finding is under review or being " ++
        "implemented"))
  if before.status = .closed ∨ before.status = .riskAccepted then throw (.conflict "Closed findings cannot be edited")

/-! ### Creation -/

/-- `nextFindingReference`: `F-01`, `F-02`, ... from the highest existing reference. -/
def nextFindingReference (latest : Option String) : String :=
  let seq := ((latest.bind (referenceNumber 'F')).map (· + 1)).getD 1
  "F-" ++ pad seq 2

/-- The latest reference of an engagement. -/
def latestReference (ctx : Ctx) (db : Db) (engagementId : Uuid) : Option String :=
  greatest ((ctx.findMany db.findings fun _ f => f.engagementId = engagementId && f.reference.startsWith "F-").map
    fun f => f.2.reference)

/-- The row of a new finding; its entity is by default that of the engagement. -/
def newFinding (ctx : Ctx) (dto : CreateFindingDto) (engagement : Engagement) (reference : String) : Finding where
  tenantId := ctx.tenantId
  engagementId := dto.engagementId
  workpaperId := dto.workpaperId.orNull
  entityId := dto.entityId.onNullable engagement.entityId
  processId := dto.processId.orNull
  riskId := dto.riskId.orNull
  controlId := dto.controlId.orNull
  reference
  title := dto.title
  severity := dto.severity
  status := .draft
  condition := dto.condition
  criteria := dto.criteria
  cause := dto.cause.orNull
  impact := dto.impact.orNull
  recommendation := dto.recommendation.orNull
  managementResponse := none
  rootCauseCategory := dto.rootCauseCategory.orNull
  category := dto.category.orNull
  actionOwnerId := dto.actionOwnerId.orNull
  actionOwnerName := dto.actionOwnerName.orNull
  actionOwnerEmail := dto.actionOwnerEmail.orNull
  dueDate := dto.dueDate.orNull
  originalDueDate := none
  extensionCount := 0
  agreedAt := none
  implementedAt := none
  validatedById := none
  validatedAt := none
  closedAt := none
  isRepeat := dto.repeatOfId.orNull.isSome
  repeatOfId := dto.repeatOfId.orNull
  raisedById := ctx.userId
  reminderCount := 0
  lastReminderAt := none
  escalationLevel := 0
  evidenceIds := []
  createdAt := ctx.now
  deletedAt := none

/-- The first entry of the history of a finding. -/
def raised (ctx : Ctx) (id : Uuid) : FindingStatusHistory where
  tenantId := ctx.tenantId
  findingId := id
  fromStatus := none
  toStatus := .draft
  changedById := ctx.userId
  comment := "Finding raised"

/-- The loop of `create`: with so many attempts left, number the finding and insert it. -/
def insertNumbered (ctx : Ctx) (dto : CreateFindingDto) (engagement : Engagement) : ℕ → Service (WithId Finding)
  | 0 => throw (.conflict "Could not allocate a finding reference")
  | left + 1 => do
    let attempt := 4 - left
    let latest ← .read fun db => latestReference ctx db dto.engagementId
    let id := ctx.uuid (2 * attempt)
    (insertFinding id (ctx.uuid (2 * attempt + 1)) (newFinding ctx dto engagement (nextFindingReference latest))
      (raised ctx id)).catching fun err =>
        if err = .prisma .p2002 ∧ attempt < 4 then insertNumbered ctx dto engagement left else throw err

/-- `create`. -/
def create (ctx : Ctx) (dto : CreateFindingDto) : Service FindingView := do
  let engagement ← .read fun db => ctx.findById db.engagements dto.engagementId fun e => e.deletedAt.isNone
  match engagement with
  | none => throw (.notFound "Engagement not found")
  | some engagement =>
    if engagement.stage = .closed then throw (.conflict "Closed engagements cannot receive new findings")
    else do
      assertActionOwner ctx dto.actionOwnerId
      assertWorkpaperOf ctx dto.engagementId dto.workpaperId
      assertRepeated ctx dto.repeatOfId
      let created ← insertNumbered ctx dto engagement 5
      auditRecord ctx "finding.created" "Finding" created.1
      let found ← .read fun db => (ctx.findById db.findings created.1 fun _ => true).map fun f => view db (created.1, f)
      match found with
      | none => throw (.prisma .p2025)
      | some found => pure found

/-! ### Editing -/

/-- A new action owner is told, unless the user is the owner. -/
def notifyOwner (ctx : Ctx) (id : Uuid) (actionOwnerId : Field Uuid) (before after : Finding) : Service Unit :=
  notify ctx (actionOwnerId.orNull.filter fun u => before.actionOwnerId ≠ some u && u ≠ ctx.userId) {
    type := "finding.assigned"
    title := s!"You are the action owner for {after.reference} {after.title}"
    link := s!"/findings/{id}" }

/-- `update`. Unlike `create` it does not look at the records that the finding is to refer to. -/
def update (ctx : Ctx) (id : Uuid) (dto : UpdateFindingDto) : Service AgedFinding := do
  let before ← assertFinding ctx id
  match assertEditable ctx before dto with
  | .error e => throw e
  | .ok () => do
    assertActionOwner ctx dto.actionOwnerId
    assertEvidence ctx before.engagementId dto.evidenceIds
    let after ← updateFinding ctx id dto.apply
    auditRecord ctx "finding.updated" "Finding" id
    notifyOwner ctx id dto.actionOwnerId before after.row.2
    pure (after, withAgeing after.row.2 ctx.now)

/-! ### All requests -/

/-- A request that creates or edits findings, with its user. -/
inductive Request where
  | create (ctx : Ctx) (dto : CreateFindingDto)
  | update (ctx : Ctx) (id : Uuid) (dto : UpdateFindingDto)

/-- The user who makes the request. -/
def Request.ctx : Request → Ctx
  | .create ctx _ | .update ctx _ _ => ctx

/-- What a request answers. -/
inductive Response where
  | created (f : FindingView)
  | updated (f : AgedFinding)

/-- The permission that the route asks for; several are alternatives. -/
def Request.permissions : Request → List PermissionKey
  | .create .. => [.findingManage]
  | .update .. => [.findingManage, .findingRespond]

/-- The controller: the user must hold a permission of the route. -/
def serve (r : Request) : Service Response :=
  let required := " or ".intercalate (r.permissions.map PermissionKey.key)
  if r.permissions.all fun p => !r.ctx.hasPermission p then throw (.forbidden s!"Missing permission: {required}")
  else match r with
    | .create ctx dto => do return .created (← create ctx dto)
    | .update ctx id dto => do return .updated (← update ctx id dto)

end AuditSphere.Findings
