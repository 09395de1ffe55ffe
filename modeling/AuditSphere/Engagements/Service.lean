import AuditSphere.Common.Dates
import AuditSphere.Documents.Service
import AuditSphere.Workflow.Service

/-!
# The engagements service

`EngagementsService`: the guards it registers, and the creation, editing and transitions of
engagements. An engagement is numbered within its tenant and year (`audit-number.ts`), by
up to five attempts. Its members are a set of users on its row; the users who are named as
its lead, manager or partner become members.

A transition writes the new stage, what goes with it and an entry of the history in one
transaction; the transition and its guards are checked before, on the row as it was read
then. What it writes besides, to the audit universe and the audit plan, is left out.
-/

namespace AuditSphere.Engagements

open Prisma Theory Shared

/-! ### Audit numbers -/

/-- `formatAuditNumber`: `IA-2026-007`. -/
def formatAuditNumber (year seq : ℕ) : Except HttpError String :=
  if year < 1000 ∨ 9999 < year then .error (.internal s!"Invalid year {year}")
  else if seq < 1 then .error (.internal s!"Invalid sequence {seq}")
  else .ok ("IA-" ++ toString year ++ "-" ++ pad seq 3)

/-- The text without white space at its ends. -/
def trimmed (s : List Char) : List Char := ((s.dropWhile isTrimmed).reverse.dropWhile isTrimmed).reverse

/-- `parseAuditNumber`: four digits and at least three digits. -/
def parseAuditNumber (value : String) : Option (ℕ × ℕ) :=
  match trimmed value.toList with
  | 'I' :: 'A' :: '-' :: rest =>
    let year := rest.take 4
    let seq := rest.drop 5
    if year.length = 4 ∧ year.all Char.isDigit ∧ rest[4]? = some '-' ∧ 3 ≤ seq.length ∧ seq.all Char.isDigit then
      some (Nat.ofDigitChars 10 year 0, Nat.ofDigitChars 10 seq 0)
    else none
  | _ => none

/-- `nextAuditNumber`, after the highest existing one of the year. -/
def nextAuditNumber (year : ℕ) (latest : Option String) : Except HttpError String :=
  let seq := match latest.bind parseAuditNumber with
    | some (parsedYear, seq) => if parsedYear = year then seq + 1 else 1
    | none => 1
  formatAuditNumber year seq

/-- `auditNumberPrefix`. -/
def auditNumberPrefix (year : ℕ) : String := "IA-" ++ toString year ++ "-"

/-! ### Requests -/

/-- `CreateEngagementDto`. -/
structure CreateEngagementDto where
  title : String
  type : EngagementType
  entityId : Field Uuid := none
  objectives : Field String := none
  scope : Field String := none
  outOfScope : Field String := none
  background : Field String := none
  periodStart : Field Date := none
  periodEnd : Field Date := none
  plannedStart : Field Date := none
  plannedEnd : Field Date := none
  budgetHours : Field ℚ := none
  budgetAmount : Field ℚ := none
  leadId : Field Uuid := none
  managerId : Field Uuid := none
  partnerId : Field Uuid := none
  riskRating : Field RiskRating := none

/-- `UpdateEngagementDto`. -/
structure UpdateEngagementDto where
  title : Field String := none
  type : Field EngagementType := none
  entityId : Field Uuid := none
  objectives : Field String := none
  scope : Field String := none
  outOfScope : Field String := none
  background : Field String := none
  periodStart : Field Date := none
  periodEnd : Field Date := none
  plannedStart : Field Date := none
  plannedEnd : Field Date := none
  actualStart : Field Date := none
  actualEnd : Field Date := none
  budgetHours : Field ℚ := none
  budgetAmount : Field ℚ := none
  leadId : Field Uuid := none
  managerId : Field Uuid := none
  partnerId : Field Uuid := none
  riskRating : Field RiskRating := none
  status : Field EngagementStatus := none
  opinion : Field AuditOpinion := none
  executiveSummary : Field String := none
  reportDocumentId : Field Uuid := none

/-- What the supplied properties make of an engagement. -/
def UpdateEngagementDto.apply (dto : UpdateEngagementDto) (e : Engagement) : Except HttpError Engagement :=
  match dto.title.onRequired e.title, dto.type.onRequired e.type, dto.riskRating.onRequired e.riskRating,
    dto.status.onRequired e.status, dto.opinion.onRequired e.opinion with
  | some title, some type, some riskRating, some status, some opinion => .ok { e with
      title
      type
      entityId := dto.entityId.onNullable e.entityId
      objectives := dto.objectives.onNullable e.objectives
      scope := dto.scope.onNullable e.scope
      outOfScope := dto.outOfScope.onNullable e.outOfScope
      background := dto.background.onNullable e.background
      periodStart := dto.periodStart.onNullable e.periodStart
      periodEnd := dto.periodEnd.onNullable e.periodEnd
      plannedStart := dto.plannedStart.onNullable e.plannedStart
      plannedEnd := dto.plannedEnd.onNullable e.plannedEnd
      actualStart := dto.actualStart.onNullable e.actualStart
      actualEnd := dto.actualEnd.onNullable e.actualEnd
      budgetHours := dto.budgetHours.onNullable e.budgetHours
      budgetAmount := dto.budgetAmount.onNullable e.budgetAmount
      leadId := dto.leadId.onNullable e.leadId
      managerId := dto.managerId.onNullable e.managerId
      partnerId := dto.partnerId.onNullable e.partnerId
      riskRating
      status
      opinion
      executiveSummary := dto.executiveSummary.onNullable e.executiveSummary
      reportDocumentId := dto.reportDocumentId.onNullable e.reportDocumentId }
  | _, _, _, _, _ => .error (.prisma .validation)

/-! ### Guards -/

/-- The workpapers of an engagement that are not deleted and of which `p` holds. -/
def workpaperCount (ctx : Ctx) (db : Db) (engagementId : Uuid) (p : Workpaper → Bool) : ℕ :=
  ctx.count db.workpapers fun _ w => w.engagementId = engagementId && w.deletedAt.isNone && p w

/-- The review notes on workpapers of an engagement that are not cleared. -/
def uncleared (ctx : Ctx) (db : Db) (engagementId : Uuid) : ℕ :=
  ctx.count db.reviewNotes fun _ n =>
    (db.workpapers.find n.workpaperId).any (fun w => w.engagementId = engagementId && w.deletedAt.isNone) &&
      n.status ∈ [.opened, .addressed]

/-- The findings of an engagement. -/
def findingsOf (ctx : Ctx) (db : Db) (engagementId : Uuid) : List (WithId Finding) :=
  ctx.findMany db.findings fun _ f => f.engagementId = engagementId && f.deletedAt.isNone

/-- The finding has no action owner. -/
def unassigned (f : Finding) : Bool :=
  f.actionOwnerId.isNone && isBlank f.actionOwnerName && isBlank f.actionOwnerEmail

/-- The guards that the service registers. -/
def guardRegistry : GuardRegistry (Uuid × Engagement) EngagementStage :=
  let m := engagementWorkflow.name
  let empty : GuardRegistry (Uuid × Engagement) EngagementStage := []
  let r := empty.register m "has_objectives_and_scope" fun g =>
    pure ⟨!isBlank g.entity.2.objectives && !isBlank g.entity.2.scope, "Objectives and scope must be documented"⟩
  let r := r.register m "has_lead" fun g => pure ⟨g.entity.2.leadId.isSome, "An engagement lead must be assigned"⟩
  let r := r.register m "programme_approved" fun g => .read fun db =>
    let approved := g.actor.count db.programs fun _ p =>
      p.engagementId = g.entity.1 && p.status ∈ [.approved, .inProgress, .completed]
    ⟨0 < approved, "At least one audit programme must be approved"⟩
  let r := r.register m "all_workpapers_prepared" fun g => do
    let total ← .read fun db => workpaperCount g.actor db g.entity.1 fun _ => true
    let drafts ← .read fun db => workpaperCount g.actor db g.entity.1 fun w => w.status = .draft
    if total = 0 then pure ⟨false, "No workpapers have been created"⟩
    else pure ⟨drafts = 0, s!"{drafts} workpaper(s) still in draft"⟩
  let r := r.register m "all_workpapers_signed_off" fun g => do
    let total ← .read fun db => workpaperCount g.actor db g.entity.1 fun _ => true
    let pending ← .read fun db => workpaperCount g.actor db g.entity.1 fun w => w.status ≠ .signedOff
    if total = 0 then pure ⟨false, "No workpapers have been created"⟩
    else pure ⟨pending = 0, s!"{pending} workpaper(s) not yet signed off"⟩
  let r := r.register m "no_open_review_notes" fun g => .read fun db =>
    let opened := uncleared g.actor db g.entity.1
    ⟨opened = 0, s!"{opened} review note(s) not yet cleared"⟩
  let r := r.register m "all_findings_agreed_or_accepted" fun g => .read fun db =>
    let pending := ((findingsOf g.actor db g.entity.1).filter fun f => f.2.status ∈ [.draft, .managementReview]).length
    ⟨pending = 0, s!"{pending} finding(s) awaiting management agreement"⟩
  r.register m "all_findings_owned_and_submitted" fun g => .read fun db =>
    let findings := findingsOf g.actor db g.entity.1
    let unowned := (findings.filter fun f => unassigned f.2).length
    let drafts := (findings.filter fun f => f.2.status = .draft).length
    ⟨unowned = 0 && drafts = 0, "; ".intercalate
      ((if 0 < unowned then [s!"{unowned} finding(s) still need an action owner"] else []) ++
        if 0 < drafts then [s!"{drafts} finding(s) must be sent for management review"] else [])⟩

/-! ### Queries -/

/-- `OPEN_FINDING_STATUSES`. -/
def openFindingStatuses : List FindingStatus := [.draft, .managementReview, .agreed, .implementation, .validation]

/-- An engagement with `LIST_INCLUDE`. The related rows are not scoped. -/
structure EngagementView where
  row : WithId Engagement
  entity : Option (WithId AuditEntity)
  lead : Option (WithId User)
  manager : Option (WithId User)
  partner : Option (WithId User)
  workpaperCount : ℕ
  openFindingsCount : ℕ

/-- The row with what `LIST_INCLUDE` adds. -/
def view (db : Db) (row : WithId Engagement) : EngagementView where
  row
  entity := related db.entities row.2.entityId
  lead := related db.users row.2.leadId
  manager := related db.users row.2.managerId
  partner := related db.users row.2.partnerId
  workpaperCount := db.workpapers.count fun _ w => w.engagementId = row.1 && w.deletedAt.isNone
  openFindingsCount := db.findings.count fun _ f =>
    f.engagementId = row.1 && f.deletedAt.isNone && f.status ∈ openFindingStatuses

/-- An engagement with what `get` includes. -/
structure EngagementDetail extends EngagementView where
  /-- The members. -/
  team : List (WithId User)
  /-- The last changes of the stage, with the user who made them. -/
  stageHistory : List (WithId EngagementStageHistory × Option (WithId User))

/-- The row with what `get` includes. -/
def detail (db : Db) (row : WithId Engagement) : EngagementDetail where
  toEngagementView := view db row
  team := row.2.members.filterMap fun u => related db.users (some u)
  stageHistory := ((db.stageHistory.rows fun _ h => h.engagementId = row.1).take 20).map fun h =>
    (h, related db.users (some h.2.changedById))

/-- What `counts` answers. -/
structure EngagementCounts where
  workpapers : ℕ
  signedOff : ℕ
  findings : ℕ
  openFindings : ℕ
  evidence : ℕ
  requests : ℕ
  openRequests : ℕ
  programs : ℕ
  openReviewNotes : ℕ

/-- `counts`. -/
def counts (ctx : Ctx) (id : Uuid) : Service EngagementCounts := do
  let workpapers ← .read fun db => workpaperCount ctx db id fun _ => true
  let signedOff ← .read fun db => workpaperCount ctx db id fun w => w.status = .signedOff
  let findings ← .read fun db => (findingsOf ctx db id).length
  let openFindings ← .read fun db => ((findingsOf ctx db id).filter fun f => f.2.status ∈ openFindingStatuses).length
  let evidence ← .read fun db => ctx.count db.evidence fun _ e => e.engagementId = id
  let requests ← .read fun db => ctx.count db.requests fun _ r => r.engagementId = id
  let openRequests ← .read fun db => ctx.count db.requests fun _ r =>
    r.engagementId = id && r.status ∈ [.opened, .returned]
  let programs ← .read fun db => ctx.count db.programs fun _ p => p.engagementId = id
  let openReviewNotes ← .read fun db => uncleared ctx db id
  pure { workpapers, signedOff, findings, openFindings, evidence, requests, openRequests, programs, openReviewNotes }

/-- `progressPct`: an integer percentage, rounded. -/
def progressPct (total completed : ℕ) : ℕ := if total = 0 then 0 else (200 * completed + total) / (2 * total)

/-- `progressFor` one engagement. -/
def progressFor (ctx : Ctx) (db : Db) (id : Uuid) : ℕ :=
  let steps := ctx.findMany db.programSteps fun _ st =>
    (db.programs.find st.programId).any (fun p => p.engagementId = id) && st.status ≠ .notApplicable
  progressPct steps.length (steps.filter fun st => st.2.status = .completed).length

/-- What `get` answers. -/
structure EngagementResponse where
  engagement : EngagementDetail
  counts : EngagementCounts
  progressPct : ℕ
  availableActions : List (AvailableAction EngagementStage)

/-- `get`. -/
def get (ctx : Ctx) (id : Uuid) : Service EngagementResponse := do
  ObjectAccess.assertEngagement ctx id
  let engagement ← .read fun db =>
    (ctx.findById db.engagements id fun e => e.deletedAt.isNone).map fun e => detail db (id, e)
  match engagement with
  | none => throw (.notFound "Engagement not found")
  | some engagement => do
    let counts ← counts ctx id
    let progressPct ← .read fun db => progressFor ctx db id
    let actions ← workflowAvailableActions guardRegistry engagementWorkflow engagement.row.2.stage ctx engagement.row
      fun _ => []
    pure ⟨engagement, counts, progressPct, actions⟩

/-- `assertEngagement`. -/
def assertEngagement (ctx : Ctx) (id : Uuid) : Service Engagement := do
  let e ← .read fun db => ctx.findById db.engagements id fun e => e.deletedAt.isNone
  match e with
  | none => throw (.notFound "Engagement not found")
  | some e => pure e

/-! ### Writes of an engagement -/

/-- The constraints of the table: the audit number is unique within the tenant, and the
foreign keys refer to rows. -/
def constrained (db : Db) (id : Uuid) (e : Engagement) : Except HttpError Unit :=
  if (db.engagements.first fun j r => j ≠ id && r.tenantId = e.tenantId && r.auditNumber = e.auditNumber).isSome then
    .error (.prisma .p2002)
  else if refersTo db.entities e.entityId && refersTo db.users e.leadId && refersTo db.users e.managerId &&
      refersTo db.users e.partnerId then .ok ()
  else .error (.prisma .p2003)

/-- An entry of the history refers to an engagement and a user. -/
def insertStageEntry (id : Uuid) (h : EngagementStageHistory) : Service Unit :=
  .call fun db =>
    if refersTo db.engagements (some h.engagementId) && refersTo db.users (some h.changedById) then do
      let stageHistory ← insertRow db.stageHistory id h
      pure ((), { db with stageHistory })
    else .error (.prisma .p2003)

/-- `engagement.create`, with the first entry of its history. -/
def insertEngagement (id historyId : Uuid) (e : Engagement) (h : EngagementStageHistory) : Service (WithId Engagement) :=
  .transaction do
    .call fun db => do
      constrained db id e
      let engagements ← insertRow db.engagements id e
      pure ((), { db with engagements })
    insertStageEntry historyId h
    pure (id, e)

/-- `engagement.update` of one row. -/
def updateEngagement (ctx : Ctx) (id : Uuid) (f : Engagement → Except HttpError Engagement) : Service EngagementView :=
  .call fun db => do
    let (e, engagements) ← updateRow ctx db.engagements id f
    constrained db id e
    pure (view { db with engagements } (id, e), { db with engagements })

/-! ### Creation -/

/-- The highest audit number of a tenant and year. -/
def latestNumber (ctx : Ctx) (db : Db) (year : ℕ) : Option String :=
  greatest ((ctx.findMany db.engagements fun _ e => e.auditNumber.startsWith (auditNumberPrefix year)).map
    fun e => e.2.auditNumber)

/-- The members of a new engagement: its lead, manager and partner, each once. -/
def CreateEngagementDto.members (dto : CreateEngagementDto) : List Uuid :=
  (dto.leadId.orNull.toList ++ dto.managerId.orNull.toList ++ dto.partnerId.orNull.toList).eraseDups

/-- The row of a new engagement. -/
def newEngagement (ctx : Ctx) (dto : CreateEngagementDto) (auditNumber : String) : Engagement where
  tenantId := ctx.tenantId
  auditNumber
  title := dto.title
  type := dto.type
  entityId := dto.entityId.orNull
  objectives := dto.objectives.orNull
  scope := dto.scope.orNull
  outOfScope := dto.outOfScope.orNull
  background := dto.background.orNull
  periodStart := dto.periodStart.orNull
  periodEnd := dto.periodEnd.orNull
  plannedStart := dto.plannedStart.orNull
  plannedEnd := dto.plannedEnd.orNull
  actualStart := none
  actualEnd := none
  budgetHours := dto.budgetHours.orNull
  budgetAmount := dto.budgetAmount.orNull
  leadId := dto.leadId.orNull
  managerId := dto.managerId.orNull
  partnerId := dto.partnerId.orNull
  riskRating := dto.riskRating.orNull.getD .medium
  stage := .planning
  status := .active
  opinion := .notRated
  executiveSummary := none
  reportIssuedAt := none
  reportDocumentId := none
  members := dto.members
  stakeholders := []
  createdAt := ctx.now
  deletedAt := none

/-- The first entry of the history of an engagement. -/
def opened (ctx : Ctx) (id : Uuid) : EngagementStageHistory where
  tenantId := ctx.tenantId
  engagementId := id
  fromStage := none
  toStage := .planning
  changedById := ctx.userId
  comment := "Engagement created"

/-- The year in which a new engagement is numbered. -/
def CreateEngagementDto.year (dto : CreateEngagementDto) (now : Date) : ℕ :=
  utcFullYear (dto.plannedStart.orNull.getD now)

/-- The loop of `create`: with so many attempts left, number the engagement and insert it. -/
def insertNumbered (ctx : Ctx) (dto : CreateEngagementDto) (year : ℕ) : ℕ → Service (WithId Engagement)
  | 0 => throw (.conflict "Could not allocate an audit number")
  | left + 1 => do
    let attempt := 4 - left
    let latest ← .read fun db => latestNumber ctx db year
    match nextAuditNumber year latest with
    | .error e => throw e
    | .ok auditNumber =>
      let id := ctx.uuid (2 * attempt)
      (insertEngagement id (ctx.uuid (2 * attempt + 1)) (newEngagement ctx dto auditNumber) (opened ctx id)).catching
        fun err => if err = .prisma .p2002 ∧ attempt < 4 then insertNumbered ctx dto year left else throw err

/-- The entity of a new engagement, if one is given, must be one of the tenant. -/
def assertEntity (ctx : Ctx) (entityId : Field Uuid) : Service Unit :=
  assertRelated ctx Db.entities entityId (fun _ e => e.deletedAt.isNone) (.badRequest "Entity not found")

/-- `create`. -/
def create (ctx : Ctx) (dto : CreateEngagementDto) : Service (WithId Engagement) := do
  assertEntity ctx dto.entityId
  let created ← insertNumbered ctx dto (dto.year ctx.now) 5
  auditRecord ctx "engagement.created" "Engagement" created.1
  notifyMany ctx ([dto.leadId.orNull, dto.managerId.orNull, dto.partnerId.orNull].filter
      fun u => u.isSome && u ≠ some ctx.userId) {
    type := "engagement.assigned"
    title := s!"You were added to {created.2.auditNumber} {created.2.title}"
    link := s!"/engagements/{created.1}" }
  pure created

/-! ### Editing -/

/-- The report of an engagement that is not closed must be a document of the engagement. -/
def assertReport (ctx : Ctx) (id : Uuid) (before : Engagement) (reportDocumentId : Field Uuid) : Service Unit :=
  match reportDocumentId with
  | none => pure ()
  | some documentId =>
    if before.stage = .closed then throw (.conflict "The report of a closed engagement cannot be changed")
    else match documentId with
      | none => pure ()
      | some documentId => do
        let document ← Documents.assertDocument ctx documentId true false
        if document.ownerType ≠ some "Engagement" ∨ document.ownerId ≠ some id then
          throw (.badRequest "The report document must belong to this engagement")
        else pure ()

/-- `engagementMember.upsert`. -/
def upsertMember (ctx : Ctx) (id userId : Uuid) : Service Unit :=
  .call fun db =>
    if refersTo db.engagements (some id) && refersTo db.users (some userId) then
      .ok ((), { db with engagements := db.engagements.modify (fun j e => ctx.sees e && j = id) fun e =>
        if userId ∈ e.members then e else { e with members := e.members ++ [userId] } })
    else .error (.prisma .p2003)

/-- A user who is named for a role becomes a member, and is told. -/
def assign (ctx : Ctx) (id : Uuid) (role : String) (userId : Field Uuid) (before : Option Uuid) (after : Engagement) :
    Service Unit :=
  match userId.orNull with
  | none => pure ()
  | some u =>
    if before = some u then pure ()
    else do
      upsertMember ctx id u
      notify ctx (if u = ctx.userId then none else some u) {
        type := "engagement.assigned"
        title := s!"You are now {role} on {after.auditNumber} {after.title}"
        link := s!"/engagements/{id}" }

/-- `update`. -/
def update (ctx : Ctx) (id : Uuid) (dto : UpdateEngagementDto) : Service EngagementView := do
  let before ← assertEngagement ctx id
  assertReport ctx id before dto.reportDocumentId
  if dto.status.orNull.any fun s => s ∉ [.active, .onHold] then
    throw (.badRequest "Use a workflow transition to close or cancel an engagement")
  else do
    let after ← updateEngagement ctx id dto.apply
    auditRecord ctx "engagement.updated" "Engagement" id
    assign ctx id "lead" dto.leadId before.leadId after.row.2
    assign ctx id "manager" dto.managerId before.managerId after.row.2
    assign ctx id "partner" dto.partnerId before.partnerId after.row.2
    pure after

/-! ### Transitions -/

/-- The row that a transition leaves, where `engagement` is the row that the request has read. -/
def transitioned (ctx : Ctx) (t : Transition EngagementStage) (engagement e : Engagement) : Engagement :=
  let e := { e with stage := t.toState }
  match t.action with
  | "start_fieldwork" => if engagement.actualStart.isNone then { e with actualStart := some ctx.now } else e
  | "issue_report" => { e with reportIssuedAt := some ctx.now }
  | "close" => { e with status := .completed, actualEnd := engagement.actualEnd.or (some ctx.now) }
  | "cancel" => { e with status := .cancelled, actualEnd := some ctx.now }
  | _ => e

/-- The entry of the history that a transition writes. -/
def stageEntry (ctx : Ctx) (id : Uuid) (dto : TransitionDto) (t : Transition EngagementStage)
    (engagement : Engagement) : EngagementStageHistory where
  tenantId := ctx.tenantId
  engagementId := id
  fromStage := some engagement.stage
  toStage := t.toState
  changedById := ctx.userId
  comment := some (dto.comment.orNull.getD t.label)

/-- The transaction of `transition`. -/
def transitionTransaction (ctx : Ctx) (id : Uuid) (dto : TransitionDto) (t : Transition EngagementStage)
    (engagement : Engagement) : Service EngagementView :=
  .transaction do
    let e ← updateEngagement ctx id fun e => .ok (transitioned ctx t engagement e)
    insertStageEntry (ctx.uuid 0) (stageEntry ctx id dto t engagement)
    pure e

/-- The stage as it is told. -/
def stageName (stage : EngagementStage) : String :=
  (String.ofList (stage.text.toList.map fun c => if c = '_' then ' ' else c)).toLower

/-- The rest of `transition`, after its transaction. -/
def afterTransition (ctx : Ctx) (id : Uuid) (dto : TransitionDto) (updated : Engagement)
    (t : Transition EngagementStage) : Service Unit := do
  auditRecord ctx "engagement.stage_changed" "Engagement" id
  let name := stageName t.toState
  notifyMany ctx ([updated.leadId, updated.managerId, updated.partnerId].filter (· ≠ some ctx.userId)) {
    type := "engagement.stage_changed"
    title := s!"{updated.auditNumber} moved to {name}"
    body := dto.comment.orNull
    link := s!"/engagements/{id}" }

/-- `transition`. -/
def transition (ctx : Ctx) (id : Uuid) (dto : TransitionDto) : Service EngagementResponse := do
  ObjectAccess.assertEngagement ctx id
  let engagement ← assertEngagement ctx id
  let t ← workflowTransition guardRegistry EngagementStage.text engagementWorkflow engagement.stage
    ⟨(id, engagement), ctx, dto.action, dto.comment.orNull⟩ []
  let updated ← transitionTransaction ctx id dto t engagement
  afterTransition ctx id dto updated.row.2 t
  get ctx id

/-! ### All requests -/

/-- A request that creates, edits or moves engagements, with its user. -/
inductive Request where
  | create (ctx : Ctx) (dto : CreateEngagementDto)
  | update (ctx : Ctx) (id : Uuid) (dto : UpdateEngagementDto)
  | transition (ctx : Ctx) (id : Uuid) (dto : TransitionDto)

/-- The user who makes the request. -/
def Request.ctx : Request → Ctx
  | .create ctx _ | .update ctx _ _ | .transition ctx _ _ => ctx

/-- What a request answers. -/
inductive Response where
  | created (e : WithId Engagement)
  | updated (e : EngagementView)
  | moved (e : EngagementResponse)

/-- The permission that the route asks for. -/
def Request.permission : Request → PermissionKey
  | .create .. => .engagementCreate
  | .update .. => .engagementManage
  | .transition .. => .engagementRead

/-- The controller: the user must hold the permission of the route. -/
def serve (r : Request) : Service Response :=
  if !r.ctx.hasPermission r.permission then throw (.forbidden s!"Missing permission: {r.permission.key}")
  else match r with
    | .create ctx dto => do return .created (← create ctx dto)
    | .update ctx id dto => do return .updated (← update ctx id dto)
    | .transition ctx id dto => do return .moved (← transition ctx id dto)

end AuditSphere.Engagements
