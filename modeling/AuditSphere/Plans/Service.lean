import AuditSphere.Engagements.Service

/-!
# The plans service

`PlansService`: the plan of a year and its items. A plan is drafted, submitted, approved,
activated and archived by the workflow; an item becomes an engagement. Which statuses allow a
change is decided by each method for itself: `update` has a list, `addItem` another, and the
other methods on items look at the item alone.

The order of a listing is left open.
-/

namespace AuditSphere.Plans

open Prisma Theory Shared

/-! ### Requests -/

/-- `CreatePlanDto`. -/
structure CreatePlanDto where
  title : String
  fiscalYear : ℕ
  horizonYears : Field ℕ := none
  startDate : Date
  endDate : Date
  totalBudgetHours : Field ℚ := none
  totalBudgetAmount : Field ℚ := none
  currency : Field String := none
  narrative : Field String := none

/-- `UpdatePlanDto`. -/
structure UpdatePlanDto where
  title : Field String := none
  fiscalYear : Field ℕ := none
  horizonYears : Field ℕ := none
  startDate : Field Date := none
  endDate : Field Date := none
  totalBudgetHours : Field ℚ := none
  totalBudgetAmount : Field ℚ := none
  currency : Field String := none
  narrative : Field String := none

/-- What the supplied properties make of a plan; a null date is left out. -/
def UpdatePlanDto.apply (dto : UpdatePlanDto) (p : AuditPlan) : Except HttpError AuditPlan :=
  match dto.title.onRequired p.title, dto.fiscalYear.onRequired p.fiscalYear,
    dto.horizonYears.onRequired p.horizonYears, dto.currency.onRequired p.currency with
  | some title, some fiscalYear, some horizonYears, some currency => .ok { p with
      title
      fiscalYear
      horizonYears
      startDate := dto.startDate.orNull.getD p.startDate
      endDate := dto.endDate.orNull.getD p.endDate
      totalBudgetHours := dto.totalBudgetHours.onNullable p.totalBudgetHours
      totalBudgetAmount := dto.totalBudgetAmount.onNullable p.totalBudgetAmount
      currency
      narrative := dto.narrative.onNullable p.narrative }
  | _, _, _, _ => .error (.prisma .validation)

/-- `CreatePlanItemDto`. -/
structure CreatePlanItemDto where
  entityId : Field Uuid := none
  title : String
  description : Field String := none
  source : Field PlanItemSource := none
  engagementType : Field EngagementType := none
  riskRating : Field RiskRating := none
  priority : Field ℕ := none
  plannedYear : ℕ
  plannedQuarter : Field ℕ := none
  plannedStart : Field Date := none
  plannedEnd : Field Date := none
  budgetHours : Field ℚ := none
  budgetAmount : Field ℚ := none
  leadId : Field Uuid := none
  status : Field PlanItemStatus := none
  rationale : Field String := none

/-- `UpdatePlanItemDto`. -/
structure UpdatePlanItemDto where
  entityId : Field Uuid := none
  title : Field String := none
  description : Field String := none
  source : Field PlanItemSource := none
  engagementType : Field EngagementType := none
  riskRating : Field RiskRating := none
  priority : Field ℕ := none
  plannedYear : Field ℕ := none
  plannedQuarter : Field ℕ := none
  plannedStart : Field Date := none
  plannedEnd : Field Date := none
  budgetHours : Field ℚ := none
  budgetAmount : Field ℚ := none
  leadId : Field Uuid := none
  status : Field PlanItemStatus := none
  rationale : Field String := none

/-- What the supplied properties make of an item. -/
def UpdatePlanItemDto.apply (dto : UpdatePlanItemDto) (i : AuditPlanItem) : Except HttpError AuditPlanItem :=
  match dto.title.onRequired i.title, dto.source.onRequired i.source, dto.engagementType.onRequired i.engagementType,
    dto.riskRating.onRequired i.riskRating, dto.priority.onRequired i.priority,
    dto.plannedYear.onRequired i.plannedYear, dto.status.onRequired i.status with
  | some title, some source, some engagementType, some riskRating, some priority, some plannedYear, some status =>
    .ok { i with
      entityId := dto.entityId.onNullable i.entityId
      title
      description := dto.description.onNullable i.description
      source
      engagementType
      riskRating
      priority
      plannedYear
      plannedQuarter := dto.plannedQuarter.onNullable i.plannedQuarter
      plannedStart := dto.plannedStart.onNullable i.plannedStart
      plannedEnd := dto.plannedEnd.onNullable i.plannedEnd
      budgetHours := dto.budgetHours.onNullable i.budgetHours
      budgetAmount := dto.budgetAmount.onNullable i.budgetAmount
      leadId := dto.leadId.onNullable i.leadId
      status
      rationale := dto.rationale.onNullable i.rationale }
  | _, _, _, _, _, _, _ => .error (.prisma .validation)

/-! ### The workflow -/

namespace PlanWorkflow

/-- The plan is put forward. -/
def submit : Transition PlanStatus where
  fromState := .draft
  toState := .pendingApproval
  action := "submit"
  label := "Submit for approval"
  permission := .planManage
  guards := ["has_items"]

/-- It is sent back. -/
def return_ : Transition PlanStatus where
  fromState := .pendingApproval
  toState := .draft
  action := "return"
  label := "Return to draft"
  permission := .planApprove

/-- It is approved. -/
def approve : Transition PlanStatus where
  fromState := .pendingApproval
  toState := .approved
  action := "approve"
  label := "Approve"
  permission := .planApprove

/-- It is put into force. -/
def activate : Transition PlanStatus where
  fromState := .approved
  toState := .active
  action := "activate"
  label := "Activate"
  permission := .planManage

/-- The approval is withdrawn. -/
def reopen : Transition PlanStatus where
  fromState := .approved
  toState := .draft
  action := "reopen"
  label := "Reopen"
  permission := .planApprove

/-- The plan is put away. -/
def archive : Transition PlanStatus where
  fromState := .active
  toState := .archived
  action := "archive"
  label := "Archive"
  permission := .planManage

end PlanWorkflow

open PlanWorkflow in
/-- `PLAN_WORKFLOW`. -/
def planWorkflow : StateMachine PlanStatus where
  name := "audit_plan"
  initial := .draft
  terminal := [.archived]
  transitions := [submit, return_, approve, activate, reopen, archive]

/-- A status as it is stored. -/
def statusText : PlanStatus → String
  | .draft => "DRAFT"
  | .pendingApproval => "PENDING_APPROVAL"
  | .approved => "APPROVED"
  | .active => "ACTIVE"
  | .archived => "ARCHIVED"

/-- `EDITABLE_STATUSES`. -/
def editableStatuses : List PlanStatus := [.draft, .approved, .active]

/-- The guard that the service registers. -/
def guardRegistry : GuardRegistry (WithId AuditPlan) PlanStatus :=
  let empty : GuardRegistry (WithId AuditPlan) PlanStatus := []
  empty.register planWorkflow.name "has_items" fun g => .read fun db =>
    let count := g.actor.count db.planItems fun _ i => i.planId = g.entity.1 && i.status ≠ .cancelled
    ⟨0 < count, "The plan has no items"⟩

/-! ### Reading -/

/-- An item with `ITEM_INCLUDE`. The related rows are not scoped. -/
structure ItemView where
  row : WithId AuditPlanItem
  entity : Option (WithId AuditEntity)
  lead : Option (WithId User)
  engagement : Option (WithId Engagement)

/-- The row with what `ITEM_INCLUDE` adds. -/
def itemView (db : Db) (row : WithId AuditPlanItem) : ItemView where
  row
  entity := related db.entities row.2.entityId
  lead := related db.users row.2.leadId
  engagement := related db.engagements row.2.engagementId

/-- The rows by a key, in the order in which the keys come first. -/
def groupBy {ρ κ : Type} [DecidableEq κ] (key : ρ → κ) (rows : List ρ) : List (κ × List ρ) :=
  (rows.map key).eraseDups.map fun k => (k, rows.filter fun r => key r = k)

/-- The hours of items. -/
def hours (items : List AuditPlanItem) : ℚ := (items.map fun i => i.budgetHours.getD 0).sum

/-- The roll-ups of a plan; items that are cancelled count only in `byStatus`. -/
structure Rollups where
  totalBudgetHours : ℚ
  totalBudgetAmount : ℚ
  itemCount : ℕ
  /-- By year and quarter, 0 for none: how many, and their hours. -/
  byQuarter : List ((ℕ × ℕ) × ℕ × ℚ)
  /-- By rating: how many, and their hours. -/
  byRating : List (RiskRating × ℕ × ℚ)
  byStatus : List (PlanItemStatus × ℕ)

/-- The roll-ups of items. -/
def rollups (items : List AuditPlanItem) : Rollups :=
  let active := items.filter fun i => i.status ≠ .cancelled
  { totalBudgetHours := hours active
    totalBudgetAmount := (active.map fun i => i.budgetAmount.getD 0).sum
    itemCount := active.length
    byQuarter := ((groupBy (fun i => (i.plannedYear, i.plannedQuarter.getD 0)) active).map
      fun g => (g.1, g.2.length, hours g.2)).mergeSort
        fun a b => a.1.1 < b.1.1 || a.1.1 = b.1.1 && a.1.2 ≤ b.1.2
    byRating := (groupBy AuditPlanItem.riskRating active).map fun g => (g.1, g.2.length, hours g.2)
    byStatus := (groupBy AuditPlanItem.status items).map fun g => (g.1, g.2.length) }

/-- What `get` answers. -/
structure PlanResponse where
  plan : WithId AuditPlan
  createdBy : Option (WithId User)
  approvedBy : Option (WithId User)
  items : List ItemView
  rollups : Rollups
  availableActions : List (AvailableAction PlanStatus)

/-- `get`. -/
def get (ctx : Ctx) (id : Uuid) : Service PlanResponse := do
  let found ← .read fun db => (ctx.findById db.plans id fun _ => true).map fun p =>
    (p, related db.users (some p.createdById), related db.users p.approvedById,
      (db.planItems.rows fun _ i => i.planId = id).map (itemView db))
  match found with
  | none => throw (.notFound "Plan not found")
  | some (plan, createdBy, approvedBy, items) => do
    let availableActions ← workflowAvailableActions guardRegistry planWorkflow plan.status ctx (id, plan) fun _ => []
    pure { plan := (id, plan), createdBy, approvedBy, items, rollups := rollups (items.map fun i => i.row.2)
           availableActions }

/-- `assertPlan`. -/
def assertPlan (ctx : Ctx) (id : Uuid) : Service AuditPlan := do
  let plan ← .read fun db => ctx.findById db.plans id fun _ => true
  match plan with
  | none => throw (.notFound "Plan not found")
  | some plan => pure plan

/-! ### Writes -/

/-- The constraints of the table of plans. -/
def constrained (db : Db) (id : Uuid) (p : AuditPlan) : Except HttpError Unit :=
  if (db.plans.first fun j r =>
      j ≠ id && r.tenantId = p.tenantId && r.fiscalYear = p.fiscalYear && r.version = p.version).isSome then
    .error (.prisma .p2002)
  else if refersTo db.users (some p.createdById) && refersTo db.users p.approvedById then .ok ()
  else .error (.prisma .p2003)

/-- `auditPlan.create`. -/
def insertPlan (id : Uuid) (p : AuditPlan) : Service (WithId AuditPlan) := .call fun db => do
  constrained db id p
  let plans ← insertRow db.plans id p
  pure ((id, p), { db with plans })

/-- `auditPlan.update` of one row. -/
def updatePlan (ctx : Ctx) (id : Uuid) (f : AuditPlan → Except HttpError AuditPlan) : Service AuditPlan :=
  .call fun db => do
    let (p, plans) ← updateRow ctx db.plans id f
    constrained db id p
    pure (p, { db with plans })

/-- The constraints of the table of items. -/
def itemConstrained (db : Db) (id : Uuid) (i : AuditPlanItem) : Except HttpError Unit :=
  if (db.planItems.first fun j r => j ≠ id && r.engagementId.isSome && r.engagementId = i.engagementId).isSome then
    .error (.prisma .p2002)
  else if refersTo db.plans (some i.planId) && refersTo db.entities i.entityId &&
      refersTo db.engagements i.engagementId && refersTo db.users i.leadId then .ok ()
  else .error (.prisma .p2003)

/-- `auditPlanItem.create`. -/
def insertItem (id : Uuid) (i : AuditPlanItem) : Service ItemView := .call fun db => do
  itemConstrained db id i
  let planItems ← insertRow db.planItems id i
  pure (itemView { db with planItems } (id, i), { db with planItems })

/-- `auditPlanItem.update` of one row. -/
def updateItemRow (ctx : Ctx) (id : Uuid) (f : AuditPlanItem → Except HttpError AuditPlanItem) : Service ItemView :=
  .call fun db => do
    let (i, planItems) ← updateRow ctx db.planItems id f
    itemConstrained db id i
    pure (itemView { db with planItems } (id, i), { db with planItems })

/-- `auditPlanItem.delete` of one row. -/
def deleteItemRow (ctx : Ctx) (id : Uuid) : Service Unit := .call fun db =>
  if (ctx.findById db.planItems id fun _ => true).isNone then .error (.prisma .p2025)
  else .ok ((), { db with planItems := db.planItems.remove fun j _ => j = id })

/-! ### Plans -/

/-- The latest version of the plan of a year. -/
def latestVersion (ctx : Ctx) (db : Db) (fiscalYear : ℕ) : ℕ :=
  ((ctx.findMany db.plans fun _ p => p.fiscalYear = fiscalYear).map fun p => p.2.version).foldl max 0

/-- The row of a new plan. -/
def newPlan (ctx : Ctx) (dto : CreatePlanDto) (latest : ℕ) : AuditPlan where
  tenantId := ctx.tenantId
  title := dto.title
  fiscalYear := dto.fiscalYear
  horizonYears := dto.horizonYears.orNull.getD 1
  startDate := dto.startDate
  endDate := dto.endDate
  status := .draft
  version := latest + 1
  totalBudgetHours := dto.totalBudgetHours.orNull
  totalBudgetAmount := dto.totalBudgetAmount.orNull
  currency := dto.currency.orNull.getD "USD"
  narrative := dto.narrative.orNull
  createdById := ctx.userId
  approvedById := none
  approvedAt := none

/-- `create`. -/
def create (ctx : Ctx) (dto : CreatePlanDto) : Service (WithId AuditPlan) :=
  if dto.endDate ≤ dto.startDate then throw (.badRequest "endDate must be after startDate")
  else do
    let latest ← .read fun db => latestVersion ctx db dto.fiscalYear
    let created ← insertPlan (ctx.uuid 0) (newPlan ctx dto latest)
    auditRecord ctx "plan.created" "AuditPlan" created.1
    pure created

/-- `update`. -/
def update (ctx : Ctx) (id : Uuid) (dto : UpdatePlanDto) : Service AuditPlan := do
  let before ← assertPlan ctx id
  if before.status ∉ editableStatuses then
    throw (.conflict s!"A plan in status {statusText before.status} cannot be edited")
  else do
    let after ← updatePlan ctx id dto.apply
    auditRecord ctx "plan.updated" "AuditPlan" id
    pure after

/-- What a transition makes of the row. -/
def transitioned (ctx : Ctx) (t : Transition PlanStatus) (p : AuditPlan) : AuditPlan :=
  let p := { p with status := t.toState }
  match t.action with
  | "approve" => { p with approvedById := some ctx.userId, approvedAt := some ctx.now }
  | "reopen" | "return" => { p with approvedById := none, approvedAt := none }
  | _ => p

/-- `auditPlanItem.updateMany` of `transition`: the proposed items of an activated plan are planned. -/
def planItems (ctx : Ctx) (id : Uuid) (t : Transition PlanStatus) : Service Unit :=
  if t.action = "activate" then .write fun db => { db with
    planItems := db.planItems.modify (fun _ i => ctx.sees i && i.planId = id && i.status = .proposed)
      fun i => { i with status := .planned } }
  else pure ()

/-- The transaction of `transition`. -/
def transitionTransaction (ctx : Ctx) (id : Uuid) (t : Transition PlanStatus) : Service AuditPlan :=
  .transaction do
    let p ← updatePlan ctx id fun p => .ok (transitioned ctx t p)
    planItems ctx id t
    pure p

/-- Who made the plan is told, if it is someone else. -/
def notifyCreator (ctx : Ctx) (id : Uuid) (dto : TransitionDto) (plan updated : AuditPlan) : Service Unit :=
  notify ctx (if plan.createdById = ctx.userId then none else some plan.createdById) {
    type := "plan.status_changed"
    title := "Audit plan \"" ++ plan.title ++ "\" is now " ++
      (String.ofList ((statusText updated.status).toList.map fun c => if c = '_' then ' ' else c)).toLower
    body := dto.comment.orNull
    link := s!"/plans/{id}" }

/-- `transition`. -/
def transition (ctx : Ctx) (id : Uuid) (dto : TransitionDto) : Service PlanResponse := do
  let plan ← assertPlan ctx id
  let t ← workflowTransition guardRegistry statusText planWorkflow plan.status
    ⟨(id, plan), ctx, dto.action, dto.comment.orNull⟩ []
  let updated ← transitionTransaction ctx id t
  auditRecord ctx "plan.status_changed" "AuditPlan" id
  notifyCreator ctx id dto plan updated
  get ctx id

/-! ### Items -/

/-- The row of a new item. -/
def newItem (ctx : Ctx) (planId : Uuid) (plan : AuditPlan) (dto : CreatePlanItemDto) : AuditPlanItem where
  tenantId := ctx.tenantId
  planId
  entityId := dto.entityId.orNull
  engagementId := none
  title := dto.title
  description := dto.description.orNull
  source := dto.source.orNull.getD .riskBased
  engagementType := dto.engagementType.orNull.getD .operational
  riskRating := dto.riskRating.orNull.getD .medium
  priority := dto.priority.orNull.getD 3
  plannedYear := dto.plannedYear
  plannedQuarter := dto.plannedQuarter.orNull
  plannedStart := dto.plannedStart.orNull
  plannedEnd := dto.plannedEnd.orNull
  budgetHours := dto.budgetHours.orNull
  budgetAmount := dto.budgetAmount.orNull
  leadId := dto.leadId.orNull
  status := dto.status.orNull.getD (if plan.status = .draft then .proposed else .planned)
  rationale := dto.rationale.orNull

/-- `addItem`. -/
def addItem (ctx : Ctx) (planId : Uuid) (dto : CreatePlanItemDto) : Service ItemView := do
  let plan ← assertPlan ctx planId
  if plan.status = .archived then throw (.conflict "Archived plans cannot be changed")
  else do
    let created ← insertItem (ctx.uuid 0) (newItem ctx planId plan dto)
    auditRecord ctx "plan_item.created" "AuditPlanItem" created.row.1
    pure created

/-- The item of a plan. -/
def findItem (ctx : Ctx) (db : Db) (planId itemId : Uuid) : Option AuditPlanItem :=
  ctx.findById db.planItems itemId fun i => i.planId = planId

/-- `updateItem`, which does not look at the plan. -/
def updateItem (ctx : Ctx) (planId itemId : Uuid) (dto : UpdatePlanItemDto) : Service ItemView := do
  let before ← .read fun db => findItem ctx db planId itemId
  if before.isNone then throw (.notFound "Plan item not found")
  else do
    let after ← updateItemRow ctx itemId dto.apply
    auditRecord ctx "plan_item.updated" "AuditPlanItem" itemId
    pure after

/-- `deleteItem`, which does not look at the plan. -/
def deleteItem (ctx : Ctx) (planId itemId : Uuid) : Service Unit := do
  let before ← .read fun db => findItem ctx db planId itemId
  match before with
  | none => throw (.notFound "Plan item not found")
  | some before =>
    if before.engagementId.isSome then
      throw (.conflict "This item already has an engagement; cancel it instead of deleting")
    else do
      deleteItemRow ctx itemId
      auditRecord ctx "plan_item.deleted" "AuditPlanItem" itemId

/-! ### The engagement of an item -/

/-- `planItem: { connect: .. }`: the item now refers to the engagement, whatever it referred to. -/
def connectItem (itemId engagementId : Uuid) : Service Unit := .call fun db =>
  if (db.planItems.find itemId).isNone then .error (.prisma .p2025)
  else .ok ((), { db with
    planItems := db.planItems.modify (fun j _ => j = itemId) fun i => { i with engagementId := some engagementId } })

/-- `engagement.create`, with the first entry of its history and the item that it is for. -/
def insertEngagement (itemId id historyId : Uuid) (e : Engagement) (h : EngagementStageHistory) :
    Service (WithId Engagement) :=
  .transaction do
    let created ← Engagements.insertEngagement id historyId e h
    connectItem itemId id
    pure created

/-- The loop of `EngagementsService.create`, for an item. -/
def insertNumbered (ctx : Ctx) (dto : Engagements.CreateEngagementDto) (itemId : Uuid) (year : ℕ) :
    ℕ → Service (WithId Engagement)
  | 0 => throw (.conflict "Could not allocate an audit number")
  | left + 1 => do
    let attempt := 4 - left
    let latest ← .read fun db => Engagements.latestNumber ctx db year
    match Engagements.nextAuditNumber year latest with
    | .error e => throw e
    | .ok auditNumber =>
      let id := ctx.uuid (2 * attempt)
      (insertEngagement itemId id (ctx.uuid (2 * attempt + 1)) (Engagements.newEngagement ctx dto auditNumber)
        (Engagements.opened ctx id)).catching fun err =>
          if err = .prisma .p2002 ∧ attempt < 4 then insertNumbered ctx dto itemId year left else throw err

/-- `EngagementsService.create`, for an item. -/
def createEngagement (ctx : Ctx) (dto : Engagements.CreateEngagementDto) (itemId : Uuid) :
    Service (WithId Engagement) := do
  Engagements.assertEntity ctx dto.entityId
  let created ← insertNumbered ctx dto itemId (dto.year ctx.now) 5
  auditRecord ctx "engagement.created" "Engagement" created.1
  notifyMany ctx ([dto.leadId.orNull, dto.managerId.orNull, dto.partnerId.orNull].filter
      fun u => u.isSome && u ≠ some ctx.userId) {
    type := "engagement.assigned"
    title := s!"You were added to {created.2.auditNumber} {created.2.title}"
    link := s!"/engagements/{created.1}" }
  pure created

/-- The engagement that an item asks for. -/
def engagementOf (i : AuditPlanItem) : Engagements.CreateEngagementDto where
  title := i.title
  type := i.engagementType
  entityId := some i.entityId
  objectives := i.description.map some
  plannedStart := some i.plannedStart
  plannedEnd := some i.plannedEnd
  budgetHours := some i.budgetHours
  budgetAmount := some i.budgetAmount
  leadId := some i.leadId
  riskRating := some (some i.riskRating)

/-- `createEngagementFromItem`, once the item has been read. -/
def startItem (ctx : Ctx) (itemId : Uuid) (item : AuditPlanItem) : Service (WithId Engagement) := do
  let engagement ← createEngagement ctx (engagementOf item) itemId
  let _ ← updateItemRow ctx itemId fun i => .ok { i with status := .inProgress }
  auditRecord ctx "plan_item.engagement_created" "AuditPlanItem" itemId
  pure engagement

/-- `createEngagementFromItem`. -/
def createEngagementFromItem (ctx : Ctx) (planId itemId : Uuid) : Service (WithId Engagement) := do
  let item ← .read fun db => findItem ctx db planId itemId
  match item with
  | none => throw (.notFound "Plan item not found")
  | some item =>
    if item.engagementId.isSome then throw (.conflict "An engagement already exists for this plan item")
    else if item.status = .cancelled then throw (.conflict "Cancelled items cannot be started")
    else startItem ctx itemId item

/-! ### All requests -/

/-- A request that makes or changes plans and their items, with its user. -/
inductive Request where
  | create (ctx : Ctx) (dto : CreatePlanDto)
  | update (ctx : Ctx) (id : Uuid) (dto : UpdatePlanDto)
  | transition (ctx : Ctx) (id : Uuid) (dto : TransitionDto)
  | addItem (ctx : Ctx) (planId : Uuid) (dto : CreatePlanItemDto)
  | updateItem (ctx : Ctx) (planId itemId : Uuid) (dto : UpdatePlanItemDto)
  | deleteItem (ctx : Ctx) (planId itemId : Uuid)
  | createEngagement (ctx : Ctx) (planId itemId : Uuid)

/-- The user who makes the request. -/
def Request.ctx : Request → Ctx
  | .create ctx _ | .update ctx _ _ | .transition ctx _ _ | .addItem ctx _ _ | .updateItem ctx _ _ _
  | .deleteItem ctx _ _ | .createEngagement ctx _ _ => ctx

/-- What a request answers. -/
inductive Response where
  | created (p : WithId AuditPlan)
  | updated (p : AuditPlan)
  | moved (p : PlanResponse)
  | item (i : ItemView)
  | deleted
  | engagement (e : WithId Engagement)

/-- The permission that the route asks for. -/
def Request.permission : Request → PermissionKey
  | .create .. | .update .. | .addItem .. | .updateItem .. | .deleteItem .. => .planManage
  | .transition .. => .planRead
  | .createEngagement .. => .engagementCreate

/-- The controller: the user must hold the permission of the route. -/
def serve (r : Request) : Service Response :=
  if !r.ctx.hasPermission r.permission then throw (.forbidden s!"Missing permission: {r.permission.key}")
  else match r with
    | .create ctx dto => do return .created (← create ctx dto)
    | .update ctx id dto => do return .updated (← update ctx id dto)
    | .transition ctx id dto => do return .moved (← transition ctx id dto)
    | .addItem ctx planId dto => do return .item (← addItem ctx planId dto)
    | .updateItem ctx planId itemId dto => do return .item (← updateItem ctx planId itemId dto)
    | .deleteItem ctx planId itemId => do
      deleteItem ctx planId itemId
      return .deleted
    | .createEngagement ctx planId itemId => do return .engagement (← createEngagementFromItem ctx planId itemId)

end AuditSphere.Plans
