import AuditSphere.Common.Values
import AuditSphere.Prisma.TenantExtension
import AuditSphere.Shared.Workflows
import AuditSphere.Theory.Table

/-!
# The database

The tables of `schema.prisma` that the services here read and write, each row with
the columns they use. Every table keeps its rows under their `id`.
-/

namespace AuditSphere

open Prisma Theory Shared

/-! ### Users and the records others refer to -/

/-- The status of a user. -/
inductive UserStatus where
  | invited | active | suspended | deactivated
  deriving DecidableEq

/-- A user. -/
structure User where
  tenantId : Uuid
  displayName : String
  status : UserStatus
  deletedAt : Option Date
  deriving DecidableEq

/-- What other records show of a row they refer to: its code and its title or name. -/
structure Coded (model : Model) where
  tenantId : Uuid
  code : String
  title : String
  deletedAt : Option Date
  deriving DecidableEq

/-- A risk. -/
abbrev Risk := Coded .risk

/-- A control. -/
abbrev Control := Coded .control

/-- A process. -/
abbrev Process := Coded .process

/-- An entity of the audit universe. -/
abbrev AuditEntity := Coded .auditEntity

/-! ### Engagements and programmes -/

/-- The status of an engagement. -/
inductive EngagementStatus where
  | active | onHold | cancelled | completed
  deriving DecidableEq

/-- The type of an engagement. -/
inductive EngagementType where
  | operational | financial | compliance | it | investigation | advisory | followUp | integrated | internalAudit
  deriving DecidableEq

/-- A rating of risk. -/
inductive RiskRating where
  | low | medium | high | critical
  deriving DecidableEq

/-- The opinion of an audit. -/
inductive AuditOpinion where
  | satisfactory | needsImprovement | unsatisfactory | notRated
  deriving DecidableEq

/-- Someone outside the audit function whom an engagement concerns. -/
structure EngagementStakeholder where
  userId : Option Uuid
  email : Option String
  deriving DecidableEq

/-- The fields of an engagement that are edited. -/
structure EngagementProfile where
  title : String
  type : EngagementType
  entityId : Option Uuid
  objectives : Option String
  scope : Option String
  outOfScope : Option String
  background : Option String
  periodStart : Option Date
  periodEnd : Option Date
  plannedStart : Option Date
  plannedEnd : Option Date
  actualStart : Option Date
  actualEnd : Option Date
  budgetHours : Option ℚ
  budgetAmount : Option ℚ
  leadId : Option Uuid
  managerId : Option Uuid
  partnerId : Option Uuid
  riskRating : RiskRating
  status : EngagementStatus
  opinion : AuditOpinion
  executiveSummary : Option String
  reportDocumentId : Option Uuid
  deriving DecidableEq

/-- An engagement, with the users who are its members and its stakeholders. -/
structure Engagement extends EngagementProfile where
  tenantId : Uuid
  auditNumber : String
  stage : EngagementStage
  reportIssuedAt : Option Date
  members : List Uuid
  stakeholders : List EngagementStakeholder
  createdAt : Date
  deletedAt : Option Date
  deriving DecidableEq

/-- One change of the stage of an engagement. -/
structure EngagementStageHistory where
  tenantId : Uuid
  engagementId : Uuid
  fromStage : Option EngagementStage
  toStage : EngagementStage
  changedById : Uuid
  comment : Option String
  deriving DecidableEq

/-- The type of a library item. -/
inductive LibraryItemType where
  | auditProgram | risk | control | testProcedure | finding | recommendation | workpaperTemplate | checklist
  deriving DecidableEq

/-- The status of a library item. -/
inductive LibraryStatus where
  | draft | pendingApproval | published | retired
  deriving DecidableEq

/-- An item of the library; one without a tenant is global. -/
structure LibraryItem where
  tenantId : Option Uuid
  type : LibraryItemType
  code : String
  title : String
  content : Json
  version : ℕ
  status : LibraryStatus
  usageCount : ℕ

/-- The status of an audit programme. -/
inductive ProgramStatus where
  | draft | pendingApproval | approved | inProgress | completed
  deriving DecidableEq

/-- An audit programme. -/
structure AuditProgram where
  tenantId : Uuid
  engagementId : Uuid
  title : String
  description : Option String
  status : ProgramStatus
  libraryItemId : Option Uuid
  approvedById : Option Uuid
  approvedAt : Option Date
  deriving DecidableEq

/-- The status of a programme step. -/
inductive StepStatus where
  | notStarted | inProgress | completed | notApplicable
  deriving DecidableEq

/-- A step of an audit programme. -/
structure AuditProgramStep where
  tenantId : Uuid
  programId : Uuid
  sectionName : String
  reference : String
  sortOrder : ℕ
  objective : String
  procedure : String
  riskId : Option Uuid
  controlId : Option Uuid
  assigneeId : Option Uuid
  estimatedHours : Option ℚ
  status : StepStatus
  deriving DecidableEq

/-! ### Workpapers -/

/-- A template of workpapers; one without a tenant is global. -/
structure WorkpaperTemplate where
  tenantId : Option Uuid
  name : String
  structure' : Json
  isActive : Bool

/-- The content fields of a workpaper. -/
structure WorkpaperContent where
  reference : String
  title : String
  objective : Option String
  procedure : Option String
  testPerformed : Option String
  results : Option String
  exceptions : Option String
  conclusion : Option String
  content : Json
  riskId : Option Uuid
  controlId : Option Uuid
  sortOrder : ℕ

/-- A workpaper. -/
structure Workpaper extends WorkpaperContent where
  tenantId : Uuid
  engagementId : Uuid
  programStepId : Option Uuid
  templateId : Option Uuid
  status : WorkpaperStatus
  currentVersion : ℕ
  preparedById : Option Uuid
  preparedAt : Option Date
  reviewedById : Option Uuid
  reviewedAt : Option Date
  signedOffById : Option Uuid
  signedOffAt : Option Date
  isLocked : Bool
  deletedAt : Option Date

/-- A version: what a workpaper was before an edit. -/
structure WorkpaperVersion where
  tenantId : Uuid
  workpaperId : Uuid
  versionNumber : ℕ
  snapshot : Workpaper
  changeSummary : Option String
  changedById : Uuid

/-- The status of a review note. -/
inductive ReviewNoteStatus where
  | opened | addressed | cleared
  deriving DecidableEq

/-- The priority of a review note. -/
inductive ReviewNotePriority where
  | low | normal | high
  deriving DecidableEq

/-- A review note. -/
structure ReviewNote where
  tenantId : Uuid
  workpaperId : Uuid
  text : String
  priority : ReviewNotePriority
  status : ReviewNoteStatus
  raisedById : Uuid
  assignedToId : Option Uuid
  response : Option String
  respondedAt : Option Date
  clearedById : Option Uuid
  clearedAt : Option Date
  deriving DecidableEq

/-- The level of a review. -/
inductive ReviewLevel where
  | preparer | first | second | partner | quality
  deriving DecidableEq

/-- The decision of a review. -/
inductive ReviewDecision where
  | approved | changesRequested | rejected
  deriving DecidableEq

/-- A formal review of a record. -/
structure Review where
  tenantId : Uuid
  targetType : String
  targetId : Uuid
  level : ReviewLevel
  reviewerId : Uuid
  decision : ReviewDecision
  comment : Option String
  deriving DecidableEq

/-! ### Documents, evidence and findings -/

/-- How confidential a document is. -/
inductive DocumentClassification where
  | public_ | internal | confidential | restricted
  deriving DecidableEq

/-- The key under which the bytes of a document are stored. -/
inductive StorageKey where
  /-- `<tenantId>/<uuid>`. -/
  | uuid (tenantId object : Uuid)
  /-- Any other text, which no driver accepts. -/
  | other (text : String)
  deriving DecidableEq

/-- A document. -/
structure Document where
  tenantId : Uuid
  ownerType : Option String
  ownerId : Option Uuid
  fileName : String
  mimeType : String
  sizeBytes : ℕ
  storageKey : StorageKey
  checksumSha256 : Option String
  classification : DocumentClassification
  uploadedById : Uuid
  isQuarantined : Bool
  uploadedAt : Option Date
  deletedAt : Option Date
  deriving DecidableEq

/-- A version of a document. -/
structure DocumentVersion where
  tenantId : Uuid
  documentId : Uuid
  versionNumber : ℕ
  storageKey : StorageKey
  sizeBytes : ℕ
  checksumSha256 : Option String
  uploadedById : Uuid
  note : Option String
  deriving DecidableEq

/-- The type of an evidence record. -/
inductive EvidenceType where
  | document | screenshot | systemExtract | interviewNote | observation | recalculation | confirmation
  | email | photo | voiceNote
  deriving DecidableEq

/-- An evidence record. -/
structure Evidence where
  tenantId : Uuid
  engagementId : Uuid
  workpaperId : Option Uuid
  documentId : Option Uuid
  reference : String
  description : String
  type : EvidenceType
  obtainedFrom : Option String
  obtainedAt : Option Date
  obtainedById : Uuid
  isSufficient : Option Bool
  deriving DecidableEq

/-- The severity of a finding. -/
inductive FindingSeverity where
  | low | medium | high | critical
  deriving DecidableEq

/-- The category of a root cause. -/
inductive RootCauseCategory where
  | people | process | technology | governance | external | data | policy
  deriving DecidableEq

/-- A finding, with the evidence linked to it. -/
structure Finding where
  tenantId : Uuid
  engagementId : Uuid
  workpaperId : Option Uuid
  entityId : Option Uuid
  processId : Option Uuid
  riskId : Option Uuid
  controlId : Option Uuid
  reference : String
  title : String
  severity : FindingSeverity
  status : FindingStatus
  condition : String
  criteria : String
  cause : Option String
  impact : Option String
  recommendation : Option String
  managementResponse : Option String
  rootCauseCategory : Option RootCauseCategory
  category : Option String
  actionOwnerId : Option Uuid
  actionOwnerName : Option String
  actionOwnerEmail : Option String
  dueDate : Option Date
  originalDueDate : Option Date
  extensionCount : ℕ
  agreedAt : Option Date
  implementedAt : Option Date
  validatedById : Option Uuid
  validatedAt : Option Date
  closedAt : Option Date
  isRepeat : Bool
  repeatOfId : Option Uuid
  raisedById : Uuid
  reminderCount : ℕ
  lastReminderAt : Option Date
  escalationLevel : ℕ
  evidenceIds : List Uuid
  createdAt : Date
  deletedAt : Option Date
  deriving DecidableEq

/-- One change of the status of a finding. -/
structure FindingStatusHistory where
  tenantId : Uuid
  findingId : Uuid
  fromStatus : Option FindingStatus
  toStatus : FindingStatus
  changedById : Uuid
  comment : Option String
  deriving DecidableEq

/-- The status of a recommendation. -/
inductive RecommendationStatus where
  | proposed | agreed | inProgress | implemented | validated | notImplemented | superseded
  deriving DecidableEq

/-- A priority. -/
inductive TaskPriority where
  | low | medium | high | urgent
  deriving DecidableEq

/-- A recommendation of a finding. -/
structure Recommendation where
  tenantId : Uuid
  findingId : Uuid
  sequence : ℕ
  text : String
  priority : TaskPriority
  ownerId : Option Uuid
  ownerName : Option String
  dueDate : Option Date
  status : RecommendationStatus
  actionPlan : Option String
  progressNote : Option String
  progressPct : ℕ
  completedAt : Option Date
  deriving DecidableEq

/-- The status of a request for documents. -/
inductive RequestStatus where
  | opened | submitted | accepted | returned | cancelled
  deriving DecidableEq

/-- A request for documents, with the documents linked to it. -/
structure DocumentRequest where
  tenantId : Uuid
  engagementId : Uuid
  reference : String
  title : String
  description : Option String
  requestedById : Uuid
  dueDate : Date
  assigneeId : Option Uuid
  assigneeEmail : Option String
  status : RequestStatus
  responseNote : Option String
  submittedAt : Option Date
  acceptedAt : Option Date
  returnReason : Option String
  reminderCount : ℕ
  lastReminderAt : Option Date
  documentIds : List Uuid
  deriving DecidableEq

/-! ### Plans -/

/-- The status of a plan. -/
inductive PlanStatus where
  | draft | pendingApproval | approved | active | archived
  deriving DecidableEq

/-- The plan of a year. -/
structure AuditPlan where
  tenantId : Uuid
  title : String
  fiscalYear : ℕ
  horizonYears : ℕ
  startDate : Date
  endDate : Date
  status : PlanStatus
  version : ℕ
  totalBudgetHours : Option ℚ
  totalBudgetAmount : Option ℚ
  currency : String
  narrative : Option String
  createdById : Uuid
  approvedById : Option Uuid
  approvedAt : Option Date
  deriving DecidableEq

/-- The status of an item of a plan. -/
inductive PlanItemStatus where
  | proposed | planned | inProgress | completed | deferred | cancelled
  deriving DecidableEq

/-- Why an audit is planned. -/
inductive PlanItemSource where
  | riskBased | managementRequest | regulatory | followUp | auditCommittee | rotational
  deriving DecidableEq

/-- An item of a plan: an audit that is to be done, and its engagement once there is one. -/
structure AuditPlanItem where
  tenantId : Uuid
  planId : Uuid
  entityId : Option Uuid
  engagementId : Option Uuid
  title : String
  description : Option String
  source : PlanItemSource
  engagementType : EngagementType
  riskRating : RiskRating
  priority : ℕ
  plannedYear : ℕ
  plannedQuarter : Option ℕ
  plannedStart : Option Date
  plannedEnd : Option Date
  budgetHours : Option ℚ
  budgetAmount : Option ℚ
  leadId : Option Uuid
  status : PlanItemStatus
  rationale : Option String
  deriving DecidableEq

/-! ### Collaboration -/

/-- A comment on a record; one that is internal is hidden from business users. -/
structure Comment where
  tenantId : Uuid
  targetType : String
  targetId : Uuid
  parentId : Option Uuid
  authorId : Uuid
  body : String
  mentions : List Uuid
  isInternal : Bool
  createdAt : Date
  deletedAt : Option Date
  deriving DecidableEq

/-! ### Records of what was done -/

/-- An entry of the audit trail. -/
structure AuditTrail where
  tenantId : Uuid
  /-- None for what a job does. -/
  actorId : Option Uuid
  action : String
  targetType : String
  targetId : Uuid
  deriving DecidableEq

/-- A notification. -/
structure Notification where
  tenantId : Uuid
  userId : Uuid
  type : String
  title : String
  body : Option String
  link : Option String
  deriving DecidableEq

/-- The database. -/
structure Db where
  users : Table Uuid User
  risks : Table Uuid Risk
  controls : Table Uuid Control
  processes : Table Uuid Process
  entities : Table Uuid AuditEntity
  engagements : Table Uuid Engagement
  stageHistory : Table Uuid EngagementStageHistory
  programs : Table Uuid AuditProgram
  programSteps : Table Uuid AuditProgramStep
  libraryItems : Table Uuid LibraryItem
  templates : Table Uuid WorkpaperTemplate
  workpapers : Table Uuid Workpaper
  versions : Table Uuid WorkpaperVersion
  reviewNotes : Table Uuid ReviewNote
  reviews : Table Uuid Review
  documents : Table Uuid Document
  documentVersions : Table Uuid DocumentVersion
  evidence : Table Uuid Evidence
  findings : Table Uuid Finding
  findingHistory : Table Uuid FindingStatusHistory
  recommendations : Table Uuid Recommendation
  requests : Table Uuid DocumentRequest
  plans : Table Uuid AuditPlan
  planItems : Table Uuid AuditPlanItem
  comments : Table Uuid Comment
  auditTrail : List AuditTrail
  notifications : List Notification

end AuditSphere
