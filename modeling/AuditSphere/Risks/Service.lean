import AuditSphere.Db.Client
import AuditSphere.Risks.Scoring
import AuditSphere.Theory.Follow
import AuditSphere.Theory.Transactions

/-!
# Risks

`RisksService`: a risk is scored when it is created, updated and assessed, by the model that is
asked for or the default one. The columns of the residual likelihood and impact are integers; the
client refuses to write a fraction into them.
-/

namespace AuditSphere.Risks

open Prisma Theory Shared

/-! ### Rows -/

/-- The status of a risk. -/
inductive RiskStatus where
  | active | monitoring | retired
  deriving DecidableEq

/-- The status with a name. -/
def RiskStatus.parse : String → Option RiskStatus
  | "ACTIVE" => some .active
  | "MONITORING" => some .monitoring
  | "RETIRED" => some .retired
  | _ => none

/-- What a risk is rated by. -/
structure Inputs where
  inherentLikelihood : Scale
  inherentImpact : Scale
  controlEffectiveness : Scale
  velocity : RiskVelocity
  deriving DecidableEq

/-- The columns of the scores. -/
structure Scores where
  inherentScore : ℚ
  residualLikelihood : ℤ
  residualImpact : ℤ
  residualScore : ℚ
  rating : RiskRating
  deriving DecidableEq

/-- A risk, with all that is kept of it. -/
structure Risk extends Inputs, Scores where
  tenantId : Uuid
  code : String
  title : String
  description : Option String
  categoryId : Option Uuid
  entityId : Option Uuid
  processId : Option Uuid
  ownerId : Option Uuid
  source : Option String
  status : RiskStatus
  appetiteThreshold : Option ℚ
  withinAppetite : Option Bool
  lastAssessedAt : Option Date
  tags : List String
  createdAt : Date
  deletedAt : Option Date
  deriving DecidableEq

/-- An assessment of a risk. -/
structure RiskAssessment extends Inputs, Scores where
  tenantId : Uuid
  riskId : Uuid
  scoringModelId : Option Uuid
  periodLabel : String
  rationale : Option String
  assessedById : Uuid
  assessedAt : Date
  deriving DecidableEq

/-- A model of scoring. -/
structure ScoringModel where
  tenantId : Uuid
  name : String
  isDefault : Bool
  likelihoodScale : Json
  impactScale : Json
  weights : Json
  thresholds : Json
  appetite : Json
  createdAt : Date

/-- A category of risks. -/
structure RiskCategory where
  tenantId : Uuid
  code : String
  name : String
  colour : Option String
  deriving DecidableEq

/-- The database, with the tables of risks. -/
structure Portfolio where
  db : Db
  risks : Table Uuid Risk
  assessments : Table Uuid RiskAssessment
  models : Table Uuid ScoringModel
  categories : Table Uuid RiskCategory
  /-- `RiskControl`: a risk, and a control of it. -/
  riskControls : List (Uuid × Uuid)

instance : TenantRow Risk := ⟨.risk, fun r => some r.tenantId⟩
instance : TenantRow RiskAssessment := ⟨.riskAssessment, fun r => some r.tenantId⟩
instance : TenantRow ScoringModel := ⟨.scoringModel, fun r => some r.tenantId⟩
instance : TenantRow RiskCategory := ⟨.riskCategory, fun r => some r.tenantId⟩

/-- A method. -/
abbrev Method (α : Type) := Prog Portfolio HttpError α

/-- A program on the rest of the database. -/
def onDb {α : Type} (p : Service α) : Method α := p.embed Portfolio.db (fun b db => { b with db }) id

/-! ### Columns -/

/-- A value for a column of integers. -/
def intColumn (q : ℚ) : Except HttpError ℤ := if q.isInt then .ok q.num else .error (.prisma .validation)

/-- A value for a column of six digits, two of them decimals; it is rounded half away from zero. -/
def decimalColumn (q : ℚ) : Except HttpError ℚ :=
  let r : ℚ := (if 0 ≤ q then ⌊q * 100 + 1 / 2⌋ else ⌈q * 100 - 1 / 2⌉) / 100
  if |r| < 10000 then .ok r else .error (.internal "numeric field overflow")

/-! ### Requests -/

/-- `CreateRiskDto`. -/
structure CreateRiskDto where
  code : String
  title : String
  description : Field String := none
  categoryId : Field Uuid := none
  entityId : Field Uuid := none
  processId : Field Uuid := none
  ownerId : Field Uuid := none
  source : Field String := none
  status : Field RiskStatus := none
  inherentLikelihood : Field Scale := none
  inherentImpact : Field Scale := none
  controlEffectiveness : Field Scale := none
  velocity : Field RiskVelocity := none
  appetiteThreshold : Field ℚ := none
  tags : Field (List String) := none

/-- `UpdateRiskDto`. -/
structure UpdateRiskDto where
  code : Field String := none
  title : Field String := none
  description : Field String := none
  categoryId : Field Uuid := none
  entityId : Field Uuid := none
  processId : Field Uuid := none
  ownerId : Field Uuid := none
  source : Field String := none
  status : Field RiskStatus := none
  inherentLikelihood : Field Scale := none
  inherentImpact : Field Scale := none
  controlEffectiveness : Field Scale := none
  velocity : Field RiskVelocity := none
  appetiteThreshold : Field ℚ := none
  tags : Field (List String) := none

/-- `AssessRiskDto`. -/
structure AssessRiskDto extends Inputs where
  periodLabel : String
  rationale : Field String := none
  scoringModelId : Field Uuid := none

/-- `CreateScoringModelDto`. -/
structure CreateScoringModelDto where
  name : String
  isDefault : Field Bool := none
  likelihoodScale : List Json
  impactScale : List Json
  weights : Field (List (String × Json)) := none
  thresholds : Field (List (String × Json)) := none
  appetite : Field (List (String × Json)) := none

/-- `UpdateScoringModelDto`. -/
structure UpdateScoringModelDto where
  name : Field String := none
  isDefault : Field Bool := none
  likelihoodScale : Field (List Json) := none
  impactScale : Field (List Json) := none
  weights : Field (List (String × Json)) := none
  thresholds : Field (List (String × Json)) := none
  appetite : Field (List (String × Json)) := none

/-- What a new risk is rated by. -/
def CreateRiskDto.inputs (dto : CreateRiskDto) : Inputs where
  inherentLikelihood := dto.inherentLikelihood.orNull.getD .middle
  inherentImpact := dto.inherentImpact.orNull.getD .middle
  controlEffectiveness := dto.controlEffectiveness.orNull.getD .middle
  velocity := dto.velocity.orNull.getD .moderate

/-- What a risk is rated by after an update. -/
def UpdateRiskDto.inputs (dto : UpdateRiskDto) (before : Risk) : Inputs where
  inherentLikelihood := dto.inherentLikelihood.orNull.getD before.inherentLikelihood
  inherentImpact := dto.inherentImpact.orNull.getD before.inherentImpact
  controlEffectiveness := dto.controlEffectiveness.orNull.getD before.controlEffectiveness
  velocity := dto.velocity.orNull.getD before.velocity

/-! ### Models -/

/-- `ModelParams`. -/
structure ModelParams where
  model : Option (WithId ScoringModel)
  weights : ScoringWeights
  thresholds : Thresholds

/-- `modelParams`: what cannot be parsed is replaced by the defaults. -/
def modelParams (model : Option (WithId ScoringModel)) : ModelParams where
  model
  weights := (ScoringWeights.parse ((model.map fun m => m.2.weights).getD (.obj []))).getD {}
  thresholds := (Thresholds.parse ((model.map fun m => m.2.thresholds).getD (.obj []))).getD {}

/-- The model that was created first. -/
def oldestModel (ctx : Ctx) (b : Portfolio) : Option (WithId ScoringModel) :=
  ((ctx.findMany b.models fun _ _ => true).mergeSort fun m m' => m.2.createdAt ≤ m'.2.createdAt).head?

/-- `defaultModel`. -/
def defaultModel (ctx : Ctx) (id : Option Uuid) : Method ModelParams :=
  match id with
  | some id => do
    let model ← .read fun b => ctx.findById b.models id fun _ => true
    match model with
    | none => throw (.notFound "Scoring model not found")
    | some m => pure (modelParams (some (id, m)))
  | none => do
    let model ← .read fun b => ctx.findFirst b.models fun _ m => m.isDefault
    match model with
    | some m => pure (modelParams (some m))
    | none => do
      let oldest ← .read (oldestModel ctx)
      pure (modelParams oldest)

/-- `computeScores`. -/
def computeScores (inputs : Inputs) (appetiteThreshold : Option ℚ) (params : ModelParams) : RiskScoreResult :=
  scoreRisk
    { inherentLikelihood := inputs.inherentLikelihood
      inherentImpact := inputs.inherentImpact
      controlEffectiveness := inputs.controlEffectiveness
      velocity := inputs.velocity
      appetiteThreshold }
    params.weights params.thresholds

/-- The scores as they are written. -/
def RiskScoreResult.columns (r : RiskScoreResult) : Except HttpError Scores := do
  let residualLikelihood ← intColumn r.residualLikelihood
  let residualImpact ← intColumn r.residualImpact
  let inherentScore ← decimalColumn r.inherentScore
  let residualScore ← decimalColumn r.residualScore
  return { inherentScore, residualLikelihood, residualImpact, residualScore, rating := r.rating }

/-! ### Views -/

/-- A risk with what `RISK_INCLUDE` adds. -/
structure RiskView where
  row : WithId Risk
  category : Option (WithId RiskCategory)
  entity : Option (WithId AuditEntity)
  process : Option (WithId Process)
  owner : Option (WithId User)
  controlCount : ℕ
  findingCount : ℕ

/-- The row with what `RISK_INCLUDE` adds. -/
def view (b : Portfolio) (row : WithId Risk) : RiskView where
  row
  category := related b.categories row.2.categoryId
  entity := related b.db.entities row.2.entityId
  process := related b.db.processes row.2.processId
  owner := related b.db.users row.2.ownerId
  controlCount := (b.riskControls.filter fun link => link.1 = row.1).length
  findingCount := b.db.findings.count fun _ f => f.riskId = some row.1

/-! ### Writes -/

/-- The constraints of the table: the code is unique within the tenant, and what the risk refers to exists. -/
def constrained (b : Portfolio) (id : Uuid) (r : Risk) : Except HttpError Unit :=
  if (b.risks.first fun j r' => j ≠ id && r'.tenantId = r.tenantId && r'.code = r.code).isSome then
    .error (.prisma .p2002)
  else if refersTo b.categories r.categoryId && refersTo b.db.entities r.entityId &&
      refersTo b.db.processes r.processId && refersTo b.db.users r.ownerId then .ok ()
  else .error (.prisma .p2003)

/-- A threshold as it is written. -/
def thresholdColumn : Option ℚ → Except HttpError (Option ℚ)
  | none => .ok none
  | some q => (decimalColumn q).map some

/-- The row of a new risk. -/
def newRisk (ctx : Ctx) (dto : CreateRiskDto) (scores : Scores) (appetiteThreshold : Option ℚ)
    (withinAppetite : Option Bool) : Risk where
  toInputs := dto.inputs
  toScores := scores
  tenantId := ctx.tenantId
  code := dto.code
  title := dto.title
  description := dto.description.orNull
  categoryId := dto.categoryId.orNull
  entityId := dto.entityId.orNull
  processId := dto.processId.orNull
  ownerId := dto.ownerId.orNull
  source := dto.source.orNull
  status := dto.status.orNull.getD .active
  appetiteThreshold
  withinAppetite
  lastAssessedAt := none
  tags := dto.tags.orNull.getD []
  createdAt := ctx.now
  deletedAt := none

/-- `risk.create`. -/
def insertRisk (ctx : Ctx) (dto : CreateRiskDto) (result : RiskScoreResult) (b : Portfolio) :
    Except HttpError (RiskView × Portfolio) := do
  let scores ← result.columns
  let appetiteThreshold ← thresholdColumn dto.appetiteThreshold.orNull
  let r := newRisk ctx dto scores appetiteThreshold result.withinAppetite
  constrained b (ctx.uuid 0) r
  let risks ← insertRow b.risks (ctx.uuid 0) r
  return (view { b with risks } (ctx.uuid 0, r), { b with risks })

/-- The columns of an update that are not nullable. -/
def UpdateRiskDto.required (dto : UpdateRiskDto) (r : Risk) : Option Risk := do
  let code ← dto.code.onRequired r.code
  let title ← dto.title.onRequired r.title
  let status ← dto.status.onRequired r.status
  let tags ← dto.tags.onRequired r.tags
  return { r with code, title, status, tags }

/-- What an update makes of a risk. -/
def UpdateRiskDto.apply (dto : UpdateRiskDto) (inputs : Inputs) (scores : Scores) (appetiteThreshold : Option ℚ)
    (withinAppetite : Option Bool) (r : Risk) : Except HttpError Risk :=
  match dto.required r with
  | none => .error (.prisma .validation)
  | some r => .ok { r with
      toInputs := inputs
      toScores := scores
      description := dto.description.onNullable r.description
      categoryId := dto.categoryId.onNullable r.categoryId
      entityId := dto.entityId.onNullable r.entityId
      processId := dto.processId.onNullable r.processId
      ownerId := dto.ownerId.onNullable r.ownerId
      source := dto.source.onNullable r.source
      appetiteThreshold
      withinAppetite }

/-- `risk.update` of one risk. -/
def updateRiskRow (ctx : Ctx) (id : Uuid) (f : Risk → Except HttpError Risk) (b : Portfolio) :
    Except HttpError (RiskView × Portfolio) := do
  let (r, risks) ← updateRow ctx b.risks id f
  constrained b id r
  return (view { b with risks } (id, r), { b with risks })

/-- `riskAssessment.create`. -/
def insertAssessment (id : Uuid) (a : RiskAssessment) (b : Portfolio) :
    Except HttpError (WithId RiskAssessment × Portfolio) :=
  if refersTo b.risks (some a.riskId) && refersTo b.models a.scoringModelId && refersTo b.db.users (some a.assessedById)
  then do
    let assessments ← insertRow b.assessments id a
    return ((id, a), { b with assessments })
  else .error (.prisma .p2003)

/-! ### Methods -/

/-- A risk that is not deleted. -/
def findRisk (ctx : Ctx) (id : Uuid) : Method Risk := do
  let risk ← .read fun b => ctx.findById b.risks id fun r => r.deletedAt.isNone
  match risk with
  | none => throw (.notFound "Risk not found")
  | some r => pure r

/-- `create`. -/
def create (ctx : Ctx) (dto : CreateRiskDto) : Method RiskView := do
  let params ← defaultModel ctx none
  let created ← .call (insertRisk ctx dto (computeScores dto.inputs dto.appetiteThreshold.orNull params))
  onDb (auditRecord ctx "risk.created" "Risk" (ctx.uuid 0))
  pure created

/-- The update of a risk, once it is scored. -/
def updateScored (ctx : Ctx) (id : Uuid) (dto : UpdateRiskDto) (inputs : Inputs) (threshold : Option ℚ)
    (result : RiskScoreResult) (b : Portfolio) : Except HttpError (RiskView × Portfolio) := do
  let scores ← result.columns
  let appetiteThreshold ← thresholdColumn threshold
  updateRiskRow ctx id (dto.apply inputs scores appetiteThreshold result.withinAppetite) b

/-- `update`. -/
def update (ctx : Ctx) (id : Uuid) (dto : UpdateRiskDto) : Method RiskView := do
  let before ← findRisk ctx id
  let params ← defaultModel ctx none
  let threshold := dto.appetiteThreshold.onNullable before.appetiteThreshold
  let result := computeScores (dto.inputs before) threshold params
  let after ← .call (updateScored ctx id dto (dto.inputs before) threshold result)
  onDb (auditRecord ctx "risk.updated" "Risk" id)
  pure after

/-- The row of a new assessment. -/
def newAssessment (ctx : Ctx) (riskId : Uuid) (dto : AssessRiskDto) (params : ModelParams) (scores : Scores) :
    RiskAssessment where
  toInputs := dto.toInputs
  toScores := scores
  tenantId := ctx.tenantId
  riskId
  scoringModelId := params.model.map Prod.fst
  periodLabel := dto.periodLabel
  rationale := dto.rationale.orNull
  assessedById := ctx.userId
  assessedAt := ctx.now

/-- An assessed risk. -/
def assessed (ctx : Ctx) (dto : AssessRiskDto) (scores : Scores) (withinAppetite : Option Bool) (r : Risk) : Risk :=
  { r with toInputs := dto.toInputs, toScores := scores, withinAppetite, lastAssessedAt := some ctx.now }

/-- The transaction of an assessment: the assessment, and the scores of the risk. -/
def recordAssessment (ctx : Ctx) (id : Uuid) (dto : AssessRiskDto) (params : ModelParams) (result : RiskScoreResult) :
    Txn Portfolio HttpError (WithId RiskAssessment × RiskView) := do
  let a ← .exec fun b => do
    let scores ← result.columns
    insertAssessment (ctx.uuid 0) (newAssessment ctx id dto params scores) b
  let r ← .exec fun b => do
    let scores ← result.columns
    updateRiskRow ctx id (fun r => .ok (assessed ctx dto scores result.withinAppetite r)) b
  return (a, r)

/-- `assess`. -/
def assess (ctx : Ctx) (id : Uuid) (dto : AssessRiskDto) : Method (WithId RiskAssessment × RiskView) := do
  let risk ← findRisk ctx id
  let params ← defaultModel ctx dto.scoringModelId.orNull
  let result := computeScores dto.toInputs risk.appetiteThreshold params
  let answer ← (recordAssessment ctx id dto params result).committed
  onDb (auditRecord ctx "risk.assessed" "Risk" id)
  pure answer

/-! ### Models of scoring -/

/-- `DEFAULT_WEIGHTS`, as they are stored. -/
def defaultWeights : List (String × Json) := [("likelihood", .num 1), ("impact", .num 1), ("velocity", .num 0)]

/-- `DEFAULT_THRESHOLDS`, as they are stored. -/
def defaultThresholds : List (String × Json) :=
  [("LOW", .num 5), ("MEDIUM", .num 10), ("HIGH", .num 16), ("CRITICAL", .num 25)]

example : ScoringWeights.parse (.obj defaultWeights) = some {} ∧ Thresholds.parse (.obj defaultThresholds) = some {} := by
  decide +kernel

/-- `validateModelJson`. -/
def validateModelJson (weights thresholds : Field (List (String × Json))) : Except HttpError Unit :=
  if weights.orNull.any fun w => (ScoringWeights.parse (.obj w)).isNone then
    .error (.badRequest "weights must contain non-negative likelihood, impact and velocity")
  else if thresholds.orNull.any fun t => (Thresholds.parse (.obj t)).isNone then
    .error (.badRequest "thresholds must contain LOW, MEDIUM, HIGH and CRITICAL numbers")
  else .ok ()

/-- The row of a new model. -/
def newModel (ctx : Ctx) (dto : CreateScoringModelDto) (isDefault : Bool) : ScoringModel where
  tenantId := ctx.tenantId
  name := dto.name
  isDefault
  likelihoodScale := .arr dto.likelihoodScale
  impactScale := .arr dto.impactScale
  weights := .obj (dto.weights.orNull.getD defaultWeights)
  thresholds := .obj (dto.thresholds.orNull.getD defaultThresholds)
  appetite := .obj (dto.appetite.orNull.getD [])
  createdAt := ctx.now

/-- What an update makes of a model. -/
def UpdateScoringModelDto.apply (dto : UpdateScoringModelDto) (m : ScoringModel) : Except HttpError ScoringModel :=
  match dto.name.onRequired m.name, dto.isDefault.onRequired m.isDefault with
  | some name, some isDefault => .ok { m with
      name
      isDefault
      likelihoodScale := (dto.likelihoodScale.map (jsonOf .arr)).getD m.likelihoodScale
      impactScale := (dto.impactScale.map (jsonOf .arr)).getD m.impactScale
      weights := (dto.weights.map (jsonOf .obj)).getD m.weights
      thresholds := (dto.thresholds.map (jsonOf .obj)).getD m.thresholds
      appetite := (dto.appetite.map (jsonOf .obj)).getD m.appetite }
  | _, _ => .error (.prisma .validation)

/-- The name of a model is unique within the tenant. -/
def nameTaken (b : Portfolio) (id : Uuid) (m : ScoringModel) : Bool :=
  (b.models.first fun j m' => j ≠ id && m'.tenantId = m.tenantId && m'.name = m.name).isSome

/-- `scoringModel.create`. -/
def insertModel (id : Uuid) (m : ScoringModel) (b : Portfolio) : Except HttpError (WithId ScoringModel × Portfolio) :=
  if nameTaken b id m then .error (.prisma .p2002)
  else do
    let models ← insertRow b.models id m
    return ((id, m), { b with models })

/-- `scoringModel.update` of one model. -/
def updateModelRow (ctx : Ctx) (id : Uuid) (dto : UpdateScoringModelDto) (b : Portfolio) :
    Except HttpError (WithId ScoringModel × Portfolio) := do
  let (m, models) ← updateRow ctx b.models id dto.apply
  if nameTaken b id m then .error (.prisma .p2002)
  else return ((id, m), { b with models })

/-- The default models that the statement finds. -/
def defaults (ctx : Ctx) (other : Uuid → Bool) (b : Portfolio) : List Uuid :=
  (ctx.findMany b.models fun id m => m.isDefault && other id).map Prod.fst

/-- These models are not the default any more. -/
def clear (ids : List Uuid) (b : Portfolio) : Portfolio :=
  { b with models := b.models.modify (fun id _ => id ∈ ids) fun m => { m with isDefault := false } }

/-- `scoringModel.updateMany`: the rows are those that were committed when the statement began. -/
def clearDefaults (ctx : Ctx) (other : Uuid → Bool) : Txn Portfolio HttpError Unit := do
  let ids ← .query (defaults ctx other)
  .exec fun b => .ok ((), clear ids b)

/-- The transaction of a new model. -/
def creating (ctx : Ctx) (dto : CreateScoringModelDto) (isDefault : Bool) :
    Txn Portfolio HttpError (WithId ScoringModel) :=
  if isDefault then do
    clearDefaults ctx fun _ => true
    .exec (insertModel (ctx.uuid 0) (newModel ctx dto isDefault))
  else .exec (insertModel (ctx.uuid 0) (newModel ctx dto isDefault))

/-- `createScoringModel`. -/
def createScoringModel (ctx : Ctx) (dto : CreateScoringModelDto) : Method (WithId ScoringModel) :=
  match validateModelJson dto.weights dto.thresholds with
  | .error e => throw e
  | .ok () => do
    let count ← .read fun b => ctx.count b.models fun _ _ => true
    let created ← (creating ctx dto (dto.isDefault.orNull.getD (count = 0))).committed
    onDb (auditRecord ctx "scoring_model.created" "ScoringModel" (ctx.uuid 0))
    pure created

/-- The transaction of an update of a model. -/
def updating (ctx : Ctx) (id : Uuid) (dto : UpdateScoringModelDto) : Txn Portfolio HttpError (WithId ScoringModel) :=
  if dto.isDefault.orNull = some true then do
    clearDefaults ctx fun j => j ≠ id
    .exec (updateModelRow ctx id dto)
  else .exec (updateModelRow ctx id dto)

/-- `updateScoringModel`. -/
def updateScoringModel (ctx : Ctx) (id : Uuid) (dto : UpdateScoringModelDto) : Method (WithId ScoringModel) :=
  match validateModelJson dto.weights dto.thresholds with
  | .error e => throw e
  | .ok () => do
    let before ← .read fun b => ctx.findById b.models id fun _ => true
    if before.isNone then throw (.notFound "Scoring model not found")
    else do
      let after ← (updating ctx id dto).committed
      onDb (auditRecord ctx "scoring_model.updated" "ScoringModel" id)
      pure after

/-! ### The heat map -/

/-- A cell of the heat map. -/
structure Cell where
  likelihood : ℕ
  impact : ℕ
  count : ℕ
  score : ℕ
  rating : RiskRating
  deriving DecidableEq

/-- The places of the cells: likelihood and impact from 1 to 5. -/
def grid : List (ℕ × ℕ) := (List.range' 1 5).flatMap fun l => (List.range' 1 5).map fun i => (l, i)

/-- The risks of a status that are not deleted. -/
def withStatus (ctx : Ctx) (b : Portfolio) (status : RiskStatus) : List (WithId Risk) :=
  ctx.findMany b.risks fun _ r => r.deletedAt.isNone && r.status = status

/-- The residual likelihood and impact of risks, each once, with how many risks have them. -/
def groups (risks : List (WithId Risk)) : List ((ℤ × ℤ) × ℕ) :=
  let key := fun r : WithId Risk => (r.2.residualLikelihood, r.2.residualImpact)
  (risks.map key).eraseDups.map fun k => (k, (risks.filter fun r => key r = k).length)

/-- The cells of the heat map of some risks. -/
def cells (risks : List (WithId Risk)) (t : Thresholds) : List Cell := grid.map fun p =>
  { likelihood := p.1
    impact := p.2
    count := ((groups risks).lookup (p.1, p.2)).getD 0
    score := p.1 * p.2
    rating := ratingFor (p.1 * p.2) t }

/-- What `heatmap` answers. -/
structure HeatMap where
  cells : List Cell
  thresholds : Thresholds
  scoringModelId : Option Uuid

/-- The status that is asked for, active without one. -/
def wantedStatus : Option String → Option RiskStatus
  | none | some "" => some .active
  | some text => RiskStatus.parse text

/-- `heatmap`. -/
def heatmap (ctx : Ctx) (status : Option String) : Method HeatMap := do
  let params ← defaultModel ctx none
  match wantedStatus status with
  | none => throw (.prisma .validation)
  | some status => do
    let risks ← .read fun b => withStatus ctx b status
    pure { cells := cells risks params.thresholds, thresholds := params.thresholds,
           scoringModelId := params.model.map Prod.fst }

/-! ### All requests -/

/-- A request that changes risks or models, with its user. -/
inductive Request where
  | create (ctx : Ctx) (dto : CreateRiskDto)
  | update (ctx : Ctx) (id : Uuid) (dto : UpdateRiskDto)
  | assess (ctx : Ctx) (id : Uuid) (dto : AssessRiskDto)
  | createScoringModel (ctx : Ctx) (dto : CreateScoringModelDto)
  | updateScoringModel (ctx : Ctx) (id : Uuid) (dto : UpdateScoringModelDto)

/-- What a request answers. -/
inductive Response where
  | risk (r : RiskView)
  | assessment (a : WithId RiskAssessment) (r : RiskView)
  | model (m : WithId ScoringModel)

/-- The user who makes the request. -/
def Request.ctx : Request → Ctx
  | .create ctx .. | .update ctx .. | .assess ctx .. | .createScoringModel ctx .. | .updateScoringModel ctx .. => ctx

/-- The permission that the route asks for. -/
def Request.permission : Request → PermissionKey
  | .create .. | .update .. => .riskManage
  | .assess .. => .riskAssess
  | .createScoringModel .. | .updateScoringModel .. => .riskConfigureScoring

/-- The controller: the user must hold the permission of the route. -/
def serve (r : Request) : Method Response :=
  if !r.ctx.hasPermission r.permission then throw (.forbidden s!"Missing permission: {r.permission.key}")
  else match r with
    | .create ctx dto => do return .risk (← create ctx dto)
    | .update ctx id dto => do return .risk (← update ctx id dto)
    | .assess ctx id dto => do
      let (a, risk) ← assess ctx id dto
      return .assessment a risk
    | .createScoringModel ctx dto => do return .model (← createScoringModel ctx dto)
    | .updateScoringModel ctx id dto => do return .model (← updateScoringModel ctx id dto)

end AuditSphere.Risks
