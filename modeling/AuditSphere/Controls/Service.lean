import AuditSphere.Db.Client
import AuditSphere.Theory.Follow

/-!
# Controls

`ControlsService`: the tests of a control. A control keeps how effective it is and when it was last
tested; each test that is concluded writes both.
-/

namespace AuditSphere.Controls

open Prisma Theory Shared

/-! ### Rows -/

/-- What a control is. -/
inductive ControlEffectiveness where
  | notTested | effective | partiallyEffective | ineffective
  deriving DecidableEq

/-- What is tested. -/
inductive ControlTestType where
  | design | operating
  deriving DecidableEq

/-- The result of a test. -/
inductive ControlTestResult where
  | notStarted | inProgress | pass | passWithExceptions | fail
  deriving DecidableEq

/-- An instant that may lie before the epoch, in milliseconds. -/
abbrev Instant := ℤ

/-- A control: what is known of its effectiveness. -/
structure Control where
  tenantId : Uuid
  code : String
  title : String
  effectiveness : ControlEffectiveness
  designEffective : Option Bool
  operatingEffective : Option Bool
  lastTestedAt : Option Instant
  deletedAt : Option Date
  deriving DecidableEq

/-- A test of a control. -/
structure ControlTest where
  tenantId : Uuid
  controlId : Uuid
  engagementId : Option Uuid
  workpaperId : Option Uuid
  testType : ControlTestType
  periodStart : Option Instant
  periodEnd : Option Instant
  populationSize : Option ℕ
  sampleSize : Option ℕ
  exceptions : ℕ
  result : ControlTestResult
  procedure : Option String
  conclusion : Option String
  remediation : Option String
  testedById : Option Uuid
  testedAt : Option Instant
  deriving DecidableEq

/-- The database, with the tables of controls. -/
structure Assurance where
  db : Db
  controls : Table Uuid Control
  tests : Table Uuid ControlTest

instance : TenantRow Control := ⟨.control, fun r => some r.tenantId⟩
instance : TenantRow ControlTest := ⟨.controlTest, fun r => some r.tenantId⟩

/-- A method. -/
abbrev Method (α : Type) := Prog Assurance HttpError α

/-- A program on the rest of the database. -/
def onDb {α : Type} (p : Service α) : Method α := p.embed Assurance.db (fun b db => { b with db }) id

/-! ### Requests -/

/-- What a text becomes as a date; none if it is no date that there is. -/
abbrev ParsedDate := Option Instant

/-- `CreateControlTestDto`. -/
structure CreateControlTestDto where
  engagementId : Field Uuid := none
  workpaperId : Field Uuid := none
  testType : ControlTestType
  periodStart : Field ParsedDate := none
  periodEnd : Field ParsedDate := none
  populationSize : Field ℕ := none
  sampleSize : Field ℕ := none
  exceptions : Field ℕ := none
  result : Field ControlTestResult := none
  procedure : Field String := none
  conclusion : Field String := none
  remediation : Field String := none
  testedAt : Field ParsedDate := none

/-- `UpdateControlTestDto`. -/
structure UpdateControlTestDto where
  engagementId : Field Uuid := none
  workpaperId : Field Uuid := none
  testType : Field ControlTestType := none
  periodStart : Field ParsedDate := none
  periodEnd : Field ParsedDate := none
  populationSize : Field ℕ := none
  sampleSize : Field ℕ := none
  exceptions : Field ℕ := none
  result : Field ControlTestResult := none
  procedure : Field String := none
  conclusion : Field String := none
  remediation : Field String := none
  testedAt : Field ParsedDate := none

/-- A date for a column; the client refuses an invalid one. -/
def dateColumn : Option ParsedDate → Except HttpError (Option Instant)
  | none => .ok none
  | some none => .error (.prisma .validation)
  | some (some d) => .ok (some d)

/-- A date for a column that an update may leave. -/
def dateUpdate (f : Field ParsedDate) (old : Option Instant) : Except HttpError (Option Instant) :=
  match f with
  | none => .ok old
  | some d => dateColumn d

/-- The number fits a column of 32 bits. -/
def fits (n : Option ℕ) : Bool := n.all fun n => n < 2 ^ 31

/-! ### Outcomes -/

/-- `effectivenessFor`: what a result says of the control, if it is a conclusion. -/
def effectivenessFor : ControlTestResult → Option ControlEffectiveness
  | .pass => some .effective
  | .passWithExceptions => some .partiallyEffective
  | .fail => some .ineffective
  | .notStarted | .inProgress => none

/-- What a conclusion leaves of the control. -/
def outcome (testType : ControlTestType) (result : ControlTestResult) (effectiveness : ControlEffectiveness)
    (lastTestedAt : Instant) (c : Control) : Control :=
  let passed := result = .pass
  match testType with
  | .design => { c with effectiveness, lastTestedAt := some lastTestedAt, designEffective := some passed }
  | .operating => { c with effectiveness, lastTestedAt := some lastTestedAt, operatingEffective := some passed }

/-- `control.update` of one control. -/
def updateControl (ctx : Ctx) (id : Uuid) (f : Control → Control) (s : Assurance) : Except HttpError (Unit × Assurance) := do
  let (_, controls) ← updateRow ctx s.controls id fun c => .ok (f c)
  return ((), { s with controls })

/-- `applyTestOutcome`. -/
def applyTestOutcome (ctx : Ctx) (controlId : Uuid) (testType : ControlTestType) (result : ControlTestResult)
    (testedAt : Option Instant) : Method Unit :=
  match effectivenessFor result with
  | none => pure ()
  | some effectiveness =>
    .call (updateControl ctx controlId (outcome testType result effectiveness (testedAt.getD ctx.now)))

/-! ### Tests -/

/-- The constraints of the table: the numbers fit, and what the test refers to exists. -/
def constrained (s : Assurance) (t : ControlTest) : Except HttpError Unit :=
  if !(fits t.populationSize && fits t.sampleSize && fits (some t.exceptions)) then
    .error (.internal "Unable to fit integer value into an INT4")
  else if refersTo s.controls (some t.controlId) && refersTo s.db.engagements t.engagementId &&
      refersTo s.db.workpapers t.workpaperId && refersTo s.db.users t.testedById then .ok ()
  else .error (.prisma .p2003)

/-- When a new test was made: as it is said, or now if it is concluded. -/
def CreateControlTestDto.made (dto : CreateControlTestDto) (now : Date) : Option ParsedDate :=
  match dto.testedAt.orNull with
  | some d => some d
  | none => match dto.result.orNull with
    | none | some .notStarted | some .inProgress => none
    | some .pass | some .passWithExceptions | some .fail => some (some (now : Instant))

/-- The row of a new test. -/
def newTest (ctx : Ctx) (controlId : Uuid) (dto : CreateControlTestDto) : Except HttpError ControlTest := do
  let periodStart ← dateColumn dto.periodStart.orNull
  let periodEnd ← dateColumn dto.periodEnd.orNull
  let testedAt ← dateColumn (dto.made ctx.now)
  return {
    tenantId := ctx.tenantId
    controlId
    engagementId := dto.engagementId.orNull
    workpaperId := dto.workpaperId.orNull
    testType := dto.testType
    periodStart
    periodEnd
    populationSize := dto.populationSize.orNull
    sampleSize := dto.sampleSize.orNull
    exceptions := dto.exceptions.orNull.getD 0
    result := dto.result.orNull.getD .notStarted
    procedure := dto.procedure.orNull
    conclusion := dto.conclusion.orNull
    remediation := dto.remediation.orNull
    testedById := some ctx.userId
    testedAt }

/-- `controlTest.create`. -/
def insertTest (ctx : Ctx) (controlId : Uuid) (dto : CreateControlTestDto) (s : Assurance) :
    Except HttpError (ControlTest × Assurance) := do
  let t ← newTest ctx controlId dto
  constrained s t
  let tests ← insertRow s.tests (ctx.uuid 0) t
  return (t, { s with tests })

/-- The result is to change. -/
def UpdateControlTestDto.changes (dto : UpdateControlTestDto) (before : ControlTest) : Bool :=
  match dto.result.orNull with
  | none => false
  | some result => result ≠ before.result

/-- When an updated test was made: as it is said, or now if its result changes and it has no date. -/
def UpdateControlTestDto.made (dto : UpdateControlTestDto) (now : Date) (before : ControlTest) : Field ParsedDate :=
  match dto.testedAt.orNull with
  | some d => some (some d)
  | none => if dto.changes before && before.testedAt.isNone then some (some (some (now : Instant))) else none

/-- What an update makes of a test, for one who has found it as it was `before`. -/
def UpdateControlTestDto.apply (ctx : Ctx) (dto : UpdateControlTestDto) (before t : ControlTest) :
    Except HttpError ControlTest := do
  let periodStart ← dateUpdate dto.periodStart t.periodStart
  let periodEnd ← dateUpdate dto.periodEnd t.periodEnd
  let testedAt ← dateUpdate (dto.made ctx.now before) t.testedAt
  match dto.testType.onRequired t.testType, dto.exceptions.onRequired t.exceptions, dto.result.onRequired t.result with
  | some testType, some exceptions, some result => return { t with
      engagementId := dto.engagementId.onNullable t.engagementId
      workpaperId := dto.workpaperId.onNullable t.workpaperId
      testType
      periodStart
      periodEnd
      populationSize := dto.populationSize.onNullable t.populationSize
      sampleSize := dto.sampleSize.onNullable t.sampleSize
      exceptions
      result
      procedure := dto.procedure.onNullable t.procedure
      conclusion := dto.conclusion.onNullable t.conclusion
      remediation := dto.remediation.onNullable t.remediation
      testedById := if dto.changes before then some ctx.userId else t.testedById
      testedAt }
  | _, _, _ => throw (.prisma .validation)

/-- `controlTest.update` of one test. -/
def updateTestRow (ctx : Ctx) (id : Uuid) (dto : UpdateControlTestDto) (before : ControlTest) (s : Assurance) :
    Except HttpError (ControlTest × Assurance) := do
  let (t, tests) ← updateRow ctx s.tests id (dto.apply ctx before)
  constrained s t
  return (t, { s with tests })

/-- `createTest`. -/
def createTest (ctx : Ctx) (controlId : Uuid) (dto : CreateControlTestDto) : Method (WithId ControlTest) := do
  let control ← .read fun s => ctx.findById s.controls controlId fun c => c.deletedAt.isNone
  if control.isNone then throw (.notFound "Control not found")
  else do
    let created ← .call (insertTest ctx controlId dto)
    applyTestOutcome ctx controlId created.testType created.result created.testedAt
    onDb (auditRecord ctx "control_test.created" "ControlTest" (ctx.uuid 0))
    pure (ctx.uuid 0, created)

/-- The outcome of an updated test is applied if its result has changed. -/
def applyUpdated (ctx : Ctx) (before after : ControlTest) : Method Unit :=
  if after.result ≠ before.result then
    applyTestOutcome ctx after.controlId after.testType after.result after.testedAt
  else pure ()

/-- `updateTest`. -/
def updateTest (ctx : Ctx) (id : Uuid) (dto : UpdateControlTestDto) : Method (WithId ControlTest) := do
  let before ← .read fun s => ctx.findById s.tests id fun _ => true
  match before with
  | none => throw (.notFound "Control test not found")
  | some before => do
    let after ← .call (updateTestRow ctx id dto before)
    applyUpdated ctx before after
    onDb (auditRecord ctx "control_test.updated" "ControlTest" id)
    pure (id, after)

/-! ### All requests -/

/-- A request that writes a test, with its user. -/
inductive Request where
  | createTest (ctx : Ctx) (controlId : Uuid) (dto : CreateControlTestDto)
  | updateTest (ctx : Ctx) (id : Uuid) (dto : UpdateControlTestDto)

/-- The user who makes the request. -/
def Request.ctx : Request → Ctx
  | .createTest ctx .. | .updateTest ctx .. => ctx

/-- The permission that the routes ask for. -/
def Request.permission : Request → PermissionKey
  | .createTest .. | .updateTest .. => .controlTest

/-- The controller: the user must hold the permission of the route. -/
def serve (r : Request) : Method (WithId ControlTest) :=
  if !r.ctx.hasPermission r.permission then throw (.forbidden s!"Missing permission: {r.permission.key}")
  else match r with
    | .createTest ctx controlId dto => createTest ctx controlId dto
    | .updateTest ctx id dto => updateTest ctx id dto

end AuditSphere.Controls
