import AuditSphere.Controls.Service
import AuditSphere.Theory.Lists
import AuditSphere.Workpapers.History

/-!
# Controls that are updated

`ControlsService.update` writes the fields of a control and then, in a transaction of its own, the
risks that the control mitigates. The risks are checked between the two: one that is not found
refuses the request, and the fields have been written by then. So a request that fails leaves the
control as it was exactly when nothing was written before the failure.
-/

namespace AuditSphere.Controls

open Prisma Theory Shared

/-! ### Rows -/

/-- How often a control is performed. -/
inductive ControlFrequency where
  | continuous | daily | weekly | monthly | quarterly | semiAnnual | annual | eventDriven
  deriving DecidableEq

/-- When a control acts. -/
inductive ControlType where
  | preventive | detective | corrective | directive
  deriving DecidableEq

/-- Who performs a control. -/
inductive ControlNature where
  | manual | automated | itDependentManual
  deriving DecidableEq

/-- A control, with all that is kept of it. -/
structure ControlRecord extends Control where
  description : Option String
  processId : Option Uuid
  ownerId : Option Uuid
  frequency : ControlFrequency
  type : ControlType
  nature : ControlNature
  isKeyControl : Bool
  frameworkReferences : Json
  isActive : Bool
  createdAt : Date
  updatedAt : Date

/-- A risk that a control mitigates. -/
structure RiskControl where
  tenantId : Uuid
  deriving DecidableEq

/-- The database, with controls and the risks they mitigate. -/
structure Mitigation where
  db : Db
  controls : Table Uuid ControlRecord
  /-- The links, by risk and control. -/
  riskControls : Table (Uuid × Uuid) RiskControl

instance : TenantRow ControlRecord := ⟨.control, fun r => some r.tenantId⟩
instance : TenantRow RiskControl := ⟨.riskControl, fun r => some r.tenantId⟩

namespace Mitigation

/-- A method. -/
abbrev Method (α : Type) := Prog Mitigation HttpError α

/-- A program on the rest of the database. -/
def onDb {α : Type} (p : Service α) : Method α := p.embed Mitigation.db (fun s db => { s with db }) id

/-! ### Requests -/

/-- `UpdateControlDto`. -/
structure UpdateControlDto where
  code : Field String := none
  title : Field String := none
  description : Field String := none
  processId : Field Uuid := none
  ownerId : Field Uuid := none
  frequency : Field ControlFrequency := none
  type : Field ControlType := none
  nature : Field ControlNature := none
  isKeyControl : Field Bool := none
  isActive : Field Bool := none
  effectiveness : Field ControlEffectiveness := none
  frameworkReferences : Field (List Json) := none
  riskIds : Field (List Uuid) := none

/-- `SetControlRisksDto`. -/
structure SetControlRisksDto where
  riskIds : List Uuid

/-- No column is named. -/
def UpdateControlDto.isEmpty (dto : UpdateControlDto) : Bool :=
  dto.code.isNone && dto.title.isNone && dto.description.isNone && dto.processId.isNone && dto.ownerId.isNone &&
    dto.frequency.isNone && dto.type.isNone && dto.nature.isNone && dto.isKeyControl.isNone &&
    dto.isActive.isNone && dto.effectiveness.isNone && dto.frameworkReferences.isNone

/-- What the named columns make of a control; a required one takes no null, and the time of the update is
kept if there is one. -/
def UpdateControlDto.apply (dto : UpdateControlDto) (now : Date) (c : ControlRecord) : Option ControlRecord := do
  let code ← dto.code.onRequired c.code
  let title ← dto.title.onRequired c.title
  let frequency ← dto.frequency.onRequired c.frequency
  let type ← dto.type.onRequired c.type
  let nature ← dto.nature.onRequired c.nature
  let isKeyControl ← dto.isKeyControl.onRequired c.isKeyControl
  let isActive ← dto.isActive.onRequired c.isActive
  let effectiveness ← dto.effectiveness.onRequired c.effectiveness
  return { c with
    code
    title
    description := dto.description.onNullable c.description
    processId := dto.processId.onNullable c.processId
    ownerId := dto.ownerId.onNullable c.ownerId
    frequency
    type
    nature
    isKeyControl
    isActive
    effectiveness
    frameworkReferences := (dto.frameworkReferences.map (jsonOf .arr)).getD c.frameworkReferences
    updatedAt := if dto.isEmpty then c.updatedAt else now }

/-! ### Writes -/

/-- Another control of the tenant has the code. -/
def taken (ctx : Ctx) (s : Mitigation) (id : Uuid) (code : String) : Bool :=
  (s.controls.first fun j c => j ≠ id && c.tenantId = ctx.tenantId && c.code = code).isSome

/-- The constraints of the table: the code is not taken, and what the control refers to exists. -/
def constrained (ctx : Ctx) (s : Mitigation) (id : Uuid) (dto : UpdateControlDto) : Except HttpError Unit :=
  if dto.code.orNull.any (taken ctx s id) then .error (.prisma .p2002)
  else if refersTo s.db.processes dto.processId.orNull && refersTo s.db.users dto.ownerId.orNull then .ok ()
  else .error (.prisma .p2003)

/-- `control.update`. -/
def updateFields (ctx : Ctx) (id : Uuid) (dto : UpdateControlDto) (s : Mitigation) :
    Except HttpError (ControlRecord × Mitigation) := do
  let (after, controls) ← updateRow ctx s.controls id fun c => match dto.apply ctx.now c with
    | none => .error (.prisma .validation)
    | some after => .ok after
  constrained ctx s id dto
  return (after, { s with controls })

/-- One row of `riskControl.createMany`. -/
def link (ctx : Ctx) (id : Uuid) (s : Mitigation) (riskId : Uuid) : Except HttpError Mitigation :=
  if refersTo s.db.risks (some riskId) && refersTo s.controls (some id) then
    match s.riskControls.insert (riskId, id) ⟨ctx.tenantId⟩ with
    | none => .error (.prisma .p2002)
    | some riskControls => .ok { s with riskControls }
  else .error (.prisma .p2003)

/-- `riskControl.createMany`: all rows, or none. -/
def linkAll (ctx : Ctx) (id : Uuid) : List Uuid → Mitigation → Except HttpError Mitigation
  | [], s => .ok s
  | riskId :: riskIds, s => do linkAll ctx id riskIds (← link ctx id s riskId)

/-- `riskControl.deleteMany`. -/
def unlink (ctx : Ctx) (id : Uuid) (s : Mitigation) : Mitigation :=
  { s with riskControls := s.riskControls.remove fun k r => ctx.sees r && k.2 = id }

/-! ### Methods -/

/-- What is answered: the control, with its process, its owner and the risks it mitigates. -/
structure ControlResponse where
  control : WithId ControlRecord
  process : Option (WithId Process)
  owner : Option (WithId User)
  risks : List (WithId Risk)

/-- `controlResponse`. -/
def controlResponse (s : Mitigation) (id : Uuid) (c : ControlRecord) : ControlResponse where
  control := (id, c)
  process := related s.db.processes c.processId
  owner := related s.db.users c.ownerId
  risks := (s.riskControls.rows fun k _ => k.2 = id).filterMap fun row => related s.db.risks (some row.1.1)

/-- The control with an id, if it is not deleted. -/
def findControl (ctx : Ctx) (s : Mitigation) (id : Uuid) : Option ControlRecord :=
  ctx.findById s.controls id fun c => c.deletedAt.isNone

/-- `get`. -/
def get (ctx : Ctx) (id : Uuid) : Method ControlResponse := do
  let row ← .read fun s => (findControl ctx s id).map (controlResponse s id)
  match row with
  | none => throw (.notFound "Control not found")
  | some response => pure response

/-- `assertRisks`. -/
def assertRisks (ctx : Ctx) (riskIds : List Uuid) : Method Unit :=
  if riskIds.isEmpty then pure ()
  else do
    let found ← .read fun s => ctx.count s.db.risks fun i r => i ∈ riskIds && r.deletedAt.isNone
    if found ≠ riskIds.eraseDups.length then throw (.badRequest "One or more risks were not found")
    else pure ()

/-- The transaction of `setRisks`. -/
def replaceLinks (ctx : Ctx) (id : Uuid) (riskIds : List Uuid) : Method Unit := do
  .write (unlink ctx id)
  if riskIds.isEmpty then pure () else .call fun s => do return ((), ← linkAll ctx id riskIds s)

/-- `setRisks`. -/
def setRisks (ctx : Ctx) (id : Uuid) (dto : SetControlRisksDto) : Method ControlResponse := do
  let control ← .read fun s => findControl ctx s id
  if control.isNone then throw (.notFound "Control not found")
  else do
    let riskIds := dto.riskIds.eraseDups
    assertRisks ctx riskIds
    .transaction (replaceLinks ctx id riskIds)
    onDb (auditRecord ctx "control.risks_set" "Control" id)
    get ctx id

/-- The risks are set if they are given; otherwise the control is answered as it was written. -/
def setGiven (ctx : Ctx) (id : Uuid) (riskIds : Option (List Uuid)) (after : ControlResponse) :
    Method ControlResponse :=
  match riskIds with
  | none => pure after
  | some riskIds => setRisks ctx id { riskIds }

/-- `update`. -/
def update (ctx : Ctx) (id : Uuid) (dto : UpdateControlDto) : Method ControlResponse := do
  let before ← .read fun s => findControl ctx s id
  if before.isNone then throw (.notFound "Control not found")
  else do
    let after ← .call fun s => do
      let (after, s) ← updateFields ctx id dto s
      return (controlResponse s id after, s)
    let result ← setGiven ctx id dto.riskIds.orNull after
    onDb (auditRecord ctx "control.updated" "Control" id)
    pure result

/-! ### What the fields make of a control -/

/-- No required column is given a null. -/
structure UpdateControlDto.IsValid (dto : UpdateControlDto) : Prop where
  code : dto.code ≠ some none
  title : dto.title ≠ some none
  frequency : dto.frequency ≠ some none
  type : dto.type ≠ some none
  nature : dto.nature ≠ some none
  isKeyControl : dto.isKeyControl ≠ some none
  isActive : dto.isActive ≠ some none
  effectiveness : dto.effectiveness ≠ some none

/-- Each named column is given the value it has, and the time of the update is the time there, if a column
is named. -/
structure UpdateControlDto.Keeps (dto : UpdateControlDto) (now : Date) (c : ControlRecord) : Prop where
  code : ∀ v ∈ dto.code, v = some c.code
  title : ∀ v ∈ dto.title, v = some c.title
  description : ∀ v ∈ dto.description, v = c.description
  processId : ∀ v ∈ dto.processId, v = c.processId
  ownerId : ∀ v ∈ dto.ownerId, v = c.ownerId
  frequency : ∀ v ∈ dto.frequency, v = some c.frequency
  type : ∀ v ∈ dto.type, v = some c.type
  nature : ∀ v ∈ dto.nature, v = some c.nature
  isKeyControl : ∀ v ∈ dto.isKeyControl, v = some c.isKeyControl
  isActive : ∀ v ∈ dto.isActive, v = some c.isActive
  effectiveness : ∀ v ∈ dto.effectiveness, v = some c.effectiveness
  frameworkReferences : ∀ v ∈ dto.frameworkReferences, jsonOf .arr v = c.frameworkReferences
  updatedAt : dto.isEmpty = false → c.updatedAt = now

section Fields

variable {α : Type} {f : Field α}

theorem exists_onRequired_iff (old : α) : (∃ v, f.onRequired old = some v) ↔ f ≠ some none := by
  rcases f with _ | _ | v <;> simp [Field.onRequired]

theorem onRequired_self_iff {old : α} : f.onRequired old = some old ↔ ∀ v ∈ f, v = some old := by
  cases f <;> simp [Field.onRequired]

/-- A required column that keeps its value is named with no other. -/
theorem onRequired_kept {old v : α} (h : f.onRequired old = some v) (hv : v = old) : ∀ w ∈ f, w = some old :=
  onRequired_self_iff.mp (hv ▸ h)

theorem onNullable_self_iff {old : Option α} : f.onNullable old = old ↔ ∀ v ∈ f, v = old := by
  cases f <;> simp

end Fields

section Applied

variable {dto : UpdateControlDto} {now : Date} {c after : ControlRecord}

theorem exists_apply_iff : (∃ after, dto.apply now c = some after) ↔ dto.IsValid := by
  constructor
  · rintro ⟨after, h⟩
    simp only [UpdateControlDto.apply, Option.bind_eq_bind, Option.bind_eq_some_iff] at h
    obtain ⟨_, h₁, _, h₂, _, h₃, _, h₄, _, h₅, _, h₆, _, h₇, _, h₈, -⟩ := h
    exact {
      code := (exists_onRequired_iff c.code).mp ⟨_, h₁⟩
      title := (exists_onRequired_iff c.title).mp ⟨_, h₂⟩
      frequency := (exists_onRequired_iff c.frequency).mp ⟨_, h₃⟩
      type := (exists_onRequired_iff c.type).mp ⟨_, h₄⟩
      nature := (exists_onRequired_iff c.nature).mp ⟨_, h₅⟩
      isKeyControl := (exists_onRequired_iff c.isKeyControl).mp ⟨_, h₆⟩
      isActive := (exists_onRequired_iff c.isActive).mp ⟨_, h₇⟩
      effectiveness := (exists_onRequired_iff c.effectiveness).mp ⟨_, h₈⟩ }
  · intro h
    obtain ⟨_, h₁⟩ := (exists_onRequired_iff c.code).mpr h.code
    obtain ⟨_, h₂⟩ := (exists_onRequired_iff c.title).mpr h.title
    obtain ⟨_, h₃⟩ := (exists_onRequired_iff c.frequency).mpr h.frequency
    obtain ⟨_, h₄⟩ := (exists_onRequired_iff c.type).mpr h.type
    obtain ⟨_, h₅⟩ := (exists_onRequired_iff c.nature).mpr h.nature
    obtain ⟨_, h₆⟩ := (exists_onRequired_iff c.isKeyControl).mpr h.isKeyControl
    obtain ⟨_, h₇⟩ := (exists_onRequired_iff c.isActive).mpr h.isActive
    obtain ⟨_, h₈⟩ := (exists_onRequired_iff c.effectiveness).mpr h.effectiveness
    simp [UpdateControlDto.apply, h₁, h₂, h₃, h₄, h₅, h₆, h₇, h₈]

/-- The update keeps whose control it is, and that it is not deleted. -/
theorem apply_fixed (h : dto.apply now c = some after) :
    after.tenantId = c.tenantId ∧ after.deletedAt = c.deletedAt := by
  simp only [UpdateControlDto.apply, Option.bind_eq_bind, Option.bind_eq_some_iff] at h
  obtain ⟨_, -, _, -, _, -, _, -, _, -, _, -, _, -, _, -, h⟩ := h
  cases h
  exact ⟨rfl, rfl⟩

/-- The update leaves the control as it is exactly when it names nothing new. -/
theorem apply_self_iff : dto.apply now c = some c ↔ dto.Keeps now c := by
  constructor
  · intro h
    simp only [UpdateControlDto.apply, Option.bind_eq_bind, Option.bind_eq_some_iff] at h
    obtain ⟨_, h₁, _, h₂, _, h₃, _, h₄, _, h₅, _, h₆, _, h₇, _, h₈, h⟩ := h
    have hc := Option.some.inj h
    exact {
      code := onRequired_kept h₁ (congrArg (fun r => r.code) hc)
      title := onRequired_kept h₂ (congrArg (fun r => r.title) hc)
      description := onNullable_self_iff.mp (congrArg ControlRecord.description hc)
      processId := onNullable_self_iff.mp (congrArg ControlRecord.processId hc)
      ownerId := onNullable_self_iff.mp (congrArg ControlRecord.ownerId hc)
      frequency := onRequired_kept h₃ (congrArg ControlRecord.frequency hc)
      type := onRequired_kept h₄ (congrArg ControlRecord.type hc)
      nature := onRequired_kept h₅ (congrArg ControlRecord.nature hc)
      isKeyControl := onRequired_kept h₆ (congrArg ControlRecord.isKeyControl hc)
      isActive := onRequired_kept h₇ (congrArg ControlRecord.isActive hc)
      effectiveness := onRequired_kept h₈ (congrArg (fun r => r.effectiveness) hc)
      frameworkReferences := fun v hv => by
        have := congrArg ControlRecord.frameworkReferences hc
        rwa [Option.mem_def.mp hv] at this
      updatedAt := fun hempty => by
        have := congrArg ControlRecord.updatedAt hc
        simpa [hempty] using this.symm }
  · intro h
    have hreferences : (dto.frameworkReferences.map (jsonOf .arr)).getD c.frameworkReferences =
        c.frameworkReferences := by
      cases hf : dto.frameworkReferences with
      | none => rfl
      | some v => exact h.frameworkReferences v hf
    have hupdated : (if dto.isEmpty then c.updatedAt else now) = c.updatedAt := by
      split
      · rfl
      · rename_i hempty
        exact (h.updatedAt (by simpa using hempty)).symm
    simp only [UpdateControlDto.apply, Option.bind_eq_bind, onRequired_self_iff.mpr h.code,
      onRequired_self_iff.mpr h.title, onRequired_self_iff.mpr h.frequency, onRequired_self_iff.mpr h.type,
      onRequired_self_iff.mpr h.nature, onRequired_self_iff.mpr h.isKeyControl,
      onRequired_self_iff.mpr h.isActive, onRequired_self_iff.mpr h.effectiveness,
      onNullable_self_iff.mpr h.description, onNullable_self_iff.mpr h.processId,
      onNullable_self_iff.mpr h.ownerId, hreferences, hupdated, Option.bind_some]
    rfl

end Applied

/-! ### The update of the fields -/

/-- What is found is of the tenant and not deleted. -/
theorem findControl_eq_some {ctx : Ctx} {s : Mitigation} {id : Uuid} {c : ControlRecord} :
    findControl ctx s id = some c ↔
      s.controls.find id = some c ∧ c.tenantId = ctx.tenantId ∧ c.deletedAt = none := by
  rw [findControl, Ctx.findById_eq_some, Ctx.sees_iff_tenant (r := c) rfl, Option.isNone_iff_eq_none]

/-- The database takes what the request makes of the fields: no required column is null, no other control of the
tenant has the code, and what the control refers to exists. -/
structure Writable (ctx : Ctx) (s : Mitigation) (id : Uuid) (dto : UpdateControlDto) : Prop where
  isValid : dto.IsValid
  code : ∀ code, dto.code.orNull = some code →
    ∀ j c, s.controls.find j = some c → c.tenantId = ctx.tenantId → c.code = code → j = id
  processId : ∀ i, dto.processId.orNull = some i → ∃ r, s.db.processes.find i = some r
  ownerId : ∀ i, dto.ownerId.orNull = some i → ∃ r, s.db.users.find i = some r

section Written

variable {ctx : Ctx} {s : Mitigation} {id : Uuid} {dto : UpdateControlDto} {c : ControlRecord}

theorem taken_iff {code : String} :
    taken ctx s id code = true ↔
      ∃ j c, s.controls.find j = some c ∧ j ≠ id ∧ c.tenantId = ctx.tenantId ∧ c.code = code := by
  rw [taken, Table.isSome_first_iff]
  simp only [Bool.and_eq_true, decide_eq_true_eq, and_assoc]

theorem constrained_ok_iff :
    constrained ctx s id dto = .ok () ↔
      (∀ code, dto.code.orNull = some code →
        ∀ j c, s.controls.find j = some c → c.tenantId = ctx.tenantId → c.code = code → j = id) ∧
      (∀ i, dto.processId.orNull = some i → ∃ r, s.db.processes.find i = some r) ∧
      ∀ i, dto.ownerId.orNull = some i → ∃ r, s.db.users.find i = some r := by
  have hcode : dto.code.orNull.any (taken ctx s id) = false ↔ ∀ code, dto.code.orNull = some code →
      ∀ j c, s.controls.find j = some c → c.tenantId = ctx.tenantId → c.code = code → j = id := by
    cases dto.code.orNull with
    | none => simp
    | some code =>
      rw [Option.any_some, Bool.eq_false_iff, ne_eq, taken_iff]
      constructor
      · rintro h _ ⟨⟩ j c hc htenant hcode
        by_contra hj
        exact h ⟨j, c, hc, hj, htenant, hcode⟩
      · rintro h ⟨j, c, hc, hj, htenant, hcode⟩
        exact hj (h code rfl j c hc htenant hcode)
  rw [← hcode, ← refersTo_iff, ← refersTo_iff, constrained]
  split
  · rename_i h
    simp [h]
  · rename_i h
    simp only [h, true_and, ← Bool.and_eq_true]
    split <;> simp [*]

/-- `control.update` of a control that is found. -/
theorem updateFields_eq (hc : findControl ctx s id = some c) :
    updateFields ctx id dto s = match dto.apply ctx.now c with
      | none => .error (.prisma .validation)
      | some after => (constrained ctx s id dto).map fun _ =>
        (after, { s with controls := s.controls.modify (fun j _ => j = id) fun _ => after }) := by
  obtain ⟨hfind, htenant, -⟩ := findControl_eq_some.mp hc
  have hrow : ctx.findById s.controls id (fun _ => true) = some c :=
    Ctx.findById_eq_some.mpr ⟨hfind, (Ctx.sees_iff_tenant (r := c) rfl).mpr htenant, rfl⟩
  simp only [updateFields, updateRow, hrow]
  cases dto.apply ctx.now c with
  | none => rfl
  | some after => cases constrained ctx s id dto <;> rfl

/-- The fields of a control that is found are written if the database takes them. -/
theorem updateFields_of_writable (hc : findControl ctx s id = some c) (h : Writable ctx s id dto) :
    ∃ after controls, updateFields ctx id dto s = .ok (after, { s with controls }) ∧
      dto.apply ctx.now c = some after ∧ ∀ j, controls.find j = if j = id then some after else s.controls.find j := by
  obtain ⟨after, hafter⟩ := (@exists_apply_iff dto ctx.now c).mpr h.isValid
  refine ⟨after, s.controls.modify (fun j _ => j = id) fun _ => after, ?_, hafter, fun j => ?_⟩
  · rw [updateFields_eq hc, hafter, constrained_ok_iff.mpr ⟨h.code, h.processId, h.ownerId⟩]
    rfl
  · by_cases hj : j = id
    · rw [hj, Table.find_modify_self, (findControl_eq_some.mp hc).1, if_pos rfl, Option.map_some]
    · rw [Table.find_modify_key, if_neg (Ne.symm hj), if_neg hj]

/-- Otherwise the database refuses the update. -/
theorem updateFields_of_not_writable (hc : findControl ctx s id = some c) (h : ¬Writable ctx s id dto) :
    ∃ e, updateFields ctx id dto s = .error e := by
  rw [updateFields_eq hc]
  cases hafter : dto.apply ctx.now c with
  | none => exact ⟨_, rfl⟩
  | some after =>
    cases hconstrained : constrained ctx s id dto with
    | error e => exact ⟨e, rfl⟩
    | ok u =>
      obtain ⟨hcode, hprocess, howner⟩ := constrained_ok_iff.mp hconstrained
      exact absurd ⟨exists_apply_iff.mp ⟨after, hafter⟩, hcode, hprocess, howner⟩ h

end Written

/-! ### The risks of a control -/

/-- The risk can be linked to the control: it is one of the tenant, not deleted, and no link of another tenant
stands between them. -/
structure Linkable (ctx : Ctx) (s : Mitigation) (id riskId : Uuid) : Prop where
  found : ∃ r, s.db.risks.find riskId = some r ∧ r.tenantId = ctx.tenantId ∧ r.deletedAt = none
  own : ∀ l, s.riskControls.find (riskId, id) = some l → l.tenantId = ctx.tenantId

section Linked

variable {ctx : Ctx} {s : Mitigation} {id : Uuid} {riskIds : List Uuid} {c : ControlRecord}

/-- As many risks with one of the ids are counted as there are ids exactly if each id has such a risk. -/
theorem count_risks_iff :
    (ctx.count s.db.risks fun i r => i ∈ riskIds && r.deletedAt.isNone) = riskIds.eraseDups.length ↔
      ∀ i ∈ riskIds, ∃ r, s.db.risks.find i = some r ∧ r.tenantId = ctx.tenantId ∧ r.deletedAt = none := by
  constructor
  · intro h i hi
    obtain ⟨r, hr, hsees, hp⟩ := Ctx.found_of_count (p := fun r : Risk => r.deletedAt.isNone) h i hi
    exact ⟨r, hr, (Ctx.sees_iff_tenant (r := r) rfl).mp hsees, Option.isNone_iff_eq_none.mp hp⟩
  · intro h
    have hmem : ∀ i, i ∈ (ctx.findMany s.db.risks fun i r => i ∈ riskIds && r.deletedAt.isNone).map Prod.fst ↔
        i ∈ riskIds := by
      intro i
      rw [Ctx.mem_findMany_iff]
      constructor
      · rintro ⟨r, -, -, hp⟩
        exact of_decide_eq_true (Bool.and_eq_true_iff.mp hp).1
      · intro hi
        obtain ⟨r, hr, htenant, hdeleted⟩ := h i hi
        exact ⟨r, hr, (Ctx.sees_iff_tenant (r := r) rfl).mpr htenant, by simp [hi, hdeleted]⟩
    -- the ids that are counted are the ids that are asked for, and none is repeated
    have hperm := (List.perm_ext_iff_of_nodup ((List.filter_sublist.map Prod.fst).nodup s.db.risks.nodup)
      (nodup_eraseDups riskIds)).mpr fun i => (hmem i).trans List.mem_eraseDups.symm
    exact (List.length_map Prod.fst).symm.trans hperm.length_eq

/-- The risks are accepted if each is one of the tenant that is not deleted. -/
theorem assertRisks_ok (h : ∀ i ∈ riskIds, Linkable ctx s id i) : (assertRisks ctx riskIds).run s = (.ok (), s) := by
  unfold assertRisks
  split
  · rfl
  · rw [Prog.run_bind, Prog.run_read]
    dsimp only
    rw [if_neg (not_not.mpr (count_risks_iff.mpr fun i hi => (h i hi).found))]
    rfl

/-- Whether they are accepted or not, nothing is changed; if they are, each is one of the tenant. -/
theorem assertRisks_cases :
    (assertRisks ctx riskIds).run s = (.error (.badRequest "One or more risks were not found"), s) ∨
      (assertRisks ctx riskIds).run s = (.ok (), s) ∧
        ∀ i ∈ riskIds, ∃ r, s.db.risks.find i = some r ∧ r.tenantId = ctx.tenantId ∧ r.deletedAt = none := by
  unfold assertRisks
  split
  · rename_i hempty
    rw [List.isEmpty_iff.mp hempty]
    exact .inr ⟨rfl, by simp⟩
  · rw [Prog.run_bind, Prog.run_read]
    dsimp only
    split
    · exact .inl rfl
    · rename_i hcount
      exact .inr ⟨rfl, count_risks_iff.mp (not_not.mp hcount)⟩

/-- Risks of which none is repeated and none is linked yet are all linked. -/
theorem linkAll_ok {riskIds : List Uuid} {s : Mitigation} (hnodup : riskIds.Nodup)
    (hc : ∃ c, s.controls.find id = some c) (hrisk : ∀ i ∈ riskIds, ∃ r, s.db.risks.find i = some r)
    (hfree : ∀ i ∈ riskIds, s.riskControls.find (i, id) = none) :
    ∃ riskControls, linkAll ctx id riskIds s = .ok { s with riskControls } := by
  induction riskIds generalizing s with
  | nil => exact ⟨s.riskControls, rfl⟩
  | cons i riskIds ih =>
    obtain ⟨hi, hnodup⟩ := List.nodup_cons.mp hnodup
    obtain ⟨hriski, hrisk⟩ := List.forall_mem_cons.mp hrisk
    obtain ⟨hfreei, hfree⟩ := List.forall_mem_cons.mp hfree
    have hrefers : (refersTo s.db.risks (some i) && refersTo s.controls (some id)) = true := by
      rw [Bool.and_eq_true, refersTo_iff, refersTo_iff]
      exact ⟨by rintro _ ⟨⟩; exact hriski, by rintro _ ⟨⟩; exact hc⟩
    cases hinsert : s.riskControls.insert (i, id) ⟨ctx.tenantId⟩ with
    | none => exact absurd hfreei ((Table.insert_eq_none_iff _ _ _).mp hinsert)
    | some riskControls =>
      have hlink : link ctx id s i = .ok { s with riskControls } := by
        rw [link, if_pos hrefers, hinsert]
      obtain ⟨-, hfind⟩ := Table.find_of_insert hinsert
      obtain ⟨linked, h⟩ := @ih { s with riskControls } hnodup hc hrisk fun j hj => by
        rw [hfind, if_neg (by rintro ⟨⟩; exact hi hj)]
        exact hfree j hj
      exact ⟨linked, by rw [linkAll, hlink]; exact h⟩

/-- Linking keeps the links there are. -/
theorem link_keeps {s s' : Mitigation} {i j : Uuid} {l : RiskControl} (h : link ctx id s i = .ok s')
    (hl : s.riskControls.find (j, id) = some l) : s'.riskControls.find (j, id) = some l ∧ i ≠ j := by
  unfold link at h
  split at h
  · cases hinsert : s.riskControls.insert (i, id) ⟨ctx.tenantId⟩ with
    | none =>
      rw [hinsert] at h
      cases h
    | some riskControls =>
      rw [hinsert] at h
      cases h
      obtain ⟨hnone, hfind⟩ := Table.find_of_insert hinsert
      have hne : i ≠ j := by
        rintro rfl
        rw [hnone] at hl
        cases hl
      exact ⟨by rw [hfind, if_neg (by rintro ⟨⟩; exact hne rfl)]; exact hl, hne⟩
  · cases h

/-- A risk that is linked already refuses them all. -/
theorem linkAll_error {i : Uuid} {l : RiskControl} {s : Mitigation} {riskIds : List Uuid} (hi : i ∈ riskIds)
    (hl : s.riskControls.find (i, id) = some l) : ∃ e, linkAll ctx id riskIds s = .error e := by
  induction riskIds generalizing s with
  | nil => exact absurd hi List.not_mem_nil
  | cons j riskIds ih =>
    rw [linkAll]
    cases hlink : link ctx id s j with
    | error e => exact ⟨e, rfl⟩
    | ok s' =>
      obtain ⟨hl', hne⟩ := link_keeps hlink hl
      exact ih ((List.mem_cons.mp hi).resolve_left hne.symm) hl'

/-- What unlinking leaves between the control and a risk: a link of another tenant. -/
theorem find_unlink (i : Uuid) :
    (unlink ctx id s).riskControls.find (i, id) =
      (s.riskControls.find (i, id)).filter fun l => decide (l.tenantId ≠ ctx.tenantId) := by
  have hsees : ∀ l : RiskControl, ctx.sees l = decide (l.tenantId = ctx.tenantId) := fun l =>
    Bool.eq_iff_iff.mpr ((Ctx.sees_iff_tenant (r := l) rfl).trans (decide_eq_true_iff).symm)
  rw [unlink, Table.find_remove]
  congr
  funext l
  simp [hsees]

/-- The control is answered, and nothing is changed. -/
theorem get_run (hc : findControl ctx s id = some c) : (get ctx id).run s = (.ok (controlResponse s id c), s) := by
  rw [get, Prog.run_bind, Prog.run_read, hc]
  rfl

theorem onDb_run {α : Type} (p : Service α) (s : Mitigation) :
    (onDb p).run s = ((p.run s.db).1, { s with db := (p.run s.db).2 }) := by
  unfold onDb
  rw [Prog.run_embed] <;> intros
  · cases (p.run s.db).1 <;> rfl
  · rfl
  · rfl
  · rfl

/-- Risks that can be linked replace those of the control. -/
theorem replaceLinks_ok (hc : ∃ c, s.controls.find id = some c) (h : ∀ i ∈ riskIds, Linkable ctx s id i) :
    ∃ riskControls, (replaceLinks ctx id riskIds.eraseDups).run s = (.ok (), { s with riskControls }) := by
  have hfree : ∀ i ∈ riskIds.eraseDups, (unlink ctx id s).riskControls.find (i, id) = none := by
    intro i hi
    rw [find_unlink, Option.filter_eq_none_iff]
    intro l hl
    simpa using (h i (List.mem_eraseDups.mp hi)).own l hl
  have hrisk : ∀ i ∈ riskIds.eraseDups, ∃ r, (unlink ctx id s).db.risks.find i = some r := by
    intro i hi
    obtain ⟨r, hr, -⟩ := (h i (List.mem_eraseDups.mp hi)).found
    exact ⟨r, hr⟩
  obtain ⟨riskControls, hlinked⟩ := @linkAll_ok ctx id _ (unlink ctx id s) (nodup_eraseDups riskIds) hc hrisk hfree
  unfold replaceLinks
  rw [Prog.run_bind, Prog.run_write]
  dsimp only
  split
  · exact ⟨_, rfl⟩
  · refine ⟨riskControls, ?_⟩
    rw [Prog.run_call, hlinked]
    rfl

/-- A risk that another tenant's link keeps from being linked refuses them all. -/
theorem replaceLinks_error {i : Uuid} {l : RiskControl} (hi : i ∈ riskIds)
    (hl : s.riskControls.find (i, id) = some l) (htenant : l.tenantId ≠ ctx.tenantId) :
    ∃ e s', (replaceLinks ctx id riskIds.eraseDups).run s = (.error e, s') := by
  have hkept : (unlink ctx id s).riskControls.find (i, id) = some l := by
    rw [find_unlink, hl, Option.filter_some, if_pos (by simpa using htenant)]
  have hi := List.mem_eraseDups.mpr hi
  obtain ⟨e, he⟩ := @linkAll_error ctx id i l _ _ hi hkept
  unfold replaceLinks
  rw [Prog.run_bind, Prog.run_write]
  dsimp only
  rw [if_neg (by rw [List.isEmpty_iff]; exact List.ne_nil_of_mem hi), Prog.run_call, he]
  exact ⟨e, _, rfl⟩

/-- The risks of a control are set if each can be linked to it. -/
theorem setRisks_succeeds (hc : findControl ctx s id = some c) (h : ∀ i ∈ riskIds, Linkable ctx s id i) :
    (setRisks ctx id ⟨riskIds⟩).Succeeds s := by
  obtain ⟨riskControls, hreplaced⟩ := replaceLinks_ok ⟨c, (findControl_eq_some.mp hc).1⟩ h
  have hassert : (assertRisks ctx riskIds.eraseDups).run s = (.ok (), s) :=
    assertRisks_ok fun i hi => h i (List.mem_eraseDups.mp hi)
  refine Prog.succeeds_bind (Prog.run_read _ _) ?_
  rw [hc]
  refine Prog.succeeds_bind hassert (Prog.succeeds_bind (Prog.run_transaction_ok.mpr hreplaced) ?_)
  refine Prog.succeeds_bind (onDb_run _ _) ?_
  exact ⟨_, _, get_run hc⟩

/-- If one cannot, the request is refused and nothing is changed. -/
theorem setRisks_error (hc : findControl ctx s id = some c) {i : Uuid} (hi : i ∈ riskIds)
    (h : ¬Linkable ctx s id i) : ∃ e, (setRisks ctx id ⟨riskIds⟩).run s = (.error e, s) := by
  have hlook : (.read fun s => findControl ctx s id : Method _).run s = (.ok (some c), s) := by
    rw [Prog.run_read, hc]
  rw [setRisks, Prog.run_bind_of_ok hlook]
  dsimp only
  rw [if_neg (by simp)]
  rcases @assertRisks_cases ctx s riskIds.eraseDups with hrefused | ⟨hassert, hfound⟩
  · exact ⟨_, Prog.run_bind_of_error hrefused _⟩
  · -- each risk is found, so the one that cannot be linked has a link of another tenant
    rw [Prog.run_bind_of_ok hassert]
    have hlink : ∃ l, s.riskControls.find (i, id) = some l ∧ l.tenantId ≠ ctx.tenantId := by
      by_contra hnone
      refine h ⟨hfound i (List.mem_eraseDups.mpr hi), fun l hl => ?_⟩
      by_contra htenant
      exact hnone ⟨l, hl, htenant⟩
    obtain ⟨l, hl, htenant⟩ := hlink
    obtain ⟨e, s', hfails⟩ := replaceLinks_error hi hl htenant
    refine ⟨e, Prog.run_bind_of_error ?_ _⟩
    rw [Prog.transaction, Prog.run_call, hfails]

end Linked

/-! ### Requests that fail -/

/-- The control and the links to its risks are the same. -/
def SameControl (id : Uuid) (s s' : Mitigation) : Prop :=
  s'.controls.find id = s.controls.find id ∧
    ∀ riskId, s'.riskControls.find (riskId, id) = s.riskControls.find (riskId, id)

/-- The request writes new values to the control, and then names a risk that cannot be linked to it. -/
structure WritesThenFails (ctx : Ctx) (s : Mitigation) (id : Uuid) (dto : UpdateControlDto) (c : ControlRecord)
    (riskIds : List Uuid) : Prop where
  found : findControl ctx s id = some c
  writable : Writable ctx s id dto
  changes : ¬dto.Keeps ctx.now c
  risks : dto.riskIds.orNull = some riskIds
  refused : ∃ i ∈ riskIds, ¬Linkable ctx s id i

section Updates

variable {ctx : Ctx} {s : Mitigation} {id : Uuid} {dto : UpdateControlDto} {c : ControlRecord}

/-- A control that is not found refuses the request. -/
theorem update_of_missing (h : findControl ctx s id = none) :
    (update ctx id dto).run s = (.error (.notFound "Control not found"), s) := by
  rw [update, Prog.run_bind, Prog.run_read, h]
  rfl

/-- An update that the database does not take refuses the request. -/
theorem update_of_not_writable (hc : findControl ctx s id = some c) (h : ¬Writable ctx s id dto) :
    ∃ e, (update ctx id dto).run s = (.error e, s) := by
  obtain ⟨e, he⟩ := updateFields_of_not_writable hc h
  refine ⟨e, ?_⟩
  have hlook : (.read fun s => findControl ctx s id : Method _).run s = (.ok (some c), s) := by
    rw [Prog.run_read, hc]
  rw [update, Prog.run_bind_of_ok hlook]
  dsimp only
  rw [if_neg (by simp)]
  refine Prog.run_bind_of_error (Prog.run_call_of_error ?_) _
  rw [he]
  rfl

/-- What of a state decides whether a risk can be linked. -/
theorem Linkable.congr {s' : Mitigation} {i : Uuid} (hdb : s'.db = s.db) (hlinks : s'.riskControls = s.riskControls) :
    Linkable ctx s' id i ↔ Linkable ctx s id i := by
  constructor
  · rintro ⟨hfound, hown⟩
    exact ⟨hdb ▸ hfound, hlinks ▸ hown⟩
  · rintro ⟨hfound, hown⟩
    exact ⟨hdb ▸ hfound, hlinks ▸ hown⟩

/-- An update that the database takes: the fields are written, the control is still found, and the request goes
on to the risks. -/
theorem update_of_writable (hc : findControl ctx s id = some c) (h : Writable ctx s id dto) :
    ∃ after controls, dto.apply ctx.now c = some after ∧
      (∀ j, controls.find j = if j = id then some after else s.controls.find j) ∧
      findControl ctx { s with controls } id = some after ∧
      (update ctx id dto).run s = (do
        let result ← setGiven ctx id dto.riskIds.orNull (controlResponse { s with controls } id after)
        onDb (auditRecord ctx "control.updated" "Control" id)
        pure result : Method ControlResponse).run { s with controls } := by
  obtain ⟨after, controls, hwritten, hafter, hfind⟩ := updateFields_of_writable hc h
  refine ⟨after, controls, hafter, hfind, ?_, ?_⟩
  · obtain ⟨-, htenant, hdeleted⟩ := findControl_eq_some.mp hc
    obtain ⟨hsame, hkept⟩ := apply_fixed hafter
    exact findControl_eq_some.mpr ⟨by rw [hfind, if_pos rfl], hsame.trans htenant, hkept.trans hdeleted⟩
  · have hlook : (.read fun s => findControl ctx s id : Method _).run s = (.ok (some c), s) := by
      rw [Prog.run_read, hc]
    rw [update, Prog.run_bind_of_ok hlook]
    dsimp only
    rw [if_neg (by simp)]
    refine Prog.run_bind_of_ok (Prog.run_call_ok.mpr ?_) _
    rw [hwritten]
    rfl

/-- A request that names no risk, or only such as can be linked, succeeds once its fields are written. -/
theorem update_succeeds (hc : findControl ctx s id = some c) (h : Writable ctx s id dto)
    (hrisks : ∀ riskIds, dto.riskIds.orNull = some riskIds → ∀ i ∈ riskIds, Linkable ctx s id i) :
    (update ctx id dto).Succeeds s := by
  obtain ⟨after, controls, -, -, hfound, hrun⟩ := update_of_writable hc h
  have hset : ∀ response, (setGiven ctx id dto.riskIds.orNull response).Succeeds { s with controls } := by
    intro response
    cases hgiven : dto.riskIds.orNull with
    | none => exact Prog.succeeds_pure _ _
    | some riskIds =>
      refine setRisks_succeeds hfound fun i hi => ?_
      exact (@Linkable.congr ctx s id { s with controls } i rfl rfl).mpr (hrisks riskIds hgiven i hi)
  obtain ⟨result, s₁, hresult⟩ := hset (controlResponse { s with controls } id after)
  unfold Prog.Succeeds
  rw [hrun]
  exact Prog.succeeds_bind hresult (Prog.succeeds_bind (onDb_run _ _) (Prog.succeeds_pure _ _))

/-- If one cannot be linked, the request is refused, with its fields written and nothing else changed. -/
theorem update_refused (hc : findControl ctx s id = some c) (h : Writable ctx s id dto) {riskIds : List Uuid}
    (hgiven : dto.riskIds.orNull = some riskIds) {i : Uuid} (hi : i ∈ riskIds) (hrefused : ¬Linkable ctx s id i) :
    ∃ e after controls, (update ctx id dto).run s = (.error e, { s with controls }) ∧
      dto.apply ctx.now c = some after ∧ ∀ j, controls.find j = if j = id then some after else s.controls.find j := by
  obtain ⟨after, controls, hafter, hfind, hfound, hrun⟩ := update_of_writable hc h
  obtain ⟨e, he⟩ := setRisks_error (s := { s with controls }) hfound hi
    fun hlinkable => hrefused ((@Linkable.congr ctx s id { s with controls } i rfl rfl).mp hlinkable)
  refine ⟨e, after, controls, ?_, hafter, hfind⟩
  rw [hrun, hgiven]
  exact Prog.run_bind_of_error he _

end Updates

/-! ### A risk that was deleted -/

/-- A control of the office, and a risk that was deleted. -/
def reconciled : Mitigation where
  db := { Workpapers.office with risks := ⟨[(60, ⟨1, "R-1", "Fraud", some 7⟩)], by decide⟩ }
  controls := ⟨[(5, {
    tenantId := 1
    code := "C-5"
    title := "Reconciliation"
    effectiveness := .notTested
    designEffective := none
    operatingEffective := none
    lastTestedAt := none
    deletedAt := none
    description := none
    processId := none
    ownerId := none
    frequency := .monthly
    type := .preventive
    nature := .manual
    isKeyControl := false
    frameworkReferences := .arr []
    isActive := true
    createdAt := 3
    updatedAt := 3 })], by simp⟩
  riskControls := .empty

/-- The control gets a new title, and the deleted risk. -/
def retitling : UpdateControlDto := { title := some (some "Daily reconciliation"), riskIds := some (some [60]) }

/-- What refuses the request. -/
def refusal {α : Type} : Except HttpError α → Option HttpError
  | .ok _ => none
  | .error e => some e

end Mitigation

end AuditSphere.Controls
