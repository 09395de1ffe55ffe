import AuditSphere.Prisma.Where
import Mathlib.Data.Set.Basic

/-!
# The tenant extension

`prisma/tenant-extension.ts`: every query of the tenant-scoped client has its
arguments rewritten by `applyTenantScope` before it reaches the database.
Models fall into three classes: tenant models, whose `tenantId` is mandatory;
shared models, where a null `tenantId` means global content; and global models,
which have no such column and whose arguments pass unchanged.

The reads, and the `where` of the writes, are confined by `scopedWhere`: the
rows it matches are exactly those the caller's `where` matches among the rows
the tenant may see (`matched_scopedWhere`). For a tenant model a `tenantId` key
of the caller is overwritten, so it is the `where` without that key that counts.
-/

namespace AuditSphere.Prisma

open Theory

/-- The models of the Prisma schema. -/
inductive Model where
  | user | role | userRole | refreshToken | auditEntity | process | riskCategory | scoringModel
  | risk | riskAssessment | control | riskControl | controlTest | auditPlan | auditPlanItem
  | managementRequest | engagement | engagementMember | engagementStakeholder
  | engagementMilestone | engagementStageHistory | auditProgram | auditProgramStep | workpaper
  | workpaperVersion | reviewNote | review | document | documentVersion | evidence | finding
  | recommendation | findingStatusHistory | documentRequest | task | comment | notification
  | approval | auditTrail | chargeCode | timesheet | timeEntry | staffAvailability
  | aiInteraction | riskSignal | dataConnector | monitoringRule | monitoringAlert
  | libraryItem | workpaperTemplate
  | tenant | permission | rolePermission | framework | frameworkReference
  | libraryItemFrameworkRef
  deriving DecidableEq

/-- Models whose `tenantId` is mandatory. -/
def tenantModels : List Model :=
  [.user, .role, .userRole, .refreshToken, .auditEntity, .process, .riskCategory, .scoringModel,
    .risk, .riskAssessment, .control, .riskControl, .controlTest, .auditPlan, .auditPlanItem,
    .managementRequest, .engagement, .engagementMember, .engagementStakeholder,
    .engagementMilestone, .engagementStageHistory, .auditProgram, .auditProgramStep, .workpaper,
    .workpaperVersion, .reviewNote, .review, .document, .documentVersion, .evidence, .finding,
    .recommendation, .findingStatusHistory, .documentRequest, .task, .comment, .notification,
    .approval, .auditTrail, .chargeCode, .timesheet, .timeEntry, .staffAvailability,
    .aiInteraction, .riskSignal, .dataConnector, .monitoringRule, .monitoringAlert]

/-- Models with a nullable `tenantId`, where null means shared content. -/
def sharedModels : List Model := [.libraryItem, .workpaperTemplate]

/-- Models with no tenant column at all. -/
def globalModels : List Model :=
  [.tenant, .permission, .rolePermission, .framework, .frameworkReference, .libraryItemFrameworkRef]

/-- The three classes cover the schema, and no model is in two of them. -/
theorem models_classified : (tenantModels ++ sharedModels ++ globalModels).Nodup ∧
    ∀ m : Model, m ∈ tenantModels ++ sharedModels ++ globalModels := by
  refine ⟨by decide, fun m => ?_⟩
  cases m <;> decide

theorem not_shared_of_tenant {m : Model} (h : m ∈ tenantModels) : m ∉ sharedModels := by
  have := models_classified.1
  rw [List.nodup_append] at this
  exact fun hs => (List.nodup_append.mp this.1).2.2 m h m hs rfl

theorem not_global_of_scoped {m : Model} (h : m ∈ tenantModels ∨ m ∈ sharedModels) : m ∉ globalModels :=
  fun hg => (List.nodup_append.mp models_classified.1).2.2 m (List.mem_append.mpr h) m hg rfl

/-- The operations of the Prisma client on a model. -/
inductive Operation where
  | findMany | findFirst | findFirstOrThrow | findUnique | findUniqueOrThrow | count | aggregate | groupBy
  | update | updateMany | updateManyAndReturn | delete | deleteMany
  | create | createMany | createManyAndReturn
  | upsert
  deriving DecidableEq

/-- The operations that only read. -/
def readOps : List Operation :=
  [.findMany, .findFirst, .findFirstOrThrow, .findUnique, .findUniqueOrThrow, .count, .aggregate, .groupBy]

/-- The writes that select rows by a `where`. -/
def whereWriteOps : List Operation := [.update, .updateMany, .updateManyAndReturn, .delete, .deleteMany]

/-- The writes that insert rows. -/
def createOps : List Operation := [.create, .createMany, .createManyAndReturn]

/-- A write to the relation `tenant` in the data of a row. -/
inductive TenantWrite where
  /-- `{ connect: { id: t } }`. -/
  | connect (t : Uuid)
  /-- `{ create: .. }`, of a tenant with the id `t`. -/
  | create (t : Uuid)
  /-- `{ disconnect: true }`. -/
  | disconnect
  deriving DecidableEq

/-- The data of one row; an absent key and the value `undefined` mean the same. -/
structure Data (δ : Type) where
  /-- The key `tenantId`. -/
  tenantId : Option (Option Uuid) := none
  /-- The key `tenant`. -/
  tenant : Option TenantWrite := none
  /-- All other keys. -/
  fields : δ
  deriving DecidableEq

/-- The arguments of an operation, by the keys the extension looks at. -/
structure Args (φ δ κ : Type) where
  /-- The key `where`. -/
  filter : Option (Where φ) := none
  /-- The key `data`. -/
  data : Option (OneOrMany (Data δ)) := none
  /-- The key `create` of an upsert. -/
  create : Option (OneOrMany (Data δ)) := none
  /-- The key `update` of an upsert. -/
  update : Option (Data δ) := none
  /-- All other keys (`select`, `include`, `orderBy`, `take`, ..). -/
  rest : Option κ := none

variable {φ δ κ : Type}

/-- Restrict a `where` to the tenant: by its own key, or by one more object under `AND`. -/
def scopedWhere (model : Model) (filter : Option (Where φ)) (tenantId : Uuid) : Where φ :=
  let base := filter.getD {}
  if model ∈ sharedModels then
    let scope : Where φ := { or := some [{ tenantId := some (.eq tenantId) }, { tenantId := some .null }] }
    let and := match base.and with
      | some (.many ws) => ws
      | some (.one w) => [w]
      | none => []
    { base with and := some (.many (and ++ [scope])) }
  else { base with tenantId := some (.eq tenantId) }

/-- Give data the tenant. Data of one row that writes the relation `tenant` is left alone. -/
def scopedData (data : Option (OneOrMany (Data δ))) (tenantId : Uuid) : Option (OneOrMany (Data δ)) :=
  match data with
  | none => none
  | some (.many ds) => some (.many (ds.map fun d => { d with tenantId := some (some tenantId) }))
  | some (.one d) =>
    if d.tenant.isSome then some (.one d) else some (.one { d with tenantId := some (some tenantId) })

/-- Rewrite the arguments of an operation so that it stays within the tenant. -/
def applyTenantScope (model : Model) (operation : Operation) (args : Option (Args φ δ κ)) (tenantId : Uuid) :
    Args φ δ κ :=
  let a := args.getD {}
  if model ∈ globalModels then a
  else if model ∉ tenantModels ∧ model ∉ sharedModels then a
  else if operation ∈ readOps ∨ operation ∈ whereWriteOps then
    { a with filter := some (scopedWhere model a.filter tenantId) }
  else if operation ∈ createOps then
    { a with data := scopedData a.data tenantId }
  else if operation = .upsert then
    { a with filter := some (scopedWhere model a.filter tenantId), create := scopedData a.create tenantId }
  else a

/-! ### What the rewritten `where` matches -/

/-- The caller's `where` as far as the extension keeps it: for a tenant model without
its top-level `tenantId`. -/
def callerWhere (model : Model) (filter : Option (Where φ)) : Where φ :=
  if model ∈ tenantModels then { filter.getD {} with tenantId := none } else filter.getD {}

/-- The tenants whose rows a tenant sees: its own, and for a shared model none as well. -/
def Visible (model : Model) (tenantId : Uuid) (owner : Option Uuid) : Prop :=
  owner = some tenantId ∨ (model ∈ sharedModels ∧ owner = none)

section Matched

variable {ρ : Type} (tenantOf : ρ → Option Uuid) (sat : φ → ρ → Truth)

/-- For a shared model the scope is one more conjunct. -/
theorem eval_scopedWhere_shared {model : Model} (h : model ∈ sharedModels) (filter : Option (Where φ))
    (tenantId : Uuid) (r : ρ) :
    (scopedWhere model filter tenantId).eval tenantOf sat r = .yes ↔
      (filter.getD {}).eval tenantOf sat r = .yes ∧ (tenantOf r = some tenantId ∨ tenantOf r = none) := by
  have hscope : Where.eval tenantOf sat r
      ({ or := some [{ tenantId := some (.eq tenantId) }, { tenantId := some .null }] } : Where φ) = .yes ↔
        tenantOf r = some tenantId ∨ tenantOf r = none := by
    simp [eval_or]
  rw [eval_conjuncts, eval_conjuncts r (filter.getD {})]
  simp only [scopedWhere, h, if_true, Where.conjuncts, List.forall_mem_append, List.forall_mem_singleton, hscope]
  exact and_assoc.symm

/-- For a tenant model the scope takes the place of the key `tenantId`. -/
theorem eval_scopedWhere_tenant {model : Model} (h : model ∈ tenantModels) (filter : Option (Where φ))
    (tenantId : Uuid) (r : ρ) :
    (scopedWhere model filter tenantId).eval tenantOf sat r = .yes ↔
      Where.eval tenantOf sat r { filter.getD {} with tenantId := none } = .yes ∧
        tenantOf r = some tenantId := by
  rw [scopedWhere, if_neg (not_shared_of_tenant h), eval_tenant, eval_tenant_eq]

/-- **The scope is an intersection**: the rewritten `where` matches the rows that the
caller's `where` matches among those the tenant sees. -/
theorem matched_scopedWhere {model : Model} (h : model ∈ tenantModels ∨ model ∈ sharedModels)
    (filter : Option (Where φ)) (tenantId : Uuid) :
    matched tenantOf sat (scopedWhere model filter tenantId) =
      matched tenantOf sat (callerWhere model filter) ∩ {r | Visible model tenantId (tenantOf r)} := by
  ext r
  simp only [matched, Visible, callerWhere, Set.mem_inter_iff, Set.mem_ofPred_eq]
  rcases h with h | h
  · rw [eval_scopedWhere_tenant tenantOf sat h, if_pos h]
    simp [not_shared_of_tenant h]
  · have hn : model ∉ tenantModels := fun ht => not_shared_of_tenant ht h
    rw [eval_scopedWhere_shared tenantOf sat h, if_neg hn]
    simp [h]

end Matched

/-! ### The rewritten arguments -/

section Scoped

variable {model : Model} (hm : model ∈ tenantModels ∨ model ∈ sharedModels) {operation : Operation}
  (args : Option (Args φ δ κ)) (tenantId : Uuid)

include hm

theorem applyTenantScope_select (ho : operation ∈ readOps ∨ operation ∈ whereWriteOps) :
    applyTenantScope model operation args tenantId =
      { args.getD {} with filter := some (scopedWhere model (args.getD {}).filter tenantId) } := by
  have hclass : ¬(model ∉ tenantModels ∧ model ∉ sharedModels) := by tauto
  rw [applyTenantScope, if_neg (not_global_of_scoped hm), if_neg hclass, if_pos ho]

theorem applyTenantScope_create (ho : operation ∈ createOps) :
    applyTenantScope model operation args tenantId =
      { args.getD {} with data := scopedData (args.getD {}).data tenantId } := by
  have hclass : ¬(model ∉ tenantModels ∧ model ∉ sharedModels) := by tauto
  have hsel : ¬(operation ∈ readOps ∨ operation ∈ whereWriteOps) := by
    revert ho
    cases operation <;> decide
  rw [applyTenantScope, if_neg (not_global_of_scoped hm), if_neg hclass, if_neg hsel, if_pos ho]

theorem applyTenantScope_upsert :
    applyTenantScope model .upsert args tenantId =
      { args.getD {} with
        filter := some (scopedWhere model (args.getD {}).filter tenantId)
        create := scopedData (args.getD {}).create tenantId } := by
  have hclass : ¬(model ∉ tenantModels ∧ model ∉ sharedModels) := by tauto
  rw [applyTenantScope, if_neg (not_global_of_scoped hm), if_neg hclass]
  rfl

/-- The `where` of an operation that selects rows is rewritten by `scopedWhere`. -/
theorem applyTenantScope_filter
    (ho : operation ∈ readOps ∨ operation ∈ whereWriteOps ∨ operation = .upsert) :
    (applyTenantScope model operation args tenantId).filter =
      some (scopedWhere model (args.getD {}).filter tenantId) := by
  rcases ho with ho | ho | rfl
  · rw [applyTenantScope_select hm args tenantId (.inl ho)]
  · rw [applyTenantScope_select hm args tenantId (.inr ho)]
  · rw [applyTenantScope_upsert hm]

end Scoped

/-- Scoped data of one row have the tenant, unless they write the relation. -/
theorem scopedData_one {data : Option (OneOrMany (Data δ))} {tenantId : Uuid} {d : Data δ}
    (h : scopedData data tenantId = some (.one d)) :
    (∃ d₀, data = some (.one d₀) ∧ d₀.tenant ≠ none) ∨ (d.tenant = none ∧ d.tenantId = some (some tenantId)) := by
  rcases data with _ | d₀ | ds
  · cases h
  · by_cases ht : d₀.tenant.isSome
    · exact .inl ⟨d₀, rfl, Option.isSome_iff_ne_none.mp ht⟩
    · simp only [scopedData, if_neg ht, Option.some.injEq, OneOrMany.one.injEq] at h
      subst h
      exact .inr ⟨Option.not_isSome_iff_eq_none.mp ht, rfl⟩
  · cases h

/-- Scoped data of several rows all have the tenant. -/
theorem scopedData_many {data : Option (OneOrMany (Data δ))} {tenantId : Uuid} {ds : List (Data δ)}
    (h : scopedData data tenantId = some (.many ds)) : ∀ d ∈ ds, d.tenantId = some (some tenantId) := by
  rcases data with _ | d₀ | ds₀
  · cases h
  · simp only [scopedData] at h
    split at h <;> cases h
  · simp only [scopedData, Option.some.injEq, OneOrMany.many.injEq] at h
    subst h
    intro d hd
    obtain ⟨d₀, -, rfl⟩ := List.mem_map.mp hd
    rfl

/-! ### Confinement of what is selected -/

/-- **Reads and filters are confined to the tenant.** For every tenant or shared model,
every operation that selects rows, every `where` of the caller and every meaning of
its filters, the rewritten `where` matches exactly the rows that the caller's `where`
(for a tenant model without its top-level `tenantId`) matches among the rows of the
tenant (for a shared model, and those without a tenant). -/
theorem applyTenantScope_matched {ρ : Type} (tenantOf : ρ → Option Uuid) (sat : φ → ρ → Truth)
    {model : Model} (hm : model ∈ tenantModels ∨ model ∈ sharedModels) {operation : Operation}
    (ho : operation ∈ readOps ∨ operation ∈ whereWriteOps ∨ operation = .upsert)
    (args : Option (Args φ δ κ)) (tenantId : Uuid) :
    ∃ w, (applyTenantScope model operation args tenantId).filter = some w ∧
      matched tenantOf sat w = matched tenantOf sat (callerWhere model (args.getD {}).filter) ∩
        {r | tenantOf r = some tenantId ∨ (model ∈ sharedModels ∧ tenantOf r = none)} :=
  ⟨_, applyTenantScope_filter hm args tenantId ho, matched_scopedWhere tenantOf sat hm _ tenantId⟩

/-- The theorem at a shared model, with an `OR` of the caller that names another tenant:
the row of that tenant is not matched. -/
theorem applyTenantScope_matched_shared :
    ∃ w : Where Unit, (applyTenantScope .libraryItem .findMany (some
          ({ filter := some { or := some [{ tenantId := some (.eq 2) }, {}] } } : Args Unit Unit Unit)) 1).filter =
        some w ∧
      matched id (fun _ _ => .yes) w = matched id (fun _ _ => .yes)
          (callerWhere .libraryItem (some ({ or := some [{ tenantId := some (.eq 2) }, {}] } : Where Unit))) ∩
        {r | r = some 1 ∨ (Model.libraryItem ∈ sharedModels ∧ r = none)} :=
  applyTenantScope_matched id (fun _ _ => .yes) (.inr (by decide)) (.inl (by decide)) _ 1

end AuditSphere.Prisma
