import AuditSphere.Db.Client
import AuditSphere.Theory.Closure

/-!
# References across tenants

The foreign keys of the schema do not include the tenant, so a row of one tenant may
refer to a row of another as far as the database is concerned. The rows of the tables
that the services here write or include in their responses, with their tenants and
what they refer to, form a graph (`Db.graph`); the database is `Closed` if every
reference of a tenant's row leads to a row that the tenant sees.

What is needed of the writes follows: to put a row of a tenant into a table keeps the
database closed if its references lead to rows that the tenant sees (`Db.Closed.put`).
-/

namespace AuditSphere

open Prisma Theory Shared

/-! ### Rows and what they refer to -/

/-- A row of a model, by its id. -/
abbrev Key := Model × Uuid

/-- The rows that a nullable foreign key refers to: one or none. -/
def refer (m : Model) (id : Option Uuid) : List Key := (id.map fun i => (m, i)).toList

@[simp] theorem forall_mem_refer {m : Model} {id : Option Uuid} {P : Key → Prop} :
    (∀ k ∈ refer m id, P k) ↔ ∀ i, id = some i → P (m, i) := by
  cases id <;> simp [refer]

theorem mem_refer {m : Model} {id : Option Uuid} {i : Uuid} : (m, i) ∈ refer m id ↔ id = some i := by
  cases id <;> simp [refer, eq_comm]

/-- A row of a model whose foreign keys are known. -/
class RefRow (ρ : Type) extends TenantRow ρ where
  /-- The rows that a row refers to. -/
  refs : ρ → List Key

/-- What a row is in the graph. -/
def nodeOf {ρ : Type} [RefRow ρ] (r : ρ) : Node Key (Option Uuid) := ⟨TenantRow.tenantOf r, RefRow.refs r⟩

/-- What is found under an id is in the graph. -/
def nodeIn {ρ : Type} [RefRow ρ] (t : Table Uuid ρ) (id : Uuid) : Option (Node Key (Option Uuid)) := (t.find id).map nodeOf

instance : RefRow User := ⟨fun _ => []⟩
instance {model : Model} : RefRow (Coded model) := ⟨fun _ => []⟩
instance : RefRow LibraryItem := ⟨fun _ => []⟩
instance : RefRow WorkpaperTemplate := ⟨fun _ => []⟩
instance : RefRow Document := ⟨fun d => refer .user (some d.uploadedById)⟩
instance : RefRow Engagement where
  refs e := refer .auditEntity e.entityId ++ refer .user e.leadId ++ refer .user e.managerId ++ refer .user e.partnerId ++
    e.members.map fun u => (.user, u)
instance : RefRow AuditProgram where
  refs p := refer .engagement (some p.engagementId) ++ refer .libraryItem p.libraryItemId ++ refer .user p.approvedById
instance : RefRow AuditProgramStep where
  refs s := refer .auditProgram (some s.programId) ++ refer .risk s.riskId ++ refer .control s.controlId ++
    refer .user s.assigneeId
instance : RefRow Workpaper where
  refs w := refer .engagement (some w.engagementId) ++ refer .auditProgramStep w.programStepId ++
    refer .workpaperTemplate w.templateId ++ refer .risk w.riskId ++ refer .control w.controlId ++
    refer .user w.preparedById ++ refer .user w.reviewedById ++ refer .user w.signedOffById
instance : RefRow WorkpaperVersion where
  refs v := refer .workpaper (some v.workpaperId) ++ refer .user (some v.changedById)
instance : RefRow ReviewNote where
  refs n := refer .workpaper (some n.workpaperId) ++ refer .user (some n.raisedById) ++ refer .user n.assignedToId ++
    refer .user n.clearedById
instance : RefRow Evidence where
  refs e := refer .engagement (some e.engagementId) ++ refer .workpaper e.workpaperId ++ refer .document e.documentId ++
    refer .user (some e.obtainedById)
instance : RefRow Finding where
  refs f := refer .engagement (some f.engagementId) ++ refer .workpaper f.workpaperId ++ refer .auditEntity f.entityId ++
    refer .process f.processId ++ refer .risk f.riskId ++ refer .control f.controlId ++ refer .user f.actionOwnerId ++
    refer .user f.validatedById ++ refer .finding f.repeatOfId ++ refer .user (some f.raisedById) ++
    f.evidenceIds.map fun e => (.evidence, e)
instance : RefRow FindingStatusHistory where
  refs h := refer .finding (some h.findingId) ++ refer .user (some h.changedById)
instance : RefRow Recommendation where
  refs r := refer .finding (some r.findingId) ++ refer .user r.ownerId

/-- The rows of the database, with their tenants and what they refer to. -/
def Db.graph (db : Db) : RefGraph Key (Option Uuid)
  | (.user, i) => nodeIn db.users i
  | (.risk, i) => nodeIn db.risks i
  | (.control, i) => nodeIn db.controls i
  | (.process, i) => nodeIn db.processes i
  | (.auditEntity, i) => nodeIn db.entities i
  | (.engagement, i) => nodeIn db.engagements i
  | (.auditProgram, i) => nodeIn db.programs i
  | (.auditProgramStep, i) => nodeIn db.programSteps i
  | (.libraryItem, i) => nodeIn db.libraryItems i
  | (.workpaperTemplate, i) => nodeIn db.templates i
  | (.workpaper, i) => nodeIn db.workpapers i
  | (.workpaperVersion, i) => nodeIn db.versions i
  | (.reviewNote, i) => nodeIn db.reviewNotes i
  | (.document, i) => nodeIn db.documents i
  | (.evidence, i) => nodeIn db.evidence i
  | (.finding, i) => nodeIn db.findings i
  | (.findingStatusHistory, i) => nodeIn db.findingHistory i
  | (.recommendation, i) => nodeIn db.recommendations i
  | _ => none

/-- A row of a tenant may refer to the rows that the tenant sees. -/
def mayRefer (owner : Option Uuid) (k : Key) (owner' : Option Uuid) : Prop :=
  ∃ t, owner = some t ∧ Visible k.1 t owner'

/-- **Closed**: every reference stored on a tenant's row leads to a row that the tenant sees. -/
def Db.Closed (db : Db) : Prop := db.graph.Closed mayRefer

/-- If the foreign key is not null, it leads to a row that the tenant sees. -/
def Db.Refers (db : Db) (tenantId : Uuid) (m : Model) (id : Option Uuid) : Prop :=
  ∀ i, id = some i → db.graph.Leads mayRefer (some tenantId) (m, i)

/-! ### Tables -/

/-- The table of a model. -/
class InDb (ρ : Type) extends RefRow ρ where
  /-- The table. -/
  table : Db → Table Uuid ρ
  graph_eq : ∀ db i, db.graph (TenantRow.model ρ, i) = nodeIn (table db) i

instance : InDb User := ⟨Db.users, fun _ _ => rfl⟩
instance : InDb Risk := ⟨Db.risks, fun _ _ => rfl⟩
instance : InDb Control := ⟨Db.controls, fun _ _ => rfl⟩
instance : InDb Process := ⟨Db.processes, fun _ _ => rfl⟩
instance : InDb AuditEntity := ⟨Db.entities, fun _ _ => rfl⟩
instance : InDb Engagement := ⟨Db.engagements, fun _ _ => rfl⟩
instance : InDb AuditProgram := ⟨Db.programs, fun _ _ => rfl⟩
instance : InDb AuditProgramStep := ⟨Db.programSteps, fun _ _ => rfl⟩
instance : InDb LibraryItem := ⟨Db.libraryItems, fun _ _ => rfl⟩
instance : InDb WorkpaperTemplate := ⟨Db.templates, fun _ _ => rfl⟩
instance : InDb Workpaper := ⟨Db.workpapers, fun _ _ => rfl⟩
instance : InDb WorkpaperVersion := ⟨Db.versions, fun _ _ => rfl⟩
instance : InDb ReviewNote := ⟨Db.reviewNotes, fun _ _ => rfl⟩
instance : InDb Document := ⟨Db.documents, fun _ _ => rfl⟩
instance : InDb Evidence := ⟨Db.evidence, fun _ _ => rfl⟩
instance : InDb Finding := ⟨Db.findings, fun _ _ => rfl⟩
instance : InDb FindingStatusHistory := ⟨Db.findingHistory, fun _ _ => rfl⟩
instance : InDb Recommendation := ⟨Db.recommendations, fun _ _ => rfl⟩

/-- A table that is written: only the rows of its model depend on it. -/
class Written (ρ : Type) extends InDb ρ where
  /-- Put another table in its place. -/
  set : Db → Table Uuid ρ → Db
  table_set : ∀ db t, table (set db t) = t
  graph_set : ∀ db t k, k.1 ≠ TenantRow.model ρ → (set db t).graph k = db.graph k

instance : Written AuditProgram where
  set db programs := { db with programs }
  table_set _ _ := rfl
  graph_set := by rintro db t ⟨m, i⟩ hm; cases m <;> first | rfl | exact absurd rfl hm

instance : Written AuditProgramStep where
  set db programSteps := { db with programSteps }
  table_set _ _ := rfl
  graph_set := by rintro db t ⟨m, i⟩ hm; cases m <;> first | rfl | exact absurd rfl hm

instance : Written Workpaper where
  set db workpapers := { db with workpapers }
  table_set _ _ := rfl
  graph_set := by rintro db t ⟨m, i⟩ hm; cases m <;> first | rfl | exact absurd rfl hm

instance : Written WorkpaperVersion where
  set db versions := { db with versions }
  table_set _ _ := rfl
  graph_set := by rintro db t ⟨m, i⟩ hm; cases m <;> first | rfl | exact absurd rfl hm

instance : Written ReviewNote where
  set db reviewNotes := { db with reviewNotes }
  table_set _ _ := rfl
  graph_set := by rintro db t ⟨m, i⟩ hm; cases m <;> first | rfl | exact absurd rfl hm

instance : Written Document where
  set db documents := { db with documents }
  table_set _ _ := rfl
  graph_set := by rintro db t ⟨m, i⟩ hm; cases m <;> first | rfl | exact absurd rfl hm

instance : Written Evidence where
  set db evidence := { db with evidence }
  table_set _ _ := rfl
  graph_set := by rintro db t ⟨m, i⟩ hm; cases m <;> first | rfl | exact absurd rfl hm

instance : Written Finding where
  set db findings := { db with findings }
  table_set _ _ := rfl
  graph_set := by rintro db t ⟨m, i⟩ hm; cases m <;> first | rfl | exact absurd rfl hm

instance : Written FindingStatusHistory where
  set db findingHistory := { db with findingHistory }
  table_set _ _ := rfl
  graph_set := by rintro db t ⟨m, i⟩ hm; cases m <;> first | rfl | exact absurd rfl hm

/-! ### What leads to a row that the tenant sees -/

section Refers

variable {ρ : Type} [InDb ρ] {db : Db} {ctx : Ctx}

/-- A reference leads somewhere for a tenant if a row that the tenant sees is under the id. -/
theorem leads_of_sees {i : Uuid} {r : ρ} (hfind : (InDb.table db).find i = some r) (hsees : ctx.sees r = true) :
    db.graph.Leads mayRefer (some ctx.tenantId) (TenantRow.model ρ, i) := by
  refine ⟨nodeOf r, ?_, _, rfl, (ctx.sees_iff r).mp hsees⟩
  rw [InDb.graph_eq, nodeIn, hfind]
  rfl

/-- What a row of a tenant refers to, in a closed database. -/
theorem Db.Closed.refs (h : db.Closed) {t i : Uuid} {r : ρ} (hfind : (InDb.table db).find i = some r)
    (htenant : TenantRow.tenantOf r = some t) : ∀ k ∈ RefRow.refs r, db.graph.Leads mayRefer (some t) k := by
  have hnode : db.graph (TenantRow.model ρ, i) = some (nodeOf r) := by
    rw [InDb.graph_eq, nodeIn, hfind]
    rfl
  rw [← htenant]
  exact h _ _ hnode

/-- The row that an id refers to was found by a scoped query. -/
theorem refers_of_found {table : Db → Table Uuid ρ} (htable : table = InDb.table) {id : Field Uuid} {p : Db → ρ → Bool}
    {R : Db → Db → Prop} (hR : ∀ a b, R a b → b.graph = a.graph) {s s₁ : Db} (h : Found ctx table id p R s s₁) :
    s₁.Refers ctx.tenantId (TenantRow.model ρ) id.orNull := by
  subst htable
  intro i hi
  obtain ⟨s₀, r, -, h₁, hr⟩ := h i hi
  obtain ⟨hfind, hsees, -⟩ := Ctx.findById_eq_some.mp hr
  rw [hR _ _ h₁]
  exact leads_of_sees hfind hsees

/-- The id names no row of another tenant: either none, or one that the tenant sees. -/
def Own (db : Db) (ctx : Ctx) (k : Key) : Prop := ∀ n, db.graph k = some n → Visible k.1 ctx.tenantId n.owner

/-- An id that names no row of another tenant leads to a row of the tenant if the foreign
key admits it. -/
theorem refers_of_own {table : Table Uuid ρ} (htable : table = InDb.table db) {id : Option Uuid}
    (hown : ∀ k ∈ refer (TenantRow.model ρ) id, Own db ctx k) (hadmitted : refersTo table id = true) :
    db.Refers ctx.tenantId (TenantRow.model ρ) id := by
  subst htable
  intro i hi
  subst hi
  obtain ⟨r, hr⟩ := Option.isSome_iff_exists.mp hadmitted
  refine leads_of_sees hr ((ctx.sees_iff r).mpr (hown (TenantRow.model ρ, i) (mem_refer.mpr rfl) (nodeOf r) ?_))
  rw [InDb.graph_eq, nodeIn, hr]
  rfl

/-- A nullable foreign key after an update: it is what was given, or what it was. -/
theorem refers_of_update {table : Table Uuid ρ} (htable : table = InDb.table db) {f : Field Uuid} {old : Option Uuid}
    (hown : ∀ k ∈ refer (TenantRow.model ρ) f.orNull, Own db ctx k)
    (hold : db.Refers ctx.tenantId (TenantRow.model ρ) old) (hadmitted : refersTo table (f.onNullable old) = true) :
    db.Refers ctx.tenantId (TenantRow.model ρ) (f.onNullable old) := by
  cases f with
  | none => exact hold
  | some v => exact refers_of_own htable hown hadmitted

/-- The same if what was given has been found. -/
theorem Db.Refers.onNullable {t : Uuid} {m : Model} {f : Field Uuid} {old : Option Uuid}
    (hnew : db.Refers t m f.orNull) (hold : db.Refers t m old) : db.Refers t m (f.onNullable old) := by
  cases f with
  | none => exact hold
  | some v => exact hnew

theorem Db.Refers.or {t : Uuid} {m : Model} {a b : Option Uuid} (ha : db.Refers t m a) (hb : db.Refers t m b) :
    db.Refers t m (a.or b) := by
  cases a with
  | none => exact hb
  | some i => exact ha

theorem Db.Refers.none {t : Uuid} {m : Model} : db.Refers t m none := fun _ h => by cases h

end Refers

/-! ### Writes -/

section Write

variable {ρ : Type} [Written ρ] {s s' : Db} {t : Table Uuid ρ}

theorem graph_kept (hset : s' = Written.set s t) (hrows : ∀ j, nodeIn t j = nodeIn (InDb.table s : Table Uuid ρ) j) :
    s'.graph = s.graph := by
  subst hset
  funext ⟨m, j⟩
  by_cases hm : m = TenantRow.model ρ
  · subst hm
    rw [InDb.graph_eq, InDb.graph_eq, Written.table_set, hrows]
  · exact Written.graph_set _ _ _ hm

theorem graph_put {id : Uuid} {r : ρ} (hset : s' = Written.set s t)
    (hrows : ∀ j, t.find j = if j = id then some r else (InDb.table s).find j) :
    s'.graph = s.graph.put (TenantRow.model ρ, id) (nodeOf r) := by
  subst hset
  funext ⟨m, j⟩
  by_cases hm : m = TenantRow.model ρ
  · subst hm
    rw [InDb.graph_eq, nodeIn, Written.table_set, hrows]
    by_cases hj : j = id
    · subst hj
      rw [if_pos rfl, RefGraph.put_self]
      rfl
    · rw [if_neg hj, RefGraph.put_of_ne (by simp [hj]), InDb.graph_eq]
      rfl
  · rw [Written.graph_set _ _ _ hm, RefGraph.put_of_ne (by simp [hm])]

/-- The key of a row does not change its owner if the id is fresh, or the tenant kept. -/
theorem owner_kept {id : Uuid} {r : ρ} (hsame : ∀ r₀ : ρ, (InDb.table s).find id = some r₀ →
      TenantRow.tenantOf r₀ = TenantRow.tenantOf r) :
    ∀ n, s.graph (TenantRow.model ρ, id) = some n → n.owner = (nodeOf r).owner := by
  intro n hn
  rw [InDb.graph_eq] at hn
  obtain ⟨r₀, hr₀, rfl⟩ := Option.map_eq_some_iff.mp hn
  exact hsame r₀ hr₀

theorem same_of_fresh {id : Uuid} {r : ρ} (h : (InDb.table s : Table Uuid ρ).find id = none) :
    ∀ r₀ : ρ, (InDb.table s).find id = some r₀ → TenantRow.tenantOf r₀ = TenantRow.tenantOf r := by
  intro r₀ hr₀
  rw [h] at hr₀
  cases hr₀

theorem same_of_row {id : Uuid} {r r' : ρ} (h : (InDb.table s).find id = some r')
    (htenant : TenantRow.tenantOf r' = TenantRow.tenantOf r) :
    ∀ r₀ : ρ, (InDb.table s).find id = some r₀ → TenantRow.tenantOf r₀ = TenantRow.tenantOf r := by
  intro r₀ hr₀
  rw [h, Option.some.injEq] at hr₀
  rw [← hr₀, htenant]

/-- **Writes**: a row of a tenant, new or changed, whose references lead to rows that the
tenant sees keeps the database closed. -/
theorem Db.Closed.put (h : s.Closed) {id : Uuid} {r : ρ} (hset : s' = Written.set s t)
    (hrows : ∀ j, t.find j = if j = id then some r else (InDb.table s).find j)
    (hsame : ∀ r₀ : ρ, (InDb.table s).find id = some r₀ → TenantRow.tenantOf r₀ = TenantRow.tenantOf r)
    (hrefs : ∀ k ∈ RefRow.refs r, s.graph.Leads mayRefer (TenantRow.tenantOf r) k) : s'.Closed := by
  unfold Db.Closed
  rw [graph_put hset hrows]
  exact RefGraph.Closed.put h (owner_kept hsame) hrefs

/-- What led somewhere before the write still does. -/
theorem leads_put {id : Uuid} {r : ρ} (hset : s' = Written.set s t)
    (hrows : ∀ j, t.find j = if j = id then some r else (InDb.table s).find j)
    (hsame : ∀ r₀ : ρ, (InDb.table s).find id = some r₀ → TenantRow.tenantOf r₀ = TenantRow.tenantOf r)
    {owner : Option Uuid} {k : Key} (h : s.graph.Leads mayRefer owner k) : s'.graph.Leads mayRefer owner k := by
  rw [graph_put hset hrows]
  exact h.put (owner_kept hsame)

end Write

theorem Quiet.graph {a b : Db} (h : Quiet a b) : b.graph = a.graph := by
  rw [h]
  funext ⟨m, i⟩
  cases m <;> rfl

end AuditSphere
