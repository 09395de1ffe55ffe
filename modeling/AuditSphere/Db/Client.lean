import AuditSphere.Db.Schema
import AuditSphere.Theory.Interleaving
import Mathlib.Data.List.Perm.Subperm

/-!
# The tenant-scoped client

What services use of the database: queries confined to the tenant of the request,
the errors a request ends with, the audit trail and notifications.

A scoped query looks only at rows of the tenant (`Ctx.sees`); that this is what
the rewritten `where` selects is `sees_iff`. Rows are referred to by id, and a
foreign key is satisfied by a row of any tenant, as in the schema.
-/

namespace AuditSphere

open Prisma Theory Shared

/-! ### Requests and errors -/

/-- What a request carries: the authenticated user, the time, and the uuids it draws. -/
structure Ctx where
  /-- The tenant of the user. -/
  tenantId : Uuid
  /-- The user. -/
  userId : Uuid
  /-- The e-mail address of the user, if it is known. -/
  email : Option String
  /-- The keys of the user's roles. -/
  roles : List String
  /-- What the user holds. -/
  permissions : List PermissionKey
  /-- The time. -/
  now : Date
  /-- The uuids drawn for new rows, in order. -/
  uuid : ℕ → Uuid

/-- `hasPermission`. -/
def Ctx.hasPermission (ctx : Ctx) (p : PermissionKey) : Bool := p ∈ ctx.permissions

/-- A guard that does not hold, with what is to be told. -/
structure GuardFailure where
  /-- The name of the guard. -/
  guard : String
  /-- The message. -/
  message : String
  deriving DecidableEq

/-- The error codes of Prisma that occur here. -/
inductive PrismaCode where
  /-- A unique constraint is violated. -/
  | p2002
  /-- A foreign key refers to no row. -/
  | p2003
  /-- The record to change was not found. -/
  | p2025
  /-- A required column is given null. -/
  | validation
  deriving DecidableEq

/-- How a request fails. -/
inductive HttpError where
  | badRequest (message : String)
  | forbidden (message : String)
  | notFound (message : String)
  | conflict (message : String)
  | workflowGuard (failures : List GuardFailure) (message : String)
  | internal (message : String)
  | prisma (code : PrismaCode)
  deriving DecidableEq

/-- A service method. -/
abbrev Service (α : Type) := Prog Db HttpError α

/-! ### Rows -/

/-- A row with its id. -/
abbrev WithId (ρ : Type) := Uuid × ρ

/-- The row that a foreign key refers to. -/
def related {ρ : Type} (t : Table Uuid ρ) (id : Option Uuid) : Option (WithId ρ) :=
  id.bind fun i => (t.find i).map fun r => (i, r)

/-! ### Scoped queries -/

/-- A row of a model with a column `tenantId`. -/
class TenantRow (ρ : Type) where
  /-- The model. -/
  model : Model
  /-- The tenant of a row. -/
  tenantOf : ρ → Option Uuid

instance : TenantRow User := ⟨.user, fun r => some r.tenantId⟩
instance {model : Model} : TenantRow (Coded model) := ⟨model, fun r => some r.tenantId⟩
instance : TenantRow Engagement := ⟨.engagement, fun r => some r.tenantId⟩
instance : TenantRow EngagementStageHistory := ⟨.engagementStageHistory, fun r => some r.tenantId⟩
instance : TenantRow AuditProgram := ⟨.auditProgram, fun r => some r.tenantId⟩
instance : TenantRow AuditProgramStep := ⟨.auditProgramStep, fun r => some r.tenantId⟩
instance : TenantRow LibraryItem := ⟨.libraryItem, fun r => r.tenantId⟩
instance : TenantRow WorkpaperTemplate := ⟨.workpaperTemplate, fun r => r.tenantId⟩
instance : TenantRow Workpaper := ⟨.workpaper, fun r => some r.tenantId⟩
instance : TenantRow WorkpaperVersion := ⟨.workpaperVersion, fun r => some r.tenantId⟩
instance : TenantRow ReviewNote := ⟨.reviewNote, fun r => some r.tenantId⟩
instance : TenantRow Document := ⟨.document, fun r => some r.tenantId⟩
instance : TenantRow DocumentVersion := ⟨.documentVersion, fun r => some r.tenantId⟩
instance : TenantRow Evidence := ⟨.evidence, fun r => some r.tenantId⟩
instance : TenantRow Finding := ⟨.finding, fun r => some r.tenantId⟩
instance : TenantRow FindingStatusHistory := ⟨.findingStatusHistory, fun r => some r.tenantId⟩
instance : TenantRow Recommendation := ⟨.recommendation, fun r => some r.tenantId⟩
instance : TenantRow DocumentRequest := ⟨.documentRequest, fun r => some r.tenantId⟩
instance : TenantRow AuditPlan := ⟨.auditPlan, fun r => some r.tenantId⟩
instance : TenantRow AuditPlanItem := ⟨.auditPlanItem, fun r => some r.tenantId⟩
instance : TenantRow Comment := ⟨.comment, fun r => some r.tenantId⟩

section Scoped

variable {ρ : Type} [TenantRow ρ]

/-- The row is one that the tenant's queries select from. -/
def Ctx.sees (ctx : Ctx) (r : ρ) : Bool :=
  TenantRow.tenantOf r == some ctx.tenantId ||
    (decide (TenantRow.model ρ ∈ sharedModels) && (TenantRow.tenantOf r).isNone)

/-- `findFirst`. -/
def Ctx.findFirst (ctx : Ctx) (t : Table Uuid ρ) (p : Uuid → ρ → Bool) : Option (Uuid × ρ) :=
  t.first fun i r => ctx.sees r && p i r

/-- `findFirst` by id, and what else the row must satisfy. -/
def Ctx.findById (ctx : Ctx) (t : Table Uuid ρ) (id : Uuid) (p : ρ → Bool) : Option ρ :=
  (t.find id).filter fun r => ctx.sees r && p r

/-- `findMany`. -/
def Ctx.findMany (ctx : Ctx) (t : Table Uuid ρ) (p : Uuid → ρ → Bool) : List (Uuid × ρ) :=
  t.rows fun i r => ctx.sees r && p i r

/-- `count`. -/
def Ctx.count (ctx : Ctx) (t : Table Uuid ρ) (p : Uuid → ρ → Bool) : ℕ :=
  t.count fun i r => ctx.sees r && p i r

theorem Ctx.sees_iff (ctx : Ctx) (r : ρ) :
    ctx.sees r = true ↔ Visible (TenantRow.model ρ) ctx.tenantId (TenantRow.tenantOf r) := by
  simp [Ctx.sees, Visible]

/-- A row of a model whose `tenantId` is mandatory is seen by its tenant alone. -/
theorem Ctx.sees_iff_tenant {ctx : Ctx} {r : ρ} {t : Uuid} (h : TenantRow.tenantOf r = some t) :
    ctx.sees r = true ↔ t = ctx.tenantId := by
  simp [Ctx.sees, h]

/-- A scoped query selects what the `where` that the extension rewrites selects: for
any `where` without a tenant of its own, the rows it matches that the tenant sees. -/
theorem Ctx.sees_scopedWhere (ctx : Ctx) (hm : TenantRow.model ρ ∈ tenantModels ∨ TenantRow.model ρ ∈ sharedModels)
    {φ : Type} (sat : φ → ρ → Truth) (w : Where φ) (hw : w.tenantId = none) (r : ρ) :
    (scopedWhere (TenantRow.model ρ) (some w) ctx.tenantId).eval TenantRow.tenantOf sat r = .yes ↔
      ctx.sees r = true ∧ w.eval TenantRow.tenantOf sat r = .yes := by
  have hcaller : callerWhere (TenantRow.model ρ) (some w) = w := by
    unfold callerWhere
    split
    · rcases w with ⟨fields, tenantId, and, or, not⟩
      cases hw
      rfl
    · rfl
  have := Set.ext_iff.mp (matched_scopedWhere TenantRow.tenantOf sat hm (some w) ctx.tenantId) r
  rw [hcaller] at this
  rw [Ctx.sees_iff, and_comm]
  exact this

/-- A query by id is the query for the first row with that id. -/
theorem Ctx.findFirst_id (ctx : Ctx) (t : Table Uuid ρ) (id : Uuid) (p : ρ → Bool) :
    ctx.findFirst t (fun j r => decide (j = id) && p r) = (ctx.findById t id p).map fun r => (id, r) := by
  unfold Ctx.findFirst Ctx.findById
  rw [← Table.first_key]
  congr
  funext j r
  rw [Bool.and_left_comm]

theorem Ctx.findById_eq_some {ctx : Ctx} {t : Table Uuid ρ} {id : Uuid} {p : ρ → Bool} {r : ρ} :
    ctx.findById t id p = some r ↔ t.find id = some r ∧ ctx.sees r = true ∧ p r = true := by
  rw [Ctx.findById, Option.filter_eq_some_iff, Bool.and_eq_true]

/-- What a scoped query counts. -/
theorem Ctx.count_ne_zero_iff {ctx : Ctx} {t : Table Uuid ρ} {p : Uuid → ρ → Bool} :
    ctx.count t p ≠ 0 ↔ ∃ i r, t.find i = some r ∧ ctx.sees r = true ∧ p i r = true := by
  unfold Ctx.count
  rw [Ne, Table.count_eq_zero_iff]
  simp

/-- What a scoped query selects. -/
theorem Ctx.mem_findMany_iff {ctx : Ctx} {t : Table Uuid ρ} {p : Uuid → ρ → Bool} {i : Uuid} :
    i ∈ (ctx.findMany t p).map Prod.fst ↔ ∃ r, t.find i = some r ∧ ctx.sees r = true ∧ p i r = true := by
  simp [Ctx.findMany, Table.mem_rows_iff]

/-- If as many rows with one of the ids are counted as there are ids, each id has such a row. -/
theorem Ctx.found_of_count {ctx : Ctx} {t : Table Uuid ρ} {ids : List Uuid} {p : ρ → Bool}
    (h : (ctx.count t fun i r => i ∈ ids && p r) = ids.eraseDups.length) :
    ∀ i ∈ ids, ∃ r, t.find i = some r ∧ ctx.sees r = true ∧ p r = true := by
  have hmem : ∀ i, i ∈ (ctx.findMany t fun i r => i ∈ ids && p r).map Prod.fst ↔
      ∃ r, t.find i = some r ∧ ctx.sees r = true ∧ i ∈ ids ∧ p r = true := by
    intro i
    rw [List.mem_map]
    constructor
    · rintro ⟨⟨j, r⟩, hrow, rfl⟩
      obtain ⟨hfind, hcond⟩ := (Table.mem_rows_iff _ _ _ _).mp hrow
      simp only [Bool.and_eq_true, decide_eq_true_eq] at hcond
      exact ⟨r, hfind, hcond⟩
    · rintro ⟨r, hfind, hsees, hi, hp⟩
      refine ⟨(i, r), (Table.mem_rows_iff _ _ _ _).mpr ⟨hfind, ?_⟩, rfl⟩
      simp [hsees, hi, hp]
  have hnodup : ((ctx.findMany t fun i r => i ∈ ids && p r).map Prod.fst).Nodup :=
    ((List.filter_sublist).map Prod.fst).nodup t.nodup
  have hsub : (ctx.findMany t fun i r => i ∈ ids && p r).map Prod.fst ⊆ ids.eraseDups := by
    intro i hi
    obtain ⟨r, -, -, hids, -⟩ := (hmem i).mp hi
    exact List.mem_eraseDups.mpr hids
  -- the ids of the rows are among the ids, none is repeated, and there are as many
  have hperm := (hnodup.subperm hsub).perm_of_length_le (by rw [← h, List.length_map]; rfl)
  intro i hi
  obtain ⟨r, hfind, hsees, -, hp⟩ := (hmem i).mp (hperm.mem_iff.mpr (List.mem_eraseDups.mpr hi))
  exact ⟨r, hfind, hsees, hp⟩

end Scoped

/-! ### Checks of what a request refers to -/

section Related

variable {ρ : Type} [TenantRow ρ] (ctx : Ctx) (table : Db → Table Uuid ρ) (id : Field Uuid) (p : Db → ρ → Bool)

/-- The row that a property refers to, if it is given, must be found by a query. -/
def assertRelated (e : HttpError) : Service Unit :=
  match id.orNull with
  | none => pure ()
  | some i => do
    let row ← .read fun db => ctx.findById (table db) i (p db)
    if row.isNone then throw e else pure ()

/-- The row that a property refers to, if it is given, was found after `s` and before `s₁`. -/
def Found (R : Db → Db → Prop) (s s₁ : Db) : Prop :=
  ∀ i, id.orNull = some i → ∃ s₀ r, R s s₀ ∧ R s₀ s₁ ∧ ctx.findById (table s₀) i (p s₀) = some r

variable {ctx table id p} {R G : Db → Db → Prop}

theorem Found.later (htrans : ∀ a b c, R a b → R b c → R a c) {s s₁ s₂ : Db} (h : Found ctx table id p R s s₁)
    (h₁₂ : R s₁ s₂) : Found ctx table id p R s s₂ := by
  intro i hi
  obtain ⟨s₀, r, h₀, h₁, hr⟩ := h i hi
  exact ⟨s₀, r, h₀, htrans _ _ _ h₁ h₁₂, hr⟩

theorem Found.earlier (htrans : ∀ a b c, R a b → R b c → R a c) {s s' s₁ : Db} (hs : R s s')
    (h : Found ctx table id p R s' s₁) : Found ctx table id p R s s₁ := by
  intro i hi
  obtain ⟨s₀, r, h₀, h₁, hr⟩ := h i hi
  exact ⟨s₀, r, htrans _ _ _ hs h₀, h₁, hr⟩

theorem assertRelated_meets (hrefl : ∀ s, R s s) (hG : ∀ s, G s s) (e : HttpError) (s : Db) :
    (assertRelated ctx table id p e).Meets R G
      (fun r s' => R s s' ∧ ((∃ u, r = .ok u) → Found ctx table id p R s s')) s := by
  unfold assertRelated Found
  cases id.orNull with
  | none => exact ⟨hrefl s, fun _ i h => by cases h⟩
  | some i =>
    dsimp only
    rw [Prog.meets_read_bind]
    refine fun s' hs' => ⟨hG s', ?_⟩
    rw [Prog.meets_ite]
    split
    · exact ⟨hs', fun ⟨_, h⟩ => by cases h⟩
    · rename_i hsome
      refine ⟨hs', fun _ i' hi' => ?_⟩
      cases hi'
      obtain ⟨r, hr⟩ := Option.ne_none_iff_exists'.mp (by simpa using hsome)
      exact ⟨s', r, hs', hrefl s', hr⟩

/-- A row that is found passes the check. -/
theorem assertRelated_run {s : Db} (h : Found ctx table id p (· = ·) s s) (e : HttpError) :
    (assertRelated ctx table id p e).run s = (.ok (), s) := by
  unfold assertRelated
  cases hid : id.orNull with
  | none => rfl
  | some i =>
    obtain ⟨_, r, rfl, -, hr⟩ := h i hid
    dsimp only
    rw [Prog.run_bind, Prog.run_read]
    dsimp only
    rw [hr]
    rfl

end Related

/-! ### Writes -/

section Writes

variable {ρ : Type}

/-- Insert a row under the id drawn for it. -/
def insertRow (t : Table Uuid ρ) (id : Uuid) (r : ρ) : Except HttpError (Table Uuid ρ) :=
  match t.insert id r with
  | some t' => .ok t'
  | none => .error (.prisma .p2002)

/-- `update` of the row with an id: it must be one of the tenant. -/
def updateRow [TenantRow ρ] (ctx : Ctx) (t : Table Uuid ρ) (id : Uuid) (f : ρ → Except HttpError ρ) :
    Except HttpError (ρ × Table Uuid ρ) :=
  match ctx.findById t id fun _ => true with
  | none => .error (.prisma .p2025)
  | some r => match f r with
    | .error e => .error e
    | .ok r' => .ok (r', t.modify (fun j _ => j = id) fun _ => r')

/-- A nullable foreign key refers to a row, of whatever tenant. -/
def refersTo (t : Table Uuid ρ) (id : Option Uuid) : Bool :=
  match id with
  | none => true
  | some i => (t.find i).isSome

theorem insertRow_ok {t t' : Table Uuid ρ} {id : Uuid} {r : ρ} (h : insertRow t id r = .ok t') :
    t.find id = none ∧ ∀ j, t'.find j = if j = id then some r else t.find j := by
  unfold insertRow at h
  split at h
  · rename_i t₁ ht
    cases h
    exact Table.find_of_insert ht
  · cases h

/-- A row is inserted under an id that is not yet used. -/
theorem insertRow_fresh {t : Table Uuid ρ} {id : Uuid} (h : t.find id = none) (r : ρ) :
    ∃ t', insertRow t id r = .ok t' := by
  unfold insertRow
  cases ht : t.insert id r with
  | none => exact absurd h ((t.insert_eq_none_iff id r).mp ht)
  | some t' => exact ⟨t', rfl⟩

theorem insertRow_entries {t t' : Table Uuid ρ} {id : Uuid} {r : ρ} (h : insertRow t id r = .ok t') :
    t'.entries = (id, r) :: t.entries := by
  unfold insertRow at h
  split at h
  · rename_i t₁ ht
    cases h
    exact Table.entries_of_insert ht
  · cases h

theorem updateRow_ok [TenantRow ρ] {ctx : Ctx} {t t' : Table Uuid ρ} {id : Uuid} {f : ρ → Except HttpError ρ}
    {r' : ρ} (h : updateRow ctx t id f = .ok (r', t')) :
    ∃ r, t.find id = some r ∧ ctx.sees r = true ∧ f r = .ok r' ∧
      ∀ j, t'.find j = if j = id then some r' else t.find j := by
  unfold updateRow at h
  split at h
  · cases h
  · rename_i r hr
    obtain ⟨hfind, hsees, -⟩ := Ctx.findById_eq_some.mp hr
    split at h
    · cases h
    · rename_i r₁ hf
      cases h
      refine ⟨r, hfind, hsees, hf, fun j => ?_⟩
      rw [Table.find_modify]
      by_cases hj : j = id
      · subst hj
        simp [hfind]
      · simp [hj]

theorem refersTo_iff {t : Table Uuid ρ} {id : Option Uuid} :
    refersTo t id = true ↔ ∀ i, id = some i → ∃ r, t.find i = some r := by
  unfold refersTo
  cases id with
  | none => simp
  | some i => simp [Option.isSome_iff_exists]

/-- What is found can be referred to. -/
theorem Found.refersTo [TenantRow ρ] {ctx : Ctx} {table : Db → Table Uuid ρ} {id : Field Uuid} {p : Db → ρ → Bool}
    {s : Db} (h : Found ctx table id p (· = ·) s s) : refersTo (table s) id.orNull = true := by
  refine refersTo_iff.mpr fun i hi => ?_
  obtain ⟨_, r, rfl, -, hr⟩ := h i hi
  exact ⟨r, (Ctx.findById_eq_some.mp hr).1⟩

end Writes

/-! ### The audit trail and notifications -/

/-- `AuditTrailService.record`. -/
def auditRecord (ctx : Ctx) (action targetType : String) (targetId : Uuid) : Service Unit :=
  .write fun db => { db with auditTrail := ⟨ctx.tenantId, ctx.userId, action, targetType, targetId⟩ :: db.auditTrail }

/-- What a notification says. -/
structure NotifyInput where
  /-- Its type. -/
  type : String
  /-- Its title. -/
  title : String
  /-- Its text. -/
  body : Option String := none
  /-- Where it leads. -/
  link : Option String := none

/-- The user is one of the tenant who can be notified. -/
def notifiable (ctx : Ctx) (db : Db) (userId : Uuid) : Bool :=
  match db.users.find userId with
  | some u => u.tenantId = ctx.tenantId && u.deletedAt.isNone && u.status ≠ .deactivated
  | none => false

/-- `NotificationService.notify`, to no one if there is no user. -/
def notify (ctx : Ctx) (userId : Option Uuid) (input : NotifyInput) : Service Unit :=
  match userId with
  | none => pure ()
  | some u => do
    if ← .read fun db => notifiable ctx db u then
      .write fun db => { db with
        notifications := ⟨ctx.tenantId, u, input.type, input.title, input.body, input.link⟩ :: db.notifications }
    else pure ()

/-- `NotificationService.notifyMany`, each user once. -/
def notifyMany (ctx : Ctx) (userIds : List (Option Uuid)) (input : NotifyInput) : Service Unit :=
  userIds.eraseDups.forM fun u => notify ctx u input

/-- Nothing but the audit trail and the notifications changes. -/
def Quiet (db db' : Db) : Prop :=
  db' = { db with auditTrail := db'.auditTrail, notifications := db'.notifications }

theorem Quiet.refl (db : Db) : Quiet db db := rfl

theorem Quiet.trans {a b c : Db} (h : Quiet a b) (h' : Quiet b c) : Quiet a c := by
  unfold Quiet at h h' ⊢
  rw [h', h]

theorem auditRecord_quiet (ctx : Ctx) (action targetType : String) (targetId : Uuid) :
    (auditRecord ctx action targetType targetId).Within Quiet :=
  Prog.within_write fun _ => rfl

theorem notify_quiet (ctx : Ctx) (userId : Option Uuid) (input : NotifyInput) :
    (notify ctx userId input).Within Quiet := by
  cases userId with
  | none => exact Prog.within_pure _
  | some u =>
    refine (Prog.within_read _ Quiet.refl).bind fun b => Prog.Within.ite ?_ (Prog.within_pure _)
    exact Prog.within_write fun _ => rfl

theorem notifyMany_quiet (ctx : Ctx) (userIds : List (Option Uuid)) (input : NotifyInput) :
    (notifyMany ctx userIds input).Within Quiet := by
  unfold notifyMany
  induction userIds.eraseDups with
  | nil => exact Prog.within_pure _
  | cons u us ih => exact (notify_quiet ctx u input).bind fun _ => ih

end AuditSphere
