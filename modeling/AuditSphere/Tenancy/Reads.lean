import AuditSphere.Tenancy.Closure

/-!
# Reads of a closed database

The queries of the services select rows of the tenant, but the relations that they
include and the rows that they count are not scoped. `Db.confined` is what is left of
a database if the rows that a tenant does not see are taken out. In a closed database
that makes no difference to any listing or single record: `answer_confined` says that
the answer is computed from the rows of the tenant alone.
-/

namespace AuditSphere.Tenancy

open Prisma Theory Shared

/-! ### The rows of a tenant -/

/-- The rows of a table that the tenant sees. -/
def confine {ρ : Type} [TenantRow ρ] (ctx : Ctx) (t : Table Uuid ρ) : Table Uuid ρ := t.remove fun _ r => !ctx.sees r

/-- The rows of the database that the tenant sees. -/
def confined (ctx : Ctx) (db : Db) : Db where
  users := confine ctx db.users
  risks := confine ctx db.risks
  controls := confine ctx db.controls
  processes := confine ctx db.processes
  entities := confine ctx db.entities
  engagements := confine ctx db.engagements
  stageHistory := confine ctx db.stageHistory
  programs := confine ctx db.programs
  programSteps := confine ctx db.programSteps
  libraryItems := confine ctx db.libraryItems
  templates := confine ctx db.templates
  workpapers := confine ctx db.workpapers
  versions := confine ctx db.versions
  reviewNotes := confine ctx db.reviewNotes
  reviews := db.reviews.remove fun _ r => r.tenantId ≠ ctx.tenantId
  documents := confine ctx db.documents
  documentVersions := confine ctx db.documentVersions
  evidence := confine ctx db.evidence
  findings := confine ctx db.findings
  findingHistory := confine ctx db.findingHistory
  recommendations := confine ctx db.recommendations
  requests := confine ctx db.requests
  plans := confine ctx db.plans
  planItems := confine ctx db.planItems
  comments := confine ctx db.comments
  auditTrail := db.auditTrail.filter fun e => e.tenantId = ctx.tenantId
  notifications := db.notifications.filter fun n => n.tenantId = ctx.tenantId

section Tables

variable {ρ : Type} [TenantRow ρ] {ctx : Ctx} {t : Table Uuid ρ}

@[simp] theorem find_confine (i : Uuid) : (confine ctx t).find i = (t.find i).filter fun r => ctx.sees r := by
  simp [confine]

/-- A row that the tenant sees is still there. -/
theorem find_confine_of_sees {i : Uuid} {r : ρ} (h : t.find i = some r) (hsees : ctx.sees r = true) :
    (confine ctx t).find i = some r := by
  rw [find_confine, h, Option.filter_some, if_pos hsees]

@[simp] theorem findById_confine (i : Uuid) (p : ρ → Bool) : ctx.findById (confine ctx t) i p = ctx.findById t i p := by
  rw [Ctx.findById, find_confine, Option.filter_filter, Ctx.findById]
  congr
  funext r
  cases ctx.sees r <;> simp

theorem rows_confine (p : Uuid → ρ → Bool) : (confine ctx t).rows p = t.rows fun i r => ctx.sees r && p i r := by
  simp [confine]

@[simp] theorem findMany_confine (p : Uuid → ρ → Bool) : ctx.findMany (confine ctx t) p = ctx.findMany t p := by
  rw [Ctx.findMany, rows_confine, Ctx.findMany]
  congr
  funext i r
  cases ctx.sees r <;> simp

@[simp] theorem count_confine (p : Uuid → ρ → Bool) : ctx.count (confine ctx t) p = ctx.count t p :=
  congrArg List.length (findMany_confine p)

/-- Scoped rows with what is computed of each. -/
theorem findMany_map_congr {α : Type} {p q : Uuid → ρ → Bool} {f g : Uuid × ρ → α}
    (h : ∀ i r, t.find i = some r → ctx.sees r = true → p i r = q i r)
    (hf : ∀ i r, t.find i = some r → ctx.sees r = true → f (i, r) = g (i, r)) :
    (ctx.findMany t p).map f = (ctx.findMany (confine ctx t) q).map g := by
  rw [findMany_confine]
  have hrows : ctx.findMany t p = ctx.findMany t q := by
    refine Table.rows_congr fun i r hr => ?_
    cases hsees : ctx.sees r
    · rfl
    · rw [h i r hr hsees]
  rw [hrows]
  refine List.map_congr_left fun e he => ?_
  obtain ⟨hfind, hcond⟩ := (Table.mem_rows_iff t _ e.1 e.2).mp he
  exact hf e.1 e.2 hfind (Bool.and_eq_true_iff.mp hcond).1

theorem findMany_congr {p q : Uuid → ρ → Bool} (h : ∀ i r, t.find i = some r → ctx.sees r = true → p i r = q i r) :
    ctx.findMany t p = ctx.findMany (confine ctx t) q := by
  have := findMany_map_congr (f := id) (g := id) h fun _ _ _ _ => rfl
  rwa [List.map_id, List.map_id] at this

/-- Included rows, all of which the tenant sees, with what is computed of each. -/
theorem rows_map_congr {α : Type} {p : Uuid → ρ → Bool} {f g : Uuid × ρ → α}
    (h : ∀ i r, t.find i = some r → p i r = true → ctx.sees r = true ∧ f (i, r) = g (i, r)) :
    (t.rows p).map f = ((confine ctx t).rows p).map g := by
  rw [rows_confine]
  have hrows : t.rows p = t.rows fun i r => ctx.sees r && p i r := by
    refine Table.rows_congr fun i r hr => ?_
    cases hp : p i r
    · simp
    · simp [(h i r hr hp).1]
  rw [← hrows]
  refine List.map_congr_left fun e he => ?_
  obtain ⟨hfind, hcond⟩ := (Table.mem_rows_iff t _ e.1 e.2).mp he
  exact (h e.1 e.2 hfind hcond).2

theorem rows_congr {p : Uuid → ρ → Bool} (h : ∀ i r, t.find i = some r → p i r = true → ctx.sees r = true) :
    t.rows p = (confine ctx t).rows p := by
  have := rows_map_congr (f := id) (g := id) fun i r hr hp => ⟨h i r hr hp, rfl⟩
  rwa [List.map_id, List.map_id] at this

theorem count_congr {p : Uuid → ρ → Bool} (h : ∀ i r, t.find i = some r → p i r = true → ctx.sees r = true) :
    t.count p = (confine ctx t).count p :=
  congrArg List.length (rows_congr h)

end Tables

/-! ### Relations in a closed database -/

section Relations

variable {ρ : Type} [InDb ρ] {db : Db} {ctx : Ctx}

/-- A foreign key that leads to a row that the tenant sees shows the same row. -/
theorem related_confine {id : Option Uuid} (h : db.Refers ctx.tenantId (TenantRow.model ρ) id) :
    related (InDb.table db : Table Uuid ρ) id = related (confine ctx (InDb.table db)) id := by
  cases id with
  | none => rfl
  | some i =>
    obtain ⟨n, hn, t, ht, hvis⟩ := h i rfl
    rw [InDb.graph_eq (ρ := ρ)] at hn
    obtain ⟨r, hr, rfl⟩ := Option.map_eq_some_iff.mp hn
    cases ht
    have hsees : ctx.sees r = true := (ctx.sees_iff r).mpr hvis
    simp only [related, Option.bind_some]
    rw [hr, find_confine_of_sees hr hsees]

/-- The row that a reference of the tenant leads to is one that the tenant sees. -/
theorem sees_of_leads {i : Uuid} {r : ρ} (h : db.graph.Leads mayRefer (some ctx.tenantId) (TenantRow.model ρ, i))
    (hr : (InDb.table db).find i = some r) : ctx.sees r = true := by
  obtain ⟨n, hn, t, ht, hvis⟩ := h
  rw [InDb.graph_eq (ρ := ρ), nodeIn, hr, Option.map_some, Option.some.injEq] at hn
  cases ht
  rw [← hn] at hvis
  exact (ctx.sees_iff r).mpr hvis

/-- A row that refers to a row of the tenant is itself one of the tenant. -/
theorem sees_of_refers (hclosed : db.Closed) {σ : Type} [InDb σ] {i j : Uuid} {r : ρ} {c : σ}
    (hr : (InDb.table db).find i = some r) (htenant : TenantRow.tenantOf r = some ctx.tenantId)
    (hc : (InDb.table db).find j = some c) (href : (TenantRow.model ρ, i) ∈ RefRow.refs c) :
    ctx.sees c = true ∧ TenantRow.tenantOf c = some ctx.tenantId := by
  have hnode : db.graph (TenantRow.model ρ, i) = some (nodeOf r) := by
    rw [InDb.graph_eq, nodeIn, hr]
    rfl
  have hnode' : db.graph (TenantRow.model σ, j) = some (nodeOf c) := by
    rw [InDb.graph_eq, nodeIn, hc]
    rfl
  obtain ⟨t, ht, hvis⟩ := RefGraph.Closed.owner hclosed hnode' href hnode
  have htc : t = ctx.tenantId := by
    rcases hvis with h | ⟨-, h⟩
    · rw [show (nodeOf r).owner = some ctx.tenantId from htenant, Option.some.injEq] at h
      exact h.symm
    · rw [show (nodeOf r).owner = some ctx.tenantId from htenant] at h
      cases h
  subst htc
  exact ⟨(Ctx.sees_iff_tenant ht).mpr rfl, ht⟩

end Relations

/-! ### Guards -/

section Guards

variable {E S : Type} [DecidableEq S] {registry : GuardRegistry E S} {machine : String} {s s' : Db}

/-- The guards of a registry that see the same in two states are evaluated to the same. -/
theorem evaluate_agrees {g : GuardContext E S} (h : ∀ e ∈ registry, (e.2 g).Agrees s s') (guards : List String) :
    (evaluate registry machine g guards).Agrees s s' := by
  induction guards with
  | nil => exact Prog.agrees_pure _
  | cons guard guards ih =>
    unfold evaluate
    cases hget : registry.get machine guard with
    | none => exact Prog.agrees_throw _
    | some fn =>
      obtain ⟨e, he, rfl⟩ := Option.map_eq_some_iff.mp hget
      exact (h e (List.mem_of_find?_eq_some he)).bind fun _ => ih.bind fun _ => Prog.agrees_pure _

/-- So are the actions that are offered. -/
theorem availableActions_agrees {m : StateMachine S} {current : S} {actor : Ctx} {entity : E}
    {extra : Transition S → List String}
    (h : ∀ action fromState toState, ∀ e ∈ registry, (e.2 ⟨entity, actor, action, fromState, toState, none⟩).Agrees s s') :
    (workflowAvailableActions registry m current actor entity extra).Agrees s s' := by
  unfold workflowAvailableActions
  induction m.transitions.filter fun t => t.fromState = current with
  | nil => exact Prog.agrees_pure _
  | cons t ts ih =>
    rw [List.mapM_cons]
    refine Prog.Agrees.bind ?_ fun _ => ih.bind fun _ => Prog.agrees_pure _
    exact (evaluate_agrees (h t.action _ _) _).bind fun _ => Prog.agrees_pure _

end Guards

/-! ### Workpapers -/

section Workpapers

open Workpapers

variable {db : Db} {ctx : Ctx} (hclosed : db.Closed)

include hclosed

section Row

variable {id : Uuid} {w : Workpaper} (hw : db.workpapers.find id = some w) (hsees : ctx.sees w = true)

include hw hsees

theorem workpaper_leads : ∀ k ∈ RefRow.refs w, db.graph.Leads mayRefer (some ctx.tenantId) k :=
  hclosed.refs (r := w) hw (congrArg some ((Ctx.sees_iff_tenant rfl).mp hsees))

/-- What refers to a workpaper of the tenant is one of the tenant. -/
theorem sees_of_workpaper {σ : Type} [InDb σ] {j : Uuid} {c : σ} (hc : (InDb.table db).find j = some c)
    (href : (.workpaper, id) ∈ RefRow.refs c) : ctx.sees c = true ∧ TenantRow.tenantOf c = some ctx.tenantId :=
  sees_of_refers (ρ := Workpaper) hclosed hw (congrArg some ((Ctx.sees_iff_tenant rfl).mp hsees)) hc href

theorem sees_note {j : Uuid} {n : ReviewNote} (hn : db.reviewNotes.find j = some n) (hid : n.workpaperId = id) :
    ctx.sees n = true ∧ TenantRow.tenantOf n = some ctx.tenantId :=
  sees_of_workpaper hclosed hw hsees hn (by simp [RefRow.refs, mem_refer, hid])

theorem sees_version {j : Uuid} {v : WorkpaperVersion} (hv : db.versions.find j = some v) (hid : v.workpaperId = id) :
    ctx.sees v = true ∧ TenantRow.tenantOf v = some ctx.tenantId :=
  sees_of_workpaper hclosed hw hsees hv (by simp [RefRow.refs, mem_refer, hid])

theorem sees_evidence {j : Uuid} {e : Evidence} (he : db.evidence.find j = some e) (hid : e.workpaperId = some id) :
    ctx.sees e = true ∧ TenantRow.tenantOf e = some ctx.tenantId :=
  sees_of_workpaper hclosed hw hsees he (by simp [RefRow.refs, mem_refer, hid])

theorem sees_finding {j : Uuid} {f : Finding} (hf : db.findings.find j = some f) (hid : f.workpaperId = some id) :
    ctx.sees f = true ∧ TenantRow.tenantOf f = some ctx.tenantId :=
  sees_of_workpaper hclosed hw hsees hf (by simp [RefRow.refs, mem_refer, hid])

theorem workpaper_view : view db (id, w) = view (confined ctx db) (id, w) := by
  obtain ⟨-, hstep, -, -, -, hprep, hrev, hsign⟩ := workpaper_refs.mp (workpaper_leads hclosed hw hsees)
  unfold view
  rw [WorkpaperView.mk.injEq]
  refine ⟨rfl, related_confine (ρ := User) hprep, related_confine (ρ := User) hrev, related_confine (ρ := User) hsign,
    related_confine (ρ := AuditProgramStep) hstep, count_congr fun j n hn hp => ?_, count_congr fun j e he hp => ?_,
    count_congr fun j f hf hp => ?_⟩
  · simp only [Bool.and_eq_true, decide_eq_true_eq] at hp
    exact (sees_note hclosed hw hsees hn hp.1).1
  · exact (sees_evidence hclosed hw hsees he (of_decide_eq_true hp)).1
  · exact (sees_finding hclosed hw hsees hf (of_decide_eq_true hp)).1

theorem workpaper_detail : detail db (id, w) = detail (confined ctx db) (id, w) := by
  obtain ⟨heng, -, htemplate, hrisk, hcontrol, -, -, -⟩ := workpaper_refs.mp (workpaper_leads hclosed hw hsees)
  unfold detail
  rw [WorkpaperDetail.mk.injEq]
  refine ⟨workpaper_view hclosed hw hsees, related_confine (ρ := Engagement) heng,
    related_confine (ρ := WorkpaperTemplate) htemplate, related_confine (ρ := Risk) hrisk,
    related_confine (ρ := Control) hcontrol, rows_map_congr fun j v hv hp => ?_, rows_map_congr fun j n hn hp => ?_,
    rows_map_congr fun j e he hp => ?_, rows_congr fun j f hf hp => ?_⟩
  · obtain ⟨hv', ht⟩ := sees_version hclosed hw hsees hv (of_decide_eq_true hp)
    obtain ⟨-, huser⟩ := version_refs.mp (hclosed.refs hv ht)
    exact ⟨hv', Prod.ext rfl (related_confine (ρ := User) huser)⟩
  · obtain ⟨hn', ht⟩ := sees_note hclosed hw hsees hn (of_decide_eq_true hp)
    obtain ⟨-, hraised, hassigned, hcleared⟩ := note_refs.mp (hclosed.refs hn ht)
    exact ⟨hn', Prod.ext rfl (Prod.ext (related_confine (ρ := User) hraised)
      (Prod.ext (related_confine (ρ := User) hassigned) (related_confine (ρ := User) hcleared)))⟩
  · obtain ⟨he', ht⟩ := sees_evidence hclosed hw hsees he (of_decide_eq_true hp)
    obtain ⟨-, -, hdocument, huser⟩ := evidence_refs.mp (hclosed.refs he ht)
    exact ⟨he', Prod.ext rfl (Prod.ext (related_confine (ρ := Document) hdocument) (related_confine (ρ := User) huser))⟩
  · simp only [Bool.and_eq_true, decide_eq_true_eq] at hp
    exact (sees_finding hclosed hw hsees hf hp.1).1

end Row

theorem workpaper_list_agrees (engagementId : Uuid) :
    (Workpapers.listForEngagement ctx engagementId).Agrees db (confined ctx db) := by
  unfold Workpapers.listForEngagement
  refine Prog.agrees_read_bind (findById_confine _ _).symm ?_
  refine Prog.Agrees.ite (Prog.agrees_throw _) (Prog.agrees_read ?_)
  exact findMany_map_congr (fun _ _ _ _ => rfl) fun i w hw hsees => workpaper_view hclosed hw hsees

omit hclosed in
/-- The guards count notes by scoped queries. -/
theorem workpaper_guards (entity : WithId Workpaper) (action : String) (fromState toState : WorkpaperStatus)
    (comment : Option String) :
    ∀ e ∈ guardRegistry, (e.2 ⟨entity, ctx, action, fromState, toState, comment⟩).Agrees db (confined ctx db) := by
  intro e he
  simp only [guardRegistry, GuardRegistry.register, List.mem_cons, List.not_mem_nil, or_false] at he
  have hcount : ∀ statuses, noteCount ctx db entity.1 statuses = noteCount ctx (confined ctx db) entity.1 statuses :=
    fun statuses => (count_confine _).symm
  rcases he with rfl | rfl | rfl | rfl | rfl
  · exact Prog.agrees_read (by simp only [hcount])
  · exact Prog.agrees_read (by simp only [hcount])
  · exact Prog.agrees_pure _
  · exact Prog.agrees_pure _
  · exact Prog.agrees_pure _

theorem workpaper_get_agrees (id : Uuid) : (Workpapers.get ctx id).Agrees db (confined ctx db) := by
  unfold Workpapers.get
  refine Prog.agrees_read_bind ?_ ?_
  · rw [show ctx.findById (confined ctx db).workpapers id (fun w => w.deletedAt.isNone) = _ from findById_confine _ _]
    cases hfound : ctx.findById db.workpapers id fun w => w.deletedAt.isNone with
    | none => rfl
    | some w =>
      obtain ⟨hw, hsees, -⟩ := Ctx.findById_eq_some.mp hfound
      exact congrArg some (workpaper_detail hclosed hw hsees)
  · split
    · exact Prog.agrees_throw _
    · rename_i d _
      exact (availableActions_agrees fun action fromState toState => workpaper_guards d.row action fromState toState none).bind fun _ => Prog.agrees_pure _

end Workpapers

/-! ### Evidence -/

section Evidence

open Evidence

variable {db : Db} {ctx : Ctx} (hclosed : db.Closed)

include hclosed

theorem evidence_view {id : Uuid} {e : Evidence} (he : db.evidence.find id = some e) (hsees : ctx.sees e = true) :
    view db (id, e) = view (confined ctx db) (id, e) := by
  have htenant : TenantRow.tenantOf e = some ctx.tenantId := congrArg some ((Ctx.sees_iff_tenant rfl).mp hsees)
  obtain ⟨-, hworkpaper, hdocument, huser⟩ := evidence_refs.mp (hclosed.refs he htenant)
  unfold view
  rw [EvidenceView.mk.injEq]
  refine ⟨rfl, related_confine (ρ := Document) hdocument, related_confine (ρ := Workpaper) hworkpaper,
    related_confine (ρ := User) huser, count_congr fun j f hf hp => ?_⟩
  refine (sees_of_refers (ρ := Evidence) hclosed he htenant hf ?_).1
  have hlinked : id ∈ f.evidenceIds := of_decide_eq_true hp
  simp [RefRow.refs, TenantRow.model, hlinked]

theorem evidence_list_agrees (engagementId : Uuid) (query : EvidenceListQueryDto) :
    (Evidence.listForEngagement ctx engagementId query).Agrees db (confined ctx db) := by
  unfold Evidence.listForEngagement
  refine Prog.agrees_read_bind (findById_confine _ _).symm ?_
  refine Prog.Agrees.ite (Prog.agrees_throw _) (Prog.agrees_read ?_)
  exact findMany_map_congr (fun _ _ _ _ => rfl) fun i e he hsees => evidence_view hclosed he hsees

end Evidence

/-! ### Programmes -/

section Programs

open Programs

variable {db : Db} {ctx : Ctx} (hclosed : db.Closed)

include hclosed

theorem step_view {id : Uuid} {p : AuditProgramStep} (hp : db.programSteps.find id = some p)
    (htenant : TenantRow.tenantOf p = some ctx.tenantId) : stepView db (id, p) = stepView (confined ctx db) (id, p) := by
  obtain ⟨-, hrisk, hcontrol, hassignee⟩ := step_refs.mp (hclosed.refs hp htenant)
  unfold stepView
  rw [StepView.mk.injEq]
  refine ⟨rfl, related_confine (ρ := User) hassignee, related_confine (ρ := Risk) hrisk,
    related_confine (ρ := Control) hcontrol, rows_congr fun j w hw hcond => ?_⟩
  simp only [Bool.and_eq_true, decide_eq_true_eq] at hcond
  exact (sees_of_refers (ρ := AuditProgramStep) hclosed hp htenant hw
    (by simp [RefRow.refs, mem_refer, TenantRow.model, hcond.1])).1

theorem program_view {id : Uuid} {p : AuditProgram} (hp : db.programs.find id = some p) (hsees : ctx.sees p = true) :
    Programs.view db (id, p) = Programs.view (confined ctx db) (id, p) := by
  have htenant : TenantRow.tenantOf p = some ctx.tenantId := congrArg some ((Ctx.sees_iff_tenant rfl).mp hsees)
  have hrefs := hclosed.refs hp htenant
  simp only [RefRow.refs, List.forall_mem_append, forall_mem_refer, and_assoc] at hrefs
  obtain ⟨-, hitem, happroved⟩ := hrefs
  unfold Programs.view
  rw [ProgramView.mk.injEq]
  refine ⟨rfl, related_confine (ρ := User) happroved, related_confine (ρ := LibraryItem) hitem,
    rows_map_congr fun j s hs hcond => ?_⟩
  obtain ⟨hseen, ht⟩ := sees_of_refers (ρ := AuditProgram) hclosed hp htenant hs
    (by simp [RefRow.refs, mem_refer, TenantRow.model, of_decide_eq_true hcond])
  exact ⟨hseen, step_view hclosed hs ht⟩

theorem program_list_agrees (engagementId : Uuid) :
    (Programs.listForEngagement ctx engagementId).Agrees db (confined ctx db) := by
  unfold Programs.listForEngagement
  refine Prog.agrees_read_bind (findById_confine _ _).symm ?_
  refine Prog.Agrees.ite (Prog.agrees_throw _) (Prog.agrees_read ?_)
  exact findMany_map_congr (fun _ _ _ _ => rfl) fun i p hp hsees => program_view hclosed hp hsees

end Programs

/-! ### Findings -/

section Findings

open Findings

variable {db : Db} {ctx : Ctx} (hclosed : db.Closed)

include hclosed

section Row

variable {id : Uuid} {f : Finding} (hf : db.findings.find id = some f) (hsees : ctx.sees f = true)

include hf hsees

theorem finding_leads : ∀ k ∈ RefRow.refs f, db.graph.Leads mayRefer (some ctx.tenantId) k :=
  hclosed.refs (r := f) hf (congrArg some ((Ctx.sees_iff_tenant rfl).mp hsees))

/-- What refers to a finding of the tenant is one of the tenant. -/
theorem sees_of_finding {σ : Type} [InDb σ] {j : Uuid} {c : σ} (hc : (InDb.table db).find j = some c)
    (href : (.finding, id) ∈ RefRow.refs c) : ctx.sees c = true ∧ TenantRow.tenantOf c = some ctx.tenantId :=
  sees_of_refers (ρ := Finding) hclosed hf (congrArg some ((Ctx.sees_iff_tenant rfl).mp hsees)) hc href

theorem sees_recommendation {j : Uuid} {r : Recommendation} (hr : db.recommendations.find j = some r)
    (hid : r.findingId = id) : ctx.sees r = true ∧ TenantRow.tenantOf r = some ctx.tenantId :=
  sees_of_finding hclosed hf hsees hr (by simp [RefRow.refs, mem_refer, hid])

theorem sees_entry {j : Uuid} {h : FindingStatusHistory} (hh : db.findingHistory.find j = some h)
    (hid : h.findingId = id) : ctx.sees h = true ∧ TenantRow.tenantOf h = some ctx.tenantId :=
  sees_of_finding hclosed hf hsees hh (by simp [RefRow.refs, mem_refer, hid])

theorem sees_linked {j : Uuid} {e : Evidence} (he : db.evidence.find j = some e) (hj : j ∈ f.evidenceIds) :
    ctx.sees e = true :=
  sees_of_leads ((finding_refs.mp (finding_leads hclosed hf hsees)).2.2.2.2.2.2.2.2.2.2 j hj) he

theorem finding_view : view db (id, f) = view (confined ctx db) (id, f) := by
  obtain ⟨heng, -, hentity, -, -, -, howner, -, -, hraised, -⟩ := finding_refs.mp (finding_leads hclosed hf hsees)
  unfold view
  rw [FindingView.mk.injEq]
  exact ⟨rfl, related_confine (ρ := Engagement) heng, related_confine (ρ := AuditEntity) hentity,
    related_confine (ρ := User) howner, related_confine (ρ := User) hraised,
    count_congr fun j r hr hp => (sees_recommendation hclosed hf hsees hr (of_decide_eq_true hp)).1,
    count_congr fun j e he hp => sees_linked hclosed hf hsees he (of_decide_eq_true hp)⟩

theorem finding_detail : detail db (id, f) = detail (confined ctx db) (id, f) := by
  obtain ⟨-, hworkpaper, -, hprocess, hrisk, hcontrol, -, hvalidated, hrepeat, -, -⟩ :=
    finding_refs.mp (finding_leads hclosed hf hsees)
  unfold detail
  rw [FindingDetail.mk.injEq]
  refine ⟨finding_view hclosed hf hsees, related_confine (ρ := Workpaper) hworkpaper, related_confine (ρ := Risk) hrisk,
    related_confine (ρ := Control) hcontrol, related_confine (ρ := Process) hprocess,
    related_confine (ρ := User) hvalidated, related_confine (ρ := Finding) hrepeat, rows_map_congr fun j r hr hp => ?_,
    rows_map_congr fun j h hh hp => ?_, rows_map_congr fun j e he hp => ?_⟩
  · obtain ⟨hr', ht⟩ := sees_recommendation hclosed hf hsees hr (of_decide_eq_true hp)
    have howner : db.Refers ctx.tenantId .user r.ownerId := by
      have hrefs := hclosed.refs hr ht
      simp only [RefRow.refs, List.forall_mem_append, forall_mem_refer] at hrefs
      exact hrefs.2
    exact ⟨hr', Prod.ext rfl (related_confine (ρ := User) howner)⟩
  · obtain ⟨hh', ht⟩ := sees_entry hclosed hf hsees hh (of_decide_eq_true hp)
    obtain ⟨-, huser⟩ := history_refs.mp (hclosed.refs hh ht)
    exact ⟨hh', Prod.ext rfl (related_confine (ρ := User) huser)⟩
  · have he' := sees_linked hclosed hf hsees he (of_decide_eq_true hp)
    obtain ⟨-, -, hdocument, -⟩ :=
      evidence_refs.mp (hclosed.refs he (congrArg some ((Ctx.sees_iff_tenant rfl).mp he')))
    exact ⟨he', Prod.ext rfl (related_confine (ρ := Document) hdocument)⟩

/-- Whether a finding concerns the user is seen from the engagement of the finding. -/
theorem finding_scope : ObjectAccess.findingScope ctx db f = ObjectAccess.findingScope ctx (confined ctx db) f := by
  obtain ⟨heng, -⟩ := finding_refs.mp (finding_leads hclosed hf hsees)
  have hfind : db.engagements.find f.engagementId = (confined ctx db).engagements.find f.engagementId := by
    obtain ⟨n, hn, -⟩ := heng f.engagementId rfl
    obtain ⟨e, he, -⟩ := Option.map_eq_some_iff.mp (show (db.engagements.find f.engagementId).map nodeOf = some n from hn)
    rw [show (confined ctx db).engagements.find f.engagementId = some e from
      find_confine_of_sees he (sees_of_leads (heng f.engagementId rfl) he), he]
  unfold ObjectAccess.findingScope
  rw [hfind]

omit hclosed in
/-- The guards of the finding look at what the tenant sees. -/
theorem finding_guards (action : String) (fromState toState : FindingStatus)
    (comment : Option String) :
    ∀ e ∈ guardRegistry, (e.2 ⟨(id, f), ctx, action, fromState, toState, comment⟩).Agrees db (confined ctx db) := by
  intro e he
  simp only [guardRegistry, GuardRegistry.register, List.mem_cons, List.not_mem_nil, or_false] at he
  rcases he with rfl | rfl | rfl | rfl | rfl | rfl
  · exact Prog.agrees_pure _
  · have hfind : (confined ctx db).findings.find id = db.findings.find id :=
      (find_confine_of_sees hf hsees).trans hf.symm
    refine Prog.agrees_read_bind ?_ (Prog.agrees_read_bind (count_confine _).symm
      (Prog.agrees_read_bind (count_confine _).symm (Prog.agrees_pure _)))
    simp only [hfind]
    exact (count_confine _).symm
  · exact Prog.agrees_pure _
  · exact Prog.agrees_pure _
  · dsimp only
    refine Prog.Agrees.ite (Prog.agrees_pure _) (Prog.agrees_read ?_)
    rw [show ∀ p, ctx.count (confined ctx db).recommendations p = ctx.count db.recommendations p from
      fun p => count_confine p]
  · exact Prog.agrees_pure _

end Row

theorem finding_list_agrees (query : FindingListQueryDto) : (Findings.list ctx query).Agrees db (confined ctx db) := by
  unfold Findings.list
  refine Prog.agrees_read (findMany_map_congr (fun i f hf hsees => ?_) fun i f hf hsees => ?_)
  · rw [finding_scope hclosed hf hsees]
  · exact Prod.ext (finding_view hclosed hf hsees) rfl

theorem accessFinding_agrees (id : Uuid) : (ObjectAccess.assertFinding ctx id).Agrees db (confined ctx db) := by
  unfold ObjectAccess.assertFinding
  refine Prog.agrees_read_bind ?_ (Prog.Agrees.ite (Prog.agrees_throw _) (Prog.agrees_pure _))
  refine congrArg List.length (findMany_congr fun i f hf hsees => ?_)
  rw [finding_scope hclosed hf hsees]

theorem documentScope_agrees : (ObjectAccess.documentScope ctx).Agrees db (confined ctx db) := by
  unfold ObjectAccess.documentScope
  refine Prog.Agrees.ite (Prog.agrees_pure _) ?_
  refine Prog.agrees_read_bind (findMany_map_congr (fun i f hf hsees => ?_) fun _ _ _ _ => rfl) ?_
  · rw [finding_scope hclosed hf hsees]
  refine Prog.agrees_read_bind (findMany_confine _).symm ?_
  refine Prog.Agrees.ite ((Prog.agrees_pure _).bind fun _ => Prog.agrees_pure _) ?_
  exact Prog.agrees_read_bind (congrArg (List.map Prod.fst) (findMany_confine _).symm) (Prog.agrees_pure _)

theorem finding_get_agrees (id : Uuid) : (Findings.get ctx id).Agrees db (confined ctx db) := by
  unfold Findings.get
  refine (accessFinding_agrees hclosed id).bind fun _ => (documentScope_agrees hclosed).bind fun scope => ?_
  cases hfound : ctx.findById db.findings id fun f => f.deletedAt.isNone with
  | none =>
    refine Prog.agrees_read_bind ?_ ?_
    · rw [show ctx.findById (confined ctx db).findings id (fun f => f.deletedAt.isNone) = _ from findById_confine _ _]
      simp only [hfound, Option.map_none]
    · simp only [hfound, Option.map_none]
      exact Prog.agrees_throw _
  | some f =>
    obtain ⟨hf, hsees, -⟩ := Ctx.findById_eq_some.mp hfound
    refine Prog.agrees_read_bind ?_ ?_
    · rw [show ctx.findById (confined ctx db).findings id (fun f => f.deletedAt.isNone) = _ from findById_confine _ _]
      simp only [hfound, Option.map_some]
      exact congrArg some (finding_detail hclosed hf hsees)
    · simp only [hfound, Option.map_some]
      refine Prog.agrees_read_bind (findMany_confine _).symm ?_
      exact (availableActions_agrees fun action fromState toState => finding_guards hf hsees action fromState toState none).bind
        fun _ => Prog.agrees_pure _

end Findings

/-! ### All reads -/

/-- A listing of one of the services, or a single record, with its user. -/
inductive Query where
  | workpapers (ctx : Ctx) (engagementId : Uuid)
  | workpaper (ctx : Ctx) (id : Uuid)
  | evidence (ctx : Ctx) (engagementId : Uuid) (query : Evidence.EvidenceListQueryDto)
  | programs (ctx : Ctx) (engagementId : Uuid)
  | findings (ctx : Ctx) (query : Findings.FindingListQueryDto)
  | finding (ctx : Ctx) (id : Uuid)

/-- The user who asks. -/
def Query.ctx : Query → Ctx
  | .workpapers ctx _ | .workpaper ctx _ | .evidence ctx _ _ | .programs ctx _ | .findings ctx _ | .finding ctx _ => ctx

/-- The permission that the route asks for; several are alternatives. -/
def Query.permissions : Query → List PermissionKey
  | .workpapers .. | .workpaper .. => [.workpaperRead]
  | .evidence .. => [.workpaperRead, .documentRead]
  | .programs .. => [.workpaperRead, .engagementRead]
  | .findings .. | .finding .. => [.findingRead]

/-- What a query answers. -/
inductive Answer where
  | workpapers (items : List Workpapers.WorkpaperView)
  | workpaper (item : Workpapers.WorkpaperDetail × List (AvailableAction WorkpaperStatus))
  | evidence (items : List Evidence.EvidenceView)
  | programs (items : List Programs.ProgramView)
  | findings (items : List Findings.AgedFinding)
  | finding (item : Findings.FindingResponse)

/-- The controllers: the user must hold a permission of the route. -/
def answer (q : Query) : Service Answer :=
  let required := " or ".intercalate (q.permissions.map PermissionKey.key)
  if q.permissions.all fun p => !q.ctx.hasPermission p then throw (.forbidden s!"Missing permission: {required}")
  else match q with
    | .workpapers ctx engagementId => do return .workpapers (← Workpapers.listForEngagement ctx engagementId)
    | .workpaper ctx id => do return .workpaper (← Workpapers.get ctx id)
    | .evidence ctx engagementId query => do return .evidence (← Evidence.listForEngagement ctx engagementId query)
    | .programs ctx engagementId => do return .programs (← Programs.listForEngagement ctx engagementId)
    | .findings ctx query => do return .findings (← Findings.list ctx query)
    | .finding ctx id => do return .finding (← Findings.get ctx id)

/-- **Reads**: in a closed database a query of a tenant is answered as if the rows that the
tenant does not see were not there. -/
theorem answer_confined {db : Db} (hclosed : db.Closed) (q : Query) :
    ((answer q).run db).1 = ((answer q).run (confined q.ctx db)).1 := by
  refine Prog.Agrees.run ?_
  unfold answer
  refine Prog.Agrees.ite (Prog.agrees_throw _) ?_
  cases q with
  | workpapers ctx engagementId => exact (workpaper_list_agrees hclosed engagementId).bind fun _ => Prog.agrees_pure _
  | workpaper ctx id => exact (workpaper_get_agrees hclosed id).bind fun _ => Prog.agrees_pure _
  | evidence ctx engagementId query =>
    exact (evidence_list_agrees hclosed engagementId query).bind fun _ => Prog.agrees_pure _
  | programs ctx engagementId => exact (program_list_agrees hclosed engagementId).bind fun _ => Prog.agrees_pure _
  | findings ctx query => exact (finding_list_agrees hclosed query).bind fun _ => Prog.agrees_pure _
  | finding ctx id => exact (finding_get_agrees hclosed id).bind fun _ => Prog.agrees_pure _

end AuditSphere.Tenancy
