import AuditSphere.Evidence.Requests
import AuditSphere.Findings.Requests
import AuditSphere.Programs.Requests
import AuditSphere.Tenancy.References
import AuditSphere.Workpapers.Requests

/-!
# Which writes keep the database closed

The requests of the four services that store references: workpapers and their notes,
evidence, findings, and programme steps. Some ids of a body are looked up in the
tenant before they are stored; `Request.unchecked` lists those that are not. As long
as none of them names a row of another tenant, every call of a request keeps the
database closed (`serve_closed`), and so does a history of requests
(`closed_of_history`).
-/

namespace AuditSphere.Tenancy

open Prisma Theory Shared

/-! ### All requests -/

/-- A request of one of the services. -/
inductive Request where
  | workpapers (r : Workpapers.Request)
  | evidence (r : Evidence.Request)
  | findings (r : Findings.Request)
  | steps (r : Programs.Request)

/-- The user who makes the request. -/
def Request.ctx : Request → Ctx
  | .workpapers r => r.ctx
  | .evidence r => r.ctx
  | .findings r => r.ctx
  | .steps r => r.ctx

/-- What a request answers. -/
inductive Response where
  | workpapers (a : Workpapers.Response)
  | evidence (a : Evidence.EvidenceView)
  | findings (a : Findings.Response)
  | steps (a : Programs.StepView)

/-- The service of a request answers it. -/
def serve : Request → Service Response
  | .workpapers r => do return .workpapers (← Workpapers.serve r)
  | .evidence r => do return .evidence (← Evidence.serve r)
  | .findings r => do return .findings (← Findings.serve r)
  | .steps r => do return .steps (← Programs.serve r)

/-- The ids of a body that are stored without a look at the row they name. -/
def Request.unchecked : Request → List Key
  | .workpapers (.create _ _ dto) => refer .risk dto.riskId.orNull ++ refer .control dto.controlId.orNull
  | .workpapers (.update _ _ dto) => refer .risk dto.riskId.orNull ++ refer .control dto.controlId.orNull
  | .workpapers (.createReviewNote _ _ dto) => refer .user dto.assignedToId.orNull
  | .workpapers (.transition ..) | .workpapers (.updateReviewNote ..) => []
  | .evidence _ => []
  | .findings (.create _ dto) => refer .auditEntity dto.entityId.orNull ++ refer .process dto.processId.orNull ++
      refer .risk dto.riskId.orNull ++ refer .control dto.controlId.orNull
  | .findings (.update _ _ dto) => refer .workpaper dto.workpaperId.orNull ++ refer .auditEntity dto.entityId.orNull ++
      refer .process dto.processId.orNull ++ refer .risk dto.riskId.orNull ++ refer .control dto.controlId.orNull ++
      refer .finding dto.repeatOfId.orNull
  | .steps (.addStep _ _ dto) => refer .risk dto.riskId.orNull ++ refer .control dto.controlId.orNull ++
      refer .user dto.assigneeId.orNull
  | .steps (.updateStep _ _ dto) => refer .risk dto.riskId.orNull ++ refer .control dto.controlId.orNull ++
      refer .user dto.assigneeId.orNull

/-- The user of the request is one of the tenant. -/
def Authentic (db : Db) (ctx : Ctx) : Prop := (db.users.find ctx.userId).map User.tenantId = some ctx.tenantId

instance (db : Db) (ctx : Ctx) : Decidable (Authentic db ctx) := inferInstanceAs (Decidable (_ = _))

/-- No unchecked id of the request names a row of another tenant. -/
def OwnIds (db : Db) (r : Request) : Prop := ∀ k ∈ r.unchecked, Own db r.ctx k

/-! ### What does not change the graph -/

/-- The references are the same. -/
def Alike (a b : Db) : Prop := b.graph = a.graph

section Alike

variable {a b : Db} {t : Uuid} {m : Model} {id : Option Uuid}

theorem Alike.refers (h : Alike a b) (hr : a.Refers t m id) : b.Refers t m id := by
  unfold Db.Refers
  rw [h]
  exact hr

theorem Alike.closed (h : Alike a b) (ha : a.Closed) : b.Closed := by
  unfold Db.Closed
  rw [h]
  exact ha

theorem Alike.own (h : Alike a b) {ctx : Ctx} {k : Key} (hown : Own a ctx k) : Own b ctx k := by
  unfold Own
  rw [h]
  exact hown

/-- A row that was seen before is referred to still. -/
theorem Alike.seen {ρ : Type} [InDb ρ] (h : Alike a b) {ctx : Ctx} {i : Uuid} {r : ρ}
    (hfind : (InDb.table a).find i = some r) (hsees : ctx.sees r = true) :
    b.Refers ctx.tenantId (TenantRow.model ρ) (some i) :=
  h.refers fun _ hi => by cases hi; exact leads_of_sees hfind hsees

/-- What a row referred to when it was read is referred to still. -/
theorem Alike.refs {ρ : Type} [InDb ρ] (h : Alike a b) (hb : b.Closed) {i : Uuid} {r : ρ}
    (hfind : (InDb.table a).find i = some r) (htenant : TenantRow.tenantOf r = some t) :
    ∀ k ∈ RefRow.refs r, b.graph.Leads mayRefer (some t) k := by
  rw [h]
  exact (Alike.closed h.symm hb).refs hfind htenant

/-- A change of rows that keeps their tenants and their references. -/
theorem nodeIn_congr {ρ : Type} [RefRow ρ] {f : ρ → ρ} {t t' : Table Uuid ρ} {i : Uuid}
    (h : (t'.find i).map f = (t.find i).map f) (hf : ∀ r, nodeOf (f r) = nodeOf r) : nodeIn t' i = nodeIn t i := by
  have hnode := congrArg (Option.map nodeOf) h
  rw [Option.map_map, Option.map_map, show nodeOf ∘ f = nodeOf from funext hf] at hnode
  exact hnode

theorem alike_of_workpapers (h : Workpapers.Aside a b) : Alike a b :=
  (Quiet.graph (a := { a with programSteps := b.programSteps }) h.rest).trans
    (graph_kept (t := b.programSteps) rfl fun j => nodeIn_congr (h.steps j) fun _ => rfl)

theorem alike_of_evidence (h : Evidence.Aside a b) : Alike a b :=
  (Quiet.graph (a := { a with documents := b.documents }) h.rest).trans
    (graph_kept (t := b.documents) rfl fun j => nodeIn_congr (h.documents j) fun _ => rfl)

theorem alike_of_programs (h : Programs.Aside a b) : Alike a b :=
  (Quiet.graph (a := { a with programs := b.programs }) h.rest).trans
    (graph_kept (t := b.programs) rfl fun j => nodeIn_congr (h.programs j) fun _ => rfl)

end Alike

theorem workpapers_interference : Workpapers.Interference Alike :=
  ⟨fun _ => rfl, fun h h' => h'.trans h, alike_of_workpapers⟩

theorem evidence_interference : Evidence.Interference Alike :=
  ⟨fun _ => rfl, fun h h' => h'.trans h, alike_of_evidence⟩

theorem findings_interference : Interference Quiet Alike :=
  ⟨fun _ => rfl, fun _ _ _ h h' => h'.trans h, fun _ _ h => h.graph⟩

theorem programs_interference : Programs.Interference Alike :=
  ⟨fun _ => rfl, fun _ _ _ h h' => h'.trans h, fun _ _ => alike_of_programs⟩

/-! ### What the rows refer to, field by field -/

section Refs

variable {db : Db} {t : Uuid}

theorem workpaper_refs {w : Workpaper} : (∀ k ∈ RefRow.refs w, db.graph.Leads mayRefer (some t) k) ↔
    db.Refers t .engagement (some w.engagementId) ∧ db.Refers t .auditProgramStep w.programStepId ∧
      db.Refers t .workpaperTemplate w.templateId ∧ db.Refers t .risk w.riskId ∧ db.Refers t .control w.controlId ∧
      db.Refers t .user w.preparedById ∧ db.Refers t .user w.reviewedById ∧ db.Refers t .user w.signedOffById := by
  simp only [RefRow.refs, List.forall_mem_append, forall_mem_refer, and_assoc]
  rfl

theorem version_refs {v : WorkpaperVersion} : (∀ k ∈ RefRow.refs v, db.graph.Leads mayRefer (some t) k) ↔
    db.Refers t .workpaper (some v.workpaperId) ∧ db.Refers t .user (some v.changedById) := by
  simp only [RefRow.refs, List.forall_mem_append, forall_mem_refer]
  rfl

theorem note_refs {n : ReviewNote} : (∀ k ∈ RefRow.refs n, db.graph.Leads mayRefer (some t) k) ↔
    db.Refers t .workpaper (some n.workpaperId) ∧ db.Refers t .user (some n.raisedById) ∧
      db.Refers t .user n.assignedToId ∧ db.Refers t .user n.clearedById := by
  simp only [RefRow.refs, List.forall_mem_append, forall_mem_refer, and_assoc]
  rfl

theorem evidence_refs {e : Evidence} : (∀ k ∈ RefRow.refs e, db.graph.Leads mayRefer (some t) k) ↔
    db.Refers t .engagement (some e.engagementId) ∧ db.Refers t .workpaper e.workpaperId ∧
      db.Refers t .document e.documentId ∧ db.Refers t .user (some e.obtainedById) := by
  simp only [RefRow.refs, List.forall_mem_append, forall_mem_refer, and_assoc]
  rfl

theorem finding_refs {f : Finding} : (∀ k ∈ RefRow.refs f, db.graph.Leads mayRefer (some t) k) ↔
    db.Refers t .engagement (some f.engagementId) ∧ db.Refers t .workpaper f.workpaperId ∧
      db.Refers t .auditEntity f.entityId ∧ db.Refers t .process f.processId ∧ db.Refers t .risk f.riskId ∧
      db.Refers t .control f.controlId ∧ db.Refers t .user f.actionOwnerId ∧ db.Refers t .user f.validatedById ∧
      db.Refers t .finding f.repeatOfId ∧ db.Refers t .user (some f.raisedById) ∧
      ∀ e ∈ f.evidenceIds, db.graph.Leads mayRefer (some t) (.evidence, e) := by
  simp only [RefRow.refs, List.forall_mem_append, forall_mem_refer, and_assoc, List.forall_mem_map]
  rfl

theorem history_refs {h : FindingStatusHistory} : (∀ k ∈ RefRow.refs h, db.graph.Leads mayRefer (some t) k) ↔
    db.Refers t .finding (some h.findingId) ∧ db.Refers t .user (some h.changedById) := by
  simp only [RefRow.refs, List.forall_mem_append, forall_mem_refer]
  rfl

theorem step_refs {p : AuditProgramStep} : (∀ k ∈ RefRow.refs p, db.graph.Leads mayRefer (some t) k) ↔
    db.Refers t .auditProgram (some p.programId) ∧ db.Refers t .risk p.riskId ∧ db.Refers t .control p.controlId ∧
      db.Refers t .user p.assigneeId := by
  simp only [RefRow.refs, List.forall_mem_append, forall_mem_refer, and_assoc]
  rfl

theorem Authentic.refers {ctx : Ctx} (h : Authentic db ctx) : db.Refers ctx.tenantId .user (some ctx.userId) := by
  intro i hi
  cases hi
  obtain ⟨u, hu, ht⟩ := Option.map_eq_some_iff.mp h
  exact leads_of_sees (r := u) hu ((Ctx.sees_iff_tenant rfl).mpr ht)

end Refs

/-! ### Workpapers -/

section Workpapers

open Workpapers

variable {s a b : Db} {ctx : Ctx}

theorem workpaper_admitted {id : Uuid} {w : Workpaper} (h : constrained a id w = .ok ()) :
    refersTo a.risks w.riskId = true ∧ refersTo a.controls w.controlId = true := by
  unfold constrained at h
  split at h
  · cases h
  · split at h
    · rename_i hfk
      simp only [Bool.and_eq_true] at hfk
      tauto
    · cases h

/-- A new workpaper. -/
theorem closed_of_created {engagementId : Uuid} {dto : CreateWorkpaperDto} (hauth : Authentic s ctx)
    (hown : OwnIds s (.workpapers (.create ctx engagementId dto))) (ha : a.Closed)
    (h : Created Alike s ctx engagementId dto a b) : b.Closed := by
  obtain ⟨s₀, e, h₀, h₁, hengagement⟩ := h.engagement
  have hsa : Alike s a := h₁.trans h₀
  obtain ⟨content, hrows⟩ := h.row
  obtain ⟨hriskOwn, hcontrolOwn⟩ := List.forall_mem_append.mp hown
  obtain ⟨hrisk, hcontrol⟩ := workpaper_admitted
    (h.admitted (newWorkpaper ctx engagementId dto content) (by rw [hrows, if_pos rfl]))
  have huser := hsa.refers hauth.refers
  have htemplate : a.Refers ctx.tenantId .workpaperTemplate dto.templateId.orNull := by
    intro t ht
    obtain ⟨s', r, -, h', hr⟩ := h.template t ht
    obtain ⟨hfind, hsees, -⟩ := Ctx.findById_eq_some.mp hr
    exact h'.seen hfind hsees t rfl
  have hstep : a.Refers ctx.tenantId .auditProgramStep dto.programStepId.orNull := by
    intro t ht
    obtain ⟨s', r, -, h', hfind, hsees⟩ := h.step t ht
    exact h'.seen hfind hsees t rfl
  have hengagement' : a.Refers ctx.tenantId .engagement (some engagementId) := by
    obtain ⟨hfind, hsees, -⟩ := Ctx.findById_eq_some.mp hengagement
    exact h₁.seen hfind hsees
  exact ha.put h.rest hrows (same_of_fresh h.fresh) (workpaper_refs.mpr ⟨hengagement', hstep, htemplate,
    refers_of_own rfl (fun k hk => hsa.own (hriskOwn k hk)) hrisk,
    refers_of_own rfl (fun k hk => hsa.own (hcontrolOwn k hk)) hcontrol, huser, .none, .none⟩)

/-- What an edit makes of the fields that refer to other rows. -/
theorem edited_fields {dto : UpdateWorkpaperDto} {before w w' : Workpaper} (h : edited ctx dto before w = .ok w') :
    w'.tenantId = w.tenantId ∧ w'.engagementId = w.engagementId ∧ w'.programStepId = w.programStepId ∧
      w'.templateId = w.templateId ∧ w'.riskId = dto.riskId.onNullable w.riskId ∧
      w'.controlId = dto.controlId.onNullable w.controlId ∧
      w'.preparedById = before.preparedById.or (some ctx.userId) ∧ w'.reviewedById = w.reviewedById ∧
      w'.signedOffById = w.signedOffById := by
  unfold edited at h
  split at h
  · cases h
  · rename_i content hcontent
    cases h
    unfold UpdateWorkpaperDto.apply at hcontent
    split at hcontent
    · cases hcontent
      exact ⟨rfl, rfl, rfl, rfl, rfl, rfl, rfl, rfl, rfl⟩
    · cases hcontent

/-- A changed workpaper, and the version that keeps what it was. -/
theorem closed_of_updated {id : Uuid} {dto : UpdateWorkpaperDto} {before w w' : Workpaper} (hauth : Authentic s ctx)
    (hown : OwnIds s (.workpapers (.update ctx id dto))) (ha : a.Closed)
    (h : Updated Alike s ctx id dto before w w' a b) : b.Closed := by
  obtain ⟨s₀, h₀, h₁, hread⟩ := h.read
  have hsa : Alike s a := h₁.trans h₀
  have huser := hsa.refers hauth.refers
  obtain ⟨hriskOwn, hcontrolOwn⟩ := List.forall_mem_append.mp hown
  obtain ⟨changeSummary, hfresh, hversions⟩ := h.versions
  have htenant : w.tenantId = ctx.tenantId := (Ctx.sees_iff_tenant rfl).mp h.sees
  -- the version comes first
  have hm : ({ a with versions := b.versions } : Db).Closed :=
    ha.put (t := b.versions) rfl hversions (same_of_fresh hfresh)
      (version_refs.mpr ⟨Alike.seen (a := a) rfl h.row h.sees, huser⟩)
  obtain ⟨htenant', heng, hstep, htemplate, hrisk, hcontrol, hprep, hrev, hsign⟩ := edited_fields h.edit
  obtain ⟨heng₀, hstep₀, htemplate₀, hrisk₀, hcontrol₀, -, hrev₀, hsign₀⟩ :=
    workpaper_refs.mp (ha.refs (r := w) h.row (congrArg some htenant))
  obtain ⟨hfound, hseen, -⟩ := found_eq_some.mp hread
  have hprep₀ : a.Refers ctx.tenantId .user before.preparedById :=
    (workpaper_refs.mp (h₁.refs ha (r := before) hfound
      (congrArg some ((Ctx.sees_iff_tenant rfl).mp hseen)))).2.2.2.2.2.1
  obtain ⟨hriskRow, hcontrolRow⟩ := workpaper_admitted h.admitted
  rw [hrisk] at hriskRow
  rw [hcontrol] at hcontrolRow
  have hrefs : ∀ k ∈ RefRow.refs w', a.graph.Leads mayRefer (some ctx.tenantId) k := by
    rw [workpaper_refs, heng, hstep, htemplate, hrisk, hcontrol, hprep, hrev, hsign]
    exact ⟨heng₀, hstep₀, htemplate₀,
      refers_of_update (ρ := Risk) rfl (fun k hk => hsa.own (hriskOwn k hk)) hrisk₀ hriskRow,
      refers_of_update (ρ := Control) rfl (fun k hk => hsa.own (hcontrolOwn k hk)) hcontrol₀ hcontrolRow,
      hprep₀.or huser, hrev₀, hsign₀⟩
  have htenant₂ : TenantRow.tenantOf w' = some ctx.tenantId := congrArg some (htenant'.trans htenant)
  refine hm.put (r := w') h.rest h.rows (same_of_row h.row (congrArg some htenant'.symm)) fun k hk => ?_
  rw [htenant₂]
  exact leads_put (t := b.versions) rfl hversions (same_of_fresh hfresh) (hrefs k hk)

/-- A transition changes of the references at most who prepared, reviewed and signed off. -/
theorem transitioned_refs {t : Transition WorkpaperStatus} {wp w : Workpaper} {db : Db} {tenant : Uuid}
    (hw : ∀ k ∈ RefRow.refs w, db.graph.Leads mayRefer (some tenant) k)
    (hprepared : db.Refers tenant .user wp.preparedById) (huser : db.Refers tenant .user (some ctx.userId)) :
    ∀ k ∈ RefRow.refs (transitioned ctx t wp w), db.graph.Leads mayRefer (some tenant) k := by
  obtain ⟨heng, hstep, htemplate, hrisk, hcontrol, hprep, hrev, hsign⟩ := workpaper_refs.mp hw
  rw [workpaper_refs]
  unfold transitioned
  dsimp only
  split
  · exact ⟨heng, hstep, htemplate, hrisk, hcontrol, hprepared.or huser, hrev, hsign⟩
  · exact ⟨heng, hstep, htemplate, hrisk, hcontrol, hprep, hrev, hsign⟩
  · exact ⟨heng, hstep, htemplate, hrisk, hcontrol, hprep, huser, hsign⟩
  · exact ⟨heng, hstep, htemplate, hrisk, hcontrol, hprep, huser, hsign⟩
  · exact ⟨heng, hstep, htemplate, hrisk, hcontrol, hprep, hrev, huser⟩
  · exact ⟨heng, hstep, htemplate, hrisk, hcontrol, hprep, hrev, .none⟩
  · exact ⟨heng, hstep, htemplate, hrisk, hcontrol, hprep, hrev, hsign⟩

/-- A workpaper that has taken a transition. -/
theorem closed_of_transitioned {id : Uuid} {dto : TransitionDto} {t : Transition WorkpaperStatus} {wp w : Workpaper}
    (hauth : Authentic s ctx) (ha : a.Closed) (h : Transitioned Alike s ctx id dto t wp w a b) : b.Closed := by
  obtain ⟨s₀, h₀, h₁, hread⟩ := h.read
  obtain ⟨hfound, hseen, -⟩ := found_eq_some.mp hread
  have htenant : w.tenantId = ctx.tenantId := (Ctx.sees_iff_tenant rfl).mp h.sees
  have hprepared : a.Refers ctx.tenantId .user wp.preparedById :=
    (workpaper_refs.mp (h₁.refs ha (r := wp) hfound
      (congrArg some ((Ctx.sees_iff_tenant rfl).mp hseen)))).2.2.2.2.2.1
  have hrefs : ∀ k ∈ RefRow.refs (transitioned ctx t wp w), a.graph.Leads mayRefer (some ctx.tenantId) k :=
    transitioned_refs (ha.refs (r := w) h.row (congrArg some htenant)) hprepared (Alike.refers (h₁.trans h₀) hauth.refers)
  have htenant' : (transitioned ctx t wp w).tenantId = w.tenantId := by
    unfold transitioned
    dsimp only
    split <;> rfl
  have hm : ({ a with workpapers := b.workpapers } : Db).Closed := by
    refine ha.put (r := transitioned ctx t wp w) (t := b.workpapers) rfl h.rows
      (same_of_row h.row (congrArg some htenant'.symm)) fun k hk => ?_
    rw [show TenantRow.tenantOf (transitioned ctx t wp w) = some ctx.tenantId from congrArg some (htenant'.trans htenant)]
    exact hrefs k hk
  -- the steps keep what they refer to, and reviews are not referred to
  have hsteps : Alike { a with workpapers := b.workpapers }
      { a with workpapers := b.workpapers, programSteps := b.programSteps } :=
    graph_kept (t := b.programSteps) rfl fun j => nodeIn_congr (h.steps j) fun _ => rfl
  have hreviews : Alike { a with workpapers := b.workpapers, programSteps := b.programSteps } b := by
    rw [h.rest]
    funext ⟨m, i⟩
    cases m <;> rfl
  exact hreviews.closed (hsteps.closed hm)

/-- A new note. -/
theorem closed_of_noteCreated {id : Uuid} {dto : CreateReviewNoteDto} {wp : Workpaper} (hauth : Authentic s ctx)
    (hown : OwnIds s (.workpapers (.createReviewNote ctx id dto))) (ha : a.Closed)
    (h : NoteCreated Alike s ctx id dto wp a b) : b.Closed := by
  obtain ⟨s₀, h₀, h₁, hread⟩ := h.read
  have hsa : Alike s a := h₁.trans h₀
  obtain ⟨hfound, hseen, -⟩ := found_eq_some.mp hread
  have hprepared : a.Refers ctx.tenantId .user wp.preparedById :=
    (workpaper_refs.mp (h₁.refs ha (r := wp) hfound
      (congrArg some ((Ctx.sees_iff_tenant rfl).mp hseen)))).2.2.2.2.2.1
  have hassigned : a.Refers ctx.tenantId .user (dto.assignedToId.orNull.or wp.preparedById) := by
    have hadmitted := h.admitted
    unfold noteConstrained at hadmitted
    split at hadmitted
    · rename_i hfk
      simp only [Bool.and_eq_true] at hfk
      cases hgiven : dto.assignedToId.orNull with
      | none => exact hprepared
      | some u =>
        have hownUser : ∀ k ∈ refer .user (some u), Own s ctx k := by
          rw [← hgiven]
          exact hown
        refine refers_of_own (ρ := User) rfl (fun k hk => hsa.own (hownUser k hk)) ?_
        have huser := hfk.1.2
        rwa [newReviewNote, hgiven] at huser
    · cases hadmitted
  exact ha.put h.rest h.rows (same_of_fresh h.fresh)
    (note_refs.mpr ⟨h₁.seen hfound hseen, hsa.refers hauth.refers, hassigned, .none⟩)

/-- A changed note keeps what it refers to, but for who cleared it. -/
theorem noteChange_refs {before n : ReviewNote} {wp : Workpaper} {dto : UpdateReviewNoteDto}
    {f : ReviewNote → ReviewNote} {action : String} (h : noteChange ctx before wp dto = .ok (f, action)) :
    (f n).tenantId = n.tenantId ∧ (f n).workpaperId = n.workpaperId ∧ (f n).raisedById = n.raisedById ∧
      (f n).assignedToId = n.assignedToId ∧
      ((f n).clearedById = n.clearedById ∨ (f n).clearedById = none ∨ (f n).clearedById = some ctx.userId) := by
  unfold noteChange at h
  dsimp only at h
  split at h
  · split at h
    · cases h
    · split at h <;> cases h
      exact ⟨rfl, rfl, rfl, rfl, .inr (.inr rfl)⟩
  · split at h
    · split at h
      · cases h
      · split at h <;> cases h
        exact ⟨rfl, rfl, rfl, rfl, .inr (.inl rfl)⟩
    · split at h
      · split at h
        · cases h
        · split at h <;> cases h
          exact ⟨rfl, rfl, rfl, rfl, .inl rfl⟩
      · cases h

theorem closed_of_noteUpdated {id : Uuid} {dto : UpdateReviewNoteDto} {before n : ReviewNote}
    {f : ReviewNote → ReviewNote} (hauth : Authentic s ctx) (ha : a.Closed)
    (h : NoteUpdated Alike s ctx id dto before n f a b) : b.Closed := by
  obtain ⟨s₀, wp, action, h₀, h₁, -, hchange⟩ := h.read
  obtain ⟨htenant, hworkpaper, hraised, hassigned, hcleared⟩ := noteChange_refs (n := n) hchange
  have hn : n.tenantId = ctx.tenantId := (Ctx.sees_iff_tenant rfl).mp h.sees
  obtain ⟨hworkpaper₀, hraised₀, hassigned₀, hcleared₀⟩ := note_refs.mp (ha.refs (r := n) h.row (congrArg some hn))
  refine ha.put (r := f n) h.rest h.rows (same_of_row h.row (congrArg some htenant.symm)) fun k hk => ?_
  rw [show TenantRow.tenantOf (f n) = some ctx.tenantId from congrArg some (htenant.trans hn)]
  revert k
  rw [note_refs, hworkpaper, hraised, hassigned]
  refine ⟨hworkpaper₀, hraised₀, hassigned₀, ?_⟩
  rcases hcleared with heq | heq | heq <;> rw [heq]
  · exact hcleared₀
  · exact .none
  · exact Alike.refers (h₁.trans h₀) hauth.refers

/-- **Workpapers**: each call keeps the database closed. -/
theorem workpapers_closed {r : Workpapers.Request} (hauth : Authentic s r.ctx) (hown : OwnIds s (.workpapers r))
    (ha : a.Closed) (h : Call Alike s r a b) : b.Closed := by
  rcases h with haside | hcommit
  · exact (alike_of_workpapers haside).closed ha
  · cases hcommit with
    | create h => exact closed_of_created hauth hown ha h
    | update h => exact closed_of_updated hauth hown ha h
    | transition h => exact closed_of_transitioned hauth ha h
    | createReviewNote h => exact closed_of_noteCreated hauth hown ha h
    | updateReviewNote h => exact closed_of_noteUpdated hauth ha h

end Workpapers

/-! ### Evidence -/

section Evidence

open Evidence

variable {s a b : Db} {ctx : Ctx}

theorem document_refers {documentId : Field Uuid} (h : DocumentFound Alike s ctx documentId a) :
    a.Refers ctx.tenantId .document documentId.orNull := by
  intro i hi
  obtain ⟨s₀, doc, -, h₁, hdoc, -⟩ := h i hi
  obtain ⟨hfind, hsees, -⟩ := Ctx.findById_eq_some.mp hdoc
  exact h₁.seen hfind hsees i rfl

theorem workpaperFound_refers {engagementId : Uuid} {workpaperId : Field Uuid}
    (h : WorkpaperFound Alike s ctx engagementId workpaperId a) :
    a.Refers ctx.tenantId .workpaper workpaperId.orNull :=
  refers_of_found rfl (fun _ _ => id) (workpaperFound_iff.mp h)

/-- A new record. -/
theorem closed_of_evidenceCreated {dto : CreateEvidenceDto} (hauth : Authentic s ctx) (ha : a.Closed)
    (h : Created Alike s ctx dto a b) : b.Closed := by
  obtain ⟨s₀, e, -, h₁, hengagement⟩ := h.engagement
  obtain ⟨hfind, hsees, -⟩ := Ctx.findById_eq_some.mp hengagement
  obtain ⟨attempt, reference, hfresh, -, hrows⟩ := h.row
  exact ha.put h.rest hrows (same_of_fresh hfresh) (evidence_refs.mpr
    ⟨h₁.seen hfind hsees, workpaperFound_refers h.workpaper, document_refers h.document, h.since.refers hauth.refers⟩)

/-- What an update makes of the fields that refer to other rows. -/
theorem apply_evidence_fields {dto : UpdateEvidenceDto} {e e' : Evidence} (h : dto.apply e = .ok e') :
    e'.tenantId = e.tenantId ∧ e'.engagementId = e.engagementId ∧
      e'.workpaperId = dto.workpaperId.onNullable e.workpaperId ∧
      e'.documentId = dto.documentId.onNullable e.documentId ∧ e'.obtainedById = e.obtainedById := by
  unfold UpdateEvidenceDto.apply at h
  split at h
  · cases h
    exact ⟨rfl, rfl, rfl, rfl, rfl⟩
  · cases h

/-- A changed record. -/
theorem closed_of_evidenceUpdated {id : Uuid} {dto : UpdateEvidenceDto} {before e e' : Evidence} (ha : a.Closed)
    (h : Updated Alike s ctx id dto before e e' a b) : b.Closed := by
  obtain ⟨htenant, heng, hworkpaper, hdocument, huser⟩ := apply_evidence_fields h.change
  have he : e.tenantId = ctx.tenantId := (Ctx.sees_iff_tenant rfl).mp h.sees
  obtain ⟨heng₀, hworkpaper₀, hdocument₀, huser₀⟩ := evidence_refs.mp (ha.refs (r := e) h.row (congrArg some he))
  refine ha.put (r := e') h.rest h.rows (same_of_row h.row (congrArg some htenant.symm)) fun k hk => ?_
  rw [show TenantRow.tenantOf e' = some ctx.tenantId from congrArg some (htenant.trans he)]
  revert k
  rw [evidence_refs, heng, hworkpaper, hdocument, huser]
  exact ⟨heng₀, (workpaperFound_refers h.workpaper).onNullable hworkpaper₀,
    (document_refers h.document).onNullable hdocument₀, huser₀⟩

/-- **Evidence**: each call keeps the database closed, whatever ids the body has. -/
theorem evidence_closed {r : Evidence.Request} (hauth : Authentic s r.ctx) (ha : a.Closed) (h : Call Alike s r a b) :
    b.Closed := by
  cases h with
  | aside h => exact (alike_of_evidence h).closed ha
  | create h => exact closed_of_evidenceCreated hauth ha h
  | update h => exact closed_of_evidenceUpdated ha h

end Evidence

/-! ### Findings -/

section Findings

open Findings

variable {s a b : Db} {ctx : Ctx}

theorem finding_admitted {id : Uuid} {f : Finding} (h : constrained a id f = .ok ()) :
    refersTo a.workpapers f.workpaperId = true ∧ refersTo a.entities f.entityId = true ∧
      refersTo a.processes f.processId = true ∧ refersTo a.risks f.riskId = true ∧
      refersTo a.controls f.controlId = true ∧ refersTo a.findings f.repeatOfId = true := by
  unfold constrained at h
  split at h
  · cases h
  · split at h
    · cases h
    · split at h
      · rename_i hfk
        simp only [Bool.and_eq_true] at hfk
        tauto
      · cases h

/-- A new finding, and the first entry of its history. -/
theorem closed_of_findingCreated {dto : CreateFindingDto} {engagement : Engagement} {id historyId : Uuid}
    {reference : String} (hauth : Authentic s ctx) (hown : OwnIds s (.findings (.create ctx dto))) (ha : a.Closed)
    (h : Created Alike s ctx dto engagement id historyId reference a b) : b.Closed := by
  have hsa : Alike s a := h.checked.since
  have huser := hsa.refers hauth.refers
  obtain ⟨s₀, -, h₁, hread⟩ := h.checked.read
  obtain ⟨hfind, hsees, -⟩ := Ctx.findById_eq_some.mp hread
  have hown' : ∀ k ∈ (Request.findings (.create ctx dto)).unchecked, Own a ctx k := fun k hk => hsa.own (hown k hk)
  simp only [Request.unchecked, List.forall_mem_append, and_assoc] at hown'
  obtain ⟨hentityOwn, hprocessOwn, hriskOwn, hcontrolOwn⟩ := hown'
  obtain ⟨-, hentity, hprocess, hrisk, hcontrol, -⟩ := finding_admitted h.admitted
  -- the default entity is one that the engagement refers to
  have hentity₀ : a.Refers ctx.tenantId .auditEntity engagement.entityId := by
    intro i hi
    refine h₁.refs ha hfind (congrArg some ((Ctx.sees_iff_tenant rfl).mp hsees)) (.auditEntity, i) ?_
    simp [RefRow.refs, mem_refer, hi]
  have hrefs : ∀ k ∈ RefRow.refs (newFinding ctx dto engagement reference),
      a.graph.Leads mayRefer (some ctx.tenantId) k := by
    rw [finding_refs]
    exact ⟨h₁.seen hfind hsees, refers_of_found rfl (fun _ _ => fun h => h) h.checked.workpaper,
      refers_of_update (ρ := AuditEntity) rfl hentityOwn hentity₀ hentity,
      refers_of_own (ρ := Process) rfl hprocessOwn hprocess, refers_of_own (ρ := Risk) rfl hriskOwn hrisk,
      refers_of_own (ρ := Control) rfl hcontrolOwn hcontrol,
      refers_of_found rfl (fun _ _ => fun h => h) h.checked.owner, .none,
      refers_of_found rfl (fun _ _ => fun h => h) h.checked.repeated, huser, fun e he => by cases he⟩
  have hm : ({ a with findings := b.findings } : Db).Closed :=
    ha.put (r := newFinding ctx dto engagement reference) (t := b.findings) rfl h.rows (same_of_fresh h.fresh) hrefs
  refine hm.put (r := raised ctx id) h.rest h.entries (same_of_fresh h.freshEntry) (history_refs.mpr ⟨?_, huser⟩)
  refine Alike.seen (a := { a with findings := b.findings }) rfl (r := newFinding ctx dto engagement reference) ?_
    ((Ctx.sees_iff_tenant rfl).mpr rfl)
  exact (h.rows id).trans (if_pos rfl)

/-- What an update makes of the fields that refer to other rows. -/
theorem apply_finding_fields {dto : UpdateFindingDto} {f f' : Finding} (h : dto.apply f = .ok f') :
    f'.tenantId = f.tenantId ∧ f'.engagementId = f.engagementId ∧
      f'.workpaperId = dto.workpaperId.onNullable f.workpaperId ∧ f'.entityId = dto.entityId.onNullable f.entityId ∧
      f'.processId = dto.processId.onNullable f.processId ∧ f'.riskId = dto.riskId.onNullable f.riskId ∧
      f'.controlId = dto.controlId.onNullable f.controlId ∧
      f'.actionOwnerId = dto.actionOwnerId.onNullable f.actionOwnerId ∧ f'.validatedById = f.validatedById ∧
      f'.repeatOfId = dto.repeatOfId.onNullable f.repeatOfId ∧ f'.raisedById = f.raisedById ∧
      f'.evidenceIds = (dto.evidenceIds.orNull.map List.eraseDups).getD f.evidenceIds := by
  unfold UpdateFindingDto.apply at h
  split at h
  · cases h
    exact ⟨rfl, rfl, rfl, rfl, rfl, rfl, rfl, rfl, rfl, rfl, rfl, rfl⟩
  · cases h

/-- A changed finding. -/
theorem closed_of_findingUpdated {id : Uuid} {dto : UpdateFindingDto} {before f f' : Finding}
    (hown : OwnIds s (.findings (.update ctx id dto))) (ha : a.Closed)
    (h : Updated Alike s ctx id dto before f f' a b) : b.Closed := by
  obtain ⟨htenant, heng, hworkpaper, hentity, hprocess, hrisk, hcontrol, howner, hvalidated, hrepeat, hraised, hevidence⟩ :=
    apply_finding_fields h.change
  have hf : f.tenantId = ctx.tenantId := (Ctx.sees_iff_tenant rfl).mp h.sees
  obtain ⟨heng₀, hworkpaper₀, hentity₀, hprocess₀, hrisk₀, hcontrol₀, howner₀, hvalidated₀, hrepeat₀, hraised₀, hevidence₀⟩ :=
    finding_refs.mp (ha.refs (r := f) h.row (congrArg some hf))
  have hown' : ∀ k ∈ (Request.findings (.update ctx id dto)).unchecked, Own a ctx k :=
    fun k hk => Alike.own h.since (hown k hk)
  simp only [Request.unchecked, List.forall_mem_append, and_assoc] at hown'
  obtain ⟨hworkpaperOwn, hentityOwn, hprocessOwn, hriskOwn, hcontrolOwn, hrepeatOwn⟩ := hown'
  have hadmitted := finding_admitted h.admitted
  rw [hworkpaper, hentity, hprocess, hrisk, hcontrol, hrepeat] at hadmitted
  obtain ⟨hworkpaperRow, hentityRow, hprocessRow, hriskRow, hcontrolRow, hrepeatRow⟩ := hadmitted
  have hlinked : ∀ e ∈ (dto.evidenceIds.orNull.map List.eraseDups).getD f.evidenceIds,
      a.graph.Leads mayRefer (some ctx.tenantId) (.evidence, e) := by
    cases hids : dto.evidenceIds.orNull with
    | none => exact hevidence₀
    | some ids =>
      intro e he
      obtain ⟨s₀, -, h₁, hall⟩ := h.evidence ids hids
      obtain ⟨row, hfind, hsees, -⟩ := hall e (List.mem_eraseDups.mp he)
      exact Alike.seen h₁ hfind hsees e rfl
  refine ha.put (r := f') h.rest h.rows (same_of_row h.row (congrArg some htenant.symm)) fun k hk => ?_
  rw [show TenantRow.tenantOf f' = some ctx.tenantId from congrArg some (htenant.trans hf)]
  revert k
  rw [finding_refs, heng, hworkpaper, hentity, hprocess, hrisk, hcontrol, howner, hvalidated, hrepeat, hraised, hevidence]
  exact ⟨heng₀, refers_of_update (ρ := Workpaper) rfl hworkpaperOwn hworkpaper₀ hworkpaperRow,
    refers_of_update (ρ := AuditEntity) rfl hentityOwn hentity₀ hentityRow,
    refers_of_update (ρ := Process) rfl hprocessOwn hprocess₀ hprocessRow,
    refers_of_update (ρ := Risk) rfl hriskOwn hrisk₀ hriskRow,
    refers_of_update (ρ := Control) rfl hcontrolOwn hcontrol₀ hcontrolRow,
    (refers_of_found rfl (fun _ _ => fun h => h) h.owner).onNullable howner₀, hvalidated₀,
    refers_of_update (ρ := Finding) rfl hrepeatOwn hrepeat₀ hrepeatRow, hraised₀, hlinked⟩

/-- **Findings**: each call keeps the database closed. -/
theorem findings_closed {r : Findings.Request} (hauth : Authentic s r.ctx) (hown : OwnIds s (.findings r))
    (ha : a.Closed) (h : Call Alike s r a b) : b.Closed := by
  cases h with
  | quiet h => exact Alike.closed h.graph ha
  | create h => exact closed_of_findingCreated hauth hown ha h
  | update h => exact closed_of_findingUpdated hown ha h

end Findings

/-! ### Steps -/

section Steps

open Programs

variable {s a b : Db} {ctx : Ctx}

theorem step_admitted {id : Uuid} {p : AuditProgramStep} (h : constrained a id p = .ok ()) :
    refersTo a.risks p.riskId = true ∧ refersTo a.controls p.controlId = true ∧
      refersTo a.users p.assigneeId = true := by
  unfold constrained at h
  split at h
  · cases h
  · split at h
    · rename_i hfk
      simp only [Bool.and_eq_true] at hfk
      tauto
    · cases h

/-- A new step. -/
theorem closed_of_added {programId : Uuid} {dto : CreateStepDto} {program : AuditProgram} {sortOrder : ℕ}
    (hown : OwnIds s (.steps (.addStep ctx programId dto))) (ha : a.Closed)
    (h : Added Alike s ctx programId dto program sortOrder a b) : b.Closed := by
  obtain ⟨s₀, -, h₁, hread⟩ := h.read
  obtain ⟨hfind, hsees, -⟩ := Ctx.findById_eq_some.mp hread
  have hown' : ∀ k ∈ (Request.steps (.addStep ctx programId dto)).unchecked, Own a ctx k :=
    fun k hk => Alike.own h.since (hown k hk)
  simp only [Request.unchecked, List.forall_mem_append, and_assoc] at hown'
  obtain ⟨hriskOwn, hcontrolOwn, hassigneeOwn⟩ := hown'
  obtain ⟨hrisk, hcontrol, hassignee⟩ := step_admitted h.admitted
  exact ha.put h.rest h.rows (same_of_fresh h.fresh) (step_refs.mpr ⟨Alike.seen h₁ hfind hsees,
    refers_of_own (ρ := Risk) rfl hriskOwn hrisk, refers_of_own (ρ := Control) rfl hcontrolOwn hcontrol,
    refers_of_own (ρ := User) rfl hassigneeOwn hassignee⟩)

/-- What an update makes of the fields that refer to other rows. -/
theorem apply_step_fields {dto : UpdateStepDto} {p p' : AuditProgramStep} (h : dto.apply p = .ok p') :
    p'.tenantId = p.tenantId ∧ p'.programId = p.programId ∧ p'.riskId = dto.riskId.onNullable p.riskId ∧
      p'.controlId = dto.controlId.onNullable p.controlId ∧
      p'.assigneeId = dto.assigneeId.onNullable p.assigneeId := by
  unfold UpdateStepDto.apply at h
  split at h
  · cases h
    exact ⟨rfl, rfl, rfl, rfl, rfl⟩
  · cases h

/-- A changed step. -/
theorem closed_of_stepUpdated {id : Uuid} {dto : UpdateStepDto} {p p' : AuditProgramStep}
    (hown : OwnIds s (.steps (.updateStep ctx id dto))) (ha : a.Closed)
    (h : Updated Alike s ctx id dto p p' a b) : b.Closed := by
  obtain ⟨htenant, hprogram, hrisk, hcontrol, hassignee⟩ := apply_step_fields h.change
  have hp : p.tenantId = ctx.tenantId := (Ctx.sees_iff_tenant rfl).mp h.sees
  obtain ⟨hprogram₀, hrisk₀, hcontrol₀, hassignee₀⟩ := step_refs.mp (ha.refs (r := p) h.row (congrArg some hp))
  have hown' : ∀ k ∈ (Request.steps (.updateStep ctx id dto)).unchecked, Own a ctx k :=
    fun k hk => Alike.own h.since (hown k hk)
  simp only [Request.unchecked, List.forall_mem_append, and_assoc] at hown'
  obtain ⟨hriskOwn, hcontrolOwn, hassigneeOwn⟩ := hown'
  have hadmitted := step_admitted h.admitted
  rw [hrisk, hcontrol, hassignee] at hadmitted
  obtain ⟨hriskRow, hcontrolRow, hassigneeRow⟩ := hadmitted
  refine ha.put (r := p') h.rest h.rows (same_of_row h.row (congrArg some htenant.symm)) fun k hk => ?_
  rw [show TenantRow.tenantOf p' = some ctx.tenantId from congrArg some (htenant.trans hp)]
  revert k
  rw [step_refs, hprogram, hrisk, hcontrol, hassignee]
  exact ⟨hprogram₀, refers_of_update (ρ := Risk) rfl hriskOwn hrisk₀ hriskRow,
    refers_of_update (ρ := Control) rfl hcontrolOwn hcontrol₀ hcontrolRow,
    refers_of_update (ρ := User) rfl hassigneeOwn hassignee₀ hassigneeRow⟩

/-- **Steps**: each call keeps the database closed. -/
theorem steps_closed {r : Programs.Request} (hown : OwnIds s (.steps r)) (ha : a.Closed) (h : Call Alike s r a b) :
    b.Closed := by
  cases h with
  | aside h => exact (alike_of_programs h).closed ha
  | addStep h => exact closed_of_added hown ha h
  | updateStep h => exact closed_of_stepUpdated hown ha h

end Steps

/-! ### Histories -/

/-- What is done with the result of a request makes no difference to the state it leaves. -/
theorem run_map {α β : Type} (p : Service α) (f : α → β) (s : Db) :
    ((p >>= fun a => pure (f a)).run s).2 = (p.run s).2 := by
  rw [Prog.run_bind]
  rcases p.run s with ⟨e | a, s'⟩ <;> rfl

/-- A request of a user of the tenant, no unchecked id of which names a row of another
tenant, leaves a closed database closed, whether it succeeds or fails. -/
theorem serve_closed {s : Db} {r : Request} (hs : s.Closed) (hauth : Authentic s r.ctx) (hown : OwnIds s r) :
    (after serve s r).Closed := by
  cases r with
  | workpapers r =>
    rw [after, serve, run_map]
    exact (Workpapers.serve_meets workpapers_interference r s).run_keeps (fun _ => rfl)
      (fun _ _ => workpapers_closed hauth hown) hs
  | evidence r =>
    rw [after, serve, run_map]
    exact (Evidence.serve_meets evidence_interference r s).run_keeps (fun _ => rfl)
      (fun _ _ => evidence_closed hauth) hs
  | findings r =>
    rw [after, serve, run_map]
    exact (Findings.serve_meets findings_interference r s).run_keeps (fun _ => rfl)
      (fun _ _ => findings_closed hauth hown) hs
  | steps r =>
    rw [after, serve, run_map]
    exact (Programs.serve_meets programs_interference r s).run_keeps (fun _ => rfl)
      (fun _ _ => steps_closed hown) hs

/-- **Histories**: requests of users of their tenants, none of which has an unchecked id of
another tenant's row, leave a closed database closed. -/
theorem closed_of_history {db₀ : Db} (h₀ : db₀.Closed) (past : List Request)
    (h : Always serve (fun s r => Authentic s r.ctx ∧ OwnIds s r) db₀ past) : (history serve db₀ past).Closed :=
  always_of_step (I := fun _ s => s.Closed) h₀ (fun _ _ _ hs hr _ => serve_closed hs hr.1 hr.2) past h

end AuditSphere.Tenancy
