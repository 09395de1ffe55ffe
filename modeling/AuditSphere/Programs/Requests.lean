import AuditSphere.Programs.Service

/-!
# What a request for a step does

Each request makes at most one call that matters: `addStep` inserts a step (`Added`),
`updateStep` changes one (`Updated`). The other calls change only the status of a
programme, the audit trail and the notifications (`Aside`). `serve_meets` says so for
any interference by others.
-/

namespace AuditSphere.Programs

open Prisma Theory Shared

/-- The programmes are the same but for their status. -/
def ProgramsKept (t t' : Table Uuid AuditProgram) : Prop :=
  ∀ i, (t'.find i).map (fun p => { p with status := ProgramStatus.draft }) =
    (t.find i).map fun p => { p with status := ProgramStatus.draft }

/-- Nothing changes but the status of programmes, the audit trail and the notifications. -/
structure Aside (db db' : Db) : Prop where
  rest : db' = { db with
    programs := db'.programs, auditTrail := db'.auditTrail, notifications := db'.notifications }
  programs : ProgramsKept db.programs db'.programs

theorem Aside.refl (db : Db) : Aside db db := ⟨rfl, fun _ => rfl⟩

theorem Aside.of_quiet {a b : Db} (h : Quiet a b) : Aside a b := by
  rw [h]
  exact ⟨rfl, fun _ => rfl⟩

/-- Interference that may come between the calls of a request. -/
structure Interference (R : Db → Db → Prop) : Prop where
  refl : ∀ s, R s s
  trans : ∀ a b c, R a b → R b c → R a c
  aside : ∀ a b, Aside a b → R a b

/-! ### Commits -/

/-- A new step of a programme that was read. -/
structure Added (R : Db → Db → Prop) (s : Db) (ctx : Ctx) (programId : Uuid) (dto : CreateStepDto)
    (program : AuditProgram) (sortOrder : ℕ) (s₁ s₂ : Db) : Prop where
  since : R s s₁
  opened : program.status ≠ .completed
  read : ∃ s₀, R s s₀ ∧ R s₀ s₁ ∧ ctx.findById s₀.programs programId (fun _ => true) = some program
  admitted : constrained s₁ (ctx.uuid 0) (newStep ctx programId dto sortOrder) = .ok ()
  fresh : s₁.programSteps.find (ctx.uuid 0) = none
  rows : ∀ j, s₂.programSteps.find j =
    if j = ctx.uuid 0 then some (newStep ctx programId dto sortOrder) else s₁.programSteps.find j
  rest : s₂ = { s₁ with programSteps := s₂.programSteps }

/-- A changed step. -/
structure Updated (R : Db → Db → Prop) (s : Db) (ctx : Ctx) (id : Uuid) (dto : UpdateStepDto)
    (step step' : AuditProgramStep) (s₁ s₂ : Db) : Prop where
  since : R s s₁
  row : s₁.programSteps.find id = some step
  sees : ctx.sees step = true
  change : dto.apply step = .ok step'
  admitted : constrained s₁ id step' = .ok ()
  rows : ∀ j, s₂.programSteps.find j = if j = id then some step' else s₁.programSteps.find j
  rest : s₂ = { s₁ with programSteps := s₂.programSteps }

/-- A call of a request. -/
inductive Call (R : Db → Db → Prop) (s : Db) : Request → Db → Db → Prop where
  | aside {r s₁ s₂} (h : Aside s₁ s₂) : Call R s r s₁ s₂
  | addStep {ctx programId dto program sortOrder s₁ s₂} (h : Added R s ctx programId dto program sortOrder s₁ s₂) :
    Call R s (.addStep ctx programId dto) s₁ s₂
  | updateStep {ctx id dto step step' s₁ s₂} (h : Updated R s ctx id dto step step' s₁ s₂) :
    Call R s (.updateStep ctx id dto) s₁ s₂

/-! ### The writes -/

theorem insertStep_ok {id : Uuid} {step : AuditProgramStep} {s s' : Db} {v : StepView}
    (h : (insertStep id step).run s = (.ok v, s')) :
    constrained s id step = .ok () ∧ s.programSteps.find id = none ∧
      (∀ j, s'.programSteps.find j = if j = id then some step else s.programSteps.find j) ∧
      s' = { s with programSteps := s'.programSteps } := by
  obtain ⟨_, hc, h⟩ := Prog.bind_eq_ok.mp (Prog.run_call_ok.mp h)
  obtain ⟨t, ht, h⟩ := Prog.bind_eq_ok.mp h
  cases h
  obtain ⟨hfresh, hrows⟩ := insertRow_ok ht
  exact ⟨hc, hfresh, hrows, rfl⟩

theorem updateStepRow_ok {ctx : Ctx} {id : Uuid} {f : AuditProgramStep → Except HttpError AuditProgramStep}
    {s s' : Db} {v : StepView} (h : (updateStepRow ctx id f).run s = (.ok v, s')) :
    ∃ step step', s.programSteps.find id = some step ∧ ctx.sees step = true ∧ f step = .ok step' ∧
      constrained s id step' = .ok () ∧
      (∀ j, s'.programSteps.find j = if j = id then some step' else s.programSteps.find j) ∧
      s' = { s with programSteps := s'.programSteps } := by
  obtain ⟨⟨step', t⟩, ht, h⟩ := Prog.bind_eq_ok.mp (Prog.run_call_ok.mp h)
  obtain ⟨_, hc, h⟩ := Prog.bind_eq_ok.mp h
  cases h
  obtain ⟨step, hfind, hsees, hf, hrows⟩ := updateRow_ok ht
  exact ⟨step, step', hfind, hsees, hf, hc, hrows, rfl⟩

theorem updateProgramStatus_ok {ctx : Ctx} {id : Uuid} {status : ProgramStatus} {s s' : Db} {u : Unit}
    (h : (updateProgramStatus ctx id status).run s = (.ok u, s')) : Aside s s' := by
  obtain ⟨⟨p', t⟩, ht, h⟩ := Prog.bind_eq_ok.mp (Prog.run_call_ok.mp h)
  cases h
  obtain ⟨p, hfind, -, hf, hrows⟩ := updateRow_ok ht
  cases hf
  refine ⟨rfl, fun i => ?_⟩
  rw [hrows]
  by_cases hi : i = id
  · subst hi
    simp [hfind]
  · simp [hi]

/-! ### The methods -/

section Methods

variable {R G : Db → Db → Prop} (hR : Interference R)

omit hR in
theorem assertProgram_meets (hG : ∀ s, G s s) (ctx : Ctx) (id : Uuid) (s : Db) :
    (assertProgram ctx id).Meets R G (fun r s' => R s s' ∧
      ∀ p, r = .ok p → ctx.findById s'.programs id (fun _ => true) = some p) s := by
  unfold assertProgram
  rw [Prog.meets_read_bind]
  refine fun s' hs' => ⟨hG s', ?_⟩
  split
  · exact ⟨hs', fun p h => by cases h⟩
  · rename_i p hp
    refine ⟨hs', fun p' h => ?_⟩
    cases h
    exact hp

include hR

/-- A program that changes nothing that matters, after which nothing that matters happens. -/
theorem meets_aside {α : Type} {p : Service α} (hp : p.Within Aside) (hG : ∀ a b, Aside a b → G a b) (s : Db) :
    p.Meets R G (fun _ _ => True) s :=
  (hp.meets hG hR.aside hR.refl hR.trans s).mono fun _ _ _ => trivial

omit hR in
theorem updateProgramStatus_meets (hG : ∀ a b, Aside a b → G a b) (ctx : Ctx) (id : Uuid) (status : ProgramStatus)
    (s : Db) : (updateProgramStatus ctx id status).Meets R G (fun _ _ => True) s := by
  refine Prog.meets_of_call fun s₁ _ r s₂ hrun => ⟨hG _ _ ?_, trivial⟩
  rcases r with e | u
  · rw [Prog.atomic_call _ _ _ _ hrun]
    exact Aside.refl s₁
  · exact updateProgramStatus_ok hrun

/-- What follows the commit of either request: the programme is put in progress, perhaps,
and the change is recorded and told. -/
theorem finish_meets {α : Type} (hG : ∀ a b, Aside a b → G a b) (c : Prop) [Decidable c] (ctx : Ctx)
    (programId : Uuid) (action targetType : String) (id : Uuid) (assigneeId : Option Uuid)
    (reference objective : String) (engagementId : Uuid) (a : α) (s : Db) :
    (do
      if c then updateProgramStatus ctx programId .inProgress else pure ()
      auditRecord ctx action targetType id
      notifyAssignee ctx assigneeId reference objective engagementId
      pure a : Service α).Meets R G (fun _ _ => True) s := by
  have hrest : (do
      auditRecord ctx action targetType id
      notifyAssignee ctx assigneeId reference objective engagementId
      pure a : Service α).Within Aside := by
    refine ((auditRecord_quiet ctx _ _ _).mono fun _ _ => Aside.of_quiet).bind fun _ => ?_
    exact ((notify_quiet ctx _ _).mono fun _ _ => Aside.of_quiet).bind fun _ => Prog.within_pure _
  dsimp only
  rw [Prog.meets_ite]
  split
  · rw [Prog.meets_bind]
    refine (updateProgramStatus_meets hG ctx programId _ s).mono ?_
    rintro (e | _) s₁ -
    · trivial
    · exact meets_aside hR hrest hG s₁
  · exact meets_aside hR hrest hG s

theorem nextSortOrder_meets (hG : ∀ s, G s s) (ctx : Ctx) (programId : Uuid) (sortOrder : Field ℕ) (s : Db) :
    (nextSortOrder ctx programId sortOrder).Meets R G (fun _ s' => R s s') s := by
  unfold nextSortOrder
  split
  · exact hR.refl s
  · rw [Prog.meets_read]
    exact fun s' hs' => ⟨hG s', hs'⟩

theorem assertReferenceFree_meets (hG : ∀ s, G s s) (ctx : Ctx) (id : Uuid) (before : AuditProgramStep)
    (reference : Field String) (s : Db) :
    (assertReferenceFree ctx id before reference).Meets R G (fun _ s' => R s s') s := by
  unfold assertReferenceFree
  split
  · exact hR.refl s
  · rw [Prog.meets_ite]
    split
    · exact hR.refl s
    · rw [Prog.meets_read_bind]
      refine fun s' hs' => ⟨hG s', ?_⟩
      rw [Prog.meets_ite]
      split <;> exact hs'

theorem addStep_meets (ctx : Ctx) (programId : Uuid) (dto : CreateStepDto) (s : Db) :
    (addStep ctx programId dto).Meets R (Call R s (.addStep ctx programId dto)) (fun _ _ => True) s := by
  have hG : ∀ s', Call R s (.addStep ctx programId dto) s' s' := fun s' => .aside (Aside.refl s')
  unfold addStep
  rw [Prog.meets_bind]
  refine (assertProgram_meets hG ctx programId s).mono ?_
  rintro (e | program) s₀ ⟨h₀, hread⟩
  · trivial
  dsimp only
  rw [Prog.meets_ite]
  split
  · trivial
  rename_i hopened
  rw [Prog.meets_read_bind]
  refine fun s₁ h₁ => ⟨hG s₁, ?_⟩
  rw [Prog.meets_ite]
  split
  · trivial
  rw [Prog.meets_bind]
  refine (nextSortOrder_meets hR hG ctx programId dto.sortOrder s₁).mono ?_
  rintro (e | sortOrder) s₂ h₂
  · trivial
  dsimp only
  rw [Prog.meets_bind]
  refine Prog.meets_of_call fun s₃ h₃ r s₄ hrun => ?_
  rcases r with e | v
  · have : s₄ = s₃ := Prog.atomic_call _ _ _ _ hrun
    subst this
    exact ⟨hG s₄, trivial⟩
  obtain ⟨hc, hfresh, hrows, hrest⟩ := insertStep_ok hrun
  have h03 := hR.trans _ _ _ h₁ (hR.trans _ _ _ h₂ h₃)
  have hadded : Added R s ctx programId dto program sortOrder s₃ s₄ := {
    since := hR.trans _ _ _ h₀ h03
    opened := hopened
    read := ⟨s₀, h₀, h03, hread program rfl⟩
    admitted := hc
    fresh := hfresh
    rows := hrows
    rest := hrest }
  exact ⟨.addStep hadded, finish_meets hR (fun _ _ => .aside) _ ctx _ _ _ _ _ _ _ _ _ s₄⟩

theorem updateStep_meets (ctx : Ctx) (id : Uuid) (dto : UpdateStepDto) (s : Db) :
    (updateStep ctx id dto).Meets R (Call R s (.updateStep ctx id dto)) (fun _ _ => True) s := by
  have hG : ∀ s', Call R s (.updateStep ctx id dto) s' s' := fun s' => .aside (Aside.refl s')
  unfold updateStep
  rw [Prog.meets_read_bind]
  refine fun s₀ h₀ => ⟨hG s₀, ?_⟩
  split
  · trivial
  rename_i before program hread
  rw [Prog.meets_bind]
  refine (assertReferenceFree_meets hR hG ctx id before dto.reference s₀).mono ?_
  rintro (e | u) s₁ h₁
  · trivial
  dsimp only
  rw [Prog.meets_bind]
  refine Prog.meets_of_call fun s₂ h₂ r s₃ hrun => ?_
  rcases r with e | v
  · have : s₃ = s₂ := Prog.atomic_call _ _ _ _ hrun
    subst this
    exact ⟨hG s₃, trivial⟩
  obtain ⟨step, step', hfind, hsees, hf, hc, hrows, hrest⟩ := updateStepRow_ok hrun
  have hupdated : Updated R s ctx id dto step step' s₂ s₃ := {
    since := hR.trans _ _ _ h₀ (hR.trans _ _ _ h₁ h₂)
    row := hfind
    sees := hsees
    change := hf
    admitted := hc
    rows := hrows
    rest := hrest }
  exact ⟨.updateStep hupdated, finish_meets hR (fun _ _ => .aside) _ ctx _ _ _ _ _ _ _ _ _ s₃⟩

/-- **What a request does**, whatever comes between its calls. -/
theorem serve_meets (r : Request) (s : Db) : (serve r).Meets R (Call R s r) (fun _ _ => True) s := by
  unfold serve
  rw [Prog.meets_ite]
  split
  · trivial
  cases r with
  | addStep ctx programId dto => exact addStep_meets hR ctx programId dto s
  | updateStep ctx id dto => exact updateStep_meets hR ctx id dto s

end Methods

end AuditSphere.Programs
