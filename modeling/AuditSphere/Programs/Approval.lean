import AuditSphere.Db.Requests
import AuditSphere.Programs.Operations
import AuditSphere.Programs.Requests
import AuditSphere.Workpapers.Requests

/-!
# Programmes that have been approved, and their steps

What each operation leaves of the two facts that `approve` brings together: a programme is in
force, and it has a step. Only `approve` puts a programme in force, after it has counted the
steps (`Approved`); only `deleteStep` takes a step away (`Deleted`). Every other call keeps both
facts (`Keeps`).
-/

namespace AuditSphere.Programs

open Prisma Theory Shared

/-- The programme has been approved, and is in force. -/
def InForce (id : Uuid) (s : Db) : Prop := ∃ p, s.programs.find id = some p ∧ inForce p.status = true

/-- The programme has a step. -/
def HasStep (id : Uuid) (s : Db) : Prop := ∃ j step, s.programSteps.find j = some step ∧ step.programId = id

/-- The plans and their items are the same. -/
def SamePlans (s s' : Db) : Prop := s'.plans = s.plans ∧ s'.planItems = s.planItems

/-- No programme is put in force, and none loses its steps. -/
structure Keeps (s s' : Db) : Prop where
  plans : SamePlans s s'
  inForce : ∀ id, InForce id s' → InForce id s
  hasStep : ∀ id, HasStep id s → HasStep id s'

/-- A programme that has a step is put in force. -/
structure Approved (id : Uuid) (s s' : Db) : Prop where
  plans : SamePlans s s'
  step : HasStep id s
  inForce : ∀ id', InForce id' s' → InForce id' s ∨ id' = id
  steps : s'.programSteps = s.programSteps

/-- A step to which no workpaper is linked is deleted. -/
structure Deleted (s : Db) (ctx : Ctx) (id : Uuid) (step : AuditProgramStep) (s₁ s₂ : Db) : Prop where
  plans : SamePlans s₁ s₂
  since : Quiet s s₁
  unlinked : (s.workpapers.count fun _ w => w.programStepId = some id) = 0
  row : ctx.findById s₁.programSteps id (fun _ => true) = some step
  rows : ∀ j, s₂.programSteps.find j = if j = id then none else s₁.programSteps.find j
  programs : s₂.programs = s₁.programs

/-- A call of an operation. -/
inductive Act (s : Db) : Operation → Db → Db → Prop where
  | keeps {o s₁ s₂} (h : Keeps s₁ s₂) : Act s o s₁ s₂
  | approved {ctx id s₁ s₂} (h : Approved id s₁ s₂) : Act s (.approve ctx id) s₁ s₂
  | deleted {ctx id step s₁ s₂} (h : Deleted s ctx id step s₁ s₂) : Act s (.deleteStep ctx id) s₁ s₂

theorem Keeps.of_eq {s s' : Db} (hplans : SamePlans s s') (hprograms : s'.programs = s.programs) (hsteps : s'.programSteps = s.programSteps) :
    Keeps s s' := by
  refine ⟨hplans, ?_, ?_⟩
  · unfold InForce
    rw [hprograms]
    exact fun _ => id
  · unfold HasStep
    rw [hsteps]
    exact fun _ => id

theorem Keeps.refl (s : Db) : Keeps s s := .of_eq ⟨rfl, rfl⟩ rfl rfl

theorem Keeps.of_quiet {s s' : Db} (h : Quiet s s') : Keeps s s' := by
  obtain ⟨auditTrail, notifications, rfl⟩ := h.eq
  exact .of_eq ⟨rfl, rfl⟩ rfl rfl

/-- Steps may be added, and the columns of a step change other than its programme. -/
theorem Keeps.of_steps {s s' : Db} (hplans : SamePlans s s') (hprograms : s'.programs = s.programs)
    (hrows : ∀ j step, s.programSteps.find j = some step →
      ∃ step', s'.programSteps.find j = some step' ∧ step'.programId = step.programId) : Keeps s s' := by
  refine ⟨hplans, ?_, ?_⟩
  · unfold InForce
    rw [hprograms]
    exact fun _ => id
  · rintro id ⟨j, step, hstep, rfl⟩
    obtain ⟨step', hstep', hprogram⟩ := hrows j step hstep
    exact ⟨j, step', hstep', hprogram⟩

/-! ### The writes -/

theorem countUsage_keeps {ctx : Ctx} {id : Uuid} {s s' : Db} {u : Unit} (h : (countUsage ctx id).run s = (.ok u, s')) :
    Keeps s s' := by
  obtain ⟨_, -, h⟩ := Prog.bind_eq_ok.mp (Prog.run_call_ok.mp h)
  cases h
  exact .of_eq ⟨rfl, rfl⟩ rfl rfl

theorem insertLibrarySteps_ok {ctx : Ctx} {programId : Uuid} {n : ℕ} {steps : List LibraryStepInput}
    {t t' : Table Uuid AuditProgramStep} (h : insertLibrarySteps ctx programId n steps t = .ok t') :
    ∀ j step, t.find j = some step → t'.find j = some step := by
  induction steps generalizing n t with
  | nil =>
    cases h
    exact fun _ _ => id
  | cons s steps ih =>
    intro j step hstep
    obtain ⟨t₁, ht₁, h⟩ := Prog.bind_eq_ok.mp h
    obtain ⟨hfresh, hrows⟩ := insertRow_ok ht₁
    refine ih h j step ?_
    rw [hrows, if_neg, hstep]
    rintro rfl
    rw [hfresh] at hstep
    cases hstep

theorem insertProgram_keeps {ctx : Ctx} {engagementId : Uuid} {dto : CreateProgramDto} {steps : List LibraryStepInput}
    {id : Uuid} {s s' : Db} {v : ProgramView}
    (h : (insertProgram ctx id (newProgram ctx engagementId dto) steps).run s = (.ok v, s')) : Keeps s s' := by
  have h := Prog.run_call_ok.mp h
  split at h
  · cases h
  obtain ⟨programs, hprograms, h⟩ := Prog.bind_eq_ok.mp h
  obtain ⟨programSteps, hsteps, h⟩ := Prog.bind_eq_ok.mp h
  cases h
  obtain ⟨-, hrows⟩ := insertRow_ok hprograms
  refine ⟨⟨rfl, rfl⟩, ?_, ?_⟩
  · rintro id' ⟨p, hp, hforce⟩
    dsimp only at hp
    rw [hrows] at hp
    split at hp
    · cases hp
      cases hforce
    · exact ⟨p, hp, hforce⟩
  · rintro id' ⟨j, step, hstep, hprogram⟩
    exact ⟨j, step, insertLibrarySteps_ok hsteps j step hstep, hprogram⟩

theorem approveRow_ok {ctx : Ctx} {id : Uuid} {s s' : Db} {v : ProgramView}
    (h : (approveRow ctx id).run s = (.ok v, s')) :
    SamePlans s s' ∧ (∀ id', InForce id' s' → InForce id' s ∨ id' = id) ∧ s'.programSteps = s.programSteps := by
  obtain ⟨⟨p', t⟩, ht, h⟩ := Prog.bind_eq_ok.mp (Prog.run_call_ok.mp h)
  dsimp only at h
  split at h
  · cases h
    obtain ⟨p, -, -, -, hrows⟩ := updateRow_ok ht
    refine ⟨⟨rfl, rfl⟩, ?_, rfl⟩
    rintro id' ⟨q, hq, hforce⟩
    dsimp only at hq
    rw [hrows] at hq
    split at hq
    · rename_i hid
      exact .inr hid
    · exact .inl ⟨q, hq, hforce⟩
  · cases h

/-- A programme in force that is put in progress is no new one. -/
theorem updateProgramStatus_keeps {ctx : Ctx} {id : Uuid} {status : ProgramStatus} {s s' : Db} {u : Unit}
    (hforce : InForce id s) (h : (updateProgramStatus ctx id status).run s = (.ok u, s')) : Keeps s s' := by
  obtain ⟨⟨p', t⟩, ht, h⟩ := Prog.bind_eq_ok.mp (Prog.run_call_ok.mp h)
  cases h
  obtain ⟨p, -, -, -, hrows⟩ := updateRow_ok ht
  refine ⟨⟨rfl, rfl⟩, ?_, fun _ h => h⟩
  rintro id' ⟨q, hq, hq'⟩
  dsimp only at hq
  rw [hrows] at hq
  split at hq
  · rename_i hid
    rwa [hid]
  · exact ⟨q, hq, hq'⟩

theorem deleteStepRow_ok {ctx : Ctx} {id : Uuid} {s s' : Db} {u : Unit} (h : (deleteStepRow ctx id).run s = (.ok u, s')) :
    SamePlans s s' ∧ s'.programs = s.programs ∧ (∃ step, ctx.findById s.programSteps id (fun _ => true) = some step) ∧
      ∀ j, s'.programSteps.find j = if j = id then none else s.programSteps.find j := by
  have h := Prog.run_call_ok.mp h
  split at h
  · cases h
  rename_i hfound
  obtain ⟨step, hstep⟩ := Option.ne_none_iff_exists'.mp (by simpa using hfound)
  cases h
  refine ⟨⟨rfl, rfl⟩, rfl, ⟨step, hstep⟩, fun j => ?_⟩
  dsimp only
  rw [Table.find_remove]
  cases s.programSteps.find j <;> by_cases hj : j = id <;> simp [hj]

/-- The steps are numbered, and stay where they are. -/
theorem renumber_keeps (ctx : Ctx) (n : ℕ) (ids : List Uuid) {s s' : Db} {u : Unit}
    (h : (renumber ctx n ids).run s = (.ok u, s')) : SamePlans s s' ∧ s'.programs = s.programs ∧
      ∀ j step, s.programSteps.find j = some step →
        ∃ step', s'.programSteps.find j = some step' ∧ step'.programId = step.programId := by
  induction ids generalizing n s with
  | nil =>
    cases h
    exact ⟨⟨rfl, rfl⟩, rfl, fun j step hstep => ⟨step, hstep, rfl⟩⟩
  | cons id ids ih =>
    obtain ⟨u₁, s₁, h₁, h⟩ := Prog.run_bind_ok.mp h
    obtain ⟨⟨step', t⟩, ht, h₁⟩ := Prog.bind_eq_ok.mp (Prog.run_call_ok.mp h₁)
    cases h₁
    obtain ⟨hplans, hprograms, hrest⟩ := ih (n + 1) h
    obtain ⟨before, hbefore, -, hchange, hrows⟩ := updateRow_ok ht
    cases hchange
    refine ⟨hplans, hprograms, fun j step hstep => ?_⟩
    by_cases hj : j = id
    · subst hj
      rw [hbefore, Option.some.injEq] at hstep
      obtain ⟨step', hstep', hprogram⟩ := hrest j _ ((hrows j).trans (if_pos rfl))
      exact ⟨step', hstep', by rw [hprogram, ← hstep]⟩
    · exact hrest j step (by rw [hrows, if_neg hj, hstep])

/-! ### The operations -/

/-- A call that fails changes nothing. -/
theorem meets_call_keeps {α β : Type} {f : Db → Except HttpError (α × Db)} {k : α → Service β} {s : Db}
    {G : Db → Db → Prop} {Q : Except HttpError β → Db → Prop} (hrefl : ∀ a, G a a) (herror : ∀ e s', Q (.error e) s')
    (hok : ∀ s₁ s₂ a, Quiet s s₁ → (Prog.call f).run s₁ = (.ok a, s₂) → G s₁ s₂ ∧ (k a).Meets Quiet G Q s₂) :
    (Prog.call f >>= k).Meets Quiet G Q s := by
  rw [Prog.meets_bind]
  refine Prog.meets_of_call fun s₁ h₁ r s₂ hrun => ?_
  rcases r with e | a
  · rw [Prog.atomic_call _ _ _ _ hrun]
    exact ⟨hrefl s₁, herror e s₁⟩
  · exact hok s₁ s₂ a h₁ hrun

/-- What records and tells what was done makes no difference. -/
theorem meets_quiet {α : Type} {p : Service α} (hp : p.Within Quiet) (s : Db) :
    p.Meets Quiet Keeps (fun _ _ => True) s :=
  (hp.meets (fun _ _ => Keeps.of_quiet) (fun _ _ => id) Quiet.refl (fun _ _ _ => Quiet.trans) s).mono fun _ _ _ => trivial

theorem librarySteps_meets (ctx : Ctx) (libraryItemId : Field Uuid) (s : Db) :
    (librarySteps ctx libraryItemId).Meets Quiet Keeps (fun _ _ => True) s := by
  unfold librarySteps
  split
  · trivial
  rw [Prog.meets_read_bind]
  refine fun s₁ _ => ⟨.refl s₁, ?_⟩
  split
  · trivial
  dsimp only
  rw [Prog.meets_ite]
  split
  · trivial
  split
  · trivial
  · exact meets_call_keeps Keeps.refl (fun _ _ => trivial) fun _ _ _ _ hrun => ⟨countUsage_keeps hrun, trivial⟩

theorem create_meets (ctx : Ctx) (engagementId : Uuid) (dto : CreateProgramDto) (s : Db) :
    (create ctx engagementId dto).Meets Quiet Keeps (fun _ _ => True) s := by
  unfold create
  rw [Prog.meets_read_bind]
  refine fun s₁ _ => ⟨.refl s₁, ?_⟩
  split
  · trivial
  rw [Prog.meets_ite]
  split
  · trivial
  rw [Prog.meets_bind]
  refine (librarySteps_meets ctx dto.libraryItemId s₁).mono ?_
  rintro (e | steps) s₂ -
  · trivial
  exact meets_call_keeps Keeps.refl (fun _ _ => trivial) fun _ s₄ _ _ hrun => ⟨insertProgram_keeps hrun,
    meets_quiet ((auditRecord_quiet ctx _ _ _).bind fun _ => Prog.within_pure _) s₄⟩

theorem approve_meets (ctx : Ctx) (id : Uuid) (s : Db) :
    (approve ctx id).Meets Quiet (Act s (.approve ctx id)) (fun _ _ => True) s := by
  have hrefl : ∀ a, Act s (.approve ctx id) a a := fun a => .keeps (.refl a)
  unfold approve
  rw [Prog.meets_bind]
  refine (assertProgram_meets hrefl ctx id s).mono ?_
  rintro (e | program) s₀ -
  · trivial
  dsimp only
  rw [Prog.meets_ite]
  split
  · trivial
  rw [Prog.meets_read_bind]
  refine fun s₁ _ => ⟨hrefl s₁, ?_⟩
  rw [Prog.meets_ite]
  split
  · trivial
  rename_i hcount
  obtain ⟨j, step, hstep, -, hprogram⟩ := Ctx.count_ne_zero_iff.mp hcount
  refine meets_call_keeps hrefl (fun _ _ => trivial) fun s₂ s₃ _ h₂ hrun => ?_
  obtain ⟨hplans, hforce, hsteps⟩ := approveRow_ok hrun
  obtain ⟨auditTrail, notifications, rfl⟩ := h₂.eq
  refine ⟨.approved ⟨hplans, ⟨j, step, hstep, by simpa using hprogram⟩, hforce, hsteps⟩, ?_⟩
  refine (meets_quiet ?_ s₃).mono_step fun _ _ => .keeps
  refine (auditRecord_quiet ctx _ _ _).bind fun _ => ?_
  refine Prog.Within.bind ((Prog.within_read _ Quiet.refl).bind fun _ => notify_quiet ctx _ _) fun _ => ?_
  exact Prog.within_pure _

/-- The programme is put in progress, perhaps, and the change is recorded and told. -/
theorem finish_keeps {α : Type} (c : Prop) [Decidable c] (ctx : Ctx) (programId : Uuid) (action targetType : String)
    (id : Uuid) (assigneeId : Option Uuid) (reference objective : String) (engagementId : Uuid) (a : α) (s : Db)
    (hforce : c → InForce programId s) :
    (do
      if c then updateProgramStatus ctx programId .inProgress else pure ()
      auditRecord ctx action targetType id
      notifyAssignee ctx assigneeId reference objective engagementId
      pure a : Service α).Meets Quiet Keeps (fun _ _ => True) s := by
  have hrest : (do
      auditRecord ctx action targetType id
      notifyAssignee ctx assigneeId reference objective engagementId
      pure a : Service α).Within Quiet :=
    (auditRecord_quiet ctx _ _ _).bind fun _ => (notify_quiet ctx _ _).bind fun _ => Prog.within_pure _
  dsimp only
  rw [Prog.meets_ite]
  split
  · rename_i hc
    refine meets_call_keeps Keeps.refl (fun _ _ => trivial) fun s₁ s₂ _ h₁ hrun => ⟨?_, meets_quiet hrest s₂⟩
    obtain ⟨auditTrail, notifications, rfl⟩ := h₁.eq
    exact updateProgramStatus_keeps (hforce hc) hrun
  · exact meets_quiet hrest s

theorem addStep_keeps (ctx : Ctx) (programId : Uuid) (dto : CreateStepDto) (s : Db) :
    (addStep ctx programId dto).Meets Quiet Keeps (fun _ _ => True) s := by
  unfold addStep
  rw [Prog.meets_bind]
  refine (assertProgram_meets Keeps.refl ctx programId s).mono ?_
  rintro (e | program) s₀ ⟨-, hread⟩
  · trivial
  dsimp only
  rw [Prog.meets_ite]
  split
  · trivial
  rw [Prog.meets_read_bind]
  refine fun s₁ h₁ => ⟨.refl s₁, ?_⟩
  rw [Prog.meets_ite]
  split
  · trivial
  rw [Prog.meets_bind]
  have hsort : (nextSortOrder ctx programId dto.sortOrder).Meets Quiet Keeps (fun _ s' => Quiet s₁ s') s₁ := by
    unfold nextSortOrder
    split
    · exact Quiet.refl s₁
    · rw [Prog.meets_read]
      exact fun s' hs' => ⟨.refl s', hs'⟩
  refine hsort.mono ?_
  rintro (e | sortOrder) s₂ h₂
  · trivial
  refine meets_call_keeps Keeps.refl (fun _ _ => trivial) fun s₃ s₄ v h₃ hrun => ?_
  obtain ⟨-, hfresh, hrows, hrest⟩ := insertStep_ok hrun
  have hprograms : s₄.programs = s₀.programs := by
    obtain ⟨auditTrail, notifications, rfl⟩ := ((h₁.trans h₂).trans h₃).eq
    rw [hrest]
  refine ⟨.of_steps (by rw [hrest]; exact ⟨rfl, rfl⟩) (by rw [hrest]) fun j step hstep => ⟨step, ?_, rfl⟩, finish_keeps _ ctx _ _ _ _ _ _ _ _ _ s₄ ?_⟩
  · rw [hrows, if_neg, hstep]
    rintro rfl
    rw [hfresh] at hstep
    cases hstep
  · intro happroved
    refine ⟨program, ?_, by rw [happroved]; rfl⟩
    rw [hprograms]
    exact (Ctx.findById_eq_some.mp (hread program rfl)).1

theorem applyStep_programId {dto : UpdateStepDto} {step step' : AuditProgramStep} (h : dto.apply step = .ok step') :
    step'.programId = step.programId := by
  unfold UpdateStepDto.apply at h
  split at h
  · cases h
    rfl
  · cases h

theorem updateStep_keeps (ctx : Ctx) (id : Uuid) (dto : UpdateStepDto) (s : Db) :
    (updateStep ctx id dto).Meets Quiet Keeps (fun _ _ => True) s := by
  unfold updateStep
  rw [Prog.meets_read_bind]
  refine fun s₀ _ => ⟨.refl s₀, ?_⟩
  split
  · trivial
  rename_i before program hread
  obtain ⟨step₀, -, hread⟩ := Option.bind_eq_some_iff.mp hread
  obtain ⟨program₀, hprogram, hread⟩ := Option.bind_eq_some_iff.mp hread
  cases hread
  rw [Prog.meets_bind]
  have hfree : (assertReferenceFree ctx id before dto.reference).Meets Quiet Keeps (fun _ s' => Quiet s₀ s') s₀ := by
    unfold assertReferenceFree
    split
    · exact Quiet.refl s₀
    rw [Prog.meets_ite]
    split
    · exact Quiet.refl s₀
    rw [Prog.meets_read_bind]
    refine fun s' hs' => ⟨.refl s', ?_⟩
    rw [Prog.meets_ite]
    split <;> exact hs'
  refine hfree.mono ?_
  rintro (e | u) s₁ h₁
  · trivial
  refine meets_call_keeps Keeps.refl (fun _ _ => trivial) fun s₂ s₃ v h₂ hrun => ?_
  obtain ⟨step, step', hfind, -, hchange, -, hrows, hrest⟩ := updateStepRow_ok hrun
  have hprograms : s₃.programs = s₀.programs := by
    obtain ⟨auditTrail, notifications, rfl⟩ := (h₁.trans h₂).eq
    rw [hrest]
  refine ⟨.of_steps (by rw [hrest]; exact ⟨rfl, rfl⟩) (by rw [hrest]) fun j row hrow => ?_, finish_keeps _ ctx _ _ _ _ _ _ _ _ _ s₃ ?_⟩
  · rw [hrows]
    split
    · rename_i hj
      subst hj
      rw [hfind, Option.some.injEq] at hrow
      exact ⟨step', rfl, by rw [applyStep_programId hchange, hrow]⟩
    · exact ⟨row, hrow, rfl⟩
  · intro hstarts
    unfold startsProgram at hstarts
    rw [Bool.and_eq_true, decide_eq_true_eq] at hstarts
    exact ⟨program, by rw [hprograms]; exact hprogram, by rw [hstarts.2]; rfl⟩

theorem deleteStep_meets (ctx : Ctx) (id : Uuid) (s : Db) :
    (deleteStep ctx id).Meets Quiet (Act s (.deleteStep ctx id)) (fun _ _ => True) s := by
  have hrefl : ∀ a, Act s (.deleteStep ctx id) a a := fun a => .keeps (.refl a)
  unfold deleteStep
  rw [Prog.meets_read_bind]
  refine fun s₀ h₀ => ⟨hrefl s₀, ?_⟩
  split
  · trivial
  rename_i before workpapers hread
  rw [Prog.meets_ite]
  split
  · trivial
  rename_i hunlinked
  refine meets_call_keeps hrefl (fun _ _ => trivial) fun s₁ s₂ _ h₁ hrun => ?_
  obtain ⟨hplans, hprograms, ⟨step, hstep⟩, hrows⟩ := deleteStepRow_ok hrun
  have hcount : (s.workpapers.count fun _ w => w.programStepId = some id) = 0 := by
    obtain ⟨_, -, heq⟩ := Option.map_eq_some_iff.mp hread
    obtain ⟨auditTrail, notifications, rfl⟩ := h₀.eq
    rw [Nat.not_lt, Nat.le_zero, ← (Prod.mk.inj heq).2] at hunlinked
    exact hunlinked
  exact ⟨.deleted ⟨hplans, h₀.trans h₁, hcount, hstep, hrows, hprograms⟩, (meets_quiet (auditRecord_quiet ctx _ _ _) s₂).mono_step fun _ _ => .keeps⟩

theorem reorder_meets (ctx : Ctx) (programId : Uuid) (stepIds : List Uuid) (s : Db) :
    (reorder ctx programId stepIds).Meets Quiet Keeps (fun _ _ => True) s := by
  unfold reorder
  rw [Prog.meets_bind]
  refine (assertProgram_meets Keeps.refl ctx programId s).mono ?_
  rintro (e | program) s₀ -
  · trivial
  dsimp only
  rw [Prog.meets_read_bind]
  refine fun s₁ _ => ⟨.refl s₁, ?_⟩
  rw [Prog.meets_ite]
  split
  · trivial
  refine meets_call_keeps Keeps.refl (fun _ _ => trivial) fun s₂ s₃ _ _ hrun => ?_
  obtain ⟨hplans, hprograms, hrows⟩ := renumber_keeps ctx _ _ (Prog.run_transaction_ok.mp hrun)
  refine ⟨.of_steps hplans hprograms hrows, meets_quiet ?_ s₃⟩
  exact (auditRecord_quiet ctx _ _ _).bind fun _ => Prog.within_read _ Quiet.refl

theorem createWorkpaper_keeps (ctx : Ctx) (engagementId : Uuid) (dto : Workpapers.CreateWorkpaperDto) (s : Db) :
    (Workpapers.create ctx engagementId dto).Meets Quiet Keeps (fun _ _ => True) s := by
  have hR : Workpapers.Interference fun _ _ => True := ⟨fun _ => trivial, fun _ _ => trivial, fun _ => trivial⟩
  refine (((Workpapers.create_meets hR ctx engagementId dto s).mono fun _ _ _ => trivial).mono_rely
    fun _ _ _ => trivial).mono_step ?_
  rintro a b (haside | hcommit)
  · refine .of_steps (by rw [haside.rest]; exact ⟨rfl, rfl⟩) (by rw [haside.rest]) fun j step hstep => ?_
    have hkept := haside.steps j
    rw [hstep] at hkept
    obtain ⟨step', hstep', heq⟩ := Option.map_eq_some_iff.mp hkept
    rw [AuditProgramStep.mk.injEq] at heq
    exact ⟨step', hstep', heq.2.1⟩
  · cases hcommit with
    | create hcreated => exact .of_eq (by rw [hcreated.rest]; exact ⟨rfl, rfl⟩) (by rw [hcreated.rest]) (by rw [hcreated.rest])

theorem createWorkpaperFromStep_meets (ctx : Ctx) (stepId : Uuid) (s : Db) :
    (createWorkpaperFromStep ctx stepId).Meets Quiet Keeps (fun _ _ => True) s := by
  unfold createWorkpaperFromStep
  rw [Prog.meets_read_bind]
  refine fun s₀ _ => ⟨.refl s₀, ?_⟩
  split
  · trivial
  rw [Prog.meets_read_bind]
  refine fun s₁ _ => ⟨.refl s₁, ?_⟩
  split
  · trivial
  rw [Prog.meets_read_bind]
  exact fun s₂ _ => ⟨.refl s₂, createWorkpaper_keeps ctx _ _ s₂⟩

/-- **What an operation does**, if nothing but what is quiet comes between its calls. -/
theorem perform_meets (o : Operation) (s : Db) : (perform o).Meets Quiet (Act s o) (fun _ _ => True) s := by
  have hanswer : ∀ {α : Type} {p : Service α} (f : α → Response), p.Meets Quiet (Act s o) (fun _ _ => True) s →
      (p >>= fun a => (pure (f a) : Service Response)).Meets Quiet (Act s o) (fun _ _ => True) s := by
    intro α p f h
    rw [Prog.meets_bind]
    refine h.mono ?_
    rintro (e | a) s' - <;> trivial
  have hguarded : ∀ {ctx : Ctx} {permission : PermissionKey} {p : Service Response},
      p.Meets Quiet (Act s o) (fun _ _ => True) s → (guarded ctx permission p).Meets Quiet (Act s o) (fun _ _ => True) s := by
    intro ctx permission p h
    unfold guarded
    rw [Prog.meets_ite]
    split
    · trivial
    · exact h
  cases o with
  | create ctx engagementId dto =>
    exact hguarded (hanswer .program ((create_meets ctx engagementId dto s).mono_step fun _ _ => .keeps))
  | approve ctx id => exact hguarded (hanswer .program (approve_meets ctx id s))
  | edit r =>
    refine hanswer .step ?_
    unfold serve
    rw [Prog.meets_ite]
    split
    · trivial
    cases r with
    | addStep ctx programId dto => exact (addStep_keeps ctx programId dto s).mono_step fun _ _ => .keeps
    | updateStep ctx id dto => exact (updateStep_keeps ctx id dto s).mono_step fun _ _ => .keeps
  | deleteStep ctx id => exact hguarded (hanswer (fun _ => .deleted) (deleteStep_meets ctx id s))
  | reorder ctx programId stepIds =>
    exact hguarded (hanswer .reordered ((reorder_meets ctx programId stepIds s).mono_step fun _ _ => .keeps))
  | createWorkpaper ctx stepId =>
    exact hguarded (hanswer .workpaper ((createWorkpaperFromStep_meets ctx stepId s).mono_step fun _ _ => .keeps))

end AuditSphere.Programs
