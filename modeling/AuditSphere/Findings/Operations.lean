import AuditSphere.Findings.Lifecycle
import AuditSphere.Findings.Requests

/-!
# What an operation does to findings

Each operation makes one call that matters, its commit (`Committed`): it creates or edits
a finding, moves it by a transition, extends its due date, or adds or edits a
recommendation. `perform_meets` says so for any interference by others; `perform_effect`
is the form for operations that are served one after another, where the row that is
written is the row that was read.
-/

namespace AuditSphere.Findings

open Prisma Theory Shared

/-! ### Commits -/

/-- An action owner is named: a user, or a name or an e-mail address that is not blank. -/
def hasOwner (f : Finding) : Bool :=
  f.actionOwnerId.isSome || !isBlank f.actionOwnerName || !isBlank f.actionOwnerEmail

/-- What a guard of the workflow says of a finding in a state. -/
def guardHolds (ctx : Ctx) (id : Uuid) (f : Finding) (guard : String) (db : Db) : Prop :=
  match guard with
  | "has_condition_criteria" => isBlank f.condition = false ∧ isBlank f.criteria = false
  | "has_recommendation" =>
    isBlank f.recommendation = false ∨ 0 < ctx.count db.recommendations fun _ r => r.findingId = id
  | "has_management_response" => isBlank f.managementResponse = false
  | "has_action_owner_and_due_date" => hasOwner f = true ∧ f.dueDate.isSome = true
  | "validator_is_not_action_owner" => f.actionOwnerId ≠ some ctx.userId
  | _ => True

/-- The recommendation is one that a transition of the finding changes. -/
def openFor (ctx : Ctx) (findingId : Uuid) (r : Recommendation) : Bool :=
  ctx.sees r && r.findingId = findingId && r.status ∉ [.superseded, .validated]

/-- A recommendation after a transition of a finding. -/
def recommendationAfter (ctx : Ctx) (findingId : Uuid) (t : Transition FindingStatus) (r : Recommendation) :
    Recommendation :=
  match recommendationChange ctx t with
  | none => r
  | some f => if openFor ctx findingId r then f r else r

/-- A transition: the row `finding` was read, its transition `t` checked, the row `f` is moved. -/
structure Moved (R : Db → Db → Prop) (s : Db) (ctx : Ctx) (id : Uuid) (dto : TransitionDto)
    (t : Transition FindingStatus) (finding f : Finding) (s₁ s₂ : Db) : Prop where
  read : ∃ s₀, R s s₀ ∧ R s₀ s₁ ∧ ctx.findById s₀.findings id (·.deletedAt.isNone) = some finding
  declared : findTransition findingWorkflow finding.status dto.action = some t
  permitted : t.permission ∈ ctx.permissions
  guards : ∀ guard ∈ t.guards ++ extraGuardsFor dto.action,
    ∃ sg, R s sg ∧ R sg s₁ ∧ guardHolds ctx id finding guard sg
  row : s₁.findings.find id = some f
  sees : ctx.sees f = true
  admitted : constrained s₁ id (transitioned ctx t finding f) = .ok ()
  rows : ∀ j, s₂.findings.find j = if j = id then some (transitioned ctx t finding f) else s₁.findings.find j
  appended : s₂.findingHistory.entries = (ctx.uuid 0, statusEntry ctx id dto t finding) :: s₁.findingHistory.entries
  recommendations : ∀ j, s₂.recommendations.find j = (s₁.recommendations.find j).map (recommendationAfter ctx id t)
  rest : s₂ = { s₁ with
    findings := s₂.findings, findingHistory := s₂.findingHistory, recommendations := s₂.recommendations }

/-- An extension: the row `before` was read and checked, the row `f` is extended. -/
structure Extended (R : Db → Db → Prop) (s : Db) (ctx : Ctx) (id : Uuid) (dto : ExtendFindingDto)
    (before f : Finding) (s₁ s₂ : Db) : Prop where
  read : ∃ s₀, R s s₀ ∧ R s₀ s₁ ∧ ctx.findById s₀.findings id (·.deletedAt.isNone) = some before
  actionable : before.status ∈ actionableStatuses
  later : before.dueDate.all (· < dto.dueDate) = true
  row : s₁.findings.find id = some f
  sees : ctx.sees f = true
  admitted : constrained s₁ id (extended dto before f) = .ok ()
  rows : ∀ j, s₂.findings.find j = if j = id then some (extended dto before f) else s₁.findings.find j
  rest : s₂ = { s₁ with findings := s₂.findings }

/-- A new recommendation of a finding that was read. -/
structure RecommendationAdded (R : Db → Db → Prop) (s : Db) (ctx : Ctx) (findingId : Uuid)
    (dto : CreateRecommendationDto) (finding : Finding) (sequence : ℕ) (s₁ s₂ : Db) : Prop where
  read : ∃ s₀, R s s₀ ∧ R s₀ s₁ ∧ ctx.findById s₀.findings findingId (·.deletedAt.isNone) = some finding
  opened : finding.status ≠ .closed ∧ finding.status ≠ .riskAccepted
  admitted : recommendationConstrained s₁ (newRecommendation ctx findingId dto finding sequence) = .ok ()
  fresh : s₁.recommendations.find (ctx.uuid 0) = none
  rows : ∀ j, s₂.recommendations.find j =
    if j = ctx.uuid 0 then some (newRecommendation ctx findingId dto finding sequence)
    else s₁.recommendations.find j
  rest : s₂ = { s₁ with recommendations := s₂.recommendations }

/-- A changed recommendation: the row `before` was read, with its finding, and the row `r` is changed. -/
structure RecommendationChanged (R : Db → Db → Prop) (s : Db) (ctx : Ctx) (id : Uuid)
    (dto : UpdateRecommendationDto) (before : Recommendation) (finding : Finding) (r r' : Recommendation)
    (s₁ s₂ : Db) : Prop where
  read : ∃ s₀, R s s₀ ∧ R s₀ s₁ ∧ s₀.recommendations.find id = some before ∧
    s₀.findings.find before.findingId = some finding
  editable : assertRecommendationEditable ctx before finding dto = .ok ()
  row : s₁.recommendations.find id = some r
  sees : ctx.sees r = true
  change : dto.apply ctx before r = .ok r'
  rows : ∀ j, s₂.recommendations.find j = if j = id then some r' else s₁.recommendations.find j
  rest : s₂ = { s₁ with recommendations := s₂.recommendations }

/-- The one call of an operation that matters. -/
inductive Committed (R : Db → Db → Prop) (s : Db) : Operation → Db → Db → Prop where
  | edit {r s₁ s₂} (h : Commit R s r s₁ s₂) : Committed R s (.edit r) s₁ s₂
  | transition {ctx id dto t finding f s₁ s₂} (h : Moved R s ctx id dto t finding f s₁ s₂) :
    Committed R s (.transition ctx id dto) s₁ s₂
  | extend {ctx id dto before f s₁ s₂} (h : Extended R s ctx id dto before f s₁ s₂) :
    Committed R s (.extend ctx id dto) s₁ s₂
  | addRecommendation {ctx findingId dto finding sequence s₁ s₂}
    (h : RecommendationAdded R s ctx findingId dto finding sequence s₁ s₂) :
    Committed R s (.addRecommendation ctx findingId dto) s₁ s₂
  | updateRecommendation {ctx id dto before finding r r' s₁ s₂}
    (h : RecommendationChanged R s ctx id dto before finding r r' s₁ s₂) :
    Committed R s (.updateRecommendation ctx id dto) s₁ s₂

/-- A call of an operation. -/
def OperationCall (R : Db → Db → Prop) (s : Db) (o : Operation) (s₁ s₂ : Db) : Prop :=
  Quiet s₁ s₂ ∨ Committed R s o s₁ s₂

/-! ### The writes -/

theorem insertStatusEntry_ok {id : Uuid} {h : FindingStatusHistory} {s s' : Db}
    (hrun : (insertStatusEntry id h).run s = (.ok (), s')) :
    s'.findingHistory.entries = (id, h) :: s.findingHistory.entries ∧
      s' = { s with findingHistory := s'.findingHistory } := by
  have hrun := Prog.run_call_ok.mp hrun
  split at hrun
  · obtain ⟨t, ht, hrun⟩ := Prog.bind_eq_ok.mp hrun
    cases hrun
    exact ⟨insertRow_entries ht, rfl⟩
  · cases hrun

theorem updateRecommendations_ok {ctx : Ctx} {id : Uuid} {t : Transition FindingStatus} {s s' : Db}
    (hrun : (updateRecommendations ctx id (recommendationChange ctx t)).run s = (.ok (), s')) :
    (∀ j, s'.recommendations.find j = (s.recommendations.find j).map (recommendationAfter ctx id t)) ∧
      s' = { s with recommendations := s'.recommendations } := by
  unfold updateRecommendations at hrun
  cases hchange : recommendationChange ctx t with
  | none =>
    rw [hchange] at hrun
    cases hrun
    refine ⟨fun j => ?_, rfl⟩
    cases s.recommendations.find j <;> simp [recommendationAfter, hchange]
  | some f =>
    rw [hchange] at hrun
    cases hrun
    refine ⟨fun j => (Table.find_modify _ _ _ j).trans ?_, rfl⟩
    congr 1
    funext r
    simp [recommendationAfter, hchange, openFor]

theorem insertRecommendation_ok {id : Uuid} {r : Recommendation} {s s' : Db} {v : RecommendationView}
    (hrun : (insertRecommendation id r).run s = (.ok v, s')) :
    recommendationConstrained s r = .ok () ∧ s.recommendations.find id = none ∧
      (∀ j, s'.recommendations.find j = if j = id then some r else s.recommendations.find j) ∧
      s' = { s with recommendations := s'.recommendations } := by
  obtain ⟨_, hc, hrun⟩ := Prog.bind_eq_ok.mp (Prog.run_call_ok.mp hrun)
  obtain ⟨t, ht, hrun⟩ := Prog.bind_eq_ok.mp hrun
  cases hrun
  obtain ⟨hfresh, hrows⟩ := insertRow_ok ht
  exact ⟨hc, hfresh, hrows, rfl⟩

theorem updateRecommendationRow_ok {ctx : Ctx} {id : Uuid} {g : Recommendation → Except HttpError Recommendation}
    {s s' : Db} {v : RecommendationView} (hrun : (updateRecommendationRow ctx id g).run s = (.ok v, s')) :
    ∃ r r', s.recommendations.find id = some r ∧ ctx.sees r = true ∧ g r = .ok r' ∧
      (∀ j, s'.recommendations.find j = if j = id then some r' else s.recommendations.find j) ∧
      s' = { s with recommendations := s'.recommendations } := by
  obtain ⟨⟨r', t⟩, ht, hrun⟩ := Prog.bind_eq_ok.mp (Prog.run_call_ok.mp hrun)
  obtain ⟨_, -, hrun⟩ := Prog.bind_eq_ok.mp hrun
  cases hrun
  obtain ⟨r, hfind, hsees, hg, hrows⟩ := updateRow_ok ht
  exact ⟨r, r', hfind, hsees, hg, hrows, rfl⟩

/-- What the transaction of a transition does. -/
theorem transitionTransaction_ok {ctx : Ctx} {id : Uuid} {dto : TransitionDto} {t : Transition FindingStatus}
    {finding : Finding} {s s' : Db} {v : FindingView}
    (hrun : (transitionTransaction ctx id dto t finding).run s = (.ok v, s')) :
    ∃ f, s.findings.find id = some f ∧ ctx.sees f = true ∧
      constrained s id (transitioned ctx t finding f) = .ok () ∧
      (∀ j, s'.findings.find j = if j = id then some (transitioned ctx t finding f) else s.findings.find j) ∧
      s'.findingHistory.entries = (ctx.uuid 0, statusEntry ctx id dto t finding) :: s.findingHistory.entries ∧
      (∀ j, s'.recommendations.find j = (s.recommendations.find j).map (recommendationAfter ctx id t)) ∧
      s' = { s with
        findings := s'.findings, findingHistory := s'.findingHistory, recommendations := s'.recommendations } := by
  obtain ⟨_, s₁, hf, hrun⟩ := Prog.run_bind_ok.mp (Prog.run_transaction_ok.mp hrun)
  obtain ⟨_, s₂, hh, hrun⟩ := Prog.run_bind_ok.mp hrun
  obtain ⟨_, s₃, hr, hrun⟩ := Prog.run_bind_ok.mp hrun
  cases hrun
  obtain ⟨f, f', hfind, hsees, hchange, hc, -, hrows, hrest₁⟩ := updateFinding_ok hf
  cases hchange
  obtain ⟨happended, hrest₂⟩ := insertStatusEntry_ok hh
  obtain ⟨hrecommendations, hrest₃⟩ := updateRecommendations_ok hr
  refine ⟨f, hfind, hsees, hc, fun j => ?_, ?_, fun j => ?_, ?_⟩
  · rw [hrest₃, hrest₂]
    exact hrows j
  · rw [hrest₃]
    dsimp only
    rw [happended, hrest₁]
  · rw [hrecommendations, hrest₂, hrest₁]
  · rw [hrest₃, hrest₂, hrest₁]

/-! ### The methods -/

/-- The guards that the transitions name. -/
theorem findingWorkflow_guards : ∀ t ∈ findingWorkflow.transitions, ∀ guard ∈ t.guards,
    guard ∈ ["has_condition_criteria", "has_recommendation", "has_management_response",
      "has_action_owner_and_due_date", "has_implementation_evidence"] := by
  decide

theorem afterTransition_quiet (ctx : Ctx) (id : Uuid) (dto : TransitionDto) (finding updated : Finding)
    (t : Transition FindingStatus) : (afterTransition ctx id dto finding updated t).Within Quiet := by
  have hrecipients : (recipients ctx finding t).Within Quiet := by
    unfold recipients
    refine Prog.Within.ite ?_ ?_
    · exact (Prog.within_read _ Quiet.refl).bind fun _ => Prog.within_pure _
    · exact (Prog.within_pure _).bind fun _ => Prog.within_pure _
  exact (auditRecord_quiet ctx _ _ id).bind fun _ => hrecipients.bind fun users => notifyMany_quiet ctx users _

theorem Accessible.quiet {ctx : Ctx} {id : Uuid} {a b : Db} (h : Accessible ctx id a) (hq : Quiet a b) :
    Accessible ctx id b := by
  obtain ⟨auditTrail, notifications, rfl⟩ := hq.eq
  exact h

/-- What a transition does not change. -/
theorem transitioned_kept (ctx : Ctx) (t : Transition FindingStatus) (finding f : Finding) :
    let f' := transitioned ctx t finding f
    f'.tenantId = f.tenantId ∧ f'.engagementId = f.engagementId ∧ f'.deletedAt = f.deletedAt ∧
      f'.reference = f.reference ∧ f'.dueDate = f.dueDate ∧ f'.extensionCount = f.extensionCount ∧
      f'.managementResponse = f.managementResponse ∧ f'.actionOwnerId = f.actionOwnerId ∧
      f'.actionOwnerName = f.actionOwnerName ∧ f'.actionOwnerEmail = f.actionOwnerEmail ∧ f'.status = t.toState := by
  unfold transitioned
  dsimp only
  split <;> exact ⟨rfl, rfl, rfl, rfl, rfl, rfl, rfl, rfl, rfl, rfl, rfl⟩

/-- A user who may see a finding may see it after its transition. -/
theorem Moved.accessible {R : Db → Db → Prop} {s : Db} {ctx : Ctx} {id : Uuid} {dto : TransitionDto}
    {t : Transition FindingStatus} {finding f : Finding} {s₁ s₂ : Db} (h : Moved R s ctx id dto t finding f s₁ s₂)
    (haccess : Accessible ctx id s₁) : Accessible ctx id s₂ := by
  obtain ⟨f', hfound, hscope⟩ := haccess
  obtain ⟨hrow, hsees, hdeleted⟩ := Ctx.findById_eq_some.mp hfound
  rw [h.row, Option.some.injEq] at hrow
  subst hrow
  obtain ⟨htenant, hengagement, hdel, -, -, -, -, howner, -, hemail, -⟩ := transitioned_kept ctx t finding f
  refine ⟨transitioned ctx t finding f, Ctx.findById_eq_some.mpr ⟨?_, ?_, ?_⟩, ?_⟩
  · rw [h.rows, if_pos rfl]
  · rw [Ctx.sees_iff_tenant rfl] at hsees ⊢
    exact htenant.trans hsees
  · rw [hdel]
    exact hdeleted
  · have hengagements : s₂.engagements = s₁.engagements := by rw [h.rest]
    unfold ObjectAccess.findingScope ObjectAccess.directFindingOwnerScope at hscope ⊢
    rw [howner, hemail, hengagement, hengagements]
    exact hscope

/-- What is left of `transition` once it has read the row. -/
def proceed (ctx : Ctx) (id : Uuid) (dto : TransitionDto) (finding : Finding) : Service FindingResponse := do
  let t ← workflowTransition guardRegistry FindingStatus.text findingWorkflow finding.status
    ⟨(id, finding), ctx, dto.action, dto.comment.orNull⟩ (extraGuardsFor dto.action)
  let updated ← transitionTransaction ctx id dto t finding
  afterTransition ctx id dto finding updated.row.2 t
  get ctx id

theorem transition_eq (ctx : Ctx) (id : Uuid) (dto : TransitionDto) :
    transition ctx id dto = assertFinding ctx id >>= proceed ctx id dto := rfl

section Methods

variable {R G : Db → Db → Prop} (hR : Interference Quiet R)

include hR

/-- Each guard of the workflow is registered, and says what `guardHolds` says. -/
theorem guards_checked (hG : ∀ s, G s s) (ctx : Ctx) (id : Uuid) (f : Finding) (action : String)
    (comment : Option String) (t : Transition FindingStatus) (ht : t ∈ findingWorkflow.transitions)
    (guard : String) (hguard : guard ∈ t.guards ++ extraGuardsFor action) :
    ∃ fn, guardRegistry.get findingWorkflow.name guard = some fn ∧
      Checks R G (guardHolds ctx id f guard) (fn ⟨(id, f), ctx, action, t.fromState, t.toState, comment⟩) := by
  have hcases : guard = "has_condition_criteria" ∨ guard = "has_recommendation" ∨
      guard = "has_management_response" ∨ guard = "has_action_owner_and_due_date" ∨
      guard = "has_implementation_evidence" ∨ guard = validatorGuard := by
    rcases List.mem_append.mp hguard with h | h
    · have := findingWorkflow_guards t ht guard h
      simp only [List.mem_cons, List.not_mem_nil, or_false] at this
      tauto
    · unfold extraGuardsFor at h
      split at h
      · simp only [List.mem_singleton] at h
        simp [h]
      · cases h
  rcases hcases with rfl | rfl | rfl | rfl | rfl | rfl
  · refine ⟨_, rfl, checks_pure hR.refl fun h _ => ?_⟩
    simpa [guardHolds] using h
  · refine ⟨_, rfl, ?_⟩
    dsimp only
    split
    · rename_i hblank
      refine checks_pure hR.refl fun _ _ => .inl ?_
      simpa using hblank
    · refine checks_read hR.refl hG fun s h => .inr ?_
      simpa using h
  · refine ⟨_, rfl, checks_pure hR.refl fun h _ => ?_⟩
    simpa [guardHolds] using h
  · refine ⟨_, rfl, checks_pure hR.refl fun h _ => ?_⟩
    simpa [guardHolds, hasOwner] using h
  · refine ⟨_, rfl, fun s => ?_⟩
    rw [Prog.meets_read_bind]
    refine fun s₁ h₁ => ⟨hG s₁, ?_⟩
    rw [Prog.meets_read_bind]
    refine fun s₂ h₂ => ⟨hG s₂, ?_⟩
    rw [Prog.meets_read_bind]
    refine fun s₃ h₃ => ⟨hG s₃, ?_⟩
    have h03 := hR.trans _ _ _ h₁ (hR.trans _ _ _ h₂ h₃)
    exact ⟨_, rfl, h03, fun _ => ⟨s, hR.refl s, h03, trivial⟩⟩
  · refine ⟨_, rfl, checks_pure hR.refl fun h _ => ?_⟩
    dsimp only [guardHolds, validatorGuard]
    cases howner : f.actionOwnerId <;> simp_all

/-- The final query of a transition succeeds if the finding is there and others leave the tables alone. -/
theorem get_meets (hG : ∀ a b, Quiet a b → G a b) (ctx : Ctx) (id : Uuid) (s : Db) :
    (get ctx id).Meets R G (fun r s' => R s s' ∧
      ((∀ a b, R a b → Quiet a b) → Accessible ctx id s → ∃ a, r = .ok a)) s := by
  have hGrefl : ∀ s, G s s := fun s => hG _ _ (Quiet.refl s)
  unfold get
  rw [Prog.meets_bind]
  unfold ObjectAccess.assertFinding
  rw [Prog.meets_read_bind]
  refine fun s₀ h₀ => ⟨hGrefl s₀, ?_⟩
  rw [Prog.meets_ite]
  split
  · rename_i hcount
    exact ⟨h₀, fun hquiet haccess => absurd hcount (accessible_iff_count.mpr (haccess.quiet (hquiet _ _ h₀)))⟩
  rw [Prog.meets_pure]
  dsimp only
  rw [Prog.meets_bind]
  refine (meets_quiet hR (ObjectAccess.documentScope_quiet ctx) hG s₀).mono ?_
  rintro _ s₁ ⟨⟨scope, rfl⟩, h₁⟩
  have h01 := hR.trans _ _ _ h₀ h₁
  dsimp only
  rw [Prog.meets_read_bind]
  refine fun s₂ h₂ => ⟨hGrefl s₂, ?_⟩
  have h02 := hR.trans _ _ _ h01 h₂
  split
  · rename_i hnone
    refine ⟨h02, fun hquiet haccess => ?_⟩
    obtain ⟨f, hfound, -⟩ := haccess.quiet (hquiet _ _ h02)
    rw [hfound] at hnone
    cases hnone
  rename_i detailed hdetailed
  obtain ⟨f, hfound, rfl⟩ := Option.map_eq_some_iff.mp hdetailed
  rw [Prog.meets_read_bind]
  refine fun s₃ h₃ => ⟨hGrefl s₃, ?_⟩
  rw [Prog.meets_bind]
  refine (availableActions_meets hR.refl hR.trans (P := fun _ => guardHolds ctx id f)
    (fun t ht guard hguard => guards_checked hR hGrefl ctx id f t.action none t ht guard hguard) s₃).mono ?_
  rintro _ s₄ ⟨actions, rfl, h₄⟩
  exact ⟨hR.trans _ _ _ h02 (hR.trans _ _ _ h₃ h₄), fun _ _ => ⟨_, rfl⟩⟩

/-- **After the row has been read**: the transition of this row is committed, or nothing is. -/
theorem proceed_meets {ctx : Ctx} {id : Uuid} {dto : TransitionDto} {finding : Finding} {C : Db → Db → Prop} {s s₀ : Db}
    (h₀ : R s s₀) (hfound : ctx.findById s₀.findings id (·.deletedAt.isNone) = some finding)
    (haccess : ∃ sₐ, R sₐ s₀ ∧ Accessible ctx id sₐ) (hG : ∀ a b, Quiet a b → G a b) (hCG : ∀ a b, C a b → G a b)
    (hC : ∀ t f s₁ s₂, Moved R s ctx id dto t finding f s₁ s₂ → C s₁ s₂) :
    (proceed ctx id dto finding).Meets R G (Done Quiet R C s) s₀ := by
  have hGrefl : ∀ s, G s s := fun s => hG _ _ (Quiet.refl s)
  unfold proceed
  rw [Prog.meets_bind]
  refine (AuditSphere.transition_meets hR.refl hR.trans (P := guardHolds ctx id finding)
    (fun t ht guard hguard => guards_checked hR hGrefl ctx id finding dto.action dto.comment.orNull t ht guard hguard)
    s₀).mono ?_
  rintro (e | t) s₁ ⟨h₁, hpassed⟩
  · exact .failed e (hR.trans _ _ _ h₀ h₁)
  obtain ⟨hdeclared, hpermitted, hguards⟩ := hpassed t rfl
  have hmoves : ∀ s₂ s₃ v, R s₁ s₂ → (transitionTransaction ctx id dto t finding).run s₂ = (.ok v, s₃) →
      ∃ f, Moved R s ctx id dto t finding f s₂ s₃ := by
    intro s₂ s₃ v h₂ hrun
    obtain ⟨f, hfind, hsees, hc, hrows, happended, hrecommendations, hrest⟩ := transitionTransaction_ok hrun
    exact ⟨f, {
      read := ⟨s₀, h₀, hR.trans _ _ _ h₁ h₂, hfound⟩
      declared := hdeclared
      permitted := hpermitted
      guards := fun guard hguard => by
        obtain ⟨sg, hg₁, hg₂, hholds⟩ := hguards guard hguard
        exact ⟨sg, hR.trans _ _ _ h₀ hg₁, hR.trans _ _ _ hg₂ h₂, hholds⟩
      row := hfind
      sees := hsees
      admitted := hc
      rows := hrows
      appended := happended
      recommendations := hrecommendations
      rest := hrest }⟩
  dsimp only
  refine meets_commit hR (hR.trans _ _ _ h₀ h₁) hGrefl hCG ?_ ?_
  · intro s₂ s₃ v h₂ hrun
    obtain ⟨f, hmoved⟩ := hmoves s₂ s₃ v h₂ hrun
    exact hC t f s₂ s₃ hmoved
  intro s₂ s₃ v h₂ _ hrun
  obtain ⟨f, hmoved⟩ := hmoves s₂ s₃ v h₂ hrun
  obtain ⟨sₐ, hₐ, haccess⟩ := haccess
  rw [Prog.meets_bind]
  refine (meets_quiet hR (afterTransition_quiet ctx id dto finding v.row.2 t) hG s₃).mono ?_
  rintro _ s₄ ⟨⟨_, rfl⟩, h₄⟩
  refine (get_meets hR hG ctx id s₄).mono fun r s' ⟨h', hend⟩ => ?_
  refine ⟨hR.trans _ _ _ h₄ h', fun hquiet => hend hquiet ?_⟩
  refine (hmoved.accessible (haccess.quiet (hquiet _ _ ?_))).quiet (hquiet _ _ h₄)
  exact hR.trans _ _ _ hₐ (hR.trans _ _ _ h₁ h₂)

theorem transition_meets (ctx : Ctx) (id : Uuid) (dto : TransitionDto) (s : Db) :
    (transition ctx id dto).Meets R (OperationCall R s (.transition ctx id dto))
      (Done Quiet R (Committed R s (.transition ctx id dto)) s) s := by
  have hG : ∀ s', OperationCall R s (.transition ctx id dto) s' s' := fun s' => .inl (Quiet.refl s')
  rw [transition_eq, Prog.meets_bind]
  refine (assertFinding_meets hR hG ctx id s).mono ?_
  rintro (e | finding) s₀ ⟨h₀, hread⟩
  · exact .failed e h₀
  obtain ⟨hfound, sₐ, -, hsₐ, haccess⟩ := hread finding rfl
  exact proceed_meets hR h₀ hfound ⟨sₐ, hsₐ, haccess⟩ (fun _ _ => .inl) (fun _ _ => .inr) fun _ _ _ _ => .transition

theorem extend_meets (ctx : Ctx) (id : Uuid) (dto : ExtendFindingDto) (s : Db) :
    (extend ctx id dto).Meets R (OperationCall R s (.extend ctx id dto))
      (Done Quiet R (Committed R s (.extend ctx id dto)) s) s := by
  have hG : ∀ s', OperationCall R s (.extend ctx id dto) s' s' := fun s' => .inl (Quiet.refl s')
  unfold extend
  rw [Prog.meets_bind]
  refine (assertFinding_meets hR hG ctx id s).mono ?_
  rintro (e | before) s₀ ⟨h₀, hread⟩
  · exact .failed e h₀
  dsimp only
  rw [Prog.meets_ite]
  split
  · exact .failed _ h₀
  rename_i hactionable
  rw [Prog.meets_ite]
  split
  · exact .failed _ h₀
  rename_i hlater
  refine meets_commit hR h₀ hG (fun _ _ => .inr) ?_ ?_
  · intro s₁ s₂ v h₁ hrun
    obtain ⟨f, f', hfind, hsees, hchange, hc, -, hrows, hrest⟩ := updateFinding_ok hrun
    cases hchange
    exact .extend (show Extended R s ctx id dto before f s₁ s₂ from {
      read := ⟨s₀, h₀, h₁, (hread before rfl).1⟩
      actionable := not_not.mp hactionable
      later := by
        cases hdue : before.dueDate with
        | none => rfl
        | some d => simpa [hdue] using hlater
      row := hfind
      sees := hsees
      admitted := hc
      rows := hrows
      rest := hrest })
  · intro s₁ s₂ v _ _ _
    refine meets_answered hR ?_ (fun _ _ => .inl) s₂
    exact (auditRecord_quiet ctx _ _ _).bind fun _ => (notifyMany_quiet ctx _ _).bind fun _ => Prog.within_pure _

theorem addRecommendation_meets (ctx : Ctx) (findingId : Uuid) (dto : CreateRecommendationDto) (s : Db) :
    (addRecommendation ctx findingId dto).Meets R (OperationCall R s (.addRecommendation ctx findingId dto))
      (Done Quiet R (Committed R s (.addRecommendation ctx findingId dto)) s) s := by
  have hG : ∀ s', OperationCall R s (.addRecommendation ctx findingId dto) s' s' := fun s' => .inl (Quiet.refl s')
  unfold addRecommendation
  rw [Prog.meets_bind]
  refine (assertFinding_meets hR hG ctx findingId s).mono ?_
  rintro (e | finding) s₀ ⟨h₀, hread⟩
  · exact .failed e h₀
  dsimp only
  rw [Prog.meets_ite]
  split
  · exact .failed _ h₀
  rename_i hopened
  rw [Prog.meets_read_bind]
  refine fun s₁ h₁ => ⟨hG s₁, ?_⟩
  refine meets_commit hR (hR.trans _ _ _ h₀ h₁) hG (fun _ _ => .inr) ?_ ?_
  · intro s₂ s₃ v h₂ hrun
    obtain ⟨hc, hfresh, hrows, hrest⟩ := insertRecommendation_ok hrun
    exact .addRecommendation (show RecommendationAdded R s ctx findingId dto finding _ s₂ s₃ from {
      read := ⟨s₀, h₀, hR.trans _ _ _ h₁ h₂, (hread finding rfl).1⟩
      opened := not_or.mp hopened
      admitted := hc
      fresh := hfresh
      rows := hrows
      rest := hrest })
  · intro s₂ s₃ v _ _ _
    refine meets_answered hR ?_ (fun _ _ => .inl) s₃
    exact (auditRecord_quiet ctx _ _ _).bind fun _ => Prog.within_pure _

theorem updateRecommendation_meets (ctx : Ctx) (id : Uuid) (dto : UpdateRecommendationDto) (s : Db) :
    (updateRecommendation ctx id dto).Meets R (OperationCall R s (.updateRecommendation ctx id dto))
      (Done Quiet R (Committed R s (.updateRecommendation ctx id dto)) s) s := by
  have hG : ∀ s', OperationCall R s (.updateRecommendation ctx id dto) s' s' := fun s' => .inl (Quiet.refl s')
  unfold updateRecommendation
  rw [Prog.meets_read_bind]
  refine fun s₀ h₀ => ⟨hG s₀, ?_⟩
  split
  · exact .failed _ h₀
  rename_i before finding hread
  obtain ⟨r₀, hr₀, hread⟩ := Option.bind_eq_some_iff.mp hread
  obtain ⟨f₀, hf₀, heq⟩ := Option.bind_eq_some_iff.mp hread
  cases heq
  rw [Prog.meets_bind]
  refine (accessFinding_meets hG ctx before.findingId s₀).mono ?_
  rintro (e | _) s₁ ⟨h₁, -⟩
  · exact .failed e (hR.trans _ _ _ h₀ h₁)
  dsimp only
  split
  · exact .failed _ (hR.trans _ _ _ h₀ h₁)
  rename_i heditable
  refine meets_commit hR (hR.trans _ _ _ h₀ h₁) hG (fun _ _ => .inr) ?_ ?_
  · intro s₂ s₃ v h₂ hrun
    obtain ⟨r, r', hfind, hsees, hchange, hrows, hrest⟩ := updateRecommendationRow_ok hrun
    exact .updateRecommendation (show RecommendationChanged R s ctx id dto before finding r r' s₂ s₃ from {
      read := ⟨s₀, h₀, hR.trans _ _ _ h₁ h₂, (Ctx.findById_eq_some.mp hr₀).1, hf₀⟩
      editable := heditable
      row := hfind
      sees := hsees
      change := hchange
      rows := hrows
      rest := hrest })
  · intro s₂ s₃ v _ _ _
    refine meets_answered hR ?_ (fun _ _ => .inl) s₃
    exact (auditRecord_quiet ctx _ _ _).bind fun _ => (notify_quiet ctx _ _).bind fun _ => Prog.within_pure _

/-- **What an operation does**, whatever comes between its calls. -/
theorem perform_meets (o : Operation) (s : Db) :
    (perform o).Meets R (OperationCall R s o) (Done Quiet R (Committed R s o) s) s := by
  unfold perform
  rw [Prog.meets_ite]
  split
  · exact .failed _ (hR.refl s)
  cases o with
  | edit r =>
    refine meets_map (((serve_meets hR r s).mono_step ?_).mono ?_) _
    · intro a b h
      cases h with
      | quiet h => exact .inl h
      | create h => exact .inr (.edit (.create h))
      | update h => exact .inr (.edit (.update h))
    · rintro r' s' (h | ⟨s₁, s₂, h₁, hC, h₂⟩)
      · exact .inl h
      · exact .inr ⟨s₁, s₂, h₁, .edit hC, h₂⟩
  | transition ctx id dto => exact meets_map (transition_meets hR ctx id dto s) _
  | extend ctx id dto => exact meets_map (extend_meets hR ctx id dto s) _
  | addRecommendation ctx findingId dto => exact meets_map (addRecommendation_meets hR ctx findingId dto s) _
  | updateRecommendation ctx id dto => exact meets_map (updateRecommendation_meets hR ctx id dto s) _

end Methods

end AuditSphere.Findings
