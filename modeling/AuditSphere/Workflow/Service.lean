import AuditSphere.Db.Client

/-!
# The workflow service

`WorkflowService` and `GuardRegistry`: a transition must exist from the current
state, the actor must hold its permission, and each of its guards must pass. The
guards are looked up by the names of machine and guard, and may query the database.

`transition_meets` says what a transition that is returned has passed. A guard that
queries the database has passed at some moment of the request, which need not be
the moment at which the caller writes.
-/

namespace AuditSphere

open Theory Shared

/-- `TransitionDto`. -/
structure TransitionDto where
  action : String
  comment : Field String := none

/-- What a guard is given. -/
structure GuardContext (E S : Type) where
  /-- The record. -/
  entity : E
  /-- The user who asks. -/
  actor : Ctx
  /-- The action. -/
  action : String
  /-- The state that the action leaves. -/
  fromState : S
  /-- The state that it enters. -/
  toState : S
  /-- The comment, if any. -/
  comment : Option String

/-- What a guard answers; a bare boolean has no message. -/
structure GuardResult where
  /-- The guard passes. -/
  ok : Bool
  /-- What is to be told if it does not. -/
  message : Option String

/-- A guard. -/
abbrev GuardFn (E S : Type) := GuardContext E S → Service GuardResult

/-- The registered guards, by machine and name. -/
abbrev GuardRegistry (E S : Type) := List ((String × String) × GuardFn E S)

/-- Register a guard; it takes the place of an earlier one of that name. -/
def GuardRegistry.register {E S : Type} (registry : GuardRegistry E S) (machine guard : String) (fn : GuardFn E S) :
    GuardRegistry E S :=
  ((machine, guard), fn) :: registry

/-- The guard of that name. -/
def GuardRegistry.get {E S : Type} (registry : GuardRegistry E S) (machine guard : String) : Option (GuardFn E S) :=
  (registry.find? fun e => e.1 == (machine, guard)).map Prod.snd

/-- Turns `all_workpapers_signed_off` into `All workpapers signed off`. -/
def humanizeGuard (name : String) : String :=
  match name.toList.map fun c => if c = '_' then ' ' else c with
  | [] => ""
  | c :: cs => String.ofList (c.toUpper :: cs)

section Evaluate

variable {E S : Type} (registry : GuardRegistry E S) (machine : String) (g : GuardContext E S)

/-- Evaluate guards in turn; the failures are returned. -/
def evaluate : List String → Service (List GuardFailure)
  | [] => pure []
  | guard :: guards =>
    match registry.get machine guard with
    | none => throw (.internal ("Workflow guard \"" ++ guard ++ "\" is not configured"))
    | some fn => do
      let result ← fn g
      let failures ← evaluate guards
      pure (if result.ok then failures
        else ⟨guard, result.message.getD (humanizeGuard guard)⟩ :: failures)

end Evaluate

/-- Who asks for which action on what. -/
structure TransitionInput (E : Type) where
  entity : E
  actor : Ctx
  action : String
  comment : Option String

/-- What the guards of a transition are given. -/
def TransitionInput.context {E S : Type} (input : TransitionInput E) (t : Transition S) : GuardContext E S :=
  ⟨input.entity, input.actor, input.action, t.fromState, t.toState, input.comment⟩

/-- An action offered to a user. -/
structure AvailableAction (S : Type) where
  action : String
  label : String
  toState : S
  permission : PermissionKey
  /-- The user holds the permission. -/
  permitted : Bool
  /-- The user holds the permission and every guard passes. -/
  allowed : Bool
  failedGuards : List GuardFailure

section Workflow

variable {E S : Type} [DecidableEq S] (registry : GuardRegistry E S) (text : S → String)

/-- Validate a transition: it must exist (409), the actor must hold the permission
(403) and every guard must pass (422). -/
def workflowTransition (machine : StateMachine S) (current : S) (g : TransitionInput E) (extraGuards : List String) :
    Service (Transition S) :=
  match findTransition machine current g.action with
  | none => throw (.conflict ("Action \"" ++ g.action ++ "\" is not available from state " ++ text current))
  | some t =>
    if t.permission ∉ g.actor.permissions then throw (.forbidden s!"Missing permission: {t.permission.key}")
    else do
      let failed ← evaluate registry machine.name (g.context t) (t.guards ++ extraGuards)
      if failed ≠ [] then
        let messages := "; ".intercalate (failed.map GuardFailure.message)
        throw (.workflowGuard failed s!"Cannot {t.label.toLower}: {messages}")
      else pure t

/-- Every transition from the current state, with what stands in its way. -/
def workflowAvailableActions (machine : StateMachine S) (current : S) (actor : Ctx) (entity : E)
    (extraGuardsFor : Transition S → List String) : Service (List (AvailableAction S)) :=
  (machine.transitions.filter fun t => t.fromState = current).mapM fun t => do
    let permitted := actor.hasPermission t.permission
    let failedGuards ← evaluate registry machine.name ⟨entity, actor, t.action, t.fromState, t.toState, none⟩
      (t.guards ++ extraGuardsFor t)
    pure ⟨t.action, t.label, t.toState, t.permission, permitted, permitted && failedGuards.isEmpty, failedGuards⟩

end Workflow

/-! ### What has been checked -/

section Meets

variable {E S : Type} {registry : GuardRegistry E S} {machine : String} {g : GuardContext E S}
  {R G : Db → Db → Prop} (hrefl : ∀ s, R s s) (htrans : ∀ a b c, R a b → R b c → R a c)

/-- The guard runs to an answer, and if that is positive, `P` held at some moment. -/
def Checks (R G : Db → Db → Prop) (P : Db → Prop) (fn : Service GuardResult) : Prop :=
  ∀ s, fn.Meets R G (fun r s' => ∃ result, r = .ok result ∧ R s s' ∧
    (result.ok = true → ∃ s₁, R s s₁ ∧ R s₁ s' ∧ P s₁)) s

include hrefl htrans

omit htrans in
/-- A guard that makes one query. -/
theorem checks_read (hG : ∀ s, G s s) {P : Db → Prop} {f : Db → GuardResult} (h : ∀ s, (f s).ok = true → P s) :
    Checks R G P (.read f) := by
  intro s
  rw [Prog.meets_read]
  intro s' hs'
  exact ⟨hG s', _, rfl, hs', fun hok => ⟨s', hs', hrefl s', h s' hok⟩⟩

omit htrans in
/-- A guard that looks at nothing but what it is given. -/
theorem checks_pure {P : Db → Prop} {result : GuardResult} (h : result.ok = true → ∀ s, P s) :
    Checks R G P (pure result) := by
  intro s
  rw [Prog.meets_pure]
  exact ⟨_, rfl, hrefl s, fun hok => ⟨s, hrefl s, hrefl s, h hok s⟩⟩

/-- If no failure is returned, every guard has passed at some moment. -/
theorem evaluate_meets {P : String → Db → Prop} {guards : List String}
    (hfn : ∀ guard ∈ guards, ∃ fn, registry.get machine guard = some fn ∧ Checks R G (P guard) (fn g)) (s : Db) :
    (evaluate registry machine g guards).Meets R G (fun r s' => ∃ failed, r = .ok failed ∧ R s s' ∧
      (failed = [] → ∀ guard ∈ guards, ∃ s₁, R s s₁ ∧ R s₁ s' ∧ P guard s₁)) s := by
  induction guards generalizing s with
  | nil => exact ⟨[], rfl, hrefl s, fun _ _ h => absurd h List.not_mem_nil⟩
  | cons guard guards ih =>
    obtain ⟨fn, hget, hcheck⟩ := hfn guard List.mem_cons_self
    unfold evaluate
    rw [hget]
    dsimp only
    rw [Prog.meets_bind]
    refine (hcheck s).mono ?_
    rintro _ s₁ ⟨result, rfl, hs₁, hpass⟩
    dsimp only
    rw [Prog.meets_bind]
    refine (ih (fun guard' h => hfn guard' (List.mem_cons_of_mem _ h)) s₁).mono ?_
    rintro _ s₂ ⟨failed, rfl, hs₂, hall⟩
    dsimp only
    rw [Prog.meets_pure]
    refine ⟨_, rfl, htrans _ _ _ hs₁ hs₂, fun hnil guard' hmem => ?_⟩
    have hok : result.ok = true ∧ failed = [] := by
      cases hres : result.ok <;> simp [hres] at hnil ⊢
      exact hnil
    rcases List.mem_cons.mp hmem with rfl | hmem
    · obtain ⟨s₀, h₁, h₂, hP⟩ := hpass hok.1
      exact ⟨s₀, h₁, htrans _ _ _ h₂ hs₂, hP⟩
    · obtain ⟨s₀, h₁, h₂, hP⟩ := hall hok.2 guard' hmem
      exact ⟨s₀, htrans _ _ _ hs₁ h₁, h₂, hP⟩

/-- **What a transition has passed.** -/
theorem transition_meets [DecidableEq S] {text : S → String} {m : StateMachine S} {current : S}
    {input : TransitionInput E} {extra : List String} {P : String → Db → Prop}
    (hfn : ∀ t ∈ m.transitions, ∀ guard ∈ t.guards ++ extra,
      ∃ fn, registry.get m.name guard = some fn ∧ Checks R G (P guard) (fn (input.context t))) (s : Db) :
    (workflowTransition registry text m current input extra).Meets R G (fun r s' => R s s' ∧
      ∀ t, r = .ok t → findTransition m current input.action = some t ∧ t.permission ∈ input.actor.permissions ∧
        ∀ guard ∈ t.guards ++ extra, ∃ s₁, R s s₁ ∧ R s₁ s' ∧ P guard s₁) s := by
  unfold workflowTransition
  cases hfind : findTransition m current input.action with
  | none => exact ⟨hrefl s, fun t h => by cases h⟩
  | some t =>
    dsimp only
    by_cases hperm : t.permission ∈ input.actor.permissions
    · rw [if_neg (by simpa using hperm), Prog.meets_bind]
      refine (evaluate_meets hrefl htrans (hfn t (findTransition_some hfind).1) s).mono ?_
      rintro _ s' ⟨failed, rfl, hs', hall⟩
      dsimp only
      rw [Prog.meets_ite]
      split
      · exact ⟨hs', fun t h => by cases h⟩
      · rename_i hnil
        refine ⟨hs', fun t' h => ?_⟩
        cases h
        exact ⟨rfl, hperm, hall (by simpa using hnil)⟩
    · rw [if_pos (by simpa using hperm)]
      exact ⟨hrefl s, fun t h => by cases h⟩

/-- The actions offered are computed without a change. -/
theorem availableActions_meets [DecidableEq S] {m : StateMachine S} {current : S} {actor : Ctx}
    {entity : E} {extra : Transition S → List String} {P : Transition S → String → Db → Prop}
    (hfn : ∀ t ∈ m.transitions, ∀ guard ∈ t.guards ++ extra t,
      ∃ fn, registry.get m.name guard = some fn ∧
        Checks R G (P t guard) (fn ⟨entity, actor, t.action, t.fromState, t.toState, none⟩)) (s : Db) :
    (workflowAvailableActions registry m current actor entity extra).Meets R G
      (fun r s' => ∃ actions, r = .ok actions ∧ R s s') s := by
  unfold workflowAvailableActions
  have hmem : ∀ t ∈ m.transitions.filter fun t => t.fromState = current, t ∈ m.transitions :=
    fun t h => (List.mem_filter.mp h).1
  generalize m.transitions.filter (fun t => decide (t.fromState = current)) = ts at hmem
  induction ts generalizing s with
  | nil => exact ⟨[], rfl, hrefl s⟩
  | cons t ts ih =>
    rw [List.mapM_cons]
    simp only [Prog.meets_bind]
    refine (evaluate_meets hrefl htrans (hfn t (hmem t List.mem_cons_self)) s).mono ?_
    rintro _ s₁ ⟨failed, rfl, hs₁, -⟩
    dsimp only
    rw [Prog.meets_pure]
    dsimp only
    refine (ih s₁ fun t' h => hmem t' (List.mem_cons_of_mem _ h)).mono ?_
    rintro _ s₂ ⟨actions, rfl, hs₂⟩
    exact ⟨_, rfl, htrans _ _ _ hs₁ hs₂⟩

end Meets

end AuditSphere
