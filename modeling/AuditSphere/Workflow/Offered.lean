import AuditSphere.Workflow.Service
import AuditSphere.Plans.Approval
import Mathlib.Tactic.Choose

/-!
# Offered actions

What `availableActions` lists and what `transition` does are decided by the same guards. For every
machine in which state and action determine the transition, an action is offered exactly if the
transition goes through, and the failures that are listed are those that the transition reports.
-/

namespace AuditSphere

open Theory Shared

section Offered

variable {E S : Type} [DecidableEq S]

/-- State and action determine the transition. -/
def Deterministic (machine : StateMachine S) : Prop :=
  ∀ t ∈ machine.transitions, ∀ t' ∈ machine.transitions, t.fromState = t'.fromState → t.action = t'.action → t = t'

instance [DecidableEq (Transition S)] (machine : StateMachine S) : Decidable (Deterministic machine) :=
  inferInstanceAs (Decidable (∀ t ∈ machine.transitions, _))

/-- The guard is registered; in the database it answers without a change, whatever the comment is. -/
def Answers (registry : GuardRegistry E S) (machine guard : String) (db : Db) : Prop :=
  ∃ fn, registry.get machine guard = some fn ∧
    ∀ g : GuardContext E S, ∃ result, ∀ comment, (fn { g with comment := comment }).run db = (.ok result, db)

/-- What the list of actions says about a transition that is asked for, and what comes of it. -/
structure Foretells (text : S → String) (current : S) (actions : List (AvailableAction S)) (action : String)
    (outcome : Except HttpError (Transition S)) : Prop where
  /-- An action is allowed exactly if the transition goes through. -/
  allowed : (∃ o ∈ actions, o.action = action ∧ o.allowed) ↔ ∃ t, outcome = .ok t
  /-- The transition is the one that is listed. -/
  listed : ∀ t, outcome = .ok t → t.fromState = current ∧ ∀ o ∈ actions, o.action = action →
    o.action = t.action ∧ o.label = t.label ∧ o.toState = t.toState ∧ o.permission = t.permission
  /-- First, the action has to be listed. -/
  unknown : (∀ o ∈ actions, o.action ≠ action) ↔
    outcome = .error (.conflict ("Action \"" ++ action ++ "\" is not available from state " ++ text current))
  /-- Second, the actor has to hold the permission. -/
  missing : ∀ o ∈ actions, o.action = action →
    (¬ o.permitted ↔ outcome = .error (.forbidden s!"Missing permission: {o.permission.key}"))
  /-- Last, the guards have to pass; those that do not are the listed ones. -/
  guards : ∀ o ∈ actions, o.action = action → ∀ failed,
    (o.permitted ∧ ¬ o.allowed ∧ o.failedGuards = failed ↔ ∃ message, outcome = .error (.workflowGuard failed message))

variable {registry : GuardRegistry E S} {machine : StateMachine S} {db : Db}

omit [DecidableEq S] in
/-- Guards that answer are evaluated to the same failures, whatever the comment. -/
theorem evaluate_answers {guards : List String} (h : ∀ guard ∈ guards, Answers registry machine.name guard db)
    (g : GuardContext E S) :
    ∃ failed, ∀ comment, (evaluate registry machine.name { g with comment := comment } guards).run db = (.ok failed, db) := by
  induction guards with
  | nil => exact ⟨[], fun _ => rfl⟩
  | cons guard guards ih =>
    obtain ⟨fn, hget, hanswer⟩ := h guard List.mem_cons_self
    obtain ⟨result, hresult⟩ := hanswer g
    obtain ⟨failed, hfailed⟩ := ih fun guard' hmem => h guard' (List.mem_cons_of_mem guard hmem)
    refine ⟨if result.ok then failed else ⟨guard, result.message.getD (humanizeGuard guard)⟩ :: failed, fun comment => ?_⟩
    rw [evaluate, hget]
    dsimp only
    rw [Prog.run_bind_of_ok (hresult comment), Prog.run_bind_of_ok (hfailed comment)]
    rfl

/-- How a transition is listed, with the failures of its guards. -/
def offer (actor : Ctx) (failed : List GuardFailure) (t : Transition S) : AvailableAction S where
  action := t.action
  label := t.label
  toState := t.toState
  permission := t.permission
  permitted := actor.hasPermission t.permission
  allowed := actor.hasPermission t.permission && failed.isEmpty
  failedGuards := failed

section Runs

variable {current : S} {actor : Ctx} {entity : E} {extraGuardsFor : Transition S → List String}
  {failed : Transition S → List GuardFailure}
  (hfailed : ∀ t ∈ machine.transitions, ∀ comment, (evaluate registry machine.name
    ⟨entity, actor, t.action, t.fromState, t.toState, comment⟩ (t.guards ++ extraGuardsFor t)).run db = (.ok (failed t), db))

include hfailed

/-- The actions are the transitions from the current state, each with its failures. -/
theorem availableActions_run :
    (workflowAvailableActions registry machine current actor entity extraGuardsFor).run db =
      (.ok ((machine.transitions.filter fun t => t.fromState = current).map fun t => offer actor (failed t) t), db) := by
  unfold workflowAvailableActions
  have hmem : ∀ t ∈ machine.transitions.filter fun t => t.fromState = current, t ∈ machine.transitions :=
    fun t h => List.mem_of_mem_filter h
  generalize (machine.transitions.filter fun t => decide (t.fromState = current)) = ts at hmem
  induction ts with
  | nil => rfl
  | cons t ts ih =>
    rw [List.mapM_cons, bind_assoc, Prog.run_bind_of_ok (hfailed t (hmem t List.mem_cons_self) none), pure_bind,
      Prog.run_bind_of_ok (ih fun t' h => hmem t' (List.mem_cons_of_mem t h)), List.map_cons]
    rfl

/-- A transition that exists is decided by the permission, and then by the failures of its guards. -/
theorem transition_run (text : S → String) (comment : Option String) {action : String} {t : Transition S}
    (ht : findTransition machine current action = some t) :
    ∃ message, (workflowTransition registry text machine current ⟨entity, actor, action, comment⟩ (extraGuardsFor t)).run db =
      (if t.permission ∉ actor.permissions then .error (.forbidden s!"Missing permission: {t.permission.key}")
        else if failed t ≠ [] then .error (.workflowGuard (failed t) message) else .ok t, db) := by
  obtain ⟨hmem, -, haction⟩ := findTransition_some ht
  have hevaluate := hfailed t hmem comment
  rw [haction] at hevaluate
  refine ⟨"Cannot " ++ t.label.toLower ++ ": " ++ "; ".intercalate ((failed t).map GuardFailure.message), ?_⟩
  rw [workflowTransition]
  dsimp only
  rw [ht]
  dsimp only [TransitionInput.context]
  rw [Prog.run_ite, Prog.run_bind_of_ok hevaluate, Prog.run_ite]
  split
  · rfl
  · split <;> rfl

/-- The list of the actions says what comes of every transition that is asked for. -/
theorem foretells_of_failed (text : S → String) (hdeterministic : Deterministic machine) (action : String)
    (comment : Option String) {extraGuards : List String}
    (hextra : ∀ t, findTransition machine current action = some t → extraGuards = extraGuardsFor t) :
    Foretells text current ((machine.transitions.filter fun t => t.fromState = current).map fun t => offer actor (failed t) t)
      action ((workflowTransition registry text machine current ⟨entity, actor, action, comment⟩ extraGuards).run db).1 := by
  generalize hactions : ((machine.transitions.filter fun t => decide (t.fromState = current)).map fun t =>
    offer actor (failed t) t) = actions
  have hmem {o : AvailableAction S} : o ∈ actions ↔
      ∃ t ∈ machine.transitions, t.fromState = current ∧ o = offer actor (failed t) t := by
    rw [← hactions, List.mem_map]
    constructor
    · rintro ⟨t, ht, rfl⟩
      obtain ⟨ht, hcurrent⟩ := List.mem_filter.mp ht
      exact ⟨t, ht, of_decide_eq_true hcurrent, rfl⟩
    · rintro ⟨t, ht, hcurrent, rfl⟩
      exact ⟨t, List.mem_filter.mpr ⟨ht, decide_eq_true hcurrent⟩, rfl⟩
  cases hfind : findTransition machine current action with
  | none =>
    have hnone (o : AvailableAction S) (ho : o ∈ actions) : o.action ≠ action := by
      obtain ⟨t, ht, hcurrent, rfl⟩ := hmem.mp ho
      intro haction
      have hmiss := List.find?_eq_none.mp hfind t ht
      simp only [hcurrent, show t.action = action from haction, decide_true, Bool.and_self, not_true_eq_false] at hmiss
    have houtcome : ((workflowTransition registry text machine current ⟨entity, actor, action, comment⟩ extraGuards).run db).1 =
        .error (.conflict ("Action \"" ++ action ++ "\" is not available from state " ++ text current)) := by
      rw [workflowTransition]
      dsimp only
      rw [hfind]
      rfl
    rw [houtcome]
    exact {
      allowed := ⟨fun ⟨o, ho, haction, _⟩ => absurd haction (hnone o ho), fun ⟨t, ht⟩ => nomatch ht⟩
      listed := fun t ht => nomatch ht
      unknown := iff_of_true hnone rfl
      missing := fun o ho haction => absurd haction (hnone o ho)
      guards := fun o ho haction => absurd haction (hnone o ho) }
  | some t =>
    obtain ⟨ht, hcurrent, haction⟩ := findTransition_some hfind
    have hthe {o : AvailableAction S} : o ∈ actions ∧ o.action = action ↔ o = offer actor (failed t) t := by
      constructor
      · rintro ⟨ho, hoaction⟩
        obtain ⟨t', ht', hcurrent', rfl⟩ := hmem.mp ho
        rw [hdeterministic t ht t' ht' (hcurrent.trans hcurrent'.symm) (haction.trans hoaction.symm)]
      · rintro rfl
        exact ⟨hmem.mpr ⟨t, ht, hcurrent, rfl⟩, haction⟩
    have hlisted (t' : Transition S) (ht' : t' = t) : t'.fromState = current ∧ ∀ o ∈ actions, o.action = action →
        o.action = t'.action ∧ o.label = t'.label ∧ o.toState = t'.toState ∧ o.permission = t'.permission := by
      rw [ht']
      refine ⟨hcurrent, fun o ho hoaction => ?_⟩
      rw [hthe.mp ⟨ho, hoaction⟩]
      exact ⟨rfl, rfl, rfl, rfl⟩
    have hknown : ¬ ∀ o ∈ actions, o.action ≠ action := fun h => h _ (hthe.mpr rfl).1 (hthe.mpr rfl).2
    have hpermitted : (offer actor (failed t) t).permitted = true ↔ t.permission ∈ actor.permissions := decide_eq_true_iff
    have hallowed : (offer actor (failed t) t).allowed = true ↔ t.permission ∈ actor.permissions ∧ failed t = [] := by
      rw [← hpermitted, ← List.isEmpty_iff]
      exact Bool.and_eq_true_iff
    obtain ⟨message, hrun⟩ := transition_run hfailed text comment hfind
    rw [hextra t hfind, hrun]
    have hsome : (∃ o ∈ actions, o.action = action ∧ o.allowed) ↔ t.permission ∈ actor.permissions ∧ failed t = [] := by
      rw [← hallowed]
      constructor
      · rintro ⟨o, ho, hoaction, hoallowed⟩
        rwa [← hthe.mp ⟨ho, hoaction⟩]
      · exact fun h => ⟨_, (hthe.mpr rfl).1, (hthe.mpr rfl).2, h⟩
    by_cases hpermission : t.permission ∈ actor.permissions
    · by_cases hnil : failed t = []
      · rw [if_neg (not_not_intro hpermission), if_neg (not_not_intro hnil)]
        refine ⟨hsome.trans (iff_of_true ⟨hpermission, hnil⟩ ⟨t, rfl⟩), fun t' ht' => hlisted t' (Except.ok.inj ht').symm,
          iff_of_false hknown (nomatch ·), fun o ho hoaction => ?_, fun o ho hoaction failed' => ?_⟩
        · rw [hthe.mp ⟨ho, hoaction⟩]
          exact iff_of_false (not_not_intro (hpermitted.mpr hpermission)) (nomatch ·)
        · rw [hthe.mp ⟨ho, hoaction⟩]
          exact iff_of_false (fun h => h.2.1 (hallowed.mpr ⟨hpermission, hnil⟩)) fun ⟨_, h⟩ => nomatch h
      · rw [if_neg (not_not_intro hpermission), if_pos hnil]
        refine ⟨hsome.trans (iff_of_false (fun h => hnil h.2) fun ⟨_, h⟩ => (nomatch h)), fun t' ht' => (nomatch ht'),
          iff_of_false hknown (nomatch ·), fun o ho hoaction => ?_, fun o ho hoaction failed' => ?_⟩
        · rw [hthe.mp ⟨ho, hoaction⟩]
          exact iff_of_false (not_not_intro (hpermitted.mpr hpermission)) (nomatch ·)
        · rw [hthe.mp ⟨ho, hoaction⟩]
          constructor
          · rintro ⟨-, -, rfl⟩
            exact ⟨message, rfl⟩
          · rintro ⟨message', heq⟩
            cases heq
            exact ⟨hpermitted.mpr hpermission, fun h => hnil (hallowed.mp h).2, rfl⟩
    · rw [if_pos hpermission]
      refine ⟨hsome.trans (iff_of_false (fun h => hpermission h.1) fun ⟨_, h⟩ => (nomatch h)), fun t' ht' => (nomatch ht'),
        iff_of_false hknown (nomatch ·), fun o ho hoaction => ?_, fun o ho hoaction failed' => ?_⟩
      · rw [hthe.mp ⟨ho, hoaction⟩]
        exact iff_of_true (fun h => hpermission (hpermitted.mp h)) rfl
      · rw [hthe.mp ⟨ho, hoaction⟩]
        exact iff_of_false (fun h => hpermission (hpermitted.mp h.1)) fun ⟨_, h⟩ => nomatch h

end Runs

/-- **Offered actions are exactly the possible ones.** -/
theorem availableActions_exact (text : S → String) (hdeterministic : Deterministic machine)
    {extraGuardsFor : Transition S → List String}
    (hguards : ∀ t ∈ machine.transitions, ∀ guard ∈ t.guards ++ extraGuardsFor t, Answers registry machine.name guard db)
    (current : S) (actor : Ctx) (entity : E) :
    ∃ actions, (workflowAvailableActions registry machine current actor entity extraGuardsFor).run db = (.ok actions, db) ∧
      ∀ action comment extraGuards,
        (∀ t, findTransition machine current action = some t → extraGuards = extraGuardsFor t) →
        Foretells text current actions action
          ((workflowTransition registry text machine current ⟨entity, actor, action, comment⟩ extraGuards).run db).1 := by
  have hanswers : ∀ t ∈ machine.transitions, ∃ failed, ∀ comment, (evaluate registry machine.name
      ⟨entity, actor, t.action, t.fromState, t.toState, comment⟩ (t.guards ++ extraGuardsFor t)).run db = (.ok failed, db) :=
    fun t ht => evaluate_answers (hguards t ht) ⟨entity, actor, t.action, t.fromState, t.toState, none⟩
  choose! failed hfailed using hanswers
  exact ⟨_, availableActions_run hfailed, fun action comment _ hextra =>
    foretells_of_failed hfailed text hdeterministic action comment hextra⟩

end Offered

/-- The guard of the plans only counts. -/
theorem plan_guards_answer (db : Db) : ∀ t ∈ Plans.planWorkflow.transitions, ∀ guard ∈ t.guards ++ [],
    Answers Plans.guardRegistry Plans.planWorkflow.name guard db := by
  intro t ht guard hguard
  rw [List.append_nil] at hguard
  obtain rfl := Plans.planWorkflow_guards t ht guard hguard
  refine ⟨_, rfl, fun g => ⟨⟨0 < g.actor.count db.planItems fun _ i => i.planId = g.entity.1 && i.status ≠ .cancelled,
    "The plan has no items"⟩, fun _ => rfl⟩⟩

/-- The plan of a year that has no items. -/
def plainPlan : AuditPlan where
  tenantId := 1
  title := "Audit plan"
  fiscalYear := 2026
  horizonYears := 1
  startDate := 0
  endDate := 1
  status := .draft
  version := 1
  totalBudgetHours := none
  totalBudgetAmount := none
  currency := "USD"
  narrative := none
  createdById := 1
  approvedById := none
  approvedAt := none

/-- The workflow of the plans offers exactly what it accepts. -/
theorem availableActions_exact_plan :
    ∃ actions, (workflowAvailableActions Plans.guardRegistry Plans.planWorkflow .draft (Plans.planner 1 600)
        (500, plainPlan) fun _ => []).run Workpapers.office = (.ok actions, Workpapers.office) ∧
      ∀ action comment extraGuards, (∀ t, findTransition Plans.planWorkflow .draft action = some t → extraGuards = []) →
        Foretells Plans.statusText .draft actions action
          ((workflowTransition Plans.guardRegistry Plans.statusText Plans.planWorkflow .draft
            ⟨(500, plainPlan), Plans.planner 1 600, action, comment⟩ extraGuards).run Workpapers.office).1 :=
  availableActions_exact Plans.statusText (by decide) (plan_guards_answer Workpapers.office) .draft (Plans.planner 1 600)
    (500, plainPlan)

end AuditSphere
