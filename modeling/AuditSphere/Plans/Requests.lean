import AuditSphere.Db.Requests
import AuditSphere.Engagements.Requests
import AuditSphere.Plans.Service

/-!
# What a request for a plan does

Each request makes one call that matters, except the one that starts an item: it makes the
engagement together with the link to it (`Engaged`), and then puts the item in progress
(`Started`). The other calls change only the audit trail and the notifications. `serve_meets`
says so for any interference by others.
-/

namespace AuditSphere.Plans

open Prisma Theory Shared

/-! ### Calls -/

/-- The plan has an item that is not cancelled. -/
def HasItem (id : Uuid) (db : Db) : Prop := ∃ j i, db.planItems.find j = some i ∧ i.planId = id ∧ i.status ≠ .cancelled

/-- A new plan. -/
structure Created (ctx : Ctx) (dto : CreatePlanDto) (id : Uuid) (latest : ℕ) (s₁ s₂ : Db) : Prop where
  fresh : s₁.plans.find id = none
  rows : ∀ j, s₂.plans.find j = if j = id then some (newPlan ctx dto latest) else s₁.plans.find j
  rest : s₂ = { s₁ with plans := s₂.plans }

/-- A changed plan: the row `before` was read and checked, the row `p` is changed. -/
structure Updated (R : Db → Db → Prop) (s : Db) (ctx : Ctx) (id : Uuid) (dto : UpdatePlanDto)
    (before p p' : AuditPlan) (s₁ s₂ : Db) : Prop where
  read : ∃ s₀, R s s₀ ∧ R s₀ s₁ ∧ ctx.findById s₀.plans id (fun _ => true) = some before
  editable : before.status ∈ editableStatuses
  row : s₁.plans.find id = some p
  change : dto.apply p = .ok p'
  rows : ∀ j, s₂.plans.find j = if j = id then some p' else s₁.plans.find j
  rest : s₂ = { s₁ with plans := s₂.plans }

/-- A transition: the row `plan` was read, its transition `t` checked, the row `p` is moved. Only
the activation of a plan changes items, and of these those that were proposed. -/
structure Moved (R : Db → Db → Prop) (s : Db) (ctx : Ctx) (id : Uuid) (dto : TransitionDto)
    (t : Transition PlanStatus) (plan p : AuditPlan) (s₁ s₂ : Db) : Prop where
  read : ∃ s₀, R s s₀ ∧ R s₀ s₁ ∧ ctx.findById s₀.plans id (fun _ => true) = some plan
  declared : findTransition planWorkflow plan.status dto.action = some t
  items : "has_items" ∈ t.guards → ∃ sg, R s sg ∧ R sg s₁ ∧ HasItem id sg
  row : s₁.plans.find id = some p
  rows : ∀ j, s₂.plans.find j = if j = id then some (transitioned ctx t p) else s₁.plans.find j
  planned : ∀ j, s₂.planItems.find j = (s₁.planItems.find j).map fun i =>
    if t.action = "activate" ∧ ctx.sees i = true ∧ i.planId = id ∧ i.status = .proposed then
      { i with status := .planned } else i
  rest : s₂ = { s₁ with plans := s₂.plans, planItems := s₂.planItems }

/-- A new item of a plan that was read. -/
structure Added (R : Db → Db → Prop) (s : Db) (ctx : Ctx) (planId : Uuid) (dto : CreatePlanItemDto)
    (plan : AuditPlan) (s₁ s₂ : Db) : Prop where
  read : ∃ s₀, R s s₀ ∧ R s₀ s₁ ∧ ctx.findById s₀.plans planId (fun _ => true) = some plan
  opened : plan.status ≠ .archived
  admitted : itemConstrained s₁ (ctx.uuid 0) (newItem ctx planId plan dto) = .ok ()
  fresh : s₁.planItems.find (ctx.uuid 0) = none
  rows : ∀ j, s₂.planItems.find j =
    if j = ctx.uuid 0 then some (newItem ctx planId plan dto) else s₁.planItems.find j
  rest : s₂ = { s₁ with planItems := s₂.planItems }

/-- A changed item: the row `before` was read, the row `i` is changed. -/
structure Edited (R : Db → Db → Prop) (s : Db) (ctx : Ctx) (planId itemId : Uuid) (dto : UpdatePlanItemDto)
    (before i i' : AuditPlanItem) (s₁ s₂ : Db) : Prop where
  read : ∃ s₀, R s s₀ ∧ R s₀ s₁ ∧ findItem ctx s₀ planId itemId = some before
  row : s₁.planItems.find itemId = some i
  change : dto.apply i = .ok i'
  admitted : itemConstrained s₁ itemId i' = .ok ()
  rows : ∀ j, s₂.planItems.find j = if j = itemId then some i' else s₁.planItems.find j
  rest : s₂ = { s₁ with planItems := s₂.planItems }

/-- A deleted item, which had no engagement when it was read. -/
structure Deleted (R : Db → Db → Prop) (s : Db) (ctx : Ctx) (planId itemId : Uuid) (before : AuditPlanItem)
    (s₁ s₂ : Db) : Prop where
  read : ∃ s₀, R s s₀ ∧ R s₀ s₁ ∧ findItem ctx s₀ planId itemId = some before
  free : before.engagementId = none
  rows : ∀ j, s₂.planItems.find j = if j = itemId then none else s₁.planItems.find j
  rest : s₂ = { s₁ with planItems := s₂.planItems }

/-- A new engagement, which the item now refers to. -/
structure Engaged (ctx : Ctx) (itemId id : Uuid) (e : Engagement) (s₁ s₂ : Db) : Prop where
  drawn : ∃ k, id = ctx.uuid k
  fresh : s₁.engagements.find id = none
  engagements : ∀ j, s₂.engagements.find j = if j = id then some e else s₁.engagements.find j
  row : ∃ i, s₁.planItems.find itemId = some i
  rows : ∀ j, s₂.planItems.find j =
    (s₁.planItems.find j).map fun i => if j = itemId then { i with engagementId := some id } else i
  rest : s₂ = { s₁ with
    engagements := s₂.engagements, stageHistory := s₂.stageHistory, planItems := s₂.planItems }

/-- The item is in progress. -/
structure Started (itemId : Uuid) (i : AuditPlanItem) (s₁ s₂ : Db) : Prop where
  row : s₁.planItems.find itemId = some i
  rows : ∀ j, s₂.planItems.find j = if j = itemId then some { i with status := .inProgress } else s₁.planItems.find j
  rest : s₂ = { s₁ with planItems := s₂.planItems }

/-- The calls of a request that starts an item, once it has read it. -/
inductive Starting (ctx : Ctx) (itemId : Uuid) : Db → Db → Prop where
  | quiet {s₁ s₂} (h : Quiet s₁ s₂) : Starting ctx itemId s₁ s₂
  | engaged {id e s₁ s₂} (h : Engaged ctx itemId id e s₁ s₂) : Starting ctx itemId s₁ s₂
  | started {i s₁ s₂} (h : Started itemId i s₁ s₂) : Starting ctx itemId s₁ s₂

/-- A call of a request. -/
inductive Call (R : Db → Db → Prop) (s : Db) : Request → Db → Db → Prop where
  | quiet {r s₁ s₂} (h : Quiet s₁ s₂) : Call R s r s₁ s₂
  | create {ctx dto id latest s₁ s₂} (h : Created ctx dto id latest s₁ s₂) : Call R s (.create ctx dto) s₁ s₂
  | update {ctx id dto before p p' s₁ s₂} (h : Updated R s ctx id dto before p p' s₁ s₂) :
    Call R s (.update ctx id dto) s₁ s₂
  | transition {ctx id dto t plan p s₁ s₂} (h : Moved R s ctx id dto t plan p s₁ s₂) :
    Call R s (.transition ctx id dto) s₁ s₂
  | addItem {ctx planId dto plan s₁ s₂} (h : Added R s ctx planId dto plan s₁ s₂) :
    Call R s (.addItem ctx planId dto) s₁ s₂
  | updateItem {ctx planId itemId dto before i i' s₁ s₂} (h : Edited R s ctx planId itemId dto before i i' s₁ s₂) :
    Call R s (.updateItem ctx planId itemId dto) s₁ s₂
  | deleteItem {ctx planId itemId before s₁ s₂} (h : Deleted R s ctx planId itemId before s₁ s₂) :
    Call R s (.deleteItem ctx planId itemId) s₁ s₂
  | start {ctx planId itemId before s₁ s₂}
    (read : ∃ s₀, R s s₀ ∧ findItem ctx s₀ planId itemId = some before)
    (free : before.engagementId = none) (wanted : before.status ≠ .cancelled) (h : Starting ctx itemId s₁ s₂) :
    Call R s (.createEngagement ctx planId itemId) s₁ s₂

theorem Starting.refl (ctx : Ctx) (itemId : Uuid) (s : Db) : Starting ctx itemId s s := .quiet (Quiet.refl s)

/-! ### The writes -/

theorem insertPlan_ok {id : Uuid} {p : AuditPlan} {s s' : Db} {a : WithId AuditPlan}
    (h : (insertPlan id p).run s = (.ok a, s')) :
    s.plans.find id = none ∧ (∀ j, s'.plans.find j = if j = id then some p else s.plans.find j) ∧
      s' = { s with plans := s'.plans } := by
  obtain ⟨_, -, h⟩ := Prog.bind_eq_ok.mp (Prog.run_call_ok.mp h)
  obtain ⟨t, ht, h⟩ := Prog.bind_eq_ok.mp h
  cases h
  obtain ⟨hfresh, hrows⟩ := insertRow_ok ht
  exact ⟨hfresh, hrows, rfl⟩

theorem updatePlan_ok {ctx : Ctx} {id : Uuid} {f : AuditPlan → Except HttpError AuditPlan} {s s' : Db} {p' : AuditPlan}
    (h : (updatePlan ctx id f).run s = (.ok p', s')) :
    ∃ p, s.plans.find id = some p ∧ f p = .ok p' ∧
      (∀ j, s'.plans.find j = if j = id then some p' else s.plans.find j) ∧ s' = { s with plans := s'.plans } := by
  obtain ⟨⟨p₁, t⟩, ht, h⟩ := Prog.bind_eq_ok.mp (Prog.run_call_ok.mp h)
  obtain ⟨_, -, h⟩ := Prog.bind_eq_ok.mp h
  cases h
  obtain ⟨p, hfind, -, hf, hrows⟩ := updateRow_ok ht
  exact ⟨p, hfind, hf, hrows, rfl⟩

theorem insertItem_ok {id : Uuid} {i : AuditPlanItem} {s s' : Db} {v : ItemView}
    (h : (insertItem id i).run s = (.ok v, s')) :
    itemConstrained s id i = .ok () ∧ s.planItems.find id = none ∧ (∀ j, s'.planItems.find j = if j = id then some i else s.planItems.find j) ∧
      s' = { s with planItems := s'.planItems } := by
  obtain ⟨_, hc, h⟩ := Prog.bind_eq_ok.mp (Prog.run_call_ok.mp h)
  obtain ⟨t, ht, h⟩ := Prog.bind_eq_ok.mp h
  cases h
  obtain ⟨hfresh, hrows⟩ := insertRow_ok ht
  exact ⟨hc, hfresh, hrows, rfl⟩

theorem updateItemRow_ok {ctx : Ctx} {id : Uuid} {f : AuditPlanItem → Except HttpError AuditPlanItem} {s s' : Db}
    {v : ItemView} (h : (updateItemRow ctx id f).run s = (.ok v, s')) :
    ∃ i i', s.planItems.find id = some i ∧ f i = .ok i' ∧ itemConstrained s id i' = .ok () ∧
      (∀ j, s'.planItems.find j = if j = id then some i' else s.planItems.find j) ∧
      s' = { s with planItems := s'.planItems } := by
  obtain ⟨⟨i', t⟩, ht, h⟩ := Prog.bind_eq_ok.mp (Prog.run_call_ok.mp h)
  obtain ⟨_, hc, h⟩ := Prog.bind_eq_ok.mp h
  cases h
  obtain ⟨i, hfind, -, hf, hrows⟩ := updateRow_ok ht
  exact ⟨i, i', hfind, hf, hc, hrows, rfl⟩

theorem deleteItemRow_ok {ctx : Ctx} {id : Uuid} {s s' : Db} {u : Unit}
    (h : (deleteItemRow ctx id).run s = (.ok u, s')) :
    (∀ j, s'.planItems.find j = if j = id then none else s.planItems.find j) ∧
      s' = { s with planItems := s'.planItems } := by
  have h := Prog.run_call_ok.mp h
  split at h
  · cases h
  · cases h
    refine ⟨fun j => ?_, rfl⟩
    rw [Table.find_remove]
    cases s.planItems.find j <;> by_cases hj : j = id <;> simp [hj]

/-- What the transaction of a transition does. -/
theorem transitionTransaction_ok {ctx : Ctx} {id : Uuid} {t : Transition PlanStatus} {s s' : Db} {p' : AuditPlan}
    (h : (transitionTransaction ctx id t).run s = (.ok p', s')) :
    ∃ p, s.plans.find id = some p ∧
      (∀ j, s'.plans.find j = if j = id then some (transitioned ctx t p) else s.plans.find j) ∧
      (∀ j, s'.planItems.find j = (s.planItems.find j).map fun i =>
        if t.action = "activate" ∧ ctx.sees i = true ∧ i.planId = id ∧ i.status = .proposed then
          { i with status := .planned } else i) ∧
      s' = { s with plans := s'.plans, planItems := s'.planItems } := by
  obtain ⟨p₁, s₁, hp, h⟩ := Prog.run_bind_ok.mp (Prog.run_transaction_ok.mp h)
  obtain ⟨p, hfind, hchange, hrows, hrest⟩ := updatePlan_ok hp
  cases hchange
  unfold planItems at h
  by_cases hactivate : t.action = "activate"
  · rw [if_pos hactivate, Prog.run_bind, Prog.run_write] at h
    cases h
    refine ⟨p, hfind, hrows, fun j => ?_, by rw [hrest]⟩
    dsimp only
    rw [Table.find_modify, hrest]
    simp [hactivate, and_assoc]
  · rw [if_neg hactivate] at h
    cases h
    refine ⟨p, hfind, hrows, fun j => ?_, by rw [hrest]⟩
    rw [hrest]
    simp [hactivate]

theorem insertEngagement_ok {itemId id historyId : Uuid} {e : Engagement} {h : EngagementStageHistory} {s s' : Db}
    {a : WithId Engagement} (hrun : (insertEngagement itemId id historyId e h).run s = (.ok a, s')) :
    a = (id, e) ∧ s.engagements.find id = none ∧
      (∀ j, s'.engagements.find j = if j = id then some e else s.engagements.find j) ∧
      (∃ i, s.planItems.find itemId = some i) ∧
      (∀ j, s'.planItems.find j =
        (s.planItems.find j).map fun i => if j = itemId then { i with engagementId := some id } else i) ∧
      s' = { s with
        engagements := s'.engagements, stageHistory := s'.stageHistory, planItems := s'.planItems } := by
  obtain ⟨a', s₁, hinsert, hrun⟩ := Prog.run_bind_ok.mp (Prog.run_transaction_ok.mp hrun)
  obtain ⟨rfl, -, hfresh, hengagements, -, hrest⟩ := Engagements.insertEngagement_ok hinsert
  obtain ⟨_, s₂, hconnect, hrun⟩ := Prog.run_bind_ok.mp hrun
  cases hrun
  have hconnect := Prog.run_call_ok.mp hconnect
  have hitems : s₁.planItems = s.planItems := by rw [hrest]
  split at hconnect
  · cases hconnect
  rename_i hrow
  cases hconnect
  rw [hitems] at hrow
  refine ⟨rfl, hfresh, hengagements, Option.ne_none_iff_exists'.mp (by simpa using hrow), fun j => ?_, by rw [hrest]⟩
  dsimp only
  rw [Table.find_modify, hitems]
  simp

/-! ### The methods -/

/-- The guard that the transitions name. -/
theorem planWorkflow_guards : ∀ t ∈ planWorkflow.transitions, ∀ guard ∈ t.guards, guard = "has_items" := by
  decide

section Methods

variable {R G : Db → Db → Prop} (hR : Interference Quiet R)

include hR

/-- What records and tells what was done makes no difference. -/
theorem meets_quiet {α : Type} {p : Service α} (hp : p.Within Quiet) (hG : ∀ a b, Quiet a b → G a b) (s : Db) :
    p.Meets R G (fun _ _ => True) s :=
  (hp.meets hG hR.aside hR.refl hR.trans s).mono fun _ _ _ => trivial

omit hR in
theorem assertPlan_meets (hG : ∀ s, G s s) (ctx : Ctx) (id : Uuid) (s : Db) :
    (assertPlan ctx id).Meets R G (fun r s' => R s s' ∧
      ∀ p, r = .ok p → ctx.findById s'.plans id (fun _ => true) = some p) s := by
  unfold assertPlan
  rw [Prog.meets_read_bind]
  refine fun s' hs' => ⟨hG s', ?_⟩
  split
  · exact ⟨hs', fun _ h => by cases h⟩
  · rename_i p hp
    refine ⟨hs', fun _ h => ?_⟩
    cases h
    exact hp

/-- The guard of the workflow is registered, and counts items. -/
theorem guards_checked (hG : ∀ s, G s s) (ctx : Ctx) (id : Uuid) (p : AuditPlan) (action : String)
    (comment : Option String) (t : Transition PlanStatus) (ht : t ∈ planWorkflow.transitions) (guard : String)
    (hguard : guard ∈ t.guards ++ []) :
    ∃ fn, guardRegistry.get planWorkflow.name guard = some fn ∧
      Checks R G (HasItem id) (fn ⟨(id, p), ctx, action, t.fromState, t.toState, comment⟩) := by
  rw [List.append_nil] at hguard
  obtain rfl := planWorkflow_guards t ht guard hguard
  refine ⟨_, rfl, checks_read hR.refl hG fun s h => ?_⟩
  have hcount : ctx.count s.planItems (fun _ i => i.planId = id && i.status ≠ .cancelled) ≠ 0 := by
    simpa [Nat.pos_iff_ne_zero] using h
  obtain ⟨j, i, hfind, -, hcond⟩ := Ctx.count_ne_zero_iff.mp hcount
  rw [Bool.and_eq_true, decide_eq_true_eq, decide_eq_true_eq] at hcond
  exact ⟨j, i, hfind, hcond⟩

theorem get_meets (hG : ∀ s, G s s) (ctx : Ctx) (id : Uuid) (s : Db) : (get ctx id).Meets R G (fun _ _ => True) s := by
  unfold get
  rw [Prog.meets_read_bind]
  refine fun s' _ => ⟨hG s', ?_⟩
  split
  · trivial
  · rename_i plan createdBy approvedBy items _
    rw [Prog.meets_bind]
    refine (availableActions_meets hR.refl hR.trans (P := fun _ _ => HasItem id) ?_ s').mono ?_
    · exact fun t ht guard hguard => guards_checked hR hG ctx id plan t.action none t ht guard hguard
    · rintro _ s'' ⟨actions, rfl, -⟩
      trivial

theorem create_meets (ctx : Ctx) (dto : CreatePlanDto) (s : Db) :
    (create ctx dto).Meets R (Call R s (.create ctx dto)) (fun _ _ => True) s := by
  unfold create
  rw [Prog.meets_ite]
  split
  · trivial
  rw [Prog.meets_read_bind]
  refine fun s₀ _ => ⟨.quiet (Quiet.refl s₀), ?_⟩
  rw [Prog.meets_bind]
  refine Prog.meets_of_call fun s₁ _ r s₂ hrun => ?_
  rcases r with e | a
  · rw [Prog.atomic_call _ _ _ _ hrun]
    exact ⟨.quiet (Quiet.refl s₁), trivial⟩
  obtain ⟨hfresh, hrows, hrest⟩ := insertPlan_ok hrun
  exact ⟨.create ⟨hfresh, hrows, hrest⟩,
    meets_quiet hR ((auditRecord_quiet ctx _ _ _).bind fun _ => Prog.within_pure _) (fun _ _ => .quiet) s₂⟩

theorem update_meets (ctx : Ctx) (id : Uuid) (dto : UpdatePlanDto) (s : Db) :
    (update ctx id dto).Meets R (Call R s (.update ctx id dto)) (fun _ _ => True) s := by
  unfold update
  rw [Prog.meets_bind]
  refine (assertPlan_meets (fun s' => .quiet (Quiet.refl s')) ctx id s).mono ?_
  rintro (e | before) s₀ ⟨h₀, hread⟩
  · trivial
  dsimp only
  rw [Prog.meets_ite]
  split
  · trivial
  rename_i heditable
  rw [Prog.meets_bind]
  refine Prog.meets_of_call fun s₁ h₁ r s₂ hrun => ?_
  rcases r with e | p'
  · rw [Prog.atomic_call _ _ _ _ hrun]
    exact ⟨.quiet (Quiet.refl s₁), trivial⟩
  obtain ⟨p, hfind, hchange, hrows, hrest⟩ := updatePlan_ok hrun
  have hupdated : Updated R s ctx id dto before p p' s₁ s₂ := {
    read := ⟨s₀, h₀, h₁, hread before rfl⟩
    editable := by simpa using heditable
    row := hfind
    change := hchange
    rows := hrows
    rest := hrest }
  exact ⟨.update hupdated,
    meets_quiet hR ((auditRecord_quiet ctx _ _ _).bind fun _ => Prog.within_pure _) (fun _ _ => .quiet) s₂⟩

theorem transition_meets (ctx : Ctx) (id : Uuid) (dto : TransitionDto) (s : Db) :
    (transition ctx id dto).Meets R (Call R s (.transition ctx id dto)) (fun _ _ => True) s := by
  have hG : ∀ s', Call R s (.transition ctx id dto) s' s' := fun s' => .quiet (Quiet.refl s')
  unfold transition
  rw [Prog.meets_bind]
  refine (assertPlan_meets hG ctx id s).mono ?_
  rintro (e | plan) s₀ ⟨h₀, hread⟩
  · trivial
  dsimp only
  rw [Prog.meets_bind]
  refine (AuditSphere.transition_meets hR.refl hR.trans (P := fun _ => HasItem id)
    (fun t ht guard hguard => guards_checked hR hG ctx id plan dto.action _ t ht guard hguard) s₀).mono ?_
  rintro (e | t) s₁ ⟨h₁, hpassed⟩
  · trivial
  obtain ⟨hdeclared, -, hguards⟩ := hpassed t rfl
  dsimp only
  rw [Prog.meets_bind]
  refine Prog.meets_of_transaction fun s₂ h₂ r s₃ hrun => ?_
  rcases r with e | p'
  · rw [Prog.atomic_call _ _ _ _ hrun]
    exact ⟨hG s₂, trivial⟩
  obtain ⟨p, hfind, hrows, hplanned, hrest⟩ := transitionTransaction_ok hrun
  have hmoved : Moved R s ctx id dto t plan p s₂ s₃ := {
    read := ⟨s₀, h₀, hR.trans _ _ _ h₁ h₂, hread plan rfl⟩
    declared := hdeclared
    items := fun hguard => by
      obtain ⟨sg, hsg, hsg', hitem⟩ := hguards "has_items" (List.mem_append_left _ hguard)
      exact ⟨sg, hR.trans _ _ _ h₀ hsg, hR.trans _ _ _ hsg' h₂, hitem⟩
    row := hfind
    rows := hrows
    planned := hplanned
    rest := hrest }
  refine ⟨.transition hmoved, ?_⟩
  have htold : (auditRecord ctx "plan.status_changed" "AuditPlan" id >>= fun _ =>
      notifyCreator ctx id dto plan p').Within Quiet :=
    (auditRecord_quiet ctx _ _ _).bind fun _ => notify_quiet ctx _ _
  dsimp only
  rw [← bind_assoc, Prog.meets_bind]
  refine (meets_quiet hR htold (fun _ _ => .quiet) s₃).mono ?_
  rintro (e | u) s₄ -
  · trivial
  · exact get_meets hR hG ctx id s₄

theorem addItem_meets (ctx : Ctx) (planId : Uuid) (dto : CreatePlanItemDto) (s : Db) :
    (addItem ctx planId dto).Meets R (Call R s (.addItem ctx planId dto)) (fun _ _ => True) s := by
  unfold addItem
  rw [Prog.meets_bind]
  refine (assertPlan_meets (fun s' => .quiet (Quiet.refl s')) ctx planId s).mono ?_
  rintro (e | plan) s₀ ⟨h₀, hread⟩
  · trivial
  dsimp only
  rw [Prog.meets_ite]
  split
  · trivial
  rename_i hopened
  rw [Prog.meets_bind]
  refine Prog.meets_of_call fun s₁ h₁ r s₂ hrun => ?_
  rcases r with e | v
  · rw [Prog.atomic_call _ _ _ _ hrun]
    exact ⟨.quiet (Quiet.refl s₁), trivial⟩
  obtain ⟨hc, hfresh, hrows, hrest⟩ := insertItem_ok hrun
  have hadded : Added R s ctx planId dto plan s₁ s₂ := {
    read := ⟨s₀, h₀, h₁, hread plan rfl⟩
    opened := hopened
    admitted := hc
    fresh := hfresh
    rows := hrows
    rest := hrest }
  exact ⟨.addItem hadded,
    meets_quiet hR ((auditRecord_quiet ctx _ _ _).bind fun _ => Prog.within_pure _) (fun _ _ => .quiet) s₂⟩

theorem updateItem_meets (ctx : Ctx) (planId itemId : Uuid) (dto : UpdatePlanItemDto) (s : Db) :
    (updateItem ctx planId itemId dto).Meets R (Call R s (.updateItem ctx planId itemId dto)) (fun _ _ => True) s := by
  unfold updateItem
  rw [Prog.meets_read_bind]
  refine fun s₀ h₀ => ⟨.quiet (Quiet.refl s₀), ?_⟩
  rw [Prog.meets_ite]
  split
  · trivial
  rename_i hfound
  obtain ⟨before, hread⟩ := Option.ne_none_iff_exists'.mp (by simpa using hfound)
  rw [Prog.meets_bind]
  refine Prog.meets_of_call fun s₁ h₁ r s₂ hrun => ?_
  rcases r with e | v
  · rw [Prog.atomic_call _ _ _ _ hrun]
    exact ⟨.quiet (Quiet.refl s₁), trivial⟩
  obtain ⟨i, i', hfind, hchange, hc, hrows, hrest⟩ := updateItemRow_ok hrun
  exact ⟨.updateItem ⟨⟨s₀, h₀, h₁, hread⟩, hfind, hchange, hc, hrows, hrest⟩,
    meets_quiet hR ((auditRecord_quiet ctx _ _ _).bind fun _ => Prog.within_pure _) (fun _ _ => .quiet) s₂⟩

theorem deleteItem_meets (ctx : Ctx) (planId itemId : Uuid) (s : Db) :
    (deleteItem ctx planId itemId).Meets R (Call R s (.deleteItem ctx planId itemId)) (fun _ _ => True) s := by
  unfold deleteItem
  rw [Prog.meets_read_bind]
  refine fun s₀ h₀ => ⟨.quiet (Quiet.refl s₀), ?_⟩
  split
  · trivial
  rename_i before hread
  rw [Prog.meets_ite]
  split
  · trivial
  rename_i hfree
  rw [Prog.meets_bind]
  refine Prog.meets_of_call fun s₁ h₁ r s₂ hrun => ?_
  rcases r with e | u
  · rw [Prog.atomic_call _ _ _ _ hrun]
    exact ⟨.quiet (Quiet.refl s₁), trivial⟩
  obtain ⟨hrows, hrest⟩ := deleteItemRow_ok hrun
  exact ⟨.deleteItem ⟨⟨s₀, h₀, h₁, hread⟩, by simpa using hfree, hrows, hrest⟩,
    meets_quiet hR (auditRecord_quiet ctx _ _ _) (fun _ _ => .quiet) s₂⟩

/-! ### The engagement of an item -/

omit hR in
theorem insertNumbered_meets (ctx : Ctx) (dto : Engagements.CreateEngagementDto) (itemId : Uuid) (year left : ℕ) :
    ∀ s, (insertNumbered ctx dto itemId year left).Meets R (Starting ctx itemId) (fun _ _ => True) s := by
  induction left with
  | zero => exact fun _ => trivial
  | succ left ih =>
    intro s
    unfold insertNumbered
    rw [Prog.meets_read_bind]
    refine fun s₁ _ => ⟨.refl ctx itemId s₁, ?_⟩
    split
    · trivial
    rw [Prog.meets_catching]
    refine Prog.meets_of_transaction fun s₂ _ r s₃ hrun => ?_
    rcases r with e | a
    · rw [Prog.atomic_call _ _ _ _ hrun]
      refine ⟨.refl ctx itemId s₂, ?_⟩
      dsimp only
      rw [Prog.meets_ite]
      split
      · exact ih s₂
      · trivial
    · obtain ⟨-, hfresh, hengagements, hrow, hrows, hrest⟩ := insertEngagement_ok hrun
      exact ⟨.engaged ⟨⟨_, rfl⟩, hfresh, hengagements, hrow, hrows, hrest⟩, trivial⟩

/-- What a request does that starts an item, once it has read it. -/
theorem startItem_meets (ctx : Ctx) (itemId : Uuid) (item : AuditPlanItem) (s : Db) :
    (startItem ctx itemId item).Meets R (Starting ctx itemId) (fun _ _ => True) s := by
  unfold startItem createEngagement
  rw [Prog.meets_bind, Prog.meets_bind]
  refine (assertRelated_meets hR.refl (Starting.refl ctx itemId) _ s).mono ?_
  rintro (e | u) s₀ -
  · trivial
  dsimp only
  rw [Prog.meets_bind]
  refine (insertNumbered_meets ctx _ itemId _ 5 s₀).mono ?_
  rintro (e | created) s₁ -
  · trivial
  dsimp only
  refine (meets_quiet hR ?_ (fun _ _ => .quiet) s₁).mono ?_
  · exact (auditRecord_quiet ctx _ _ _).bind fun _ => (notifyMany_quiet ctx _ _).bind fun _ => Prog.within_pure _
  rintro (e | engagement) s₂ -
  · trivial
  dsimp only
  rw [Prog.meets_bind]
  refine Prog.meets_of_call fun s₃ _ r s₄ hrun => ?_
  rcases r with e | v
  · rw [Prog.atomic_call _ _ _ _ hrun]
    exact ⟨.refl ctx itemId s₃, trivial⟩
  obtain ⟨i, i', hfind, hchange, -, hrows, hrest⟩ := updateItemRow_ok hrun
  cases hchange
  exact ⟨.started ⟨hfind, hrows, hrest⟩,
    meets_quiet hR ((auditRecord_quiet ctx _ _ _).bind fun _ => Prog.within_pure _) (fun _ _ => .quiet) s₄⟩

theorem createEngagementFromItem_meets (ctx : Ctx) (planId itemId : Uuid) (s : Db) :
    (createEngagementFromItem ctx planId itemId).Meets R (Call R s (.createEngagement ctx planId itemId))
      (fun _ _ => True) s := by
  unfold createEngagementFromItem
  rw [Prog.meets_read_bind]
  refine fun s₀ h₀ => ⟨.quiet (Quiet.refl s₀), ?_⟩
  split
  · trivial
  rename_i item hread
  rw [Prog.meets_ite]
  split
  · trivial
  rename_i hfree
  rw [Prog.meets_ite]
  split
  · trivial
  rename_i hwanted
  exact (startItem_meets hR ctx itemId item s₀).mono_step fun _ _ h => .start ⟨s₀, h₀, hread⟩ (by simpa using hfree) hwanted h

/-- **What a request does**, whatever comes between its calls. -/
theorem serve_meets (r : Request) (s : Db) : (serve r).Meets R (Call R s r) (fun _ _ => True) s := by
  have hanswer : ∀ {α : Type} {p : Service α} (f : α → Response), p.Meets R (Call R s r) (fun _ _ => True) s →
      (p >>= fun a => (pure (f a) : Service Response)).Meets R (Call R s r) (fun _ _ => True) s := by
    intro α p f h
    rw [Prog.meets_bind]
    refine h.mono ?_
    rintro (e | a) s' - <;> trivial
  unfold serve
  rw [Prog.meets_ite]
  split
  · trivial
  cases r with
  | create ctx dto => exact hanswer .created (create_meets hR ctx dto s)
  | update ctx id dto => exact hanswer .updated (update_meets hR ctx id dto s)
  | transition ctx id dto => exact hanswer .moved (transition_meets hR ctx id dto s)
  | addItem ctx planId dto => exact hanswer .item (addItem_meets hR ctx planId dto s)
  | updateItem ctx planId itemId dto => exact hanswer .item (updateItem_meets hR ctx planId itemId dto s)
  | deleteItem ctx planId itemId => exact hanswer (fun _ => .deleted) (deleteItem_meets hR ctx planId itemId s)
  | createEngagement ctx planId itemId =>
    exact hanswer .engagement (createEngagementFromItem_meets hR ctx planId itemId s)

omit hR in
/-- Without the permission of the route nothing happens. -/
theorem serve_denied {r : Request} (h : r.ctx.hasPermission r.permission = false) (s : Db) : after serve s r = s := by
  unfold after serve
  rw [h]
  rfl

end Methods

end AuditSphere.Plans
