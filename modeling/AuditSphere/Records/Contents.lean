import AuditSphere.Plans.Approval
import AuditSphere.Programs.Approval

/-!
# What was approved is not empty

A plan is submitted if it has an item that is not cancelled, and a programme is approved if it
has a step. Nothing keeps the last item or the last step afterwards: three requests can take it
away (`Empties`), and as long as none does, every plan in force has an item and every programme
in force has a step (`not_empty_iff`).
-/

namespace AuditSphere.Contents

open Prisma Theory Shared

/-! ### Requests -/

/-- A request for a plan, or an operation on a programme. -/
inductive Request where
  | plan (r : Plans.Request)
  | program (o : Programs.Operation)

/-- What a request answers. -/
inductive Response where
  | plan (r : Plans.Response)
  | program (r : Programs.Response)

/-- The service of the request. -/
def serve : Request → Service Response
  | .plan r => do return .plan (← Plans.serve r)
  | .program o => do return .program (← Programs.perform o)

theorem after_plan (s : Db) (r : Plans.Request) : after serve s (.plan r) = after Plans.serve s r :=
  congrArg Prod.snd (run_return (Plans.serve r) Response.plan s)

theorem after_program (s : Db) (o : Programs.Operation) : after serve s (.program o) = after Programs.perform s o :=
  congrArg Prod.snd (run_return (Programs.perform o) Response.program s)

/-! ### What must not be empty -/

/-- The status of a plan that has been submitted, and is not put away. -/
def planInForce (status : PlanStatus) : Bool := status ∈ [.pendingApproval, .approved, .active]

/-- The plan has been submitted, and is not put away. -/
def PlanInForce (id : Uuid) (s : Db) : Prop := ∃ p, s.plans.find id = some p ∧ planInForce p.status = true

/-- Every plan in force has an item that is not cancelled, and every programme in force a step. -/
structure NotEmpty (s : Db) : Prop where
  plans : ∀ id, PlanInForce id s → Plans.HasItem id s
  programs : ∀ id, Programs.InForce id s → Programs.HasStep id s

/-- No other item of the plan counts. -/
def onlyItem (s : Db) (planId itemId : Uuid) : Bool :=
  (s.planItems.first fun j i => j ≠ itemId && i.planId = planId && i.status ≠ .cancelled).isNone

/-- No other step is in the programme. -/
def onlyStep (s : Db) (programId stepId : Uuid) : Bool :=
  (s.programSteps.first fun j step => j ≠ stepId && step.programId = programId).isNone

/-- The request deletes or cancels the last item of a plan in force, or deletes the last step of
a programme in force: its own checks pass. -/
def Empties (s : Db) : Request → Bool
  | .plan (.deleteItem ctx planId itemId) => ctx.hasPermission .planManage &&
      (s.plans.find planId).any (fun p => planInForce p.status) &&
      (Plans.findItem ctx s planId itemId).any fun i => i.engagementId.isNone && onlyItem s planId itemId
  | .plan (.updateItem ctx planId itemId dto) => ctx.hasPermission .planManage &&
      (s.plans.find planId).any (fun p => planInForce p.status) &&
      (Plans.findItem ctx s planId itemId).any fun i => onlyItem s planId itemId && match dto.apply i with
        | .ok i' => i'.status = .cancelled && (Plans.itemConstrained s itemId i').isOk
        | .error _ => false
  | .program (.deleteStep ctx id) => ctx.hasPermission .programManage &&
      (ctx.findById s.programSteps id fun _ => true).any fun step => onlyStep s step.programId id &&
        (s.workpapers.count fun _ w => w.programStepId = some id) = 0 &&
        (s.programs.find step.programId).any fun p => Programs.inForce p.status
  | _ => false

theorem onlyItem_eq_false_iff {s : Db} {planId itemId : Uuid} : onlyItem s planId itemId = false ↔
    ∃ j i, s.planItems.find j = some i ∧ j ≠ itemId ∧ i.planId = planId ∧ i.status ≠ .cancelled := by
  unfold onlyItem
  rw [← Option.not_isSome, Bool.not_eq_false', Table.isSome_first_iff]
  simp [and_assoc]

theorem onlyStep_eq_false_iff {s : Db} {programId stepId : Uuid} : onlyStep s programId stepId = false ↔
    ∃ j step, s.programSteps.find j = some step ∧ j ≠ stepId ∧ step.programId = programId := by
  unfold onlyStep
  rw [← Option.not_isSome, Bool.not_eq_false', Table.isSome_first_iff]
  simp

/-! ### Requests for plans -/

section Plans

variable {s s₁ s₂ : Db}

/-- Nothing that counts has changed. -/
theorem NotEmpty.of_eq (h : NotEmpty s₁) (hplans : s₂.plans = s₁.plans) (hitems : s₂.planItems = s₁.planItems)
    (hprograms : s₂.programs = s₁.programs) (hsteps : s₂.programSteps = s₁.programSteps) : NotEmpty s₂ := by
  constructor
  · unfold PlanInForce Plans.HasItem
    rw [hplans, hitems]
    exact h.plans
  · unfold Programs.InForce Programs.HasStep
    rw [hprograms, hsteps]
    exact h.programs

/-- A plan is put in force only if it has an item, and no plan loses its last one. -/
theorem NotEmpty.of_plans (h : NotEmpty s₁) (hforce : ∀ id, PlanInForce id s₂ → PlanInForce id s₁ ∨ Plans.HasItem id s₁)
    (hitems : ∀ id, PlanInForce id s₂ → Plans.HasItem id s₁ → Plans.HasItem id s₂)
    (hprograms : s₂.programs = s₁.programs) (hsteps : s₂.programSteps = s₁.programSteps) : NotEmpty s₂ := by
  constructor
  · intro id hid
    refine hitems id hid ?_
    rcases hforce id hid with hbefore | hitem
    · exact h.plans id hbefore
    · exact hitem
  · unfold Programs.InForce Programs.HasStep
    rw [hprograms, hsteps]
    exact h.programs

/-- A plan has an item still if the item that changes counts still. -/
theorem hasItem_of_rows {id : Uuid} (hrows : ∀ j i, s₁.planItems.find j = some i → i.planId = id → i.status ≠ .cancelled →
      ∃ i', s₂.planItems.find j = some i' ∧ i'.planId = id ∧ i'.status ≠ .cancelled) (h : Plans.HasItem id s₁) :
    Plans.HasItem id s₂ := by
  obtain ⟨j, i, hi, hplan, hstatus⟩ := h
  obtain ⟨i', hi', hcounts⟩ := hrows j i hi hplan hstatus
  exact ⟨j, i', hi', hcounts⟩

/-- A transition that puts a plan in force asks for an item, or the plan was in force. -/
theorem planWorkflow_inForce : ∀ t ∈ Plans.planWorkflow.transitions, planInForce t.toState = true →
    planInForce t.fromState = true ∨ "has_items" ∈ t.guards := by
  decide

theorem transitioned_status (ctx : Ctx) (t : Transition PlanStatus) (p : AuditPlan) :
    (Plans.transitioned ctx t p).status = t.toState := by
  unfold Plans.transitioned
  dsimp only
  split <;> rfl

theorem apply_status {dto : Plans.UpdatePlanDto} {p p' : AuditPlan} (h : dto.apply p = .ok p') : p'.status = p.status := by
  unfold Plans.UpdatePlanDto.apply at h
  split at h
  · cases h
    rfl
  · cases h

theorem apply_item_planId {dto : Plans.UpdatePlanItemDto} {i i' : AuditPlanItem} (h : dto.apply i = .ok i') :
    i'.planId = i.planId := by
  unfold Plans.UpdatePlanItemDto.apply at h
  split at h
  · cases h
    rfl
  · cases h

theorem NotEmpty.moved {ctx : Ctx} {id : Uuid} {dto : TransitionDto} {t : Transition PlanStatus} {plan p : AuditPlan}
    (h : NotEmpty s₁) (hmoved : Plans.Moved Quiet s ctx id dto t plan p s₁ s₂) : NotEmpty s₂ := by
  obtain ⟨s₀, h₀, h₁, hread⟩ := hmoved.read
  refine h.of_plans ?_ ?_ (by rw [hmoved.rest]) (by rw [hmoved.rest])
  · rintro id' ⟨q, hq, hforce⟩
    rw [hmoved.rows] at hq
    split at hq
    · rename_i hid
      cases hq
      rw [transitioned_status] at hforce
      obtain ⟨hmem, hfrom, -⟩ := findTransition_some hmoved.declared
      rw [hid]
      rcases planWorkflow_inForce t hmem hforce with hbefore | hguard
      · refine .inl ⟨plan, ?_, by rwa [← hfrom]⟩
        obtain ⟨auditTrail, notifications, rfl⟩ := h₁.eq
        exact (Ctx.findById_eq_some.mp hread).1
      · obtain ⟨sg, -, hsg, j, i, hitem⟩ := hmoved.items hguard
        obtain ⟨auditTrail, notifications, rfl⟩ := hsg.eq
        exact .inr ⟨j, i, hitem⟩
    · exact .inl ⟨q, hq, hforce⟩
  · rintro id' -
    refine hasItem_of_rows fun j i hi hplan hstatus => ?_
    rw [hmoved.planned, hi, Option.map_some]
    split
    · exact ⟨_, rfl, hplan, by simp⟩
    · exact ⟨i, rfl, hplan, hstatus⟩

theorem NotEmpty.edited {ctx : Ctx} {planId itemId : Uuid} {dto : Plans.UpdatePlanItemDto} {before i i' : AuditPlanItem}
    (h : NotEmpty s₁) (hpermitted : ctx.hasPermission .planManage = true)
    (hspared : Empties s (.plan (.updateItem ctx planId itemId dto)) = false)
    (hedited : Plans.Edited Quiet s ctx planId itemId dto before i i' s₁ s₂) : NotEmpty s₂ := by
  obtain ⟨s₀, h₀, h₁, hread⟩ := hedited.read
  have hplans : s₂.plans = s₁.plans := by rw [hedited.rest]
  have hrow := hedited.row
  have hadmitted := hedited.admitted
  refine h.of_plans (fun id hid => .inl ?_) ?_ (by rw [hedited.rest]) (by rw [hedited.rest])
  · unfold PlanInForce at hid ⊢
    rwa [hplans] at hid
  · rintro id ⟨p, hp, hforce⟩
    by_cases hcancelled : i'.status = .cancelled ∧ i.planId = id
    · -- the item is cancelled: another one of the plan counts
      obtain ⟨hcancelled, rfl⟩ := hcancelled
      rw [hplans] at hp
      obtain ⟨auditTrail, notifications, rfl⟩ := (h₀.trans h₁).eq
      obtain ⟨auditTrail₀, notifications₀, rfl⟩ := h₀.eq
      have hrow : s.planItems.find itemId = some i := hrow
      have hp : s.plans.find i.planId = some p := hp
      have hadmitted : Plans.itemConstrained s itemId i' = .ok () := hadmitted
      have hread : Plans.findItem ctx s planId itemId = some before := hread
      obtain ⟨hbefore, -, hplan⟩ := Ctx.findById_eq_some.mp hread
      rw [hrow, Option.some.injEq] at hbefore
      subst hbefore
      rw [decide_eq_true_eq] at hplan
      subst hplan
      have hother : onlyItem s i.planId itemId = false := by
        simpa [Empties, hpermitted, hp, hforce, hread, hedited.change, hcancelled, hadmitted, Except.isOk,
          Except.toBool] using hspared
      obtain ⟨j, other, hfind, hne, hplan, hstatus⟩ := onlyItem_eq_false_iff.mp hother
      rintro -
      exact ⟨j, other, by rw [hedited.rows, if_neg hne]; exact hfind, hplan, hstatus⟩
    · refine hasItem_of_rows fun j item hitem hplan hstatus => ?_
      rw [hedited.rows]
      split
      · rename_i hj
        subst hj
        rw [hrow, Option.some.injEq] at hitem
        subst hitem
        refine ⟨i', rfl, by rw [apply_item_planId hedited.change, hplan], fun hc => hcancelled ⟨hc, hplan⟩⟩
      · exact ⟨item, hitem, hplan, hstatus⟩

theorem NotEmpty.deleted {ctx : Ctx} {planId itemId : Uuid} {before : AuditPlanItem} (h : NotEmpty s₁)
    (hpermitted : ctx.hasPermission .planManage = true)
    (hspared : Empties s (.plan (.deleteItem ctx planId itemId)) = false)
    (hdeleted : Plans.Deleted Quiet s ctx planId itemId before s₁ s₂) : NotEmpty s₂ := by
  obtain ⟨s₀, h₀, h₁, hread⟩ := hdeleted.read
  have hplans : s₂.plans = s₁.plans := by rw [hdeleted.rest]
  refine h.of_plans (fun id hid => .inl ?_) ?_ (by rw [hdeleted.rest]) (by rw [hdeleted.rest])
  · unfold PlanInForce at hid ⊢
    rwa [hplans] at hid
  · rintro id ⟨p, hp, hforce⟩ ⟨j, i, hi, hplan, hstatus⟩
    by_cases hj : j = itemId
    · -- the item is deleted: another one of the plan counts
      subst hj
      rw [hplans] at hp
      obtain ⟨auditTrail, notifications, rfl⟩ := (h₀.trans h₁).eq
      obtain ⟨auditTrail₀, notifications₀, rfl⟩ := h₀.eq
      have hi : s.planItems.find j = some i := hi
      have hp : s.plans.find id = some p := hp
      have hread : Plans.findItem ctx s planId j = some before := hread
      obtain ⟨hbefore, -, hplan'⟩ := Ctx.findById_eq_some.mp hread
      rw [hi, Option.some.injEq] at hbefore
      subst hbefore
      rw [decide_eq_true_eq, hplan] at hplan'
      subst hplan'
      have hother : onlyItem s id j = false := by
        simpa [Empties, hpermitted, hp, hforce, hread, hdeleted.free] using hspared
      obtain ⟨k, other, hfind, hne, hplan', hstatus'⟩ := onlyItem_eq_false_iff.mp hother
      exact ⟨k, other, by rw [hdeleted.rows, if_neg hne]; exact hfind, hplan', hstatus'⟩
    · exact ⟨j, i, by rw [hdeleted.rows, if_neg hj, hi], hplan, hstatus⟩

/-- The other calls leave a plan in force as it is, and the items that count. -/
theorem NotEmpty.of_items (h : NotEmpty s₁) (hplans : s₂.plans = s₁.plans)
    (hrows : ∀ j i, s₁.planItems.find j = some i → i.status ≠ .cancelled →
      ∃ i', s₂.planItems.find j = some i' ∧ i'.planId = i.planId ∧ i'.status ≠ .cancelled)
    (hprograms : s₂.programs = s₁.programs) (hsteps : s₂.programSteps = s₁.programSteps) : NotEmpty s₂ := by
  refine h.of_plans (fun id hid => .inl ?_) (fun id _ => hasItem_of_rows fun j i hi hplan hstatus => ?_) hprograms hsteps
  · unfold PlanInForce at hid ⊢
    rwa [hplans] at hid
  · obtain ⟨i', hi', hplan', hstatus'⟩ := hrows j i hi hstatus
    exact ⟨i', hi', hplan'.trans hplan, hstatus'⟩

theorem NotEmpty.starting {ctx : Ctx} {itemId : Uuid} (h : NotEmpty s₁) (hstarting : Plans.Starting ctx itemId s₁ s₂) :
    NotEmpty s₂ := by
  cases hstarting with
  | quiet hq =>
    obtain ⟨auditTrail, notifications, rfl⟩ := hq.eq
    exact h.of_eq rfl rfl rfl rfl
  | engaged hengaged =>
    refine h.of_items (by rw [hengaged.rest]) (fun j i hi hstatus => ?_) (by rw [hengaged.rest]) (by rw [hengaged.rest])
    rw [hengaged.rows, hi, Option.map_some]
    split
    · exact ⟨_, rfl, rfl, hstatus⟩
    · exact ⟨i, rfl, rfl, hstatus⟩
  | started hstarted =>
    refine h.of_items (by rw [hstarted.rest]) (fun j i hi hstatus => ?_) (by rw [hstarted.rest]) (by rw [hstarted.rest])
    rw [hstarted.rows]
    split
    · rename_i hj
      subst hj
      rw [hstarted.row, Option.some.injEq] at hi
      exact ⟨_, rfl, by rw [hi], by simp⟩
    · exact ⟨i, hi, rfl, hstatus⟩

/-- Each call of a request for plans that takes no last item away. -/
theorem NotEmpty.call {r : Plans.Request} (h : NotEmpty s₁) (hpermitted : r.ctx.hasPermission r.permission = true)
    (hspared : Empties s (.plan r) = false) (hcall : Plans.Call Quiet s r s₁ s₂) : NotEmpty s₂ := by
  cases hcall with
  | quiet hq =>
    obtain ⟨auditTrail, notifications, rfl⟩ := hq.eq
    exact h.of_eq rfl rfl rfl rfl
  | create hcreated =>
    refine h.of_plans ?_ ?_ (by rw [hcreated.rest]) (by rw [hcreated.rest])
    · rintro id ⟨p, hp, hforce⟩
      rw [hcreated.rows] at hp
      split at hp
      · cases hp
        cases hforce
      · exact .inl ⟨p, hp, hforce⟩
    · unfold Plans.HasItem
      rw [hcreated.rest]
      exact fun _ _ => id
  | update hupdated =>
    refine h.of_plans ?_ ?_ (by rw [hupdated.rest]) (by rw [hupdated.rest])
    · rintro id ⟨p, hp, hforce⟩
      rw [hupdated.rows] at hp
      split at hp
      · rename_i hid
        cases hp
        rw [apply_status hupdated.change] at hforce
        exact .inl ⟨_, by rw [hid]; exact hupdated.row, hforce⟩
      · exact .inl ⟨p, hp, hforce⟩
    · unfold Plans.HasItem
      rw [hupdated.rest]
      exact fun _ _ => id
  | transition hmoved => exact h.moved hmoved
  | addItem hadded =>
    refine h.of_items (by rw [hadded.rest]) (fun j i hi hstatus => ⟨i, ?_, rfl, hstatus⟩) (by rw [hadded.rest])
      (by rw [hadded.rest])
    rw [hadded.rows, if_neg, hi]
    rintro rfl
    rw [hadded.fresh] at hi
    cases hi
  | updateItem hedited => exact h.edited hpermitted hspared hedited
  | deleteItem hdeleted => exact h.deleted hpermitted hspared hdeleted
  | start _ _ _ hstarting => exact h.starting hstarting

end Plans

/-! ### Operations on programmes -/

/-- Each call of an operation on programmes that takes no last step away. -/
theorem NotEmpty.act {o : Programs.Operation} {s s₁ s₂ : Db} (h : NotEmpty s₁)
    (hpermitted : ∀ ctx id, o = .deleteStep ctx id → ctx.hasPermission .programManage = true)
    (hspared : Empties s (.program o) = false) (hact : Programs.Act s o s₁ s₂) : NotEmpty s₂ := by
  have hplans : ∀ {s₂ : Db}, Programs.SamePlans s₁ s₂ → ∀ id, PlanInForce id s₂ → Plans.HasItem id s₂ := by
    rintro s₂ ⟨hplans, hitems⟩
    unfold PlanInForce Plans.HasItem
    rw [hplans, hitems]
    exact h.plans
  cases hact with
  | keeps hkeeps => exact ⟨hplans hkeeps.plans, fun id hid => hkeeps.hasStep id (h.programs id (hkeeps.inForce id hid))⟩
  | approved happroved =>
    refine ⟨hplans happroved.plans, fun id hid => ?_⟩
    unfold Programs.HasStep
    rw [happroved.steps]
    rcases happroved.inForce id hid with hbefore | rfl
    · exact h.programs id hbefore
    · exact happroved.step
  | deleted hdeleted =>
    rename_i ctx stepId step
    refine ⟨hplans hdeleted.plans, ?_⟩
    rintro id ⟨p, hp, hforce⟩
    rw [hdeleted.programs] at hp
    obtain ⟨j, row, hrow, hprogram⟩ := h.programs id ⟨p, hp, hforce⟩
    by_cases hj : j = stepId
    · -- the step is deleted: another one is in the programme
      subst hj
      have hread := hdeleted.row
      have hunlinked := hdeleted.unlinked
      obtain ⟨auditTrail, notifications, rfl⟩ := hdeleted.since.eq
      have hread : ctx.findById s.programSteps j (fun _ => true) = some step := hread
      have hp : s.programs.find id = some p := hp
      have hrow : s.programSteps.find j = some row := hrow
      rw [(Ctx.findById_eq_some.mp hread).1, Option.some.injEq] at hrow
      subst hrow hprogram
      have hother : onlyStep s step.programId j = false := by
        simpa [Empties, hpermitted ctx j rfl, hread, hunlinked, hp, hforce] using hspared
      obtain ⟨k, other, hfind, hne, hother⟩ := onlyStep_eq_false_iff.mp hother
      exact ⟨k, other, by rw [hdeleted.rows, if_neg hne]; exact hfind, hother⟩
    · exact ⟨j, row, by rw [hdeleted.rows, if_neg hj]; exact hrow, hprogram⟩

/-! ### What empties -/

/-- A request that takes no last item or step away leaves nothing empty. -/
theorem NotEmpty.served {s : Db} {r : Request} (h : NotEmpty s) (hspared : Empties s r = false) :
    NotEmpty (after serve s r) := by
  cases r with
  | plan r =>
    rw [after_plan]
    cases hpermitted : r.ctx.hasPermission r.permission with
    | false =>
      rw [Plans.serve_denied hpermitted]
      exact h
    | true =>
      exact (Plans.serve_meets .of_quiet r s).run_keeps Quiet.refl (fun _ _ h hcall => h.call hpermitted hspared hcall) h
  | program o =>
    rw [after_program]
    by_cases hdenied : ∃ ctx id, o = .deleteStep ctx id ∧ ctx.hasPermission .programManage = false
    · obtain ⟨ctx, id, rfl, hdenied⟩ := hdenied
      have hsame : after Programs.perform s (.deleteStep ctx id) = s := by
        simp [after, Programs.perform, Programs.guarded, hdenied]
      rwa [hsame]
    · refine (Programs.perform_meets o s).run_keeps Quiet.refl (fun _ _ h hact => h.act ?_ hspared hact) h
      rintro ctx id rfl
      by_contra hne
      exact hdenied ⟨ctx, id, rfl, by simpa using hne⟩

theorem found_by_id {ctx : Ctx} {s : Db} {planId itemId : Uuid} {i : AuditPlanItem}
    (h : Plans.findItem ctx s planId itemId = some i) :
    ctx.findById s.planItems itemId (fun _ => true) = some i ∧ i.planId = planId := by
  obtain ⟨hfind, hsees, hplan⟩ := Ctx.findById_eq_some.mp h
  exact ⟨Ctx.findById_eq_some.mpr ⟨hfind, hsees, rfl⟩, by simpa using hplan⟩

/-- What is answered makes no difference to the state. -/
theorem after_permitted {α β : Type} {c : Prop} [Decidable c] {e : HttpError} {p : Service α} {f : α → β} {s : Db}
    (h : ¬c) : ((if c then throw e else p >>= fun a => (pure (f a) : Service β)).run s).2 = (p.run s).2 := by
  rw [if_neg h]
  exact congrArg Prod.snd (run_return p f s)

theorem after_deleteItem {s : Db} {ctx : Ctx} {planId itemId : Uuid} {i : AuditPlanItem}
    (hpermitted : ctx.hasPermission .planManage = true) (hfound : Plans.findItem ctx s planId itemId = some i)
    (hfree : i.engagementId = none) : (after Plans.serve s (.deleteItem ctx planId itemId)).plans = s.plans ∧
      (after Plans.serve s (.deleteItem ctx planId itemId)).planItems = s.planItems.remove fun j _ => j = itemId := by
  have hrun : after Plans.serve s (.deleteItem ctx planId itemId) = ((Plans.deleteItem ctx planId itemId).run s).2 :=
    after_permitted (f := fun _ => Plans.Response.deleted) (by simp [Plans.Request.ctx, Plans.Request.permission, hpermitted])
  rw [hrun]
  simp [Plans.deleteItem, Prog.run_bind, hfound, hfree, Plans.deleteItemRow, (found_by_id hfound).1, auditRecord]

theorem after_updateItem {s : Db} {ctx : Ctx} {planId itemId : Uuid} {dto : Plans.UpdatePlanItemDto}
    {i i' : AuditPlanItem} (hpermitted : ctx.hasPermission .planManage = true)
    (hfound : Plans.findItem ctx s planId itemId = some i) (hchange : dto.apply i = .ok i')
    (hadmitted : Plans.itemConstrained s itemId i' = .ok ()) :
    (after Plans.serve s (.updateItem ctx planId itemId dto)).plans = s.plans ∧
      (after Plans.serve s (.updateItem ctx planId itemId dto)).planItems =
        s.planItems.modify (fun j _ => j = itemId) fun _ => i' := by
  have hrun : after Plans.serve s (.updateItem ctx planId itemId dto) =
      ((Plans.updateItem ctx planId itemId dto).run s).2 :=
    after_permitted (f := Plans.Response.item) (by simp [Plans.Request.ctx, Plans.Request.permission, hpermitted])
  have hrow : updateRow ctx s.planItems itemId dto.apply =
      .ok (i', s.planItems.modify (fun j _ => j = itemId) fun _ => i') := by
    simp [updateRow, (found_by_id hfound).1, hchange]
  have hwrite : (Plans.updateItemRow ctx itemId dto.apply).run s =
      (.ok (Plans.itemView { s with planItems := s.planItems.modify (fun j _ => j = itemId) fun _ => i' } (itemId, i')),
        { s with planItems := s.planItems.modify (fun j _ => j = itemId) fun _ => i' }) :=
    Prog.run_call_ok.mpr (Prog.bind_eq_ok.mpr ⟨_, hrow, Prog.bind_eq_ok.mpr ⟨(), hadmitted, rfl⟩⟩)
  rw [hrun]
  simp [Plans.updateItem, Prog.run_bind, hfound, hwrite, auditRecord, -bind_pure_comp]

theorem after_deleteStep {s : Db} {ctx : Ctx} {id : Uuid} {step : AuditProgramStep}
    (hpermitted : ctx.hasPermission .programManage = true)
    (hfound : ctx.findById s.programSteps id (fun _ => true) = some step)
    (hunlinked : (s.workpapers.count fun _ w => w.programStepId = some id) = 0) :
    (after Programs.perform s (.deleteStep ctx id)).programs = s.programs ∧
      (after Programs.perform s (.deleteStep ctx id)).programSteps = s.programSteps.remove fun j _ => j = id := by
  have hrun : after Programs.perform s (.deleteStep ctx id) = ((Programs.deleteStep ctx id).run s).2 :=
    after_permitted (f := fun _ => Programs.Response.deleted) (by simp [hpermitted])
  rw [hrun]
  simp [Programs.deleteStep, Prog.run_bind, hfound, hunlinked, Programs.deleteStepRow, auditRecord]

/-- What a request takes away that empties a plan or a programme. -/
theorem empty_served {s : Db} {r : Request} (hempties : Empties s r = true) : ¬NotEmpty (after serve s r) := by
  intro h
  unfold Empties at hempties
  split at hempties
  · rename_i ctx planId itemId
    simp only [Bool.and_eq_true, Option.any_eq_true] at hempties
    obtain ⟨⟨hpermitted, p, hp, hforce⟩, i, hfound, hfree, honly⟩ := hempties
    obtain ⟨hplans, hitems⟩ := after_deleteItem hpermitted hfound (by simpa using hfree)
    rw [after_plan] at h
    obtain ⟨j, other, hother, hplan, hstatus⟩ := h.plans planId ⟨p, by rw [hplans]; exact hp, hforce⟩
    rw [hitems, Table.find_remove] at hother
    obtain ⟨hother, hne⟩ := Option.filter_eq_some_iff.mp hother
    rw [onlyItem_eq_false_iff.mpr ⟨j, other, hother, by simpa using hne, hplan, hstatus⟩] at honly
    cases honly
  · rename_i ctx planId itemId dto
    simp only [Bool.and_eq_true, Option.any_eq_true] at hempties
    obtain ⟨⟨hpermitted, p, hp, hforce⟩, i, hfound, honly, hchange⟩ := hempties
    split at hchange
    · rename_i i' happly
      simp only [Bool.and_eq_true, decide_eq_true_eq] at hchange
      have hadmitted : Plans.itemConstrained s itemId i' = .ok () := by
        cases hc : Plans.itemConstrained s itemId i' with
        | ok u => rfl
        | error e => simp [hc, Except.isOk, Except.toBool] at hchange
      obtain ⟨hplans, hitems⟩ := after_updateItem hpermitted hfound happly hadmitted
      rw [after_plan] at h
      obtain ⟨j, other, hother, hplan, hstatus⟩ := h.plans planId ⟨p, by rw [hplans]; exact hp, hforce⟩
      rw [hitems, Table.find_modify] at hother
      obtain ⟨row, hrow, heq⟩ := Option.map_eq_some_iff.mp hother
      by_cases hj : j = itemId
      · rw [if_pos (by simpa using hj)] at heq
        subst heq
        exact hstatus hchange.1
      · rw [if_neg (by simpa using hj)] at heq
        subst heq
        rw [onlyItem_eq_false_iff.mpr ⟨j, row, hrow, hj, hplan, hstatus⟩] at honly
        cases honly
    · cases hchange
  · rename_i ctx id
    simp only [Bool.and_eq_true, Option.any_eq_true, decide_eq_true_eq] at hempties
    obtain ⟨hpermitted, step, hfound, ⟨honly, hunlinked⟩, p, hp, hforce⟩ := hempties
    obtain ⟨hprograms, hsteps⟩ := after_deleteStep hpermitted hfound hunlinked
    rw [after_program] at h
    obtain ⟨j, other, hother, hprogram⟩ := h.programs step.programId ⟨p, by rw [hprograms]; exact hp, hforce⟩
    rw [hsteps, Table.find_remove] at hother
    obtain ⟨hother, hne⟩ := Option.filter_eq_some_iff.mp hother
    rw [onlyStep_eq_false_iff.mpr ⟨j, other, hother, by simpa using hne, hprogram⟩] at honly
    cases honly
  · cases hempties

/-- **What was approved is not empty**: starting from where it holds, every plan in force has an
item that is not cancelled and every programme in force has a step, in every state of a history,
exactly if none of its requests takes the last one away. -/
theorem not_empty_iff (s₀ : Db) (h₀ : NotEmpty s₀) (past : List Request) :
    Throughout serve NotEmpty s₀ past ↔ Always serve (fun s r => Empties s r = false) s₀ past := by
  refine throughout_iff_always (I := fun _ => True) (fun _ => trivial) h₀ ?_ past
  intro s r _ h
  constructor
  · intro hafter
    by_contra hempties
    exact empty_served (by simpa using hempties) hafter
  · exact h.served

/-- A user who may do everything with plans and programmes, and the uuids of one request. -/
def officer (k : Uuid) : Ctx := { Workpapers.actor 1 k with
  permissions := [.planRead, .planManage, .planApprove, .programManage, .programApprove] }

/-- A step to be added. -/
def cashStep (reference : String) : Programs.CreateStepDto where
  sectionName := "Cash"
  reference
  objective := "Cash is there"
  procedure := "Count"

/-- Plan 500 is submitted with item 510, and programme 600 approved with step 610. -/
def filled : List Request :=
  [.program (.approve (officer 620) 600),
    .program (.edit (.addStep (officer 610) 600 (cashStep "A.1"))),
    .program (.create (officer 600) 10 { title := "Cash" }),
    .plan (.transition (officer 520) 500 { action := "submit" }),
    .plan (.addItem (officer 510) 500 { title := "Cash", plannedYear := 2025 }),
    .plan (.create (officer 500) { title := "Plan 2025", fiscalYear := 2025, startDate := 1, endDate := 365 })]

/-- An item and a step are added, and those that were there at first deleted. -/
def replaced : List Request :=
  [.program (.deleteStep (officer 640) 610), .plan (.deleteItem (officer 550) 500 510),
    .program (.edit (.addStep (officer 630) 600 (cashStep "A.2"))),
    .plan (.addItem (officer 530) 500 { title := "Sales", plannedYear := 2025 })]

theorem notEmpty_office : NotEmpty Workpapers.office := by
  constructor
  · rintro id ⟨p, hp, -⟩
    cases hp
  · rintro id ⟨p, hp, -⟩
    cases hp

/-- Nothing is ever empty then. -/
theorem not_empty_iff_replaced : Throughout serve NotEmpty Workpapers.office (replaced ++ filled) :=
  (not_empty_iff Workpapers.office notEmpty_office (replaced ++ filled)).mpr (by decide +kernel)

/-- The item and the step are deleted, without others. -/
def emptied : List Request :=
  [.program (.deleteStep (officer 640) 610), .plan (.deleteItem (officer 550) 500 510)] ++ filled

/-- The plan awaits approval without an item, and the programme is approved without a step. -/
theorem emptied_in_force :
    ((history serve Workpapers.office emptied).plans.find 500).map AuditPlan.status = some .pendingApproval ∧
    ((history serve Workpapers.office emptied).planItems.rows fun _ i => i.planId = 500) = [] ∧
    ((history serve Workpapers.office emptied).programs.find 600).map AuditProgram.status = some .approved ∧
    ((history serve Workpapers.office emptied).programSteps.rows fun _ step => step.programId = 600) = [] := by
  decide +kernel

end AuditSphere.Contents
