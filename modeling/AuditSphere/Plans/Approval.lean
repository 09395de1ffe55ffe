import AuditSphere.Plans.Requests
import AuditSphere.Workpapers.History

/-!
# Plans under approval, and archived plans

While a plan awaits approval, and once it is archived, `update` refuses to change it, and
`addItem` refuses an archived plan. The other methods on items do not look at the plan, and
`addItem` lets in an item while the plan awaits approval (`Touches`). If no request does so,
the plan stays as it was submitted until it leaves that status (`kept_while_frozen`).
-/

namespace AuditSphere.Plans

open Prisma Theory Shared

/-- The plan awaits approval, or is archived. -/
def Frozen (p : Uuid) (s : Db) : Prop := (s.plans.find p).any (fun plan => plan.status ∈ [.pendingApproval, .archived]) = true

instance (p : Uuid) (s : Db) : Decidable (Frozen p s) := inferInstanceAs (Decidable (_ = true))

/-- The row of a plan without its status and the marks of its approval. -/
def unmarked (plan : AuditPlan) : AuditPlan := { plan with status := .draft, approvedById := none, approvedAt := none }

/-- The plan's own fields, but for its status and the marks of its approval, are the same, and
so are its items. -/
structure Kept (p : Uuid) (s s' : Db) : Prop where
  plan : (s'.plans.find p).map unmarked = (s.plans.find p).map unmarked
  items : ∀ j, (s'.planItems.find j).filter (·.planId = p) = (s.planItems.find j).filter (·.planId = p)

theorem Kept.refl (p : Uuid) (s : Db) : Kept p s s := ⟨rfl, fun _ => rfl⟩

theorem Kept.trans {p : Uuid} {a b c : Db} (h : Kept p a b) (h' : Kept p b c) : Kept p a c :=
  ⟨h'.plan.trans h.plan, fun j => (h'.items j).trans (h.items j)⟩

theorem Kept.quiet {p : Uuid} {a b c : Db} (h : Kept p a b) (hq : Quiet b c) : Kept p a c := by
  obtain ⟨auditTrail, notifications, rfl⟩ := hq.eq
  exact ⟨h.plan, h.items⟩

/-- The request adds an item to the plan, changes one or takes one away, by a method that does
not ask whether the plan may be changed: the method's own checks pass. -/
def Touches (p : Uuid) (s : Db) (r : Request) : Bool :=
  r.ctx.hasPermission r.permission && match r with
    | .addItem ctx planId dto => decide (planId = p) && (ctx.findById s.plans planId fun _ => true).any fun plan =>
        plan.status ≠ .archived && (s.planItems.find (ctx.uuid 0)).isNone &&
          (itemConstrained s (ctx.uuid 0) (newItem ctx planId plan dto)).isOk
    | .updateItem ctx planId itemId dto => decide (planId = p) && (findItem ctx s planId itemId).any fun i =>
        match dto.apply i with
        | .ok i' => i' ≠ i && (itemConstrained s itemId i').isOk
        | .error _ => false
    | .deleteItem ctx planId itemId => decide (planId = p) && (findItem ctx s planId itemId).any fun i =>
        i.engagementId.isNone
    | .createEngagement ctx planId itemId => decide (planId = p) && (findItem ctx s planId itemId).any fun i =>
        i.engagementId.isNone && i.status ≠ .cancelled
    | _ => false

/-- While the plan is frozen, its items are not touched. -/
def Spares (p : Uuid) (s : Db) (r : Request) : Prop := Frozen p s → Touches p s r = false

instance (p : Uuid) (s : Db) (r : Request) : Decidable (Spares p s r) :=
  inferInstanceAs (Decidable ((_ = true) → _))

/-! ### What a call leaves -/

theorem unmarked_transitioned (ctx : Ctx) (t : Transition PlanStatus) (plan : AuditPlan) :
    unmarked (transitioned ctx t plan) = unmarked plan := by
  unfold transitioned
  dsimp only
  split <;> rfl

/-- Only an approved plan is activated. -/
theorem activate_approved : ∀ t ∈ planWorkflow.transitions, t.action = "activate" → t.fromState = .approved := by
  decide

theorem editable_not_frozen : ∀ status ∈ editableStatuses, status ∉ [PlanStatus.pendingApproval, .archived] := by
  decide

section Frozen

variable {p : Uuid} {s : Db}

theorem Frozen.row (h : Frozen p s) :
    ∃ plan, s.plans.find p = some plan ∧ plan.status ∈ [PlanStatus.pendingApproval, .archived] := by
  unfold Frozen at h
  rw [Option.any_eq_true] at h
  obtain ⟨plan, hplan, hstatus⟩ := h
  exact ⟨plan, hplan, by simpa using hstatus⟩

/-- The row of a frozen plan as a request finds it, before anything but what is quiet has changed. -/
theorem Frozen.found (h : Frozen p s) {ctx : Ctx} {s₀ : Db} (h₀ : Quiet s s₀) {plan : AuditPlan}
    (hread : ctx.findById s₀.plans p (fun _ => true) = some plan) : plan.status ∈ [.pendingApproval, .archived] := by
  obtain ⟨auditTrail, notifications, rfl⟩ := h₀.eq
  obtain ⟨hfind, -⟩ := Ctx.findById_eq_some.mp hread
  obtain ⟨plan', hplan', hstatus⟩ := h.row
  rw [hfind, Option.some.injEq] at hplan'
  rwa [hplan']

end Frozen

/-- Rows that are none, or not the plan's, are not among its items. -/
theorem filter_other {p : Uuid} {row : Option AuditPlanItem} (h : ∀ i, row = some i → i.planId ≠ p) :
    row.filter (·.planId = p) = none := by
  cases row with
  | none => rfl
  | some i => simpa using h i rfl

section Kept

variable {p : Uuid} {s s₁ s₂ : Db}

/-- The plan's items are the same if one row changes that is not one of them. -/
theorem Kept.of_other_item (h : Kept p s s₁) (itemId : Uuid) (row : Option AuditPlanItem)
    (hbefore : ∀ i, s₁.planItems.find itemId = some i → i.planId ≠ p) (hafter : ∀ i, row = some i → i.planId ≠ p)
    (hrows : ∀ j, s₂.planItems.find j = if j = itemId then row else s₁.planItems.find j)
    (hplans : s₂.plans = s₁.plans) : Kept p s s₂ := by
  refine ⟨by rw [hplans]; exact h.plan, fun j => ?_⟩
  rw [← h.items j, hrows]
  split
  · rename_i hj
    rw [hj, filter_other hbefore, filter_other hafter]
  · rfl

/-- A row that is not one of the plan's items is none of them later. -/
theorem Kept.other (h : Kept p s s₁) {itemId : Uuid} (hother : ∀ i, s.planItems.find itemId = some i → i.planId ≠ p) :
    ∀ i, s₁.planItems.find itemId = some i → i.planId ≠ p := by
  intro i hi hplan
  have hitems := h.items itemId
  rw [filter_other hother, hi, Option.filter_eq_none_iff] at hitems
  exact hitems i rfl (decide_eq_true hplan)

theorem apply_planId {dto : UpdatePlanItemDto} {i i' : AuditPlanItem} (h : dto.apply i = .ok i') : i'.planId = i.planId := by
  unfold UpdatePlanItemDto.apply at h
  split at h
  · cases h
    rfl
  · cases h

theorem found_item {ctx : Ctx} {planId itemId : Uuid} {s₀ : Db} (h₀ : Quiet s s₀) {i : AuditPlanItem}
    (hread : findItem ctx s₀ planId itemId = some i) :
    findItem ctx s planId itemId = some i ∧ s.planItems.find itemId = some i ∧ i.planId = planId := by
  obtain ⟨auditTrail, notifications, rfl⟩ := h₀.eq
  obtain ⟨hfind, -, hplan⟩ := Ctx.findById_eq_some.mp hread
  exact ⟨hread, hfind, by simpa using hplan⟩

theorem Kept.created {ctx : Ctx} {dto : CreatePlanDto} {id : Uuid} {latest : ℕ} (h : Kept p s s₁) (hfrozen : Frozen p s)
    (hcreated : Created ctx dto id latest s₁ s₂) : Kept p s s₂ := by
  obtain ⟨hfresh, hrows, hrest⟩ := hcreated
  have hne : p ≠ id := by
    rintro rfl
    obtain ⟨plan, hplan, -⟩ := hfrozen.row
    have hkept := h.plan
    rw [hfresh, hplan] at hkept
    cases hkept
  refine ⟨?_, by rw [hrest]; exact h.items⟩
  rw [hrows, if_neg hne]
  exact h.plan

theorem Kept.updated {ctx : Ctx} {id : Uuid} {dto : UpdatePlanDto} {before plan plan' : AuditPlan} (h : Kept p s s₁)
    (hfrozen : Frozen p s) (hupdated : Updated Quiet s ctx id dto before plan plan' s₁ s₂) : Kept p s s₂ := by
  obtain ⟨s₀, h₀, -, hread⟩ := hupdated.read
  have hne : p ≠ id := by
    rintro rfl
    exact editable_not_frozen _ hupdated.editable (hfrozen.found h₀ hread)
  refine ⟨?_, by rw [hupdated.rest]; exact h.items⟩
  rw [hupdated.rows, if_neg hne]
  exact h.plan

theorem Kept.moved {ctx : Ctx} {id : Uuid} {dto : TransitionDto} {t : Transition PlanStatus} {before plan : AuditPlan}
    (h : Kept p s s₁) (hfrozen : Frozen p s) (hmoved : Moved Quiet s ctx id dto t before plan s₁ s₂) : Kept p s s₂ := by
  constructor
  · rw [← h.plan, hmoved.rows]
    split
    · rename_i hp
      rw [hp, hmoved.row, Option.map_some, Option.map_some, unmarked_transitioned]
    · rfl
  · intro j
    rw [← h.items j, hmoved.planned]
    cases hi : s₁.planItems.find j with
    | none => rfl
    | some i =>
      rw [Option.map_some]
      split
      · rename_i hproposed
        obtain ⟨hactivate, -, hplan, -⟩ := hproposed
        -- the plan that is activated was approved, so it is another one
        have hne : i.planId ≠ p := by
          rintro rfl
          obtain ⟨s₀, h₀, -, hread⟩ := hmoved.read
          rw [← hplan] at hread
          obtain ⟨hmem, hfrom, -⟩ := findTransition_some hmoved.declared
          have hstatus := hfrozen.found h₀ hread
          rw [← hfrom, activate_approved t hmem hactivate] at hstatus
          simp at hstatus
        rw [filter_other (by rintro _ ⟨⟩; exact hne), filter_other (by rintro _ ⟨⟩; exact hne)]
      · rfl

theorem Kept.starting {ctx : Ctx} {itemId : Uuid} (h : Kept p s s₁)
    (hother : ∀ i, s.planItems.find itemId = some i → i.planId ≠ p) (hstarting : Starting ctx itemId s₁ s₂) :
    Kept p s s₂ := by
  have hbefore := h.other hother
  cases hstarting with
  | quiet hq => exact h.quiet hq
  | engaged hengaged =>
    rename_i id e
    obtain ⟨i, hi⟩ := hengaged.row
    refine h.of_other_item itemId (some { i with engagementId := some id }) hbefore ?_ ?_ ?_
    · rintro _ ⟨⟩
      exact hbefore i hi
    · intro j
      rw [hengaged.rows]
      split
      · rename_i hj
        rw [hj, hi]
        simp
      · simp [*]
    · rw [hengaged.rest]
  | started hstarted =>
    rename_i i
    refine h.of_other_item itemId _ hbefore ?_ hstarted.rows (by rw [hstarted.rest])
    rintro _ ⟨⟩
    exact hbefore i hstarted.row

theorem Kept.added {ctx : Ctx} {planId : Uuid} {dto : CreatePlanItemDto} {plan : AuditPlan} (h : Kept p s s₁)
    (hspared : Touches p s (.addItem ctx planId dto) = false) (hpermitted : ctx.hasPermission .planManage = true)
    (hadded : Added Quiet s ctx planId dto plan s₁ s₂) : Kept p s s₂ := by
  obtain ⟨s₀, h₀, h₁, hread⟩ := hadded.read
  have hadmitted := hadded.admitted
  have hfresh := hadded.fresh
  have hne : planId ≠ p := by
    rintro rfl
    obtain ⟨auditTrail, notifications, rfl⟩ := (h₀.trans h₁).eq
    obtain ⟨auditTrail₀, notifications₀, rfl⟩ := h₀.eq
    have hread : ctx.findById s.plans planId (fun _ => true) = some plan := hread
    have hadmitted : itemConstrained s (ctx.uuid 0) (newItem ctx planId plan dto) = .ok () := hadmitted
    have hfresh : s.planItems.find (ctx.uuid 0) = none := hfresh
    simp [Touches, Request.ctx, Request.permission, hpermitted, hread, hadmitted, hfresh, hadded.opened,
      Except.isOk, Except.toBool] at hspared
  refine h.of_other_item (ctx.uuid 0) _ ?_ ?_ hadded.rows (by rw [hadded.rest])
  · intro i hi
    rw [hfresh] at hi
    cases hi
  · rintro _ ⟨⟩
    exact hne

theorem Kept.edited {ctx : Ctx} {planId itemId : Uuid} {dto : UpdatePlanItemDto} {before i i' : AuditPlanItem}
    (h : Kept p s s₁) (hspared : Touches p s (.updateItem ctx planId itemId dto) = false)
    (hpermitted : ctx.hasPermission .planManage = true)
    (hedited : Edited Quiet s ctx planId itemId dto before i i' s₁ s₂) : Kept p s s₂ := by
  obtain ⟨s₀, h₀, h₁, hread⟩ := hedited.read
  obtain ⟨hfound, hbefore, hplan⟩ := found_item h₀ hread
  have hchange := hedited.change
  have hadmitted := hedited.admitted
  have hrow := hedited.row
  by_cases hsame : i' = i
  · -- nothing is changed
    subst hsame
    refine ⟨by rw [hedited.rest]; exact h.plan, fun j => ?_⟩
    rw [← h.items j, hedited.rows]
    split
    · rename_i hj
      rw [hj, hrow]
    · rfl
  · have hne : i.planId ≠ p := by
      obtain ⟨auditTrail, notifications, rfl⟩ := (h₀.trans h₁).eq
      have hrow : s.planItems.find itemId = some i := hrow
      have hadmitted : itemConstrained s itemId i' = .ok () := hadmitted
      rw [hbefore, Option.some.injEq] at hrow
      subst hrow
      rintro rfl
      simp [Touches, Request.ctx, Request.permission, hpermitted, hfound, hchange, hadmitted, hsame, hplan,
        Except.isOk, Except.toBool] at hspared
    refine h.of_other_item itemId _ ?_ ?_ hedited.rows (by rw [hedited.rest])
    · intro _ hi
      rw [hrow] at hi
      cases hi
      exact hne
    · rintro _ ⟨⟩
      rw [apply_planId hchange]
      exact hne

theorem Kept.deleted {ctx : Ctx} {planId itemId : Uuid} {before : AuditPlanItem} (h : Kept p s s₁)
    (hspared : Touches p s (.deleteItem ctx planId itemId) = false) (hpermitted : ctx.hasPermission .planManage = true)
    (hdeleted : Deleted Quiet s ctx planId itemId before s₁ s₂) : Kept p s s₂ := by
  obtain ⟨s₀, h₀, -, hread⟩ := hdeleted.read
  obtain ⟨hfound, hbefore, hplan⟩ := found_item h₀ hread
  have hne : planId ≠ p := by
    rintro rfl
    simp [Touches, Request.ctx, Request.permission, hpermitted, hfound, hdeleted.free] at hspared
  refine h.of_other_item itemId _ (h.other ?_) ?_ hdeleted.rows (by rw [hdeleted.rest])
  · intro i hi
    rw [hbefore] at hi
    cases hi
    rwa [hplan]
  · rintro _ ⟨⟩

/-- Each call of a request that does not touch the items of a frozen plan keeps the plan. -/
theorem Kept.call {r : Request} (hfrozen : Frozen p s) (hspared : Touches p s r = false)
    (hpermitted : r.ctx.hasPermission r.permission = true) (h : Kept p s s₁) (hcall : Call Quiet s r s₁ s₂) :
    Kept p s s₂ := by
  cases hcall with
  | quiet hq => exact h.quiet hq
  | create hcreated => exact h.created hfrozen hcreated
  | update hupdated => exact h.updated hfrozen hupdated
  | transition hmoved => exact h.moved hfrozen hmoved
  | addItem hadded => exact h.added hspared hpermitted hadded
  | updateItem hedited => exact h.edited hspared hpermitted hedited
  | deleteItem hdeleted => exact h.deleted hspared hpermitted hdeleted
  | start read free wanted hstarting =>
    obtain ⟨s₀, h₀, hread⟩ := read
    obtain ⟨hfound, hbefore, hplan⟩ := found_item h₀ hread
    refine h.starting ?_ hstarting
    intro i hi
    rw [hbefore] at hi
    cases hi
    rintro rfl
    simp [Touches, hpermitted, hfound, free, wanted, hplan] at hspared

/-- A request that does not touch the items of a frozen plan keeps the plan. -/
theorem kept_after {r : Request} (hspared : Spares p s r) (hfrozen : Frozen p s) : Kept p s (after serve s r) := by
  cases hpermitted : r.ctx.hasPermission r.permission with
  | false =>
    rw [serve_denied hpermitted]
    exact .refl p s
  | true =>
    exact (serve_meets .of_quiet r s).run_keeps Quiet.refl
      (fun _ _ h => h.call hfrozen (hspared hfrozen) hpermitted) (.refl p s)

end Kept

/-! ### Until the plan leaves its status -/

/-- **A plan under approval or archived does not change**: if no request touches its items while
it has one of these statuses, the plan and its items are, when it leaves the status, what they
were when it entered it, and at every moment between. -/
theorem kept_while_frozen (p : Uuid) (s₀ : Db) (earlier later : List Request)
    (hspared : Always serve (Spares p) s₀ (later ++ earlier))
    (hfrozen : Always serve (fun s _ => Frozen p s) (history serve s₀ earlier) later) :
    Kept p (history serve s₀ earlier) (history serve s₀ (later ++ earlier)) := by
  induction later with
  | nil => exact .refl p _
  | cons r later ih =>
    have hnow := hfrozen.1
    rw [← history_append] at hnow
    exact (ih hspared.2 hfrozen.2).trans (kept_after hspared.1 hnow)

/-- A user who may do everything with plans, and the uuids of one request. -/
def planner (userId k : Uuid) : Ctx := { Workpapers.actor userId k with
  permissions := [.planRead, .planManage, .planApprove, .engagementCreate] }

/-- A user takes an action on plan 500. -/
def take (userId k : Uuid) (action : String) : Request := .transition (planner userId k) 500 { action }

/-- Ann has made plan 500 with items 510 and 511, and submitted it. -/
def submitted : List Request :=
  [take 1 512 "submit",
    .addItem (planner 1 511) 500 { title := "Sales", plannedYear := 2025 },
    .addItem (planner 1 510) 500 { title := "Cash", plannedYear := 2025 },
    .create (planner 1 500) { title := "Plan 2025", fiscalYear := 2025, startDate := 1, endDate := 365 }]

/-- Ben approves it as it was submitted; before this Ann could not change the plan itself. -/
def approved : List Request :=
  [take 2 514 "approve", .update (planner 1 513) 500 { title := some (some "Plan") }]

/-- The theorem there: what is in force was submitted. -/
theorem kept_while_frozen_approved :
    Kept 500 (history serve Workpapers.office submitted) (history serve Workpapers.office (approved ++ submitted)) := by
  refine kept_while_frozen 500 Workpapers.office submitted approved ⟨?_, ?_, ?_, ?_, ?_, ?_, trivial⟩ ⟨?_, ?_, trivial⟩ <;>
    decide +kernel

/-- Each of the other methods changes the items of a plan that awaits approval. -/
theorem changed_while_frozen : Frozen 500 (history serve Workpapers.office submitted) ∧
    ¬Kept 500 (history serve Workpapers.office submitted)
      (history serve Workpapers.office (.addItem (planner 1 520) 500 { title := "IT", plannedYear := 2025 } :: submitted)) ∧
    ¬Kept 500 (history serve Workpapers.office submitted)
      (history serve Workpapers.office (.updateItem (planner 1 520) 500 510 { title := some (some "Till") } :: submitted)) ∧
    ¬Kept 500 (history serve Workpapers.office submitted)
      (history serve Workpapers.office (.deleteItem (planner 1 520) 500 510 :: submitted)) ∧
    ¬Kept 500 (history serve Workpapers.office submitted)
      (history serve Workpapers.office (.createEngagement (planner 1 520) 500 510 :: submitted)) := by
  refine ⟨by decide +kernel, fun h => absurd (h.items 520) ?_, fun h => absurd (h.items 510) ?_,
    fun h => absurd (h.items 510) ?_, fun h => absurd (h.items 510) ?_⟩ <;> decide +kernel

end AuditSphere.Plans
