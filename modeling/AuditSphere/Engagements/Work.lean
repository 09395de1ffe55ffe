import AuditSphere.Engagements.Lifecycle
import AuditSphere.Findings.Agreement
import AuditSphere.Workpapers.Notes

/-!
# Engagements with their workpapers and findings

Requests for engagements, for workpapers with their review notes, and for findings, served
one after another. Each service writes its own tables only (`engagements_keep`,
`workpapers_keep`, `findings_keep`), so what is known of the rows of one service holds here. Rows stay, with
what they belong to (`engagement_stays`, `workpaper_stays`), and workpapers, notes and
findings are always of the tenant of their engagement (`consistent_of_history`).
-/

namespace AuditSphere.Work

open Prisma Theory Shared

/-- A request to one of the services. -/
inductive Request where
  | engagement (r : Engagements.Request)
  | workpaper (r : Workpapers.Request)
  | finding (o : Findings.Operation)

/-- What a request answers. -/
inductive Response where
  | engagement (a : Engagements.Response)
  | workpaper (a : Workpapers.Response)
  | finding (a : Findings.Outcome)

/-- Requests go to their service. -/
def serve : Request → Service Response
  | .engagement r => do return .engagement (← Engagements.serve r)
  | .workpaper r => do return .workpaper (← Workpapers.serve r)
  | .finding o => do return .finding (← Findings.perform o)

/-! ### Each service by itself -/

variable (s : Db)

@[simp] theorem accepted_engagement (r : Engagements.Request) :
    Accepted serve s (.engagement r) ↔ Accepted Engagements.serve s r :=
  accepted_return rfl s

@[simp] theorem accepted_workpaper (r : Workpapers.Request) :
    Accepted serve s (.workpaper r) ↔ Accepted Workpapers.serve s r :=
  accepted_return rfl s

@[simp] theorem accepted_finding (o : Findings.Operation) :
    Accepted serve s (.finding o) ↔ Accepted Findings.perform s o :=
  accepted_return rfl s

@[simp] theorem after_engagement (r : Engagements.Request) :
    after serve s (.engagement r) = after Engagements.serve s r :=
  congrArg Prod.snd (run_return _ _ s)

@[simp] theorem after_workpaper (r : Workpapers.Request) : after serve s (.workpaper r) = after Workpapers.serve s r :=
  congrArg Prod.snd (run_return _ _ s)

@[simp] theorem after_finding (o : Findings.Operation) : after serve s (.finding o) = after Findings.perform s o :=
  congrArg Prod.snd (run_return _ _ s)

/-- What a request for an engagement writes. -/
theorem engagements_write (r : Engagements.Request) : ∃ engagements stageHistory auditTrail notifications,
    after Engagements.serve s r = { s with engagements, stageHistory, auditTrail, notifications } := by
  rcases Engagements.serve_effect s r with ⟨-, h⟩ | ⟨-, s₁, s₂, h₁, hcommit, h₂⟩
  · exact ⟨_, _, _, _, h.rest⟩
  · rw [h₂.rest]
    cases hcommit with
    | create h =>
      rw [h.rest, h₁.rest]
      exact ⟨_, _, _, _, rfl⟩
    | update h =>
      rw [h.rest, h₁.rest]
      exact ⟨_, _, _, _, rfl⟩
    | transition h =>
      rw [h.rest, h₁.rest]
      exact ⟨_, _, _, _, rfl⟩

/-- A request for an engagement writes no workpapers, notes and findings. -/
theorem engagements_keep (r : Engagements.Request) :
    (after Engagements.serve s r).workpapers = s.workpapers ∧
      (after Engagements.serve s r).reviewNotes = s.reviewNotes ∧ (after Engagements.serve s r).findings = s.findings := by
  obtain ⟨_, _, _, _, h⟩ := engagements_write s r
  rw [h]
  exact ⟨rfl, rfl, rfl⟩

/-- What a request for a workpaper writes. -/
theorem workpapers_write (r : Workpapers.Request) :
    ∃ workpapers versions reviewNotes reviews programSteps auditTrail notifications, after Workpapers.serve s r =
      { s with workpapers, versions, reviewNotes, reviews, programSteps, auditTrail, notifications } := by
  refine (Workpapers.serve_meets Workpapers.Interference.of_aside r s).run_keeps Workpapers.Aside.refl
    (I := fun s' => ∃ workpapers versions reviewNotes reviews programSteps auditTrail notifications,
      s' = { s with workpapers, versions, reviewNotes, reviews, programSteps, auditTrail, notifications })
    ?_ ⟨_, _, _, _, _, _, _, rfl⟩
  rintro a b ⟨_, _, _, _, _, _, _, rfl⟩ hcall
  rcases hcall with haside | hcommit
  · exact ⟨_, _, _, _, _, _, _, haside.rest⟩
  · cases hcommit with
    | create h => exact ⟨_, _, _, _, _, _, _, h.rest⟩
    | update h => exact ⟨_, _, _, _, _, _, _, h.rest⟩
    | transition h => exact ⟨_, _, _, _, _, _, _, h.rest⟩
    | createReviewNote h => exact ⟨_, _, _, _, _, _, _, h.rest⟩
    | updateReviewNote h => exact ⟨_, _, _, _, _, _, _, h.rest⟩

/-- A request for a workpaper writes no engagements and findings. -/
theorem workpapers_keep (r : Workpapers.Request) :
    (after Workpapers.serve s r).engagements = s.engagements ∧
      (after Workpapers.serve s r).findings = s.findings := by
  obtain ⟨_, _, _, _, _, _, _, h⟩ := workpapers_write s r
  rw [h]
  exact ⟨rfl, rfl⟩

/-- What an operation on a finding writes. -/
theorem findings_write (o : Findings.Operation) : ∃ findings findingHistory recommendations auditTrail notifications,
    after Findings.perform s o = { s with findings, findingHistory, recommendations, auditTrail, notifications } := by
  rcases Findings.perform_effect s o with ⟨-, h⟩ | ⟨-, s₂, hcommit, h₂⟩
  · exact ⟨_, _, _, _, _, h⟩
  · obtain ⟨_, _, heq⟩ := h₂.eq
    rw [heq]
    cases hcommit with
    | edit h =>
      cases h with
      | create h =>
        rw [h.rest]
        exact ⟨_, _, _, _, _, rfl⟩
      | update h =>
        rw [h.rest]
        exact ⟨_, _, _, _, _, rfl⟩
    | transition h =>
      rw [h.rest]
      exact ⟨_, _, _, _, _, rfl⟩
    | extend h =>
      rw [h.rest]
      exact ⟨_, _, _, _, _, rfl⟩
    | addRecommendation h =>
      rw [h.rest]
      exact ⟨_, _, _, _, _, rfl⟩
    | updateRecommendation h =>
      rw [h.rest]
      exact ⟨_, _, _, _, _, rfl⟩

/-- An operation on a finding writes no engagements, workpapers and notes. -/
theorem findings_keep (o : Findings.Operation) :
    (after Findings.perform s o).engagements = s.engagements ∧
      (after Findings.perform s o).workpapers = s.workpapers ∧
      (after Findings.perform s o).reviewNotes = s.reviewNotes := by
  obtain ⟨_, _, _, _, _, h⟩ := findings_write s o
  rw [h]
  exact ⟨rfl, rfl, rfl⟩

/-! ### What rows belong to -/

/-- Workpapers and findings are of the tenant of their engagement, notes of that of their workpaper. -/
structure Consistent (s : Db) : Prop where
  workpapers : ∀ j w, s.workpapers.find j = some w →
    ∃ e, s.engagements.find w.engagementId = some e ∧ e.tenantId = w.tenantId
  reviewNotes : ∀ n note, s.reviewNotes.find n = some note →
    ∃ w, s.workpapers.find note.workpaperId = some w ∧ w.tenantId = note.tenantId
  findings : ∀ j f, s.findings.find j = some f →
    ∃ e, s.engagements.find f.engagementId = some e ∧ e.tenantId = f.tenantId

/-- What a row of a workpaper keeps while it is edited and moved. -/
def SameWorkpaper (w w' : Workpaper) : Prop :=
  w'.tenantId = w.tenantId ∧ w'.engagementId = w.engagementId ∧ w'.deletedAt = w.deletedAt

theorem edited_same {ctx : Ctx} {dto : Workpapers.UpdateWorkpaperDto} {w w' : Workpaper}
    (h : Workpapers.edited ctx dto w w = .ok w') : SameWorkpaper w w' ∧ w'.status = w.status := by
  unfold Workpapers.edited at h
  split at h
  · cases h
  · cases h
    exact ⟨⟨rfl, rfl, rfl⟩, rfl⟩

theorem transitioned_same (ctx : Ctx) (t : Transition WorkpaperStatus) (w : Workpaper) :
    SameWorkpaper w (Workpapers.transitioned ctx t w w) := by
  unfold Workpapers.transitioned
  dsimp only
  split <;> exact ⟨rfl, rfl, rfl⟩

section Rows

variable {s : Db}

/-- An engagement stays, with its tenant. -/
theorem engagement_stays (r : Request) {i : Uuid} {e : Engagement} (he : s.engagements.find i = some e) :
    ∃ e', (after serve s r).engagements.find i = some e' ∧ e'.tenantId = e.tenantId := by
  cases r with
  | engagement r =>
    rw [after_engagement]
    have hstep := Engagements.serve_row s r i
    generalize (after Engagements.serve s r).engagements.find i = row at hstep
    cases hstep with
    | kept _ joined =>
      rw [he] at joined
      cases joined with
      | some joined => exact ⟨_, rfl, joined.fields.2.2.1⟩
    | created _ _ fresh _ =>
      rw [he] at fresh
      cases fresh
    | edited e₀ e₁ _ hfound _ change joined =>
      rw [(Engagements.found_eq_some.mp hfound).1, Option.some.injEq] at he
      subst he
      exact ⟨_, rfl, joined.fields.2.2.1.trans (Engagements.apply_status change).2.1⟩
    | @moved ctx _ _ t e₀ _ hfound _ _ joined =>
      rw [(Engagements.found_eq_some.mp hfound).1, Option.some.injEq] at he
      subst he
      exact ⟨_, rfl, joined.fields.2.2.1.trans (Engagements.transitioned_kept ctx t e₀ e₀).1⟩
  | workpaper r =>
    rw [after_workpaper, (workpapers_keep s r).1]
    exact ⟨e, he, rfl⟩
  | finding o =>
    rw [after_finding, (findings_keep s o).1]
    exact ⟨e, he, rfl⟩

/-- A workpaper stays, with what it belongs to. -/
theorem workpaper_stays (r : Request) {j : Uuid} {w : Workpaper} (hw : s.workpapers.find j = some w) :
    ∃ w', (after serve s r).workpapers.find j = some w' ∧ SameWorkpaper w w' := by
  cases r with
  | engagement r =>
    rw [after_engagement, (engagements_keep s r).1]
    exact ⟨w, hw, rfl, rfl, rfl⟩
  | workpaper r =>
    rw [after_workpaper]
    have hstep := Workpapers.serve_row s r j
    generalize (after Workpapers.serve s r).workpapers.find j = row at hstep
    cases hstep with
    | kept _ => exact ⟨w, hw, rfl, rfl, rfl⟩
    | created _ _ _ fresh =>
      rw [hw] at fresh
      cases fresh
    | edited w₀ w' _ hfound _ edit _ =>
      rw [(Workpapers.found_eq_some.mp hfound).1, Option.some.injEq] at hw
      subst hw
      exact ⟨w', rfl, (edited_same edit).1⟩
    | @moved ctx _ t w₀ _ hfound _ _ _ =>
      rw [(Workpapers.found_eq_some.mp hfound).1, Option.some.injEq] at hw
      subst hw
      exact ⟨_, rfl, transitioned_same ctx t w₀⟩
  | finding o =>
    rw [after_finding, (findings_keep s o).2.1]
    exact ⟨w, hw, rfl, rfl, rfl⟩

/-- A workpaper that is created belongs to an engagement of its tenant. -/
theorem engagement_of_created {ctx : Ctx} {engagementId : Uuid} {dto : Workpapers.CreateWorkpaperDto}
    (h : Accepted Workpapers.serve s (.create ctx engagementId dto)) :
    ∃ e, s.engagements.find engagementId = some e ∧ e.tenantId = ctx.tenantId := by
  obtain ⟨a, s', hrun⟩ := h
  have hdone := (Workpapers.serve_meets Workpapers.Interference.of_aside (.create ctx engagementId dto) s).run
    Workpapers.Aside.refl
  rw [hrun] at hdone
  rcases hdone with ⟨⟨_, ⟨⟩⟩, -⟩ | ⟨s₁, s₂, -, hcommit, -⟩
  cases hcommit with
  | create hcreated =>
    obtain ⟨s₀, e, h₀, -, hfound⟩ := hcreated.engagement
    obtain ⟨he, hsees, -⟩ := Ctx.findById_eq_some.mp hfound
    rw [h₀.rest] at he
    exact ⟨e, he, (Ctx.sees_iff_tenant rfl).mp hsees⟩

/-- Where the row of a workpaper comes from. -/
theorem workpaper_origin (r : Request) {j : Uuid} {w' : Workpaper}
    (hw' : (after serve s r).workpapers.find j = some w') :
    (∃ w, s.workpapers.find j = some w ∧ SameWorkpaper w w') ∨
      ∃ e, s.engagements.find w'.engagementId = some e ∧ e.tenantId = w'.tenantId := by
  cases hw : s.workpapers.find j with
  | some w =>
    obtain ⟨w₁, hw₁, hsame⟩ := workpaper_stays r hw
    rw [hw', Option.some.injEq] at hw₁
    exact .inl ⟨w, rfl, hw₁ ▸ hsame⟩
  | none =>
    refine .inr ?_
    cases r with
    | engagement r =>
      rw [after_engagement, (engagements_keep s r).1, hw] at hw'
      cases hw'
    | workpaper r =>
      rw [after_workpaper] at hw'
      have hstep := Workpapers.serve_row s r j
      generalize (after Workpapers.serve s r).workpapers.find j = row at hstep hw'
      cases hstep with
      | kept _ =>
        rw [hw] at hw'
        cases hw'
      | created _ accepted _ _ =>
        cases hw'
        exact engagement_of_created accepted
      | edited _ _ _ hfound _ _ _ =>
        rw [(Workpapers.found_eq_some.mp hfound).1] at hw
        cases hw
      | moved _ _ _ hfound _ _ _ =>
        rw [(Workpapers.found_eq_some.mp hfound).1] at hw
        cases hw
    | finding o =>
      rw [after_finding, (findings_keep s o).2.1, hw] at hw'
      cases hw'

/-- Where the row of a note comes from. -/
theorem reviewNote_origin (r : Request) {n : Uuid} {note' : ReviewNote}
    (hn : (after serve s r).reviewNotes.find n = some note') :
    (∃ note, s.reviewNotes.find n = some note ∧ note'.tenantId = note.tenantId ∧ note'.workpaperId = note.workpaperId) ∨
      ∃ w, s.workpapers.find note'.workpaperId = some w ∧ w.tenantId = note'.tenantId := by
  cases r with
  | engagement r =>
    rw [after_engagement, (engagements_keep s r).2.1] at hn
    exact .inl ⟨note', hn, rfl, rfl⟩
  | workpaper r =>
    rw [after_workpaper] at hn
    rcases Workpapers.serve_effect s r with ⟨-, haside⟩ | ⟨-, heffect⟩
    · rw [haside.reviewNotes] at hn
      exact .inl ⟨note', hn, rfl, rfl⟩
    generalize after Workpapers.serve s r = s' at heffect hn
    cases heffect with
    | create _ _ _ _ notes =>
      rw [notes] at hn
      exact .inl ⟨note', hn, rfl, rfl⟩
    | update _ _ _ _ _ _ _ _ notes _ =>
      rw [notes] at hn
      exact .inl ⟨note', hn, rfl, rfl⟩
    | transition _ _ _ _ _ _ _ _ notes =>
      rw [notes] at hn
      exact .inl ⟨note', hn, rfl, rfl⟩
    | createReviewNote w hfound n₀ onWorkpaper tenant _ notes =>
      rw [notes] at hn
      split at hn
      · cases hn
        obtain ⟨hw, hsees, -⟩ := Workpapers.found_eq_some.mp hfound
        exact .inr ⟨w, by rw [onWorkpaper]; exact hw, by rw [tenant]; exact (Ctx.sees_iff_tenant rfl).mp hsees⟩
      · exact .inl ⟨note', hn, rfl, rfl⟩
    | updateReviewNote n₀ wp f action row change notes =>
      rw [notes] at hn
      split at hn
      · rename_i hid
        subst hid
        cases hn
        obtain ⟨hid, htenant, -⟩ := Workpapers.noteChange_ok change
        exact .inl ⟨n₀, row, htenant, hid⟩
      · exact .inl ⟨note', hn, rfl, rfl⟩
  | finding o =>
    rw [after_finding, (findings_keep s o).2.2] at hn
    exact .inl ⟨note', hn, rfl, rfl⟩

/-- Where the row of a finding comes from. -/
theorem finding_origin (r : Request) {j : Uuid} {f' : Finding} (hf' : (after serve s r).findings.find j = some f') :
    (∃ f, s.findings.find j = some f ∧ f'.tenantId = f.tenantId ∧ f'.engagementId = f.engagementId) ∨
      ∃ e, s.engagements.find f'.engagementId = some e ∧ e.tenantId = f'.tenantId := by
  cases r with
  | engagement r =>
    rw [after_engagement, (engagements_keep s r).2.2] at hf'
    exact .inl ⟨f', hf', rfl, rfl⟩
  | workpaper r =>
    rw [after_workpaper, (workpapers_keep s r).2] at hf'
    exact .inl ⟨f', hf', rfl, rfl⟩
  | finding o =>
    rw [after_finding] at hf'
    have hstep := Findings.perform_row s o j
    generalize (after Findings.perform s o).findings.find j = row at hstep hf'
    cases hstep with
    | kept _ => exact .inl ⟨f', hf', rfl, rfl⟩
    | created engagement _ _ _ read _ =>
      cases hf'
      obtain ⟨he, hsees, -⟩ := Ctx.findById_eq_some.mp read
      exact .inr ⟨engagement, he, (Ctx.sees_iff_tenant rfl).mp hsees⟩
    | edited f _ _ hfound _ change =>
      cases hf'
      obtain ⟨-, -, -, -, -, -, -, -, hengagement, htenant, -⟩ := Findings.apply_ok change
      exact .inl ⟨f, (Findings.found_eq_some.mp hfound).1, htenant, hengagement⟩
    | @moved ctx _ t f _ hfound _ _ =>
      cases hf'
      obtain ⟨htenant, hengagement, -⟩ := Findings.transitioned_kept ctx t f f
      exact .inl ⟨f, (Findings.found_eq_some.mp hfound).1, htenant, hengagement⟩
    | extended f _ hfound _ _ =>
      cases hf'
      exact .inl ⟨f, (Findings.found_eq_some.mp hfound).1, rfl, rfl⟩

/-- One request keeps a database consistent. -/
theorem consistent_step (r : Request) (h : Consistent s) : Consistent (after serve s r) := by
  -- what a row belongs to stays
  have hengagement : ∀ {i tenantId : Uuid}, (∃ e, s.engagements.find i = some e ∧ e.tenantId = tenantId) →
      ∃ e, (after serve s r).engagements.find i = some e ∧ e.tenantId = tenantId := by
    rintro i tenantId ⟨e, he, htenant⟩
    obtain ⟨e', he', hsame⟩ := engagement_stays r he
    exact ⟨e', he', hsame.trans htenant⟩
  constructor
  · intro j w' hw'
    rcases workpaper_origin r hw' with ⟨w, hw, htenant, hid, -⟩ | hnew
    · rw [hid, htenant]
      exact hengagement (h.workpapers j w hw)
    · exact hengagement hnew
  · intro n note' hn
    have hworkpaper : ∃ w, s.workpapers.find note'.workpaperId = some w ∧ w.tenantId = note'.tenantId := by
      rcases reviewNote_origin r hn with ⟨note, hnote, htenant, hid⟩ | hnew
      · rw [hid, htenant]
        exact h.reviewNotes n note hnote
      · exact hnew
    obtain ⟨w, hw, htenant⟩ := hworkpaper
    obtain ⟨w', hw', hsame, -⟩ := workpaper_stays r hw
    exact ⟨w', hw', hsame.trans htenant⟩
  · intro j f' hf'
    rcases finding_origin r hf' with ⟨f, hf, htenant, hid⟩ | hnew
    · rw [hid, htenant]
      exact hengagement (h.findings j f hf)
    · exact hengagement hnew

end Rows

/-- **What rows belong to**: every history of requests keeps a database consistent. -/
theorem consistent_of_history {s₀ : Db} (h₀ : Consistent s₀) (past : List Request) :
    Consistent (history serve s₀ past) :=
  invariant_of_step h₀ (fun _ r h => consistent_step r h) past

/-- Engagement `i` is moved by an action. -/
def Moves (action : String) (i : Uuid) (s : Db) (r : Request) : Prop :=
  (∃ ctx dto, r = .engagement (.transition ctx i dto) ∧ dto.action = action) ∧ Accepted serve s r

/-- Where the stage of engagement `i` comes from. -/
inductive StageStep (s : Db) (i : Uuid) (r : Request) (e' : Engagement) : Prop where
  /-- The stage is as before. -/
  | kept (e : Engagement) (row : s.engagements.find i = some e) (same : e'.stage = e.stage)
      (still : ∀ action, ¬Moves action i s r)
  /-- The engagement is new. -/
  | created (fresh : s.engagements.find i = none) (initial : e'.stage = .planning) (still : ∀ action, ¬Moves action i s r)
  /-- The engagement is moved by a transition. -/
  | moved (e : Engagement) (t : Transition EngagementStage) (row : s.engagements.find i = some e)
      (declared : findTransition engagementWorkflow e.stage t.action = some t) (moves : Moves t.action i s r)
      (only : ∀ action, Moves action i s r → action = t.action) (arrives : e'.stage = t.toState)

theorem stage_step {s : Db} (r : Request) {i : Uuid} {e' : Engagement}
    (he' : (after serve s r).engagements.find i = some e') : StageStep s i r e' := by
  cases r with
  | engagement r =>
    rw [after_engagement] at he'
    have hstep := Engagements.serve_row s r i
    generalize (after Engagements.serve s r).engagements.find i = row at hstep he'
    cases hstep with
    | kept hkept joined =>
      subst he'
      generalize hrow : s.engagements.find i = row at joined
      cases joined with
      | @some e _ joined =>
        refine .kept e hrow joined.fields.1 ?_
        rintro action ⟨⟨ctx, dto, ⟨⟩, -⟩, hacc⟩
        exact hkept.elim (fun h => h ((accepted_engagement s _).mp hacc)) fun h => h rfl
    | created _ _ fresh joined =>
      cases he'
      refine .created fresh joined.fields.1 ?_
      rintro action ⟨⟨_, _, ⟨⟩, -⟩, -⟩
    | edited e _ _ hfound _ change joined =>
      cases he'
      refine .kept e (Engagements.found_eq_some.mp hfound).1
        (joined.fields.1.trans (Engagements.apply_status change).1) ?_
      rintro action ⟨⟨_, _, ⟨⟩, -⟩, -⟩
    | @moved ctx dto _ t e accepted hfound declared _ joined =>
      cases he'
      obtain ⟨-, -, hname⟩ := engagementWorkflow_cases declared
      obtain ⟨-, -, -, -, -, -, -, -, hto⟩ := Engagements.transitioned_kept ctx t e e
      rw [hname] at declared
      refine .moved e t (Engagements.found_eq_some.mp hfound).1 declared
        ⟨⟨ctx, dto, rfl, hname⟩, (accepted_engagement s _).mpr accepted⟩ ?_ (joined.fields.1.trans hto)
      rintro action ⟨⟨_, _, ⟨⟩, haction⟩, -⟩
      exact haction.symm.trans hname
  | workpaper r =>
    rw [after_workpaper, (workpapers_keep s r).1] at he'
    refine .kept e' he' rfl ?_
    rintro action ⟨⟨_, _, ⟨⟩, -⟩, -⟩
  | finding o =>
    rw [after_finding, (findings_keep s o).1] at he'
    refine .kept e' he' rfl ?_
    rintro action ⟨⟨_, _, ⟨⟩, -⟩, -⟩

/-- What a transition asks for, and where it leads to. -/
theorem moved_of_moves {action : String} {i : Uuid} {s : Db} {r : Request} (h : Moves action i s r) :
    ∃ ctx e t e', s.engagements.find i = some e ∧ e.tenantId = ctx.tenantId ∧
      findTransition engagementWorkflow e.stage action = some t ∧
      (∀ guard ∈ t.guards, Engagements.guardHolds (· = ·) ctx i e guard s) ∧
      (after serve s r).engagements.find i = some e' ∧ e'.stage = t.toState := by
  obtain ⟨⟨ctx, dto, rfl, haction⟩, hacc⟩ := h
  rw [accepted_engagement] at hacc
  rw [after_engagement]
  have hstep := Engagements.serve_row s (.transition ctx i dto) i
  generalize (after Engagements.serve s (.transition ctx i dto)).engagements.find i = row at hstep
  cases hstep with
  | kept h _ => exact h.elim (fun h => absurd hacc h) fun h => absurd rfl h
  | @moved _ _ e' t e _ hfound declared guards joined =>
    obtain ⟨he, htenant, -⟩ := Engagements.found_eq_some.mp hfound
    obtain ⟨-, -, -, -, -, -, -, -, hto⟩ := Engagements.transitioned_kept ctx t e e
    rw [haction] at declared
    exact ⟨ctx, e, t, e', he, htenant, declared, guards, rfl, joined.fields.1.trans hto⟩

/-- An engagement that is closed stays closed. -/
theorem closed_stays {s : Db} (r : Request) {i : Uuid} {e : Engagement} (he : s.engagements.find i = some e)
    (hclosed : e.stage = .closed) :
    (∃ e', (after serve s r).engagements.find i = some e' ∧ e'.stage = .closed) ∧ ∀ action, ¬Moves action i s r := by
  obtain ⟨e', he', -⟩ := engagement_stays r he
  cases stage_step r he' with
  | kept e₀ row same still =>
    rw [he, Option.some.injEq] at row
    subst row
    exact ⟨⟨e', he', same.trans hclosed⟩, still⟩
  | created fresh =>
    rw [he] at fresh
    cases fresh
  | moved e₀ t row declared =>
    rw [he, Option.some.injEq] at row
    subst row
    exact absurd hclosed (Engagements.closed_of_declared declared).1

end AuditSphere.Work
