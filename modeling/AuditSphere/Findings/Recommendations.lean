import AuditSphere.Findings.Agreement

/-!
# What is left to implement

Closing a finding validates its recommendations, and a recommendation that is carried out
is carried out in full (`Settled`). `settled_throughout_iff`: this holds in every state of
a history exactly if no edit of a recommendation undoes it (`Unsettles`). The editor does
not look at the status of the finding, and takes a progress without a status; so a
recommendation of a closed finding can be taken up again (`reopened_recommendation`).
-/

namespace AuditSphere.Findings

open Prisma Theory Shared

/-- Every recommendation of a closed finding is validated or superseded, and every one that
is implemented or validated is so in full. -/
structure Settled (s : Db) : Prop where
  closed : ∀ j r f, s.recommendations.find j = some r → s.findings.find r.findingId = some f → f.status = .closed →
    r.status = .validated ∨ r.status = .superseded
  full : ∀ j r, s.recommendations.find j = some r → r.status = .implemented ∨ r.status = .validated →
    r.progressPct = 100 ∧ r.completedAt.isSome = true

/-- Every recommendation has a finding, of the same tenant. -/
def Attached (s : Db) : Prop :=
  ∀ j r, s.recommendations.find j = some r → ∃ f, s.findings.find r.findingId = some f ∧ f.tenantId = r.tenantId

/-- An edit of a recommendation that undoes what is settled: it takes a recommendation of a
closed finding up again, or leaves one that is carried out with less than the whole done. -/
def Unsettles (s : Db) (o : Operation) : Prop :=
  ∃ ctx id dto r f, o = .updateRecommendation ctx id dto ∧ Accepted perform s o ∧
    s.recommendations.find id = some r ∧ s.findings.find r.findingId = some f ∧
    ((f.status = .closed ∧ ∃ status, dto.status = some (some status) ∧ status ≠ .validated ∧ status ≠ .superseded) ∨
      (dto.status = none ∧ (r.status = .implemented ∨ r.status = .validated) ∧
        ∃ pct, dto.progressPct = some (some pct) ∧ pct ≠ 100))

/-! ### What becomes of a recommendation -/

/-- What an edit makes of a recommendation. -/
theorem recommendation_apply_ok {dto : UpdateRecommendationDto} {ctx : Ctx} {before r r' : Recommendation}
    (h : dto.apply ctx before r = .ok r') :
    r'.tenantId = r.tenantId ∧ r'.findingId = r.findingId ∧ dto.status.onRequired r.status = some r'.status ∧
      Field.onRequired (if dto.carriesOut then some (some 100) else dto.progressPct) r.progressPct = some r'.progressPct ∧
      r'.completedAt = if dto.carriesOut then before.completedAt.or (some ctx.now) else r.completedAt := by
  unfold UpdateRecommendationDto.apply at h
  split at h
  · rename_i hstatus hprogress
    cases h
    exact ⟨rfl, rfl, hstatus, hprogress, rfl⟩
  · cases h

/-- What a transition does not change of a recommendation, and what it is afterwards. -/
theorem recommendationAfter_kept (ctx : Ctx) (id : Uuid) (t : Transition FindingStatus) (r : Recommendation) :
    (recommendationAfter ctx id t r).tenantId = r.tenantId ∧ (recommendationAfter ctx id t r).findingId = r.findingId := by
  unfold recommendationAfter recommendationChange
  split
  · exact ⟨rfl, rfl⟩
  · rename_i f hf
    split at hf <;> cases hf <;> split <;> exact ⟨rfl, rfl⟩

/-- Whatever a transition makes of a recommendation, if it is carried out it is so in full. -/
theorem recommendationAfter_full (ctx : Ctx) (id : Uuid) (t : Transition FindingStatus) {r : Recommendation}
    (hfull : r.status = .implemented ∨ r.status = .validated → r.progressPct = 100 ∧ r.completedAt.isSome = true) :
    let r' := recommendationAfter ctx id t r
    r'.status = .implemented ∨ r'.status = .validated → r'.progressPct = 100 ∧ r'.completedAt.isSome = true := by
  unfold recommendationAfter recommendationChange
  split
  · exact hfull
  · rename_i f hf
    split at hf <;> cases hf <;> split
    all_goals first | exact hfull | simp

/-- Closing a finding settles its recommendations. -/
theorem recommendationAfter_closed {ctx : Ctx} {id : Uuid} {r : Recommendation} (hsees : ctx.sees r = true)
    (hid : r.findingId = id) :
    (recommendationAfter ctx id FindingWorkflow.validateAndClose r).status = .validated ∨
      (recommendationAfter ctx id FindingWorkflow.validateAndClose r).status = .superseded := by
  cases hstatus : r.status <;>
    simp [recommendationAfter, recommendationChange, FindingWorkflow.validateAndClose, openFor, hsees, hid, hstatus]

/-- What is settled stays as it is. -/
theorem recommendationAfter_settled (ctx : Ctx) (id : Uuid) (t : Transition FindingStatus) {r : Recommendation}
    (h : r.status = .validated ∨ r.status = .superseded) : recommendationAfter ctx id t r = r := by
  have hopen : openFor ctx id r = false := by
    rcases h with h | h <;> simp [openFor, h]
  unfold recommendationAfter
  split
  · rfl
  · simp [hopen]

/-- What an operation makes of recommendation `j`. -/
inductive RecommendationStep (s : Db) (j : Uuid) : Operation → Option Recommendation → Prop where
  /-- The operation fails, or it is not about recommendations. -/
  | kept {o} (h : ¬Accepted perform s o ∨ (∀ ctx id dto, o ≠ .transition ctx id dto) ∧
      ∀ ctx dto, o ≠ .updateRecommendation ctx j dto) :
      RecommendationStep s j o (s.recommendations.find j)
  /-- A transition of a finding. -/
  | moved {ctx id dto} (t : Transition FindingStatus) (f : Finding) (row : s.findings.find id = some f)
      (declared : findTransition findingWorkflow f.status dto.action = some t) :
      RecommendationStep s j (.transition ctx id dto) ((s.recommendations.find j).map (recommendationAfter ctx id t))
  /-- The recommendation is new. -/
  | added {ctx findingId dto} (finding : Finding) (sequence : ℕ) (hfound : found ctx s findingId = some finding)
      (opened : finding.status ≠ .closed) :
      RecommendationStep s j (.addRecommendation ctx findingId dto)
        (some (newRecommendation ctx findingId dto finding sequence))
  /-- The recommendation is edited. -/
  | edited {ctx dto} (r r' : Recommendation) (accepted : Accepted perform s (.updateRecommendation ctx j dto))
      (row : s.recommendations.find j = some r) (change : dto.apply ctx r r = .ok r') :
      RecommendationStep s j (.updateRecommendation ctx j dto) (some r')

/-- **One operation and one recommendation.** -/
theorem perform_recommendation (s : Db) (o : Operation) (j : Uuid) :
    RecommendationStep s j o ((after perform s o).recommendations.find j) := by
  rcases perform_effect s o with ⟨hfail, hquiet⟩ | ⟨hacc, s₂, hcommitted, hquiet⟩
  · obtain ⟨_, _, heq⟩ := hquiet.eq
    rw [heq]
    exact .kept (.inl hfail)
  have hrow : (after perform s o).recommendations = s₂.recommendations := by
    obtain ⟨_, _, heq⟩ := hquiet.eq
    rw [heq]
  rw [hrow]
  clear hrow hquiet
  cases hcommitted with
  | edit h =>
    have hsame : s₂.recommendations = s.recommendations := by
      cases h with
      | create h => rw [h.rest]
      | update h => rw [h.rest]
    rw [hsame]
    refine .kept (.inr ⟨fun ctx id dto h => ?_, fun ctx dto h => ?_⟩) <;> cases h
  | @transition ctx id dto t finding f _ _ h =>
    obtain ⟨rfl, -⟩ := row_of_read h.read h.row
    rw [h.recommendations]
    exact .moved t f h.row h.declared
  | extend h =>
    rw [h.rest]
    refine .kept (.inr ⟨fun ctx id dto h => ?_, fun ctx dto h => ?_⟩) <;> cases h
  | @addRecommendation ctx findingId dto finding sequence _ _ h =>
    rw [h.rows]
    by_cases hj : j = ctx.uuid 0
    · obtain ⟨_, rfl, -, hfound⟩ := h.read
      rw [if_pos hj]
      exact .added finding sequence hfound h.opened.1
    · rw [if_neg hj]
      refine .kept (.inr ⟨fun ctx id dto h => ?_, fun ctx dto h => ?_⟩) <;> cases h
  | @updateRecommendation ctx id dto before finding r r' _ _ h =>
    rw [h.rows]
    by_cases hj : j = id
    · subst hj
      obtain ⟨_, rfl, -, hbefore, -⟩ := h.read
      have heq := h.row
      rw [hbefore, Option.some.injEq] at heq
      subst heq
      rw [if_pos rfl]
      exact .edited before r' hacc hbefore h.change
    · rw [if_neg hj]
      refine .kept (.inr ⟨fun ctx id dto h => ?_, fun ctx dto h => ?_⟩)
      · cases h
      · cases h
        exact hj rfl

/-! ### What becomes of its finding -/

/-- An operation that writes no row of a finding leaves the findings as they are, unless it creates one. -/
theorem finding_kept {s : Db} {o : Operation} (ho : o.finding = none) (hcreate : ∀ ctx dto, o ≠ .edit (.create ctx dto))
    (i : Uuid) : (after perform s o).findings.find i = s.findings.find i := by
  have hstep := perform_row s o i
  generalize (after perform s o).findings.find i = row at hstep
  cases hstep with
  | kept _ => rfl
  | created => exact absurd rfl (hcreate _ _)
  | edited | moved | extended => cases ho

/-- A finding stays. -/
theorem finding_stays {s : Db} (o : Operation) {i : Uuid} {f : Finding} (hf : s.findings.find i = some f) :
    ∃ f', (after perform s o).findings.find i = some f' ∧ f'.tenantId = f.tenantId := by
  have hstep := perform_row s o i
  generalize (after perform s o).findings.find i = row at hstep
  cases hstep with
  | kept _ => exact ⟨f, hf, rfl⟩
  | created _ _ _ fresh _ _ =>
    rw [hf] at fresh
    cases fresh
  | edited f₁ f' _ hfound _ change =>
    obtain ⟨-, -, -, -, -, -, -, -, -, htenant, -⟩ := apply_ok change
    rw [(found_eq_some.mp hfound).1, Option.some.injEq] at hf
    exact ⟨f', rfl, htenant.trans (congrArg Finding.tenantId hf)⟩
  | @moved ctx dto t f₁ _ hfound _ _ =>
    rw [(found_eq_some.mp hfound).1, Option.some.injEq] at hf
    exact ⟨_, rfl, (transitioned_kept ctx t f₁ f₁).1.trans (congrArg Finding.tenantId hf)⟩
  | extended f₁ _ hfound _ _ =>
    rw [(found_eq_some.mp hfound).1, Option.some.injEq] at hf
    subst hf
    exact ⟨_, rfl, rfl⟩

/-- A closed finding was closed before, unless it is being closed. -/
theorem closed_of_row {s : Db} {o : Operation} {i : Uuid} {f' : Finding}
    (hf' : (after perform s o).findings.find i = some f') (hclosed : f'.status = .closed) :
    ∃ f, s.findings.find i = some f ∧ (f.status = .closed ∨ ∃ ctx dto, o = .transition ctx i dto ∧
      Accepted perform s o ∧ f.tenantId = ctx.tenantId ∧
      findTransition findingWorkflow f.status dto.action = some FindingWorkflow.validateAndClose) := by
  have hstep := perform_row s o i
  generalize (after perform s o).findings.find i = row at hstep hf'
  cases hstep with
  | kept h => exact ⟨f', hf', .inl hclosed⟩
  | created =>
    cases hf'
    cases hclosed
  | edited f _ _ hfound _ change =>
    cases hf'
    obtain ⟨-, -, -, -, -, hstatus, -⟩ := apply_ok change
    exact ⟨f, (found_eq_some.mp hfound).1, .inl (hstatus ▸ hclosed)⟩
  | @moved ctx dto t f accepted hfound declared _ =>
    cases hf'
    obtain ⟨hrow, htenant, -⟩ := found_eq_some.mp hfound
    obtain ⟨-, -, -, -, -, -, -, -, -, -, hto⟩ := transitioned_kept ctx t f f
    rw [hto] at hclosed
    refine ⟨f, hrow, .inr ⟨ctx, dto, rfl, accepted, htenant, ?_⟩⟩
    obtain ⟨hcases, -, -⟩ := findingWorkflow_cases declared
    rcases hcases with rfl | rfl | rfl | rfl | rfl | rfl | rfl | rfl
    all_goals first | exact declared | exact absurd hclosed (by decide)
  | extended f _ hfound _ _ =>
    cases hf'
    exact ⟨f, (found_eq_some.mp hfound).1, .inl hclosed⟩

/-! ### Every state -/

theorem attached_step {s : Db} (o : Operation) (h : Attached s) : Attached (after perform s o) := by
  intro j r' hr'
  have hstep := perform_recommendation s o j
  generalize (after perform s o).recommendations.find j = row at hstep hr'
  -- the finding of an old recommendation stays
  have hold : ∀ r, s.recommendations.find j = some r → r'.findingId = r.findingId → r'.tenantId = r.tenantId →
      ∃ f, (after perform s o).findings.find r'.findingId = some f ∧ f.tenantId = r'.tenantId := by
    intro r hr hid htenant
    obtain ⟨f, hf, hf'⟩ := h j r hr
    obtain ⟨f', hrow, hstays⟩ := finding_stays o hf
    exact ⟨f', by rw [hid]; exact hrow, by rw [hstays, hf', htenant]⟩
  cases hstep with
  | kept _ => exact hold r' hr' rfl rfl
  | @moved ctx id dto t f _ _ =>
    obtain ⟨r, hr, rfl⟩ := Option.map_eq_some_iff.mp hr'
    obtain ⟨htenant, hid⟩ := recommendationAfter_kept ctx id t r
    exact hold r hr hid htenant
  | @added ctx findingId dto finding sequence hfound _ =>
    cases hr'
    obtain ⟨hrow, htenant, -⟩ := found_eq_some.mp hfound
    exact ⟨finding, (finding_kept rfl (fun _ _ h => by cases h) findingId).trans hrow, htenant⟩
  | edited r _ _ hr change =>
    cases hr'
    obtain ⟨htenant, hid, -⟩ := recommendation_apply_ok change
    exact hold r hr hid htenant

/-- An edit that undoes what is settled does undo it. -/
theorem not_settled_of_unsettles {s : Db} {o : Operation} (h : Unsettles s o) : ¬Settled (after perform s o) := by
  obtain ⟨ctx, id, dto, r, f, rfl, hacc, hr, hf, hundoes⟩ := h
  intro hsettled
  have hf' := finding_kept (s := s) (o := .updateRecommendation ctx id dto) rfl (fun _ _ h => by cases h) r.findingId
  rw [hf] at hf'
  have hstep := perform_recommendation s (.updateRecommendation ctx id dto) id
  cases hrow : (after perform s (.updateRecommendation ctx id dto)).recommendations.find id with
  | none =>
    rw [hrow] at hstep
    generalize hnone : (none : Option Recommendation) = row at hstep
    cases hstep with
    | kept h => exact h.elim (fun h => h hacc) fun h => h.2 _ _ rfl
    | edited => cases hnone
  | some r' =>
    rw [hrow] at hstep
    generalize hsome : some r' = row at hstep
    cases hstep with
    | kept h => exact h.elim (fun h => h hacc) fun h => h.2 _ _ rfl
    | edited r₁ _ _ hr₁ change =>
      cases hsome
      rw [hr, Option.some.injEq] at hr₁
      subst hr₁
      obtain ⟨-, hid, hstatus, hprogress, -⟩ := recommendation_apply_ok change
      rcases hundoes with ⟨hclosed, status, hgiven, hne, hne'⟩ | ⟨hgiven, hdone, pct, hpct, hne⟩
      · rw [hgiven, Field.onRequired, Option.some.injEq] at hstatus
        rcases hsettled.closed id r' f hrow (by rw [hid]; exact hf') hclosed with h | h
        · exact hne (hstatus.trans h)
        · exact hne' (hstatus.trans h)
      · rw [hgiven, Field.onRequired, Option.some.injEq] at hstatus
        have hcarries : dto.carriesOut = false := by
          simp [UpdateRecommendationDto.carriesOut, hgiven, Field.orNull]
        rw [hcarries, if_neg (by decide), hpct, Field.onRequired, Option.some.injEq] at hprogress
        exact hne (hprogress.trans (hsettled.full id r' hrow (hstatus ▸ hdone)).1)

/-- The recommendations of a finding that is closed now, if no edit undoes what is settled. -/
theorem closed_step {s : Db} {o : Operation} (hattached : Attached s) (hsettled : Settled s) (hnot : ¬Unsettles s o)
    {j : Uuid} {r' : Recommendation} {f' : Finding} (hr' : (after perform s o).recommendations.find j = some r')
    (hf' : (after perform s o).findings.find r'.findingId = some f') (hclosed : f'.status = .closed) :
    r'.status = .validated ∨ r'.status = .superseded := by
  obtain ⟨f, hf, hwas⟩ := closed_of_row hf' hclosed
  have hstep := perform_recommendation s o j
  generalize (after perform s o).recommendations.find j = row at hstep hr'
  cases hstep with
  | kept h =>
    rcases hwas with hwas | ⟨ctx, dto, rfl, hacc, -, -⟩
    · exact hsettled.closed j r' f hr' hf hwas
    · exact h.elim (fun h => absurd hacc h) fun h => absurd rfl (h.1 _ _ _)
  | @moved ctx id dto t f₁ hrow declared =>
    obtain ⟨r, hr, rfl⟩ := Option.map_eq_some_iff.mp hr'
    obtain ⟨-, hid⟩ := recommendationAfter_kept ctx id t r
    rw [hid] at hf hwas
    rcases hwas with hwas | ⟨_, _, heq, -, htenant, hvalidated⟩
    · have h := hsettled.closed j r f hr hf hwas
      rw [recommendationAfter_settled ctx id t h]
      exact h
    · -- the transition closes the finding of this recommendation
      cases heq
      rw [hf, Option.some.injEq] at hrow
      subst hrow
      rw [declared, Option.some.injEq] at hvalidated
      subst hvalidated
      obtain ⟨f₂, hf₂, hsame⟩ := hattached j r hr
      rw [hf, Option.some.injEq] at hf₂
      subst hf₂
      exact recommendationAfter_closed ((Ctx.sees_iff_tenant rfl).mpr (hsame.symm.trans htenant)) rfl
  | added finding sequence hfound opened =>
    cases hr'
    rcases hwas with hwas | ⟨_, _, ⟨⟩, -⟩
    have hsame : some f = some finding := hf.symm.trans (found_eq_some.mp hfound).1
    cases hsame
    exact absurd hwas opened
  | @edited ctx dto r _ accepted hr change =>
    cases hr'
    rcases hwas with hwas | ⟨_, _, ⟨⟩, -⟩
    obtain ⟨-, hid, hstatus, -⟩ := recommendation_apply_ok change
    rw [hid] at hf
    rcases hgiven : dto.status with _ | _ | status
    · rw [hgiven, Field.onRequired, Option.some.injEq] at hstatus
      rw [← hstatus]
      exact hsettled.closed j r f hr hf hwas
    · rw [hgiven] at hstatus
      cases hstatus
    · rw [hgiven, Field.onRequired, Option.some.injEq] at hstatus
      rw [← hstatus]
      by_contra hne
      rw [not_or] at hne
      exact hnot ⟨ctx, j, dto, r, f, rfl, accepted, hr, hf, .inl ⟨hwas, status, hgiven, hne⟩⟩

/-- The recommendations that are carried out now, if no edit undoes what is settled. -/
theorem full_step {s : Db} {o : Operation} (hattached : Attached s) (hsettled : Settled s) (hnot : ¬Unsettles s o)
    {j : Uuid} {r' : Recommendation} (hr' : (after perform s o).recommendations.find j = some r')
    (hdone : r'.status = .implemented ∨ r'.status = .validated) :
    r'.progressPct = 100 ∧ r'.completedAt.isSome = true := by
  have hstep := perform_recommendation s o j
  generalize (after perform s o).recommendations.find j = row at hstep hr'
  cases hstep with
  | kept _ => exact hsettled.full j r' hr' hdone
  | @moved ctx id dto t _ _ _ =>
    obtain ⟨r, hr, rfl⟩ := Option.map_eq_some_iff.mp hr'
    exact recommendationAfter_full ctx id t (hsettled.full j r hr) hdone
  | added finding sequence _ _ =>
    cases hr'
    unfold newRecommendation at hdone
    dsimp only at hdone
    split at hdone <;> simp at hdone
  | @edited ctx dto r _ accepted hr change =>
    cases hr'
    obtain ⟨-, -, hstatus, hprogress, hcompleted⟩ := recommendation_apply_ok change
    cases hcarries : dto.carriesOut with
    | true =>
      rw [hcarries, if_pos rfl] at hcompleted hprogress
      rw [Field.onRequired, Option.some.injEq] at hprogress
      refine ⟨hprogress.symm, ?_⟩
      rw [hcompleted]
      cases r.completedAt <;> rfl
    | false =>
      rw [hcarries, if_neg (by decide)] at hcompleted hprogress
      rcases hgiven : dto.status with _ | _ | status
      · -- no status is given, and the recommendation was carried out before
        rw [hgiven, Field.onRequired, Option.some.injEq] at hstatus
        rw [← hstatus] at hdone
        obtain ⟨hfull, hdate⟩ := hsettled.full j r hr hdone
        rw [hcompleted]
        refine ⟨?_, hdate⟩
        rcases hpct : dto.progressPct with _ | _ | pct
        · rw [hpct, Field.onRequired, Option.some.injEq] at hprogress
          rw [← hprogress]
          exact hfull
        · rw [hpct] at hprogress
          cases hprogress
        · rw [hpct, Field.onRequired, Option.some.injEq] at hprogress
          rw [← hprogress]
          by_contra hne
          obtain ⟨f, hf, -⟩ := hattached j r hr
          exact hnot ⟨ctx, j, dto, r, f, rfl, accepted, hr, hf, .inr ⟨hgiven, hdone, pct, hpct, hne⟩⟩
      · rw [hgiven] at hstatus
        cases hstatus
      · -- a status that is given and is not carried out
        rw [hgiven, Field.onRequired, Option.some.injEq] at hstatus
        rw [← hstatus] at hdone
        simp [UpdateRecommendationDto.carriesOut, hgiven, Field.orNull] at hcarries
        tauto

/-- **What is left to implement**: in every state of a history, the recommendations of the
closed findings are settled and what is carried out is so in full, exactly if no edit of a
recommendation undoes it. -/
theorem settled_throughout_iff (s₀ : Db) (hattached : Attached s₀) (hsettled : Settled s₀) (past : List Operation) :
    Throughout perform Settled s₀ past ↔ Always perform (fun s o => ¬Unsettles s o) s₀ past := by
  refine throughout_iff_always (I := Attached) ?_ hsettled ?_ past
  · exact fun past => invariant_of_step hattached (fun s o => attached_step o) past
  · intro s o hattached hsettled
    constructor
    · exact fun h hunsettles => not_settled_of_unsettles hunsettles h
    · intro hnot
      exact ⟨fun j r f hr hf => closed_step hattached hsettled hnot hr hf,
        fun j r hr => full_step hattached hsettled hnot hr⟩

/-- The finding that was implemented is closed. -/
def closed : List Operation := take 3 210 "validate_and_close" :: implemented

/-- A recommendation of a closed finding is taken up again. -/
def reopened : List Operation :=
  .updateRecommendation (member 1 211) 207 { status := some (some .inProgress), progressPct := some (some 10) } :: closed

/-- A recommendation of a closed finding can be one that is being implemented. -/
theorem reopened_recommendation : ∃ r f, (history perform Workpapers.office reopened).recommendations.find 207 = some r ∧
    (history perform Workpapers.office reopened).findings.find r.findingId = some f ∧ f.status = .closed ∧
    r.status = .inProgress :=
  ⟨_, _, rfl, rfl, rfl, rfl⟩

/-- The theorem at that history: what is settled is undone. -/
theorem settled_throughout_iff_reopened : ¬Always perform (fun s o => ¬Unsettles s o) Workpapers.office reopened := by
  rw [← settled_throughout_iff Workpapers.office (fun _ _ h => by cases h)
    ⟨fun _ _ _ h => (by cases h), fun _ _ h => (by cases h)⟩ reopened]
  intro h
  rcases h.last.closed 207 _ _ rfl rfl rfl with h | h <;> cases h

end AuditSphere.Findings
