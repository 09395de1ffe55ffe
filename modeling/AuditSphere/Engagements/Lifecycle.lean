import AuditSphere.Engagements.History

/-!
# Stage and status of an engagement

The workflow writes the status of an engagement together with its stage when it is closed
or cancelled; `update` writes the status of an engagement by itself. `lifecycle_iff`: the
two agree throughout a history exactly if no edit supplies a status for an engagement that
is closed; one can (`reopened_engagement`).
-/

namespace AuditSphere.Engagements

open Prisma Theory Shared

/-- The statuses of an engagement that has ended. -/
def endStatuses : List EngagementStatus := [.completed, .cancelled]

/-- Engagement `i` is moved by an action. -/
def Moves (action : String) (i : Uuid) (s : Db) (r : Request) : Prop :=
  (∃ ctx dto, r = .transition ctx i dto ∧ dto.action = action) ∧ Accepted serve s r

/-- Engagement `i` is closed exactly if it is completed or cancelled. -/
def StageFitsStatus (i : Uuid) (s : Db) : Prop :=
  ∀ e, s.engagements.find i = some e → (e.stage = .closed ↔ e.status ∈ endStatuses)

/-- What becomes of the status of engagement `i`: it is completed only by closing and
cancelled only by cancelling, and once the engagement is closed it is not active again. -/
structure StatusStep (i : Uuid) (s : Db) (r : Request) (s' : Db) : Prop where
  completed : ∀ e', s'.engagements.find i = some e' → e'.status = .completed →
    (∃ e, s.engagements.find i = some e ∧ e.status = .completed) ∨ Moves "close" i s r
  cancelled : ∀ e', s'.engagements.find i = some e' → e'.status = .cancelled →
    (∃ e, s.engagements.find i = some e ∧ e.status = .cancelled) ∨ Moves "cancel" i s r
  closed : ∀ e, s.engagements.find i = some e → e.stage = .closed →
    ∃ e', s'.engagements.find i = some e' ∧ e'.status ∈ endStatuses

/-- Stage and status of engagement `i` agree in every state of a history, and after every step. -/
def Lifecycle (i : Uuid) (s₀ : Db) : List Request → Prop
  | [] => StageFitsStatus i s₀
  | r :: past => Lifecycle i s₀ past ∧ StageFitsStatus i (history serve s₀ (r :: past)) ∧
      StatusStep i (history serve s₀ past) r (history serve s₀ (r :: past))

/-- An edit supplies a status for engagement `i`, which is closed. -/
def Reopens (i : Uuid) (s : Db) (r : Request) : Prop :=
  (∃ ctx dto status, r = .update ctx i dto ∧ dto.status = some (some status)) ∧ Accepted serve s r ∧
    ∃ e, s.engagements.find i = some e ∧ e.stage = .closed

/-! ### One request -/

/-- What an edit makes of stage and status. -/
theorem apply_status {dto : UpdateEngagementDto} {e e' : Engagement} (h : dto.apply e = .ok e') :
    e'.stage = e.stage ∧ e'.tenantId = e.tenantId ∧ e'.deletedAt = e.deletedAt ∧
      dto.status.onRequired e.status = some e'.status := by
  unfold UpdateEngagementDto.apply at h
  split at h
  · rename_i hstatus _
    cases h
    exact ⟨rfl, rfl, rfl, hstatus⟩
  · cases h

/-- What a transition makes of the status. -/
theorem transitioned_status (ctx : Ctx) (t : Transition EngagementStage) (e : Engagement) :
    (transitioned ctx t e e).status =
      if t.action = "close" then .completed else if t.action = "cancel" then .cancelled else e.status := by
  unfold transitioned
  dsimp only
  split
  · rename_i h
    rw [h]
    split <;> rfl
  · rename_i h
    rw [h]
    rfl
  · rename_i h
    rw [h]
    rfl
  · rename_i h
    rw [h]
    rfl
  · rename_i h₁ h₂
    rw [if_neg h₁, if_neg h₂]

/-- Only closing and cancelling close an engagement, and no transition leaves a closed one. -/
theorem closed_of_declared {stage : EngagementStage} {action : String} {t : Transition EngagementStage}
    (h : findTransition engagementWorkflow stage action = some t) :
    stage ≠ .closed ∧ (t.toState = .closed ↔ t.action = "close" ∨ t.action = "cancel") ∧ action = t.action := by
  obtain ⟨hcases, hfrom, hname⟩ := engagementWorkflow_cases h
  rw [hfrom]
  rcases hcases with rfl | rfl | rfl | rfl | rfl | rfl | rfl | rfl | rfl <;> exact ⟨by decide, by decide, hname⟩

theorem Joined.fields {e e' : Engagement} (h : Joined e e') :
    e'.stage = e.stage ∧ e'.status = e.status ∧ e'.tenantId = e.tenantId ∧ e'.deletedAt = e.deletedAt := by
  rw [h.rest]
  exact ⟨rfl, rfl, rfl, rfl⟩

/-- **One request**: unless it supplies a status for a closed engagement, stage and status go
together. -/
theorem lifecycle_step {i : Uuid} {s : Db} {r : Request} (hfits : StageFitsStatus i s) (hnot : ¬Reopens i s r) :
    StageFitsStatus i (after serve s r) ∧ StatusStep i s r (after serve s r) := by
  have hstep := serve_row s r i
  generalize hs' : after serve s r = s' at hstep
  clear hs'
  generalize hrow : s'.engagements.find i = row at hstep
  cases hstep with
  | kept h joined =>
    -- the row is as before, up to its members
    have hold : ∀ e', s'.engagements.find i = some e' → ∃ e, s.engagements.find i = some e ∧ Joined e e' := by
      intro e' he'
      rw [hrow] at he'
      subst he'
      cases hbefore : s.engagements.find i with
      | none =>
        rw [hbefore] at joined
        cases joined
      | some e =>
        rw [hbefore] at joined
        cases joined with
        | some joined => exact ⟨e, rfl, joined⟩
    refine ⟨fun e' he' => ?_, fun e' he' hstatus => .inl ?_, fun e' he' hstatus => .inl ?_, fun e he hclosed => ?_⟩
    · obtain ⟨e, he, hjoined⟩ := hold e' he'
      obtain ⟨hstage, hstatus, -⟩ := hjoined.fields
      rw [hstage, hstatus]
      exact hfits e he
    · obtain ⟨e, he, hjoined⟩ := hold e' he'
      exact ⟨e, he, hjoined.fields.2.1.symm.trans hstatus⟩
    · obtain ⟨e, he, hjoined⟩ := hold e' he'
      exact ⟨e, he, hjoined.fields.2.1.symm.trans hstatus⟩
    · rw [he] at joined
      generalize hrow' : row = row' at joined
      cases joined with
      | @some _ e' joined =>
        refine ⟨e', by rw [hrow, hrow'], ?_⟩
        rw [joined.fields.2.1]
        exact (hfits e he).mp hclosed
  | @created ctx dto e' auditNumber _ fresh joined =>
    obtain ⟨hstage, hstatus, -⟩ := joined.fields
    refine ⟨fun e he => ?_, fun e he h => ?_, fun e he h => ?_, fun e he => ?_⟩
    · rw [hrow, Option.some.injEq] at he
      subst he
      rw [hstage, hstatus]
      simp [newEngagement, endStatuses]
    · rw [hrow, Option.some.injEq] at he
      subst he
      rw [hstatus] at h
      cases h
    · rw [hrow, Option.some.injEq] at he
      subst he
      rw [hstatus] at h
      cases h
    · rw [fresh] at he
      cases he
  | @edited ctx dto e' e e₁ accepted hfound status change joined =>
    have he := (found_eq_some.mp hfound).1
    obtain ⟨hstage, -, -, hstatus⟩ := apply_status change
    obtain ⟨hstage', hstatus', -⟩ := joined.fields
    rw [← hstatus'] at hstatus
    -- the status stays, or the engagement is not closed and becomes active or on hold
    have hcases : e'.status = e.status ∨ (e.stage ≠ .closed ∧ (e'.status = .active ∨ e'.status = .onHold)) := by
      rcases hgiven : dto.status with _ | _ | given
      · rw [hgiven, Field.onRequired, Option.some.injEq] at hstatus
        exact .inl hstatus.symm
      · rw [hgiven] at hstatus
        cases hstatus
      · rw [hgiven, Field.onRequired, Option.some.injEq] at hstatus
        refine .inr ⟨fun hclosed => hnot ⟨⟨ctx, dto, given, rfl, hgiven⟩, accepted, e, he, hclosed⟩, ?_⟩
        rw [← hstatus]
        exact status given hgiven
    have hfit := hfits e he
    refine ⟨fun e₂ he₂ => ?_, fun e₂ he₂ h => .inl ⟨e, he, ?_⟩, fun e₂ he₂ h => .inl ⟨e, he, ?_⟩, fun e₂ he₂ hclosed => ?_⟩
    · rw [hrow, Option.some.injEq] at he₂
      subst he₂
      rw [hstage', hstage]
      rcases hcases with hsame | ⟨hopen, hstatus | hstatus⟩
      · rw [hsame]
        exact hfit
      · simp [hstatus, hopen, endStatuses]
      · simp [hstatus, hopen, endStatuses]
    · rw [hrow, Option.some.injEq] at he₂
      subst he₂
      rcases hcases with hsame | ⟨-, hstatus | hstatus⟩
      · exact hsame.symm.trans h
      · rw [hstatus] at h
        cases h
      · rw [hstatus] at h
        cases h
    · rw [hrow, Option.some.injEq] at he₂
      subst he₂
      rcases hcases with hsame | ⟨-, hstatus | hstatus⟩
      · exact hsame.symm.trans h
      · rw [hstatus] at h
        cases h
      · rw [hstatus] at h
        cases h
    · rw [he, Option.some.injEq] at he₂
      subst he₂
      refine ⟨e', hrow, ?_⟩
      rcases hcases with hsame | ⟨hopen, -⟩
      · rw [hsame]
        exact hfit.mp hclosed
      · exact absurd hclosed hopen
  | @moved ctx dto e' t e accepted hfound declared _ joined =>
    have he := (found_eq_some.mp hfound).1
    obtain ⟨hopen, hclosing, hname⟩ := closed_of_declared declared
    obtain ⟨-, -, -, -, -, -, -, -, hto⟩ := transitioned_kept ctx t e e
    obtain ⟨hstage, hstatus, -⟩ := joined.fields
    rw [hto] at hstage
    rw [transitioned_status] at hstatus
    have hmoves : ∀ action, t.action = action → Moves action i s (.transition ctx i dto) :=
      fun action h => ⟨⟨ctx, dto, rfl, hname.trans h⟩, accepted⟩
    refine ⟨fun e₂ he₂ => ?_, fun e₂ he₂ h => ?_, fun e₂ he₂ h => ?_, fun e₂ he₂ hclosed => ?_⟩
    · rw [hrow, Option.some.injEq] at he₂
      subst he₂
      rw [hstage, hstatus, hclosing]
      have hfit := (not_congr (hfits e he)).mp hopen
      by_cases hclose : t.action = "close"
      · simp [hclose, endStatuses]
      · by_cases hcancel : t.action = "cancel"
        · simp [hcancel, endStatuses]
        · simp only [hclose, hcancel, or_self, if_false, false_iff]
          exact hfit
    · rw [hrow, Option.some.injEq] at he₂
      subst he₂
      rw [hstatus] at h
      by_cases hclose : t.action = "close"
      · exact .inr (hmoves _ hclose)
      · rw [if_neg hclose] at h
        by_cases hcancel : t.action = "cancel"
        · rw [if_pos hcancel] at h
          cases h
        · rw [if_neg hcancel] at h
          exact .inl ⟨e, he, h⟩
    · rw [hrow, Option.some.injEq] at he₂
      subst he₂
      rw [hstatus] at h
      by_cases hclose : t.action = "close"
      · rw [if_pos hclose] at h
        cases h
      · rw [if_neg hclose] at h
        by_cases hcancel : t.action = "cancel"
        · exact .inr (hmoves _ hcancel)
        · rw [if_neg hcancel] at h
          exact .inl ⟨e, he, h⟩
    · rw [he, Option.some.injEq] at he₂
      subst he₂
      exact absurd hclosed hopen

/-- A status that is supplied for a closed engagement is one that it must not have. -/
theorem not_fits_of_reopens {i : Uuid} {s : Db} {r : Request} (h : Reopens i s r) :
    ¬StageFitsStatus i (after serve s r) := by
  obtain ⟨⟨ctx, dto, given, rfl, hgiven⟩, hacc, e, he, hclosed⟩ := h
  intro hfits
  have hstep := serve_row s (.update ctx i dto) i
  generalize hrow : (after serve s (.update ctx i dto)).engagements.find i = row at hstep
  cases hstep with
  | kept h _ => exact h.elim (fun h => h hacc) fun h => h rfl
  | @edited _ _ e' e₀ e₁ _ hfound status change joined =>
    have he₀ := (found_eq_some.mp hfound).1
    rw [he, Option.some.injEq] at he₀
    subst he₀
    obtain ⟨hstage, -, -, hstatus⟩ := apply_status change
    obtain ⟨hstage', hstatus', -⟩ := joined.fields
    rw [hgiven, Field.onRequired, Option.some.injEq] at hstatus
    have hend := (hfits e' hrow).mp (by rw [hstage', hstage]; exact hclosed)
    rw [hstatus', ← hstatus] at hend
    rcases status given hgiven with rfl | rfl <;> simp [endStatuses] at hend

/-- **Stage and status**: they agree throughout a history exactly if no edit supplies a
status for the engagement while it is closed. -/
theorem lifecycle_iff (i : Uuid) (s₀ : Db) (h₀ : StageFitsStatus i s₀) (past : List Request) :
    Lifecycle i s₀ past ↔ Always serve (fun s r => ¬Reopens i s r) s₀ past := by
  have hlast : ∀ past, Lifecycle i s₀ past → StageFitsStatus i (history serve s₀ past) := by
    rintro (_ | ⟨r, past⟩) h
    · exact h
    · exact h.2.1
  induction past with
  | nil => exact ⟨fun _ => trivial, fun _ => h₀⟩
  | cons r past ih =>
    constructor
    · rintro ⟨hpast, hfits, -⟩
      exact ⟨fun hreopens => not_fits_of_reopens hreopens hfits, ih.mp hpast⟩
    · rintro ⟨hnot, hpast⟩
      have hpast := ih.mpr hpast
      obtain ⟨hfits, hstatus⟩ := lifecycle_step (hlast past hpast) hnot
      exact ⟨hpast, hfits, hstatus⟩

/-! ### An engagement for examples -/

/-- A user of the office who may do everything with engagements. -/
def director (userId k : Uuid) : Ctx := { Workpapers.actor userId k with
  permissions := [.engagementRead, .engagementCreate, .engagementManage, .engagementAdvanceStage, .engagementClose,
    .engagementIssueReport, .workpaperReview] }

/-- Cleo sets up an engagement and cancels it. -/
def cancelled : List Request :=
  [.transition (director 3 302) 300 { action := "cancel" },
    .create (director 3 300) { title := "Payroll", type := .operational }]

/-- It is made active again. -/
def reopened : List Request := .update (director 3 303) 300 { status := some (some .active) } :: cancelled

/-- A cancelled engagement can be made active. -/
theorem reopened_engagement : ∃ e, (history serve Workpapers.office reopened).engagements.find 300 = some e ∧
    e.stage = .closed ∧ e.status = .active := by
  have h : ((history serve Workpapers.office reopened).engagements.find 300).map (fun e => (e.stage, e.status)) =
      some (.closed, .active) := by
    decide +kernel
  obtain ⟨e, he, heq⟩ := Option.map_eq_some_iff.mp h
  exact ⟨e, he, (Prod.mk.inj heq).1, (Prod.mk.inj heq).2⟩

/-- The theorem before that. -/
theorem lifecycle_iff_cancelled : Lifecycle 300 Workpapers.office cancelled := by
  refine (lifecycle_iff 300 Workpapers.office (fun _ h => by cases h) cancelled).mpr ⟨?_, ?_, trivial⟩
  · rintro ⟨⟨_, _, _, ⟨⟩, -⟩, -⟩
  · rintro ⟨⟨_, _, _, ⟨⟩, -⟩, -⟩

end AuditSphere.Engagements
