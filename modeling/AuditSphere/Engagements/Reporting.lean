import AuditSphere.Engagements.Work

/-!
# What a report rests on

Reporting starts when every workpaper of the engagement is signed off and every review note
is cleared. Afterwards workpapers can still be created and unlocked, and notes raised and
reopened (`unlocked_in_reporting`). `reporting_rests`: from reporting on there is a
workpaper, and what is not signed off or not cleared has been made so since.
-/

namespace AuditSphere.Work

open Prisma Theory Shared

/-- Workpaper `j` is created, or unlocked. -/
def Reopens (j : Uuid) (s : Db) (r : Request) : Prop :=
  ∃ r', r = .workpaper r' ∧ (Workpapers.Creates j s r' ∨ Workpapers.Moves "unlock" j s r')

/-- Note `n` of workpaper `j` is raised, or reopened. -/
def Raises (j n : Uuid) (s : Db) (r : Request) : Prop := ∃ r', r = .workpaper r' ∧ Workpapers.Raises j n s r'

/-- The workpapers of engagement `i` after a history of requests: there is one, and since
reporting last started they are signed off and their notes are cleared, or have been
reopened. -/
structure Rests (s₀ : Db) (i : Uuid) (past : List Request) : Prop where
  workpaper : ∃ j w, (history serve s₀ past).workpapers.find j = some w ∧ w.engagementId = i ∧ w.deletedAt = none
  signedOff : ∀ j w, (history serve s₀ past).workpapers.find j = some w → w.engagementId = i → w.deletedAt = none →
    w.status ≠ .signedOff → Since serve (Moves "start_reporting" i) (Reopens j) s₀ past
  cleared : ∀ j w n note, (history serve s₀ past).workpapers.find j = some w → w.engagementId = i →
    w.deletedAt = none → (history serve s₀ past).reviewNotes.find n = some note → note.workpaperId = j →
    note.status = .opened ∨ note.status = .addressed → Since serve (Moves "start_reporting" i) (Raises j n) s₀ past

/-- Engagement `i` has been closed as completed. -/
def HasBeenClosed (s₀ : Db) (i : Uuid) (past : List Request) : Prop :=
  Since serve (fun _ _ => False) (Moves "close" i) s₀ past

/-! ### One request -/

section Step

variable {s : Db}

/-- A workpaper that is not signed off was not before, or it is created or unlocked. -/
theorem not_signedOff_origin (r : Request) {j : Uuid} {w' : Workpaper}
    (hw' : (after serve s r).workpapers.find j = some w') (hstatus : w'.status ≠ .signedOff) :
    (∃ w, s.workpapers.find j = some w ∧ SameWorkpaper w w' ∧ w.status ≠ .signedOff) ∨ Reopens j s r := by
  cases r with
  | engagement r =>
    rw [after_engagement, (engagements_keep s r).1] at hw'
    exact .inl ⟨w', hw', ⟨rfl, rfl, rfl⟩, hstatus⟩
  | workpaper r =>
    rw [after_workpaper] at hw'
    have hstep := Workpapers.serve_row s r j
    generalize (after Workpapers.serve s r).workpapers.find j = row at hstep hw'
    cases hstep with
    | kept _ => exact .inl ⟨w', hw', ⟨rfl, rfl, rfl⟩, hstatus⟩
    | created _ accepted hid _ => exact .inr ⟨_, rfl, .inl ⟨⟨_, _, _, rfl, hid⟩, accepted⟩⟩
    | edited w _ _ hfound _ edit _ =>
      cases hw'
      obtain ⟨hsame, hkept⟩ := edited_same edit
      exact .inl ⟨w, (Workpapers.found_eq_some.mp hfound).1, hsame, by rw [← hkept]; exact hstatus⟩
    | @moved ctx dto t w accepted hfound declared _ _ =>
      cases hw'
      by_cases hsigned : w.status = .signedOff
      · -- the only way out of this status is to unlock
        obtain ⟨hcases, hfrom, hname⟩ := declared_cases declared
        rw [hfrom] at hsigned
        refine .inr ⟨_, rfl, .inr ⟨⟨ctx, dto, rfl, ?_⟩, accepted⟩⟩
        rw [hname]
        rcases hcases with rfl | rfl | rfl | rfl | rfl | rfl | rfl | rfl
        all_goals first | rfl | exact absurd hsigned (by decide)
      · exact .inl ⟨w, (Workpapers.found_eq_some.mp hfound).1, transitioned_same ctx t w, hsigned⟩
  | finding o =>
    rw [after_finding, (findings_keep s o).2.1] at hw'
    exact .inl ⟨w', hw', ⟨rfl, rfl, rfl⟩, hstatus⟩

/-- A note that is not cleared was not before, or it is raised or reopened. -/
theorem not_cleared_origin (r : Request) {n : Uuid} {note' : ReviewNote}
    (hn : (after serve s r).reviewNotes.find n = some note') (hstatus : note'.status ≠ .cleared) :
    (∃ note, s.reviewNotes.find n = some note ∧ note'.workpaperId = note.workpaperId ∧ note.status ≠ .cleared) ∨
      Raises note'.workpaperId n s r := by
  cases r with
  | engagement r =>
    rw [after_engagement, (engagements_keep s r).2.1] at hn
    exact .inl ⟨note', hn, rfl, hstatus⟩
  | workpaper r =>
    rw [after_workpaper] at hn
    rcases Workpapers.serve_effect s r with ⟨-, haside⟩ | ⟨hacc, heffect⟩
    · rw [haside.reviewNotes] at hn
      exact .inl ⟨note', hn, rfl, hstatus⟩
    generalize after Workpapers.serve s r = s' at heffect hn
    cases heffect with
    | create _ _ _ _ notes =>
      rw [notes] at hn
      exact .inl ⟨note', hn, rfl, hstatus⟩
    | update _ _ _ _ _ _ _ _ notes _ =>
      rw [notes] at hn
      exact .inl ⟨note', hn, rfl, hstatus⟩
    | transition _ _ _ _ _ _ _ _ notes =>
      rw [notes] at hn
      exact .inl ⟨note', hn, rfl, hstatus⟩
    | @createReviewNote ctx id dto _ _ _ n₀ onWorkpaper _ _ notes =>
      rw [notes] at hn
      split at hn
      · rename_i hid
        cases hn
        rw [onWorkpaper]
        exact .inr ⟨_, rfl, .inl ⟨ctx, dto, rfl, hid.symm⟩, hacc⟩
      · exact .inl ⟨note', hn, rfl, hstatus⟩
    | @updateReviewNote ctx id dto _ n₀ wp f action row change notes =>
      rw [notes] at hn
      split at hn
      · rename_i hid
        subst hid
        cases hn
        obtain ⟨hid, -, hcleared | hreopen | hanswered⟩ := Workpapers.noteChange_ok change
        · exact absurd hcleared hstatus
        · exact .inr ⟨_, rfl, .inr ⟨ctx, dto, rfl, hreopen⟩, hacc⟩
        · exact .inl ⟨n₀, row, hid, hanswered⟩
      · exact .inl ⟨note', hn, rfl, hstatus⟩
  | finding o =>
    rw [after_finding, (findings_keep s o).2.2] at hn
    exact .inl ⟨note', hn, rfl, hstatus⟩

/-- What reporting asks for when it starts. -/
theorem started (hs : Consistent s) {i : Uuid} {r : Request} (h : Moves "start_reporting" i s r) :
    (∃ j w, s.workpapers.find j = some w ∧ w.engagementId = i ∧ w.deletedAt = none) ∧
      (∀ j w, s.workpapers.find j = some w → w.engagementId = i → w.deletedAt = none →
        w.status = .signedOff ∧
          ∀ n note, s.reviewNotes.find n = some note → note.workpaperId = j → note.status = .cleared) := by
  obtain ⟨ctx, e, t, e', he, htenant, declared, guards, -, -⟩ := moved_of_moves h
  obtain ⟨hcases, -, hname⟩ := engagementWorkflow_cases declared
  have ht : t = EngagementWorkflow.startReporting := by
    rcases hcases with rfl | rfl | rfl | rfl | rfl | rfl | rfl | rfl | rfl
    all_goals first | rfl | exact absurd hname (by decide)
  subst ht
  obtain ⟨⟨_, rfl, hsome⟩, hsigned⟩ := guards "all_workpapers_signed_off" (by decide)
  have hcleared := guards "no_open_review_notes" (by decide)
  constructor
  · by_contra hnone
    refine hsome.ne' ((Table.count_eq_zero_iff _ _).mpr fun j w hw => ?_)
    by_contra hcond
    simp only [Bool.not_eq_false, Bool.and_eq_true, decide_eq_true_eq, Option.isNone_iff_eq_none] at hcond
    exact hnone ⟨j, w, hw, hcond.2.1.1, hcond.2.1.2⟩
  · intro j w hw hi hdeleted
    -- the user sees the workpapers of the engagement, and their notes
    have hsame : w.tenantId = ctx.tenantId := by
      obtain ⟨e₁, he₁, hsame⟩ := hs.workpapers j w hw
      rw [hi, he, Option.some.injEq] at he₁
      subst he₁
      exact hsame.symm.trans htenant
    have hsees : ctx.sees w = true := (Ctx.sees_iff_tenant rfl).mpr hsame
    constructor
    · have := (Table.count_eq_zero_iff _ _).mp hsigned j w hw
      simpa [hsees, hi, hdeleted] using this
    · intro n note hn hj
      obtain ⟨w₁, hw₁, hnote⟩ := hs.reviewNotes n note hn
      rw [hj, hw, Option.some.injEq] at hw₁
      subst hw₁
      have hzero := (Table.count_eq_zero_iff _ _).mp hcleared n note hn
      have hnote : ctx.sees note = true := (Ctx.sees_iff_tenant rfl).mpr (hnote.symm.trans hsame)
      dsimp only at hzero
      rw [hnote, hj, hw] at hzero
      cases hstatus : note.status <;> simp [hstatus, hi, hdeleted] at hzero ⊢

end Step

/-! ### Runs -/

section Run

variable {s₀ : Db} {i : Uuid} {past : List Request}

/-- What a report rests on once reporting has started. -/
theorem rests_of_started {r : Request} (hs : Consistent (history serve s₀ past))
    (h : Moves "start_reporting" i (history serve s₀ past) r) : Rests s₀ i (r :: past) := by
  obtain ⟨⟨j, w, hw, hi, hdeleted⟩, hsigned⟩ := started hs h
  obtain ⟨⟨ctx, dto, rfl, -⟩, -⟩ := h
  have hworkpapers : (history serve s₀ (.engagement (.transition ctx i dto) :: past)).workpapers =
      (history serve s₀ past).workpapers := by
    rw [history, after_engagement, (engagements_keep _ _).1]
  have hnotes : (history serve s₀ (.engagement (.transition ctx i dto) :: past)).reviewNotes =
      (history serve s₀ past).reviewNotes := by
    rw [history, after_engagement, (engagements_keep _ _).2.1]
  refine ⟨⟨j, w, by rw [hworkpapers]; exact hw, hi, hdeleted⟩, fun j w hw hi hdeleted hopen => ?_,
    fun j w n note hw hi hdeleted hn hj hopen => ?_⟩
  · rw [hworkpapers] at hw
    exact absurd (hsigned j w hw hi hdeleted).1 hopen
  · rw [hworkpapers] at hw
    rw [hnotes] at hn
    rw [(hsigned j w hw hi hdeleted).2 n note hn hj] at hopen
    rcases hopen with h | h <;> cases h

/-- What a report rests on is not lost. -/
theorem Rests.step (h : Rests s₀ i past) (hs : Consistent (history serve s₀ past)) {r : Request}
    (hnot : ¬Moves "start_reporting" i (history serve s₀ past) r) : Rests s₀ i (r :: past) := by
  constructor
  · obtain ⟨j, w, hw, hi, hdeleted⟩ := h.workpaper
    obtain ⟨w', hw', -, hi', hdeleted'⟩ := workpaper_stays r hw
    exact ⟨j, w', hw', hi'.trans hi, hdeleted'.trans hdeleted⟩
  · intro j w' hw' hi hdeleted hopen
    rcases not_signedOff_origin r hw' hopen with ⟨w, hw, ⟨-, hi', hdeleted'⟩, hopen'⟩ | hreopens
    · exact .inr ⟨hnot, h.signedOff j w hw (hi'.symm.trans hi) (hdeleted'.symm.trans hdeleted) hopen'⟩
    · exact .inl hreopens
  · intro j w' n note' hw' hi hdeleted hn hj hopen
    have hstatus : note'.status ≠ .cleared := by
      intro hcleared
      rw [hcleared] at hopen
      rcases hopen with h | h <;> cases h
    rcases not_cleared_origin r hn hstatus with ⟨note, hnote, hj', hopen'⟩ | hraises
    · -- the workpaper of the note was there before
      rw [hj'] at hj
      obtain ⟨w, hw, -⟩ := hs.reviewNotes n note hnote
      rw [hj] at hw
      obtain ⟨w₁, hw₁, -, hi', hdeleted'⟩ := workpaper_stays r hw
      rw [show (after serve (history serve s₀ past) r).workpapers.find j = some w' from hw', Option.some.injEq] at hw₁
      subst hw₁
      refine .inr ⟨hnot, h.cleared j w n note hw (hi'.symm.trans hi) (hdeleted'.symm.trans hdeleted) hnote hj ?_⟩
      cases hcase : note.status with
      | opened => exact .inl rfl
      | addressed => exact .inr rfl
      | cleared => exact absurd hcase hopen'
    · rw [hj] at hraises
      exact .inl hraises

/-- Engagement `i` rests on its workpapers as long as the report is written and followed up,
and when it has been closed. -/
structure Resting (s₀ : Db) (i : Uuid) (past : List Request) : Prop where
  reporting : ∀ e, (history serve s₀ past).engagements.find i = some e →
    e.stage = .reporting ∨ e.stage = .followUp → Rests s₀ i past
  closed : HasBeenClosed s₀ i past →
    Rests s₀ i past ∧ ∃ e, (history serve s₀ past).engagements.find i = some e ∧ e.stage = .closed

theorem Resting.step (h : Resting s₀ i past) (hs : Consistent (history serve s₀ past)) (r : Request) :
    Resting s₀ i (r :: past) := by
  have hclosed : HasBeenClosed s₀ i past → Rests s₀ i (r :: past) ∧
      ∃ e, (history serve s₀ (r :: past)).engagements.find i = some e ∧ e.stage = .closed := by
    intro hpast
    obtain ⟨hrests, e, he, hclosed⟩ := h.closed hpast
    obtain ⟨hstays, hstill⟩ := closed_stays r he hclosed
    exact ⟨hrests.step hs (hstill _), hstays⟩
  constructor
  · intro e' he' hstage
    by_cases hstart : Moves "start_reporting" i (history serve s₀ past) r
    · exact rests_of_started hs hstart
    refine Rests.step ?_ hs hstart
    cases stage_step r he' with
    | kept e row same =>
      rw [same] at hstage
      exact h.reporting e row hstage
    | created _ initial =>
      rw [initial] at hstage
      rcases hstage with h | h <;> cases h
    | moved e t row declared moves _ arrives =>
      obtain ⟨hcases, hfrom, -⟩ := engagementWorkflow_cases declared
      rw [arrives] at hstage
      rcases hcases with rfl | rfl | rfl | rfl | rfl | rfl | rfl | rfl | rfl
      case inr.inr.inr.inr.inr.inl => exact absurd moves hstart
      case inr.inr.inr.inr.inr.inr.inl => exact h.reporting e row (.inl hfrom)
      all_goals rcases hstage with h | h <;> cases h
  · rintro (hclose | ⟨-, hpast⟩)
    · obtain ⟨-, e, t, e', he, -, declared, -, he', harrives⟩ := moved_of_moves hclose
      obtain ⟨hcases, hfrom, hname⟩ := engagementWorkflow_cases declared
      have ht : t = EngagementWorkflow.close := by
        rcases hcases with rfl | rfl | rfl | rfl | rfl | rfl | rfl | rfl | rfl
        all_goals first | rfl | exact absurd hname (by decide)
      subst ht
      refine ⟨(h.reporting e he (.inr hfrom)).step hs ?_, e', he', harrives⟩
      intro hstart
      cases stage_step r he' with
      | kept _ _ _ still => exact still _ hstart
      | created _ _ still => exact still _ hstart
      | moved _ _ _ _ _ only => exact absurd ((only _ hstart).trans (only _ hclose).symm) (by decide)
    · exact hclosed hpast

end Run

/-- **What a report rests on**: an engagement that is reporting or followed up, or has been
closed after that, has a workpaper; what is not signed off of it has been created or unlocked
since reporting last started, and what notes are not cleared have been raised or reopened. -/
theorem reporting_rests (s₀ : Db) (h₀ : Consistent s₀) (i : Uuid)
    (hi : ∀ e, s₀.engagements.find i = some e → e.stage ≠ .reporting ∧ e.stage ≠ .followUp) (past : List Request)
    (e : Engagement) (he : (history serve s₀ past).engagements.find i = some e)
    (hstage : e.stage = .reporting ∨ e.stage = .followUp ∨ e.stage = .closed ∧ HasBeenClosed s₀ i past) :
    Rests s₀ i past := by
  have hresting : Resting s₀ i past := by
    clear he hstage
    induction past with
    | nil => exact ⟨fun e he hstage => (hstage.elim (hi e he).1 (hi e he).2).elim, fun h => h.elim⟩
    | cons r past ih => exact ih.step (consistent_of_history h₀ past) r
  rcases hstage with h | h | ⟨-, h⟩
  · exact hresting.reporting e he (.inl h)
  · exact hresting.reporting e he (.inr h)
  · exact (hresting.closed h).1

/-! ### An engagement for examples -/

theorem office_consistent : Consistent Workpapers.office :=
  ⟨fun _ _ h => (by cases h), fun _ _ h => (by cases h), fun _ _ h => (by cases h)⟩

/-- A user moves engagement 10. -/
def move (k : Uuid) (action : String) : Request := .engagement (.transition (Engagements.director 3 k) 10 { action })

/-- The workpaper of the engagement is signed off, and reporting has started. -/
def reported : List Request :=
  [move 122 "start_reporting", move 121 "submit_for_review", .workpaper (Workpapers.take 3 120 "sign_off")] ++
    Workpapers.reviewed.map .workpaper

/-- Cleo unlocks the workpaper. -/
def unlocked : List Request := .workpaper (Workpapers.take 3 123 "unlock") :: reported

/-- While an engagement is reporting, a workpaper of it can be unlocked. -/
theorem unlocked_in_reporting :
    (∃ e, (history serve Workpapers.office unlocked).engagements.find 10 = some e ∧ e.stage = .reporting) ∧
      ∃ w, (history serve Workpapers.office unlocked).workpapers.find 100 = some w ∧ w.engagementId = 10 ∧
        w.deletedAt = none ∧ w.status ≠ .signedOff := by
  have hstage : ((history serve Workpapers.office unlocked).engagements.find 10).map (·.stage) = some .reporting := by
    decide +kernel
  have hworkpaper : ((history serve Workpapers.office unlocked).workpapers.find 100).map
      (fun w => (w.engagementId, w.deletedAt, w.status)) = some (10, none, .draft) := by
    decide +kernel
  obtain ⟨w, hw, heq⟩ := Option.map_eq_some_iff.mp hworkpaper
  simp only [Prod.mk.injEq] at heq
  obtain ⟨hi, hdeleted, hstatus⟩ := heq
  exact ⟨Option.map_eq_some_iff.mp hstage, w, hw, hi, hdeleted, by simp [hstatus]⟩

/-- The theorem at that engagement: the workpaper has been unlocked since. -/
theorem reporting_rests_unlocked : Rests Workpapers.office 10 unlocked := by
  have hstage : ((history serve Workpapers.office unlocked).engagements.find 10).map (·.stage) = some .reporting := by
    decide +kernel
  obtain ⟨e, he, hstage⟩ := Option.map_eq_some_iff.mp hstage
  refine reporting_rests Workpapers.office office_consistent 10 ?_ unlocked e he (.inl hstage)
  intro e he
  cases he
  exact ⟨by decide, by decide⟩

end AuditSphere.Work
