import AuditSphere.Engagements.Reporting

/-!
# After the close of an engagement

An engagement is closed when all its findings have an action owner and have been
submitted. The findings are followed up afterwards, and no operation on a finding but its
creation looks at the engagement: a finding can be returned to draft, or lose its owner
(`draft_after_close`). `settled_since_closed`: without that, what the close asked for stays.
-/

namespace AuditSphere.Work

open Prisma Theory Shared

/-- Finding `j` is moved by an action. -/
def MovesFinding (action : String) (j : Uuid) (s : Db) (r : Request) : Prop :=
  ∃ o, r = .finding o ∧ Findings.Moves action j s o

/-- What an edit supplies leaves a finding without an action owner. -/
def LeavesUnowned (dto : Findings.UpdateFindingDto) (f : Finding) : Prop :=
  dto.actionOwnerId.onNullable f.actionOwnerId = none ∧
    isBlank (dto.actionOwnerName.onNullable f.actionOwnerName) = true ∧
    isBlank (dto.actionOwnerEmail.onNullable f.actionOwnerEmail) = true

/-- Finding `j` is edited so that it is without an action owner. -/
def Disowns (j : Uuid) (s : Db) (r : Request) : Prop :=
  ∃ ctx dto f, r = .finding (.edit (.update ctx j dto)) ∧ Accepted serve s r ∧ s.findings.find j = some f ∧
    LeavesUnowned dto f

theorem hasOwner_eq_false {f : Finding} : Findings.hasOwner f = false ↔
    f.actionOwnerId = none ∧ isBlank f.actionOwnerName = true ∧ isBlank f.actionOwnerEmail = true := by
  simp [Findings.hasOwner, and_assoc]

/-- Where the findings of a closed engagement come from that have no owner or are drafts. -/
structure Unsettled (s : Db) (j : Uuid) (r : Request) (f' : Finding) : Prop where
  draft : f'.status = .draft → (∃ f, s.findings.find j = some f ∧ f.status = .draft ∧ ¬MovesFinding "submit" j s r) ∨
    MovesFinding "return_to_draft" j s r
  unowned : Findings.hasOwner f' = false →
    (∃ f, s.findings.find j = some f ∧ Findings.hasOwner f = false) ∨ Disowns j s r

/-- What the close of an engagement asks for. -/
theorem settled_of_closed {s : Db} (hs : Consistent s) {i : Uuid} {r : Request} (h : Moves "close" i s r) :
    (∃ e', (after serve s r).engagements.find i = some e' ∧ e'.stage = .closed) ∧
      ∀ j f, (after serve s r).findings.find j = some f → f.engagementId = i → f.deletedAt = none →
        f.status ≠ .draft ∧ Findings.hasOwner f = true := by
  obtain ⟨ctx, e, t, e', he, htenant, declared, guards, he', harrives⟩ := moved_of_moves h
  obtain ⟨hcases, -, hname⟩ := engagementWorkflow_cases declared
  have ht : t = EngagementWorkflow.close := by
    rcases hcases with rfl | rfl | rfl | rfl | rfl | rfl | rfl | rfl | rfl
    all_goals first | rfl | exact absurd hname (by decide)
  subst ht
  refine ⟨⟨e', he', harrives⟩, fun j f hf hi hdeleted => ?_⟩
  obtain ⟨⟨ctx', dto, rfl, -⟩, -⟩ := h
  rw [after_engagement, (engagements_keep s _).2.2] at hf
  have hsees : ctx.sees f = true := by
    obtain ⟨e₁, he₁, hsame⟩ := hs.findings j f hf
    rw [hi, he, Option.some.injEq] at he₁
    subst he₁
    exact (Ctx.sees_iff_tenant rfl).mpr (hsame.symm.trans htenant)
  have hmem : (j, f) ∈ Engagements.findingsOf ctx s i := by
    unfold Engagements.findingsOf Ctx.findMany
    simp [Table.mem_rows_iff, hf, hsees, hi, hdeleted]
  obtain ⟨howned, hdraft⟩ := guards "all_findings_owned_and_submitted" (by decide) (j, f) hmem
  refine ⟨hdraft, ?_⟩
  by_contra hnot
  rw [Bool.not_eq_true, hasOwner_eq_false] at hnot
  simp [Engagements.unassigned, hnot] at howned

/-- A finding of a closed engagement. -/
theorem unsettled_step {s : Db} (r : Request) {i j : Uuid} {e : Engagement} (he : s.engagements.find i = some e)
    (hclosed : e.stage = .closed) {f' : Finding} (hf' : (after serve s r).findings.find j = some f')
    (hi : f'.engagementId = i) :
    (∃ f, s.findings.find j = some f ∧ f.engagementId = i ∧ f.deletedAt = f'.deletedAt) ∧ Unsettled s j r f' := by
  have hsame : s.findings.find j = some f' → (∀ action, ¬MovesFinding action j s r) →
      (∃ f, s.findings.find j = some f ∧ f.engagementId = i ∧ f.deletedAt = f'.deletedAt) ∧ Unsettled s j r f' :=
    fun hf hnot => ⟨⟨f', hf, hi, rfl⟩, fun hdraft => .inl ⟨f', hf, hdraft, hnot _⟩, fun hlacks => .inl ⟨f', hf, hlacks⟩⟩
  cases r with
  | engagement r =>
    rw [after_engagement, (engagements_keep s r).2.2] at hf'
    refine hsame hf' ?_
    rintro action ⟨o, ⟨⟩, -⟩
  | workpaper r =>
    rw [after_workpaper, (workpapers_keep s r).2] at hf'
    refine hsame hf' ?_
    rintro action ⟨o, ⟨⟩, -⟩
  | finding o =>
    rw [after_finding] at hf'
    have hstep := Findings.perform_row s o j
    generalize (after Findings.perform s o).findings.find j = row at hstep hf'
    cases hstep with
    | kept hkept =>
      refine hsame hf' ?_
      rintro action ⟨_, ⟨⟩, hmoves⟩
      exact Findings.not_moves_of_kept hkept hmoves
    | @created ctx dto engagement _ _ _ read opened =>
      -- a closed engagement receives no new findings
      cases hf'
      have hread := (Ctx.findById_eq_some.mp read).1
      change dto.engagementId = i at hi
      rw [hi, he, Option.some.injEq] at hread
      subst hread
      exact absurd hclosed opened
    | @edited ctx dto f _ accepted hfound _ change =>
      cases hf'
      have hf := (Findings.found_eq_some.mp hfound).1
      obtain ⟨-, hid, hname, hemail, -, hstatus, -, -, hengagement, -, hdeleted⟩ := Findings.apply_ok change
      refine ⟨⟨f, hf, hengagement.symm.trans hi, hdeleted.symm⟩, fun hdraft => .inl ⟨f, hf, hstatus ▸ hdraft, ?_⟩,
        fun hlacks => .inr ⟨ctx, dto, f, rfl, (accepted_finding s _).mpr accepted, hf, ?_⟩⟩
      · rintro ⟨_, ⟨⟩, ⟨⟨_, _, ⟨⟩, -⟩, -⟩⟩
      · rw [hasOwner_eq_false, hid, hname, hemail] at hlacks
        exact hlacks
    | @moved ctx dto t f accepted hfound declared guards =>
      cases hf'
      have hf := (Findings.found_eq_some.mp hfound).1
      obtain ⟨-, hengagement, hdeleted, -, -, -, -, hid, hname, hemail, hto⟩ := Findings.transitioned_kept ctx t f f
      obtain ⟨hcases, hfrom, haction⟩ := findingWorkflow_cases declared
      refine ⟨⟨f, hf, hengagement.symm.trans hi, hdeleted.symm⟩, fun hdraft => .inr ?_, fun hlacks => .inl ⟨f, hf, ?_⟩⟩
      · rw [hto] at hdraft
        refine ⟨_, rfl, ⟨ctx, dto, rfl, ?_⟩, accepted⟩
        rw [haction]
        rcases hcases with rfl | rfl | rfl | rfl | rfl | rfl | rfl | rfl
        all_goals first | rfl | exact absurd hdraft (by decide)
      · rw [hasOwner_eq_false] at hlacks ⊢
        rw [hid, hname, hemail] at hlacks
        exact hlacks
    | @extended ctx dto f accepted hfound _ _ =>
      cases hf'
      have hf := (Findings.found_eq_some.mp hfound).1
      refine ⟨⟨f, hf, hi, rfl⟩, fun hdraft => .inl ⟨f, hf, hdraft, ?_⟩, fun hlacks => .inl ⟨f, hf, hlacks⟩⟩
      rintro ⟨_, ⟨⟩, ⟨⟨_, _, ⟨⟩, -⟩, -⟩⟩

/-- **After the close**: a finding of a closed engagement is a draft only if it has been
returned to draft since, and not been submitted again, and it is without an action owner only
if an edit has left it so since. -/
theorem settled_since_closed (s₀ : Db) (h₀ : Consistent s₀) (early : List Request) (i : Uuid) (closing : Request)
    (hclose : Moves "close" i (history serve s₀ early) closing) (late : List Request) (j : Uuid) (f : Finding)
    (hf : (history serve (history serve s₀ (closing :: early)) late).findings.find j = some f)
    (hi : f.engagementId = i) (hdeleted : f.deletedAt = none) :
    (f.status = .draft → Since serve (MovesFinding "submit" j) (MovesFinding "return_to_draft" j)
      (history serve s₀ (closing :: early)) late) ∧
    (Findings.hasOwner f = false → Since serve (fun _ _ => False) (Disowns j)
      (history serve s₀ (closing :: early)) late) := by
  obtain ⟨hclosed₀, hsettled⟩ := settled_of_closed (consistent_of_history h₀ early) hclose
  have hclosed : ∀ late, ∃ e, (history serve (history serve s₀ (closing :: early)) late).engagements.find i = some e ∧
      e.stage = .closed :=
    invariant_of_step (I := fun s : Db => ∃ e, s.engagements.find i = some e ∧ e.stage = .closed) hclosed₀
      fun s r ⟨e, he, hclosed⟩ => (closed_stays r he hclosed).1
  induction late generalizing f with
  | nil =>
    obtain ⟨hdraft, howner⟩ := hsettled j f hf hi hdeleted
    exact ⟨fun h => absurd h hdraft, fun h => by rw [howner] at h; cases h⟩
  | cons r late ih =>
    obtain ⟨e, he, hstage⟩ := hclosed late
    obtain ⟨⟨f₀, hf₀, hi₀, hdeleted₀⟩, hunsettled⟩ := unsettled_step r he hstage hf hi
    obtain ⟨ihdraft, ihowner⟩ := ih f₀ hf₀ hi₀ (hdeleted₀.trans hdeleted)
    constructor
    · intro hdraft
      rcases hunsettled.draft hdraft with ⟨f₁, hf₁, hdraft₁, hnot⟩ | hreturned
      · rw [hf₀, Option.some.injEq] at hf₁
        subst hf₁
        exact .inr ⟨hnot, ihdraft hdraft₁⟩
      · exact .inl hreturned
    · intro hlacks
      rcases hunsettled.unowned hlacks with ⟨f₁, hf₁, hlacks₁⟩ | hdisowned
      · rw [hf₀, Option.some.injEq] at hf₁
        subst hf₁
        exact .inr ⟨not_false, ihowner hlacks₁⟩
      · exact .inl hdisowned

/-! ### A closed engagement -/

/-- The report is issued, and finding 200 is raised and submitted. -/
def followedUp : List Request := Findings.submitted.map .finding ++ [move 124 "issue_report"] ++ reported

/-- Cleo closes the engagement. -/
def closing : Request := move 220 "close"

/-- Ann returns the finding to draft. -/
def returned : List Request := [.finding (Findings.take 1 221 "return_to_draft")]

theorem closes : Moves "close" 10 (history serve Workpapers.office followedUp) closing := by
  have hsucceeds : ((serve closing).run (history serve Workpapers.office followedUp)).1.isOk = true := by
    decide +kernel
  refine ⟨⟨_, _, rfl, rfl⟩, ?_⟩
  unfold Accepted
  generalize (serve closing).run (history serve Workpapers.office followedUp) = result at hsucceeds
  rcases result with ⟨e | a, s'⟩
  · cases hsucceeds
  · exact ⟨a, s', rfl⟩

theorem returned_draft : ∃ f, f.engagementId = 10 ∧ f.deletedAt = none ∧ f.status = .draft ∧
    (history serve (history serve Workpapers.office (closing :: followedUp)) returned).findings.find 200 = some f := by
  have hfinding : ((history serve (history serve Workpapers.office (closing :: followedUp)) returned).findings.find
      200).map (fun f => (f.engagementId, f.deletedAt, f.status)) = some (10, none, .draft) := by
    decide +kernel
  obtain ⟨f, hf, heq⟩ := Option.map_eq_some_iff.mp hfinding
  simp only [Prod.mk.injEq] at heq
  obtain ⟨hi, hdeleted, hdraft⟩ := heq
  exact ⟨f, hi, hdeleted, hdraft, hf⟩

/-- A finding of a closed engagement can be a draft. -/
theorem draft_after_close : Moves "close" 10 (history serve Workpapers.office followedUp) closing ∧
    ∃ f, f.engagementId = 10 ∧ f.deletedAt = none ∧ f.status = .draft ∧
      (history serve (history serve Workpapers.office (closing :: followedUp)) returned).findings.find 200 = some f :=
  ⟨closes, returned_draft⟩

/-- The theorem at that finding: it has been returned since. -/
theorem settled_since_closed_returned : Since serve (MovesFinding "submit" 200) (MovesFinding "return_to_draft" 200)
    (history serve Workpapers.office (closing :: followedUp)) returned := by
  obtain ⟨f, hi, hdeleted, hdraft, hf⟩ := returned_draft
  exact (settled_since_closed Workpapers.office office_consistent followedUp 10 closing closes returned 200 f hf hi
    hdeleted).1 hdraft

end AuditSphere.Work
