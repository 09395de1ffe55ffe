import AuditSphere.Workpapers.Lifecycle

/-!
# Review notes

A review is approved only when no note of the workpaper is open or addressed. No
other request looks at notes: they can be raised and reopened in every status, also
after sign-off (`note_after_sign_off`). So a signed-off workpaper can have open
notes, but none from before the approval of its review (`notes_since_review`).
-/

namespace AuditSphere.Workpapers

open Prisma Theory Shared WorkpaperWorkflow

/-- Note `n` of workpaper `i` is raised, or reopened. -/
def Raises (i n : Uuid) (s : Db) (r : Request) : Prop :=
  ((∃ ctx dto, r = .createReviewNote ctx i dto ∧ ctx.uuid 0 = n) ∨
    ∃ ctx dto, r = .updateReviewNote ctx n dto ∧ dto.clear.orNull ≠ some true ∧ dto.reopen.orNull = some true) ∧
    Accepted serve s r

/-- What an update can make of a note: it is cleared, reopened, or answered while it is
not cleared. -/
theorem noteChange_ok {ctx : Ctx} {n : ReviewNote} {wp : Workpaper} {dto : UpdateReviewNoteDto}
    {f : ReviewNote → ReviewNote} {action : String} (h : noteChange ctx n wp dto = .ok (f, action)) :
    (f n).workpaperId = n.workpaperId ∧ (f n).tenantId = n.tenantId ∧
      ((f n).status = .cleared ∨ (dto.clear.orNull ≠ some true ∧ dto.reopen.orNull = some true) ∨
        n.status ≠ .cleared) := by
  unfold noteChange at h
  dsimp only at h
  split at h
  · split at h
    · cases h
    · split at h <;> cases h
      exact ⟨rfl, rfl, .inl rfl⟩
  · rename_i hclear
    split at h
    · rename_i hreopen
      split at h
      · cases h
      · split at h <;> cases h
        exact ⟨rfl, rfl, .inr (.inl ⟨hclear, hreopen⟩)⟩
    · split at h
      · split at h
        · cases h
        · split at h
          · cases h
          · rename_i hcleared
            cases h
            exact ⟨rfl, rfl, .inr (.inr hcleared)⟩
      · cases h

/-- The notes of workpaper `i` are of its tenant. -/
def NotesOfTenant (i : Uuid) (s : Db) : Prop :=
  ∀ n note, s.reviewNotes.find n = some note → note.workpaperId = i →
    ∃ w, s.workpapers.find i = some w ∧ w.tenantId = note.tenantId

/-- A row stays, with its tenant. -/
theorem tenant_step {s : Db} {i : Uuid} {w : Workpaper} (r : Request) (h : s.workpapers.find i = some w) :
    ∃ w', (after serve s r).workpapers.find i = some w' ∧ w'.tenantId = w.tenantId := by
  have hstep := serve_row s r i
  generalize (after serve s r).workpapers.find i = o at hstep
  cases hstep with
  | kept => exact ⟨w, h, rfl⟩
  | created _ _ _ fresh =>
    rw [fresh] at h
    cases h
  | edited w₁ w' _ hfound _ edit _ =>
    rw [(found_eq_some.mp hfound).1, Option.some.injEq] at h
    subst h
    refine ⟨w', rfl, ?_⟩
    unfold edited at edit
    split at edit <;> cases edit
    rfl
  | moved t w₁ _ hfound _ _ _ =>
    rw [(found_eq_some.mp hfound).1, Option.some.injEq] at h
    subst h
    exact ⟨_, rfl, (transitioned_fields _ t w₁ w₁).2.2.1⟩

theorem notesOfTenant_step {s : Db} {i : Uuid} (r : Request) (h : NotesOfTenant i s) :
    NotesOfTenant i (after serve s r) := by
  -- the note comes from one of the old state, or is on a workpaper that the user has found
  suffices hold : ∀ n note, (after serve s r).reviewNotes.find n = some note → note.workpaperId = i →
      ∃ w, s.workpapers.find i = some w ∧ w.tenantId = note.tenantId by
    intro n note hn hi
    obtain ⟨w, hw, htenant⟩ := hold n note hn hi
    obtain ⟨w', hw', hsame⟩ := tenant_step r hw
    exact ⟨w', hw', hsame.trans htenant⟩
  intro n note hn hi
  rcases serve_effect s r with ⟨-, haside⟩ | ⟨-, heffect⟩
  · rw [haside.reviewNotes] at hn
    exact h n note hn hi
  · generalize after serve s r = s' at heffect hn
    cases heffect with
    | create _ _ _ _ notes =>
      rw [notes] at hn
      exact h n note hn hi
    | update _ _ _ _ _ _ _ _ notes _ =>
      rw [notes] at hn
      exact h n note hn hi
    | transition _ _ _ _ _ _ _ _ notes =>
      rw [notes] at hn
      exact h n note hn hi
    | @createReviewNote ctx id _ _ w hfound n₀ onWorkpaper tenant _ notes =>
      rw [notes] at hn
      split at hn
      · cases hn
        rw [onWorkpaper] at hi
        subst hi
        obtain ⟨hrow, hsees, -⟩ := found_eq_some.mp hfound
        exact ⟨w, hrow, ((Ctx.sees_iff_tenant rfl).mp hsees).trans tenant.symm⟩
      · exact h n note hn hi
    | @updateReviewNote ctx id dto _ n₀ wp f action row change notes =>
      rw [notes] at hn
      split at hn
      · cases hn
        obtain ⟨hid, htenant, -⟩ := noteChange_ok change
        rw [hid] at hi
        rw [htenant]
        exact h id n₀ row hi
      · exact h n note hn hi

theorem notesOfTenant_of_history {s₀ : Db} {i : Uuid}
    (hn₀ : ∀ n note, s₀.reviewNotes.find n = some note → note.workpaperId ≠ i) (past : List Request) :
    NotesOfTenant i (history serve s₀ past) :=
  invariant_of_step (fun n note hn hi => absurd hi (hn₀ n note hn)) (fun _ r h => notesOfTenant_step r h) past

/-- When a review is approved, the notes of the workpaper are all cleared. -/
theorem cleared_of_approved {s : Db} {i n : Uuid} {ctx : Ctx} {w : Workpaper} {note : ReviewNote}
    (htenants : NotesOfTenant i s) (hfound : found ctx s i = some w)
    (hguard : guardHolds ctx i w "no_open_review_notes" s) (hn : s.reviewNotes.find n = some note)
    (hi : note.workpaperId = i) : note.status = .cleared := by
  obtain ⟨hrow, hsees, -⟩ := found_eq_some.mp hfound
  obtain ⟨w', hw', htenant⟩ := htenants n note hn hi
  rw [hrow, Option.some.injEq] at hw'
  subst hw'
  have hsees' : ctx.sees note = true := by
    rw [Ctx.sees_iff_tenant rfl] at hsees ⊢
    exact htenant.symm.trans hsees
  have hzero := (Table.count_eq_zero_iff _ _).mp hguard n note hn
  dsimp only at hzero
  rw [hsees', hi] at hzero
  cases hstatus : note.status <;> simp [hstatus] at hzero ⊢

/-- From the approval of a review on, a note that is not cleared has been raised since. -/
theorem notes_since_approved {s₀ : Db} {i : Uuid} (h₀ : s₀.workpapers.find i = none)
    (hn₀ : ∀ n note, s₀.reviewNotes.find n = some note → note.workpaperId ≠ i) (past : List Request) :
    ∀ w, (history serve s₀ past).workpapers.find i = some w → w.status = .reviewed ∨ w.status = .signedOff →
      ∀ n note, (history serve s₀ past).reviewNotes.find n = some note → note.workpaperId = i →
        note.status ≠ .cleared → Since serve (Moves "approve_review" i) (Raises i n) s₀ past := by
  induction past with
  | nil =>
    intro w hw
    rw [history, h₀] at hw
    cases hw
  | cons r past ih =>
    have hcoherent := coherent_of_history h₀ past
    have htenants := notesOfTenant_of_history hn₀ past
    intro w' hw' hstatus n note hn hi hopen
    rw [history] at hw' hn
    rcases serve_effect (history serve s₀ past) r with ⟨hfail, haside⟩ | ⟨hacc, heffect⟩
    · rw [haside.workpapers] at hw'
      rw [haside.reviewNotes] at hn
      exact .inr ⟨fun hm => hfail hm.2, ih w' hw' hstatus n note hn hi hopen⟩
    generalize hs' : after serve (history serve s₀ past) r = s' at heffect hw' hn
    cases heffect with
    | create _ _ rows _ notes =>
      rw [rows] at hw'
      rw [notes] at hn
      split at hw'
      · cases hw'
        rcases hstatus with h | h <;> cases h
      · exact .inr ⟨by rintro ⟨⟨_, _, ⟨⟩, _⟩, _⟩, ih w' hw' hstatus n note hn hi hopen⟩
    | @update ctx id dto _ w w₁ hfound _ _ edit _ rows notes _ =>
      rw [rows] at hw'
      rw [notes] at hn
      refine .inr ⟨by rintro ⟨⟨_, _, ⟨⟩, _⟩, _⟩, ?_⟩
      split at hw'
      · rename_i hid
        subst hid
        cases hw'
        have hrow := (found_eq_some.mp hfound).1
        obtain ⟨c, -, rfl⟩ := edited_ok edit (hcoherent w hrow).preparer
        exact ih w hrow hstatus n note hn hi hopen
      · exact ih w' hw' hstatus n note hn hi hopen
    | @transition ctx id dto _ t w hfound declared _ guards rows _ notes =>
      rw [rows] at hw'
      rw [notes] at hn
      split at hw'
      · rename_i hid
        subst hid
        cases hw'
        have hrow := (found_eq_some.mp hfound).1
        obtain ⟨-, -, -, -, hto⟩ := transitioned_fields ctx t w w
        obtain ⟨hcases, hfrom, hname⟩ := declared_cases declared
        rw [hto] at hstatus
        rcases hcases with rfl | rfl | rfl | rfl | rfl | rfl | rfl | rfl
        case inr.inr.inr.inr.inr.inl =>
          exact absurd (cleared_of_approved htenants hfound (guards _ (by decide)) hn hi) hopen
        case inr.inr.inr.inr.inr.inr.inl =>
          refine .inr ⟨?_, ih w hrow (.inl hfrom) n note hn hi hopen⟩
          rintro ⟨⟨_, _, ⟨⟩, h⟩, _⟩
          rw [hname] at h
          exact absurd h (by decide)
        all_goals exact absurd hstatus (by decide)
      · rename_i hid
        refine .inr ⟨?_, ih w' hw' hstatus n note hn hi hopen⟩
        rintro ⟨⟨_, _, ⟨⟩, _⟩, _⟩
        exact hid rfl
    | @createReviewNote ctx id dto _ w _ n₀ onWorkpaper _ _ notes workpapers _ =>
      rw [workpapers] at hw'
      rw [notes] at hn
      split at hn
      · rename_i hid
        cases hn
        refine .inl ⟨.inl ⟨ctx, dto, ?_, hid.symm⟩, hacc⟩
        rw [← hi, onWorkpaper]
      · exact .inr ⟨by rintro ⟨⟨_, _, ⟨⟩, _⟩, _⟩, ih w' hw' hstatus n note hn hi hopen⟩
    | @updateReviewNote ctx id dto _ n₀ wp f action row change notes workpapers _ =>
      rw [workpapers] at hw'
      rw [notes] at hn
      split at hn
      · rename_i hid
        subst hid
        cases hn
        obtain ⟨hid, -, hcleared | hreopen | hanswered⟩ := noteChange_ok change
        · exact absurd hcleared hopen
        · exact .inl ⟨.inr ⟨ctx, dto, rfl, hreopen⟩, hacc⟩
        · rw [hid] at hi
          exact .inr ⟨by rintro ⟨⟨_, _, ⟨⟩, _⟩, _⟩, ih w' hw' hstatus n n₀ row hi hanswered⟩
      · exact .inr ⟨by rintro ⟨⟨_, _, ⟨⟩, _⟩, _⟩, ih w' hw' hstatus n note hn hi hopen⟩

/-- **Notes on a signed-off workpaper**: those that are not cleared have been raised or
reopened since its review was last approved. -/
theorem notes_since_review (s₀ : Db) (i : Uuid) (h₀ : s₀.workpapers.find i = none)
    (hn₀ : ∀ n note, s₀.reviewNotes.find n = some note → note.workpaperId ≠ i) (past : List Request) (w : Workpaper)
    (hw : (history serve s₀ past).workpapers.find i = some w) (hstatus : w.status = .signedOff) (n : Uuid)
    (note : ReviewNote) (hn : (history serve s₀ past).reviewNotes.find n = some note) (hi : note.workpaperId = i)
    (hopen : note.status = .opened ∨ note.status = .addressed) :
    Since serve (Moves "approve_review" i) (Raises i n) s₀ past := by
  refine notes_since_approved h₀ hn₀ past w hw (.inr hstatus) n note hn hi fun hcleared => ?_
  rw [hcleared] at hopen
  rcases hopen with h | h <;> cases h

/-- Ben raises a note on the workpaper that Cleo has signed off. -/
def notedAfterSignOff : List Request :=
  .createReviewNote (actor 2 107) 100 { text := "Sample size?" } :: take 3 106 "sign_off" :: reviewed

/-- A signed-off workpaper can have an open note. -/
theorem note_after_sign_off : ∃ w n note, (history serve office notedAfterSignOff).workpapers.find 100 = some w ∧
    w.status = .signedOff ∧ (history serve office notedAfterSignOff).reviewNotes.find n = some note ∧
    note.workpaperId = 100 ∧ note.status = .opened :=
  ⟨_, 107, _, rfl, rfl, rfl, rfl, rfl⟩

/-- The theorem at that note. -/
theorem notes_since_review_ben :
    Since serve (Moves "approve_review" 100) (Raises 100 107) office notedAfterSignOff :=
  notes_since_review office 100 rfl (fun _ _ h => by cases h) notedAfterSignOff _ rfl rfl 107 _ rfl rfl (.inl rfl)

end AuditSphere.Workpapers
