import AuditSphere.Workpapers.History

/-!
# The life of a workpaper

What holds of the row of a workpaper over every history of requests, from its
creation on, whoever makes them. What is proved:

* `coherent_history` — status, lock, dates and actors fit together (`Coherent`), the
  preparer is set at creation and stays, and a request that fails changes neither
  rows nor versions.
* `reviewer_not_creator` — who approves a review or signs off did not create the
  workpaper. They may well have edited it (`editor_approves`).
* `signedOff_as_reviewed` — what is signed off is what was reviewed, as long as no edit
  is made between review and sign-off; one can be (`edit_after_review`).
* `documented_unless_blanked` — procedure and conclusion are documented outside of
  drafts unless an edit has blanked them since; one can (`blanked_conclusion`).
-/

namespace AuditSphere.Workpapers

open Prisma Theory Shared WorkpaperWorkflow

/-! ### The fields of a row fit together -/

/-- Status, lock, dates and actors of a workpaper fit together. -/
structure Coherent (w : Workpaper) : Prop where
  /-- It is locked when signed off. -/
  locked : w.isLocked = true ↔ w.status = .signedOff
  /-- It is signed off when there are a signer and a date. -/
  signed : w.status = .signedOff ↔ w.signedOffById.isSome = true ∧ w.signedOffAt.isSome = true
  /-- It has a date of preparation when it is not a draft. -/
  prepared : w.preparedAt.isSome = true ↔ w.status ≠ .draft
  /-- It has a date of review when it is reviewed or signed off. -/
  reviewed : w.reviewedAt.isSome = true ↔ w.status = .reviewed ∨ w.status = .signedOff
  /-- There is a preparer. -/
  preparer : w.preparedById.isSome = true
  /-- The reviewer is another user. -/
  reviewer : ∀ u, w.reviewedById = some u → w.preparedById ≠ some u
  /-- So is the signer. -/
  signer : ∀ u, w.signedOffById = some u → w.preparedById ≠ some u

theorem coherent_new (ctx : Ctx) (engagementId : Uuid) (dto : CreateWorkpaperDto) (content : Json) :
    Coherent (newWorkpaper ctx engagementId dto content) := by
  constructor <;> simp [newWorkpaper]

/-- What an edit makes of a row that has a preparer: content and version change. -/
theorem edited_ok {ctx : Ctx} {dto : UpdateWorkpaperDto} {w w' : Workpaper} (h : edited ctx dto w w = .ok w')
    (hp : w.preparedById.isSome = true) :
    ∃ c, dto.apply w.toWorkpaperContent = some c ∧
      w' = { w with toWorkpaperContent := c, currentVersion := w.currentVersion + 1 } := by
  obtain ⟨u, hu⟩ := Option.isSome_iff_exists.mp hp
  unfold edited at h
  split at h
  · cases h
  · rename_i c hc
    cases h
    exact ⟨c, hc, by rw [hu]; rfl⟩

theorem Coherent.edited {ctx : Ctx} {dto : UpdateWorkpaperDto} {w w' : Workpaper} (hw : Coherent w)
    (h : Workpapers.edited ctx dto w w = .ok w') : Coherent w' := by
  obtain ⟨c, -, rfl⟩ := edited_ok h hw.preparer
  exact ⟨hw.locked, hw.signed, hw.prepared, hw.reviewed, hw.preparer, hw.reviewer, hw.signer⟩

/-- A transition leaves the preparer if there is one. -/
theorem transitioned_preparer (ctx : Ctx) (t : Transition WorkpaperStatus) {w : Workpaper}
    (hp : w.preparedById.isSome = true) : (transitioned ctx t w w).preparedById = w.preparedById := by
  obtain ⟨u, hu⟩ := Option.isSome_iff_exists.mp hp
  unfold transitioned
  dsimp only
  split <;> simp [hu]

theorem Coherent.moved {ctx : Ctx} {action : String} {i : Uuid} {s : Db} {t : Transition WorkpaperStatus}
    {w : Workpaper} (hw : Coherent w) (h : findTransition workpaperWorkflow w.status action = some t)
    (hg : ∀ guard ∈ t.guards, guardHolds ctx i w guard s) : Coherent (transitioned ctx t w w) := by
  obtain ⟨hcases, hs, -⟩ := declared_cases h
  obtain ⟨hl, hsg, hp, hr, hpr, hrev, hsgn⟩ := hw
  obtain ⟨u, hu⟩ := Option.isSome_iff_exists.mp hpr
  rcases hcases with rfl | rfl | rfl | rfl | rfl | rfl | rfl | rfl
  · constructor <;> simp_all [transitioned, markPrepared]
  · constructor <;> simp_all [transitioned, reopen]
  · constructor <;> simp_all [transitioned, startReview, guardHolds]
  · constructor <;> simp_all [transitioned, raiseNotes]
  · constructor <;> simp_all [transitioned, addressNotes]
  · constructor <;> simp_all [transitioned, approveReview, guardHolds]
  · constructor <;> simp_all [transitioned, signOff, guardHolds]
  · constructor <;> simp_all [transitioned, unlock]

/-- The row of workpaper `i`, if there is one, is coherent. -/
def CoherentRow (i : Uuid) (s : Db) : Prop := ∀ w, s.workpapers.find i = some w → Coherent w

/-- One request keeps the row of a workpaper coherent. -/
theorem coherent_step {s : Db} {i : Uuid} {r : Request} (h : CoherentRow i s) : CoherentRow i (after serve s r) := by
  have hstep := serve_row s r i
  unfold CoherentRow
  generalize (after serve s r).workpapers.find i = o at hstep
  intro w' hw'
  cases hstep with
  | kept => exact h w' hw'
  | created content _ _ _ =>
    cases hw'
    exact coherent_new _ _ _ content
  | edited w _ _ hfound _ edit _ =>
    cases hw'
    exact (h w (found_eq_some.mp hfound).1).edited edit
  | moved t w _ hfound declared _ guards =>
    cases hw'
    exact (h w (found_eq_some.mp hfound).1).moved declared guards

theorem coherent_of_history {s₀ : Db} {i : Uuid} (h₀ : s₀.workpapers.find i = none) (past : List Request) :
    CoherentRow i (history serve s₀ past) := by
  refine invariant_of_step (fun w hw => ?_) (fun _ _ => coherent_step) past
  rw [h₀] at hw
  cases hw

/-- A row stays, with its preparer; a new row has the user of the request as preparer. -/
theorem preparer_step {s : Db} {i : Uuid} {r : Request} (h : CoherentRow i s) :
    (∀ w, s.workpapers.find i = some w →
      ∃ w', (after serve s r).workpapers.find i = some w' ∧ w'.preparedById = w.preparedById) ∧
    ∀ w', s.workpapers.find i = none → (after serve s r).workpapers.find i = some w' →
      w'.preparedById = some r.ctx.userId := by
  have hstep := serve_row s r i
  generalize (after serve s r).workpapers.find i = o at hstep
  cases hstep with
  | kept =>
    refine ⟨fun w hw => ⟨w, hw, rfl⟩, fun w' hnone hw' => ?_⟩
    rw [hnone] at hw'
    cases hw'
  | created content _ _ fresh =>
    constructor
    · intro w hw
      rw [fresh] at hw
      cases hw
    · intro w' _ hw'
      cases hw'
      rfl
  | edited w w' _ hfound _ edit _ =>
    obtain ⟨hrow, -, -⟩ := found_eq_some.mp hfound
    obtain ⟨c, -, rfl⟩ := edited_ok edit (h w hrow).preparer
    rw [hrow]
    refine ⟨fun w₁ hw₁ => ⟨_, rfl, ?_⟩, fun _ h => by cases h⟩
    cases hw₁
    rfl
  | moved t w _ hfound _ _ _ =>
    obtain ⟨hrow, -, -⟩ := found_eq_some.mp hfound
    rw [hrow]
    refine ⟨fun w₁ hw₁ => ⟨_, rfl, ?_⟩, fun _ h => by cases h⟩
    cases hw₁
    exact transitioned_preparer _ t (h w hrow).preparer

/-- **A workpaper's fields fit together after every history**: its row is coherent, keeps
the preparer that its creation gave it, and a request that fails leaves the rows and
their versions as they are. -/
theorem coherent_history (s₀ : Db) (i : Uuid) (h₀ : s₀.workpapers.find i = none) (past : List Request) :
    (∀ w, (history serve s₀ past).workpapers.find i = some w → Coherent w) ∧
    (∀ r w, (history serve s₀ past).workpapers.find i = some w →
      ∃ w', (history serve s₀ (r :: past)).workpapers.find i = some w' ∧ w'.preparedById = w.preparedById) ∧
    (∀ r w', (history serve s₀ past).workpapers.find i = none →
      (history serve s₀ (r :: past)).workpapers.find i = some w' → w'.preparedById = some r.ctx.userId) ∧
    ∀ r e s', (serve r).run (history serve s₀ past) = (.error e, s') →
      s'.workpapers = (history serve s₀ past).workpapers ∧ s'.versions = (history serve s₀ past).versions := by
  have hI := coherent_of_history h₀ past
  refine ⟨hI, fun r => (preparer_step hI).1, fun r => (preparer_step hI).2, fun r e s' hrun => ?_⟩
  rcases serve_effect (history serve s₀ past) r with ⟨-, haside⟩ | ⟨⟨a, s₁, hacc⟩, -⟩
  · rw [after, hrun] at haside
    exact ⟨haside.workpapers, haside.versions⟩
  · rw [hrun] at hacc
    cases hacc

/-- The theorem at a workpaper that has been created and edited. -/
theorem coherent_history_drafted : CoherentRow 100 (history serve office drafted) :=
  (coherent_history office 100 rfl drafted).1

/-! ### Who may review -/

/-- The stored preparer is the user whose request created the workpaper. -/
theorem preparer_created {s₀ : Db} {i : Uuid} (h₀ : s₀.workpapers.find i = none) (past : List Request) :
    ∀ w, (history serve s₀ past).workpapers.find i = some w → ∃ u, w.preparedById = some u ∧
      Since serve (Creates i) (fun s r => Creates i s r ∧ r.ctx.userId = u) s₀ past := by
  induction past with
  | nil =>
    intro w hw
    rw [history, h₀] at hw
    cases hw
  | cons r past ih =>
    have hstep := serve_row (history serve s₀ past) r i
    intro w' hw'
    rw [history] at hw'
    generalize (after serve (history serve s₀ past) r).workpapers.find i = o at hstep hw'
    cases hstep with
    | kept h =>
      obtain ⟨u, hu, hsince⟩ := ih w' hw'
      exact ⟨u, hu, .inr ⟨fun hc => h.elim (fun hn => hn hc.2) fun hn => hn hc.workpaper, hsince⟩⟩
    | @created ctx e dto content accepted hid _ =>
      cases hw'
      have hcreates : Creates i (history serve s₀ past) (.create ctx e dto) := ⟨⟨ctx, e, dto, rfl, hid⟩, accepted⟩
      exact ⟨ctx.userId, rfl, .inl ⟨hcreates, rfl⟩⟩
    | edited w _ _ hfound _ edit _ =>
      cases hw'
      have hrow := (found_eq_some.mp hfound).1
      obtain ⟨u, hu, hsince⟩ := ih w hrow
      obtain ⟨c, -, rfl⟩ := edited_ok edit (coherent_of_history h₀ past w hrow).preparer
      refine ⟨u, hu, .inr ⟨?_, hsince⟩⟩
      rintro ⟨⟨_, _, _, ⟨⟩, _⟩, _⟩
    | @moved ctx dto t w _ hfound _ _ _ =>
      cases hw'
      have hrow := (found_eq_some.mp hfound).1
      obtain ⟨u, hu, hsince⟩ := ih w hrow
      refine ⟨u, ?_, .inr ⟨by rintro ⟨⟨_, _, _, ⟨⟩, _⟩, _⟩, hsince⟩⟩
      rw [transitioned_preparer ctx t (coherent_of_history h₀ past w hrow).preparer, hu]

/-- **No self-review**: when a review is approved or a workpaper signed off, the user is
not the one whose request created the workpaper. -/
theorem reviewer_not_creator (s₀ : Db) (i : Uuid) (h₀ : s₀.workpapers.find i = none) (past : List Request)
    (r : Request)
    (hr : Moves "approve_review" i (history serve s₀ past) r ∨ Moves "sign_off" i (history serve s₀ past) r) :
    Since serve (Creates i) (fun s r' => Creates i s r' ∧ r'.ctx.userId ≠ r.ctx.userId) s₀ past := by
  have hmoves : ∃ action, (action = "approve_review" ∨ action = "sign_off") ∧
      Moves action i (history serve s₀ past) r := hr.elim (fun h => ⟨_, .inl rfl, h⟩) fun h => ⟨_, .inr rfl, h⟩
  obtain ⟨action, haction, ⟨ctx, dto, rfl, rfl⟩, hacc⟩ := hmoves
  have hstep := serve_row (history serve s₀ past) (.transition ctx i dto) i
  generalize (after serve (history serve s₀ past) (.transition ctx i dto)).workpapers.find i = o at hstep
  cases hstep with
  | kept h => exact h.elim (fun h => absurd hacc h) fun h => absurd rfl h
  | moved t w _ hfound declared _ guards =>
    obtain ⟨u, hu, hsince⟩ := preparer_created h₀ past w (found_eq_some.mp hfound).1
    have hne : w.preparedById ≠ some ctx.userId := by
      obtain ⟨hcases, -, hname⟩ := declared_cases declared
      rw [hname] at haction
      rcases hcases with rfl | rfl | rfl | rfl | rfl | rfl | rfl | rfl
      case inr.inr.inr.inr.inr.inl => exact guards "reviewer_is_not_preparer" (by decide)
      case inr.inr.inr.inr.inr.inr.inl => exact guards "signer_is_not_preparer" (by decide)
      all_goals exact absurd haction (by decide)
    refine hsince.mono fun s r' ⟨hc, huser⟩ => ⟨hc, fun h => hne ?_⟩
    rw [hu, ← huser]
    exact congrArg some h

/-- Ben has edited the workpaper, and reviews it. -/
def editedByReviewer : List Request :=
  take 2 105 "start_review" :: take 1 104 "mark_prepared" ::
    .update (actor 2 103) 100 { results := some (some "No exceptions") } :: drafted

/-- The theorem at a review that Ben approves. -/
theorem reviewer_not_creator_ben :
    Since serve (Creates 100) (fun s r' => Creates 100 s r' ∧ r'.ctx.userId ≠ 2) office editedByReviewer :=
  reviewer_not_creator office 100 rfl editedByReviewer (take 2 106 "approve_review")
    (.inl ⟨⟨_, _, rfl, rfl⟩, accepted_of_succeeds rfl⟩)

/-- A user who has edited a workpaper may approve its review. -/
theorem editor_approves : ∃ past r, Moves "approve_review" 100 (history serve office past) r ∧
    ∃ j v, (history serve office past).versions.find j = some v ∧ v.workpaperId = 100 ∧
      v.changedById = r.ctx.userId :=
  ⟨editedByReviewer, take 2 106 "approve_review", ⟨⟨_, _, rfl, rfl⟩, accepted_of_succeeds rfl⟩,
    103, _, rfl, rfl, rfl⟩

/-! ### What is signed off -/

/-- An edit that changes the content of workpaper `i` while it is reviewed: the user may
edit, no null is given to a required field, and the constraints admit the row. -/
def ChangesReviewed (i : Uuid) (s : Db) (r : Request) : Prop :=
  ∃ ctx dto w w', r = .update ctx i dto ∧ found ctx s i = some w ∧ w.status = .reviewed ∧
    ctx.hasPermission .workpaperPrepare = true ∧ edited ctx dto w w = .ok w' ∧ constrained s i w' = .ok () ∧
    w'.toWorkpaperContent ≠ w.toWorkpaperContent

/-- The most recent approval of a review of workpaper `i` left it with the content `c`. -/
def ReviewedWith (i : Uuid) (c : WorkpaperContent) : Db → List Request → Prop :=
  Since serve (Moves "approve_review" i) fun s r => Moves "approve_review" i s r ∧
    ∃ w, (after serve s r).workpapers.find i = some w ∧ w.toWorkpaperContent = c

/-- What is signed off is what was reviewed. -/
def SignedOffAsReviewed (i : Uuid) (s₀ : Db) (past : List Request) : Prop :=
  ∀ w, (history serve s₀ past).workpapers.find i = some w → w.status = .signedOff →
    ReviewedWith i w.toWorkpaperContent s₀ past

/-- From the approval of a review on, the content is the content that was reviewed. -/
theorem content_since_review {s₀ : Db} {i : Uuid} (h₀ : s₀.workpapers.find i = none) {past : List Request}
    (hpast : Always serve (fun s r => ¬ChangesReviewed i s r) s₀ past) :
    ∀ w, (history serve s₀ past).workpapers.find i = some w → w.status = .reviewed ∨ w.status = .signedOff →
      ReviewedWith i w.toWorkpaperContent s₀ past := by
  induction past with
  | nil =>
    intro w hw
    rw [history, h₀] at hw
    cases hw
  | cons r past ih =>
    obtain ⟨hr, hpast⟩ := hpast
    have hstep := serve_row (history serve s₀ past) r i
    have hcoherent := coherent_of_history h₀ past
    intro w' hw' hstatus
    have hrow' := hw'
    rw [history] at hw'
    generalize ho : (after serve (history serve s₀ past) r).workpapers.find i = o at hstep hw'
    cases hstep with
    | kept h =>
      exact .inr ⟨fun hm => h.elim (fun hn => hn hm.2) fun hn => hn hm.workpaper, ih hpast w' hw' hstatus⟩
    | created content _ _ _ =>
      cases hw'
      rcases hstatus with h | h <;> cases h
    | @edited ctx dto w _ accepted hfound unlocked edit admitted =>
      cases hw'
      have hw := hcoherent w (found_eq_some.mp hfound).1
      obtain ⟨c, -, rfl⟩ := edited_ok edit hw.preparer
      have hreviewed : w.status = .reviewed := by
        refine hstatus.resolve_right fun h => ?_
        rw [hw.locked.mpr h] at unlocked
        cases unlocked
      -- the edit is made while the workpaper is reviewed, so it leaves the content
      have hsame : c = w.toWorkpaperContent := by
        by_contra hne
        obtain ⟨p, hp, hperm⟩ := permitted_of_accepted accepted
        rw [List.mem_singleton.mp hp] at hperm
        exact hr ⟨ctx, dto, w, _, rfl, hfound, hreviewed, hperm, edit, admitted, hne⟩
      refine .inr ⟨by rintro ⟨⟨_, _, ⟨⟩, _⟩, _⟩, ?_⟩
      rw [show c = w.toWorkpaperContent from hsame]
      exact ih hpast w (found_eq_some.mp hfound).1 (.inl hreviewed)
    | @moved ctx dto t w accepted hfound declared _ _ =>
      cases hw'
      obtain ⟨hcontent, -, -, -, hto⟩ := transitioned_fields ctx t w w
      obtain ⟨hcases, hfrom, hname⟩ := declared_cases declared
      rw [hto] at hstatus
      rcases hcases with rfl | rfl | rfl | rfl | rfl | rfl | rfl | rfl
      case inr.inr.inr.inr.inr.inl => exact .inl ⟨⟨⟨ctx, dto, rfl, hname⟩, accepted⟩, _, ho, rfl⟩
      case inr.inr.inr.inr.inr.inr.inl =>
        refine .inr ⟨?_, ?_⟩
        · rintro ⟨⟨_, _, ⟨⟩, h⟩, _⟩
          rw [hname] at h
          exact absurd h (by decide)
        · rw [hcontent]
          exact ih hpast w (found_eq_some.mp hfound).1 (.inl hfrom)
      all_goals exact absurd hstatus (by decide)

/-- **What is signed off is what was reviewed**, in every history without an edit that
changes the content between the approval of the review and the sign-off. -/
theorem signedOff_as_reviewed (s₀ : Db) (i : Uuid) (h₀ : s₀.workpapers.find i = none) (past : List Request)
    (hpast : Always serve (fun s r => ¬ChangesReviewed i s r) s₀ past) : SignedOffAsReviewed i s₀ past :=
  fun w hw hstatus => content_since_review h₀ hpast w hw (.inr hstatus)

/-- Ann has prepared the workpaper, and Ben has approved its review. -/
def reviewed : List Request :=
  take 2 105 "approve_review" :: take 2 104 "start_review" :: take 1 103 "mark_prepared" :: drafted

/-- Ann rewrites the conclusion after the review, and Cleo signs off. -/
def rewritten : List Request :=
  take 3 107 "sign_off" :: .update (actor 1 106) 100 { conclusion := some (some "Weak") } :: reviewed

/-- A workpaper can be edited between review and sign-off. -/
theorem edit_after_review : ¬SignedOffAsReviewed 100 office rewritten := by
  intro h
  rcases h _ rfl rfl with ⟨⟨⟨_, _, he, ha⟩, -⟩, -⟩ | ⟨-, h⟩
  · cases he
    exact absurd ha (by decide)
  rcases h with ⟨⟨⟨_, _, ⟨⟩, -⟩, -⟩, -⟩ | ⟨-, h⟩
  rcases h with ⟨-, w, hw, hc⟩ | ⟨hstop, -⟩
  · have hconclusion : ((history serve office reviewed).workpapers.find 100).map (·.conclusion) =
        some (some "Adequate") := rfl
    rw [show (history serve office reviewed).workpapers.find 100 = some w from hw, Option.map_some, hc] at hconclusion
    exact absurd hconclusion (by decide)
  · exact hstop ⟨⟨_, _, rfl, rfl⟩, accepted_of_succeeds rfl⟩

/-- The theorem at a workpaper that is signed off as it was reviewed. -/
theorem signedOff_as_reviewed_cleo : SignedOffAsReviewed 100 office (take 3 106 "sign_off" :: reviewed) := by
  refine signedOff_as_reviewed office 100 rfl _ ⟨?_, ?_, ?_, ?_, ?_, ?_, trivial⟩
  case refine_5 =>
    rintro ⟨ctx, dto, w, w', ⟨⟩, hfound, hstatus, -⟩
    cases hfound
    cases hstatus
  all_goals rintro ⟨_, _, _, _, ⟨⟩, -⟩

/-! ### What is documented -/

/-- An edit that succeeds supplies a blank value for a field of workpaper `i`. -/
def Blanks (field : UpdateWorkpaperDto → Field String) (i : Uuid) (s : Db) (r : Request) : Prop :=
  (∃ ctx dto v, r = .update ctx i dto ∧ field dto = some v ∧ isBlank v = true) ∧ Accepted serve s r

/-- A field that is blank outside of drafts has been blanked since the workpaper was last
marked as prepared. The field is one that creation or edits write as they are given, and
that the guard of that transition asks for. -/
theorem blank_since_prepared (field : UpdateWorkpaperDto → Field String) (column : WorkpaperContent → Option String)
    (happly : ∀ dto c c', UpdateWorkpaperDto.apply dto c = some c' → column c' = (field dto).onNullable (column c))
    (hguard : ∀ ctx i w s, guardHolds ctx i w "has_procedure_and_conclusion" s →
      isBlank (column w.toWorkpaperContent) = false)
    {s₀ : Db} {i : Uuid} (h₀ : s₀.workpapers.find i = none) (past : List Request) :
    ∀ w, (history serve s₀ past).workpapers.find i = some w → w.status ≠ .draft →
      isBlank (column w.toWorkpaperContent) = true → Since serve (Moves "mark_prepared" i) (Blanks field i) s₀ past := by
  induction past with
  | nil =>
    intro w hw
    rw [history, h₀] at hw
    cases hw
  | cons r past ih =>
    have hstep := serve_row (history serve s₀ past) r i
    have hcoherent := coherent_of_history h₀ past
    intro w' hw' hstatus hblank
    rw [history] at hw'
    generalize (after serve (history serve s₀ past) r).workpapers.find i = o at hstep hw'
    cases hstep with
    | kept h => exact .inr ⟨fun hm => h.elim (fun hn => hn hm.2) fun hn => hn hm.workpaper, ih w' hw' hstatus hblank⟩
    | created content _ _ _ =>
      cases hw'
      exact absurd rfl hstatus
    | @edited ctx dto w _ accepted hfound _ edit _ =>
      cases hw'
      have hrow := (found_eq_some.mp hfound).1
      obtain ⟨c, hc, rfl⟩ := edited_ok edit (hcoherent w hrow).preparer
      rw [show column _ = _ from happly dto _ c hc] at hblank
      cases hv : field dto with
      | none =>
        rw [hv, Field.onNullable_none] at hblank
        exact .inr ⟨by rintro ⟨⟨_, _, ⟨⟩, _⟩, _⟩, ih w hrow hstatus hblank⟩
      | some v =>
        rw [hv, Field.onNullable_some] at hblank
        exact .inl ⟨⟨ctx, dto, v, rfl, hv, hblank⟩, accepted⟩
    | @moved ctx dto t w accepted hfound declared _ guards =>
      cases hw'
      have hrow := (found_eq_some.mp hfound).1
      obtain ⟨hcontent, -, -, -, hto⟩ := transitioned_fields ctx t w w
      obtain ⟨hcases, hfrom, hname⟩ := declared_cases declared
      rw [hcontent] at hblank
      rw [hto] at hstatus
      by_cases hprepared : t = markPrepared
      · -- the guard has just asked for the field
        subst hprepared
        have := hguard ctx i w _ (guards "has_procedure_and_conclusion" (by decide))
        rw [hblank] at this
        cases this
      · have hdraft : w.status ≠ .draft := by
          rw [hfrom]
          rcases hcases with rfl | rfl | rfl | rfl | rfl | rfl | rfl | rfl
          · exact absurd rfl hprepared
          all_goals decide
        refine .inr ⟨?_, ih w hrow hdraft hblank⟩
        rintro ⟨⟨_, _, ⟨⟩, h⟩, _⟩
        rw [hname] at h
        rcases hcases with rfl | rfl | rfl | rfl | rfl | rfl | rfl | rfl
        · exact hprepared rfl
        all_goals exact absurd h (by decide)

theorem apply_procedure {dto : UpdateWorkpaperDto} {c c' : WorkpaperContent} (h : dto.apply c = some c') :
    c'.procedure = dto.procedure.onNullable c.procedure ∧ c'.conclusion = dto.conclusion.onNullable c.conclusion := by
  unfold UpdateWorkpaperDto.apply at h
  split at h
  · cases h
    exact ⟨rfl, rfl⟩
  · cases h

/-- **Documented unless blanked**: outside of drafts, a blank procedure or conclusion has
been supplied by an edit since the workpaper was last marked as prepared. -/
theorem documented_unless_blanked (s₀ : Db) (i : Uuid) (h₀ : s₀.workpapers.find i = none) (past : List Request)
    (w : Workpaper) (hw : (history serve s₀ past).workpapers.find i = some w) (hstatus : w.status ≠ .draft) :
    (isBlank w.procedure = true →
      Since serve (Moves "mark_prepared" i) (Blanks UpdateWorkpaperDto.procedure i) s₀ past) ∧
    (isBlank w.conclusion = true →
      Since serve (Moves "mark_prepared" i) (Blanks UpdateWorkpaperDto.conclusion i) s₀ past) :=
  ⟨blank_since_prepared UpdateWorkpaperDto.procedure WorkpaperContent.procedure
      (fun _ _ _ h => (apply_procedure h).1) (fun _ _ _ _ h => h.1) h₀ past w hw hstatus,
    blank_since_prepared UpdateWorkpaperDto.conclusion WorkpaperContent.conclusion
      (fun _ _ _ h => (apply_procedure h).2) (fun _ _ _ _ h => h.2) h₀ past w hw hstatus⟩

/-- Ann blanks the conclusion of a workpaper that she has marked as prepared. -/
def blanked : List Request :=
  .update (actor 1 104) 100 { conclusion := some none } :: take 1 103 "mark_prepared" :: drafted

/-- The conclusion of a workpaper that is not a draft can be blank. -/
theorem blanked_conclusion : ∃ w, (history serve office blanked).workpapers.find 100 = some w ∧
    w.status ≠ .draft ∧ isBlank w.conclusion = true :=
  ⟨_, rfl, by decide, rfl⟩

/-- The theorem at that workpaper. -/
theorem documented_unless_blanked_ann :
    Since serve (Moves "mark_prepared" 100) (Blanks UpdateWorkpaperDto.conclusion 100) office blanked :=
  (documented_unless_blanked office 100 rfl blanked _ rfl (by decide)).2 rfl

end AuditSphere.Workpapers
