import AuditSphere.Workpapers.Requests

/-!
# Workpapers over a history of requests

Requests served one after another. `serve_effect` says what one of them makes of
the database: nothing that matters if it fails, its `Effect` if it succeeds.
`serve_row` is the same for the row of a single workpaper, in the form in which
invariants are proved: the row is kept, created, edited or moved by a transition
(`RowStep`).
-/

namespace AuditSphere.Workpapers

open Prisma Theory Shared

/-- What a request that succeeds makes of the workpapers, versions and notes. -/
inductive Effect (s : Db) : Request → Db → Prop where
  | create {ctx engagementId dto s'} (content : Json)
      (fresh : s.workpapers.find (ctx.uuid 0) = none)
      (rows : ∀ j, s'.workpapers.find j =
        if j = ctx.uuid 0 then some (newWorkpaper ctx engagementId dto content) else s.workpapers.find j)
      (versions : s'.versions = s.versions) (notes : s'.reviewNotes = s.reviewNotes) :
      Effect s (.create ctx engagementId dto) s'
  | update {ctx id dto s'} (w w' : Workpaper) (hfound : found ctx s id = some w) (unlocked : w.isLocked = false)
      (reviewer : w.status = .inReview → ctx.hasPermission .workpaperReview = true)
      (edit : edited ctx dto w w = .ok w')
      (admitted : constrained s id w' = .ok ())
      (rows : ∀ j, s'.workpapers.find j = if j = id then some w' else s.workpapers.find j)
      (notes : s'.reviewNotes = s.reviewNotes)
      (version : ∃ v, v.workpaperId = id ∧ v.changedById = ctx.userId ∧ ∀ j, s'.versions.find j =
        if j = ctx.uuid 0 then some v else s.versions.find j) :
      Effect s (.update ctx id dto) s'
  | transition {ctx id dto s'} (t : Transition WorkpaperStatus) (w : Workpaper) (hfound : found ctx s id = some w)
      (declared : findTransition workpaperWorkflow w.status dto.action = some t)
      (permitted : t.permission ∈ ctx.permissions)
      (guards : ∀ guard ∈ t.guards, guardHolds ctx id w guard s)
      (rows : ∀ j, s'.workpapers.find j =
        if j = id then some (transitioned ctx t w w) else s.workpapers.find j)
      (versions : s'.versions = s.versions) (notes : s'.reviewNotes = s.reviewNotes) :
      Effect s (.transition ctx id dto) s'
  | createReviewNote {ctx id dto s'} (w : Workpaper) (hfound : found ctx s id = some w) (n : ReviewNote)
      (onWorkpaper : n.workpaperId = id) (tenant : n.tenantId = ctx.tenantId)
      (fresh : s.reviewNotes.find (ctx.uuid 0) = none)
      (notes : ∀ j, s'.reviewNotes.find j = if j = ctx.uuid 0 then some n else s.reviewNotes.find j)
      (workpapers : s'.workpapers = s.workpapers) (versions : s'.versions = s.versions) :
      Effect s (.createReviewNote ctx id dto) s'
  | updateReviewNote {ctx id dto s'} (n : ReviewNote) (wp : Workpaper) (f : ReviewNote → ReviewNote) (action : String)
      (row : s.reviewNotes.find id = some n) (change : noteChange ctx n wp dto = .ok (f, action))
      (notes : ∀ j, s'.reviewNotes.find j = if j = id then some (f n) else s.reviewNotes.find j)
      (workpapers : s'.workpapers = s.workpapers) (versions : s'.versions = s.versions) :
      Effect s (.updateReviewNote ctx id dto) s'

section Aside

variable {a b : Db} (h : Aside a b)

include h

theorem Aside.workpapers : b.workpapers = a.workpapers := by rw [h.rest]

theorem Aside.versions : b.versions = a.versions := by rw [h.rest]

theorem Aside.reviewNotes : b.reviewNotes = a.reviewNotes := by rw [h.rest]

theorem Aside.found (ctx : Ctx) (id : Uuid) : Workpapers.found ctx b id = Workpapers.found ctx a id := by
  unfold Workpapers.found
  rw [h.workpapers]

theorem Aside.guardHolds (ctx : Ctx) (id : Uuid) (wp : Workpaper) (guard : String) :
    Workpapers.guardHolds ctx id wp guard b ↔ Workpapers.guardHolds ctx id wp guard a := by
  unfold Workpapers.guardHolds noteCount
  rw [h.reviewNotes]

theorem Aside.constrained (id : Uuid) (w : Workpaper) :
    Workpapers.constrained b id w = Workpapers.constrained a id w := by
  have hstep : refersTo b.programSteps w.programStepId = refersTo a.programSteps w.programStepId := by
    cases w.programStepId with
    | none => rfl
    | some i =>
      have := congrArg Option.isSome (h.steps i)
      simpa [refersTo] using this
  unfold Workpapers.constrained
  rw [hstep, h.rest]

end Aside

/-- A commit that nothing has come in between of, and what is aside around it. -/
theorem Commit.effect {s s₁ s₂ s' : Db} {r : Request} (h : Commit Aside s r s₁ s₂) (h₁ : Aside s s₁)
    (h₂ : Aside s₂ s') : Effect s r s' := by
  cases h with
  | create hc =>
    obtain ⟨content, hrow⟩ := hc.row
    refine .create content (by rw [← h₁.workpapers]; exact hc.fresh) (fun j => ?_) ?_ ?_
    · rw [h₂.workpapers, hrow, h₁.workpapers]
    · rw [h₂.versions, hc.rest, h₁.versions]
    · rw [h₂.reviewNotes, hc.rest, h₁.reviewNotes]
  | @update ctx id dto before w w' _ _ hu =>
    obtain ⟨s₀, h₀, h₀₁, hread⟩ := hu.read
    have hfound : found ctx s id = some before := by rw [← h₀.found]; exact hread
    -- nothing came in between, so the row that is edited is the row that was read
    have hw : w = before := by
      have hrow := hu.row
      rw [h₁.workpapers, (found_eq_some.mp hfound).1, Option.some.injEq] at hrow
      exact hrow.symm
    subst hw
    obtain ⟨changeSummary, -, hversions⟩ := hu.versions
    refine .update w w' hfound hu.unlocked hu.reviewer hu.edit ?_ (fun j => ?_) ?_
      ⟨_, rfl, rfl, fun j => by rw [h₂.versions, hversions j, h₁.versions]⟩
    · rw [← h₁.constrained]
      exact hu.admitted
    · rw [h₂.workpapers, hu.rows, h₁.workpapers]
    · rw [h₂.reviewNotes, hu.rest, h₁.reviewNotes]
  | @transition ctx id dto t wp w _ _ ht =>
    obtain ⟨s₀, h₀, h₀₁, hread⟩ := ht.read
    have hfound : found ctx s id = some wp := by rw [← h₀.found]; exact hread
    have hw : w = wp := by
      have hrow := ht.row
      rw [h₁.workpapers, (found_eq_some.mp hfound).1, Option.some.injEq] at hrow
      exact hrow.symm
    subst hw
    refine .transition t w hfound ht.transition ht.permitted (fun guard hg => ?_) (fun j => ?_) ?_ ?_
    · obtain ⟨sg, hsg, -, hholds⟩ := ht.guards guard hg
      exact (hsg.guardHolds ctx id w guard).mp hholds
    · rw [h₂.workpapers, ht.rows, h₁.workpapers]
    · rw [h₂.versions, ht.rest, h₁.versions]
    · rw [h₂.reviewNotes, ht.rest, h₁.reviewNotes]
  | @createReviewNote ctx id dto wp _ _ hn =>
    obtain ⟨s₀, h₀, -, hread⟩ := hn.read
    refine .createReviewNote wp (by rw [← h₀.found]; exact hread) (newReviewNote ctx id dto wp) rfl rfl
      (by rw [← h₁.reviewNotes]; exact hn.fresh) (fun j => ?_) ?_ ?_
    · rw [h₂.reviewNotes, hn.rows, h₁.reviewNotes]
    · rw [h₂.workpapers, hn.rest, h₁.workpapers]
    · rw [h₂.versions, hn.rest, h₁.versions]
  | @updateReviewNote ctx id dto before n f _ _ hn =>
    obtain ⟨s₀, wp, action, h₀, -, hread, hchange⟩ := hn.read
    have hn' : n = before := by
      have hrow := hn.row
      rw [h₁.reviewNotes, ← h₀.reviewNotes, hread, Option.some.injEq] at hrow
      exact hrow.symm
    subst hn'
    refine .updateReviewNote n wp f action (by rw [← h₁.reviewNotes]; exact hn.row) hchange (fun j => ?_) ?_ ?_
    · rw [h₂.reviewNotes, hn.rows, h₁.reviewNotes]
    · rw [h₂.workpapers, hn.rest, h₁.workpapers]
    · rw [h₂.versions, hn.rest, h₁.versions]

/-- What a transition does not change, and the status it sets. -/
theorem transitioned_fields (ctx : Ctx) (t : Transition WorkpaperStatus) (wp w : Workpaper) :
    (transitioned ctx t wp w).toWorkpaperContent = w.toWorkpaperContent ∧
      (transitioned ctx t wp w).currentVersion = w.currentVersion ∧
      (transitioned ctx t wp w).tenantId = w.tenantId ∧ (transitioned ctx t wp w).deletedAt = w.deletedAt ∧
      (transitioned ctx t wp w).status = t.toState := by
  unfold transitioned
  dsimp only
  split <;> exact ⟨rfl, rfl, rfl, rfl, rfl⟩

/-- After a transition the workpaper is still found. -/
theorem found_of_transitioned {ctx : Ctx} {id : Uuid} {dto : TransitionDto} {t : Transition WorkpaperStatus}
    {wp w : Workpaper} {s s₁ s₂ : Db} (h : Transitioned Aside s ctx id dto t wp w s₁ s₂) : found ctx s₂ id ≠ none := by
  obtain ⟨s₀, -, h₀₁, hread⟩ := h.read
  obtain ⟨hrow, hsees, hdel⟩ := found_eq_some.mp hread
  have hw := h.row
  rw [h₀₁.workpapers, hrow, Option.some.injEq] at hw
  subst hw
  rw [Option.ne_none_iff_exists']
  obtain ⟨-, -, htenant, hdel', -⟩ := transitioned_fields ctx t wp wp
  refine ⟨transitioned ctx t wp wp, found_eq_some.mpr ⟨by rw [h.rows, if_pos rfl], ?_, hdel'.trans hdel⟩⟩
  rw [Ctx.sees_iff_tenant rfl] at hsees ⊢
  exact htenant.trans hsees

/-- **One request after another.** A request that fails leaves everything that matters as
it was; one that succeeds has its effect. -/
theorem serve_effect (s : Db) (r : Request) :
    (¬Accepted serve s r ∧ Aside s (after serve s r)) ∨ (Accepted serve s r ∧ Effect s r (after serve s r)) := by
  have hdone := (serve_meets Interference.of_aside r s).run Aside.refl
  unfold Accepted after
  rcases hrun : (serve r).run s with ⟨e | a, s'⟩ <;> rw [hrun] at hdone
  · refine .inl ⟨by rintro ⟨a, s₁, ⟨⟩⟩, ?_⟩
    rcases hdone with ⟨-, h⟩ | ⟨s₁, s₂, h₁, hcommit, h₂, ⟨a, ⟨⟩⟩ | ⟨ctx, id, dto, s₃, rfl, h₃, hnone⟩⟩
    · exact h
    · cases hcommit with
      | transition ht =>
        rw [h₃.found] at hnone
        exact absurd hnone (found_of_transitioned ht)
  · refine .inr ⟨⟨a, s', rfl⟩, ?_⟩
    rcases hdone with ⟨⟨_, ⟨⟩⟩, -⟩ | ⟨s₁, s₂, h₁, hcommit, h₂, -⟩
    exact hcommit.effect h₁ h₂

/-- The workpaper whose row a request writes if it succeeds. -/
def Request.workpaper : Request → Option Uuid
  | .create ctx _ _ => some (ctx.uuid 0)
  | .update _ id _ | .transition _ id _ => some id
  | .createReviewNote .. | .updateReviewNote .. => none

/-- What a request makes of the row of workpaper `i`. -/
inductive RowStep (s : Db) (i : Uuid) : Request → Option Workpaper → Prop where
  /-- The request fails, or it is not about this row. -/
  | kept {r} (h : ¬Accepted serve s r ∨ r.workpaper ≠ some i) : RowStep s i r (s.workpapers.find i)
  /-- The row is new. -/
  | created {ctx engagementId dto} (content : Json) (accepted : Accepted serve s (.create ctx engagementId dto))
      (id : ctx.uuid 0 = i) (fresh : s.workpapers.find i = none) :
      RowStep s i (.create ctx engagementId dto) (some (newWorkpaper ctx engagementId dto content))
  /-- The row is edited. -/
  | edited {ctx dto} (w w' : Workpaper) (accepted : Accepted serve s (.update ctx i dto))
      (hfound : found ctx s i = some w) (unlocked : w.isLocked = false)
      (edit : Workpapers.edited ctx dto w w = .ok w') (admitted : constrained s i w' = .ok ()) :
      RowStep s i (.update ctx i dto) (some w')
  /-- The row is moved by a transition. -/
  | moved {ctx dto} (t : Transition WorkpaperStatus) (w : Workpaper)
      (accepted : Accepted serve s (.transition ctx i dto)) (hfound : found ctx s i = some w)
      (declared : findTransition workpaperWorkflow w.status dto.action = some t)
      (permitted : t.permission ∈ ctx.permissions)
      (guards : ∀ guard ∈ t.guards, guardHolds ctx i w guard s) :
      RowStep s i (.transition ctx i dto) (some (transitioned ctx t w w))

/-- **One request and one workpaper.** -/
theorem serve_row (s : Db) (r : Request) (i : Uuid) :
    RowStep s i r ((after serve s r).workpapers.find i) := by
  rcases serve_effect s r with ⟨hfail, haside⟩ | ⟨hacc, heffect⟩
  · rw [haside.workpapers]
    exact .kept (.inl hfail)
  · generalize after serve s r = s' at heffect
    cases heffect with
    | @create ctx engagementId dto _ content fresh rows =>
      rw [rows]
      by_cases hi : i = ctx.uuid 0
      · subst hi
        rw [if_pos rfl]
        exact .created content hacc rfl fresh
      · rw [if_neg hi]
        exact .kept (.inr fun h => hi (Option.some.inj h).symm)
    | @update ctx id dto _ w w' hfound unlocked _ edit admitted rows =>
      rw [rows]
      by_cases hi : i = id
      · subst hi
        rw [if_pos rfl]
        exact .edited w w' hacc hfound unlocked edit admitted
      · rw [if_neg hi]
        exact .kept (.inr fun h => hi (Option.some.inj h).symm)
    | @transition ctx id dto _ t w hfound declared permitted guards rows =>
      rw [rows]
      by_cases hi : i = id
      · subst hi
        rw [if_pos rfl]
        exact .moved t w hacc hfound declared permitted guards
      · rw [if_neg hi]
        exact .kept (.inr fun h => hi (Option.some.inj h).symm)
    | createReviewNote _ _ _ _ _ _ _ workpapers _ =>
      rw [workpapers]
      exact .kept (.inr fun h => by cases h)
    | updateReviewNote _ _ _ _ _ _ _ workpapers _ =>
      rw [workpapers]
      exact .kept (.inr fun h => by cases h)

/-- A request that succeeds is made by a user who holds a permission of its route. -/
theorem permitted_of_accepted {s : Db} {r : Request} (h : Accepted serve s r) :
    ∃ p ∈ r.permissions, r.ctx.hasPermission p = true := by
  obtain ⟨a, s', hrun⟩ := h
  unfold serve at hrun
  obtain ⟨hall, -⟩ := Prog.run_guard_ok.mp hrun
  simpa using hall

/-! ### What has happened to a workpaper -/

/-- Workpaper `i` is created. -/
def Creates (i : Uuid) (s : Db) (r : Request) : Prop :=
  (∃ ctx engagementId dto, r = .create ctx engagementId dto ∧ ctx.uuid 0 = i) ∧ Accepted serve s r

/-- Workpaper `i` is moved by an action. -/
def Moves (action : String) (i : Uuid) (s : Db) (r : Request) : Prop :=
  (∃ ctx dto, r = .transition ctx i dto ∧ dto.action = action) ∧ Accepted serve s r

theorem Creates.workpaper {i : Uuid} {s : Db} {r : Request} (h : Creates i s r) : r.workpaper = some i := by
  obtain ⟨⟨ctx, e, dto, rfl, hi⟩, -⟩ := h
  exact congrArg some hi

theorem Moves.workpaper {action : String} {i : Uuid} {s : Db} {r : Request} (h : Moves action i s r) :
    r.workpaper = some i := by
  obtain ⟨⟨ctx, dto, rfl, -⟩, -⟩ := h
  rfl

/-! ### An office for examples -/

/-- An engagement in fieldwork. -/
def treasury : Engagement where
  tenantId := 1
  auditNumber := "AUD-2024-001"
  title := "Treasury"
  type := .operational
  entityId := none
  objectives := none
  scope := none
  outOfScope := none
  background := none
  periodStart := none
  periodEnd := none
  plannedStart := none
  plannedEnd := none
  actualStart := none
  actualEnd := none
  budgetHours := none
  budgetAmount := none
  leadId := none
  managerId := none
  partnerId := none
  riskRating := .medium
  status := .active
  opinion := .notRated
  executiveSummary := none
  reportDocumentId := none
  stage := .fieldwork
  reportIssuedAt := none
  members := []
  stakeholders := []
  createdAt := 0
  deletedAt := none

/-- A tenant with three users and one engagement. -/
def office : Db where
  users := ⟨[(1, ⟨1, "Ann", .active, none⟩), (2, ⟨1, "Ben", .active, none⟩), (3, ⟨1, "Cleo", .active, none⟩)],
    by decide⟩
  risks := .empty
  controls := .empty
  processes := .empty
  entities := .empty
  engagements := ⟨[(10, treasury)], by decide⟩
  stageHistory := .empty
  programs := .empty
  programSteps := .empty
  libraryItems := .empty
  templates := .empty
  workpapers := .empty
  versions := .empty
  reviewNotes := .empty
  reviews := .empty
  documents := .empty
  documentVersions := .empty
  evidence := .empty
  findings := .empty
  findingHistory := .empty
  recommendations := .empty
  requests := .empty
  plans := .empty
  planItems := .empty
  comments := .empty
  auditTrail := []
  notifications := []

/-- A request of a user of the office, who draws uuids from `k` on. -/
def actor (userId k : Uuid) : Ctx where
  tenantId := 1
  userId := userId
  email := none
  roles := []
  permissions := [.workpaperRead, .workpaperPrepare, .workpaperReview, .workpaperSignOff, .workpaperUnlock,
    .documentUpload]
  now := k
  uuid n := k + n

/-- A user takes an action on workpaper 100. -/
def take (userId k : Uuid) (action : String) : Request := .transition (actor userId k) 100 { action }

/-- Ann has created workpaper 100 and written its conclusion. -/
def drafted : List Request :=
  [.update (actor 1 101) 100 { conclusion := some (some "Adequate") },
    .create (actor 1 100) 10 { reference := "B.1", title := "Cash", procedure := some (some "Inspect") }]

/-- The request succeeds. -/
def succeeds (s : Db) (r : Request) : Bool := ((serve r).run s).1.isOk

theorem accepted_of_succeeds {s : Db} {r : Request} (h : succeeds s r = true) : Accepted serve s r := by
  unfold succeeds at h
  rcases hrun : (serve r).run s with ⟨e | a, s'⟩
  · rw [hrun] at h
    cases h
  · exact ⟨a, s', hrun⟩

end AuditSphere.Workpapers
