import AuditSphere.Workpapers.Service

/-!
# What a request does

Each request for a workpaper or a note makes at most one call that matters, its
`Commit`; all its other calls leave the tables as they are, but for the status of
a programme step, the audit trail and the notifications (`Aside`). `serve_meets`
says so for any interference `R` by other requests: the commit is made after what
the request has read and checked, `R` apart.

Without interference this becomes `serve_run`, the form used for requests that
are served one after another.
-/

namespace AuditSphere.Workpapers

open Prisma Theory Shared

/-! ### Calls that do not matter -/

/-- The steps are the same but for their status. -/
def StepsKept (t t' : Table Uuid AuditProgramStep) : Prop :=
  ∀ i, (t'.find i).map (fun r => { r with status := StepStatus.notStarted }) =
    (t.find i).map fun r => { r with status := StepStatus.notStarted }

/-- Nothing changes but the status of steps, the audit trail and the notifications. -/
structure Aside (db db' : Db) : Prop where
  rest : db' = { db with
    programSteps := db'.programSteps, auditTrail := db'.auditTrail, notifications := db'.notifications }
  steps : StepsKept db.programSteps db'.programSteps

theorem Aside.refl (db : Db) : Aside db db := ⟨rfl, fun _ => rfl⟩

theorem Aside.trans {a b c : Db} (h : Aside a b) (h' : Aside b c) : Aside a c := by
  refine ⟨?_, fun i => (h'.steps i).trans (h.steps i)⟩
  rw [h'.rest, h.rest]

theorem Aside.of_quiet {a b : Db} (h : Quiet a b) : Aside a b := by
  rw [h]
  exact ⟨rfl, fun _ => rfl⟩

theorem stepsKept_modify (t : Table Uuid AuditProgramStep) (p : Uuid → AuditProgramStep → Bool) (status : StepStatus) :
    StepsKept t (t.modify p fun step => { step with status }) := by
  intro i
  rw [Table.find_modify]
  cases t.find i with
  | none => rfl
  | some r => by_cases h : p i r <;> simp [h]

/-- Interference that may come between the calls of a request. -/
structure Interference (R : Db → Db → Prop) : Prop where
  refl : ∀ s, R s s
  trans : ∀ {a b c}, R a b → R b c → R a c
  aside : ∀ {a b}, Aside a b → R a b

theorem Interference.of_aside : Interference Aside := ⟨Aside.refl, Aside.trans, id⟩

/-! ### Commits -/

/-- The workpaper that the tenant sees under the id, if it is not deleted. -/
def found (ctx : Ctx) (db : Db) (id : Uuid) : Option Workpaper :=
  ctx.findById db.workpapers id fun w => w.deletedAt.isNone

theorem found_eq_some {ctx : Ctx} {s : Db} {id : Uuid} {w : Workpaper} :
    found ctx s id = some w ↔ s.workpapers.find id = some w ∧ ctx.sees w = true ∧ w.deletedAt = none := by
  rw [found, Ctx.findById_eq_some, Option.isNone_iff_eq_none]

/-- What a guard of the workflow says of a workpaper in a state. -/
def guardHolds (ctx : Ctx) (id : Uuid) (wp : Workpaper) (guard : String) (db : Db) : Prop :=
  match guard with
  | "has_procedure_and_conclusion" => isBlank wp.procedure = false ∧ isBlank wp.conclusion = false
  | "reviewer_is_not_preparer" | "signer_is_not_preparer" => wp.preparedById ≠ some ctx.userId
  | "all_notes_addressed" => noteCount ctx db id [.opened] = 0
  | "no_open_review_notes" => noteCount ctx db id [.opened, .addressed] = 0
  | _ => True

/-- A creation: what was read before, and what is written. -/
structure Created (R : Db → Db → Prop) (s : Db) (ctx : Ctx) (engagementId : Uuid) (dto : CreateWorkpaperDto)
    (s₁ s₂ : Db) : Prop where
  engagement : ∃ s₀ e, R s s₀ ∧ R s₀ s₁ ∧ ctx.findById s₀.engagements engagementId (·.deletedAt.isNone) = some e
  template : ∀ t, dto.templateId.orNull = some t →
    ∃ s₀ r, R s s₀ ∧ R s₀ s₁ ∧ ctx.findById s₀.templates t (·.isActive) = some r
  step : ∀ t, dto.programStepId.orNull = some t →
    ∃ s₀ r, R s s₀ ∧ R s₀ s₁ ∧ s₀.programSteps.find t = some r ∧ ctx.sees r = true
  admitted : ∀ w, s₂.workpapers.find (ctx.uuid 0) = some w → constrained s₁ (ctx.uuid 0) w = .ok ()
  fresh : s₁.workpapers.find (ctx.uuid 0) = none
  row : ∃ content, ∀ j, s₂.workpapers.find j =
    if j = ctx.uuid 0 then some (newWorkpaper ctx engagementId dto content) else s₁.workpapers.find j
  rest : s₂ = { s₁ with workpapers := s₂.workpapers }

/-- An edit: the row `before` was read and checked, the row `w` is edited. -/
structure Updated (R : Db → Db → Prop) (s : Db) (ctx : Ctx) (id : Uuid) (dto : UpdateWorkpaperDto)
    (before w w' : Workpaper) (s₁ s₂ : Db) : Prop where
  read : ∃ s₀, R s s₀ ∧ R s₀ s₁ ∧ found ctx s₀ id = some before
  unlocked : before.isLocked = false
  reviewer : before.status = .inReview → ctx.hasPermission .workpaperReview = true
  supplied : dto.changed ≠ []
  row : s₁.workpapers.find id = some w
  sees : ctx.sees w = true
  edit : edited ctx dto before w = .ok w'
  admitted : constrained { s₁ with versions := s₂.versions } id w' = .ok ()
  rows : ∀ j, s₂.workpapers.find j = if j = id then some w' else s₁.workpapers.find j
  version : ∀ j v, s₁.versions.find j = some v → ¬(v.workpaperId = id ∧ v.versionNumber = before.currentVersion)
  versions : ∃ changeSummary, s₁.versions.find (ctx.uuid 0) = none ∧ ∀ j, s₂.versions.find j =
    if j = ctx.uuid 0 then some ⟨ctx.tenantId, id, before.currentVersion, before, changeSummary, ctx.userId⟩
    else s₁.versions.find j
  rest : s₂ = { s₁ with workpapers := s₂.workpapers, versions := s₂.versions }

/-- A transition: the row `wp` was read, its transition `t` checked, the row `w` is moved. -/
structure Transitioned (R : Db → Db → Prop) (s : Db) (ctx : Ctx) (id : Uuid) (dto : TransitionDto)
    (t : Transition WorkpaperStatus) (wp w : Workpaper) (s₁ s₂ : Db) : Prop where
  read : ∃ s₀, R s s₀ ∧ R s₀ s₁ ∧ found ctx s₀ id = some wp
  transition : findTransition workpaperWorkflow wp.status dto.action = some t
  permitted : t.permission ∈ ctx.permissions
  guards : ∀ guard ∈ t.guards, ∃ sg, R s sg ∧ R sg s₁ ∧ guardHolds ctx id wp guard sg
  row : s₁.workpapers.find id = some w
  sees : ctx.sees w = true
  rows : ∀ j, s₂.workpapers.find j = if j = id then some (transitioned ctx t wp w) else s₁.workpapers.find j
  steps : StepsKept s₁.programSteps s₂.programSteps
  rest : s₂ = { s₁ with workpapers := s₂.workpapers, reviews := s₂.reviews, programSteps := s₂.programSteps }

/-- A new note on a workpaper that was read. -/
structure NoteCreated (R : Db → Db → Prop) (s : Db) (ctx : Ctx) (id : Uuid) (dto : CreateReviewNoteDto)
    (wp : Workpaper) (s₁ s₂ : Db) : Prop where
  read : ∃ s₀, R s s₀ ∧ R s₀ s₁ ∧ found ctx s₀ id = some wp
  admitted : noteConstrained s₁ (newReviewNote ctx id dto wp) = .ok ()
  fresh : s₁.reviewNotes.find (ctx.uuid 0) = none
  rows : ∀ j, s₂.reviewNotes.find j =
    if j = ctx.uuid 0 then some (newReviewNote ctx id dto wp) else s₁.reviewNotes.find j
  rest : s₂ = { s₁ with reviewNotes := s₂.reviewNotes }

/-- A changed note: the row `before` was read, the row `n` is changed by `f`. -/
structure NoteUpdated (R : Db → Db → Prop) (s : Db) (ctx : Ctx) (id : Uuid) (dto : UpdateReviewNoteDto)
    (before n : ReviewNote) (f : ReviewNote → ReviewNote) (s₁ s₂ : Db) : Prop where
  read : ∃ s₀ wp action, R s s₀ ∧ R s₀ s₁ ∧ s₀.reviewNotes.find id = some before ∧
    noteChange ctx before wp dto = .ok (f, action)
  row : s₁.reviewNotes.find id = some n
  sees : ctx.sees n = true
  rows : ∀ j, s₂.reviewNotes.find j = if j = id then some (f n) else s₁.reviewNotes.find j
  rest : s₂ = { s₁ with reviewNotes := s₂.reviewNotes }

/-- The one call of a request that matters. -/
inductive Commit (R : Db → Db → Prop) (s : Db) : Request → Db → Db → Prop where
  | create {ctx engagementId dto s₁ s₂} :
    Created R s ctx engagementId dto s₁ s₂ → Commit R s (.create ctx engagementId dto) s₁ s₂
  | update {ctx id dto before w w' s₁ s₂} :
    Updated R s ctx id dto before w w' s₁ s₂ → Commit R s (.update ctx id dto) s₁ s₂
  | transition {ctx id dto t wp w s₁ s₂} :
    Transitioned R s ctx id dto t wp w s₁ s₂ → Commit R s (.transition ctx id dto) s₁ s₂
  | createReviewNote {ctx id dto wp s₁ s₂} :
    NoteCreated R s ctx id dto wp s₁ s₂ → Commit R s (.createReviewNote ctx id dto) s₁ s₂
  | updateReviewNote {ctx id dto before n f s₁ s₂} :
    NoteUpdated R s ctx id dto before n f s₁ s₂ → Commit R s (.updateReviewNote ctx id dto) s₁ s₂

/-- A call of a request. -/
def Call (R : Db → Db → Prop) (s : Db) (r : Request) (s₁ s₂ : Db) : Prop := Aside s₁ s₂ ∨ Commit R s r s₁ s₂

/-- How a request ends: it failed without a commit, or it has committed. After its
commit only a transition may fail, if the workpaper is not found any more. -/
def Done (R : Db → Db → Prop) (s : Db) (r : Request) {α : Type} (result : Except HttpError α) (s' : Db) : Prop :=
  ((∃ e, result = .error e) ∧ R s s') ∨
    ∃ s₁ s₂, R s s₁ ∧ Commit R s r s₁ s₂ ∧ R s₂ s' ∧
      ((∃ a, result = .ok a) ∨
        ∃ ctx id dto s₃, r = .transition ctx id dto ∧ R s₂ s₃ ∧ found ctx s₃ id = none)

/-! ### The writes, one by one -/

section Writes

variable {ctx : Ctx} {id : Uuid} {s s' : Db}

theorem insertWorkpaper_ok {w : Workpaper} (h : (insertWorkpaper id w).run s = (.ok (), s')) :
    constrained s id w = .ok () ∧ s.workpapers.find id = none ∧
      (∀ j, s'.workpapers.find j = if j = id then some w else s.workpapers.find j) ∧
      s' = { s with workpapers := s'.workpapers } := by
  obtain ⟨_, hc, h⟩ := Prog.bind_eq_ok.mp (Prog.run_call_ok.mp h)
  obtain ⟨t, ht, h⟩ := Prog.bind_eq_ok.mp h
  cases h
  obtain ⟨hfresh, hrow⟩ := insertRow_ok ht
  exact ⟨hc, hfresh, hrow, rfl⟩

theorem updateWorkpaper_ok {f : Workpaper → Except HttpError Workpaper} {w' : Workpaper}
    (h : (updateWorkpaper ctx id f).run s = (.ok w', s')) :
    ∃ w, s.workpapers.find id = some w ∧ ctx.sees w = true ∧ f w = .ok w' ∧ constrained s id w' = .ok () ∧
      (∀ j, s'.workpapers.find j = if j = id then some w' else s.workpapers.find j) ∧
      s' = { s with workpapers := s'.workpapers } := by
  obtain ⟨⟨w₁, t⟩, ht, h⟩ := Prog.bind_eq_ok.mp (Prog.run_call_ok.mp h)
  obtain ⟨_, hc, h⟩ := Prog.bind_eq_ok.mp h
  cases h
  obtain ⟨w, hfind, hsees, hf, hrows⟩ := updateRow_ok ht
  exact ⟨w, hfind, hsees, hf, hc, hrows, rfl⟩

theorem insertVersion_ok {v : WorkpaperVersion} (h : (insertVersion id v).run s = (.ok (), s')) :
    (∀ j r, s.versions.find j = some r → ¬(r.workpaperId = v.workpaperId ∧ r.versionNumber = v.versionNumber)) ∧
      s.versions.find id = none ∧
      (∀ j, s'.versions.find j = if j = id then some v else s.versions.find j) ∧
      s' = { s with versions := s'.versions } := by
  have h := Prog.run_call_ok.mp h
  split at h
  · cases h
  · rename_i hdup
    split at h
    · cases h
    · obtain ⟨t, ht, h⟩ := Prog.bind_eq_ok.mp h
      cases h
      obtain ⟨hfresh, hrow⟩ := insertRow_ok ht
      refine ⟨fun j r hr => ?_, hfresh, hrow, rfl⟩
      have hnone := (Table.first_eq_none_iff _ _).mp (Option.not_isSome_iff_eq_none.mp hdup) j r hr
      simpa using hnone

theorem insertReview_ok {r : Review} (h : (insertReview id r).run s = (.ok (), s')) :
    s' = { s with reviews := s'.reviews } := by
  have h := Prog.run_call_ok.mp h
  split at h
  · cases h
  · obtain ⟨t, -, h⟩ := Prog.bind_eq_ok.mp h
    cases h
    rfl

theorem updateStepStatus_ok {status : StepStatus} (h : (updateStepStatus ctx id status).run s = (.ok (), s')) :
    StepsKept s.programSteps s'.programSteps ∧ s' = { s with programSteps := s'.programSteps } := by
  obtain ⟨⟨r, t⟩, ht, h⟩ := Prog.bind_eq_ok.mp (Prog.run_call_ok.mp h)
  cases h
  refine ⟨fun i => ?_, rfl⟩
  obtain ⟨step, hfind, -, hf, hrows⟩ := updateRow_ok ht
  cases hf
  rw [hrows]
  by_cases hi : i = id
  · subst hi
    simp [hfind]
  · simp [hi]

theorem insertReviewNote_ok {n : ReviewNote} (h : (insertReviewNote id n).run s = (.ok (), s')) :
    noteConstrained s n = .ok () ∧ s.reviewNotes.find id = none ∧
      (∀ j, s'.reviewNotes.find j = if j = id then some n else s.reviewNotes.find j) ∧
      s' = { s with reviewNotes := s'.reviewNotes } := by
  obtain ⟨_, hc, h⟩ := Prog.bind_eq_ok.mp (Prog.run_call_ok.mp h)
  obtain ⟨t, ht, h⟩ := Prog.bind_eq_ok.mp h
  cases h
  obtain ⟨hfresh, hrow⟩ := insertRow_ok ht
  exact ⟨hc, hfresh, hrow, rfl⟩

theorem updateNoteRow_ok {f : ReviewNote → ReviewNote} {n' : ReviewNote}
    (h : (updateNoteRow ctx id f).run s = (.ok n', s')) :
    ∃ n, s.reviewNotes.find id = some n ∧ ctx.sees n = true ∧ f n = n' ∧
      (∀ j, s'.reviewNotes.find j = if j = id then some n' else s.reviewNotes.find j) ∧
      s' = { s with reviewNotes := s'.reviewNotes } := by
  obtain ⟨⟨n₁, t⟩, ht, h⟩ := Prog.bind_eq_ok.mp (Prog.run_call_ok.mp h)
  obtain ⟨_, -, h⟩ := Prog.bind_eq_ok.mp h
  cases h
  obtain ⟨n, hfind, hsees, hf, hrows⟩ := updateRow_ok ht
  cases hf
  exact ⟨n, hfind, hsees, rfl, hrows, rfl⟩

end Writes

/-! ### The methods -/

theorem auditRecord_aside (ctx : Ctx) (action targetType : String) (targetId : Uuid) :
    (auditRecord ctx action targetType targetId).Within Aside :=
  (auditRecord_quiet ctx action targetType targetId).mono fun _ _ => Aside.of_quiet

theorem notify_aside (ctx : Ctx) (userId : Option Uuid) (input : NotifyInput) :
    (notify ctx userId input).Within Aside :=
  (notify_quiet ctx userId input).mono fun _ _ => Aside.of_quiet

theorem startStep_aside (ctx : Ctx) (programStepId : Field Uuid) : (startStep ctx programStepId).Within Aside := by
  unfold startStep
  split
  · exact Prog.within_pure _
  · exact Prog.within_write fun db => ⟨rfl, stepsKept_modify _ _ _⟩

theorem recipients_aside (ctx : Ctx) (wp : Workpaper) (t : Transition WorkpaperStatus) :
    (recipients ctx wp t).Within Aside := by
  unfold recipients
  refine Prog.Within.ite ?_ (Prog.within_pure _)
  exact (Prog.within_read _ Aside.refl).bind fun _ => Prog.within_pure _

theorem afterTransition_aside (ctx : Ctx) (id : Uuid) (dto : TransitionDto) (wp : Workpaper)
    (t : Transition WorkpaperStatus) : (afterTransition ctx id dto wp t).Within Aside :=
  (auditRecord_aside ctx _ _ id).bind fun _ => (recipients_aside ctx wp t).bind fun users =>
    (notifyMany_quiet ctx users _).mono fun _ _ => Aside.of_quiet

section Methods

variable {R G : Db → Db → Prop} (hR : Interference R)

include hR

/-- A program that changes nothing that matters, after which the request goes on. -/
theorem meets_aside {α : Type} {p : Service α} (hp : p.Within Aside) (hG : ∀ a b, Aside a b → G a b) (s : Db) :
    p.Meets R G (fun r s' => (∃ a, r = .ok a) ∧ R s s') s :=
  hp.meets hG (fun _ _ => hR.aside) hR.refl (fun _ _ _ => hR.trans) s

omit hR in
theorem assertWorkpaper_meets (hG : ∀ s, G s s) (ctx : Ctx) (id : Uuid) (s : Db) :
    (assertWorkpaper ctx id).Meets R G (fun r s' => R s s' ∧ ∀ wp, r = .ok wp → found ctx s' id = some wp) s := by
  unfold assertWorkpaper
  rw [Prog.meets_read_bind]
  refine fun s' hs' => ⟨hG s', ?_⟩
  split
  · exact ⟨hs', fun _ h => by cases h⟩
  · rename_i wp hwp
    refine ⟨hs', fun _ h => ?_⟩
    cases h
    exact hwp

theorem assertReferenceFree_meets (hG : ∀ s, G s s) (ctx : Ctx) (id : Uuid) (before : Workpaper)
    (reference : Field String) (s : Db) :
    (assertReferenceFree ctx id before reference).Meets R G (fun _ s' => R s s') s := by
  unfold assertReferenceFree
  split
  · exact hR.refl s
  · rw [Prog.meets_ite]
    split
    · exact hR.refl s
    · rw [Prog.meets_read_bind]
      refine fun s' hs' => ⟨hG s', ?_⟩
      rw [Prog.meets_ite]
      split <;> exact hs'

omit hR in
/-- The transaction of an edit. -/
theorem updateTransaction_ok {ctx : Ctx} {id : Uuid} {dto : UpdateWorkpaperDto} {before w' : Workpaper}
    {s s₀ s₁ s₂ : Db} (h₀ : R s s₀) (h₁ : R s₀ s₁) (hread : found ctx s₀ id = some before)
    (hunlocked : before.isLocked = false) (hreviewer : before.status = .inReview → ctx.hasPermission .workpaperReview = true)
    (hsupplied : dto.changed ≠ [])
    (h : (updateTransaction ctx id dto before).run s₁ = (.ok w', s₂)) :
    ∃ w, Updated R s ctx id dto before w w' s₁ s₂ := by
  obtain ⟨_, sᵥ, hv, hw⟩ := Prog.run_bind_ok.mp (Prog.run_transaction_ok.mp h)
  obtain ⟨hversion, hfresh, hversions, hrestᵥ⟩ := insertVersion_ok hv
  obtain ⟨w, hfind, hsees, hf, hc, hrows, hrest⟩ := updateWorkpaper_ok hw
  have hwp : sᵥ.workpapers = s₁.workpapers := by rw [hrestᵥ]
  have hver : s₂.versions = sᵥ.versions := by rw [hrest]
  rw [hwp] at hfind
  refine ⟨w, ⟨s₀, h₀, h₁, hread⟩, hunlocked, hreviewer, hsupplied, hfind, hsees, hf, ?_, ?_, hversion, ?_, ?_⟩
  · rw [hver, ← hrestᵥ]
    exact hc
  · intro j
    rw [hrows j, hwp]
  · exact ⟨_, hfresh, fun j => by rw [hver, hversions j]⟩
  · rw [hrest, hrestᵥ]

omit hR in
/-- What `update` does with the row that it has read. -/
theorem update_eq (ctx : Ctx) (id : Uuid) (dto : UpdateWorkpaperDto) :
    update ctx id dto = assertWorkpaper ctx id >>= updateRead ctx id dto := rfl

/-- From the row that was read on, an edit is an edit of that row. -/
theorem updateRead_meets (ctx : Ctx) (id : Uuid) (dto : UpdateWorkpaperDto) {before : Workpaper} {s : Db}
    (hfound : found ctx s id = some before) :
    (updateRead ctx id dto before).Meets R
      (fun a b => Aside a b ∨ ∃ w w', Updated R s ctx id dto before w w' a b)
      (Done R s (.update ctx id dto)) s := by
  have hG : ∀ s', Aside s' s' ∨ ∃ w w', Updated R s ctx id dto before w w' s' s' := fun s' => .inl (Aside.refl s')
  unfold updateRead
  rw [Prog.meets_ite]
  split
  · exact .inl ⟨⟨_, rfl⟩, hR.refl s⟩
  rename_i hunlocked
  rw [Prog.meets_ite]
  split
  · exact .inl ⟨⟨_, rfl⟩, hR.refl s⟩
  rename_i hreviewer
  rw [Prog.meets_ite]
  split
  · exact .inl ⟨⟨_, rfl⟩, hR.refl s⟩
  rename_i hsupplied
  rw [Prog.meets_bind]
  refine (assertReferenceFree_meets hR hG ctx id before dto.reference s).mono ?_
  rintro (e | _) s₁ h₁
  · exact .inl ⟨⟨e, rfl⟩, h₁⟩
  dsimp only
  rw [Prog.meets_bind]
  refine Prog.meets_of_transaction fun s₂ h₂ r s₃ hrun => ?_
  rcases r with e | w'
  · have : s₃ = s₂ := Prog.atomic_call _ _ _ _ hrun
    subst this
    exact ⟨hG s₃, .inl ⟨⟨e, rfl⟩, hR.trans h₁ h₂⟩⟩
  obtain ⟨w, hupd⟩ := updateTransaction_ok (hR.refl s) (hR.trans h₁ h₂) hfound (by simpa using hunlocked)
    (by simpa using hreviewer) hsupplied hrun
  refine ⟨.inr ⟨w, w', hupd⟩, ?_⟩
  refine (meets_aside hR ?_ (fun _ _ => .inl) s₃).mono fun r s' ⟨hok, hs'⟩ =>
    .inr ⟨s₂, s₃, hR.trans h₁ h₂, .update hupd, hs', .inl hok⟩
  exact (auditRecord_aside ctx _ _ id).bind fun _ => Prog.within_pure _

/-- What was read later was read. -/
theorem Updated.earlier {ctx : Ctx} {id : Uuid} {dto : UpdateWorkpaperDto} {before w w' : Workpaper} {s s₀ s₁ s₂ : Db}
    (hs : R s s₀) (h : Updated R s₀ ctx id dto before w w' s₁ s₂) : Updated R s ctx id dto before w w' s₁ s₂ := by
  obtain ⟨sr, h₀, h₁, hread⟩ := h.read
  exact { h with read := ⟨sr, hR.trans hs h₀, h₁, hread⟩ }

theorem update_meets (ctx : Ctx) (id : Uuid) (dto : UpdateWorkpaperDto) (s : Db) :
    (update ctx id dto).Meets R (Call R s (.update ctx id dto)) (Done R s (.update ctx id dto)) s := by
  rw [update_eq, Prog.meets_bind]
  refine (assertWorkpaper_meets (fun s' => .inl (Aside.refl s')) ctx id s).mono ?_
  rintro (e | before) s₀ ⟨h₀, hfound⟩
  · exact .inl ⟨⟨e, rfl⟩, h₀⟩
  refine ((updateRead_meets hR ctx id dto (hfound _ rfl)).mono_step ?_).mono ?_
  · rintro a b (haside | ⟨w, w', hupd⟩)
    · exact .inl haside
    · exact .inr (.update (hupd.earlier hR h₀))
  · rintro r s' (⟨herr, hs'⟩ | ⟨s₁, s₂, h₁, hcommit, hs', hend⟩)
    · exact .inl ⟨herr, hR.trans h₀ hs'⟩
    · refine .inr ⟨s₁, s₂, hR.trans h₀ h₁, ?_, hs', hend⟩
      cases hcommit with
      | update hupd => exact .update (hupd.earlier hR h₀)

theorem templateContent_meets (hG : ∀ s, G s s) (ctx : Ctx) (templateId : Field Uuid) (s : Db) :
    (templateContent ctx templateId).Meets R G (fun r s' => R s s' ∧ ((∃ content, r = .ok content) →
      ∀ t, templateId.orNull = some t →
        ∃ s₀ row, R s s₀ ∧ R s₀ s' ∧ ctx.findById s₀.templates t (·.isActive) = some row)) s := by
  unfold templateContent
  cases templateId.orNull with
  | none => exact ⟨hR.refl s, fun _ t h => by cases h⟩
  | some t =>
    dsimp only
    rw [Prog.meets_read_bind]
    refine fun s' hs' => ⟨hG s', ?_⟩
    split
    · exact ⟨hs', fun ⟨_, h⟩ => by cases h⟩
    · rename_i row hrow
      refine ⟨hs', fun _ t' ht' => ?_⟩
      cases ht'
      exact ⟨s', row, hs', hR.refl s', hrow⟩

theorem assertStep_meets (hG : ∀ s, G s s) (ctx : Ctx) (engagementId : Uuid) (programStepId : Field Uuid) (s : Db) :
    (assertStep ctx engagementId programStepId).Meets R G (fun r s' => R s s' ∧ ((∃ u, r = .ok u) →
      ∀ t, programStepId.orNull = some t →
        ∃ s₀ row, R s s₀ ∧ R s₀ s' ∧ s₀.programSteps.find t = some row ∧ ctx.sees row = true)) s := by
  refine (assertRelated_meets hR.refl hG _ s).mono fun r s' ⟨hs', hfound⟩ => ⟨hs', fun hok t ht => ?_⟩
  obtain ⟨s₀, row, h₀, h₁, hrow⟩ := hfound hok t ht
  obtain ⟨hfind, hsees, -⟩ := Ctx.findById_eq_some.mp hrow
  exact ⟨s₀, row, h₀, h₁, hfind, hsees⟩

theorem create_meets (ctx : Ctx) (engagementId : Uuid) (dto : CreateWorkpaperDto) (s : Db) :
    (create ctx engagementId dto).Meets R (Call R s (.create ctx engagementId dto))
      (Done R s (.create ctx engagementId dto)) s := by
  have hG : ∀ s', Call R s (.create ctx engagementId dto) s' s' := fun s' => .inl (Aside.refl s')
  unfold create
  rw [Prog.meets_read_bind]
  refine fun s₀ h₀ => ⟨hG s₀, ?_⟩
  split
  · exact .inl ⟨⟨_, rfl⟩, h₀⟩
  rename_i engagement hengagement
  rw [Prog.meets_ite]
  split
  · exact .inl ⟨⟨_, rfl⟩, h₀⟩
  rw [Prog.meets_bind]
  refine (templateContent_meets hR hG ctx dto.templateId s₀).mono ?_
  rintro (e | content) s₁ ⟨h₁, htemplate⟩
  · exact .inl ⟨⟨e, rfl⟩, hR.trans h₀ h₁⟩
  have h01 := hR.trans h₀ h₁
  dsimp only
  rw [Prog.meets_bind]
  refine (assertStep_meets hR hG ctx engagementId dto.programStepId s₁).mono ?_
  rintro (e | _) s₂ ⟨h₂, hstep⟩
  · exact .inl ⟨⟨e, rfl⟩, hR.trans h01 h₂⟩
  have h02 := hR.trans h01 h₂
  dsimp only
  rw [Prog.meets_read_bind]
  refine fun s₃ h₃ => ⟨hG s₃, ?_⟩
  rw [Prog.meets_ite]
  split
  · exact .inl ⟨⟨_, rfl⟩, hR.trans h02 h₃⟩
  rw [Prog.meets_bind]
  refine Prog.meets_of_call fun s₄ h₄ r s₅ hrun => ?_
  have h24 := hR.trans h₃ h₄
  rcases r with e | _
  · have : s₅ = s₄ := Prog.atomic_call _ _ _ _ hrun
    subst this
    exact ⟨hG s₅, .inl ⟨⟨e, rfl⟩, hR.trans h02 h24⟩⟩
  obtain ⟨hc, hfresh, hrow, hrest⟩ := insertWorkpaper_ok hrun
  have hcreated : Created R s ctx engagementId dto s₄ s₅ := by
    refine ⟨⟨s₀, engagement, h₀, hR.trans h₁ (hR.trans h₂ h24), hengagement⟩, fun t ht => ?_, fun t ht => ?_,
      fun w hw => ?_, hfresh, ⟨content, hrow⟩, hrest⟩
    · obtain ⟨s', row, hs', hs'', hfind⟩ := htemplate ⟨_, rfl⟩ t ht
      exact ⟨s', row, hR.trans h₀ hs', hR.trans hs'' (hR.trans h₂ h24), hfind⟩
    · obtain ⟨s', row, hs', hs'', hfind⟩ := hstep ⟨_, rfl⟩ t ht
      exact ⟨s', row, hR.trans h01 hs', hR.trans hs'' h24, hfind⟩
    · rw [hrow, if_pos rfl, Option.some.injEq] at hw
      rw [← hw]
      exact hc
  refine ⟨.inr (.create hcreated), ?_⟩
  refine (meets_aside hR ?_ (fun _ _ => .inl) s₅).mono fun r s' ⟨hok, hs'⟩ =>
    .inr ⟨s₄, s₅, hR.trans h02 h24, .create hcreated, hs', .inl hok⟩
  exact (startStep_aside ctx _).bind fun _ => (auditRecord_aside ctx _ _ _).bind fun _ => Prog.within_pure _

omit hR in
/-- The transaction of a transition. -/
theorem transitionTransaction_ok {ctx : Ctx} {id : Uuid} {dto : TransitionDto} {t : Transition WorkpaperStatus}
    {wp w' : Workpaper} {s s₀ s₁ s₂ : Db} (h₀ : R s s₀) (h₁ : R s₀ s₁) (hread : found ctx s₀ id = some wp)
    (htransition : findTransition workpaperWorkflow wp.status dto.action = some t)
    (hpermitted : t.permission ∈ ctx.permissions)
    (hguards : ∀ guard ∈ t.guards, ∃ sg, R s sg ∧ R sg s₁ ∧ guardHolds ctx id wp guard sg)
    (h : (transitionTransaction ctx id dto t wp).run s₁ = (.ok w', s₂)) :
    ∃ w, Transitioned R s ctx id dto t wp w s₁ s₂ := by
  obtain ⟨_, sₐ, hw, h⟩ := Prog.run_bind_ok.mp (Prog.run_transaction_ok.mp h)
  obtain ⟨_, sᵣ, hr, h⟩ := Prog.run_bind_ok.mp h
  obtain ⟨_, sₘ, hm, h⟩ := Prog.run_bind_ok.mp h
  cases h
  obtain ⟨w, hfind, hsees, hf, -, hrows, hrestₐ⟩ := updateWorkpaper_ok hw
  cases hf
  have hreview : sᵣ = { sₐ with reviews := sᵣ.reviews } := by
    unfold recordReview at hr
    split at hr
    · cases hr
      rfl
    · exact insertReview_ok hr
  have hstep : StepsKept sᵣ.programSteps s₂.programSteps ∧ s₂ = { sᵣ with programSteps := s₂.programSteps } := by
    unfold moveStep at hm
    split at hm
    · cases hm
      exact ⟨fun _ => rfl, rfl⟩
    · split at hm
      · exact updateStepStatus_ok hm
      · split at hm
        · exact updateStepStatus_ok hm
        · cases hm
          exact ⟨fun _ => rfl, rfl⟩
  have hwp : s₂.workpapers = sₐ.workpapers := by rw [hstep.2, hreview]
  have hsteps : sᵣ.programSteps = s₁.programSteps := by rw [hreview, hrestₐ]
  refine ⟨w, ⟨s₀, h₀, h₁, hread⟩, htransition, hpermitted, hguards, hfind, hsees, ?_, ?_, ?_⟩
  · intro j
    rw [hwp, hrows j]
  · rw [← hsteps]
    exact hstep.1
  · rw [hstep.2, hreview, hrestₐ]

/-- Each guard of the workflow is registered, and says what `guardHolds` says. -/
theorem guards_checked (hG : ∀ s, G s s) (ctx : Ctx) (id : Uuid) (wp : Workpaper) (action : String)
    (comment : Option String) (t : Transition WorkpaperStatus) (ht : t ∈ workpaperWorkflow.transitions)
    (guard : String) (hguard : guard ∈ t.guards ++ []) :
    ∃ fn, guardRegistry.get workpaperWorkflow.name guard = some fn ∧
      Checks R G (guardHolds ctx id wp guard) (fn ⟨(id, wp), ctx, action, t.fromState, t.toState, comment⟩) := by
  have hprep : ∀ message, Checks R G (fun _ => wp.preparedById ≠ some ctx.userId)
      (pure ⟨notPreparer ⟨(id, wp), ctx, action, t.fromState, t.toState, comment⟩, message⟩) := by
    refine fun message => checks_pure hR.refl fun h _ => ?_
    unfold notPreparer at h
    dsimp only at h
    cases hp : wp.preparedById <;> simp_all
  have hcases : guard = "has_procedure_and_conclusion" ∨ guard = "reviewer_is_not_preparer" ∨
      guard = "signer_is_not_preparer" ∨ guard = "all_notes_addressed" ∨ guard = "no_open_review_notes" := by
    rw [List.append_nil] at hguard
    simpa using workpaperWorkflow_guards t ht guard hguard
  rcases hcases with rfl | rfl | rfl | rfl | rfl
  · refine ⟨_, rfl, checks_pure hR.refl fun h _ => ?_⟩
    simpa [guardHolds] using h
  · exact ⟨_, rfl, hprep _⟩
  · exact ⟨_, rfl, hprep _⟩
  · refine ⟨_, rfl, checks_read hR.refl hG fun s h => ?_⟩
    simpa [guardHolds] using h
  · refine ⟨_, rfl, checks_read hR.refl hG fun s h => ?_⟩
    simpa [guardHolds] using h

/-- The final query of a transition fails only if the workpaper is not found. -/
theorem get_meets (hG : ∀ s, G s s) (ctx : Ctx) (id : Uuid) (s : Db) :
    (get ctx id).Meets R G (fun r s' => R s s' ∧ ((∃ a, r = .ok a) ∨ ∃ s₁, R s s₁ ∧ found ctx s₁ id = none)) s := by
  unfold get
  rw [Prog.meets_read_bind]
  refine fun s₁ h₁ => ⟨hG s₁, ?_⟩
  cases hfound : found ctx s₁ id with
  | none =>
    rw [show ctx.findById s₁.workpapers id (fun w => w.deletedAt.isNone) = none from hfound]
    exact ⟨h₁, .inr ⟨s₁, h₁, hfound⟩⟩
  | some wp =>
    rw [show ctx.findById s₁.workpapers id (fun w => w.deletedAt.isNone) = some wp from hfound]
    dsimp only [Option.map_some]
    rw [Prog.meets_bind]
    refine (availableActions_meets hR.refl (fun _ _ _ => hR.trans)
      (fun t ht guard hguard => guards_checked hR hG ctx id wp t.action none t ht guard hguard) s₁).mono ?_
    rintro _ s₂ ⟨actions, rfl, h₂⟩
    exact ⟨hR.trans h₁ h₂, .inl ⟨_, rfl⟩⟩

theorem transition_meets (ctx : Ctx) (id : Uuid) (dto : TransitionDto) (s : Db) :
    (transition ctx id dto).Meets R (Call R s (.transition ctx id dto)) (Done R s (.transition ctx id dto)) s := by
  have hG : ∀ s', Call R s (.transition ctx id dto) s' s' := fun s' => .inl (Aside.refl s')
  unfold transition
  rw [Prog.meets_bind]
  refine (assertWorkpaper_meets hG ctx id s).mono ?_
  rintro (e | wp) s₀ ⟨h₀, hfound⟩
  · exact .inl ⟨⟨e, rfl⟩, h₀⟩
  dsimp only
  rw [Prog.meets_bind]
  refine (AuditSphere.transition_meets hR.refl (fun _ _ _ => hR.trans)
    (fun t ht guard hguard => guards_checked hR hG ctx id wp dto.action dto.comment.orNull t ht guard hguard) s₀).mono ?_
  rintro (e | t) s₁ ⟨h₁, hpassed⟩
  · exact .inl ⟨⟨e, rfl⟩, hR.trans h₀ h₁⟩
  obtain ⟨htransition, hpermitted, hguards⟩ := hpassed t rfl
  dsimp only
  rw [Prog.meets_bind]
  refine Prog.meets_of_transaction fun s₂ h₂ r s₃ hrun => ?_
  have h02 := hR.trans h₀ (hR.trans h₁ h₂)
  rcases r with e | w'
  · have : s₃ = s₂ := Prog.atomic_call _ _ _ _ hrun
    subst this
    exact ⟨hG s₃, .inl ⟨⟨e, rfl⟩, h02⟩⟩
  obtain ⟨w, htr⟩ := transitionTransaction_ok h₀ (hR.trans h₁ h₂) (hfound _ rfl) htransition hpermitted
    (fun guard hg => by
      obtain ⟨sg, hg₁, hg₂, hholds⟩ := hguards guard (List.mem_append_left _ hg)
      exact ⟨sg, hR.trans h₀ hg₁, hR.trans hg₂ h₂, hholds⟩) hrun
  refine ⟨.inr (.transition htr), ?_⟩
  dsimp only
  rw [Prog.meets_bind]
  refine (meets_aside hR (afterTransition_aside ctx id dto wp t) (fun _ _ => .inl) s₃).mono ?_
  rintro _ s₄ ⟨⟨_, rfl⟩, h₄⟩
  refine (get_meets hR hG ctx id s₄).mono fun r s' ⟨h', hend⟩ => ?_
  refine .inr ⟨s₂, s₃, h02, .transition htr, hR.trans h₄ h', hend.imp (fun h => h) ?_⟩
  rintro ⟨s₅, h₅, hnone⟩
  exact ⟨ctx, id, dto, s₅, rfl, hR.trans h₄ h₅, hnone⟩

theorem createReviewNote_meets (ctx : Ctx) (id : Uuid) (dto : CreateReviewNoteDto) (s : Db) :
    (createReviewNote ctx id dto).Meets R (Call R s (.createReviewNote ctx id dto))
      (Done R s (.createReviewNote ctx id dto)) s := by
  have hG : ∀ s', Call R s (.createReviewNote ctx id dto) s' s' := fun s' => .inl (Aside.refl s')
  unfold createReviewNote
  rw [Prog.meets_bind]
  refine (assertWorkpaper_meets hG ctx id s).mono ?_
  rintro (e | wp) s₀ ⟨h₀, hfound⟩
  · exact .inl ⟨⟨e, rfl⟩, h₀⟩
  dsimp only
  rw [Prog.meets_bind]
  refine Prog.meets_of_call fun s₁ h₁ r s₂ hrun => ?_
  rcases r with e | _
  · have : s₂ = s₁ := Prog.atomic_call _ _ _ _ hrun
    subst this
    exact ⟨hG s₂, .inl ⟨⟨e, rfl⟩, hR.trans h₀ h₁⟩⟩
  obtain ⟨hc, hfresh, hrows, hrest⟩ := insertReviewNote_ok hrun
  have hcreated : NoteCreated R s ctx id dto wp s₁ s₂ := ⟨⟨s₀, h₀, h₁, hfound _ rfl⟩, hc, hfresh, hrows, hrest⟩
  refine ⟨.inr (.createReviewNote hcreated), ?_⟩
  refine (meets_aside hR ?_ (fun _ _ => .inl) s₂).mono fun r s' ⟨hok, hs'⟩ =>
    .inr ⟨s₁, s₂, hR.trans h₀ h₁, .createReviewNote hcreated, hs', .inl hok⟩
  exact (auditRecord_aside ctx _ _ _).bind fun _ => (notify_aside ctx _ _).bind fun _ => Prog.within_pure _

theorem updateReviewNote_meets (ctx : Ctx) (id : Uuid) (dto : UpdateReviewNoteDto) (s : Db) :
    (updateReviewNote ctx id dto).Meets R (Call R s (.updateReviewNote ctx id dto))
      (Done R s (.updateReviewNote ctx id dto)) s := by
  have hG : ∀ s', Call R s (.updateReviewNote ctx id dto) s' s' := fun s' => .inl (Aside.refl s')
  unfold updateReviewNote
  rw [Prog.meets_read_bind]
  refine fun s₀ h₀ => ⟨hG s₀, ?_⟩
  split
  · exact .inl ⟨⟨_, rfl⟩, h₀⟩
  rename_i before wp hbefore
  split
  · exact .inl ⟨⟨_, rfl⟩, h₀⟩
  rename_i f action hchange
  rw [Prog.meets_bind]
  refine Prog.meets_of_call fun s₁ h₁ r s₂ hrun => ?_
  rcases r with e | n'
  · have : s₂ = s₁ := Prog.atomic_call _ _ _ _ hrun
    subst this
    exact ⟨hG s₂, .inl ⟨⟨e, rfl⟩, hR.trans h₀ h₁⟩⟩
  obtain ⟨n, hfind, hsees, rfl, hrows, hrest⟩ := updateNoteRow_ok hrun
  obtain ⟨note, hnote, hwp⟩ := Option.bind_eq_some_iff.mp hbefore
  obtain ⟨wp', hwp', heq⟩ := Option.bind_eq_some_iff.mp hwp
  cases heq
  have hupdated : NoteUpdated R s ctx id dto before n f s₁ s₂ :=
    ⟨⟨s₀, wp, action, h₀, h₁, (Ctx.findById_eq_some.mp hnote).1, hchange⟩, hfind, hsees, hrows, hrest⟩
  refine ⟨.inr (.updateReviewNote hupdated), ?_⟩
  refine (meets_aside hR ?_ (fun _ _ => .inl) s₂).mono fun r s' ⟨hok, hs'⟩ =>
    .inr ⟨s₁, s₂, hR.trans h₀ h₁, .updateReviewNote hupdated, hs', .inl hok⟩
  exact (auditRecord_aside ctx _ _ _).bind fun _ => (notify_aside ctx _ _).bind fun _ => Prog.within_pure _

omit hR in
/-- Giving a result its place among the responses changes nothing else. -/
theorem meets_response {α : Type} {r : Request} {p : Service α} {f : α → Response} {s : Db}
    (h : p.Meets R (Call R s r) (Done R s r) s) :
    (p >>= fun a => pure (f a)).Meets R (Call R s r) (Done R s r) s := by
  rw [Prog.meets_bind]
  refine h.mono ?_
  rintro (e | a) s' hdone
  · rcases hdone with ⟨-, hs'⟩ | ⟨s₁, s₂, h₁, hcommit, h₂, ⟨_, ⟨⟩⟩ | hgone⟩
    · exact .inl ⟨⟨e, rfl⟩, hs'⟩
    · exact .inr ⟨s₁, s₂, h₁, hcommit, h₂, .inr hgone⟩
  · rcases hdone with ⟨⟨_, ⟨⟩⟩, -⟩ | ⟨s₁, s₂, h₁, hcommit, h₂, -⟩
    · exact .inr ⟨s₁, s₂, h₁, hcommit, h₂, .inl ⟨_, rfl⟩⟩

/-- **What a request does.** Whatever comes between its calls, each of them is aside or
the commit of the request, and it has ended with a value only if it has committed. -/
theorem serve_meets (r : Request) (s : Db) : (serve r).Meets R (Call R s r) (Done R s r) s := by
  unfold serve
  rw [Prog.meets_ite]
  split
  · exact .inl ⟨⟨_, rfl⟩, hR.refl s⟩
  cases r with
  | create ctx engagementId dto => exact meets_response (create_meets hR ctx engagementId dto s)
  | update ctx id dto => exact meets_response (update_meets hR ctx id dto s)
  | transition ctx id dto => exact meets_response (transition_meets hR ctx id dto s)
  | createReviewNote ctx id dto => exact meets_response (createReviewNote_meets hR ctx id dto s)
  | updateReviewNote ctx id dto => exact meets_response (updateReviewNote_meets hR ctx id dto s)

end Methods

end AuditSphere.Workpapers
