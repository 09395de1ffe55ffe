import AuditSphere.Evidence.Service

/-!
# What a request for evidence does

As for workpapers, each request makes at most one call that matters, the insertion
or the change of a record; its other calls change the owner of a document and the
audit trail (`Aside`). `serve_meets` says so for any interference by others.

The two checks of `create` come before it in calls of their own: from the second
one on, what is left is `createUnlocked`.
-/

namespace AuditSphere.Evidence

open Prisma Theory Shared

/-- The documents are the same but for their owner. -/
def DocumentsKept (t t' : Table Uuid Document) : Prop :=
  ∀ i, (t'.find i).map (fun d => { d with ownerType := none, ownerId := none }) =
    (t.find i).map fun d => { d with ownerType := none, ownerId := none }

/-- Nothing changes but the owner of documents, the audit trail and the notifications. -/
structure Aside (db db' : Db) : Prop where
  rest : db' = { db with
    documents := db'.documents, auditTrail := db'.auditTrail, notifications := db'.notifications }
  documents : DocumentsKept db.documents db'.documents

theorem Aside.refl (db : Db) : Aside db db := ⟨rfl, fun _ => rfl⟩

theorem Aside.of_quiet {a b : Db} (h : Quiet a b) : Aside a b := by
  rw [h]
  exact ⟨rfl, fun _ => rfl⟩

theorem documentsKept_modify (t : Table Uuid Document) (p : Uuid → Document → Bool) (ownerType : Option String)
    (ownerId : Option Uuid) : DocumentsKept t (t.modify p fun d => { d with ownerType, ownerId }) := by
  intro i
  rw [Table.find_modify]
  cases t.find i with
  | none => rfl
  | some d => by_cases h : p i d <;> simp [h]

/-- Interference that may come between the calls of a request. -/
structure Interference (R : Db → Db → Prop) : Prop where
  refl : ∀ s, R s s
  trans : ∀ {a b c}, R a b → R b c → R a c
  aside : ∀ {a b}, Aside a b → R a b

/-! ### Commits -/

/-- A document that may be linked was found. -/
def DocumentFound (R : Db → Db → Prop) (s : Db) (ctx : Ctx) (documentId : Field Uuid) (s₁ : Db) : Prop :=
  ∀ d, documentId.orNull = some d → ∃ s₀ doc, R s s₀ ∧ R s₀ s₁ ∧
    ctx.findById s₀.documents d (·.deletedAt.isNone) = some doc ∧ doc.ownerType ≠ some "AiContext"

/-- A workpaper of the engagement was found. -/
def WorkpaperFound (R : Db → Db → Prop) (s : Db) (ctx : Ctx) (engagementId : Uuid) (workpaperId : Field Uuid)
    (s₁ : Db) : Prop :=
  ∀ i, workpaperId.orNull = some i → ∃ s₀ w, R s s₀ ∧ R s₀ s₁ ∧
    ctx.findById s₀.workpapers i (fun w => w.engagementId = engagementId && w.deletedAt.isNone) = some w

/-- A new record, once its engagement and its workpaper are checked. -/
structure Inserted (R : Db → Db → Prop) (s : Db) (ctx : Ctx) (dto : CreateEvidenceDto) (s₁ s₂ : Db) : Prop where
  since : R s s₁
  document : DocumentFound R s ctx dto.documentId s₁
  row : ∃ attempt reference, s₁.evidence.find (ctx.uuid attempt) = none ∧
    constrained s₁ (ctx.uuid attempt) (newEvidence ctx dto reference) = .ok () ∧
    ∀ j, s₂.evidence.find j =
      if j = ctx.uuid attempt then some (newEvidence ctx dto reference) else s₁.evidence.find j
  rest : s₂ = { s₁ with evidence := s₂.evidence }

/-- A new record. -/
structure Created (R : Db → Db → Prop) (s : Db) (ctx : Ctx) (dto : CreateEvidenceDto) (s₁ s₂ : Db) : Prop
    extends Inserted R s ctx dto s₁ s₂ where
  engagement : ∃ s₀ e, R s s₀ ∧ R s₀ s₁ ∧ ctx.findById s₀.engagements dto.engagementId (·.deletedAt.isNone) = some e
  workpaper : WorkpaperFound R s ctx dto.engagementId dto.workpaperId s₁

/-- A changed record: the record `before` was read, the record `e` is changed. -/
structure Updated (R : Db → Db → Prop) (s : Db) (ctx : Ctx) (id : Uuid) (dto : UpdateEvidenceDto)
    (before e e' : Evidence) (s₁ s₂ : Db) : Prop where
  since : R s s₁
  read : ∃ s₀, R s s₀ ∧ R s₀ s₁ ∧ ctx.findById s₀.evidence id (fun _ => true) = some before
  workpaper : WorkpaperFound R s ctx before.engagementId dto.workpaperId s₁
  document : DocumentFound R s ctx dto.documentId s₁
  row : s₁.evidence.find id = some e
  sees : ctx.sees e = true
  change : dto.apply e = .ok e'
  rows : ∀ j, s₂.evidence.find j = if j = id then some e' else s₁.evidence.find j
  rest : s₂ = { s₁ with evidence := s₂.evidence }

/-- A call of a request. -/
inductive Call (R : Db → Db → Prop) (s : Db) : Request → Db → Db → Prop where
  | aside {r s₁ s₂} (h : Aside s₁ s₂) : Call R s r s₁ s₂
  | create {ctx dto s₁ s₂} (h : Created R s ctx dto s₁ s₂) : Call R s (.create ctx dto) s₁ s₂
  | update {ctx id dto before e e' s₁ s₂} (h : Updated R s ctx id dto before e e' s₁ s₂) :
    Call R s (.update ctx id dto) s₁ s₂

/-! ### The writes -/

theorem insertEvidence_ok {id : Uuid} {e : Evidence} {s s' : Db} {a : WithId Evidence}
    (h : (insertEvidence id e).run s = (.ok a, s')) :
    a = (id, e) ∧ constrained s id e = .ok () ∧ s.evidence.find id = none ∧
      (∀ j, s'.evidence.find j = if j = id then some e else s.evidence.find j) ∧
      s' = { s with evidence := s'.evidence } := by
  obtain ⟨_, hc, h⟩ := Prog.bind_eq_ok.mp (Prog.run_call_ok.mp h)
  obtain ⟨t, ht, h⟩ := Prog.bind_eq_ok.mp h
  cases h
  obtain ⟨hfresh, hrow⟩ := insertRow_ok ht
  exact ⟨rfl, hc, hfresh, hrow, rfl⟩

theorem updateEvidence_ok {ctx : Ctx} {id : Uuid} {f : Evidence → Except HttpError Evidence} {s s' : Db}
    {v : EvidenceView} (h : (updateEvidence ctx id f).run s = (.ok v, s')) :
    ∃ e e', s.evidence.find id = some e ∧ ctx.sees e = true ∧ f e = .ok e' ∧ v = view s' (id, e') ∧
      (∀ j, s'.evidence.find j = if j = id then some e' else s.evidence.find j) ∧
      s' = { s with evidence := s'.evidence } := by
  obtain ⟨⟨e', t⟩, ht, h⟩ := Prog.bind_eq_ok.mp (Prog.run_call_ok.mp h)
  obtain ⟨_, -, h⟩ := Prog.bind_eq_ok.mp h
  cases h
  obtain ⟨e, hfind, hsees, hf, hrows⟩ := updateRow_ok ht
  exact ⟨e, e', hfind, hsees, hf, rfl, hrows, rfl⟩

/-! ### The methods -/

section Methods

variable {R G : Db → Db → Prop} (hR : Interference R)

include hR

theorem assertDocument_meets (hG : ∀ s, G s s) (ctx : Ctx) (documentId : Field Uuid) (s : Db) :
    (assertDocument ctx documentId).Meets R G
      (fun r s' => R s s' ∧ ((∃ u, r = .ok u) → DocumentFound R s ctx documentId s')) s := by
  unfold assertDocument DocumentFound
  cases documentId.orNull with
  | none => exact ⟨hR.refl s, fun _ d h => by cases h⟩
  | some d =>
    dsimp only
    rw [Prog.meets_read_bind]
    refine fun s' hs' => ⟨hG s', ?_⟩
    split
    · exact ⟨hs', fun ⟨_, h⟩ => by cases h⟩
    · rename_i doc hdoc
      rw [Prog.meets_ite]
      split
      · exact ⟨hs', fun ⟨_, h⟩ => by cases h⟩
      · rename_i hshared
        refine ⟨hs', fun _ d' hd' => ?_⟩
        cases hd'
        exact ⟨s', doc, hs', hR.refl s', hdoc, hshared⟩

theorem assertUnlocked_meets (hG : ∀ s, G s s) (ctx : Ctx) (engagementId : Uuid) (workpaperId : Field Uuid) (s : Db) :
    (assertUnlocked ctx engagementId workpaperId).Meets R G
      (fun r s' => R s s' ∧ ((∃ u, r = .ok u) → WorkpaperFound R s ctx engagementId workpaperId s')) s := by
  unfold assertUnlocked WorkpaperFound
  cases workpaperId.orNull with
  | none => exact ⟨hR.refl s, fun _ i h => by cases h⟩
  | some i =>
    dsimp only
    rw [Prog.meets_read_bind]
    refine fun s' hs' => ⟨hG s', ?_⟩
    split
    · exact ⟨hs', fun ⟨_, h⟩ => by cases h⟩
    · rename_i w hw
      rw [Prog.meets_ite]
      split
      · exact ⟨hs', fun ⟨_, h⟩ => by cases h⟩
      · refine ⟨hs', fun _ i' hi' => ?_⟩
        cases hi'
        exact ⟨s', w, hs', hR.refl s', hw⟩

omit hR in
theorem workpaperFound_iff {s s₁ : Db} {ctx : Ctx} {engagementId : Uuid} {workpaperId : Field Uuid} :
    WorkpaperFound R s ctx engagementId workpaperId s₁ ↔ Found ctx Db.workpapers workpaperId
      (fun _ w => w.engagementId = engagementId && w.deletedAt.isNone) R s s₁ := Iff.rfl

theorem assertWorkpaperOf_meets (hG : ∀ s, G s s) (ctx : Ctx) (engagementId : Uuid) (workpaperId : Field Uuid)
    (s : Db) : (assertWorkpaperOf ctx engagementId workpaperId).Meets R G
      (fun r s' => R s s' ∧ ((∃ u, r = .ok u) → WorkpaperFound R s ctx engagementId workpaperId s')) s := by
  simp only [workpaperFound_iff]
  exact assertRelated_meets hR.refl hG _ s

/-- The loop: each attempt reads and then inserts, and a failed insertion changes nothing. -/
theorem insertNumbered_meets (ctx : Ctx) (dto : CreateEvidenceDto) {s : Db} (hG : ∀ s, G s s)
    (hinsert : ∀ s₁ s₂, Inserted R s ctx dto s₁ s₂ → G s₁ s₂) (left : ℕ) :
    ∀ s₀, R s s₀ → DocumentFound R s ctx dto.documentId s₀ →
      (insertNumbered ctx dto left).Meets R G (fun _ _ => True) s₀ := by
  induction left with
  | zero => exact fun _ _ _ => trivial
  | succ left ih =>
    intro s₀ h₀ hdoc
    unfold insertNumbered
    rw [Prog.meets_read_bind]
    refine fun s₁ h₁ => ⟨hG s₁, ?_⟩
    rw [Prog.meets_catching]
    refine Prog.meets_of_call fun s₂ h₂ r s₃ hrun => ?_
    have hsince : R s s₂ := hR.trans h₀ (hR.trans h₁ h₂)
    have hdoc₂ : DocumentFound R s ctx dto.documentId s₂ := fun d hd => by
      obtain ⟨sd, doc, hsd, hds, hfound⟩ := hdoc d hd
      exact ⟨sd, doc, hsd, hR.trans hds (hR.trans h₁ h₂), hfound⟩
    rcases r with e | a
    · have : s₃ = s₂ := Prog.atomic_call _ _ _ _ hrun
      subst this
      refine ⟨hG s₃, ?_⟩
      dsimp only
      rw [Prog.meets_ite]
      split
      · exact ih s₃ hsince hdoc₂
      · trivial
    · obtain ⟨-, hc, hfresh, hrows, hrest⟩ := insertEvidence_ok hrun
      exact ⟨hinsert s₂ s₃ ⟨hsince, hdoc₂, ⟨_, _, hfresh, hc, hrows⟩, hrest⟩, trivial⟩

/-- A program that changes nothing that matters, after which nothing that matters happens. -/
theorem meets_aside {α : Type} {p : Service α} (hp : p.Within Aside) (hG : ∀ a b, Aside a b → G a b) (s : Db) :
    p.Meets R G (fun _ _ => True) s :=
  (hp.meets hG (fun _ _ => hR.aside) hR.refl (fun _ _ _ => hR.trans) s).mono fun _ _ _ => trivial

omit hR in
theorem adoptDocument_aside (ctx : Ctx) (documentId : Field Uuid) (id : Uuid) :
    (adoptDocument ctx documentId id).Within Aside := by
  unfold adoptDocument
  split
  · exact Prog.within_pure _
  · exact Prog.within_write fun db => ⟨rfl, documentsKept_modify _ _ _ _⟩

/-- From the checks of the engagement and the workpaper on. -/
theorem createUnlocked_meets (ctx : Ctx) (dto : CreateEvidenceDto) (s : Db) :
    (createUnlocked ctx dto).Meets R (fun a b => Aside a b ∨ Inserted R s ctx dto a b) (fun _ _ => True) s := by
  have hG : ∀ s', Aside s' s' ∨ Inserted R s ctx dto s' s' := fun s' => .inl (Aside.refl s')
  unfold createUnlocked
  rw [Prog.meets_bind]
  refine (assertDocument_meets hR hG ctx dto.documentId s).mono ?_
  rintro (e | u) s₁ ⟨h₁, hdoc⟩
  · trivial
  dsimp only
  rw [Prog.meets_bind]
  refine (insertNumbered_meets hR ctx dto hG (fun _ _ => .inr) 5 s₁ h₁ (hdoc ⟨u, rfl⟩)).mono ?_
  rintro (e | created) s₂ -
  · trivial
  dsimp only
  rw [Prog.meets_bind]
  refine (meets_aside hR (adoptDocument_aside ctx dto.documentId created.1) (fun _ _ => .inl) s₂).mono ?_
  rintro (e | _) s₃ -
  · trivial
  dsimp only
  rw [Prog.meets_bind]
  refine (meets_aside hR ((auditRecord_quiet ctx _ _ _).mono fun _ _ => Aside.of_quiet) (fun _ _ => .inl) s₃).mono ?_
  rintro (e | _) s₄ -
  · trivial
  dsimp only
  rw [Prog.meets_read_bind]
  refine fun s' _ => ⟨hG s', ?_⟩
  split <;> trivial

theorem Inserted.earlier {ctx : Ctx} {dto : CreateEvidenceDto} {s s₀ s₁ s₂ : Db} (hs : R s s₀)
    (h : Inserted R s₀ ctx dto s₁ s₂) : Inserted R s ctx dto s₁ s₂ where
  since := hR.trans hs h.since
  document d hd := by
    obtain ⟨sd, doc, h₀, h₁, hfound⟩ := h.document d hd
    exact ⟨sd, doc, hR.trans hs h₀, h₁, hfound⟩
  row := h.row
  rest := h.rest

theorem create_meets (ctx : Ctx) (dto : CreateEvidenceDto) (s : Db) :
    (create ctx dto).Meets R (Call R s (.create ctx dto)) (fun _ _ => True) s := by
  have hG : ∀ s', Call R s (.create ctx dto) s' s' := fun s' => .aside (Aside.refl s')
  unfold create
  rw [Prog.meets_read_bind]
  refine fun s₀ h₀ => ⟨hG s₀, ?_⟩
  rw [Prog.meets_ite]
  split
  · trivial
  rename_i hsome
  obtain ⟨e, he⟩ := Option.ne_none_iff_exists'.mp (by simpa using hsome)
  rw [Prog.meets_bind]
  refine (assertUnlocked_meets hR hG ctx dto.engagementId dto.workpaperId s₀).mono ?_
  rintro (e' | u) s₁ ⟨h₁, hwp⟩
  · trivial
  refine (createUnlocked_meets hR ctx dto s₁).mono_step ?_
  rintro a b (haside | hins)
  · exact .aside haside
  · refine .create ⟨hins.earlier hR (hR.trans h₀ h₁), ⟨s₀, e, h₀, hR.trans h₁ hins.since, he⟩, fun i hi => ?_⟩
    obtain ⟨sw, w, h₂, h₃, hw⟩ := hwp ⟨u, rfl⟩ i hi
    exact ⟨sw, w, hR.trans h₀ h₂, hR.trans h₃ hins.since, hw⟩

theorem update_meets (ctx : Ctx) (id : Uuid) (dto : UpdateEvidenceDto) (s : Db) :
    (update ctx id dto).Meets R (Call R s (.update ctx id dto)) (fun _ _ => True) s := by
  have hG : ∀ s', Call R s (.update ctx id dto) s' s' := fun s' => .aside (Aside.refl s')
  unfold update
  rw [Prog.meets_read_bind]
  refine fun s₀ h₀ => ⟨hG s₀, ?_⟩
  split
  · trivial
  rename_i before hbefore
  rw [Prog.meets_bind]
  refine (assertWorkpaperOf_meets hR hG ctx before.engagementId dto.workpaperId s₀).mono ?_
  rintro (e | u) s₁ ⟨h₁, hwp⟩
  · trivial
  dsimp only
  rw [Prog.meets_bind]
  refine (assertDocument_meets hR hG ctx dto.documentId s₁).mono ?_
  rintro (e | u') s₂ ⟨h₂, hdoc⟩
  · trivial
  dsimp only
  rw [Prog.meets_bind]
  refine Prog.meets_of_call fun s₃ h₃ r s₄ hrun => ?_
  rcases r with e | v
  · have : s₄ = s₃ := Prog.atomic_call _ _ _ _ hrun
    subst this
    exact ⟨hG s₄, trivial⟩
  obtain ⟨e, e', hfind, hsees, hchange, -, hrows, hrest⟩ := updateEvidence_ok hrun
  have h₁₃ : R s₁ s₃ := hR.trans h₂ h₃
  refine ⟨.update ⟨hR.trans h₀ (hR.trans h₁ h₁₃), ⟨s₀, h₀, hR.trans h₁ h₁₃, hbefore⟩, fun i hi => ?_, fun d hd => ?_,
    hfind, hsees, hchange, hrows, hrest⟩, ?_⟩
  · obtain ⟨sw, w, hsw, hw₁, hw⟩ := hwp ⟨u, rfl⟩ i hi
    exact ⟨sw, w, hR.trans h₀ hsw, hR.trans hw₁ h₁₃, hw⟩
  · obtain ⟨sd, doc, hsd, hd₂, hd⟩ := hdoc ⟨u', rfl⟩ d hd
    exact ⟨sd, doc, hR.trans h₀ (hR.trans h₁ hsd), hR.trans hd₂ h₃, hd⟩
  · refine meets_aside hR ?_ (fun _ _ => .aside) s₄
    exact ((auditRecord_quiet ctx _ _ _).mono fun _ _ => Aside.of_quiet).bind fun _ => Prog.within_pure _

/-- **What a request does**, whatever comes between its calls. -/
theorem serve_meets (r : Request) (s : Db) : (serve r).Meets R (Call R s r) (fun _ _ => True) s := by
  unfold serve
  rw [Prog.meets_ite]
  split
  · trivial
  cases r with
  | create ctx dto => exact create_meets hR ctx dto s
  | update ctx id dto => exact update_meets hR ctx id dto s

end Methods

end AuditSphere.Evidence
