import AuditSphere.Db.Numbered
import AuditSphere.Evidence.Requests

/-!
# The references of evidence records

The records of an engagement are numbered `E-001`, `E-002`, ... (`evidenceNumbers`). `create`
checks first and then numbers a record (`create_allocates`). A record is created with the
reference that follows the highest one (`created_issued`), and it is created wherever that
reference is free and nothing else stands in the way (`create_accepted`).
-/

namespace AuditSphere.Evidence

open Prisma Theory Shared

/-- `E-001`, `E-002`, ... -/
def evidenceNumbers : Numbering String 1000 :=
  textNumbering "E-" 3 1000 three_digits thousand_eq nextEvidenceReference rfl fun n => by
    simp [nextEvidenceReference, referenceNumber_pad 'E' "E-" rfl]

/-- The references of the records of an engagement. -/
def evidenceReferences (s : Db) (engagementId : Uuid) : Uuid → Option String :=
  references s.evidence (fun e => e.engagementId = engagementId) Evidence.reference

/-- The highest of them. -/
def highestReference (s : Db) (engagementId : Uuid) : Option String :=
  greatest ((s.evidence.rows fun _ e => e.engagementId = engagementId).map fun e => e.2.reference)

theorem highestReference_highest (s : Db) (engagementId : Uuid) :
    Highest (present (evidenceReferences s engagementId)) (highestReference s engagementId) :=
  highest_greatest fun _ _ _ => rfl

/-- A query of the tenant of the engagement finds the highest reference. -/
theorem latestReference_eq {s : Db} {ctx : Ctx} {engagementId : Uuid} {n : ℕ}
    (hof : OfEngagement s s.evidence (fun e => e.engagementId = engagementId) engagementId)
    (hread : ∃ e, ctx.findById s.engagements engagementId (·.deletedAt.isNone) = some e)
    (hfilled : present (evidenceReferences s engagementId) = evidenceNumbers.filled n) :
    latestReference ctx s engagementId = highestReference s engagementId := by
  unfold latestReference highestReference
  rw [findMany_stem (p := fun e : Evidence => e.engagementId = engagementId)]
  intro j e hfind hp
  refine ⟨hof.sees hread hfind hp, ?_⟩
  exact startsWith_of_filled (fun k => startsWith_append "E-" (pad k 3)) hfilled hfind hp

/-! ### What a creation does -/

/-- An attempt to insert a record, numbered after the latest one. -/
def attempted (ctx : Ctx) (dto : CreateEvidenceDto) (attempt : ℕ) (latest : Option String) : Service (WithId Evidence) :=
  insertEvidence (ctx.uuid attempt) (newEvidence ctx dto (nextEvidenceReference latest))

/-- The loop numbers records. -/
theorem insertNumbered_numbered (ctx : Ctx) (dto : CreateEvidenceDto) :
    Numbered (fun db => latestReference ctx db dto.engagementId) (attempted ctx dto) (insertNumbered ctx dto) where
  exhausted := ⟨_, rfl⟩
  attempt _ := rfl
  atomic _ _ := Prog.atomic_call _

theorem assertDocument_readOnly (ctx : Ctx) (documentId : Field Uuid) : (assertDocument ctx documentId).ReadOnly := by
  unfold assertDocument
  split
  · exact Prog.readOnly_pure _
  · refine (Prog.readOnly_read _).bind fun doc => ?_
    split
    · exact Prog.readOnly_throw _
    · exact Prog.ReadOnly.ite (Prog.readOnly_throw _) (Prog.readOnly_pure _)

theorem assertUnlocked_readOnly (ctx : Ctx) (engagementId : Uuid) (workpaperId : Field Uuid) :
    (assertUnlocked ctx engagementId workpaperId).ReadOnly := by
  unfold assertUnlocked
  split
  · exact Prog.readOnly_pure _
  · refine (Prog.readOnly_read _).bind fun wp => ?_
    split
    · exact Prog.readOnly_throw _
    · exact Prog.ReadOnly.ite (Prog.readOnly_throw _) (Prog.readOnly_pure _)

theorem Aside.trans {a b c : Db} (h : Aside a b) (h' : Aside b c) : Aside a c :=
  ⟨by rw [h'.rest, h.rest], fun i => (h'.documents i).trans (h.documents i)⟩

/-- What follows the loop succeeds, and changes only what is aside. -/
theorem createUnlocked_rest (ctx : Ctx) (dto : CreateEvidenceDto) : ∃ rest : WithId Evidence → Service EvidenceView,
    createUnlocked ctx dto = (do
      assertDocument ctx dto.documentId
      let created ← insertNumbered ctx dto 5
      rest created) ∧
    ∀ s attempt latest created s₂, (attempted ctx dto attempt latest).run s = (.ok created, s₂) →
      (rest created).Succeeds s₂ ∧ Aside s₂ ((rest created).run s₂).2 := by
  refine ⟨_, rfl, fun s attempt latest created s₂ hinsert => ?_⟩
  obtain ⟨rfl, -, -, hrows, -⟩ := insertEvidence_ok hinsert
  obtain ⟨_, s₃, hadopt, h₃⟩ := (adoptDocument_aside ctx dto.documentId (ctx.uuid attempt)).run Aside.refl
    (fun _ _ _ => Aside.trans) s₂
  obtain ⟨_, s₄, haudit, h₄⟩ := ((auditRecord_quiet ctx "evidence.created" "Evidence" (ctx.uuid attempt)).mono
    fun _ _ => Aside.of_quiet).run Aside.refl (fun _ _ _ => Aside.trans) s₃
  -- the record is found
  have hfound : ctx.findById s₄.evidence (ctx.uuid attempt) (fun _ => true) =
      some (newEvidence ctx dto (nextEvidenceReference latest)) := by
    rw [(h₃.trans h₄).rest]
    exact Ctx.findById_eq_some.mpr ⟨(hrows _).trans (if_pos rfl), (Ctx.sees_iff_tenant rfl).mpr rfl, rfl⟩
  unfold Prog.Succeeds
  rw [Prog.run_bind, hadopt]
  dsimp only
  rw [Prog.run_bind, haudit]
  dsimp only
  rw [Prog.run_bind, Prog.run_read]
  dsimp only
  rw [hfound]
  exact ⟨⟨_, _, rfl⟩, h₃.trans h₄⟩

/-- **Creation** checks first, and then numbers a record. -/
theorem create_allocates (ctx : Ctx) (dto : CreateEvidenceDto) :
    Allocates (fun db => latestReference ctx db dto.engagementId) (attempted ctx dto) Aside (create ctx dto) := by
  obtain ⟨rest, hunlocked, hrest⟩ := createUnlocked_rest ctx dto
  unfold create
  rw [hunlocked]
  refine allocates_bind (Prog.readOnly_read _) fun engagement => ?_
  refine Allocates.ite (allocates_throw _) ?_
  refine allocates_bind (assertUnlocked_readOnly ctx _ _) fun _ => ?_
  refine allocates_bind (assertDocument_readOnly ctx _) fun _ => ?_
  exact (insertNumbered_numbered ctx dto).allocates hrest

theorem serve_allocates (ctx : Ctx) (dto : CreateEvidenceDto) :
    Allocates (fun db => latestReference ctx db dto.engagementId) (attempted ctx dto) Aside (serve (.create ctx dto)) :=
  Allocates.ite (allocates_throw _) (create_allocates ctx dto)

/-- A new record: the number follows the latest one, and the row is there afterwards. -/
structure Recorded (s : Db) (ctx : Ctx) (dto : CreateEvidenceDto) (id : Uuid) (e : Evidence) (s' : Db) : Prop where
  row : e = newEvidence ctx dto (nextEvidenceReference (latestReference ctx s dto.engagementId))
  engagement : ∃ engagement, ctx.findById s.engagements dto.engagementId (·.deletedAt.isNone) = some engagement
  fresh : s.evidence.find id = none
  admitted : constrained s id e = .ok ()
  rows : ∀ j, s'.evidence.find j = if j = id then some e else s.evidence.find j

/-- A request for a new record changes nothing, or it succeeds and the record is new. -/
theorem create_effect (s : Db) (ctx : Ctx) (dto : CreateEvidenceDto) :
    (¬Accepted serve s (.create ctx dto) ∧ after serve s (.create ctx dto) = s) ∨
      (Accepted serve s (.create ctx dto) ∧ ∃ id e, Recorded s ctx dto id e (after serve s (.create ctx dto))) := by
  rcases serve_allocates ctx dto s with hfail | ⟨hacc, attempt, a, s₂, hinsert, haside⟩
  · exact .inl hfail
  obtain ⟨-, hc, hfresh, hrows, -⟩ := insertEvidence_ok hinsert
  refine .inr ⟨hacc, ctx.uuid attempt,
    newEvidence ctx dto (nextEvidenceReference (latestReference ctx s dto.engagementId)), rfl, ?_, hfresh, hc, fun j => ?_⟩
  · obtain ⟨v, s', hrun⟩ := hacc
    unfold serve create at hrun
    rw [Prog.run_guard_ok] at hrun
    obtain ⟨engagement, s₁, hread, hrun⟩ := Prog.run_bind_ok.mp hrun.2
    cases hread
    rw [Prog.run_guard_ok, Option.isNone_iff_eq_none] at hrun
    exact Option.ne_none_iff_exists'.mp hrun.1
  · unfold after
    rw [haside.rest]
    exact hrows j

/-- What a record keeps while it is edited. -/
def SameRecord (e e' : Evidence) : Prop :=
  e'.tenantId = e.tenantId ∧ e'.engagementId = e.engagementId ∧ e'.reference = e.reference

theorem apply_same {dto : UpdateEvidenceDto} {e e' : Evidence} (h : dto.apply e = .ok e') : SameRecord e e' := by
  unfold UpdateEvidenceDto.apply at h
  split at h
  · cases h
    exact ⟨rfl, rfl, rfl⟩
  · cases h

theorem Interference.of_aside : Interference Aside := ⟨Aside.refl, Aside.trans, id⟩

/-- An edit keeps what records belong to. -/
theorem update_same (s : Db) (ctx : Ctx) (id : Uuid) (dto : UpdateEvidenceDto) (j : Uuid) :
    Option.Rel SameRecord (s.evidence.find j) ((after serve s (.update ctx id dto)).evidence.find j) := by
  refine (serve_meets Interference.of_aside (.update ctx id dto) s).run_keeps Aside.refl
    (I := fun s' => Option.Rel SameRecord (s.evidence.find j) (s'.evidence.find j)) ?_ ?_
  · intro a b ha hcall
    cases hcall with
    | aside h =>
      rw [h.rest]
      exact ha
    | @update _ _ _ before e e' _ _ h =>
      rw [h.rows]
      split
      · rename_i hj
        subst hj
        rw [h.row] at ha
        generalize s.evidence.find j = row at ha
        cases ha with
        | some hsame =>
          obtain ⟨htenant, hengagement, hreference⟩ := apply_same h.change
          exact .some ⟨htenant.trans hsame.1, hengagement.trans hsame.2.1, hreference.trans hsame.2.2⟩
      · exact ha
  · cases s.evidence.find j with
    | none => exact .none
    | some e => exact .some ⟨rfl, rfl, rfl⟩

/-- What a request for evidence writes. -/
theorem serve_write (s : Db) (r : Request) : ∃ evidence documents auditTrail notifications,
    after serve s r = { s with evidence, documents, auditTrail, notifications } := by
  refine (serve_meets Interference.of_aside r s).run_keeps Aside.refl (I := fun s' => ∃ evidence documents auditTrail
    notifications, s' = { s with evidence, documents, auditTrail, notifications }) ?_ ⟨_, _, _, _, rfl⟩
  rintro a b ⟨_, _, _, _, rfl⟩ hcall
  cases hcall with
  | aside h => exact ⟨_, _, _, _, h.rest⟩
  | create h => exact ⟨_, _, _, _, h.rest⟩
  | update h => exact ⟨_, _, _, _, h.rest⟩

/-! ### References -/

/-- The request creates a record of an engagement. -/
def CreatesOn (engagementId : Uuid) (s : Db) (r : Request) : Prop :=
  (∃ ctx dto, r = .create ctx dto ∧ dto.engagementId = engagementId) ∧ Accepted serve s r

/-- A request that creates no record of the engagement keeps the references of its records. -/
theorem references_kept {s : Db} {r : Request} {engagementId : Uuid} (h : ¬CreatesOn engagementId s r) :
    evidenceReferences (after serve s r) engagementId = evidenceReferences s engagementId := by
  cases r with
  | create ctx dto =>
    rcases create_effect s ctx dto with ⟨-, hsame⟩ | ⟨hacc, id, e, hrecorded⟩
    · rw [hsame]
    · have hother : dto.engagementId ≠ engagementId := fun hid => h ⟨⟨ctx, dto, rfl, hid⟩, hacc⟩
      refine references_insert_other hrecorded.fresh hrecorded.rows ?_
      rw [hrecorded.row]
      simp [newEvidence, hother]
  | update ctx id dto =>
    refine references_congr fun j => ?_
    have hsame := update_same s ctx id dto j
    generalize s.evidence.find j = row at hsame
    generalize (after serve s (.update ctx id dto)).evidence.find j = row' at hsame
    cases hsame with
    | none => exact .none
    | some hsame => exact .some ⟨by rw [hsame.2.1], hsame.2.2⟩

section Create

variable {s : Db} {ctx : Ctx} {dto : CreateEvidenceDto}

/-- **A new record** has the reference that follows the highest one, which was free. -/
theorem created_issued {n : ℕ}
    (hof : OfEngagement s s.evidence (fun e => e.engagementId = dto.engagementId) dto.engagementId)
    (hfilled : present (evidenceReferences s dto.engagementId) = evidenceNumbers.filled n)
    (hacc : Accepted serve s (.create ctx dto)) :
    evidenceNumbers.next (highestReference s dto.engagementId) ∉ present (evidenceReferences s dto.engagementId) ∧
      ∃ j, Issued (evidenceReferences s dto.engagementId) j (evidenceNumbers.next (highestReference s dto.engagementId))
        (evidenceReferences (after serve s (.create ctx dto)) dto.engagementId) := by
  rcases create_effect s ctx dto with ⟨hfail, -⟩ | ⟨-, id, e, hrecorded⟩
  · exact absurd hacc hfail
  have hrow := hrecorded.row
  rw [latestReference_eq hof hrecorded.engagement hfilled] at hrow
  have hnext : evidenceNumbers.next (highestReference s dto.engagementId) = e.reference := by
    rw [hrow]
    rfl
  rw [hnext]
  refine ⟨(unique_iff hrecorded.fresh fun _ _ => rfl).mp ?_, id,
    references_insert hrecorded.fresh hrecorded.rows (by rw [hrow]; simp [newEvidence])⟩
  have hadmitted := hrecorded.admitted
  unfold constrained at hadmitted
  split at hadmitted
  · cases hadmitted
  · rename_i hunique
    rw [hrow] at hunique ⊢
    exact (Bool.not_eq_true _).mp hunique

/-- A workpaper of the engagement that is not locked passes the check. -/
theorem assertUnlocked_run {engagementId : Uuid} {workpaperId : Field Uuid}
    (h : ∀ i, workpaperId.orNull = some i → ∃ w, ctx.findById s.workpapers i
      (fun w => w.engagementId = engagementId && w.deletedAt.isNone) = some w ∧ w.isLocked = false) :
    (assertUnlocked ctx engagementId workpaperId).run s = (.ok (), s) := by
  unfold assertUnlocked
  cases hi : workpaperId.orNull with
  | none => rfl
  | some i =>
    obtain ⟨w, hw, hunlocked⟩ := h i hi
    dsimp only
    rw [Prog.run_bind, Prog.run_read]
    dsimp only
    rw [hw]
    dsimp only
    rw [hunlocked]
    rfl

/-- A document that is shared passes the check. -/
theorem assertDocument_run {documentId : Field Uuid}
    (h : ∀ d, documentId.orNull = some d → ∃ doc, ctx.findById s.documents d (·.deletedAt.isNone) = some doc ∧
      doc.ownerType ≠ some "AiContext") :
    (assertDocument ctx documentId).run s = (.ok (), s) := by
  unfold assertDocument
  cases hd : documentId.orNull with
  | none => rfl
  | some d =>
    obtain ⟨doc, hdoc, hshared⟩ := h d hd
    dsimp only
    rw [Prog.run_bind, Prog.run_read]
    dsimp only
    rw [hdoc]
    dsimp only
    rw [if_neg hshared]
    rfl

/-- A request for a new record in which nothing but its reference may be in the way. -/
structure Admissible (s : Db) (ctx : Ctx) (dto : CreateEvidenceDto) : Prop where
  permitted : ctx.hasPermission .workpaperPrepare = true ∨ ctx.hasPermission .documentUpload = true
  engagement : ∃ engagement, ctx.findById s.engagements dto.engagementId (·.deletedAt.isNone) = some engagement
  workpaper : ∀ i, dto.workpaperId.orNull = some i → ∃ w, ctx.findById s.workpapers i
    (fun w => w.engagementId = dto.engagementId && w.deletedAt.isNone) = some w ∧ w.isLocked = false
  document : ∀ d, dto.documentId.orNull = some d → ∃ doc, ctx.findById s.documents d (·.deletedAt.isNone) = some doc ∧
    doc.ownerType ≠ some "AiContext"
  user : refersTo s.users (some ctx.userId) = true
  fresh : s.evidence.find (ctx.uuid 0) = none

/-- **A record is created** if its reference is free. -/
theorem create_accepted (h : Admissible s ctx dto)
    (hfree : nextEvidenceReference (latestReference ctx s dto.engagementId) ∉
      present (evidenceReferences s dto.engagementId)) :
    Accepted serve s (.create ctx dto) := by
  obtain ⟨engagement, hengagement⟩ := h.engagement
  -- the first attempt inserts the record
  have hadmitted : constrained s (ctx.uuid 0) (newEvidence ctx dto
      (nextEvidenceReference (latestReference ctx s dto.engagementId))) = .ok () := by
    unfold constrained
    rw [if_neg, if_pos]
    · have hon : refersTo s.engagements (some dto.engagementId) = true :=
        refersTo_iff.mpr fun _ hi => ⟨engagement, Option.some.inj hi ▸ (Ctx.findById_eq_some.mp hengagement).1⟩
      have hworkpaper : refersTo s.workpapers dto.workpaperId.orNull = true := by
        refine refersTo_iff.mpr fun i hi => ?_
        obtain ⟨w, hw, -⟩ := h.workpaper i hi
        exact ⟨w, (Ctx.findById_eq_some.mp hw).1⟩
      have hdocument : refersTo s.documents dto.documentId.orNull = true := by
        refine refersTo_iff.mpr fun d hd => ?_
        obtain ⟨doc, hdoc, -⟩ := h.document d hd
        exact ⟨doc, (Ctx.findById_eq_some.mp hdoc).1⟩
      simp [newEvidence, hon, hworkpaper, hdocument, h.user]
    · exact (Bool.not_eq_true _).mpr ((unique_iff h.fresh fun _ _ => rfl).mpr hfree)
  obtain ⟨evidence, hevidence⟩ := insertRow_fresh h.fresh (newEvidence ctx dto
    (nextEvidenceReference (latestReference ctx s dto.engagementId)))
  have hinsert : (attempted ctx dto 0 (latestReference ctx s dto.engagementId)).run s =
      (.ok (ctx.uuid 0, newEvidence ctx dto (nextEvidenceReference (latestReference ctx s dto.engagementId))),
        { s with evidence }) := by
    refine Prog.run_call_ok.mpr ?_
    rw [hadmitted, hevidence]
    rfl
  obtain ⟨rest, hunlocked, hrest⟩ := createUnlocked_rest ctx dto
  have hcreate : (create ctx dto).Succeeds s := by
    unfold create
    rw [hunlocked]
    refine Prog.succeeds_bind (Prog.run_read _ s) ?_
    rw [hengagement]
    refine Prog.succeeds_guard (by simp) ?_
    refine Prog.succeeds_bind (assertUnlocked_run h.workpaper) ?_
    refine Prog.succeeds_bind (assertDocument_run h.document) ?_
    exact Prog.succeeds_bind ((insertNumbered_numbered ctx dto).run_first hinsert) (hrest _ _ _ _ _ hinsert).1
  refine Prog.succeeds_guard ?_ hcreate
  rcases h.permitted with hpermitted | hpermitted <;> simp [Request.permissions, Request.ctx, hpermitted]

end Create

end AuditSphere.Evidence
