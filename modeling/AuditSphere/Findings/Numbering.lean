import AuditSphere.Db.Numbered
import AuditSphere.Findings.Agreement

/-!
# The references of findings

The findings of an engagement are numbered `F-01`, `F-02`, ... (`findingNumbers`). A finding
is created with the reference that follows the highest one (`created_issued`), and it is
created wherever that reference is free and nothing else stands in the way
(`create_accepted`). No other operation touches a reference (`references_kept`).
-/

namespace AuditSphere.Findings

open Prisma Theory Shared

/-- `F-01`, `F-02`, ... -/
def findingNumbers : Numbering String 100 :=
  textNumbering "F-" 2 100 Nat.zero_lt_two hundred_eq nextFindingReference rfl fun n => by
    simp [nextFindingReference, referenceNumber_pad 'F' "F-" rfl]

/-- The references of the findings of an engagement. -/
def findingReferences (s : Db) (engagementId : Uuid) : Uuid → Option String :=
  references s.findings (fun f => f.engagementId = engagementId) Finding.reference

/-- The highest of them. -/
def highestReference (s : Db) (engagementId : Uuid) : Option String :=
  greatest ((s.findings.rows fun _ f => f.engagementId = engagementId).map fun f => f.2.reference)

theorem highestReference_highest (s : Db) (engagementId : Uuid) :
    Highest (present (findingReferences s engagementId)) (highestReference s engagementId) :=
  highest_greatest fun _ _ _ => rfl

/-- A query of the tenant of the engagement finds the highest reference. -/
theorem latestReference_eq {s : Db} {ctx : Ctx} {engagementId : Uuid} {n : ℕ}
    (hof : OfEngagement s s.findings (fun f => f.engagementId = engagementId) engagementId)
    (hread : ∃ e, ctx.findById s.engagements engagementId (·.deletedAt.isNone) = some e)
    (hfilled : present (findingReferences s engagementId) = findingNumbers.filled n) :
    latestReference ctx s engagementId = highestReference s engagementId := by
  unfold latestReference highestReference
  rw [findMany_stem (p := fun f : Finding => f.engagementId = engagementId)]
  intro j f hfind hp
  refine ⟨hof.sees hread hfind hp, ?_⟩
  exact startsWith_of_filled (fun k => startsWith_append "F-" (pad k 2)) hfilled hfind hp

/-! ### Operations that create no finding -/

/-- The operation creates a finding on an engagement. -/
def CreatesOn (engagementId : Uuid) (s : Db) (o : Operation) : Prop :=
  (∃ ctx dto, o = .edit (.create ctx dto) ∧ dto.engagementId = engagementId) ∧ Accepted perform s o

theorem apply_reference {dto : UpdateFindingDto} {f f' : Finding} (h : dto.apply f = .ok f') :
    f'.reference = f.reference := by
  unfold UpdateFindingDto.apply at h
  split at h
  · cases h
    rfl
  · cases h

/-- A row that an operation writes keeps its engagement and its reference. -/
theorem references_kept {s : Db} {o : Operation} {engagementId : Uuid} (h : ¬CreatesOn engagementId s o) :
    findingReferences (after perform s o) engagementId = findingReferences s engagementId := by
  funext j
  unfold findingReferences references
  have hsame : ∀ {f f' : Finding}, s.findings.find j = some f → f'.engagementId = f.engagementId →
      f'.reference = f.reference → ((some f').filter fun f => f.engagementId = engagementId).map Finding.reference =
        ((s.findings.find j).filter fun f => f.engagementId = engagementId).map Finding.reference := by
    intro f f' hf hengagement hreference
    rw [hf, Option.filter_some, Option.filter_some, hengagement]
    split
    · rw [Option.map_some, Option.map_some, hreference]
    · rfl
  have hstep := perform_row s o j
  generalize (after perform s o).findings.find j = row at hstep
  cases hstep with
  | kept _ => rfl
  | @created ctx dto engagement reference accepted fresh _ _ =>
    have hother : dto.engagementId ≠ engagementId := fun hid => h ⟨⟨ctx, dto, rfl, hid⟩, accepted⟩
    rw [fresh, Option.filter_some, if_neg (by simp [newFinding, hother])]
    rfl
  | edited f f' _ hfound _ change =>
    obtain ⟨-, -, -, -, -, -, -, -, hengagement, -⟩ := apply_ok change
    exact hsame (found_eq_some.mp hfound).1 hengagement (apply_reference change)
  | @moved ctx _ t f _ hfound _ _ =>
    obtain ⟨-, hengagement, -, hreference, -⟩ := transitioned_kept ctx t f f
    exact hsame (found_eq_some.mp hfound).1 hengagement hreference
  | extended f _ hfound _ _ => exact hsame (found_eq_some.mp hfound).1 rfl rfl

/-! ### Creation -/

section Create

variable {s : Db} {ctx : Ctx} {dto : CreateFindingDto}

/-- **A new finding** has the reference that follows the highest one, which was free. -/
theorem created_issued {n : ℕ}
    (hof : OfEngagement s s.findings (fun f => f.engagementId = dto.engagementId) dto.engagementId)
    (hfilled : present (findingReferences s dto.engagementId) = findingNumbers.filled n)
    (hacc : Accepted perform s (.edit (.create ctx dto))) :
    findingNumbers.next (highestReference s dto.engagementId) ∉ present (findingReferences s dto.engagementId) ∧
      ∃ j, Issued (findingReferences s dto.engagementId) j (findingNumbers.next (highestReference s dto.engagementId))
        (findingReferences (after perform s (.edit (.create ctx dto))) dto.engagementId) := by
  rcases perform_effect s (.edit (.create ctx dto)) with ⟨hfail, -⟩ | ⟨-, s₂, hcommitted, hquiet⟩
  · exact absurd hacc hfail
  have hrow : (after perform s (.edit (.create ctx dto))).findings = s₂.findings := by
    obtain ⟨_, _, heq⟩ := hquiet.eq
    rw [heq]
  unfold findingReferences
  rw [hrow]
  cases hcommitted with
  | edit h =>
    cases h with
    | @create _ _ engagement id historyId reference _ _ h =>
      obtain ⟨_, rfl, -, hnumbered⟩ := h.numbered
      obtain ⟨_, rfl, -, hread⟩ := h.checked.read
      rw [latestReference_eq hof ⟨engagement, hread⟩ hfilled] at hnumbered
      have hnext : findingNumbers.next (highestReference s dto.engagementId) = reference := hnumbered.symm
      rw [hnext]
      refine ⟨(unique_iff h.fresh fun _ _ => rfl).mp ?_, id, references_insert h.fresh h.rows (by simp [newFinding])⟩
      have hadmitted := h.admitted
      unfold constrained at hadmitted
      split at hadmitted
      · cases hadmitted
      · rename_i hunique
        exact (Bool.not_eq_true _).mp hunique

/-- The loop numbers findings. -/
theorem insertNumbered_numbered (ctx : Ctx) (dto : CreateFindingDto) (engagement : Engagement) :
    Numbered (fun db => latestReference ctx db dto.engagementId)
      (fun attempt latest => insertFinding (ctx.uuid (2 * attempt)) (ctx.uuid (2 * attempt + 1))
        (newFinding ctx dto engagement (nextFindingReference latest)) (raised ctx (ctx.uuid (2 * attempt))))
      (insertNumbered ctx dto engagement) where
  exhausted := ⟨_, rfl⟩
  attempt _ := rfl
  atomic _ _ := Prog.atomic_call _

/-- A request for a new finding in which nothing but its reference may be in the way. -/
structure Admissible (s : Db) (ctx : Ctx) (dto : CreateFindingDto) : Prop where
  permitted : ctx.hasPermission .findingManage = true
  engagement : ∃ e, ctx.findById s.engagements dto.engagementId (·.deletedAt.isNone) = some e ∧ e.stage ≠ .closed ∧
    refersTo s.entities (dto.entityId.onNullable e.entityId) = true
  owner : Found ctx Db.users dto.actionOwnerId (fun _ u => u.status = .active && u.deletedAt.isNone) (· = ·) s s
  workpaper : Found ctx Db.workpapers dto.workpaperId
    (fun _ w => w.engagementId = dto.engagementId && w.deletedAt.isNone) (· = ·) s s
  repeated : Found ctx Db.findings dto.repeatOfId (fun _ f => f.deletedAt.isNone) (· = ·) s s
  process : refersTo s.processes dto.processId.orNull = true
  risk : refersTo s.risks dto.riskId.orNull = true
  control : refersTo s.controls dto.controlId.orNull = true
  user : refersTo s.users (some ctx.userId) = true
  fresh : s.findings.find (ctx.uuid 0) = none
  freshEntry : s.findingHistory.find (ctx.uuid 1) = none

/-- The request inserts the finding, with the first entry of its history, and records it. -/
theorem create_run (h : Admissible s ctx dto)
    (hfree : nextFindingReference (latestReference ctx s dto.engagementId) ∉
      present (findingReferences s dto.engagementId)) :
    ∃ engagement v findings entries auditTrail, insertRow s.findings (ctx.uuid 0) (newFinding ctx dto engagement
        (nextFindingReference (latestReference ctx s dto.engagementId))) = .ok findings ∧
      insertRow s.findingHistory (ctx.uuid 1) (raised ctx (ctx.uuid 0)) = .ok entries ∧
      (perform (.edit (.create ctx dto))).run s =
        (.ok v, { s with findings, findingHistory := entries, auditTrail }) := by
  obtain ⟨engagement, hengagement, hopened, hentity⟩ := h.engagement
  -- the first attempt inserts the finding
  have hadmitted : constrained s (ctx.uuid 0) (newFinding ctx dto engagement
      (nextFindingReference (latestReference ctx s dto.engagementId))) = .ok () := by
    unfold constrained
    rw [if_neg, if_neg (by simp [newFinding]), if_pos]
    · have hworkpaper := h.workpaper.refersTo
      have howner := h.owner.refersTo
      have hrepeated := h.repeated.refersTo
      have hon : refersTo s.engagements (some dto.engagementId) = true :=
        refersTo_iff.mpr fun _ hi => ⟨engagement, Option.some.inj hi ▸ (Ctx.findById_eq_some.mp hengagement).1⟩
      simp [newFinding, hworkpaper, howner, hrepeated, hon, hentity, h.process, h.risk, h.control, h.user,
        show refersTo s.users none = true from rfl]
    · exact (Bool.not_eq_true _).mpr ((unique_iff h.fresh fun _ _ => rfl).mpr hfree)
  obtain ⟨findings, hfindings⟩ := insertRow_fresh h.fresh (newFinding ctx dto engagement
    (nextFindingReference (latestReference ctx s dto.engagementId)))
  obtain ⟨entries, hentries⟩ := insertRow_fresh h.freshEntry (raised ctx (ctx.uuid 0))
  have hinsert : (insertFinding (ctx.uuid 0) (ctx.uuid 1) (newFinding ctx dto engagement
      (nextFindingReference (latestReference ctx s dto.engagementId))) (raised ctx (ctx.uuid 0))).run s =
        (.ok (ctx.uuid 0, newFinding ctx dto engagement
          (nextFindingReference (latestReference ctx s dto.engagementId))), { s with findings, findingHistory := entries }) := by
    refine Prog.run_call_ok.mpr ?_
    rw [hadmitted, hfindings, hentries]
    rfl
  have hloop := (insertNumbered_numbered ctx dto engagement).run_first hinsert
  obtain ⟨-, -, ⟨-, hrows⟩, -⟩ := insertFinding_ok hinsert
  have hfound : ctx.findById findings (ctx.uuid 0) (fun _ => true) = some (newFinding ctx dto engagement
      (nextFindingReference (latestReference ctx s dto.engagementId))) :=
    Ctx.findById_eq_some.mpr ⟨(hrows _).trans (if_pos rfl), (Ctx.sees_iff_tenant rfl).mpr rfl, rfl⟩
  obtain ⟨v, auditTrail, hcreate⟩ : ∃ v auditTrail, (create ctx dto).run s =
      (.ok v, { s with findings, findingHistory := entries, auditTrail }) := by
    unfold create assertActionOwner assertWorkpaperOf assertRepeated
    rw [Prog.run_bind, Prog.run_read, hengagement]
    dsimp only
    rw [if_neg hopened, Prog.run_bind, assertRelated_run h.owner]
    dsimp only
    rw [Prog.run_bind, assertRelated_run h.workpaper]
    dsimp only
    rw [Prog.run_bind, assertRelated_run h.repeated]
    dsimp only
    rw [Prog.run_bind, hloop]
    dsimp only
    unfold auditRecord
    rw [Prog.run_bind, Prog.run_write]
    dsimp only
    rw [Prog.run_bind, Prog.run_read]
    dsimp only
    rw [hfound]
    exact ⟨_, _, rfl⟩
  have hpermission : ¬((Operation.edit (.create ctx dto)).permissions.all fun p =>
      !(Operation.edit (.create ctx dto)).ctx.hasPermission p) = true := by
    simp [Operation.permissions, Request.permissions, Operation.ctx, Request.ctx, h.permitted]
  refine ⟨engagement, .edited (.created v), findings, entries, auditTrail, hfindings, hentries, ?_⟩
  refine Prog.run_guard_ok.mpr ⟨hpermission, Prog.run_bind_ok.mpr ⟨.created v, _, ?_, rfl⟩⟩
  exact Prog.run_guard_ok.mpr ⟨hpermission, Prog.run_bind_ok.mpr ⟨v, _, hcreate, rfl⟩⟩

/-- **A finding is created** if its reference is free. -/
theorem create_accepted (h : Admissible s ctx dto)
    (hfree : nextFindingReference (latestReference ctx s dto.engagementId) ∉
      present (findingReferences s dto.engagementId)) :
    Accepted perform s (.edit (.create ctx dto)) := by
  obtain ⟨-, v, _, _, _, -, -, hrun⟩ := create_run h hfree
  exact ⟨v, _, hrun⟩

end Create

end AuditSphere.Findings
