import AuditSphere.Evidence.Requests
import AuditSphere.Findings.Requests
import AuditSphere.Findings.History
import AuditSphere.Theory.Seen

/-!
# Links between findings, evidence and workpapers

Findings and evidence records are created and edited, in any interleaving. A new finding and
a new or edited evidence record may name a workpaper only of its own engagement, and evidence
may be linked to a finding only if it is on the engagement. The workpaper of a finding that is
edited is not looked at, and so `Linked` holds as long as the edits name workpapers of the
engagement.

No request changes a workpaper, or the engagement of a finding or an evidence record (`Kept`),
and so what a request has checked is still true when it writes.
-/

namespace AuditSphere.Links

open Prisma Theory

/-! ### Requests -/

/-- A request that creates or edits a finding or an evidence record. -/
inductive Request where
  | finding (r : Findings.Request)
  | evidence (r : Evidence.Request)

/-- What a request answers. -/
inductive Response where
  | finding (a : Findings.Response)
  | evidence (a : Evidence.EvidenceView)

/-- Requests go to their service. -/
def serve : Request → Service Response
  | .finding r => do return .finding (← Findings.serve r)
  | .evidence r => do return .evidence (← Evidence.serve r)

/-! ### The invariant -/

/-- The workpaper, if there is one, is one of the engagement. -/
def WorkpaperOn (db : Db) (engagementId : Uuid) (workpaperId : Option Uuid) : Prop :=
  ∀ i, workpaperId = some i → ∃ w, db.workpapers.find i = some w ∧ w.engagementId = engagementId

/-- The evidence is on the engagement. -/
def EvidenceOn (db : Db) (engagementId : Uuid) (evidenceIds : List Uuid) : Prop :=
  ∀ i ∈ evidenceIds, ∃ e, db.evidence.find i = some e ∧ e.engagementId = engagementId

/-- Linked records share their engagement. -/
structure Linked (db : Db) : Prop where
  /-- A finding has a workpaper of its engagement. -/
  workpaper : ∀ i f, db.findings.find i = some f → WorkpaperOn db f.engagementId f.workpaperId
  /-- A finding has evidence of its engagement. -/
  evidence : ∀ i f, db.findings.find i = some f → EvidenceOn db f.engagementId f.evidenceIds
  /-- An evidence record has a workpaper of its engagement. -/
  filed : ∀ i e, db.evidence.find i = some e → WorkpaperOn db e.engagementId e.workpaperId

/-- Workpapers stay as they are, and findings and evidence records on their engagement. -/
structure Kept (s s' : Db) : Prop where
  workpapers : s'.workpapers = s.workpapers
  findings : ∀ i f, s.findings.find i = some f → ∃ f', s'.findings.find i = some f' ∧ f'.engagementId = f.engagementId
  evidence : ∀ i e, s.evidence.find i = some e → ∃ e', s'.evidence.find i = some e' ∧ e'.engagementId = e.engagementId

theorem Kept.refl (s : Db) : Kept s s := ⟨rfl, fun _ f h => ⟨f, h, rfl⟩, fun _ e h => ⟨e, h, rfl⟩⟩

theorem Kept.trans {a b c : Db} (h : Kept a b) (h' : Kept b c) : Kept a c where
  workpapers := h'.workpapers.trans h.workpapers
  findings i f hf := by
    obtain ⟨f₁, hf₁, he₁⟩ := h.findings i f hf
    obtain ⟨f₂, hf₂, he₂⟩ := h'.findings i f₁ hf₁
    exact ⟨f₂, hf₂, he₂.trans he₁⟩
  evidence i e he := by
    obtain ⟨e₁, h₁, heq₁⟩ := h.evidence i e he
    obtain ⟨e₂, h₂, heq₂⟩ := h'.evidence i e₁ h₁
    exact ⟨e₂, h₂, heq₂.trans heq₁⟩

theorem Kept.of_quiet {s s' : Db} (h : Quiet s s') : Kept s s' := by
  obtain ⟨auditTrail, notifications, rfl⟩ := h.eq
  exact ⟨rfl, fun _ f hf => ⟨f, hf, rfl⟩, fun _ e he => ⟨e, he, rfl⟩⟩

theorem Kept.of_aside {s s' : Db} (h : Evidence.Aside s s') : Kept s s' := by
  rw [h.rest]
  exact ⟨rfl, fun _ f h => ⟨f, h, rfl⟩, fun _ e h => ⟨e, h, rfl⟩⟩

theorem findings_interference : Interference Quiet Kept := ⟨Kept.refl, fun _ _ _ => Kept.trans, fun _ _ => Kept.of_quiet⟩

theorem evidence_interference : Evidence.Interference Kept := ⟨Kept.refl, Kept.trans, Kept.of_aside⟩

section Kept

variable {s s' : Db} (h : Kept s s')

include h

theorem Kept.workpaperOn {engagementId : Uuid} {workpaperId : Option Uuid}
    (hon : WorkpaperOn s engagementId workpaperId) : WorkpaperOn s' engagementId workpaperId := by
  intro i hi
  rw [h.workpapers]
  exact hon i hi

theorem Kept.evidenceOn {engagementId : Uuid} {evidenceIds : List Uuid} (hon : EvidenceOn s engagementId evidenceIds) :
    EvidenceOn s' engagementId evidenceIds := by
  intro i hi
  obtain ⟨e, he, heng⟩ := hon i hi
  obtain ⟨e', he', heq⟩ := h.evidence i e he
  exact ⟨e', he', heq.trans heng⟩

end Kept

/-- A workpaper of the engagement that was found is one still. -/
theorem workpaperOn_of_found {ctx : Ctx} {engagementId : Uuid} {workpaperId : Field Uuid} {s s₁ : Db}
    (h : Found ctx Db.workpapers workpaperId (fun _ w => w.engagementId = engagementId && w.deletedAt.isNone) Kept s s₁) :
    WorkpaperOn s₁ engagementId workpaperId.orNull := by
  intro i hi
  obtain ⟨s₀, w, -, hlater, hw⟩ := h i hi
  obtain ⟨hfind, -, hcond⟩ := Ctx.findById_eq_some.mp hw
  simp only [Bool.and_eq_true, decide_eq_true_eq] at hcond
  exact ⟨w, by rw [hlater.workpapers, hfind], hcond.1⟩

/-- So is evidence of the engagement. -/
theorem evidenceOn_of_found {ctx : Ctx} {engagementId : Uuid} {evidenceIds : Field (List Uuid)} {s s₁ : Db}
    (h : Findings.EvidenceFound Kept s ctx engagementId evidenceIds s₁) {ids : List Uuid} (hids : evidenceIds.orNull = some ids) :
    EvidenceOn s₁ engagementId ids := by
  obtain ⟨s₀, -, hlater, hall⟩ := h ids hids
  exact hlater.evidenceOn fun i hi => (hall i hi).imp fun _ he => ⟨he.1, he.2.2⟩

/-! ### One call -/

/-- A call of a request, which began in some state. -/
inductive Call : Request → Db → Db → Prop where
  | finding {r s a b} (h : Findings.Call Kept s r a b) : Call (.finding r) a b
  | evidence {r s a b} (h : Evidence.Call Kept s r a b) : Call (.evidence r) a b

/-- The edit of a finding names no workpaper of another engagement. -/
def NamesOwn (db : Db) : Request → Prop
  | .finding (.update _ id dto) => ∀ i ∈ dto.workpaperId.orNull, ∀ f ∈ db.findings.find id, ∀ w ∈ db.workpapers.find i,
      w.engagementId = f.engagementId
  | _ => True

instance (db : Db) : ∀ r, Decidable (NamesOwn db r)
  | .finding (.update _ id dto) => inferInstanceAs (Decidable (∀ i ∈ dto.workpaperId.orNull, ∀ f ∈ db.findings.find id,
      ∀ w ∈ db.workpapers.find i, w.engagementId = f.engagementId))
  | .finding (.create ..) | .evidence _ => .isTrue trivial

/-- A table where a row has been written. -/
theorem kept_of_rows {ρ : Type} (engagementOf : ρ → Uuid) {t t' : Table Uuid ρ} {id : Uuid} {r' : ρ}
    (hrows : ∀ j, t'.find j = if j = id then some r' else t.find j)
    (hsame : ∀ r, t.find id = some r → engagementOf r' = engagementOf r) (i : Uuid) (r : ρ) (hr : t.find i = some r) :
    ∃ r', t'.find i = some r' ∧ engagementOf r' = engagementOf r := by
  rw [hrows]
  by_cases hi : i = id
  · subst hi
    exact ⟨r', if_pos rfl, hsame r hr⟩
  · exact ⟨r, by rw [if_neg hi, hr], rfl⟩

theorem findings_apply_engagement {dto : Findings.UpdateFindingDto} {f f' : Finding} (h : dto.apply f = .ok f') :
    f'.engagementId = f.engagementId ∧ f'.workpaperId = dto.workpaperId.onNullable f.workpaperId ∧
      f'.evidenceIds = (dto.evidenceIds.orNull.map List.eraseDups).getD f.evidenceIds := by
  unfold Findings.UpdateFindingDto.apply at h
  split at h
  · cases h
    exact ⟨rfl, rfl, rfl⟩
  · cases h

theorem evidence_apply_engagement {dto : Evidence.UpdateEvidenceDto} {e e' : Evidence} (h : dto.apply e = .ok e') :
    e'.engagementId = e.engagementId ∧ e'.workpaperId = dto.workpaperId.onNullable e.workpaperId := by
  unfold Evidence.UpdateEvidenceDto.apply at h
  split at h
  · cases h
    exact ⟨rfl, rfl⟩
  · cases h

/-- A call keeps workpapers and engagements. -/
theorem Call.kept {r : Request} {a b : Db} (h : Call r a b) : Kept a b := by
  cases h with
  | finding h =>
    cases h with
    | quiet h => exact .of_quiet h
    | create h =>
      rw [h.rest]
      refine ⟨rfl, kept_of_rows Finding.engagementId h.rows fun r hr => ?_, fun _ e he => ⟨e, he, rfl⟩⟩
      rw [h.fresh] at hr
      cases hr
    | update h =>
      rw [h.rest]
      refine ⟨rfl, kept_of_rows Finding.engagementId h.rows fun r hr => ?_, fun _ e he => ⟨e, he, rfl⟩⟩
      rw [h.row] at hr
      cases hr
      exact (findings_apply_engagement h.change).1
  | evidence h =>
    cases h with
    | aside h => exact .of_aside h
    | create h =>
      obtain ⟨attempt, reference, hfresh, -, hrows⟩ := h.row
      rw [h.rest]
      refine ⟨rfl, fun _ f hf => ⟨f, hf, rfl⟩, kept_of_rows Evidence.engagementId hrows fun r hr => ?_⟩
      rw [hfresh] at hr
      cases hr
    | update h =>
      rw [h.rest]
      refine ⟨rfl, fun _ f hf => ⟨f, hf, rfl⟩, kept_of_rows Evidence.engagementId h.rows fun r hr => ?_⟩
      rw [h.row] at hr
      cases hr
      exact (evidence_apply_engagement h.change).1

/-- The workpaper of a finding that the table admits is there. -/
theorem workpaper_of_constrained {db : Db} {id : Uuid} {f : Finding} (h : Findings.constrained db id f = .ok ()) {i : Uuid}
    (hi : f.workpaperId = some i) : ∃ w, db.workpapers.find i = some w := by
  unfold Findings.constrained at h
  split at h
  · cases h
  split at h
  · cases h
  split at h
  · rename_i hrefers
    simp only [Bool.and_eq_true] at hrefers
    exact refersTo_iff.mp hrefers.1.1.1.1.1.1.1.1.2 i hi
  · cases h

/-- After a call that keeps workpapers and engagements, records are linked if the written one is. -/
theorem Linked.of_written {a b : Db} (h : Linked a) (hkept : Kept a b)
    (hfindings : ∀ i f, b.findings.find i = some f → a.findings.find i = some f ∨
      WorkpaperOn a f.engagementId f.workpaperId ∧ EvidenceOn a f.engagementId f.evidenceIds)
    (hevidence : ∀ i e, b.evidence.find i = some e → a.evidence.find i = some e ∨
      WorkpaperOn a e.engagementId e.workpaperId) : Linked b where
  workpaper i f hf := hkept.workpaperOn ((hfindings i f hf).elim (h.workpaper i f) And.left)
  evidence i f hf := hkept.evidenceOn ((hfindings i f hf).elim (h.evidence i f) And.right)
  filed i e he := hkept.workpaperOn ((hevidence i e he).elim (h.filed i e) id)

/-- A row of a table where a row has been written is that row or an old one. -/
theorem old_or_written {ρ : Type} {P : ρ → Prop} {t t' : Table Uuid ρ} {id : Uuid} {r' : ρ}
    (hrows : ∀ j, t'.find j = if j = id then some r' else t.find j) (hP : P r') (i : Uuid) (r : ρ)
    (hr : t'.find i = some r) : t.find i = some r ∨ P r := by
  rw [hrows] at hr
  split at hr
  · cases hr
    exact .inr hP
  · exact .inl hr

/-- The edit of a finding that names no workpaper of another engagement leaves it linked. -/
theorem Linked.updated {s a b : Db} {ctx : Ctx} {id : Uuid} {dto : Findings.UpdateFindingDto} {before f f' : Finding}
    (hL : Linked a) (h : Findings.Updated Kept s ctx id dto before f f' a b)
    (hown : NamesOwn a (.finding (.update ctx id dto))) :
    WorkpaperOn a f'.engagementId f'.workpaperId ∧ EvidenceOn a f'.engagementId f'.evidenceIds := by
  obtain ⟨heng, hworkpaper, hevidence⟩ := findings_apply_engagement h.change
  rw [heng, hevidence]
  constructor
  · intro i hi
    obtain ⟨w, hw⟩ := workpaper_of_constrained h.admitted hi
    rw [hworkpaper] at hi
    rcases hdto : dto.workpaperId with _ | v
    · rw [hdto] at hi
      exact hL.workpaper id f h.row i hi
    · rw [hdto, Field.onNullable_some] at hi
      exact ⟨w, hw, hown i (by rw [hdto, hi]; rfl) f h.row w hw⟩
  · cases hids : dto.evidenceIds.orNull with
    | none => exact hL.evidence id f h.row
    | some ids =>
      -- the engagement of the finding is that which was read with it
      obtain ⟨s₀, -, hlater, hbefore⟩ := h.read
      obtain ⟨f₀, hf₀, hsame⟩ := hlater.findings id before (Ctx.findById_eq_some.mp hbefore).1
      rw [h.row, Option.some.injEq] at hf₀
      subst hf₀
      rw [hsame]
      intro i hi
      exact evidenceOn_of_found h.evidence hids i (List.mem_eraseDups.mp hi)

/-- An edited evidence record has a workpaper of its engagement. -/
theorem Linked.refiled {s a b : Db} {ctx : Ctx} {id : Uuid} {dto : Evidence.UpdateEvidenceDto} {before e e' : Evidence}
    (hL : Linked a) (h : Evidence.Updated Kept s ctx id dto before e e' a b) :
    WorkpaperOn a e'.engagementId e'.workpaperId := by
  obtain ⟨heng, hworkpaper⟩ := evidence_apply_engagement h.change
  rw [heng, hworkpaper]
  rcases hdto : dto.workpaperId with _ | v
  · exact hL.filed id e h.row
  · -- the engagement of the record is that which was read with it
    obtain ⟨s₀, -, hlater, hbefore⟩ := h.read
    obtain ⟨e₀, he₀, hsame⟩ := hlater.evidence id before (Ctx.findById_eq_some.mp hbefore).1
    rw [h.row, Option.some.injEq] at he₀
    subst he₀
    rw [hsame]
    have hon := workpaperOn_of_found h.workpaper
    rwa [hdto] at hon

/-- **One call** leaves records linked, unless it writes a workpaper of another engagement. -/
theorem Linked.call {r : Request} {a b : Db} (hL : Linked a) (h : Call r a b) (hown : NamesOwn a r) : Linked b := by
  have hkept := h.kept
  cases h with
  | finding h =>
    cases h with
    | quiet h =>
      obtain ⟨auditTrail, notifications, rfl⟩ := h.eq
      exact ⟨hL.workpaper, hL.evidence, hL.filed⟩
    | create h =>
      rw [h.rest] at hkept ⊢
      refine hL.of_written hkept (old_or_written h.rows ⟨?_, ?_⟩) fun _ _ => .inl
      · exact workpaperOn_of_found h.checked.workpaper
      · exact fun i hi => absurd hi List.not_mem_nil
    | update h =>
      rw [h.rest] at hkept ⊢
      exact hL.of_written hkept (old_or_written h.rows (hL.updated h hown)) fun _ _ => .inl
  | evidence h =>
    cases h with
    | aside h =>
      rw [h.rest]
      exact ⟨hL.workpaper, hL.evidence, hL.filed⟩
    | create h =>
      obtain ⟨attempt, reference, -, -, hrows⟩ := h.row
      rw [h.rest] at hkept ⊢
      exact hL.of_written hkept (fun _ _ => .inl) (old_or_written hrows (workpaperOn_of_found h.workpaper))
    | update h =>
      rw [h.rest] at hkept ⊢
      exact hL.of_written hkept (fun _ _ => .inl) (old_or_written h.rows (hL.refiled h))

/-! ### Runs -/

/-- What makes every turn a call. -/
theorem serve_relyGuarantee : RelyGuarantee serve (fun _ _ => True) (fun _ => True) (fun _ => Kept) Call where
  refl _ := Kept.refl
  trans _ _ _ _ := Kept.trans
  keep _ _ _ _ _ := trivial
  start c r _ _ := by
    right
    cases r with
    | finding r =>
      show (Findings.serve r >>= fun a => (pure (Response.finding a) : Service Response)).Meets _ _ _ _
      rw [Prog.meets_bind]
      refine ((Findings.serve_meets findings_interference r c.st).mono_step fun _ _ => .finding).mono ?_
      rintro (e | a) s' - <;> trivial
    | evidence r =>
      show (Evidence.serve r >>= fun a => (pure (Response.evidence a) : Service Response)).Meets _ _ _ _
      rw [Prog.meets_bind]
      refine ((Evidence.serve_meets evidence_interference r c.st).mono_step fun _ _ => .evidence).mono ?_
      rintro (e | a) s' - <;> trivial
  compat _ _ _ _ _ _ _ _ _ _ _ _ _ h := h.kept

/-- No request that has its turn edits a finding to name a workpaper of another engagement. -/
def Own (s₀ : Db) (past : List (Event Request)) : Event Request → Prop
  | .start _ => True
  | .turn i => ∀ r ∈ requested serve s₀ i past, NamesOwn (interleave serve s₀ past).st r

instance (s₀ : Db) (past : List (Event Request)) : ∀ e, Decidable (Own s₀ past e)
  | .start _ => .isTrue trivial
  | .turn i => inferInstanceAs (Decidable (∀ r ∈ requested serve s₀ i past, NamesOwn (interleave serve s₀ past).st r))

/-- **Linked records share an engagement** after every interleaving of requests to create and edit
findings and evidence, as long as no edit of a finding names a workpaper of another engagement. -/
theorem linked_throughout {s₀ : Db} (h₀ : Linked s₀) {evs : List (Event Request)} (h : Every (Own s₀) evs) :
    Linked (interleave serve s₀ evs).st := by
  induction evs with
  | nil => exact h₀
  | cons e past ih =>
    cases e with
    | start r => exact ih h.2
    | turn i =>
      rw [interleave]
      rcases serve_relyGuarantee.turn (show (fun _ : Db => True) s₀ from trivial)
          (scheduled_of_forall (fun _ _ => trivial) past) i with
        heq | ⟨th, hth, hcall⟩
      · rw [heq]
        exact ih h.2
      · exact (ih h.2).call hcall (h.1 th.req (by rw [requested, hth]; rfl))

open Workpapers (office treasury)

/-- The workpaper of an engagement. -/
def countSheet (engagementId : Uuid) : Workpaper :=
  Workpapers.newWorkpaper (Findings.member 1 100) engagementId { reference := "B.1", title := "Cash" } .null

/-- The office with two engagements, 10 and 11, and a workpaper of each. -/
def twoEngagements : Db := { office with
  engagements := ⟨[(10, treasury), (11, { treasury with auditNumber := "AUD-2024-002" })], by decide⟩
  workpapers := ⟨[(100, countSheet 10), (101, countSheet 11)], by simp⟩ }

theorem twoEngagements_linked : Linked twoEngagements := by
  refine ⟨?_, ?_, ?_⟩ <;> intro i r hr <;> cases hr

/-- Ann raises finding 200 on engagement 10, and then names a workpaper. -/
def naming (workpaperId : Uuid) : List (Event Request) :=
  List.replicate 8 (.turn 1) ++
  .start (.finding (.update (Findings.member 1 300) 200 { workpaperId := some (some workpaperId) })) ::
  List.replicate 5 (.turn 0) ++
  [.start (.finding (.create (Findings.member 1 200) {
    engagementId := 10, title := "Cash", severity := .high, condition := "Not counted", criteria := "Count weekly" }))]

/-- The theorem where it is one of the engagement. -/
theorem linked_throughout_own : Linked (interleave serve twoEngagements (naming 100)).st :=
  linked_throughout twoEngagements_linked (by decide +kernel)

/-- Where it is one of another engagement, the finding has it all the same. -/
theorem edit_crosses_engagements : Linked twoEngagements ∧ ¬Linked (interleave serve twoEngagements (naming 101)).st := by
  refine ⟨twoEngagements_linked, fun h => ?_⟩
  have hf : ((interleave serve twoEngagements (naming 101)).st.findings.find 200).any
      (fun f => f.workpaperId = some 101 && f.engagementId = 10) = true := by decide +kernel
  have hw : ((interleave serve twoEngagements (naming 101)).st.workpapers.find 101).any
      (fun w => w.engagementId = 11) = true := by decide +kernel
  obtain ⟨f, hfind, hcond⟩ := (Option.any_eq_true _ _).mp hf
  simp only [Bool.and_eq_true, decide_eq_true_eq] at hcond
  obtain ⟨w, hfound, heng⟩ := h.workpaper 200 f hfind 101 hcond.1
  simp [hfound, heng, hcond.2] at hw

end AuditSphere.Links
