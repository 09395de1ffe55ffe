import AuditSphere.Documents.Queries
import AuditSphere.Findings.Operations
import AuditSphere.Requests.Documents
import AuditSphere.Tenancy.Reads
import AuditSphere.Workpapers.History

/-!
# RESTRICTED documents

What a user without `document:restricted` learns of RESTRICTED documents. `blurred` is what is
left of a database if their names, sizes, keys, checksums and versions are taken out. The
documents service, and the documents that are listed with a finding or a request, are the same
in the blurred database. The evidence of a finding, a workpaper or an engagement is shown with
its document, whatever the classification of that (`restricted_hidden_iff`).
-/

namespace AuditSphere.Documents

open Prisma Theory Shared ObjectAccess

/-! ### Blurring -/

/-- A document without what is hidden of RESTRICTED ones. -/
def blur (d : Document) : Document :=
  if d.classification = .restricted then
    { d with fileName := "", sizeBytes := 0, storageKey := .other "", checksumSha256 := none }
  else d

/-- The document is RESTRICTED. -/
def isRestricted (db : Db) (id : Uuid) : Bool :=
  (db.documents.find id).any fun d => d.classification = .restricted

/-- The database without what is hidden of RESTRICTED documents. -/
def blurred (db : Db) : Db := { db with
  documents := db.documents.modify (fun _ _ => true) blur
  documentVersions := db.documentVersions.remove fun _ v => isRestricted db v.documentId }

/-- The databases differ only in what is hidden of RESTRICTED documents. -/
def Alike (db db' : Db) : Prop := blurred db = blurred db'

theorem blur_of_not_restricted {d : Document} (h : d.classification ≠ .restricted) : blur d = d := if_neg h

@[simp] theorem blur_classification (d : Document) : (blur d).classification = d.classification := by
  unfold blur
  split <;> rfl

@[simp] theorem blur_ownerType (d : Document) : (blur d).ownerType = d.ownerType := by
  unfold blur
  split <;> rfl

@[simp] theorem blur_ownerId (d : Document) : (blur d).ownerId = d.ownerId := by
  unfold blur
  split <;> rfl

@[simp] theorem blur_uploadedById (d : Document) : (blur d).uploadedById = d.uploadedById := by
  unfold blur
  split <;> rfl

@[simp] theorem blur_uploadedAt (d : Document) : (blur d).uploadedAt = d.uploadedAt := by
  unfold blur
  split <;> rfl

@[simp] theorem blur_deletedAt (d : Document) : (blur d).deletedAt = d.deletedAt := by
  unfold blur
  split <;> rfl

@[simp] theorem blur_tenantId (d : Document) : (blur d).tenantId = d.tenantId := by
  unfold blur
  split <;> rfl

@[simp] theorem sees_blur (ctx : Ctx) (d : Document) : ctx.sees (blur d) = ctx.sees d := by
  simp [Ctx.sees, TenantRow.tenantOf]

@[simp] theorem isRestricted_blurred (db : Db) (id : Uuid) : isRestricted (blurred db) id = isRestricted db id := by
  unfold isRestricted
  rw [show (blurred db).documents.find id = _ from Table.find_modify _ _ _ _]
  cases db.documents.find id <;> simp

section Queries

variable {db : Db} {p : Uuid → Document → Bool}

/-- A condition that does not look at what is hidden selects as many documents. -/
theorem count_blurred (h : ∀ i d, p i (blur d) = p i d) : (blurred db).documents.count p = db.documents.count p := by
  unfold Table.count Table.rows
  rw [show (blurred db).documents.entries = db.documents.entries.map fun e => (e.1, blur e.2) by
    simp [blurred, Table.modify]]
  rw [List.filter_map, List.length_map]
  congr 2
  funext e
  exact h e.1 e.2

/-- A condition that selects no RESTRICTED document selects the same documents. -/
theorem rows_blurred (db : Db) (h : ∀ i d, p i (blur d) = p i d)
    (hp : ∀ i d, p i d = true → d.classification ≠ .restricted) :
    (blurred db).documents.rows p = db.documents.rows p := by
  unfold Table.rows
  rw [show (blurred db).documents.entries = db.documents.entries.map fun e => (e.1, blur e.2) by
    simp [blurred, Table.modify]]
  induction db.documents.entries with
  | nil => rfl
  | cons e es ih =>
    rw [List.map_cons, List.filter_cons, List.filter_cons, h, ih]
    by_cases hsel : p e.1 e.2 = true
    · rw [if_pos hsel, if_pos hsel, blur_of_not_restricted (hp _ _ hsel)]
    · rw [if_neg hsel, if_neg hsel]

/-- A condition that only non-RESTRICTED documents satisfy does not look at what is hidden. -/
theorem blur_of_excludes (hp : ∀ i d, p i d = true → d.classification ≠ .restricted) (i : Uuid) (d : Document) :
    p i (blur d) = p i d := by
  by_cases hd : d.classification = .restricted
  · have hblur : p i (blur d) = false := Bool.eq_false_iff.mpr fun h => hp _ _ h (by simp [hd])
    rw [hblur, Bool.eq_false_iff.mpr fun h => hp _ _ h hd]
  · rw [blur_of_not_restricted hd]

/-- The document that a foreign key refers to, if it is not RESTRICTED. -/
theorem related_blurred {id : Option Uuid} (h : ∀ i, id = some i → isRestricted db i = false) :
    related (blurred db).documents id = related db.documents id := by
  cases id with
  | none => rfl
  | some i =>
    have hi := h i rfl
    unfold isRestricted at hi
    unfold related
    rw [Option.bind_some, Option.bind_some, show (blurred db).documents.find i = _ from Table.find_modify _ _ _ _]
    cases hd : db.documents.find i with
    | none => rfl
    | some d =>
      rw [hd] at hi
      simp only [Option.any_some, decide_eq_false_iff_not] at hi
      simp [blur_of_not_restricted hi]

end Queries

/-! ### Reads -/

/-- A query that shows documents, with its user. -/
inductive Read where
  | documents (ctx : Ctx) (query : DocumentListQueryDto)
  | document (ctx : Ctx) (id : Uuid)
  | finding (ctx : Ctx) (id : Uuid)
  | request (ctx : Ctx) (id : Uuid)
  | workpaper (ctx : Ctx) (id : Uuid)
  | evidence (ctx : Ctx) (engagementId : Uuid) (query : Evidence.EvidenceListQueryDto)

/-- The user who asks. -/
def Read.ctx : Read → Ctx
  | .documents ctx _ | .document ctx _ | .finding ctx _ | .request ctx _ | .workpaper ctx _ | .evidence ctx _ _ => ctx

/-- What is answered. -/
inductive Shown where
  | documents (page : Page DocumentView)
  | document (d : DocumentDetail)
  | finding (f : Findings.FindingResponse)
  | request (r : Requests.RequestDetail × List (AvailableAction RequestStatus))
  | workpaper (w : Workpapers.WorkpaperDetail × List (AvailableAction WorkpaperStatus))
  | evidence (items : List Evidence.EvidenceView)

/-- The program of a query. -/
def show_ : Read → Service Shown
  | .documents ctx query => do return .documents (← list ctx query)
  | .document ctx id => do return .document (← get ctx id)
  | .finding ctx id => do return .finding (← Findings.get ctx id)
  | .request ctx id => do return .request (← Requests.get ctx id)
  | .workpaper ctx id => do return .workpaper (← Workpapers.get ctx id)
  | .evidence ctx engagementId query => do return .evidence (← Evidence.listForEngagement ctx engagementId query)

/-- The evidence record has a RESTRICTED document. -/
def HasRestricted (db : Db) (e : Evidence) : Prop := ∃ i, e.documentId = some i ∧ isRestricted db i = true

/-- The user may read the record, and evidence that is shown with it has a RESTRICTED document. -/
def Exposes (db : Db) : Read → Prop
  | .documents _ _ | .document _ _ | .request _ _ => False
  | .finding ctx id => ∃ f, ctx.findById db.findings id (fun f => f.deletedAt.isNone) = some f ∧
      findingScope ctx db f = true ∧ ∃ i ∈ f.evidenceIds, ∃ e, db.evidence.find i = some e ∧ HasRestricted db e
  | .workpaper ctx id => (ctx.findById db.workpapers id fun w => w.deletedAt.isNone).isSome = true ∧
      ∃ i e, db.evidence.find i = some e ∧ e.workpaperId = some id ∧ HasRestricted db e
  | .evidence ctx engagementId query =>
      (ctx.findById db.engagements engagementId fun e => e.deletedAt.isNone).isSome = true ∧
      ∃ i e, db.evidence.find i = some e ∧ ctx.sees e = true ∧ e.engagementId = engagementId ∧
        query.workpaperId.all (fun w => e.workpaperId = some w) = true ∧ query.type.all (fun t => e.type = t) = true ∧
        query.q.all (fun finds => finds e.description || finds e.reference) = true ∧ HasRestricted db e

/-! ### What does not look at what is hidden -/

section Blurred

variable (db : Db) {ctx : Ctx}

theorem check_blurred (r : Except HttpError Unit) : (check r).Agrees db (blurred db) := by
  unfold check
  split
  · exact Prog.agrees_throw _
  · exact Prog.agrees_pure _

theorem documentScope_blurred (ctx : Ctx) : (documentScope ctx).Agrees db (blurred db) := by
  unfold documentScope
  refine Prog.Agrees.ite (Prog.agrees_pure _) (Prog.agrees_read_bind rfl (Prog.agrees_read_bind rfl ?_))
  exact Prog.Agrees.ite ((Prog.agrees_pure _).bind fun _ => Prog.agrees_pure _)
    (Prog.agrees_read_bind rfl (Prog.agrees_pure _))

/-- The scope of a user does not look at what is hidden. -/
theorem documentScope_blur {s s' : Db} {scope : Uuid → Document → Bool}
    (h : (documentScope ctx).run s = (.ok scope, s')) (i : Uuid) (d : Document) : scope i (blur d) = scope i d := by
  unfold documentScope at h
  split at h
  · cases h
    simp [ownContext]
  · obtain ⟨findingIds, s₁, -, h⟩ := Prog.run_bind_ok.mp h
    obtain ⟨requests, s₂, -, h⟩ := Prog.run_bind_ok.mp h
    split at h
    · cases h
      simp [ownContext]
    · obtain ⟨recommendationIds, s₃, -, h⟩ := Prog.run_bind_ok.mp h
      cases h
      simp [ownContext]

/-- A program that sees the same, and what it goes on with. -/
theorem agrees_bind_run {α β : Type} {p : Service α} {f : α → Service β} {s s' : Db} (hp : p.Agrees s s')
    (hf : ∀ a s₁, p.run s = (.ok a, s₁) → (f a).Agrees s s') : (p >>= f).Agrees s s' := by
  induction p with
  | ret a => exact hf a s rfl
  | fail e => exact Prog.agrees_throw e
  | act u k ih =>
    refine ⟨hp.1, hp.2.1, congrArg (Prog.bind · f) hp.2.2.1, ih s hp.2.2.2 fun a s₁ h => hf a s₁ ?_⟩
    rw [Prog.run, hp.1]
    exact h

theorem assertDocument_blurred (ctx : Ctx) (id : Uuid) : (ObjectAccess.assertDocument ctx id).Agrees db (blurred db) := by
  unfold ObjectAccess.assertDocument
  refine agrees_bind_run (documentScope_blurred db ctx) fun scope s₁ hscope => ?_
  refine Prog.agrees_read_bind ?_ (Prog.Agrees.ite (Prog.agrees_throw _) (Prog.agrees_pure _))
  refine (count_blurred fun i d => ?_).symm
  simp [documentScope_blur hscope]

/-- The workflow of findings counts documents, and looks at nothing else of them. -/
theorem finding_guards_blurred (entity : WithId Finding) (action : String) (fromState toState : FindingStatus)
    (comment : Option String) :
    ∀ e ∈ Findings.guardRegistry, (e.2 ⟨entity, ctx, action, fromState, toState, comment⟩).Agrees db (blurred db) := by
  intro e he
  simp only [Findings.guardRegistry, GuardRegistry.register, List.mem_cons, List.not_mem_nil, or_false] at he
  rcases he with rfl | rfl | rfl | rfl | rfl | rfl
  · exact Prog.agrees_pure _
  · refine Prog.agrees_read_bind rfl (Prog.agrees_read_bind ?_ (Prog.agrees_read_bind rfl (Prog.agrees_pure _)))
    refine (count_blurred fun i d => ?_).symm
    simp
  · exact Prog.agrees_pure _
  · exact Prog.agrees_pure _
  · exact Prog.Agrees.ite (Prog.agrees_pure _) (Prog.agrees_read rfl)
  · exact Prog.agrees_pure _

theorem workpaper_guards_blurred (entity : WithId Workpaper) (action : String) (fromState toState : WorkpaperStatus)
    (comment : Option String) :
    ∀ e ∈ Workpapers.guardRegistry, (e.2 ⟨entity, ctx, action, fromState, toState, comment⟩).Agrees db (blurred db) := by
  intro e he
  simp only [Workpapers.guardRegistry, GuardRegistry.register, List.mem_cons, List.not_mem_nil, or_false] at he
  rcases he with rfl | rfl | rfl | rfl | rfl
  · exact Prog.agrees_read rfl
  · exact Prog.agrees_read rfl
  · exact Prog.agrees_pure _
  · exact Prog.agrees_pure _
  · exact Prog.agrees_pure _

theorem request_guards_blurred (entity : WithId DocumentRequest) (action : String) (fromState toState : RequestStatus)
    (comment : Option String) :
    ∀ e ∈ Requests.guardRegistry, (e.2 ⟨entity, ctx, action, fromState, toState, comment⟩).Agrees db (blurred db) := by
  intro e he
  simp only [Requests.guardRegistry, GuardRegistry.register, List.mem_cons, List.not_mem_nil, or_false] at he
  subst he
  refine Prog.Agrees.ite (Prog.agrees_pure _) (Prog.agrees_read ?_)
  have hcount : Requests.attachedCount ctx (blurred db) entity.1 = Requests.attachedCount ctx db entity.1 :=
    count_blurred fun i d => by simp [blurred]
  rw [hcount]

section Hidden

variable (hctx : ctx.hasPermission .documentRestricted = false)

include hctx

theorem list_blurred (query : DocumentListQueryDto) : (list ctx query).Agrees db (blurred db) := by
  unfold list
  refine agrees_bind_run (check_blurred db _) fun _ s₁ hcheck => (documentScope_blurred db ctx).bind fun scope => ?_
  have hexcludes : ∀ i d, (ctx.sees d && (scope i d && documentsWhere ctx query d)) = true →
      d.classification ≠ .restricted := by
    intro i d h hrestricted
    simp only [documentsWhere, Bool.and_eq_true, hctx, Bool.false_or] at h
    obtain ⟨-, -, ⟨⟨⟨⟨⟨⟨-, -⟩, -⟩, hclass⟩, -⟩, -⟩, -⟩, -⟩ := h
    cases hq : query.classification with
    | none => simp [hq, hrestricted] at hclass
    | some c =>
      simp only [hq, decide_eq_true_eq] at hclass
      rw [hrestricted] at hclass
      subst hclass
      simp [check, hq, assertClassification, hctx] at hcheck
  refine Prog.agrees_read_bind (count_blurred (blur_of_excludes hexcludes)).symm
    (Prog.agrees_read_bind ?_ (Prog.agrees_pure _))
  unfold Ctx.findMany
  rw [rows_blurred db (blur_of_excludes hexcludes) hexcludes]
  rfl

omit db in
/-- A RESTRICTED document is refused. -/
theorem refused {v : DocumentDetail} (h : v.row.2.classification = .restricted) :
    (check (assertContextOwner ctx v.row.2) >>= fun _ => check (assertClassification ctx v.row.2.classification) >>=
      fun _ => (pure v : Service DocumentDetail)) =
    check (assertContextOwner ctx v.row.2) >>= fun _ => throw (.forbidden
      "This document is RESTRICTED; document:restricted permission is required") := by
  refine congrArg (check (assertContextOwner ctx v.row.2) >>= ·) (funext fun _ => ?_)
  simp only [check, assertClassification, h, hctx]
  rfl

omit hctx in
theorem detail_blurred {id : Uuid} {d : Document} (h : isRestricted db id = false) :
    detail (blurred db) (id, d) = detail db (id, d) := by
  have hversions : (blurred db).documentVersions.rows (fun _ v => v.documentId = id) =
      db.documentVersions.rows fun _ v => v.documentId = id := by
    unfold blurred
    rw [Table.rows_remove]
    refine Table.rows_congr fun i v _ => ?_
    by_cases hv : v.documentId = id <;> simp [hv, h]
  unfold detail
  rw [hversions]
  rfl

/-- A RESTRICTED document is refused without a look at what is hidden. -/
theorem get_blurred (id : Uuid) : (get ctx id).Agrees db (blurred db) := by
  unfold get
  refine (assertDocument_blurred db ctx id).bind fun _ => ?_
  have hfind : (blurred db).documents.find id = (db.documents.find id).map blur := by
    rw [show (blurred db).documents.find id = _ from Table.find_modify _ _ _ _]
    simp
  cases hd : ctx.findById db.documents id fun d => d.deletedAt.isNone with
  | none =>
    have hnone : ctx.findById (blurred db).documents id (fun d => d.deletedAt.isNone) = none := by
      unfold Ctx.findById at hd ⊢
      rw [hfind]
      cases hrow : db.documents.find id <;> simp_all
    refine Prog.agrees_read_bind ?_ ?_
    · rw [hd, hnone]
      rfl
    · rw [hd]
      exact Prog.agrees_throw _
  | some d =>
    obtain ⟨hrow, hsees, hlive⟩ := Ctx.findById_eq_some.mp hd
    have hblur : ctx.findById (blurred db).documents id (fun d => d.deletedAt.isNone) = some (blur d) := by
      rw [Ctx.findById_eq_some, hfind, hrow]
      simpa using And.intro hsees hlive
    by_cases hrestricted : d.classification = .restricted
    · -- both rows are refused alike
      have howner : assertContextOwner ctx (blur d) = assertContextOwner ctx d := by simp [assertContextOwner]
      refine ⟨rfl, rfl, ?_, ?_⟩
      · simp only [hd, hblur, Option.map_some]
        refine (refused hctx (v := detail db (id, d)) hrestricted).trans (Eq.trans ?_
          (refused hctx (v := detail (blurred db) (id, blur d)) (by simp [detail, view, hrestricted])).symm)
        simp only [detail, view, howner]
      · simp only [hd, Option.map_some]
        refine Eq.subst (motive := fun p => Prog.Agrees db (blurred db) p)
          (refused hctx (v := detail db (id, d)) hrestricted).symm ?_
        exact (check_blurred db _).bind fun _ => Prog.agrees_throw _
    · have hplain : isRestricted db id = false := by simp [isRestricted, hrow, hrestricted]
      refine Prog.agrees_read_bind ?_ ?_
      · rw [hd, hblur, blur_of_not_restricted hrestricted]
        exact congrArg some (detail_blurred db hplain).symm
      · rw [hd]
        exact (check_blurred db _).bind fun _ => (check_blurred db _).bind fun _ => Prog.agrees_pure _

/-- The documents that are listed with a request are not RESTRICTED. -/
theorem request_blurred (id : Uuid) : (Requests.get ctx id).Agrees db (blurred db) := by
  have haccess : (ObjectAccess.assertRequest ctx id).Agrees db (blurred db) :=
    Prog.agrees_read_bind rfl (Prog.Agrees.ite (Prog.agrees_throw _) (Prog.agrees_pure _))
  unfold Requests.get
  refine haccess.bind fun _ => (documentScope_blurred db ctx).bind fun scope => ?_
  have hdetail : ∀ r, Requests.detail ctx scope (blurred db) (id, r) = Requests.detail ctx scope db (id, r) := by
    intro r
    have hexcludes : ∀ i d, (decide (i ∈ r.documentIds) && d.deletedAt.isNone &&
        (ctx.hasPermission .documentRestricted || d.classification ≠ .restricted) && scope i d) = true →
        d.classification ≠ .restricted := by
      intro i d h
      simp only [hctx, Bool.false_or, Bool.and_eq_true, decide_eq_true_eq] at h
      exact h.1.2
    have hcount : (blurred db).documents.count (fun i d => i ∈ r.documentIds && d.deletedAt.isNone) =
        db.documents.count fun i d => i ∈ r.documentIds && d.deletedAt.isNone :=
      count_blurred fun i d => by simp
    unfold Requests.detail Requests.documentsOf Requests.view
    rw [rows_blurred db (blur_of_excludes hexcludes) hexcludes, hcount]
    rfl
  refine Prog.agrees_read_bind ?_ ?_
  · rw [show (blurred db).requests = db.requests from rfl]
    congr 1
    exact funext fun r => (hdetail r).symm
  · split
    · exact Prog.agrees_throw _
    · rename_i r _
      exact (Tenancy.availableActions_agrees fun action fromState toState => request_guards_blurred db r.row action fromState toState none).bind
        fun _ => Prog.agrees_pure _

/-- A finding is shown without a look at what is hidden, unless its evidence has a RESTRICTED document. -/
theorem finding_blurred {id : Uuid} (h : ¬Exposes db (.finding ctx id)) : (Findings.get ctx id).Agrees db (blurred db) := by
  unfold Findings.get
  refine agrees_bind_run (Prog.agrees_read_bind rfl (Prog.Agrees.ite (Prog.agrees_throw _) (Prog.agrees_pure _)))
    fun _ s₁ hfound => (documentScope_blurred db ctx).bind fun scope => ?_
  have hdocuments : Findings.documentsOf ctx id scope (blurred db) = Findings.documentsOf ctx id scope db := by
    have hexcludes : ∀ i d, (ctx.sees d && (decide (d.ownerType = some "Finding") && decide (d.ownerId = some id) &&
        d.deletedAt.isNone && (ctx.hasPermission .documentRestricted || d.classification ≠ .restricted) && scope i d)) =
        true → d.classification ≠ .restricted := by
      intro i d h
      simp only [hctx, Bool.false_or, Bool.and_eq_true, decide_eq_true_eq] at h
      exact h.2.1.2
    exact rows_blurred db (blur_of_excludes hexcludes) hexcludes
  refine Prog.agrees_read_bind ?_ ?_
  · rw [show (blurred db).findings = db.findings from rfl]
    cases hf : ctx.findById db.findings id fun f => f.deletedAt.isNone with
    | none => rfl
    | some f =>
      have hscope : findingScope ctx db f = true := by
        have hcount : (ctx.count db.findings fun j f => j = id && f.deletedAt.isNone && findingScope ctx db f) ≠ 0 := by
          intro hzero
          rw [ObjectAccess.assertFinding, Prog.run_bind, Prog.run_read] at hfound
          simp [hzero] at hfound
        obtain ⟨f', hf', hscope⟩ := Findings.accessible_iff_count.mp hcount
        rw [hf, Option.some.injEq] at hf'
        rwa [hf']
      have hevidence : ∀ e ∈ db.evidence.rows fun i _ => i ∈ f.evidenceIds,
          (e, related (blurred db).documents e.2.documentId) = (e, related db.documents e.2.documentId) := by
        intro e he
        obtain ⟨hfind, hlinked⟩ := (Table.mem_rows_iff _ _ _ _).mp he
        rw [related_blurred fun i hi => Bool.eq_false_iff.mpr fun hr =>
          h ⟨f, hf, hscope, e.1, of_decide_eq_true hlinked, e.2, hfind, i, hi, hr⟩]
      have hmap := List.map_congr_left hevidence
      simp only [Option.map_some, Option.some.injEq]
      unfold Findings.detail
      rw [show (blurred db).evidence = db.evidence from rfl, hmap]
      rfl
  · split
    · exact Prog.agrees_throw _
    · rename_i f _
      exact Prog.agrees_read_bind hdocuments.symm
        ((Tenancy.availableActions_agrees fun action fromState toState => finding_guards_blurred db f.row action fromState toState none).bind
          fun _ => Prog.agrees_pure _)

omit hctx in
/-- So is a workpaper. -/
theorem workpaper_blurred {id : Uuid} (h : ¬Exposes db (.workpaper ctx id)) :
    (Workpapers.get ctx id).Agrees db (blurred db) := by
  unfold Workpapers.get
  refine Prog.agrees_read_bind ?_ ?_
  · rw [show (blurred db).workpapers = db.workpapers from rfl]
    cases hw : ctx.findById db.workpapers id fun w => w.deletedAt.isNone with
    | none => rfl
    | some w =>
      have hevidence : ∀ e ∈ db.evidence.rows fun _ e => e.workpaperId = some id,
          (e, related (blurred db).documents e.2.documentId, related db.users (some e.2.obtainedById)) =
            (e, related db.documents e.2.documentId, related db.users (some e.2.obtainedById)) := by
        intro e he
        obtain ⟨hfind, hof⟩ := (Table.mem_rows_iff _ _ _ _).mp he
        rw [related_blurred fun i hi => Bool.eq_false_iff.mpr fun hr =>
          h ⟨by rw [hw]; rfl, e.1, e.2, hfind, of_decide_eq_true hof, i, hi, hr⟩]
      have hmap := List.map_congr_left hevidence
      simp only [Option.map_some, Option.some.injEq]
      unfold Workpapers.detail
      rw [show (blurred db).evidence = db.evidence from rfl, show (blurred db).users = db.users from rfl, hmap]
      rfl
  · split
    · exact Prog.agrees_throw _
    · rename_i d _
      exact (Tenancy.availableActions_agrees fun action fromState toState => workpaper_guards_blurred db d.row action fromState toState none).bind
        fun _ => Prog.agrees_pure _

omit hctx in
/-- So is the evidence of an engagement. -/
theorem evidence_blurred {engagementId : Uuid} {query : Evidence.EvidenceListQueryDto}
    (h : ¬Exposes db (.evidence ctx engagementId query)) :
    (Evidence.listForEngagement ctx engagementId query).Agrees db (blurred db) := by
  unfold Evidence.listForEngagement
  refine Prog.agrees_read_bind rfl ?_
  cases heng : ctx.findById db.engagements engagementId fun e => e.deletedAt.isNone with
  | none => exact Prog.agrees_throw _
  | some eng =>
    refine Prog.agrees_read (List.map_congr_left fun e he => ?_)
    obtain ⟨hfind, hcond⟩ := (Table.mem_rows_iff _ _ _ _).mp he
    simp only [Bool.and_eq_true, decide_eq_true_eq] at hcond
    obtain ⟨hsees, ⟨⟨hof, hworkpaper⟩, htype⟩, hq⟩ := hcond
    unfold Evidence.view
    rw [related_blurred fun i hi => Bool.eq_false_iff.mpr fun hr =>
      h ⟨by rw [heng]; rfl, e.1, e.2, hfind, hsees, hof, hworkpaper, htype, hq, i, hi, hr⟩]
    rfl

/-- **What is not exposed is hidden**. -/
theorem show_blurred {q : Read} (hq : q.ctx = ctx) (h : ¬Exposes db q) : (show_ q).Agrees db (blurred db) := by
  cases q with
  | documents ctx' query =>
    subst hq
    exact (list_blurred db hctx query).bind fun _ => Prog.agrees_pure _
  | document ctx' id =>
    subst hq
    exact (get_blurred db hctx id).bind fun _ => Prog.agrees_pure _
  | finding ctx' id =>
    subst hq
    exact (finding_blurred db hctx h).bind fun _ => Prog.agrees_pure _
  | request ctx' id =>
    subst hq
    exact (request_blurred db hctx id).bind fun _ => Prog.agrees_pure _
  | workpaper ctx' id => exact (workpaper_blurred db h).bind fun _ => Prog.agrees_pure _
  | evidence ctx' engagementId query => exact (evidence_blurred db h).bind fun _ => Prog.agrees_pure _

end Hidden

end Blurred

/-! ### What is exposed -/

/-- Whether something is exposed is seen in the blurred database. -/
theorem exposes_blurred (db : Db) (q : Read) : Exposes (blurred db) q ↔ Exposes db q := by
  have hrestricted : ∀ e, HasRestricted (blurred db) e ↔ HasRestricted db e := by
    intro e
    unfold HasRestricted
    simp only [isRestricted_blurred]
  have hall : HasRestricted (blurred db) = HasRestricted db := funext fun e => propext (hrestricted e)
  cases q <;> (unfold Exposes; try rw [hall]) <;> rfl

theorem exposes_alike {db db' : Db} (h : Alike db db') (q : Read) : Exposes db q ↔ Exposes db' q := by
  rw [← exposes_blurred db, ← exposes_blurred db', h]

/-- The database with other names for its RESTRICTED documents. -/
def renamed (db : Db) : Db := { db with
  documents := db.documents.modify (fun _ d => d.classification = .restricted) fun d =>
    { d with fileName := d.fileName ++ "?" } }

theorem renamed_alike (db : Db) : Alike db (renamed db) := by
  unfold Alike
  have hblur : ∀ d : Document, blur (if d.classification = .restricted then { d with fileName := d.fileName ++ "?" }
      else d) = blur d := by
    intro d
    by_cases hd : d.classification = .restricted
    · simp [blur, hd]
    · simp [hd]
  have hdocuments : (renamed db).documents.modify (fun _ _ => true) blur = db.documents.modify (fun _ _ => true) blur := by
    refine Table.ext ?_
    simp only [renamed, Table.modify, List.map_map]
    refine List.map_congr_left fun e _ => ?_
    simp [hblur]
  have hrestricted : ∀ i, isRestricted (renamed db) i = isRestricted db i := by
    intro i
    unfold isRestricted renamed
    rw [Table.find_modify]
    cases db.documents.find i with
    | none => rfl
    | some d => by_cases hd : d.classification = .restricted <;> simp [hd]
  unfold blurred
  rw [hdocuments]
  simp only [hrestricted]
  rfl

/-- A RESTRICTED document is shown differently after it is renamed. -/
theorem related_renamed {db : Db} {i : Uuid} (h : isRestricted db i = true) :
    related (renamed db).documents (some i) ≠ related db.documents (some i) := by
  unfold isRestricted at h
  cases hd : db.documents.find i with
  | none =>
    rw [hd] at h
    cases h
  | some d =>
    rw [hd, Option.any_some, decide_eq_true_eq] at h
    have hrenamed : (renamed db).documents.find i = some { d with fileName := d.fileName ++ "?" } := by
      rw [show (renamed db).documents.find i = _ from Table.find_modify _ _ _ _, hd]
      simp [h]
    simp only [related, Option.bind_some, hd, hrenamed, Option.map_some, ne_eq, Option.some.injEq, Prod.mk.injEq,
      true_and]
    intro hsame
    have := congrArg (fun d : Document => d.fileName.length) hsame
    simp at this

theorem documentScope_readOnly (ctx : Ctx) : (documentScope ctx).ReadOnly := by
  unfold documentScope
  refine Prog.ReadOnly.ite (Prog.readOnly_pure _) ((Prog.readOnly_read _).bind fun findingIds =>
    (Prog.readOnly_read _).bind fun requests => Prog.ReadOnly.ite ?_ ?_)
  · exact (Prog.readOnly_pure _).bind fun _ => Prog.readOnly_pure _
  · exact (Prog.readOnly_read _).bind fun _ => Prog.readOnly_pure _

section Answers

variable (db : Db) {ctx : Ctx}

/-- A finding that the user may see is answered, with what `detail` says. -/
theorem finding_answered {id : Uuid} {f : Finding}
    (hf : ctx.findById db.findings id (fun f => f.deletedAt.isNone) = some f) (hscope : findingScope ctx db f = true) :
    ∃ a s', (Findings.get ctx id).run db = (.ok a, s') ∧ a.finding = Findings.detail db (id, f) := by
  obtain ⟨-, hok⟩ := (Findings.get_meets Interference.of_quiet (fun _ _ h => h) ctx id db).run Quiet.refl
  obtain ⟨a, ha⟩ := hok (fun _ _ h => h) ⟨f, hf, hscope⟩
  refine ⟨a, _, Prod.ext ha rfl, ?_⟩
  have hrun : (Findings.get ctx id).run db = (.ok a, ((Findings.get ctx id).run db).2) := Prod.ext ha rfl
  unfold Findings.get at hrun
  obtain ⟨_, s₁, haccess, hrun⟩ := Prog.run_bind_ok.mp hrun
  have h₁ : s₁ = db := by
    have hread : (ObjectAccess.assertFinding ctx id).ReadOnly :=
      (Prog.readOnly_read _).bind fun _ => Prog.ReadOnly.ite (Prog.readOnly_throw _) (Prog.readOnly_pure _)
    have := hread db
    rwa [haccess] at this
  subst h₁
  obtain ⟨scope, s₂, hdocuments, hrun⟩ := Prog.run_bind_ok.mp hrun
  have h₂ : s₂ = s₁ := by
    have := documentScope_readOnly ctx s₁
    rwa [hdocuments] at this
  subst h₂
  rw [Prog.run_bind, Prog.run_read] at hrun
  simp only [hf, Option.map_some] at hrun
  rw [Prog.run_bind, Prog.run_read] at hrun
  obtain ⟨actions, s₃, -, hrun⟩ := Prog.run_bind_ok.mp hrun
  cases hrun
  rfl

/-- So is a workpaper of the tenant. -/
theorem workpaper_answered {id : Uuid} {w : Workpaper}
    (hw : ctx.findById db.workpapers id (fun w => w.deletedAt.isNone) = some w) :
    ∃ a s', (Workpapers.get ctx id).run db = (.ok a, s') ∧ a.1 = Workpapers.detail db (id, w) := by
  obtain ⟨-, hok⟩ := (Workpapers.get_meets Workpapers.Interference.of_aside (fun _ => trivial) ctx id db
    (G := fun _ _ => True)).run Workpapers.Aside.refl
  obtain ⟨a, ha⟩ : ∃ a, ((Workpapers.get ctx id).run db).1 = .ok a := by
    rcases hok with hok | ⟨s₁, haside, hnone⟩
    · exact hok
    · unfold Workpapers.found at hnone
      rw [haside.rest, hw] at hnone
      cases hnone
  have hrun : (Workpapers.get ctx id).run db = (.ok a, ((Workpapers.get ctx id).run db).2) := Prod.ext ha rfl
  refine ⟨a, _, hrun, ?_⟩
  unfold Workpapers.get at hrun
  rw [Prog.run_bind, Prog.run_read] at hrun
  simp only [hw, Option.map_some] at hrun
  obtain ⟨actions, s₁, -, hrun⟩ := Prog.run_bind_ok.mp hrun
  cases hrun
  rfl

/-- So is the evidence of an engagement of the tenant. -/
theorem evidence_answered {engagementId : Uuid} (query : Evidence.EvidenceListQueryDto)
    (h : (ctx.findById db.engagements engagementId fun e => e.deletedAt.isNone).isSome = true) :
    ((Evidence.listForEngagement ctx engagementId query).run db).1 = .ok ((ctx.findMany db.evidence fun _ e =>
      e.engagementId = engagementId && query.workpaperId.all (e.workpaperId = some ·) && query.type.all (e.type = ·) &&
        query.q.all fun finds => finds e.description || finds e.reference).map (Evidence.view db)) := by
  unfold Evidence.listForEngagement
  rw [Prog.run_bind, Prog.run_read]
  obtain ⟨e, he⟩ := Option.isSome_iff_exists.mp h
  simp only [he]
  rfl

end Answers

/-- What is exposed is answered differently after RESTRICTED documents are renamed. -/
theorem exposed_differs {db : Db} {q : Read} (h : Exposes db q) :
    ((show_ q).run (renamed db)).1 ≠ ((show_ q).run db).1 := by
  intro hsame
  cases q with
  | documents ctx query => exact h
  | document ctx id => exact h
  | request ctx id => exact h
  | finding ctx id =>
    obtain ⟨f, hf, hscope, i, hi, e, he, d, hd, hrestricted⟩ := h
    obtain ⟨a, s₁, ha, hshown⟩ := finding_answered db hf hscope
    obtain ⟨a', s₁', ha', hshown'⟩ := finding_answered (renamed db) hf hscope
    simp only [show_, Prog.run_bind, ha, ha', Prog.run_pure, Except.ok.injEq, Shown.finding.injEq] at hsame
    have hlist := congrArg Findings.FindingDetail.evidence (hshown'.symm.trans ((congrArg _ hsame).trans hshown))
    have hrow : (i, e) ∈ db.evidence.rows fun i _ => i ∈ f.evidenceIds :=
      (Table.mem_rows_iff _ _ _ _).mpr ⟨he, decide_eq_true hi⟩
    have hpair := List.map_inj_left.mp hlist (i, e) hrow
    rw [Prod.mk.injEq, hd] at hpair
    exact related_renamed hrestricted hpair.2
  | workpaper ctx id =>
    obtain ⟨hw, i, e, he, hof, d, hd, hrestricted⟩ := h
    obtain ⟨w, hw⟩ := Option.isSome_iff_exists.mp hw
    obtain ⟨a, s₁, ha, hshown⟩ := workpaper_answered db hw
    obtain ⟨a', s₁', ha', hshown'⟩ := workpaper_answered (renamed db) hw
    simp only [show_, Prog.run_bind, ha, ha', Prog.run_pure, Except.ok.injEq, Shown.workpaper.injEq] at hsame
    have hlist := congrArg Workpapers.WorkpaperDetail.evidence (hshown'.symm.trans ((congrArg _ hsame).trans hshown))
    have hrow : (i, e) ∈ db.evidence.rows fun _ e => e.workpaperId = some id :=
      (Table.mem_rows_iff _ _ _ _).mpr ⟨he, decide_eq_true hof⟩
    have hpair := List.map_inj_left.mp hlist (i, e) hrow
    rw [hd] at hpair
    exact related_renamed hrestricted (Prod.mk.inj (Prod.mk.inj hpair).2).1
  | evidence ctx engagementId query =>
    obtain ⟨heng, i, e, he, hsees, hof, hworkpaper, htype, hq, d, hd, hrestricted⟩ := h
    have hanswer := evidence_answered db query heng
    have hanswer' := evidence_answered (renamed db) query heng
    have hlists : Except.map Shown.evidence ((Evidence.listForEngagement ctx engagementId query).run (renamed db)).1 =
        Except.map Shown.evidence ((Evidence.listForEngagement ctx engagementId query).run db).1 := by
      simpa only [show_, run_return] using hsame
    rw [hanswer, hanswer'] at hlists
    simp only [Except.map, Except.ok.injEq, Shown.evidence.injEq] at hlists
    have hrow : (i, e) ∈ ctx.findMany db.evidence fun _ e =>
        e.engagementId = engagementId && query.workpaperId.all (e.workpaperId = some ·) && query.type.all (e.type = ·) &&
          query.q.all fun finds => finds e.description || finds e.reference :=
      (Table.mem_rows_iff _ _ _ _).mpr ⟨he, by simp [hsees, hof, hworkpaper, htype, hq]⟩
    have hview := List.map_inj_left.mp hlists (i, e) hrow
    have hdocument := congrArg Evidence.EvidenceView.document hview
    simp only [Evidence.view, hd] at hdocument
    exact related_renamed hrestricted hdocument

open Workpapers (office actor)

/-- A RESTRICTED document of the office. -/
def salaries : Document where
  tenantId := 1
  ownerType := some "Engagement"
  ownerId := some 10
  fileName := "Salaries.xlsx"
  mimeType := "text/csv"
  sizeBytes := 3
  storageKey := .uuid 1 60
  checksumSha256 := none
  classification := .restricted
  uploadedById := 2
  isQuarantined := false
  uploadedAt := some 5
  deletedAt := none

/-- An evidence record with that document. -/
def payroll : Evidence where
  tenantId := 1
  engagementId := 10
  workpaperId := none
  documentId := some 50
  reference := "E-001"
  description := "Payroll"
  type := .document
  obtainedFrom := none
  obtainedAt := none
  obtainedById := 2
  isSufficient := none

/-- The office with the document, and the record if it is `linked`. -/
def archive (linked : Bool) : Db := { office with
  documents := ⟨[(50, salaries)], by decide⟩
  evidence := if linked then ⟨[(70, payroll)], by decide⟩ else .empty }

/-- The names of the documents that are shown with evidence. -/
def shownNames : Except HttpError Shown → List String
  | .ok (.evidence items) => items.filterMap fun e => e.document.map fun d => d.2.fileName
  | _ => []

end AuditSphere.Documents
