import AuditSphere.Documents.Uploads
import AuditSphere.Findings.Service
import AuditSphere.Workpapers.History

/-!
# The scopes of one user agree

`engagementScope`, `findingScope`, `requestScope` and `documentScope` are written separately.
Who sees a finding or a request of an engagement sees the engagement, since each disjunct of
the smaller scope is one of the larger. Who may upload a document for a record sees the
document: `assertUploadOwner` looks for the record as `documentScope` does, but for the
finding of a recommendation, which the first reaches through the recommendation, whatever its
tenant, and the second by a query of the tenant.
-/

namespace AuditSphere.ObjectAccess

open Prisma Theory Shared Documents

variable {ctx : Ctx} {db : Db}

/-! ### Engagements -/

/-- Who owns a finding, or is on its engagement, sees the engagement. -/
theorem engagementScope_of_finding {i : Uuid} {f : Finding} {e : Engagement} (hf : db.findings.find i = some f)
    (hscope : findingScope ctx db f = true) (he : db.engagements.find f.engagementId = some e) :
    engagementScope ctx db f.engagementId e = true := by
  simp only [findingScope, Bool.or_eq_true] at hscope
  rcases hscope with (hoffice | howner) | hdirect
  · simp [engagementScope, hoffice]
  · have hfirst : (db.findings.first fun _ g => g.engagementId = f.engagementId && directFindingOwnerScope ctx g).isSome :=
      Table.isSome_first_iff.mpr ⟨i, f, hf, by simp [howner]⟩
    simp [engagementScope, hfirst]
  · rw [he, Option.any_some] at hdirect
    simp [engagementScope, hdirect]

/-- Who is asked for documents sees the engagement. -/
theorem engagementScope_of_request {i : Uuid} {r : DocumentRequest} (e : Engagement)
    (hr : db.requests.find i = some r) (hscope : requestScope ctx r = true) :
    engagementScope ctx db r.engagementId e = true := by
  have hfirst : (db.requests.first fun _ q => q.engagementId = r.engagementId && requestScope ctx q).isSome :=
    Table.isSome_first_iff.mpr ⟨i, r, hr, by simp [hscope]⟩
  simp [engagementScope, hfirst]

/-! ### Documents -/

/-- What `documentScope` answers. -/
def visibleDocument (ctx : Ctx) (db : Db) (id : Uuid) (d : Document) : Bool :=
  if !isPortalScoped ctx then d.ownerType ≠ some "AiContext" || ownContext ctx d
  else
    let findingIds := (ctx.findMany db.findings fun _ f => f.deletedAt.isNone && findingScope ctx db f).map Prod.fst
    let requests := ctx.findMany db.requests fun _ r => requestScope ctx r
    ownContext ctx d || (d.ownerType = some "Finding" && d.ownerId.any (· ∈ findingIds)) ||
      (d.ownerType = some "Recommendation" &&
        d.ownerId.any (· ∈ (ctx.findMany db.recommendations fun _ r => r.findingId ∈ findingIds).map Prod.fst)) ||
      (d.ownerType = some "DocumentRequest" && d.ownerId.any (· ∈ requests.map Prod.fst)) ||
      requests.any fun r => id ∈ r.2.documentIds

theorem documentScope_run (ctx : Ctx) (db : Db) :
    (documentScope ctx).run db = (.ok (visibleDocument ctx db), db) := by
  unfold documentScope visibleDocument
  by_cases hportal : isPortalScoped ctx
  · simp only [hportal, Bool.not_true, Bool.false_eq_true, if_false, Prog.run_bind, Prog.run_read]
    split
    · rename_i hnone
      -- no finding, no recommendation
      simp only [hnone]
      simp [Ctx.findMany, Table.rows]
    · rfl
  · simp [hportal]

/-- Every recommendation belongs to the tenant of its finding. -/
def RecommendationsWithin (db : Db) : Prop :=
  ∀ i r f, db.recommendations.find i = some r → db.findings.find r.findingId = some f → f.tenantId = r.tenantId

/-- A request passes the check that the user sees. -/
theorem assertRequest_ok {id : Uuid} (h : (assertRequest ctx id).run db = (.ok (), db)) :
    ∃ r, db.requests.find id = some r ∧ ctx.sees r = true ∧ requestScope ctx r = true := by
  have hcount : (ctx.count db.requests fun j r => j = id && requestScope ctx r) ≠ 0 := by
    intro hzero
    simp [assertRequest, Prog.run_bind, hzero] at h
  obtain ⟨j, r, hr, hsees, hcond⟩ := Ctx.count_ne_zero_iff.mp hcount
  simp only [Bool.and_eq_true, decide_eq_true_eq] at hcond
  obtain ⟨rfl, hscope⟩ := hcond
  exact ⟨r, hr, hsees, hscope⟩

/-- So does a finding. -/
theorem assertFinding_ok {id : Uuid} (h : (assertFinding ctx id).run db = (.ok (), db)) :
    ∃ f, db.findings.find id = some f ∧ ctx.sees f = true ∧ (f.deletedAt.isNone && findingScope ctx db f) = true := by
  have hcount : (ctx.count db.findings fun j f => j = id && f.deletedAt.isNone && findingScope ctx db f) ≠ 0 := by
    intro hzero
    simp [assertFinding, Prog.run_bind, hzero] at h
  obtain ⟨j, f, hf, hsees, hcond⟩ := Ctx.count_ne_zero_iff.mp hcount
  simp only [Bool.and_eq_true, decide_eq_true_eq] at hcond
  obtain ⟨⟨rfl, hdeleted⟩, hscope⟩ := hcond
  exact ⟨f, hf, hsees, by simp [hdeleted, hscope]⟩

/-- What a portal user may upload for is among what `documentScope` looks up. -/
theorem portalOwner_visible {ownerType : DocumentOwnerType} {ownerId : Uuid} (hwithin : RecommendationsWithin db)
    (hportal : isPortalScoped ctx = true) (h : (assertPortalOwner ctx ownerType ownerId).run db = (.ok (), db))
    {d : Document} (htype : d.ownerType = some ownerType.text) (hid : d.ownerId = some ownerId) (id : Uuid) :
    visibleDocument ctx db id d = true := by
  cases ownerType with
  | documentRequest =>
    have hmem : ownerId ∈ (ctx.findMany db.requests fun _ r => requestScope ctx r).map Prod.fst :=
      Ctx.mem_findMany_iff.mpr (assertRequest_ok h)
    simp only [visibleDocument, hportal, htype, hid, DocumentOwnerType.text, Option.any_some, hmem]
    simp
  | finding =>
    have hmem : ownerId ∈ (ctx.findMany db.findings fun _ f => f.deletedAt.isNone && findingScope ctx db f).map Prod.fst :=
      Ctx.mem_findMany_iff.mpr (assertFinding_ok h)
    simp only [visibleDocument, hportal, htype, hid, DocumentOwnerType.text, Option.any_some, hmem]
    simp
  | recommendation =>
    have hsome : (ctx.findById db.recommendations ownerId fun r =>
        (db.findings.find r.findingId).any fun f => f.deletedAt.isNone && findingScope ctx db f) ≠ none := by
      intro hnone
      simp [assertPortalOwner, Prog.run_bind, hnone] at h
    obtain ⟨r, hr⟩ := Option.ne_none_iff_exists'.mp hsome
    obtain ⟨hfind, hsees, hany⟩ := Ctx.findById_eq_some.mp hr
    obtain ⟨f, hf, hcond⟩ := (Option.any_eq_true _ _).mp hany
    -- the finding is one of the tenant, since its recommendation is
    have hfsees : ctx.sees f = true := by
      rw [Ctx.sees_iff_tenant rfl] at hsees ⊢
      rw [hwithin ownerId r f hfind hf, hsees]
    have hfinding : r.findingId ∈
        (ctx.findMany db.findings fun _ f => f.deletedAt.isNone && findingScope ctx db f).map Prod.fst :=
      Ctx.mem_findMany_iff.mpr ⟨f, hf, hfsees, hcond⟩
    have hmem : ownerId ∈ (ctx.findMany db.recommendations fun _ r => r.findingId ∈
        (ctx.findMany db.findings fun _ f => f.deletedAt.isNone && findingScope ctx db f).map Prod.fst).map Prod.fst :=
      Ctx.mem_findMany_iff.mpr ⟨r, hfind, hsees, decide_eq_true hfinding⟩
    simp only [visibleDocument, hportal, htype, hid, DocumentOwnerType.text, Option.any_some, hmem]
    simp
  | _ => simp [assertPortalOwner] at h

/-- What a user may upload for, the user sees the documents of. -/
theorem uploadOwner_visible {ownerType : DocumentOwnerType} {ownerId : Uuid} (hwithin : RecommendationsWithin db)
    (h : (assertUploadOwner ctx ownerType ownerId).run db = (.ok (), db)) {d : Document}
    (htype : d.ownerType = some ownerType.text) (hid : d.ownerId = some ownerId) (huser : d.uploadedById = ctx.userId)
    (id : Uuid) : visibleDocument ctx db id d = true := by
  unfold assertUploadOwner at h
  split at h
  · rename_i hcontext
    subst hcontext
    have hself : ownerId = ctx.userId := by
      by_contra hother
      simp [hother] at h
    have hown : ownContext ctx d = true := by
      simp [ownContext, htype, hid, huser, hself, DocumentOwnerType.text]
    simp [visibleDocument, hown]
  · rename_i hcontext
    split at h
    · rename_i hportal
      exact portalOwner_visible hwithin hportal h htype hid id
    · rename_i hoffice
      have hshared : ownerType.text ≠ "AiContext" := by
        cases ownerType <;> first | exact absurd rfl hcontext | decide
      simp [visibleDocument, hoffice, htype, hshared]

/-- What `insertDocument` does. -/
theorem insertDocument_ok {id : Uuid} {d : Document} {db' : Db} (h : (insertDocument id d).run db = (.ok (), db')) :
    db'.documents.find id = some d ∧ db' = { db with documents := db'.documents } := by
  have hcall := Prog.run_call_ok.mp h
  split at hcall
  · obtain ⟨t, ht, hcall⟩ := Prog.bind_eq_ok.mp hcall
    cases hcall
    exact ⟨by rw [(insertRow_ok ht).2, if_pos rfl], rfl⟩
  · cases hcall

/-- **The scopes agree**: a finding or a request that a user sees is of an engagement that the
user sees, if it is not deleted; and a user sees the document that the user uploads, as long
as recommendations belong to the tenant of their finding. -/
theorem scopes_agree (ctx : Ctx) (db : Db) :
    (∀ i f e, db.findings.find i = some f → findingScope ctx db f = true →
      db.engagements.find f.engagementId = some e → e.deletedAt.isNone → engagementScope ctx db f.engagementId e = true) ∧
    (∀ i r e, db.requests.find i = some r → requestScope ctx r = true →
      db.engagements.find r.engagementId = some e → e.deletedAt.isNone → engagementScope ctx db r.engagementId e = true) ∧
    (RecommendationsWithin db → ∀ (dto : PresignUploadDto) (classification : DocumentClassification) (db' : Db),
      (assertUploadOwner ctx dto.ownerType dto.ownerId).run db = (.ok (), db) →
      (insertDocument (ctx.uuid 0) (newDocument ctx dto classification)).run db = (.ok (), db') →
        (∃ scope, (documentScope ctx).run db' = (.ok scope, db') ∧
          scope (ctx.uuid 0) (newDocument ctx dto classification) = true) ∧
        (assertDocument ctx (ctx.uuid 0)).run db' = (.ok (), db')) := by
  refine ⟨fun i f e hf hscope he _ => engagementScope_of_finding hf hscope he,
    fun i r e hr hscope _ _ => engagementScope_of_request e hr hscope, ?_⟩
  intro hwithin dto classification db' hallowed hinsert
  obtain ⟨hfind, hrest⟩ := insertDocument_ok hinsert
  have hvisible : visibleDocument ctx db' (ctx.uuid 0) (newDocument ctx dto classification) = true := by
    rw [hrest]
    exact uploadOwner_visible hwithin hallowed (d := newDocument ctx dto classification) rfl rfl rfl (ctx.uuid 0)
  refine ⟨⟨_, documentScope_run ctx db', hvisible⟩, ?_⟩
  have hcount : (ctx.count db'.documents fun j d =>
      j = ctx.uuid 0 && d.deletedAt.isNone && visibleDocument ctx db' j d) ≠ 0 :=
    Ctx.count_ne_zero_iff.mpr ⟨_, _, hfind, (Ctx.sees_iff_tenant rfl).mpr rfl, by rw [hvisible]; simp [newDocument]⟩
  unfold assertDocument
  rw [Prog.run_bind, documentScope_run]
  dsimp only
  rw [Prog.run_bind, Prog.run_read]
  dsimp only
  rw [if_neg hcount]
  rfl

open Workpapers (office treasury actor)

/-- A business owner of the office. -/
def owner : Ctx := { actor 1 100 with roles := ["BUSINESS_OWNER"], permissions := [.findingRead, .documentUpload] }

/-- A finding that she owns, of a tenant. -/
def overdue (tenantId : Uuid) : Finding :=
  Findings.newFinding { owner with tenantId } {
    engagementId := 10, title := "Float", severity := .high, condition := "Unreconciled", criteria := "Policy"
    actionOwnerId := some (some 1) } treasury "F-01"

/-- What is to be done about it. -/
def reconcile : Recommendation where
  tenantId := 1
  findingId := 30
  sequence := 1
  text := "Reconcile"
  priority := .high
  ownerId := none
  ownerName := none
  dueDate := none
  status := .proposed
  actionPlan := none
  progressNote := none
  progressPct := 0
  completedAt := none

/-- The office with the finding, of a tenant, and the recommendation. -/
def register (tenantId : Uuid) : Db := { office with
  findings := ⟨[(30, overdue tenantId)], by simp⟩
  recommendations := ⟨[(40, reconcile)], by simp⟩ }

/-- What she uploads for the recommendation. -/
def bankStatement : PresignUploadDto where
  fileName := "Bank statement.csv"
  mimeType := "text/csv"
  sizeBytes := 3
  ownerType := .recommendation
  ownerId := 40

theorem register_within : RecommendationsWithin (register 1) := by
  intro i r f hr hf
  obtain ⟨-, rfl⟩ : i = 40 ∧ r = reconcile := by simpa [register, Table.find_eq_some_iff] using hr
  obtain ⟨-, rfl⟩ : _ ∧ f = overdue 1 := by simpa [register, Table.find_eq_some_iff] using hf
  rfl

/-- She sees what she has uploaded. -/
theorem scopes_agree_owner : ∃ db', (assertDocument owner 100).run db' = (.ok (), db') := by
  have hinsert : (insertDocument (owner.uuid 0) (newDocument owner bankStatement .confidential)).run (register 1) =
      (.ok (), ((insertDocument (owner.uuid 0) (newDocument owner bankStatement .confidential)).run (register 1)).2) := rfl
  exact ⟨_, ((scopes_agree owner (register 1)).2.2 register_within bankStatement .confidential _ rfl hinsert).2⟩

/-- Where the finding is of another tenant she does not. -/
theorem foreign_upload_hidden : ¬∀ (ctx : Ctx) (db : Db) (dto : PresignUploadDto)
    (classification : DocumentClassification) (db' : Db), isPortalScoped ctx = true →
    (assertUploadOwner ctx dto.ownerType dto.ownerId).run db = (.ok (), db) →
    (insertDocument (ctx.uuid 0) (newDocument ctx dto classification)).run db = (.ok (), db') →
    ∃ scope, (documentScope ctx).run db' = (.ok scope, db') ∧
      scope (ctx.uuid 0) (newDocument ctx dto classification) = true := by
  intro h
  obtain ⟨scope, hrun, hscope⟩ := h owner (register 2) bankStatement .confidential
    ((insertDocument (owner.uuid 0) (newDocument owner bankStatement .confidential)).run (register 2)).2
    (by decide) rfl rfl
  rw [documentScope_run, Prod.mk.injEq, Except.ok.injEq] at hrun
  rw [← hrun.1] at hscope
  revert hscope
  decide

end AuditSphere.ObjectAccess
