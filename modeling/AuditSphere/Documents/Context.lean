import AuditSphere.Documents.Scanned
import AuditSphere.Engagements.Requests
import AuditSphere.Evidence.Requests
import AuditSphere.Records.Journal
import AuditSphere.Requests.Calls
import AuditSphere.Theory.Yields

/-!
# Context for the assistant

A user may upload documents as context for the assistant. They belong to that user: the services that look at
documents, link them to other records or make them belong to one have each a check of their own that leaves
such documents to their uploader. A check and what relies on it are calls of their own, so `Allowed` says of a
call what it may do by what its request has seen before.

The listing of a portal user shows what is linked to a request of the user, without a look at the owner of the
document. Whether it may be shown depends on what links the other services make (`Showable`).
-/

namespace AuditSphere.Documents.Context

open Prisma Theory Shared

/-! ### What a call may do -/

/-- The document is context for the assistant. -/
abbrev IsContext (d : Document) : Prop := d.ownerType = some "AiContext"

/-- To whom a document belongs. -/
def ownership (d : Document) : Option String × Option Uuid × Uuid := (d.ownerType, d.ownerId, d.uploadedById)

/-- The user has uploaded the document, and it belongs to the user. -/
def Own (user : Option Uuid) (d : Document) : Prop := d.ownerId = user ∧ some d.uploadedById = user

/-- A record of evidence, a request or the report of an engagement refers to the document. -/
def Linked (db : Db) (i : Uuid) : Prop :=
  (∃ j e, db.evidence.find j = some e ∧ e.documentId = some i) ∨
    (∃ j r, db.requests.find j = some r ∧ i ∈ r.documentIds) ∨
      ∃ j e, db.engagements.find j = some e ∧ e.reportDocumentId = some i

/-- The document has been seen, and was not context. -/
def SawShared (l : List Db) (i : Uuid) : Prop := ∃ x ∈ l, ∃ d, x.documents.find i = some d ∧ ¬IsContext d

/-- The document has been seen, and the user may use it. -/
def SawUsable (user : Option Uuid) (l : List Db) (i : Uuid) : Prop :=
  ∃ x ∈ l, ∃ d, x.documents.find i = some d ∧ (IsContext d → Own user d)

/-- What a call for a user may do that has seen some states: a document that is changed belongs to whom it did,
and may be used by the user, or is not context and has been seen not to be; new context is the user's own; and
what is linked has been seen not to be context. -/
structure Allowed (user : Option Uuid) (l : List Db) (s s' : Db) : Prop where
  documents : ∀ i d, s.documents.find i = some d → ∃ d', s'.documents.find i = some d' ∧
    (d' = d ∨ ownership d' = ownership d ∧ SawUsable user l i ∨ ¬IsContext d' ∧ SawShared (s :: l) i)
  fresh : ∀ i d', s'.documents.find i = some d' → s.documents.find i = none → IsContext d' → Own user d'
  links : ∀ i, Linked s' i → Linked s i ∨ SawShared (s :: l) i

/-- Documents stay, and no link is made. -/
def Aside (s s' : Db) : Prop := s'.documents = s.documents ∧ ∀ i, Linked s' i → Linked s i

theorem SawShared.mono {l l' : List Db} {i : Uuid} (h : SawShared l i) (hl : l ⊆ l') : SawShared l' i :=
  h.imp fun _ hx => ⟨hl hx.1, hx.2⟩

theorem SawUsable.mono {user : Option Uuid} {l l' : List Db} {i : Uuid} (h : SawUsable user l i) (hl : l ⊆ l') :
    SawUsable user l' i :=
  h.imp fun _ hx => ⟨hl hx.1, hx.2⟩

theorem SawShared.later {l : List Db} {i : Uuid} (h : SawShared l i) (s : Db) : SawShared (s :: l) i :=
  h.mono (List.subset_cons_self s l)

/-! ### Rules -/

section Rules

variable {α : Type} {user : Option Uuid} {l : List Db} {s s' : Db}

theorem Aside.refl (s : Db) : Aside s s := ⟨rfl, fun _ => id⟩

/-- Other links are made of documents that stay. -/
theorem allowed_of_links (hdocuments : s'.documents = s.documents)
    (hlinks : ∀ i, Linked s' i → Linked s i ∨ SawShared (s :: l) i) : Allowed user l s s' := by
  refine ⟨fun i d hd => ⟨d, hdocuments ▸ hd, .inl rfl⟩, fun i d' hd' hnone => ?_, hlinks⟩
  rw [hdocuments, hnone] at hd'
  cases hd'

theorem Aside.allowed (h : Aside s s') : Allowed user l s s' := allowed_of_links h.1 fun i hi => .inl (h.2 i hi)

theorem allowed_refl (s : Db) : Allowed user l s s := (Aside.refl s).allowed

/-- One document is changed: it belongs to whom it did, or has been seen not to be context. -/
theorem allowed_of_update {id : Uuid} {d d' : Document} (hd : s.documents.find id = some d)
    (hrows : ∀ j, s'.documents.find j = if j = id then some d' else s.documents.find j)
    (hlinks : ∀ i, Linked s' i → Linked s i)
    (hchange : ownership d' = ownership d ∧ SawUsable user l id ∨ ¬IsContext d' ∧ SawShared (s :: l) id) :
    Allowed user l s s' := by
  refine ⟨fun i e he => ?_, fun i e he hnone => ?_, fun i hi => .inl (hlinks i hi)⟩
  · by_cases hi : i = id
    · subst hi
      obtain rfl := Option.some.inj (hd.symm.trans he)
      exact ⟨d', (hrows i).trans (if_pos rfl), .inr hchange⟩
    · exact ⟨e, (hrows i).trans ((if_neg hi).trans he), .inl rfl⟩
  · rw [hrows] at he
    split at he
    · rename_i hi
      rw [hi, hd] at hnone
      cases hnone
    · rw [hnone] at he
      cases he

/-- Documents change, and no link is made. -/
theorem linked_of_documents (h : s' = { s with documents := s'.documents }) (i : Uuid) (hi : Linked s' i) :
    Linked s i := by
  rw [h] at hi
  exact hi

/-- Records change that are not linked to documents. -/
theorem aside_of_tables (hdocuments : s'.documents = s.documents) (hevidence : s'.evidence = s.evidence)
    (hrequests : s'.requests = s.requests) (hengagements : s'.engagements = s.engagements) : Aside s s' := by
  refine ⟨hdocuments, fun i hi => ?_⟩
  rw [Linked, hevidence, hrequests, hengagements] at hi
  exact hi

theorem aside_of_quiet (h : Quiet s s') : Aside s s' := by
  rw [h]
  exact aside_of_tables rfl rfl rfl rfl

theorem yields_aside {p : Service α} (hp : p.Calls Aside) : p.Yields (Allowed user) (fun _ _ => True) l :=
  hp.yields fun _ _ _ h => h.allowed

theorem yields_looks {p : Service α} (hp : Looks p) : p.Yields (Allowed user) (fun _ _ => True) l :=
  yields_aside (hp.mono fun _ _ h => h ▸ Aside.refl _)

theorem calls_of_within {F : Db → Db → Prop} {p : Service α} (hp : p.Within F) : p.Calls F := by
  induction p with
  | ret a => trivial
  | fail e => exact hp.elim
  | act u k ih => exact fun s => ⟨(hp s).1, ih s (hp s).2⟩

theorem yields_quiet {p : Service α} (hp : p.Within Quiet) : p.Yields (Allowed user) (fun _ _ => True) l :=
  yields_aside ((calls_of_within hp).mono fun _ _ => aside_of_quiet)

theorem yields_read {g : Db → α} {Q : α → List Db → Prop} (h : ∀ s, Q (g s) (s :: l)) :
    (Prog.read g : Service α).Yields (Allowed user) Q l :=
  Prog.yields_read allowed_refl h

theorem yields_findById (ctx : Ctx) (id : Uuid) (pred : Document → Bool) :
    (Prog.read fun db => ctx.findById db.documents id pred : Service (Option Document)).Yields (Allowed user)
      (fun found l' => ∀ d, found = some d → ∃ x ∈ l', x.documents.find id = some d) l :=
  yields_read fun s _ hd => ⟨s, List.mem_cons_self, (Ctx.findById_eq_some.mp hd).1⟩

theorem own_of_contextOwner {ctx : Ctx} {doc : Document} (h : assertContextOwner ctx doc = .ok ()) :
    IsContext doc → Own (some ctx.userId) doc := by
  intro hcontext
  unfold assertContextOwner at h
  split at h
  · cases h
  · rename_i hnot
    have hboth := not_or.mp fun h => hnot ⟨hcontext, h⟩
    exact ⟨not_not.mp hboth.1, congrArg some (not_not.mp hboth.2)⟩

/-- A document that may be used is not context, or the user's own. -/
theorem own_of_usable {ctx : Ctx} {requireUploaded allowQuarantined : Bool} {doc : Document}
    (h : assertUsable ctx requireUploaded allowQuarantined doc = .ok ()) :
    IsContext doc → Own (some ctx.userId) doc := by
  obtain ⟨_, hown, -⟩ := Prog.bind_eq_ok.mp h
  exact own_of_contextOwner hown

theorem yields_assertDocument (ctx : Ctx) (id : Uuid) (requireUploaded allowQuarantined : Bool) :
    (assertDocument ctx id requireUploaded allowQuarantined).Yields (Allowed user) (fun doc l' =>
      (∃ x ∈ l', x.documents.find id = some doc) ∧ (IsContext doc → Own (some ctx.userId) doc)) l := by
  refine (yields_looks (Serving.looks_accessDocument ctx id)).bind fun _ l₁ _ _ => ?_
  refine (yields_findById ctx id _).bind fun found l₂ _ hfound => ?_
  cases found with
  | none => exact Prog.yields_throw _
  | some doc =>
    dsimp only
    rcases husable : assertUsable ctx requireUploaded allowQuarantined doc with e | u
    · exact Prog.yields_throw _
    · exact Prog.yields_pure ⟨hfound doc rfl, own_of_usable husable⟩

end Rules

/-! ### Evidence -/

section Evidence

variable {user : Option Uuid} {l : List Db}

/-- The document that evidence is about has been seen not to be context. -/
theorem yields_evidenceDocument (ctx : Ctx) (documentId : Field Uuid) :
    (Evidence.assertDocument ctx documentId).Yields (Allowed user)
      (fun _ l' => ∀ i, documentId.orNull = some i → SawShared l' i) l := by
  unfold Evidence.assertDocument
  cases hid : documentId.orNull with
  | none => exact Prog.yields_pure nofun
  | some i =>
    refine (yields_findById ctx i _).bind fun doc l' _ hdoc => ?_
    cases doc with
    | none => exact Prog.yields_throw _
    | some d =>
      refine Prog.Yields.ite (fun _ => Prog.yields_throw _) fun hshared => Prog.yields_pure ?_
      rintro _ ⟨⟩
      obtain ⟨x, hx, hfind⟩ := hdoc d rfl
      exact ⟨x, hx, d, hfind, hshared⟩

/-- One record is written, about a document that it was about or that has been seen. -/
theorem allowed_of_evidence {s s' : Db} {id : Uuid} {e : Evidence}
    (hrows : ∀ j, s'.evidence.find j = if j = id then some e else s.evidence.find j)
    (hrest : s' = { s with evidence := s'.evidence })
    (hdocument : ∀ i, e.documentId = some i → Linked s i ∨ SawShared l i) : Allowed user l s s' := by
  refine allowed_of_links (by rw [hrest]) fun i hi => ?_
  rcases hi with ⟨j, r, hr, hlink⟩ | hi | hi
  · rw [hrows] at hr
    split at hr
    · cases hr
      exact (hdocument i hlink).imp_right fun h => h.later s
    · exact .inl (.inl ⟨j, r, hr, hlink⟩)
  · rw [hrest] at hi
    exact .inl (.inr (.inl hi))
  · rw [hrest] at hi
    exact .inl (.inr (.inr hi))

theorem yields_insertNumbered (ctx : Ctx) (dto : Evidence.CreateEvidenceDto) (left : ℕ)
    (hdocument : ∀ i, dto.documentId.orNull = some i → SawShared l i) :
    (Evidence.insertNumbered ctx dto left).Yields (Allowed user) (fun _ _ => True) l := by
  induction left generalizing l with
  | zero => exact Prog.yields_throw _
  | succ left ih =>
    refine Prog.Yields.bind (Q := fun _ _ => True) (yields_read fun _ => trivial) fun latest l₁ hl₁ _ => ?_
    have hseen : ∀ i, dto.documentId.orNull = some i → SawShared l₁ i := fun i hi => (hdocument i hi).mono hl₁.subset
    refine Prog.Yields.catching (Prog.yields_of_call allowed_refl fun s a s' h => ⟨?_, trivial⟩) fun e l₂ hl₂ => ?_
    · obtain ⟨-, -, -, hrows, hrest⟩ := Evidence.insertEvidence_ok h
      exact allowed_of_evidence hrows hrest fun i hi => .inr (hseen i hi)
    · exact Prog.Yields.ite (fun _ => ih fun i hi => (hseen i hi).mono hl₂.subset) fun _ => Prog.yields_throw _

/-- A document that belongs to nobody is not context. -/
theorem yields_adoptDocument (ctx : Ctx) (documentId : Field Uuid) (id : Uuid) :
    (Evidence.adoptDocument ctx documentId id).Yields (Allowed user) (fun _ _ => True) l := by
  unfold Evidence.adoptDocument
  cases documentId.orNull with
  | none => exact Prog.yields_pure trivial
  | some d =>
    refine fun s => ⟨⟨fun i doc hdoc => ?_, fun i doc hdoc hnone => ?_, fun i hi => .inl hi⟩, fun _ _ => trivial⟩
    · by_cases hfree : (ctx.sees doc && decide (i = d) && decide (doc.ownerType = none)) = true
      · refine ⟨{ doc with ownerType := some "Evidence", ownerId := some id }, ?_,
          .inr (.inr ⟨?_, s, ?_, doc, hdoc, ?_⟩)⟩
        · exact (Table.find_modify ..).trans (by rw [hdoc]; simp only [Option.map_some, hfree, if_true])
        · exact (by decide : some "Evidence" ≠ some "AiContext")
        · exact List.mem_cons_self
        · have hnobody := of_decide_eq_true (Bool.and_eq_true_iff.mp hfree).2
          rw [IsContext, hnobody]
          exact nofun
      · refine ⟨doc, ?_, .inl rfl⟩
        exact (Table.find_modify ..).trans (by rw [hdoc]; simp only [Option.map_some, hfree]; rfl)
    · have hdoc := (Table.find_modify ..).symm.trans hdoc
      rw [hnone] at hdoc
      cases hdoc

theorem yields_createEvidence (ctx : Ctx) (dto : Evidence.CreateEvidenceDto) :
    (Evidence.create ctx dto).Yields (Allowed user) (fun _ _ => True) l := by
  refine Prog.Yields.bind (Q := fun _ _ => True) (yields_read fun _ => trivial) fun engagement l₁ _ _ => ?_
  refine Prog.Yields.ite (fun _ => Prog.yields_throw _) fun _ => ?_
  refine (yields_looks (Evidence.looks_assertUnlocked ctx _ _)).bind fun _ l₂ _ _ => ?_
  refine (yields_evidenceDocument ctx dto.documentId).bind fun _ l₃ _ hdocument => ?_
  refine (yields_insertNumbered ctx dto 5 hdocument).bind fun created l₄ _ _ => ?_
  refine (yields_adoptDocument ctx dto.documentId created.1).bind fun _ l₅ _ _ => ?_
  refine (yields_quiet (auditRecord_quiet ctx _ _ _)).bind fun _ l₆ _ _ => ?_
  refine Prog.Yields.bind (Q := fun _ _ => True) (yields_read fun _ => trivial) fun found l₇ _ _ => ?_
  cases found with
  | none => exact Prog.yields_throw _
  | some found => exact Prog.yields_pure trivial

/-- Evidence that is edited is about the same document, or about one that has been seen. -/
theorem yields_updateEvidence (ctx : Ctx) (id : Uuid) (dto : Evidence.UpdateEvidenceDto) :
    (Evidence.update ctx id dto).Yields (Allowed user) (fun _ _ => True) l := by
  refine Prog.Yields.bind (Q := fun _ _ => True) (yields_read fun _ => trivial) fun before l₁ _ _ => ?_
  cases before with
  | none => exact Prog.yields_throw _
  | some before =>
    refine (yields_looks (looks_assertRelated ctx _ _ _ _)).bind fun _ l₂ _ _ => ?_
    refine (yields_evidenceDocument ctx dto.documentId).bind fun _ l₃ _ hdocument => ?_
    refine Prog.Yields.bind (Q := fun _ _ => True) (Prog.yields_of_call allowed_refl fun s a s' h => ⟨?_, trivial⟩)
      fun after l₄ _ _ => ?_
    · obtain ⟨e, e', hfind, -, happly, -, hrows, hrest⟩ := Evidence.updateEvidence_ok h
      refine allowed_of_evidence hrows hrest fun i hi => ?_
      unfold Evidence.UpdateEvidenceDto.apply at happly
      split at happly
      · cases happly
        cases hgiven : dto.documentId with
        | none =>
          rw [hgiven] at hi
          exact .inl (.inl ⟨id, e, hfind, hi⟩)
        | some documentId =>
          rw [hgiven] at hi
          exact .inr (hdocument i (by rw [hgiven]; exact hi))
      · cases happly
    · exact (yields_quiet (auditRecord_quiet ctx _ _ _)).bind fun _ _ _ _ => Prog.yields_pure trivial

theorem yields_evidence (r : Evidence.Request) : (Evidence.serve r).Yields (Allowed user) (fun _ _ => True) l := by
  refine Prog.Yields.ite (fun _ => Prog.yields_throw _) fun _ => ?_
  cases r with
  | create ctx dto => exact yields_createEvidence ctx dto
  | update ctx id dto => exact yields_updateEvidence ctx id dto

end Evidence

/-! ### Requests for documents -/

section Requests

variable {user : Option Uuid} {l : List Db}

/-- One request is written: what is linked was linked before, or is linked by that request. -/
theorem linked_of_request {s s' : Db} {id i : Uuid} {r' : DocumentRequest}
    (hrows : ∀ j, s'.requests.find j = if j = id then some r' else s.requests.find j)
    (hrest : s' = { s with requests := s'.requests }) (hi : Linked s' i) : Linked s i ∨ i ∈ r'.documentIds := by
  rcases hi with hi | ⟨j, r, hr, hlink⟩ | hi
  · rw [hrest] at hi
    exact .inl (.inl hi)
  · rw [hrows] at hr
    split at hr
    · cases hr
      exact .inr hlink
    · exact .inl (.inr (.inl ⟨j, r, hr, hlink⟩))
  · rw [hrest] at hi
    exact .inl (.inr (.inr hi))

/-- The request refers to the documents it did or to one that has been seen. -/
theorem allowed_of_request {s s' : Db} {id : Uuid} {r r' : DocumentRequest} (hrow : s.requests.find id = some r)
    (hrows : ∀ j, s'.requests.find j = if j = id then some r' else s.requests.find j)
    (hrest : s' = { s with requests := s'.requests })
    (hdocuments : ∀ i ∈ r'.documentIds, i ∈ r.documentIds ∨ SawShared l i) : Allowed user l s s' := by
  refine allowed_of_links (by rw [hrest]) fun i hi => ?_
  rcases linked_of_request hrows hrest hi with hlinked | hmem
  · exact .inl hlinked
  · exact (hdocuments i hmem).imp (fun h => .inr (.inl ⟨id, r, hrow, h⟩)) fun h => h.later s

/-- A request that is written without new documents. -/
theorem aside_of_request {s s' : Db} {id : Uuid} {r' : DocumentRequest}
    (hrows : ∀ j, s'.requests.find j = if j = id then some r' else s.requests.find j)
    (hrest : s' = { s with requests := s'.requests })
    (hdocuments : ∀ i ∈ r'.documentIds, ∃ r, s.requests.find id = some r ∧ i ∈ r.documentIds) : Aside s s' := by
  refine ⟨by rw [hrest], fun i hi => ?_⟩
  rcases linked_of_request hrows hrest hi with hlinked | hmem
  · exact hlinked
  · obtain ⟨r, hrow, hbefore⟩ := hdocuments i hmem
    exact .inr (.inl ⟨id, r, hrow, hbefore⟩)

theorem yields_linkChecked (ctx : Ctx) (id documentId : Uuid) :
    (Requests.linkChecked ctx id documentId).Yields (Allowed user) (fun _ _ => True) l := by
  refine (yields_looks (Serving.looks_accessDocument ctx documentId)).bind fun _ l₁ _ _ => ?_
  refine (yields_findById ctx documentId _).bind fun doc l₂ _ hdoc => ?_
  cases doc with
  | none => exact Prog.yields_throw _
  | some doc =>
    refine Prog.Yields.ite (fun _ => Prog.yields_throw _) fun hnot => ?_
    have hshared : SawShared l₂ documentId := by
      obtain ⟨x, hx, hfind⟩ := hdoc doc rfl
      exact ⟨x, hx, doc, hfind, hnot⟩
    refine Prog.Yields.bind (Q := fun _ _ => True) (Prog.yields_of_call allowed_refl fun s a s' h => ⟨?_, trivial⟩)
      fun _ l₃ hl₃ _ => ?_
    · have h := Prog.run_call_ok.mp h
      split at h
      · cases h
      · obtain ⟨⟨r', requests⟩, hupdate, h⟩ := Prog.bind_eq_ok.mp h
        cases h
        obtain ⟨r, hfind, -, hr, hrows⟩ := updateRow_ok hupdate
        cases hr
        refine allowed_of_request hfind hrows rfl fun i hi => ?_
        split at hi
        · exact .inl hi
        · refine (List.mem_append.mp hi).imp_right fun hi => ?_
          rw [List.mem_singleton.mp hi]
          exact hshared
    · refine Prog.Yields.bind (Q := fun _ _ => True) (Prog.Yields.ite (fun _ => ?_) fun _ => Prog.yields_pure trivial)
        fun _ l₄ _ _ => (yields_quiet (auditRecord_quiet ctx _ _ _)).bind fun _ l₅ _ _ =>
          yields_looks (Requests.looks_get ctx id)
      -- The document is made to belong to the request.
      refine Prog.yields_of_call allowed_refl fun s a s' h => ⟨?_, trivial⟩
      obtain ⟨⟨d', documents⟩, hupdate, h⟩ := Prog.bind_eq_ok.mp (Prog.run_call_ok.mp h)
      cases h
      obtain ⟨d, hfind, -, hd, hrows⟩ := updateRow_ok hupdate
      cases hd
      refine allowed_of_update hfind hrows (fun _ hi => hi) (.inr ⟨?_, (hshared.mono hl₃.subset).later s⟩)
      exact (by decide : some "DocumentRequest" ≠ some "AiContext")

/-- Only `linkDocument` links a document. -/
theorem aside_of_call {o : Requests.Operation} {s₀ s s' : Db} (h : Requests.Call (fun _ _ => True) s₀ o s s')
    (hlink : ∀ ctx id documentId, o ≠ .linkDocument ctx id documentId) : Aside s s' := by
  cases h with
  | quiet h => exact aside_of_quiet h
  | create h => exact aside_of_request h.rows h.rest fun i hi => by rw [h.empty] at hi; cases hi
  | update h =>
    refine aside_of_request h.rows h.rest fun i hi => ⟨_, h.row, ?_⟩
    have hchange := h.change
    unfold Requests.UpdateRequestDto.apply at hchange
    split at hchange
    · cases hchange
    · cases hchange
      exact hi
  | transition h => exact aside_of_request h.rows h.rest fun i hi => ⟨_, h.row, hi⟩
  | connect h => exact absurd rfl (hlink _ _ _)
  | own h => exact absurd rfl (hlink _ _ _)

theorem yields_requests (o : Requests.Operation) : (Requests.perform o).Yields (Allowed user) (fun _ _ => True) l := by
  have hother : (∀ ctx id documentId, o ≠ .linkDocument ctx id documentId) →
      (Requests.perform o).Yields (Allowed user) (fun _ _ => True) l := fun hlink =>
    yields_aside <| Prog.calls_of_meets (Q := fun _ _ _ => True) fun s =>
      (Requests.perform_meets (.of_anything _) o s).mono_step fun _ _ h => aside_of_call h hlink
  cases o with
  | linkDocument ctx id documentId =>
    refine Prog.Yields.ite (fun _ => Prog.yields_throw _) fun _ => ?_
    refine Prog.Yields.bind (Q := fun _ _ => True) ?_ fun _ _ _ _ => Prog.yields_pure trivial
    refine (yields_looks (Requests.looks_assertRequest ctx id)).bind fun request l₁ _ _ => ?_
    refine Prog.Yields.ite (fun _ => Prog.yields_throw _) fun _ => ?_
    refine Prog.Yields.ite (fun _ => Prog.yields_throw _) fun _ => ?_
    exact yields_linkChecked ctx id documentId
  | create ctx dto => exact hother nofun
  | update ctx id dto => exact hother nofun
  | transition ctx id dto => exact hother nofun

end Requests

/-! ### Reports of engagements -/

section Engagements

variable {user : Option Uuid} {l : List Db}

/-- One engagement is written, with the report it had or one that has been seen. -/
theorem allowed_of_engagement {s s' : Db} {id : Uuid} {e : Engagement}
    (hrows : ∀ j, s'.engagements.find j = if j = id then some e else s.engagements.find j)
    (hrest : s' = { s with engagements := s'.engagements, stageHistory := s'.stageHistory })
    (hreport : ∀ i, e.reportDocumentId = some i → Linked s i ∨ SawShared l i) : Allowed user l s s' := by
  refine allowed_of_links (by rw [hrest]) fun i hi => ?_
  rcases hi with hi | hi | ⟨j, e₁, he, hlink⟩
  · rw [hrest] at hi
    exact .inl (.inl hi)
  · rw [hrest] at hi
    exact .inl (.inr (.inl hi))
  · rw [hrows] at he
    split at he
    · cases he
      exact (hreport i hlink).imp_right fun h => h.later s
    · exact .inl (.inr (.inr ⟨j, e₁, he, hlink⟩))

/-- The report of each engagement stays, or is taken from it. -/
theorem aside_of_engagements {s s' : Db} (hdocuments : s'.documents = s.documents)
    (hevidence : s'.evidence = s.evidence) (hrequests : s'.requests = s.requests)
    (hreports : ∀ j e', s'.engagements.find j = some e' → ∀ i, e'.reportDocumentId = some i →
      ∃ e, s.engagements.find j = some e ∧ e.reportDocumentId = some i) : Aside s s' := by
  refine ⟨hdocuments, fun i hi => ?_⟩
  rw [Linked, hevidence, hrequests] at hi
  refine hi.imp_right fun hi => hi.imp_right fun ⟨j, e', he', hlink⟩ => ?_
  exact ⟨j, hreports j e' he' i hlink⟩

theorem aside_of_joined {s s' : Db} (h : Engagements.Aside s s') : Aside s s' := by
  refine aside_of_engagements (by rw [h.rest]) (by rw [h.rest]) (by rw [h.rest]) fun j e' he' i hi => ?_
  have hrow := h.engagements j
  rw [he'] at hrow
  generalize hbefore : s.engagements.find j = row at hrow
  cases hrow with
  | some hjoined =>
    rw [hjoined.rest] at hi
    exact ⟨_, rfl, hi⟩

/-- No transition changes the report. -/
theorem transitioned_report (ctx : Ctx) (t : Transition EngagementStage) (before e : Engagement) :
    (Engagements.transitioned ctx t before e).reportDocumentId = e.reportDocumentId := by
  unfold Engagements.transitioned
  dsimp only
  split
  · split <;> rfl
  · rfl
  · rfl
  · rfl
  · rfl

theorem aside_of_engagement_call {r : Engagements.Request} {s₀ s s' : Db}
    (h : Engagements.Call (fun _ _ => True) s₀ r s s') (hupdate : ∀ ctx id dto, r ≠ .update ctx id dto) :
    Aside s s' := by
  rcases h with h | h
  · exact aside_of_joined h
  cases h with
  | create h =>
    refine aside_of_engagements (by rw [h.rest]) (by rw [h.rest]) (by rw [h.rest]) fun j e' he' i hi => ?_
    rw [h.rows] at he'
    split at he'
    · cases he'
      cases hi
    · exact ⟨e', he', hi⟩
  | update h => exact absurd rfl (hupdate _ _ _)
  | transition h =>
    refine aside_of_engagements (by rw [h.rest]) (by rw [h.rest]) (by rw [h.rest]) fun j e' he' i hi => ?_
    rw [h.rows] at he'
    split at he'
    · rename_i hj
      cases he'
      rw [transitioned_report] at hi
      exact ⟨_, hj ▸ h.row, hi⟩
    · exact ⟨e', he', hi⟩

/-- The report of an engagement has been seen to belong to it. -/
theorem yields_assertReport (ctx : Ctx) (id : Uuid) (before : Engagement) (reportDocumentId : Field Uuid) :
    (Engagements.assertReport ctx id before reportDocumentId).Yields (Allowed user)
      (fun _ l' => ∀ i, reportDocumentId = some (some i) → SawShared l' i) l := by
  unfold Engagements.assertReport
  rcases reportDocumentId with _ | documentId
  · exact Prog.yields_pure nofun
  refine Prog.Yields.ite (fun _ => Prog.yields_throw _) fun _ => ?_
  cases documentId with
  | none => exact Prog.yields_pure nofun
  | some i =>
    refine (yields_assertDocument ctx i true false).bind fun document l₁ _ hdocument => ?_
    refine Prog.Yields.ite (fun _ => Prog.yields_throw _) fun howner => Prog.yields_pure ?_
    rintro _ ⟨⟩
    obtain ⟨x, hx, hfind⟩ := hdocument.1
    refine ⟨x, hx, document, hfind, fun hcontext => howner (.inl ?_)⟩
    rw [hcontext]
    exact (by decide : some "AiContext" ≠ some "Engagement")

theorem yields_assign (ctx : Ctx) (id : Uuid) (role : String) (userId : Field Uuid) (before : Option Uuid)
    (after : Engagement) :
    (Engagements.assign ctx id role userId before after).Yields (Allowed user) (fun _ _ => True) l :=
  yields_aside <| Prog.calls_of_meets (Q := fun _ _ _ => True) fun s =>
    (Engagements.assign_meets (.of_anything _) (fun _ _ => aside_of_joined) ctx id role userId before after s).mono
      fun _ _ _ => trivial

theorem yields_updateEngagement (ctx : Ctx) (id : Uuid) (dto : Engagements.UpdateEngagementDto) :
    (Engagements.update ctx id dto).Yields (Allowed user) (fun _ _ => True) l := by
  refine Prog.Yields.bind (Q := fun _ _ => True) ?_ fun before l₁ _ _ => ?_
  · refine Prog.Yields.bind (Q := fun _ _ => True) (yields_read fun _ => trivial) fun e l₁ _ _ => ?_
    cases e with
    | none => exact Prog.yields_throw _
    | some e => exact Prog.yields_pure trivial
  refine (yields_assertReport ctx id before dto.reportDocumentId).bind fun _ l₂ _ hreport => ?_
  refine Prog.Yields.ite (fun _ => Prog.yields_throw _) fun _ => ?_
  refine Prog.Yields.bind (Q := fun _ _ => True) (Prog.yields_of_call allowed_refl fun s a s' h => ⟨?_, trivial⟩)
    fun after l₃ _ _ => ?_
  · obtain ⟨e, e', hfind, -, happly, -, -, hrows, hrest⟩ := Engagements.updateEngagement_ok h
    refine allowed_of_engagement hrows (by rw [hrest]) fun i hi => ?_
    unfold Engagements.UpdateEngagementDto.apply at happly
    split at happly
    · cases happly
      cases hgiven : dto.reportDocumentId with
      | none =>
        rw [hgiven] at hi
        exact .inl (.inr (.inr ⟨id, e, hfind, hi⟩))
      | some documentId =>
        rw [hgiven] at hi
        exact .inr (hreport i (by rw [hgiven]; exact congrArg some hi))
    · cases happly
  · refine (yields_quiet (auditRecord_quiet ctx _ _ _)).bind fun _ l₄ _ _ => ?_
    refine (yields_assign ctx id _ _ _ _).bind fun _ l₅ _ _ => (yields_assign ctx id _ _ _ _).bind fun _ l₆ _ _ => ?_
    exact (yields_assign ctx id _ _ _ _).bind fun _ _ _ _ => Prog.yields_pure trivial

theorem yields_engagements (r : Engagements.Request) :
    (Engagements.serve r).Yields (Allowed user) (fun _ _ => True) l := by
  have hother : (∀ ctx id dto, r ≠ .update ctx id dto) →
      (Engagements.serve r).Yields (Allowed user) (fun _ _ => True) l := fun hupdate =>
    yields_aside <| Prog.calls_of_meets (Q := fun _ _ _ => True) fun s =>
      ((Engagements.serve_meets (.of_anything _) r s).mono fun _ _ _ => trivial).mono_step fun _ _ h =>
        aside_of_engagement_call h hupdate
  cases r with
  | update ctx id dto =>
    refine Prog.Yields.ite (fun _ => Prog.yields_throw _) fun _ => ?_
    exact (yields_updateEngagement ctx id dto).bind fun _ _ _ _ => Prog.yields_pure trivial
  | create ctx dto => exact hother fun _ _ _ h => Engagements.Request.noConfusion h
  | transition ctx id dto => exact hother fun _ _ _ h => Engagements.Request.noConfusion h

end Engagements

/-! ### Which documents are shown -/

section Queries

variable {user : Option Uuid} {l : List Db}

theorem yields_check (r : Except HttpError Unit) :
    (check r).Yields (Allowed user) (fun _ _ => r = .ok ()) l := by
  cases r with
  | error e => exact Prog.yields_throw e
  | ok u => exact Prog.yields_pure rfl

theorem own_of_ownContext {ctx : Ctx} {d : Document} (h : ObjectAccess.ownContext ctx d = true) :
    Own (some ctx.userId) d := by
  obtain ⟨h, huploaded⟩ := Bool.and_eq_true_iff.mp h
  exact ⟨of_decide_eq_true (Bool.and_eq_true_iff.mp h).2, congrArg some (of_decide_eq_true huploaded)⟩

/-- Context in the scope of a user is the user's own, or linked to a request. -/
theorem yields_documentScope (ctx : Ctx) : (ObjectAccess.documentScope ctx).Yields (Allowed user)
    (fun scope l' => ∀ i d, scope i d = true → IsContext d → Own (some ctx.userId) d ∨ ∃ x ∈ l', Linked x i) l := by
  refine Prog.Yields.ite (fun _ => Prog.yields_pure fun i d h hcontext => .inl ?_) fun _ => ?_
  · rcases Bool.or_eq_true_iff.mp h with h | h
    · exact absurd hcontext (of_decide_eq_true h)
    · exact own_of_ownContext h
  refine Prog.Yields.bind (Q := fun _ _ => True) (yields_read fun _ => trivial) fun findingIds l₁ _ _ => ?_
  refine Prog.Yields.bind (Q := fun requests l' => ∀ r ∈ requests, ∀ i ∈ r.2.documentIds, ∃ x ∈ l', Linked x i)
    (yields_read fun s r hr i hi => ?_) fun requests l₂ _ hrequests => ?_
  · obtain ⟨hfind, -⟩ := (Table.mem_rows_iff s.requests _ r.1 r.2).mp hr
    exact ⟨s, List.mem_cons_self, .inr (.inl ⟨r.1, r.2, hfind, hi⟩)⟩
  have hscope : ∀ (recommendationIds : List Uuid) (l₃ : List Db), l₂ <:+ l₃ → ∀ i d,
      (ObjectAccess.ownContext ctx d || (d.ownerType = some "Finding" && d.ownerId.any (· ∈ findingIds)) ||
        (d.ownerType = some "Recommendation" && d.ownerId.any (· ∈ recommendationIds)) ||
        (d.ownerType = some "DocumentRequest" && d.ownerId.any (· ∈ requests.map Prod.fst)) ||
        requests.any fun r => i ∈ r.2.documentIds) = true →
      IsContext d → Own (some ctx.userId) d ∨ ∃ x ∈ l₃, Linked x i := by
    intro recommendationIds l₃ hl i d h hcontext
    have hnot : ∀ {t : String} {b : Bool}, t ≠ "AiContext" → (decide (d.ownerType = some t) && b) = true → False := by
      intro t b ht h
      have howner := of_decide_eq_true (Bool.and_eq_true_iff.mp h).1
      exact ht (Option.some.inj (howner.symm.trans hcontext))
    rcases Bool.or_eq_true_iff.mp h with h | hany
    · rcases Bool.or_eq_true_iff.mp h with h | h
      · rcases Bool.or_eq_true_iff.mp h with h | h
        · rcases Bool.or_eq_true_iff.mp h with h | h
          · exact .inl (own_of_ownContext h)
          · exact (hnot (by decide) h).elim
        · exact (hnot (by decide) h).elim
      · exact (hnot (by decide) h).elim
    · obtain ⟨r, hr, hi⟩ := List.any_eq_true.mp hany
      obtain ⟨x, hx, hlinked⟩ := hrequests r hr i (of_decide_eq_true hi)
      exact .inr ⟨x, hl.subset hx, hlinked⟩
  refine Prog.Yields.ite (fun _ => ?_) fun _ => ?_
  · exact Prog.yields_pure (hscope [] l₂ List.suffix_rfl)
  · refine Prog.Yields.bind (Q := fun _ _ => True) (yields_read fun _ => trivial) fun recommendationIds l₃ hl₃ _ => ?_
    exact Prog.yields_pure (hscope recommendationIds l₃ hl₃)

/-- What is said of a document that is shown. -/
def Showable (user : Option Uuid) (l : List Db) (i : Uuid) : Prop := SawUsable user l i ∨ ∃ x ∈ l, Linked x i

theorem yields_list (ctx : Ctx) (query : DocumentListQueryDto) (hsort : ∀ rows, query.sort rows ⊆ rows) :
    (list ctx query).Yields (Allowed user)
      (fun page l' => ∀ v ∈ page.items, Showable (some ctx.userId) l' v.row.1) l := by
  refine (yields_check _).bind fun _ l₁ _ _ => (yields_documentScope ctx).bind fun scope l₂ _ hscope => ?_
  refine Prog.Yields.bind (Q := fun _ _ => True) (yields_read fun _ => trivial) fun total l₃ hl₃ _ => ?_
  refine Prog.Yields.bind (Q := fun items l' => ∀ v ∈ items, Showable (some ctx.userId) l' v.row.1)
    (yields_read fun s v hv => ?_) fun items l₄ _ hitems => Prog.yields_pure hitems
  obtain ⟨row, hrow, rfl⟩ := List.mem_map.mp hv
  have hrow := hsort _ (List.mem_of_mem_drop (List.mem_of_mem_take hrow))
  obtain ⟨hfind, hpasses⟩ := (Table.mem_rows_iff s.documents _ row.1 row.2).mp hrow
  have hin := (Bool.and_eq_true_iff.mp (Bool.and_eq_true_iff.mp hpasses).2).1
  by_cases hcontext : IsContext row.2
  · rcases hscope row.1 row.2 hin hcontext with hown | ⟨x, hx, hlinked⟩
    · exact .inl ⟨s, List.mem_cons_self, row.2, hfind, fun _ => hown⟩
    · exact .inr ⟨x, List.mem_cons_of_mem s (hl₃.subset hx), hlinked⟩
  · exact .inl ⟨s, List.mem_cons_self, row.2, hfind, fun h => absurd h hcontext⟩

theorem yields_get (ctx : Ctx) (id : Uuid) :
    (get ctx id).Yields (Allowed user) (fun d l' => Showable (some ctx.userId) l' d.row.1) l := by
  refine (yields_looks (Serving.looks_accessDocument ctx id)).bind fun _ l₁ _ _ => ?_
  refine Prog.Yields.bind (Q := fun found l' => ∀ d, found = some d → ∃ x ∈ l', x.documents.find d.row.1 = some d.row.2)
    (yields_read fun s d hd => ?_) fun found l₂ _ hfound => ?_
  · obtain ⟨doc, hdoc, rfl⟩ := Option.map_eq_some_iff.mp hd
    exact ⟨s, List.mem_cons_self, (Ctx.findById_eq_some.mp hdoc).1⟩
  · cases found with
    | none => exact Prog.yields_throw _
    | some d =>
      refine (yields_check _).bind fun _ l₃ hl₃ howner => (yields_check _).bind fun _ l₄ hl₄ _ => Prog.yields_pure ?_
      obtain ⟨x, hx, hfind⟩ := hfound d rfl
      exact .inl ⟨x, (hl₃.trans hl₄).subset hx, d.row.2, hfind, own_of_contextOwner howner⟩

end Queries

/-! ### The documents service -/

section Documents

variable {env : Platform} {α : Type} {user : Option Uuid} {l : List Store}

/-- What a call to the database, storage or the scanner may do. -/
abbrev Lawful (user : Option Uuid) (l : List Store) (s s' : Store) : Prop :=
  Allowed user (l.map Store.db) s.db s'.db

/-- The document may be used, by what has been seen of the database. -/
abbrev Usable (user : Option Uuid) (l : List Store) (i : Uuid) : Prop := SawUsable user (l.map Store.db) i

theorem Usable.later {l l' : List Store} {i : Uuid} (h : Usable user l i) (hl : l <:+ l') : Usable user l' i :=
  h.mono (hl.map Store.db).subset

theorem lawful_refl (s : Store) : Lawful user l s s := allowed_refl s.db

theorem yields_onDb {p : Service α} {Q : α → List Db → Prop} (hp : p.Yields (Allowed user) Q (l.map Store.db)) :
    (onDb p).Yields (Lawful user) (fun a l' => Q a (l'.map Store.db)) l :=
  hp.embed fun _ _ => rfl

theorem yields_auditRecord (ctx : Ctx) (action targetType : String) (id : Uuid) :
    (onDb (auditRecord ctx action targetType id)).Yields (Lawful user) (fun _ _ => True) l :=
  yields_onDb (yields_quiet (auditRecord_quiet ctx action targetType id))

/-- The program leaves the database. -/
abbrev Outside (p : Method α) : Prop := p.Calls fun s s' => s'.db = s.db

theorem Outside.yields {p : Method α} (hp : Outside p) : p.Yields (Lawful user) (fun _ _ => True) l :=
  Prog.Calls.yields hp fun _ _ _ h => by rw [Lawful, h]; exact allowed_refl _

theorem outside_read (g : Store → α) : Outside (.read g) := Prog.calls_read g fun _ => rfl

theorem outside_keyed {key : StorageKey} {p : Method α} (hp : Outside p) : Outside (Storage.keyed key p) := by
  cases key with
  | uuid t o => exact hp
  | other text => exact Prog.calls_throw _

theorem outside_getObject (key : StorageKey) : Outside (Storage.getObject key) :=
  outside_keyed (Prog.calls_call (fun _ => rfl) fun s body s' h => by
    split at h
    · cases h
      rfl
    · cases h)

theorem outside_putObject (key : StorageKey) (body : Bytes) : Outside (Storage.putObject key body) :=
  outside_keyed fun _ => ⟨rfl, trivial⟩

theorem outside_deleteObject (key : StorageKey) : Outside (Storage.deleteObject key) :=
  outside_keyed fun _ => ⟨rfl, trivial⟩

theorem outside_stat (key : StorageKey) : Outside (Storage.stat env key) := by
  refine outside_keyed ?_
  cases env.driver with
  | s3 => exact outside_read _
  | localFiles =>
    refine (outside_read _).bind fun size => ?_
    cases size with
    | none => exact Prog.calls_pure _
    | some n => exact (outside_read _).bind fun _ => Prog.calls_pure _

theorem outside_scan (id : Uuid) (body : Bytes) : Outside (Storage.scan env id body) := by
  refine Prog.Calls.ite (Prog.calls_pure _) (Prog.calls_call (fun _ => rfl) fun s scan s' h => ?_)
  split at h
  · cases h
    rfl
  · cases h
    rfl
  · cases h

/-- A change that leaves the owner of a document, by a user who may use it. -/
theorem yields_updateDocument {ctx : Ctx} {id : Uuid} {f : Date → Document → Document}
    (howner : ∀ t d, ownership (f t d) = ownership d) (husable : Usable user l id) :
    (updateDocument ctx id f).Yields (Lawful user) (fun v _ => v.row.1 = id) l := by
  refine Prog.yields_of_call lawful_refl fun s v s' h => ?_
  obtain ⟨d, hd, hv, hrows, hrest⟩ := Serving.updateDocument_ok h
  exact ⟨allowed_of_update hd hrows (linked_of_documents hrest) (.inl ⟨howner _ _, husable⟩), by rw [hv]⟩

/-- The same, with what else the transaction does. -/
theorem yields_update {ctx : Ctx} {id : Uuid} {f : Date → Document → Document}
    {rest : DocumentView → Method DocumentView}
    (hrest : ∀ v, (rest v).Calls fun s s' => s'.db.documents = s.db.documents ∧ ∀ i, Linked s'.db i → Linked s.db i)
    (hresult : ∀ v s v' s', (rest v).run s = (.ok v', s') → v' = v)
    (howner : ∀ t d, ownership (f t d) = ownership d) (husable : Usable user l id) :
    (Prog.transaction (updateDocument ctx id f >>= rest)).Yields (Lawful user) (fun v _ => v.row.1 = id) l := by
  refine Prog.yields_of_call lawful_refl fun s v s' h => ?_
  obtain ⟨v₁, s₁, hupdate, hlast⟩ := Prog.run_bind_ok.mp (Prog.run_transaction_ok.mp h)
  obtain rfl := hresult v₁ s₁ v s' hlast
  obtain ⟨d, hd, hv, hrows, hdocuments⟩ := Serving.updateDocument_ok hupdate
  have hlinks := linked_of_documents hdocuments
  have hleft := (hrest v).run (fun _ => ⟨rfl, fun _ hi => hi⟩)
    (fun _ _ _ hab hbc => ⟨hbc.1.trans hab.1, fun i hi => hab.2 i (hbc.2 i hi)⟩) s₁
  rw [hlast] at hleft
  have hafter : ∀ j, s'.db.documents.find j = if j = id then some (f s.clock d) else s.db.documents.find j :=
    fun j => by rw [hleft.1, hrows]
  exact ⟨allowed_of_update hd hafter (fun i hi => hlinks i (hleft.2 i hi)) (.inl ⟨howner _ _, husable⟩), by rw [hv]⟩

theorem aside_insertVersion (id : Uuid) (v : DocumentVersion) : (insertVersion id v).Calls Aside :=
  (Serving.calls_insertVersion id v).mono fun _ _ h => by
    rw [h]
    exact aside_of_tables rfl rfl rfl rfl

/-- Context is uploaded for the user alone. -/
theorem yields_assertUploadOwner {l : List Db} (ctx : Ctx) (ownerType : ObjectAccess.DocumentOwnerType)
    (ownerId : Uuid) :
    (ObjectAccess.assertUploadOwner ctx ownerType ownerId).Yields (Allowed user)
      (fun _ _ => ownerType = .aiContext → ownerId = ctx.userId) l := by
  by_cases hcontext : ownerType = .aiContext
  · unfold ObjectAccess.assertUploadOwner
    rw [if_pos hcontext]
    refine Prog.Yields.ite (fun _ => Prog.yields_throw _) fun hnot => Prog.yields_pure fun _ => ?_
    exact not_not.mp (not_or.mp hnot).1
  · exact (yields_looks (Serving.looks_assertUploadOwner ctx ownerType ownerId)).weaken fun _ _ _ h => absurd h hcontext

theorem isContext_newDocument {ctx : Ctx} {dto : PresignUploadDto} {classification : DocumentClassification}
    (h : IsContext (newDocument ctx dto classification)) : dto.ownerType = .aiContext := by
  have htext := Option.some.inj h
  cases hownerType : dto.ownerType with
  | aiContext => rfl
  | _ =>
    rw [hownerType] at htext
    exact absurd htext (by decide)

theorem yields_insertDocument {l : List Db} {id : Uuid} {doc : Document} (hown : IsContext doc → Own user doc) :
    (insertDocument id doc).Yields (Allowed user) (fun _ _ => True) l := by
  refine Prog.yields_of_call allowed_refl fun s a s' h => ⟨?_, trivial⟩
  have h := Prog.run_call_ok.mp h
  split_ifs at h
  obtain ⟨documents, hinsert, h⟩ := Prog.bind_eq_ok.mp h
  cases h
  obtain ⟨hnone, hrows⟩ := insertRow_ok hinsert
  refine ⟨fun i d hd => ⟨d, (hrows i).trans ?_, .inl rfl⟩, fun i d' hd' hbefore => ?_, fun i hi => .inl hi⟩
  · split
    · rename_i hi
      rw [hi, hnone] at hd
      cases hd
    · exact hd
  · have hd' := (hrows i).symm.trans hd'
    split at hd'
    · cases hd'
      exact hown
    · rw [hbefore] at hd'
      cases hd'

theorem yields_presignUpload (ctx : Ctx) (dto : PresignUploadDto) :
    (presignUpload ctx dto).Yields (Lawful (some ctx.userId)) (fun _ _ => True) l := by
  refine (yields_onDb (yields_check _)).bind fun _ l₁ _ _ => ?_
  refine (yields_onDb (yields_assertUploadOwner ctx dto.ownerType dto.ownerId)).bind fun _ l₂ _ howner => ?_
  refine (yields_onDb (yields_insertDocument fun hcontext => ?_)).bind fun _ l₃ _ _ => ?_
  · exact ⟨congrArg some (howner (isContext_newDocument hcontext)), rfl⟩
  · refine (Outside.yields (outside_keyed ((outside_read _).bind fun _ => Prog.calls_pure _))).bind fun _ l₄ _ _ => ?_
    exact (yields_auditRecord _ _ _ _).bind fun _ _ _ _ => Prog.yields_pure trivial

theorem yields_completeScanned (ctx : Ctx) (id : Uuid) (doc : Document) (stat : ObjectStat) (checksum : Option String)
    (scan : ScanResult) (husable : Usable user l id) :
    (completeScanned ctx id doc stat checksum scan).Yields (Lawful user) (fun v _ => v.row.1 = id) l := by
  refine Prog.Yields.ite (fun _ => ?_) fun _ => ?_
  · exact (yields_auditRecord _ _ _ _).bind fun _ _ _ _ => Prog.yields_throw _
  · refine Prog.Yields.bind (yields_update (fun v => ?_) (fun v s v' s' h => ?_) (fun _ _ => rfl) husable)
      fun updated l₁ _ hid => ?_
    · refine Prog.Calls.bind (Prog.calls_read _ fun _ => ⟨rfl, fun _ hi => hi⟩) fun existing => ?_
      exact Prog.Calls.ite ((Serving.calls_onDb (aside_insertVersion _ _)).bind fun _ => Prog.calls_pure v) (Prog.calls_pure v)
    · obtain ⟨existing, s₁, -, h⟩ := Prog.run_bind_ok.mp h
      split at h
      · obtain ⟨_, s₂, -, h⟩ := Prog.run_bind_ok.mp h
        cases h
        rfl
      · cases h
        rfl
    · refine (outside_read _).yields.bind fun _ l₂ _ _ => ?_
      exact (yields_auditRecord _ _ _ _).bind fun _ _ _ _ => Prog.yields_pure hid

theorem yields_completeFound (ctx : Ctx) (id : Uuid) (doc : Document) (given : Option String) (stat : ObjectStat)
    (husable : Usable user l id) :
    (completeFound env ctx id doc given stat).Yields (Lawful user) (fun v _ => v.row.1 = id) l := by
  refine Prog.Yields.ite (fun _ => ?_) fun _ => Prog.Yields.ite (fun _ => Prog.yields_throw _) fun _ => ?_
  · exact (outside_deleteObject _).yields.bind fun _ _ _ _ => Prog.yields_throw _
  · refine (outside_getObject _).yields.bind fun body l₁ hl₁ _ => ?_
    refine (outside_scan id body).yields.bind fun scan l₂ hl₂ _ => ?_
    exact yields_completeScanned ctx id doc stat _ scan (husable.later (hl₁.trans hl₂))

/-- What has been seen of a document lets it be shown to the user. -/
abbrev MayShow (user : Option Uuid) (l : List Store) (i : Uuid) : Prop := Showable user (l.map Store.db) i

/-- The document that `complete` answers. -/
def completed : Completion → WithId Document
  | .before d => d.row
  | .updated d => d.row

theorem yields_usable (ctx : Ctx) (id : Uuid) (requireUploaded allowQuarantined : Bool) :
    (onDb (assertDocument ctx id requireUploaded allowQuarantined)).Yields (Lawful user)
      (fun _ l' => Usable (some ctx.userId) l' id) l :=
  (yields_onDb (yields_assertDocument ctx id requireUploaded allowQuarantined)).weaken fun doc _ hdoc => by
    obtain ⟨⟨x, hx, hfind⟩, hown⟩ := hdoc
    exact ⟨x, hx, doc, hfind, hown⟩

theorem yields_complete (ctx : Ctx) (id : Uuid) (given : Option String) : (complete env ctx id given).Yields
    (Lawful (some ctx.userId)) (fun c l' => MayShow (some ctx.userId) l' (completed c).1) l := by
  refine (yields_usable ctx id false true).bind fun doc l₁ hl₁ husable => Prog.Yields.ite (fun _ => ?_) fun _ => ?_
  · exact (yields_onDb (yields_get ctx id)).map fun _ _ h => h
  · refine (outside_stat _).yields.bind fun stat l₂ hl₂ _ => ?_
    cases stat with
    | none => exact Prog.yields_throw _
    | some found =>
      have hfound : (completeFound env ctx id doc given found).Yields (Lawful (some ctx.userId))
          (fun v _ => v.row.1 = id) l₂ := yields_completeFound ctx id doc given found (husable.later hl₂)
      refine Prog.Yields.map (Prog.Along.mono hfound (fun _ _ _ _ h => h) ?_) fun _ _ h => h
      intro r l₃ hl₃ hid v hv
      rw [completed, hid v hv]
      exact .inl (husable.later (hl₂.trans hl₃))

theorem yields_upload (ctx : Ctx) (file : UploadedFile) (input : UploadDocumentDto) : (upload env ctx file input).Yields
    (Lawful (some ctx.userId)) (fun c l' => MayShow (some ctx.userId) l' (completed c).1) l := by
  refine Prog.Yields.ite (fun _ => Prog.yields_throw _) fun _ => ?_
  refine Prog.Yields.ite (fun _ => Prog.yields_throw _) fun _ => ?_
  refine (yields_presignUpload ctx _).bind fun presigned l₁ _ _ => (outside_read _).yields.bind fun doc l₂ _ _ => ?_
  cases doc with
  | none => exact Prog.yields_throw _
  | some doc => exact (outside_putObject _ _).yields.bind fun _ _ _ _ => yields_complete ctx _ _

theorem yields_putContent (ctx : Ctx) (id : Uuid) (body : Bytes) : (putContent env ctx id body).Yields
    (Lawful (some ctx.userId)) (fun c l' => MayShow (some ctx.userId) l' (completed c).1) l := by
  refine Prog.Yields.ite (fun _ => Prog.yields_throw _) fun _ => ?_
  refine Prog.Yields.ite (fun _ => Prog.yields_throw _) fun _ => ?_
  refine Prog.Yields.ite (fun _ => Prog.yields_throw _) fun _ => ?_
  refine (yields_usable ctx id false true).bind fun doc _ _ _ => ?_
  refine Prog.Yields.ite (fun _ => Prog.yields_throw _) fun _ => ?_
  exact (outside_putObject _ _).yields.bind fun _ _ _ _ => yields_complete ctx _ _

theorem yields_getContent (ctx : Ctx) (id : Uuid) :
    (getContent env ctx id).Yields (Lawful user) (fun _ l' => MayShow (some ctx.userId) l' id) l := by
  refine Prog.Yields.ite (fun _ => Prog.yields_throw _) fun _ => ?_
  refine (yields_usable ctx id true false).bind fun doc l₁ _ husable => ?_
  refine (outside_getObject _).yields.bind fun stream l₂ hl₂ _ => (yields_auditRecord _ _ _ _).bind fun _ l₃ hl₃ _ => ?_
  exact Prog.yields_pure (.inl (husable.later (hl₂.trans hl₃)))

theorem yields_download (ctx : Ctx) (id : Uuid) : (download ctx id).Yields (Lawful user)
    (fun p l' => p.documentId = id ∧ MayShow (some ctx.userId) l' id) l := by
  refine (yields_usable ctx id true false).bind fun doc l₁ _ husable => ?_
  refine Prog.Yields.bind (Q := fun p _ => p.documentId = id) ?_ fun p l₂ hl₂ hid => ?_
  · cases doc.storageKey with
    | uuid t o => exact (outside_read _).yields.bind fun _ _ _ _ => Prog.yields_pure rfl
    | other text => exact Prog.yields_throw _
  · exact (yields_auditRecord _ _ _ _).bind fun _ l₃ hl₃ _ =>
      Prog.yields_pure ⟨hid, .inl (husable.later (hl₂.trans hl₃))⟩

theorem yields_remove (ctx : Ctx) (id : Uuid) :
    (remove ctx id).Yields (Lawful (some ctx.userId)) (fun _ _ => True) l := by
  refine (yields_usable ctx id false false).bind fun doc l₁ _ husable => ?_
  refine (outside_read _).yields.bind fun linked l₂ hl₂ _ => Prog.Yields.ite (fun _ => Prog.yields_throw _) fun _ => ?_
  refine Prog.Yields.bind (yields_updateDocument (fun _ _ => ?_) (husable.later hl₂)) fun _ _ _ _ =>
    yields_auditRecord _ _ _ _
  rfl

end Documents

end AuditSphere.Documents.Context
