import AuditSphere.Requests.Numbering
import AuditSphere.Requests.Operations

/-!
# What an operation on requests does

Each operation makes one call that changes requests, except that a document is linked in two:
the request is made to refer to it, and then the document to belong to the request. The other
calls change only the audit trail and the notifications. `perform_meets` says so for any
interference by others.
-/

namespace AuditSphere.Requests

open Prisma Theory Shared

/-! ### Calls -/

/-- A document counts as a response. -/
def counts (d : Document) : Bool := d.deletedAt.isNone && d.uploadedAt.isSome

/-- One of the documents counts. -/
def Attached (s : Db) (documentIds : List Uuid) : Prop :=
  ∃ i ∈ documentIds, ∃ d, s.documents.find i = some d ∧ counts d = true

/-- A new request: it is open, and nothing is linked to it. -/
structure Created (s₁ s₂ : Db) (id : Uuid) (r : DocumentRequest) : Prop where
  opened : r.status = .opened
  empty : r.documentIds = []
  fresh : s₁.requests.find id = none
  rows : ∀ j, s₂.requests.find j = if j = id then some r else s₁.requests.find j
  rest : s₂ = { s₁ with requests := s₂.requests }

/-- An edited request: the row `before` was read and checked, the row `r` is changed. -/
structure Updated (R : Db → Db → Prop) (s : Db) (ctx : Ctx) (id : Uuid) (dto : UpdateRequestDto)
    (before r r' : DocumentRequest) (s₁ s₂ : Db) : Prop where
  access : ∃ s₀ row, R s s₀ ∧ R s₀ s₁ ∧ s₀.requests.find id = some row ∧ ObjectAccess.requestScope ctx row = true
  read : ∃ s₀, R s s₀ ∧ R s₀ s₁ ∧ ctx.findById s₀.requests id (fun _ => true) = some before
  allowed : ctx.hasPermission .requestManage = true ∨ dto.onlyNote = true ∧ assignedElsewhere ctx before = false
  unclosed : before.status ≠ .accepted ∧ before.status ≠ .cancelled
  row : s₁.requests.find id = some r
  change : dto.apply r = .ok r'
  admitted : constrained s₁ id r' = .ok ()
  rows : ∀ j, s₂.requests.find j = if j = id then some r' else s₁.requests.find j
  rest : s₂ = { s₁ with requests := s₂.requests }

/-- A transition: the row `before` was read, its transition `t` checked, the row `r` is moved. -/
structure Moved (R : Db → Db → Prop) (s : Db) (ctx : Ctx) (id : Uuid) (dto : TransitionDto)
    (t : Transition RequestStatus) (before r : DocumentRequest) (s₁ s₂ : Db) : Prop where
  read : ∃ s₀, R s s₀ ∧ R s₀ s₁ ∧ ctx.findById s₀.requests id (fun _ => true) = some before
  declared : findTransition requestWorkflow before.status dto.action = some t
  responded : "has_attachment_or_response" ∈ t.guards → isBlank before.responseNote = false ∨
    ∃ sg row, R s sg ∧ R sg s₁ ∧ sg.requests.find id = some row ∧ Attached sg row.documentIds
  row : s₁.requests.find id = some r
  rows : ∀ j, s₂.requests.find j =
    if j = id then some (transitioned ctx t dto.comment.orNull r) else s₁.requests.find j
  rest : s₂ = { s₁ with requests := s₂.requests }

/-- The document was read, and is not context for the assistant. -/
def Linkable (R : Db → Db → Prop) (s : Db) (ctx : Ctx) (documentId : Uuid) (doc : Document) (s₁ : Db) : Prop :=
  ∃ s₀, R s s₀ ∧ R s₀ s₁ ∧ ctx.findById s₀.documents documentId (fun d => d.deletedAt.isNone) = some doc ∧
    doc.ownerType ≠ some "AiContext"

/-- The request refers to the document. -/
structure Connected (R : Db → Db → Prop) (s : Db) (ctx : Ctx) (id documentId : Uuid) (doc : Document)
    (r : DocumentRequest) (s₁ s₂ : Db) : Prop where
  read : Linkable R s ctx documentId doc s₁
  row : s₁.requests.find id = some r
  rows : ∀ j, s₂.requests.find j = if j = id then some { r with
    documentIds := if documentId ∈ r.documentIds then r.documentIds else r.documentIds ++ [documentId] }
    else s₁.requests.find j
  rest : s₂ = { s₁ with requests := s₂.requests }

/-- The document belongs to the request, which already refers to it. -/
structure Owned (R : Db → Db → Prop) (s : Db) (ctx : Ctx) (id documentId : Uuid) (doc d : Document)
    (s₁ s₂ : Db) : Prop where
  read : ∃ s₀, Linkable R s ctx documentId doc s₀
  free : doc.ownerType = none ∨ doc.ownerType = some "DocumentRequest"
  row : s₁.documents.find documentId = some d
  rows : ∀ j, s₂.documents.find j =
    if j = documentId then some { d with ownerType := some "DocumentRequest", ownerId := some id }
    else s₁.documents.find j
  rest : s₂ = { s₁ with documents := s₂.documents }

/-- A call of an operation. -/
inductive Call (R : Db → Db → Prop) (s : Db) : Operation → Db → Db → Prop where
  | quiet {o s₁ s₂} (h : Quiet s₁ s₂) : Call R s o s₁ s₂
  | create {ctx dto id r s₁ s₂} (h : Created s₁ s₂ id r) : Call R s (.create ctx dto) s₁ s₂
  | update {ctx id dto before r r' s₁ s₂} (h : Updated R s ctx id dto before r r' s₁ s₂) :
    Call R s (.update ctx id dto) s₁ s₂
  | transition {ctx id dto t before r s₁ s₂} (h : Moved R s ctx id dto t before r s₁ s₂) :
    Call R s (.transition ctx id dto) s₁ s₂
  | connect {ctx id documentId doc r s₁ s₂} (h : Connected R s ctx id documentId doc r s₁ s₂) :
    Call R s (.linkDocument ctx id documentId) s₁ s₂
  | own {ctx id documentId doc d s₁ s₂} (h : Owned R s ctx id documentId doc d s₁ s₂) :
    Call R s (.linkDocument ctx id documentId) s₁ s₂

/-! ### The writes -/

theorem updateRequestRow_ok {ctx : Ctx} {id : Uuid} {f : DocumentRequest → Except HttpError DocumentRequest}
    {s s' : Db} {v : RequestView} (h : (updateRequestRow ctx id f).run s = (.ok v, s')) :
    ∃ r r', s.requests.find id = some r ∧ f r = .ok r' ∧ constrained s id r' = .ok () ∧
      (∀ j, s'.requests.find j = if j = id then some r' else s.requests.find j) ∧
      s' = { s with requests := s'.requests } := by
  obtain ⟨⟨r', t⟩, ht, h⟩ := Prog.bind_eq_ok.mp (Prog.run_call_ok.mp h)
  obtain ⟨_, hc, h⟩ := Prog.bind_eq_ok.mp h
  cases h
  obtain ⟨r, hfind, -, hf, hrows⟩ := updateRow_ok ht
  exact ⟨r, r', hfind, hf, hc, hrows, rfl⟩

theorem connectDocument_ok {ctx : Ctx} {id documentId : Uuid} {s s' : Db} {u : Unit}
    (h : (connectDocument ctx id documentId).run s = (.ok u, s')) :
    ∃ r, s.requests.find id = some r ∧ (∀ j, s'.requests.find j = if j = id then some { r with
      documentIds := if documentId ∈ r.documentIds then r.documentIds else r.documentIds ++ [documentId] }
      else s.requests.find j) ∧ s' = { s with requests := s'.requests } := by
  have h := Prog.run_call_ok.mp h
  split at h
  · cases h
  obtain ⟨⟨r', t⟩, ht, h⟩ := Prog.bind_eq_ok.mp h
  cases h
  obtain ⟨r, hfind, -, hf, hrows⟩ := updateRow_ok ht
  cases hf
  refine ⟨r, hfind, fun j => ?_, rfl⟩
  rw [hrows]
  by_cases hmem : documentId ∈ r.documentIds <;> simp [hmem]

theorem ownDocument_ok {ctx : Ctx} {id documentId : Uuid} {s s' : Db} {u : Unit}
    (h : (ownDocument ctx id documentId).run s = (.ok u, s')) :
    ∃ d, s.documents.find documentId = some d ∧ (∀ j, s'.documents.find j = if j = documentId then
      some { d with ownerType := some "DocumentRequest", ownerId := some id } else s.documents.find j) ∧
      s' = { s with documents := s'.documents } := by
  obtain ⟨⟨d', t⟩, ht, h⟩ := Prog.bind_eq_ok.mp (Prog.run_call_ok.mp h)
  cases h
  obtain ⟨d, hfind, -, hf, hrows⟩ := updateRow_ok ht
  cases hf
  exact ⟨d, hfind, hrows, rfl⟩

/-! ### The methods -/

/-- The guard that the transitions name. -/
theorem requestWorkflow_guards : ∀ t ∈ requestWorkflow.transitions, ∀ guard ∈ t.guards,
    guard = "has_attachment_or_response" := by
  decide

/-- What the guard has seen: a note, or a linked document. -/
def Responds (id : Uuid) (before : DocumentRequest) (s : Db) : Prop :=
  isBlank before.responseNote = false ∨ ∃ row, s.requests.find id = some row ∧ Attached s row.documentIds

theorem attached_of_count {ctx : Ctx} {s : Db} {id : Uuid} (h : 0 < attachedCount ctx s id) :
    ∃ row, s.requests.find id = some row ∧ Attached s row.documentIds := by
  obtain ⟨i, d, hfind, -, hcond⟩ := Ctx.count_ne_zero_iff.mp (Nat.pos_iff_ne_zero.mp h)
  simp only [Bool.and_eq_true, Option.any_eq_true, decide_eq_true_eq] at hcond
  obtain ⟨⟨⟨row, hrow, hmem⟩, hdeleted⟩, huploaded⟩ := hcond
  exact ⟨row, hrow, i, hmem, d, hfind, by simp [counts, hdeleted, huploaded]⟩

section Methods

variable {R G : Db → Db → Prop} (hR : Interference Quiet R)

include hR

/-- What records and tells what was done makes no difference. -/
theorem meets_quiet {α : Type} {p : Service α} (hp : p.Within Quiet) (hG : ∀ a b, Quiet a b → G a b) (s : Db) :
    p.Meets R G (fun _ s' => R s s') s :=
  (hp.meets hG hR.aside hR.refl hR.trans s).mono fun _ _ h => h.2

omit hR in
theorem objectAccess_assertRequest_meets (hG : ∀ s, G s s) (ctx : Ctx) (id : Uuid) (s : Db) :
    (ObjectAccess.assertRequest ctx id).Meets R G (fun r s' => R s s' ∧ (r = .ok () → ∃ row,
      s'.requests.find id = some row ∧ ObjectAccess.requestScope ctx row = true)) s := by
  unfold ObjectAccess.assertRequest
  rw [Prog.meets_read_bind]
  refine fun s' hs' => ⟨hG s', ?_⟩
  rw [Prog.meets_ite]
  split
  · exact ⟨hs', fun h => by cases h⟩
  · rename_i hcount
    obtain ⟨j, row, hfind, -, hcond⟩ := Ctx.count_ne_zero_iff.mp hcount
    rw [Bool.and_eq_true, decide_eq_true_eq] at hcond
    obtain ⟨rfl, hscope⟩ := hcond
    exact ⟨hs', fun _ => ⟨row, hfind, hscope⟩⟩

/-- The request was found, and the user may see it. -/
theorem assertRequest_meets (hG : ∀ s, G s s) (ctx : Ctx) (id : Uuid) (s : Db) :
    (assertRequest ctx id).Meets R G (fun r s' => R s s' ∧ ∀ before, r = .ok before →
      ctx.findById s'.requests id (fun _ => true) = some before ∧ ∃ s₀ row, R s s₀ ∧ R s₀ s' ∧
        s₀.requests.find id = some row ∧ ObjectAccess.requestScope ctx row = true) s := by
  unfold assertRequest
  rw [Prog.meets_bind]
  refine (objectAccess_assertRequest_meets hG ctx id s).mono ?_
  rintro (e | u) s₀ ⟨h₀, haccess⟩
  · exact ⟨h₀, fun _ h => by cases h⟩
  dsimp only
  rw [Prog.meets_read_bind]
  refine fun s₁ h₁ => ⟨hG s₁, ?_⟩
  have h₀₁ := hR.trans _ _ _ h₀ h₁
  split
  · exact ⟨h₀₁, fun _ h => by cases h⟩
  · rename_i before hbefore
    refine ⟨h₀₁, fun _ h => ?_⟩
    cases h
    obtain ⟨row, hrow, hscope⟩ := haccess rfl
    exact ⟨hbefore, s₀, row, h₀, h₁, hrow, hscope⟩

omit hR in
/-- The guard of the workflow is registered, and asks for a response. -/
theorem guards_checked (hrefl : ∀ s, R s s) (hG : ∀ s, G s s) (ctx : Ctx) (id : Uuid) (before : DocumentRequest)
    (action : String) (comment : Option String) (t : Transition RequestStatus) (ht : t ∈ requestWorkflow.transitions)
    (guard : String) (hguard : guard ∈ t.guards ++ []) :
    ∃ fn, guardRegistry.get requestWorkflow.name guard = some fn ∧
      Checks R G (Responds id before) (fn ⟨(id, before), ctx, action, t.fromState, t.toState, comment⟩) := by
  rw [List.append_nil] at hguard
  obtain rfl := requestWorkflow_guards t ht guard hguard
  refine ⟨_, rfl, ?_⟩
  dsimp only
  split
  · rename_i hnote
    exact checks_pure hrefl fun _ _ => .inl (by simpa using hnote)
  · exact checks_read hrefl hG fun s h => .inr (attached_of_count (by simpa using h))

theorem get_meets (hG : ∀ a b, Quiet a b → G a b) (ctx : Ctx) (id : Uuid) (s : Db) :
    (get ctx id).Meets R G (fun _ _ => True) s := by
  have hsame : ∀ s, G s s := fun s => hG s s (Quiet.refl s)
  unfold get
  rw [Prog.meets_bind]
  refine (objectAccess_assertRequest_meets hsame ctx id s).mono ?_
  rintro (e | u) s₀ -
  · trivial
  dsimp only
  rw [Prog.meets_bind]
  refine (meets_quiet hR (ObjectAccess.documentScope_quiet ctx) hG s₀).mono ?_
  rintro (e | scope) s₁ -
  · trivial
  dsimp only
  rw [Prog.meets_read_bind]
  refine fun s₂ _ => ⟨hsame s₂, ?_⟩
  split
  · trivial
  · rename_i r _
    rw [Prog.meets_bind]
    refine (availableActions_meets hR.refl hR.trans (P := fun _ _ => Responds r.row.1 r.row.2) ?_ s₂).mono ?_
    · exact fun t ht guard hguard => guards_checked hR.refl hsame ctx _ _ t.action none t ht guard hguard
    · rintro _ s₃ ⟨actions, rfl, -⟩
      trivial

omit hR in
theorem insertNumbered_meets (ctx : Ctx) (dto : CreateRequestDto) (left : ℕ) (s₀ : Db) :
    ∀ s, (insertNumbered ctx dto left).Meets R (Call R s₀ (.create ctx dto)) (fun _ _ => True) s := by
  induction left with
  | zero => exact fun _ => trivial
  | succ left ih =>
    intro s
    unfold insertNumbered
    dsimp only
    rw [Prog.meets_read_bind]
    refine fun s₁ _ => ⟨.quiet (Quiet.refl s₁), ?_⟩
    rw [Prog.meets_catching]
    refine Prog.meets_of_call fun s₂ _ r s₃ hrun => ?_
    rcases r with e | a
    · rw [Prog.atomic_call _ _ _ _ hrun]
      refine ⟨.quiet (Quiet.refl s₂), ?_⟩
      dsimp only
      rw [Prog.meets_ite]
      split
      · exact ih s₂
      · trivial
    · obtain ⟨-, -, hfresh, hrows, hrest⟩ := insertRequest_ok hrun
      exact ⟨.create ⟨rfl, rfl, hfresh, hrows, hrest⟩, trivial⟩

theorem create_meets (ctx : Ctx) (dto : CreateRequestDto) (s : Db) :
    (create ctx dto).Meets R (Call R s (.create ctx dto)) (fun _ _ => True) s := by
  have hsame : ∀ s₁, Call R s (.create ctx dto) s₁ s₁ := fun s₁ => .quiet (Quiet.refl s₁)
  unfold create
  rw [Prog.meets_read_bind]
  refine fun s₀ _ => ⟨hsame s₀, ?_⟩
  split
  · trivial
  rw [Prog.meets_bind]
  refine (assertRelated_meets hR.refl hsame _ s₀).mono ?_
  rintro (e | u) s₁ -
  · trivial
  dsimp only
  rw [Prog.meets_bind]
  refine (insertNumbered_meets ctx dto 5 s s₁).mono ?_
  rintro (e | created) s₂ -
  · trivial
  dsimp only
  rw [Prog.meets_bind]
  refine (meets_quiet hR (auditRecord_quiet ctx _ _ _) (fun _ _ => .quiet) s₂).mono ?_
  rintro (e | u) s₃ -
  · trivial
  dsimp only
  rw [Prog.meets_bind]
  refine (meets_quiet hR (notify_quiet ctx _ _) (fun _ _ => .quiet) s₃).mono ?_
  rintro (e | u) s₄ -
  · trivial
  dsimp only
  rw [Prog.meets_read_bind]
  refine fun s₅ _ => ⟨hsame s₅, ?_⟩
  split <;> trivial

theorem update_meets (ctx : Ctx) (id : Uuid) (dto : UpdateRequestDto) (s : Db) :
    (update ctx id dto).Meets R (Call R s (.update ctx id dto)) (fun _ _ => True) s := by
  have hsame : ∀ s₁, Call R s (.update ctx id dto) s₁ s₁ := fun s₁ => .quiet (Quiet.refl s₁)
  unfold update
  rw [Prog.meets_bind]
  refine (assertRequest_meets hR hsame ctx id s).mono ?_
  rintro (e | before) s₀ ⟨h₀, hread⟩
  · trivial
  obtain ⟨hbefore, sa, row, hsa, hsa', hrow, hscope⟩ := hread before rfl
  dsimp only
  rw [Prog.meets_ite]
  split
  · trivial
  rename_i honly
  rw [Prog.meets_ite]
  split
  · trivial
  rename_i hassigned
  unfold updateChecked
  rw [Prog.meets_ite]
  split
  · trivial
  rename_i hclosed
  rw [Prog.meets_bind]
  refine Prog.meets_of_call fun s₁ h₁ r s₂ hrun => ?_
  rcases r with e | v
  · rw [Prog.atomic_call _ _ _ _ hrun]
    exact ⟨hsame s₁, trivial⟩
  obtain ⟨r, r', hfind, hchange, hc, hrows, hrest⟩ := updateRequestRow_ok hrun
  have hupdated : Updated R s ctx id dto before r r' s₁ s₂ := {
    access := ⟨sa, row, hsa, hR.trans _ _ _ hsa' h₁, hrow, hscope⟩
    read := ⟨s₀, h₀, h₁, hbefore⟩
    allowed := by
      cases hmanage : ctx.hasPermission .requestManage with
      | true => exact .inl rfl
      | false => exact .inr ⟨by simpa [hmanage] using honly, by simpa [hmanage] using hassigned⟩
    unclosed := not_or.mp hclosed
    row := hfind
    change := hchange
    admitted := hc
    rows := hrows
    rest := hrest }
  refine ⟨.update hupdated, (meets_quiet hR ?_ (fun _ _ => .quiet) s₂).mono fun _ _ _ => trivial⟩
  refine (auditRecord_quiet ctx _ _ _).bind fun _ => Prog.Within.bind ?_ fun _ => Prog.within_pure _
  exact Prog.Within.ite (notify_quiet ctx _ _) (Prog.within_pure _)

theorem transition_meets (ctx : Ctx) (id : Uuid) (dto : TransitionDto) (s : Db) :
    (transition ctx id dto).Meets R (Call R s (.transition ctx id dto)) (fun _ _ => True) s := by
  have hsame : ∀ s₁, Call R s (.transition ctx id dto) s₁ s₁ := fun s₁ => .quiet (Quiet.refl s₁)
  unfold transition
  rw [Prog.meets_bind]
  refine (assertRequest_meets hR hsame ctx id s).mono ?_
  rintro (e | before) s₀ ⟨h₀, hread⟩
  · trivial
  dsimp only
  rw [Prog.meets_ite]
  split
  · trivial
  rw [Prog.meets_bind]
  refine (AuditSphere.transition_meets hR.refl hR.trans (P := fun _ => Responds id before)
    (fun t ht guard hguard => guards_checked hR.refl hsame ctx id before dto.action _ t ht guard hguard) s₀).mono ?_
  rintro (e | t) s₁ ⟨h₁, hpassed⟩
  · trivial
  obtain ⟨hdeclared, -, hguards⟩ := hpassed t rfl
  dsimp only [transitionChecked]
  rw [Prog.meets_ite]
  split
  · trivial
  rw [Prog.meets_bind]
  refine Prog.meets_of_call fun s₂ h₂ r s₃ hrun => ?_
  rcases r with e | v
  · rw [Prog.atomic_call _ _ _ _ hrun]
    exact ⟨hsame s₂, trivial⟩
  obtain ⟨r, r', hfind, hchange, -, hrows, hrest⟩ := updateRequestRow_ok hrun
  cases hchange
  have hmoved : Moved R s ctx id dto t before r s₂ s₃ := {
    read := ⟨s₀, h₀, hR.trans _ _ _ h₁ h₂, (hread before rfl).1⟩
    declared := hdeclared
    responded := fun hguard => by
      obtain ⟨sg, hsg, hsg', hresponds⟩ := hguards _ (List.mem_append_left _ hguard)
      refine hresponds.imp (fun h => h) fun ⟨row, hrow, hattached⟩ => ?_
      exact ⟨sg, row, hR.trans _ _ _ h₀ hsg, hR.trans _ _ _ hsg' h₂, hrow, hattached⟩
    row := hfind
    rows := hrows
    rest := hrest }
  refine ⟨.transition hmoved, ?_⟩
  dsimp only
  rw [Prog.meets_bind]
  refine (meets_quiet hR (auditRecord_quiet ctx _ _ _) (fun _ _ => .quiet) s₃).mono ?_
  rintro (e | u) s₄ -
  · trivial
  dsimp only
  rw [Prog.meets_bind]
  refine (meets_quiet hR (notify_quiet ctx _ _) (fun _ _ => .quiet) s₄).mono ?_
  rintro (e | u) s₅ -
  · trivial
  exact get_meets hR (fun _ _ => .quiet) ctx id s₅

omit hR in
/-- The document is adopted, or belongs to something else. -/
theorem adoptDocument_meets (ctx : Ctx) (id documentId : Uuid) (doc : Document) (s s₁ : Db)
    (hread : ∃ s₀, Linkable R s ctx documentId doc s₀) :
    (adoptDocument ctx id documentId doc).Meets R (Call R s (.linkDocument ctx id documentId)) (fun _ _ => True) s₁ := by
  unfold adoptDocument
  rw [Prog.meets_ite]
  split
  · rename_i hfree
    refine Prog.meets_of_call fun s₂ h₂ r s₃ hrun => ?_
    rcases r with e | u
    · rw [Prog.atomic_call _ _ _ _ hrun]
      exact ⟨.quiet (Quiet.refl s₂), trivial⟩
    obtain ⟨d, hfind, hrows, hrest⟩ := ownDocument_ok hrun
    exact ⟨.own ⟨hread, hfree, hfind, hrows, hrest⟩, trivial⟩
  · trivial

theorem linkDocument_meets (ctx : Ctx) (id documentId : Uuid) (s : Db) :
    (linkDocument ctx id documentId).Meets R (Call R s (.linkDocument ctx id documentId)) (fun _ _ => True) s := by
  have hsame : ∀ s₁, Call R s (.linkDocument ctx id documentId) s₁ s₁ := fun s₁ => .quiet (Quiet.refl s₁)
  unfold linkDocument
  rw [Prog.meets_bind]
  refine (assertRequest_meets hR hsame ctx id s).mono ?_
  rintro (e | request) s₀ ⟨h₀, -⟩
  · trivial
  dsimp only
  rw [Prog.meets_ite]
  split
  · trivial
  rw [Prog.meets_ite]
  split
  · trivial
  unfold linkChecked ObjectAccess.assertDocument
  rw [Prog.meets_bind, Prog.meets_bind]
  refine (meets_quiet hR (ObjectAccess.documentScope_quiet ctx) (fun _ _ => .quiet) s₀).mono ?_
  rintro (e | scope) s₁ h₁
  · trivial
  dsimp only
  rw [Prog.meets_read_bind]
  refine fun s₂ h₂ => ⟨hsame s₂, ?_⟩
  rw [Prog.meets_ite]
  split
  · trivial
  rw [Prog.meets_pure]
  dsimp only
  rw [Prog.meets_read_bind]
  refine fun s₃ h₃ => ⟨hsame s₃, ?_⟩
  split
  · trivial
  rename_i doc hdoc
  rw [Prog.meets_ite]
  split
  · trivial
  rename_i htype
  have h₀₃ := hR.trans _ _ _ (hR.trans _ _ _ h₀ h₁) (hR.trans _ _ _ h₂ h₃)
  rw [Prog.meets_bind]
  refine Prog.meets_of_call fun s₄ h₄ r s₅ hrun => ?_
  rcases r with e | u
  · rw [Prog.atomic_call _ _ _ _ hrun]
    exact ⟨hsame s₄, trivial⟩
  obtain ⟨r, hfind, hrows, hrest⟩ := connectDocument_ok hrun
  have hlinkable : Linkable R s ctx documentId doc s₄ := ⟨s₃, h₀₃, h₄, hdoc, htype⟩
  refine ⟨.connect ⟨hlinkable, hfind, hrows, hrest⟩, ?_⟩
  rw [Prog.meets_bind]
  refine (adoptDocument_meets ctx id documentId doc s s₅ ⟨s₄, hlinkable⟩).mono ?_
  rintro (e | u) s₆ -
  · trivial
  dsimp only
  rw [Prog.meets_bind]
  refine (meets_quiet hR (auditRecord_quiet ctx _ _ _) (fun _ _ => .quiet) s₆).mono ?_
  rintro (e | u) s₇ -
  · trivial
  exact get_meets hR (fun _ _ => .quiet) ctx id s₇

/-- **What an operation does**, whatever comes between its calls. -/
theorem perform_meets (o : Operation) (s : Db) : (perform o).Meets R (Call R s o) (fun _ _ => True) s := by
  have hanswer : ∀ {α : Type} {p : Service α} (f : α → Response), p.Meets R (Call R s o) (fun _ _ => True) s →
      (p >>= fun a => (pure (f a) : Service Response)).Meets R (Call R s o) (fun _ _ => True) s := by
    intro α p f h
    rw [Prog.meets_bind]
    refine h.mono ?_
    rintro (e | a) s' - <;> trivial
  unfold perform
  rw [Prog.meets_ite]
  split
  · trivial
  cases o with
  | create ctx dto => exact hanswer .row (create_meets hR ctx dto s)
  | update ctx id dto => exact hanswer .row (update_meets hR ctx id dto s)
  | transition ctx id dto => exact hanswer .detail (transition_meets hR ctx id dto s)
  | linkDocument ctx id documentId => exact hanswer .detail (linkDocument_meets hR ctx id documentId s)

omit hR in
/-- Without a permission of the route nothing happens. -/
theorem perform_denied {o : Operation} (h : o.permissions.any o.ctx.hasPermission = false) (s : Db) :
    after perform s o = s := by
  unfold after perform
  rw [h]
  rfl

end Methods

end AuditSphere.Requests
