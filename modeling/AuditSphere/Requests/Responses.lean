import AuditSphere.Auth.Scopes
import AuditSphere.Requests.Calls

/-!
# What was asked for is there

A request is submitted if it has a note, or a linked document that is uploaded. Two requests
can take the response away afterwards (`Strips`): the note of a submitted request may still be
edited, and a document may be removed whatever request refers to it. As long as neither
happens, every request that is submitted or accepted has a response (`responded_iff`).
-/

namespace AuditSphere.Responses

open Prisma (Uuid)
open Theory Shared Documents ObjectAccess Requests

/-! ### Requests -/

/-- An operation on requests, or the removal of a document. -/
inductive Request where
  | request (o : Requests.Operation)
  | remove (ctx : Ctx) (id : Uuid)

/-- What a request answers. -/
inductive Response where
  | request (r : Requests.Response)
  | removed

/-- The controllers. -/
def serve : Request → Method Response
  | .request o => do return .request (← onDb (perform o))
  | .remove ctx id =>
    if !ctx.hasPermission .documentDelete then
      throw (.http (.forbidden s!"Missing permission: {PermissionKey.documentDelete.key}"))
    else do
      remove ctx id
      return .removed

/-! ### What must be there -/

/-- The request has been answered: it is submitted or accepted. -/
def answered (status : RequestStatus) : Bool := status ∈ [.submitted, .accepted]

/-- Every request that is submitted or accepted has a note, or a linked document that is
uploaded and not deleted. -/
def Responded (s : Db) : Prop := ∀ id r, s.requests.find id = some r → answered r.status = true →
  isBlank r.responseNote = false ∨ Attached s r.documentIds

/-- None of the documents counts, apart from some. -/
def bare (s : Db) (apart : Uuid → Bool) (documentIds : List Uuid) : Bool :=
  documentIds.all fun i => apart i || !(s.documents.find i).any counts

/-- The user may remove the document: the checks of `remove` pass. -/
def removable (ctx : Ctx) (s : Db) (id : Uuid) : Bool :=
  ctx.hasPermission .documentDelete &&
    ((ctx.findById s.documents id fun d => d.deletedAt.isNone && visibleDocument ctx s id d).any fun d =>
      (assertUsable ctx false false d).isOk) &&
    ctx.count s.engagements (fun _ e => e.reportDocumentId = some id && e.deletedAt.isNone) = 0

/-- The user may edit the request: the checks of `update` pass. -/
def editable (ctx : Ctx) (dto : UpdateRequestDto) (r : DocumentRequest) : Bool :=
  [PermissionKey.requestManage, .requestRespond].any ctx.hasPermission && requestScope ctx r &&
    (ctx.hasPermission .requestManage || dto.onlyNote && !assignedElsewhere ctx r)

/-- The request takes a response away: it makes the note of a submitted request blank that has
no document, or removes the only document of a request that has no note. -/
def Strips (s : Db) : Request → Bool
  | .request (.update ctx id dto) => (ctx.findById s.requests id fun _ => true).any fun r =>
      editable ctx dto r && r.status = .submitted && bare s (fun _ => false) r.documentIds &&
        match dto.apply r with
        | .ok r' => isBlank r'.responseNote && (constrained s id r').isOk
        | .error _ => false
  | .remove ctx id => removable ctx s id && (s.requests.first fun _ r =>
      answered r.status && isBlank r.responseNote && bare s (· = id) r.documentIds).isSome
  | _ => false

theorem bare_eq_false_iff {s : Db} {apart : Uuid → Bool} {documentIds : List Uuid} :
    bare s apart documentIds = false ↔ ∃ i ∈ documentIds, apart i = false ∧ ∃ d, s.documents.find i = some d ∧ counts d = true := by
  simp only [bare, List.all_eq_false, Bool.or_eq_true, Bool.not_eq_true', not_or, Bool.not_eq_true,
    Bool.not_eq_false, Option.any_eq_true]

theorem not_attached_of_bare {s : Db} {documentIds : List Uuid} (h : bare s (fun _ => false) documentIds = true) :
    ¬Attached s documentIds := by
  rintro ⟨i, hi, hd⟩
  rw [bare_eq_false_iff.mpr ⟨i, hi, rfl, hd⟩] at h
  cases h

theorem attached_of_not_bare {s : Db} {documentIds : List Uuid} (h : bare s (fun _ => false) documentIds = false) :
    Attached s documentIds := by
  obtain ⟨i, hi, -, hd⟩ := bare_eq_false_iff.mp h
  exact ⟨i, hi, hd⟩

/-! ### Operations on requests -/

section Operations

variable {s s₁ s₂ : Db}

/-- What becomes of one request, if the documents stay. -/
theorem Responded.of_row {id : Uuid} {r' : DocumentRequest} (h : Responded s₁)
    (hrows : ∀ j, s₂.requests.find j = if j = id then some r' else s₁.requests.find j)
    (hdocuments : s₂.documents = s₁.documents)
    (hrow : answered r'.status = true → isBlank r'.responseNote = false ∨ Attached s₁ r'.documentIds) :
    Responded s₂ := by
  unfold Responded Attached
  rw [hdocuments]
  intro j r hr hanswered
  rw [hrows] at hr
  split at hr
  · cases hr
    exact hrow hanswered
  · exact h j r hr hanswered

theorem apply_kept {dto : UpdateRequestDto} {r r' : DocumentRequest} (h : dto.apply r = .ok r') :
    r'.status = r.status ∧ r'.documentIds = r.documentIds := by
  unfold UpdateRequestDto.apply at h
  split at h
  · cases h
  · cases h
    exact ⟨rfl, rfl⟩

/-- A transition to a request that is answered asks for a response, or the request was answered. -/
theorem requestWorkflow_answered : ∀ t ∈ requestWorkflow.transitions, answered t.toState = true →
    answered t.fromState = true ∨ "has_attachment_or_response" ∈ t.guards := by
  decide

/-- The request that was edited, if it was submitted without a document, has a note still. -/
theorem Responded.updated {ctx : Ctx} {id : Uuid} {dto : UpdateRequestDto} {before r r' : DocumentRequest}
    (h : Responded s₁) (hpermitted : [PermissionKey.requestManage, .requestRespond].any ctx.hasPermission = true)
    (hspared : Strips s (.request (.update ctx id dto)) = false)
    (hupdated : Updated Quiet s ctx id dto before r r' s₁ s₂) : Responded s₂ := by
  obtain ⟨sa, row, ha, -, hrow, hscope⟩ := hupdated.access
  obtain ⟨s₀, h₀, h₁, hread⟩ := hupdated.read
  have hfind := hupdated.row
  have hadmitted := hupdated.admitted
  refine h.of_row hupdated.rows (by rw [hupdated.rest]) fun hanswered => ?_
  obtain ⟨hstatus, hdocuments⟩ := apply_kept hupdated.change
  obtain ⟨auditTrail, notifications, rfl⟩ := (h₀.trans h₁).eq
  obtain ⟨_, _, rfl⟩ := h₀.eq
  obtain ⟨_, _, rfl⟩ := ha.eq
  have hread : ctx.findById s.requests id (fun _ => true) = some before := hread
  have hfind : s.requests.find id = some r := hfind
  have hrow : s.requests.find id = some row := hrow
  have hadmitted : constrained s id r' = .ok () := hadmitted
  rw [(Ctx.findById_eq_some.mp hread).1, Option.some.injEq] at hfind hrow
  subst hfind hrow
  have hsubmitted : before.status = .submitted := by
    have := hupdated.unclosed
    rw [hstatus] at hanswered
    revert hanswered
    cases hcase : before.status <;> simp_all [answered]
  have heditable : editable ctx dto before = true := by
    have := hupdated.allowed
    simp only [editable, hpermitted, hscope, Bool.true_and, Bool.or_eq_true, Bool.and_eq_true, Bool.not_eq_true']
    exact this
  cases hbare : bare s (fun _ => false) before.documentIds with
  | false =>
    obtain ⟨i, hi, d, hd, hcounts⟩ := attached_of_not_bare hbare
    exact .inr ⟨i, by rwa [hdocuments], d, hd, hcounts⟩
  | true =>
    refine .inl ?_
    simpa [Strips, hread, heditable, hsubmitted, hbare, hupdated.change, hadmitted, Except.isOk, Except.toBool]
      using hspared

/-- A transition to a request that is answered has seen the response. -/
theorem Responded.moved {ctx : Ctx} {id : Uuid} {dto : TransitionDto} {t : Transition RequestStatus}
    {before r : DocumentRequest} (h : Responded s₁) (hmoved : Moved Quiet s ctx id dto t before r s₁ s₂) :
    Responded s₂ := by
  obtain ⟨s₀, h₀, h₁, hread⟩ := hmoved.read
  have hresponded := hmoved.responded
  have hfind := hmoved.row
  refine h.of_row hmoved.rows (by rw [hmoved.rest]) fun hanswered => ?_
  obtain ⟨hmem, hfrom, -⟩ := findTransition_some hmoved.declared
  have hbefore : r = before := by
    obtain ⟨_, _, rfl⟩ := h₁.eq
    have hfind : s₀.requests.find id = some r := hfind
    rw [(Ctx.findById_eq_some.mp hread).1, Option.some.injEq] at hfind
    exact hfind.symm
  subst hbefore
  rcases requestWorkflow_answered t hmem hanswered with hbefore | hguard
  · rw [hfrom] at hbefore
    exact h id r hfind hbefore
  · refine (hresponded hguard).imp (fun h => h) ?_
    rintro ⟨sg, row, -, hg, hrow, hattached⟩
    obtain ⟨_, _, rfl⟩ := hg.eq
    have hfind : sg.requests.find id = some r := hfind
    rw [hrow, Option.some.injEq] at hfind
    rwa [← hfind]

/-- Each call of an operation that takes no response away. -/
theorem Responded.call {o : Requests.Operation} (h : Responded s₁)
    (hpermitted : o.permissions.any o.ctx.hasPermission = true) (hspared : Strips s (.request o) = false)
    (hcall : Call Quiet s o s₁ s₂) : Responded s₂ := by
  cases hcall with
  | quiet hq =>
    obtain ⟨auditTrail, notifications, rfl⟩ := hq.eq
    exact h
  | create hcreated =>
    refine h.of_row hcreated.rows (by rw [hcreated.rest]) fun hanswered => ?_
    rw [hcreated.opened] at hanswered
    cases hanswered
  | update hupdated => exact h.updated hpermitted hspared hupdated
  | transition hmoved => exact h.moved hmoved
  | connect hconnected =>
    refine h.of_row hconnected.rows (by rw [hconnected.rest]) fun hanswered => ?_
    refine (h _ _ hconnected.row hanswered).imp (fun h => h) ?_
    rintro ⟨i, hi, hd⟩
    refine ⟨i, ?_, hd⟩
    split
    · exact hi
    · exact List.mem_append_left _ hi
  | own howned =>
    rename_i ctx id documentId doc d₀
    intro j r hr hanswered
    have hrequests : s₂.requests = s₁.requests := by rw [howned.rest]
    rw [hrequests] at hr
    refine (h j r hr hanswered).imp (fun h => h) ?_
    rintro ⟨i, hi, d, hd, hcounts⟩
    by_cases hid : i = documentId
    · refine ⟨i, hi, _, by rw [howned.rows, if_pos hid], ?_⟩
      rw [hid, howned.row, Option.some.injEq] at hd
      rw [← hd] at hcounts
      exact hcounts
    · exact ⟨i, hi, d, by rw [howned.rows, if_neg hid]; exact hd, hcounts⟩

end Operations

/-! ### Removals -/

/-- What the check of a document answers; it changes nothing. -/
theorem assertDocument_run (ctx : Ctx) (s : Db) (id : Uuid) (requireUploaded allowQuarantined : Bool) :
    (Documents.assertDocument ctx id requireUploaded allowQuarantined).run s =
      (match ctx.findById s.documents id fun d => d.deletedAt.isNone && visibleDocument ctx s id d with
        | none => .error (.notFound "Document not found")
        | some doc => (assertUsable ctx requireUploaded allowQuarantined doc).map fun _ => doc, s) := by
  have hcount : (ctx.count s.documents fun j d => j = id && d.deletedAt.isNone && visibleDocument ctx s j d) = 0 ↔
      ctx.findById s.documents id (fun d => d.deletedAt.isNone && visibleDocument ctx s id d) = none := by
    rw [← not_iff_not, ← Ne, Ctx.count_ne_zero_iff, ← Ne, Option.ne_none_iff_exists']
    simp [Ctx.findById_eq_some, and_assoc]
  unfold Documents.assertDocument ObjectAccess.assertDocument
  rw [Prog.run_bind, Prog.run_bind, documentScope_run]
  dsimp only
  rw [Prog.run_bind, Prog.run_read]
  dsimp only
  cases hfind : ctx.findById s.documents id fun d => d.deletedAt.isNone && visibleDocument ctx s id d with
  | none =>
    rw [if_pos (hcount.mpr hfind)]
    rfl
  | some doc =>
    rw [if_neg (by rw [hcount, hfind]; simp)]
    obtain ⟨hdoc, hsees, hcond⟩ := Ctx.findById_eq_some.mp hfind
    rw [Bool.and_eq_true] at hcond
    have hfound : ctx.findById s.documents id (fun d => d.deletedAt.isNone) = some doc :=
      Ctx.findById_eq_some.mpr ⟨hdoc, hsees, hcond.1⟩
    rw [Prog.run_pure]
    dsimp only
    rw [Prog.run_bind, Prog.run_read]
    dsimp only
    rw [hfound]
    dsimp only
    cases assertUsable ctx requireUploaded allowQuarantined doc <;> rfl

theorem onDb_run {α : Type} (p : Service α) (s : Store) :
    (onDb p).run s = ((p.run s.db).1.mapError DocumentError.http, { s with db := (p.run s.db).2 }) := by
  unfold onDb
  rw [Prog.run_embed] <;> intros <;> rfl

theorem after_request (s : Store) (o : Requests.Operation) :
    after serve s (.request o) = { s with db := after perform s.db o } := by
  unfold after serve
  rw [Prog.run_bind, onDb_run]
  cases (perform o).run s.db with
  | mk result s' => cases result <;> rfl

/-- A removal that is refused changes nothing. -/
theorem after_refused {s : Store} {ctx : Ctx} {id : Uuid} (h : removable ctx s.db id = false) :
    after serve s (.remove ctx id) = s := by
  unfold after serve
  cases hpermitted : ctx.hasPermission .documentDelete with
  | false => simp [hpermitted]
  | true =>
    dsimp only
    unfold remove
    rw [if_neg (by simp [hpermitted]), bind_assoc, Prog.run_bind, onDb_run, assertDocument_run]
    cases hfind : ctx.findById s.db.documents id fun d => d.deletedAt.isNone && visibleDocument ctx s.db id d with
    | none => rfl
    | some doc =>
      dsimp only
      cases husable : assertUsable ctx false false doc with
      | error e => rfl
      | ok u =>
        have hlinked : ctx.count s.db.engagements (fun _ e => e.reportDocumentId = some id && e.deletedAt.isNone) ≠ 0 := by
          simpa [removable, hpermitted, hfind, husable, Except.isOk, Except.toBool] using h
        simp [Except.map, Except.mapError, Prog.run_bind, hlinked, -bind_pure_comp]

/-- One that is not marks the document. -/
theorem after_removed {s : Store} {ctx : Ctx} {id : Uuid} (h : removable ctx s.db id = true) :
    ∃ d, s.db.documents.find id = some d ∧
      (∀ j, (after serve s (.remove ctx id)).db.documents.find j =
        if j = id then some { d with deletedAt := some s.clock } else s.db.documents.find j) ∧
      (after serve s (.remove ctx id)).db.requests = s.db.requests := by
  simp only [removable, Bool.and_eq_true, Option.any_eq_true, decide_eq_true_eq] at h
  obtain ⟨⟨hpermitted, doc, hfind, husable⟩, hlinked⟩ := h
  have husable : assertUsable ctx false false doc = .ok () := by
    cases hu : assertUsable ctx false false doc with
    | ok u => rfl
    | error e => simp [hu, Except.isOk, Except.toBool] at husable
  obtain ⟨hdoc, hsees, -⟩ := Ctx.findById_eq_some.mp hfind
  have hrow : updateRow ctx s.db.documents id (fun d => .ok { d with deletedAt := some s.clock }) =
      .ok ({ doc with deletedAt := some s.clock },
        s.db.documents.modify (fun j _ => j = id) fun _ => { doc with deletedAt := some s.clock }) := by
    have hrow : ctx.findById s.db.documents id (fun _ => true) = some doc := Ctx.findById_eq_some.mpr ⟨hdoc, hsees, rfl⟩
    simp [updateRow, hrow]
  have hafter : (after serve s (.remove ctx id)).db.documents =
        s.db.documents.modify (fun j _ => j = id) (fun _ => { doc with deletedAt := some s.clock }) ∧
      (after serve s (.remove ctx id)).db.requests = s.db.requests := by
    unfold after serve
    dsimp only
    unfold remove
    rw [if_neg (by simp [hpermitted]), bind_assoc, Prog.run_bind, onDb_run, assertDocument_run, hfind]
    simp [husable, Except.map, Except.mapError, Prog.run_bind, hlinked, updateDocument, hrow, onDb_run, auditRecord,
      -bind_pure_comp]
  refine ⟨doc, hdoc, fun j => ?_, hafter.2⟩
  rw [hafter.1, Table.find_modify]
  by_cases hj : j = id
  · subst hj
    simp [hdoc]
  · simp [hj]

/-! ### What strips -/

/-- A request that takes no response away leaves them all. -/
theorem Responded.served {s : Store} {r : Request} (h : Responded s.db) (hspared : Strips s.db r = false) :
    Responded (after serve s r).db := by
  cases r with
  | request o =>
    rw [after_request]
    cases hpermitted : o.permissions.any o.ctx.hasPermission with
    | false =>
      rw [perform_denied hpermitted]
      exact h
    | true =>
      exact (perform_meets .of_quiet o s.db).run_keeps Quiet.refl (fun _ _ h hcall => h.call hpermitted hspared hcall) h
  | remove ctx id =>
    cases hremovable : removable ctx s.db id with
    | false =>
      rw [after_refused hremovable]
      exact h
    | true =>
      obtain ⟨d, hd, hrows, hrequests⟩ := after_removed hremovable
      intro j r hr hanswered
      rw [hrequests] at hr
      cases hnote : isBlank r.responseNote with
      | false => exact .inl rfl
      | true =>
        have hothers : bare s.db (· = id) r.documentIds = false := by
          cases hbare : bare s.db (· = id) r.documentIds with
          | false => rfl
          | true =>
            have hstrips : (s.db.requests.first fun _ r =>
                answered r.status && isBlank r.responseNote && bare s.db (· = id) r.documentIds).isSome = true :=
              Table.isSome_first_iff.mpr ⟨j, r, hr, by simp [hanswered, hnote, hbare]⟩
            simp [Strips, hremovable, hstrips] at hspared
        obtain ⟨i, hi, hne, d', hd', hcounts⟩ := bare_eq_false_iff.mp hothers
        exact .inr ⟨i, hi, d', by rw [hrows, if_neg (by simpa using hne)]; exact hd', hcounts⟩

/-- What an edit leaves that the user may make. -/
theorem after_update {s : Db} {ctx : Ctx} {id : Uuid} {dto : UpdateRequestDto} {r r' : DocumentRequest}
    (hfound : ctx.findById s.requests id (fun _ => true) = some r) (heditable : editable ctx dto r = true)
    (hsubmitted : r.status = .submitted) (hchange : dto.apply r = .ok r') (hadmitted : constrained s id r' = .ok ()) :
    (after perform s (.update ctx id dto)).documents = s.documents ∧
      (after perform s (.update ctx id dto)).requests = s.requests.modify (fun j _ => j = id) fun _ => r' := by
  simp only [editable, Bool.and_eq_true, Bool.or_eq_true, Bool.not_eq_true'] at heditable
  obtain ⟨⟨hpermitted, hscope⟩, hallowed⟩ := heditable
  obtain ⟨hrow, hsees, -⟩ := Ctx.findById_eq_some.mp hfound
  have hassert : (Requests.assertRequest ctx id).run s = (.ok r, s) := by
    have hcount : (ctx.count s.requests fun j r => j = id && requestScope ctx r) ≠ 0 :=
      Ctx.count_ne_zero_iff.mpr ⟨id, r, hrow, hsees, by simp [hscope]⟩
    simp [Requests.assertRequest, ObjectAccess.assertRequest, Prog.run_bind, hcount, hfound, -bind_pure_comp]
  have hwrite : (updateRequestRow ctx id dto.apply).run s =
      (.ok (view { s with requests := s.requests.modify (fun j _ => j = id) fun _ => r' } (id, r')),
        { s with requests := s.requests.modify (fun j _ => j = id) fun _ => r' }) := by
    have hupdate : updateRow ctx s.requests id dto.apply = .ok (r', s.requests.modify (fun j _ => j = id) fun _ => r') := by
      simp [updateRow, hfound, hchange]
    exact Prog.run_call_ok.mpr (Prog.bind_eq_ok.mpr ⟨_, hupdate, Prog.bind_eq_ok.mpr ⟨(), hadmitted, rfl⟩⟩)
  have honly : ¬((!ctx.hasPermission .requestManage && !dto.onlyNote) = true) := by
    rcases hallowed with hmanage | ⟨honly, -⟩ <;> simp [*]
  have hassigned : ¬((!ctx.hasPermission .requestManage && assignedElsewhere ctx r) = true) := by
    rcases hallowed with hmanage | ⟨-, hassigned⟩ <;> simp [*]
  have hrun : after perform s (.update ctx id dto) = ((update ctx id dto).run s).2 := by
    unfold after perform
    have hroute : (Operation.update ctx id dto).permissions.any (Operation.update ctx id dto).ctx.hasPermission = true :=
      hpermitted
    rw [if_neg (by simp [hroute])]
    exact congrArg Prod.snd (run_return (update ctx id dto) Response.row s)
  rw [hrun, update, Prog.run_bind, hassert]
  dsimp only
  rw [if_neg honly, if_neg hassigned, updateChecked, if_neg (by simp [hsubmitted]), Prog.run_bind, hwrite]
  dsimp only
  -- what records and tells of the edit changes neither table
  have htold : ∀ v : RequestView, (auditRecord ctx "request.updated" "DocumentRequest" id >>= fun _ =>
      notifyAssignee ctx id dto r v >>= fun _ => (pure v : Service RequestView)).Within Quiet := by
    refine fun v => (auditRecord_quiet ctx _ _ _).bind fun _ => Prog.Within.bind ?_ fun _ => Prog.within_pure _
    exact Prog.Within.ite (notify_quiet ctx _ _) (Prog.within_pure _)
  obtain ⟨v, s', hrest, hquiet⟩ := (htold _).run Quiet.refl (fun _ _ _ => Quiet.trans)
    { s with requests := s.requests.modify (fun j _ => j = id) fun _ => r' }
  rw [hrest]
  obtain ⟨auditTrail, notifications, rfl⟩ := hquiet.eq
  exact ⟨rfl, rfl⟩

/-- A request that takes a response away. -/
theorem stripped {s : Store} {r : Request} (hstrips : Strips s.db r = true) : ¬Responded (after serve s r).db := by
  intro h
  unfold Strips at hstrips
  split at hstrips
  · rename_i ctx id dto
    simp only [Bool.and_eq_true, Option.any_eq_true, decide_eq_true_eq] at hstrips
    obtain ⟨r, hfound, ⟨⟨heditable, hsubmitted⟩, hbare⟩, hchange⟩ := hstrips
    split at hchange
    · rename_i r' happly
      simp only [Bool.and_eq_true] at hchange
      have hadmitted : constrained s.db id r' = .ok () := by
        cases hc : constrained s.db id r' with
        | ok u => rfl
        | error e => simp [hc, Except.isOk, Except.toBool] at hchange
      obtain ⟨hdocuments, hrequests⟩ := after_update hfound heditable hsubmitted happly hadmitted
      obtain ⟨hstatus, hids⟩ := apply_kept happly
      rw [after_request] at h
      have hrow : (after perform s.db (.update ctx id dto)).requests.find id = some r' := by
        rw [hrequests, Table.find_modify_self, (Ctx.findById_eq_some.mp hfound).1, Option.map_some]
      rcases h id r' hrow (by simp [answered, hstatus, hsubmitted]) with hnote | hattached
      · rw [hchange.1] at hnote
        cases hnote
      · unfold Attached at hattached
        rw [hids] at hattached
        dsimp only at hattached
        rw [hdocuments] at hattached
        exact not_attached_of_bare hbare hattached
    · cases hchange
  · rename_i ctx id
    rw [Bool.and_eq_true, Table.isSome_first_iff] at hstrips
    obtain ⟨hremovable, j, r, hr, hcond⟩ := hstrips
    simp only [Bool.and_eq_true] at hcond
    obtain ⟨⟨hanswered, hblank⟩, hbare⟩ := hcond
    obtain ⟨d, hd, hrows, hrequests⟩ := after_removed hremovable
    rcases h j r (by rw [hrequests]; exact hr) hanswered with hnote | ⟨i, hi, d', hd', hcounts⟩
    · rw [hblank] at hnote
      cases hnote
    · rw [hrows] at hd'
      split at hd'
      · cases hd'
        simp [counts] at hcounts
      · rename_i hne
        rw [bare_eq_false_iff.mpr ⟨i, hi, by simpa using hne, d', hd', hcounts⟩] at hbare
        cases hbare
  · cases hstrips

/-- **A submitted request carries a response**: starting from where it holds, every request that
is submitted or accepted has a note or an uploaded document, in every state of a history,
exactly if none of its requests takes the response away. -/
theorem responded_iff (s₀ : Store) (h₀ : Responded s₀.db) (past : List Request) :
    Throughout serve (fun s => Responded s.db) s₀ past ↔ Always serve (fun s r => Strips s.db r = false) s₀ past := by
  refine throughout_iff_always (P := fun s : Store => Responded s.db) (I := fun _ => True) (fun _ => trivial) h₀ ?_ past
  intro s r _ h
  constructor
  · intro hafter
    by_contra hstrips
    exact stripped (by simpa using hstrips) hafter
  · exact h.served

/-- A user who asks for documents and may answer, and the uuids of one request. -/
def clerk (k : Uuid) : Ctx := { Workpapers.actor 1 k with
  permissions := [.requestRead, .requestManage, .requestRespond, .documentDelete] }

/-- A document of the office that belongs to nothing. -/
def ledger : Document where
  tenantId := 1
  ownerType := none
  ownerId := none
  fileName := "Ledger.xlsx"
  mimeType := "text/csv"
  sizeBytes := 3
  storageKey := .uuid 1 60
  checksumSha256 := none
  classification := .internal
  uploadedById := 2
  isQuarantined := false
  uploadedAt := some 5
  deletedAt := none

/-- An open request of engagement 10. -/
def asked (reference title : String) : DocumentRequest where
  tenantId := 1
  engagementId := 10
  reference
  title
  description := none
  requestedById := 1
  dueDate := 9
  assigneeId := none
  assigneeEmail := none
  status := .opened
  responseNote := none
  submittedAt := none
  acceptedAt := none
  returnReason := none
  reminderCount := 0
  lastReminderAt := none
  documentIds := []

/-- The office with the document, and two requests. -/
def desk : Store where
  db := { Workpapers.office with
    documents := ⟨[(50, ledger)], by decide⟩
    requests := ⟨[(20, asked "DR-01" "Contract"), (21, asked "DR-02" "Ledger")], by decide⟩ }
  clock := 7
  objects := .empty
  uploadUrls := []
  judgedClean := []

theorem responded_desk : Responded desk.db := by
  refine (Table.forall_find_iff desk.db.requests _).mpr ?_
  simp [desk, asked, answered]

/-- Request 20 is submitted with a note, and request 21 accepted with document 50. -/
def submitted : List Request :=
  [.request (.transition (clerk 580) 21 { action := "accept" }),
    .request (.transition (clerk 570) 21 { action := "submit" }), .request (.linkDocument (clerk 560) 21 50),
    .request (.transition (clerk 520) 20 { action := "submit" }),
    .request (.update (clerk 510) 20 { responseNote := some (some "There is none") })]

/-- The note is edited once more; every request keeps its response. -/
theorem responded_iff_submitted : Throughout serve (fun s => Responded s.db) desk
    (.request (.update (clerk 600) 20 { responseNote := some (some "There never was one") }) :: submitted) :=
  (responded_iff desk responded_desk _).mpr (by decide +kernel)

/-- The note is made blank, and the document removed. -/
def cleared : List Request :=
  [.remove (clerk 610) 50, .request (.update (clerk 600) 20 { responseNote := some (some " ") })] ++ submitted

/-- Request 20 is submitted, and request 21 accepted, without a response. -/
theorem submitted_without_response :
    ((history serve desk cleared).db.requests.find 20).map (fun r => (r.status, r.responseNote, r.documentIds)) =
      some (.submitted, some " ", []) ∧
    ((history serve desk cleared).db.requests.find 21).map (fun r => (r.status, r.responseNote, r.documentIds)) =
      some (.accepted, none, [50]) ∧
    ((history serve desk cleared).db.documents.find 50).map Document.deletedAt = some (some 7) ∧
    ¬Responded (history serve desk cleared).db := by
  have hrow : ((history serve desk cleared).db.requests.find 20).map
      (fun r => (r.status, r.responseNote, r.documentIds)) = some (.submitted, some " ", []) := by
    decide +kernel
  refine ⟨hrow, by decide +kernel, by decide +kernel, fun h => ?_⟩
  obtain ⟨r, hr, hfields⟩ := Option.map_eq_some_iff.mp hrow
  obtain ⟨hstatus, hnote, hids⟩ : r.status = .submitted ∧ r.responseNote = some " " ∧ r.documentIds = [] := by
    simpa using hfields
  rcases h 20 r hr (by rw [hstatus]; rfl) with hblank | ⟨i, hi, -⟩
  · rw [hnote] at hblank
    revert hblank
    decide
  · rw [hids] at hi
    cases hi

end AuditSphere.Responses
