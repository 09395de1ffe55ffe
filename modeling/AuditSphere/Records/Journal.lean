import AuditSphere.Db.Journal
import AuditSphere.Evidence.Numbering
import AuditSphere.Findings.Numbering
import AuditSphere.Requests.Calls
import AuditSphere.Workpapers.Lifecycle

/-!
# Services that are stopped

The findings, the requests for documents, the workpapers and the evidence records change in
one call or one transaction, and the next call records the change. So a process that stops leaves
the trail and the data in agreement, unless it stops between these two calls.
-/

namespace AuditSphere

open Prisma Theory Shared

/-! ### Findings -/

namespace Findings

theorem guards_look : GuardsLook guardRegistry := by
  unfold guardRegistry
  dsimp only
  refine GuardsLook.register (GuardsLook.register (GuardsLook.register (GuardsLook.register (GuardsLook.register
    (GuardsLook.register (List.forall_mem_nil _) ?_ _ _) ?_ _ _) ?_ _ _) ?_ _ _) ?_ _ _) ?_ _ _ <;> intro g
  · exact Prog.calls_pure _
  · exact Prog.Calls.ite (Prog.calls_pure _) (looks_read _)
  · exact Prog.calls_pure _
  · exact Prog.calls_pure _
  · exact (looks_read _).bind fun _ => (looks_read _).bind fun _ => (looks_read _).bind fun _ => Prog.calls_pure _
  · exact Prog.calls_pure _

theorem looks_assertFinding (ctx : Ctx) (id : Uuid) : Looks (assertFinding ctx id) := by
  unfold assertFinding
  refine (looks_assertSome _ _).bind fun _ => (looks_read _).bind fun f => ?_
  cases f with
  | none => exact Prog.calls_throw _
  | some f => exact Prog.calls_pure _

theorem looks_get (ctx : Ctx) (id : Uuid) : Looks (get ctx id) := by
  unfold get
  refine (looks_assertSome _ _).bind fun _ => (looks_documentScope ctx).bind fun scope => (looks_read _).bind fun f => ?_
  cases f with
  | none => exact Prog.calls_throw _
  | some f =>
    exact (looks_read _).bind fun _ => (looks_availableActions guards_look _ _ _ _ _).bind fun _ => Prog.calls_pure _

theorem change_insertFinding (id historyId : Uuid) (f : Finding) (h : FindingStatusHistory) :
    Change (insertFinding id historyId f h) :=
  change_call fun s a s' hrun => by
    rw [(insertFinding_ok hrun).2.2.2.2.2]

theorem change_updateFinding (ctx : Ctx) (id : Uuid) (g : Finding → Except HttpError Finding) :
    Change (updateFinding ctx id g) :=
  change_call fun s a s' hrun => by
    obtain ⟨_, _, -, -, -, -, -, -, hrest⟩ := updateFinding_ok hrun
    rw [hrest]

theorem change_transition (ctx : Ctx) (id : Uuid) (dto : TransitionDto) (t : Transition FindingStatus) (finding : Finding) :
    Change (transitionTransaction ctx id dto t finding) :=
  change_call fun s a s' hrun => by
    obtain ⟨_, -, -, -, -, -, -, hrest⟩ := transitionTransaction_ok hrun
    rw [hrest]

theorem change_insertRecommendation (id : Uuid) (r : Recommendation) : Change (insertRecommendation id r) :=
  change_call fun s a s' hrun => by
    obtain ⟨-, -, -, hrest⟩ := insertRecommendation_ok hrun
    rw [hrest]

theorem change_updateRecommendation (ctx : Ctx) (id : Uuid) (g : Recommendation → Except HttpError Recommendation) :
    Change (updateRecommendationRow ctx id g) :=
  change_call fun s a s' hrun => by
    obtain ⟨_, _, -, -, -, -, hrest⟩ := updateRecommendationRow_ok hrun
    rw [hrest]

theorem looks_assertEvidence (ctx : Ctx) (engagementId : Uuid) (evidenceIds : Field (List Uuid)) :
    Looks (assertEvidence ctx engagementId evidenceIds) := by
  unfold assertEvidence
  cases evidenceIds.orNull with
  | none => exact Prog.calls_pure _
  | some ids => exact (looks_read _).bind fun _ => Prog.Calls.ite (Prog.calls_throw _) (Prog.calls_pure _)

theorem looks_recipients (ctx : Ctx) (finding : Finding) (t : Transition FindingStatus) :
    Looks (recipients ctx finding t) := by
  unfold recipients
  split
  · exact (looks_read _).bind fun _ => Prog.calls_pure _
  · exact (Prog.calls_pure _).bind fun _ => Prog.calls_pure _

theorem journaled_create (ctx : Ctx) (dto : CreateFindingDto) : Journaled (create ctx dto) := by
  unfold create
  refine (looks_read _).then fun engagement => ?_
  cases engagement with
  | none => trivial
  | some engagement =>
    refine Prog.Journaled.ite trivial ?_
    refine (looks_assertRelated ctx _ _ _ _).then fun _ => (looks_assertRelated ctx _ _ _ _).then fun _ =>
      (looks_assertRelated ctx _ _ _ _).then fun _ => ?_
    refine (insertNumbered_numbered ctx dto engagement).journaled (fun _ _ => change_insertFinding _ _ _ _) (fun created => ?_) 5
    refine recording_auditRecord _ _ _ _ (Looks.tells (Prog.Calls.bind (looks_read _) fun found => ?_))
    cases found with
    | none => exact Prog.calls_throw _
    | some found => exact Prog.calls_pure _

theorem journaled_update (ctx : Ctx) (id : Uuid) (dto : UpdateFindingDto) : Journaled (update ctx id dto) := by
  unfold update
  refine (looks_assertFinding ctx id).then fun before => ?_
  cases assertEditable ctx before dto with
  | error e => trivial
  | ok =>
    refine (looks_assertRelated ctx _ _ _ _).then fun _ => (looks_assertEvidence ctx _ _).then fun _ =>
      (change_updateFinding ctx id _).journaled fun after => recording_auditRecord _ _ _ _ ?_
    exact (tells_notify ctx _ _).bind fun _ => Prog.calls_pure _

theorem journaled_transition (ctx : Ctx) (id : Uuid) (dto : TransitionDto) : Journaled (transition ctx id dto) := by
  unfold transition
  refine (looks_assertFinding ctx id).then fun finding => (looks_workflowTransition guards_look _ _ _ _ _).then fun t =>
    (change_transition ctx id dto t finding).journaled fun updated => ?_
  rw [afterTransition, bind_assoc]
  refine recording_auditRecord _ _ _ _ (Prog.Calls.bind (Prog.Calls.bind (looks_recipients ctx finding t).tells fun users =>
    tells_notifyMany ctx _ _) fun _ => (looks_get ctx id).tells)

theorem journaled_extend (ctx : Ctx) (id : Uuid) (dto : ExtendFindingDto) : Journaled (extend ctx id dto) := by
  unfold extend
  refine (looks_assertFinding ctx id).then fun before => Prog.Journaled.ite trivial (Prog.Journaled.ite trivial ?_)
  refine (change_updateFinding ctx id _).journaled fun after => recording_auditRecord _ _ _ _ ?_
  exact (tells_notifyMany ctx _ _).bind fun _ => Prog.calls_pure _

theorem journaled_addRecommendation (ctx : Ctx) (findingId : Uuid) (dto : CreateRecommendationDto) :
    Journaled (addRecommendation ctx findingId dto) := by
  unfold addRecommendation
  refine (looks_assertFinding ctx findingId).then fun finding => Prog.Journaled.ite trivial ?_
  refine (looks_read _).then fun max => (change_insertRecommendation _ _).journaled fun created =>
    recording_auditRecord _ _ _ _ (Prog.calls_pure _)

theorem journaled_updateRecommendation (ctx : Ctx) (id : Uuid) (dto : UpdateRecommendationDto) :
    Journaled (updateRecommendation ctx id dto) := by
  unfold updateRecommendation
  refine (looks_read _).then fun before => ?_
  cases before with
  | none => trivial
  | some before =>
    obtain ⟨before, finding⟩ := before
    refine (looks_assertSome _ _).then fun _ => ?_
    cases assertRecommendationEditable ctx before finding dto with
    | error e => trivial
    | ok =>
      refine (change_updateRecommendation ctx id _).journaled fun after => recording_auditRecord _ _ _ _ ?_
      exact (tells_notify ctx _ _).bind fun _ => Prog.calls_pure _

/-- **Findings**: every operation is journaled. -/
theorem journaled_perform (o : Operation) : Journaled (perform o) := by
  unfold perform
  dsimp only
  refine Prog.Journaled.ite trivial ?_
  cases o with
  | edit r =>
    refine Journaled.answer ?_
    unfold serve
    dsimp only
    refine Prog.Journaled.ite trivial ?_
    cases r with
    | create ctx dto => exact (journaled_create ctx dto).answer
    | update ctx id dto => exact (journaled_update ctx id dto).answer
  | transition ctx id dto => exact (journaled_transition ctx id dto).answer
  | extend ctx id dto => exact (journaled_extend ctx id dto).answer
  | addRecommendation ctx findingId dto => exact (journaled_addRecommendation ctx findingId dto).answer
  | updateRecommendation ctx id dto => exact (journaled_updateRecommendation ctx id dto).answer

end Findings

/-! ### Requests for documents -/

namespace Requests

theorem guards_look : GuardsLook guardRegistry := by
  unfold guardRegistry
  dsimp only
  refine GuardsLook.register (List.forall_mem_nil _) (fun g => ?_) _ _
  exact Prog.Calls.ite (Prog.calls_pure _) (looks_read _)

theorem looks_access (ctx : Ctx) (id : Uuid) : Looks (ObjectAccess.assertRequest ctx id) := by
  unfold ObjectAccess.assertRequest
  exact (looks_read _).bind fun _ => Prog.Calls.ite (Prog.calls_throw _) (Prog.calls_pure _)

theorem looks_assertRequest (ctx : Ctx) (id : Uuid) : Looks (assertRequest ctx id) := by
  unfold assertRequest
  refine (looks_access ctx id).bind fun _ => (looks_read _).bind fun r => ?_
  cases r with
  | none => exact Prog.calls_throw _
  | some r => exact Prog.calls_pure _

theorem looks_get (ctx : Ctx) (id : Uuid) : Looks (get ctx id) := by
  unfold get
  refine (looks_access ctx id).bind fun _ => (looks_documentScope ctx).bind fun scope => (looks_read _).bind fun r => ?_
  cases r with
  | none => exact Prog.calls_throw _
  | some r => exact (looks_availableActions guards_look _ _ _ _ _).bind fun _ => Prog.calls_pure _

theorem change_insertRequest (id : Uuid) (r : DocumentRequest) : Change (insertRequest id r) :=
  change_call fun s a s' hrun => by
    rw [(insertRequest_ok hrun).2.2.2.2]

theorem change_updateRequest (ctx : Ctx) (id : Uuid) (g : DocumentRequest → Except HttpError DocumentRequest) :
    Change (updateRequestRow ctx id g) :=
  change_call fun s a s' hrun => by
    obtain ⟨_, _, -, -, -, -, hrest⟩ := updateRequestRow_ok hrun
    rw [hrest]

theorem journaled_create (ctx : Ctx) (dto : CreateRequestDto) : Journaled (create ctx dto) := by
  unfold create
  refine (looks_read _).then fun engagement => ?_
  cases engagement with
  | none => trivial
  | some engagement =>
    refine (looks_assertRelated ctx _ _ _ _).then fun _ => ?_
    refine (insertNumbered_numbered ctx dto).journaled (fun _ _ => change_insertRequest _ _) (fun created => ?_) 5
    refine recording_auditRecord _ _ _ _ ((tells_notify ctx _ _).bind fun _ =>
      Looks.tells (Prog.Calls.bind (looks_read _) fun found => ?_))
    cases found with
    | none => exact Prog.calls_throw _
    | some found => exact Prog.calls_pure _

theorem journaled_update (ctx : Ctx) (id : Uuid) (dto : UpdateRequestDto) : Journaled (update ctx id dto) := by
  unfold update updateChecked
  refine (looks_assertRequest ctx id).then fun before => Prog.Journaled.ite trivial (Prog.Journaled.ite trivial
    (Prog.Journaled.ite trivial ?_))
  refine (change_updateRequest ctx id _).journaled fun after => recording_auditRecord _ _ _ _ ?_
  refine Prog.Calls.bind ?_ fun _ => Prog.calls_pure _
  exact Prog.Calls.ite (tells_notify ctx _ _) (Prog.calls_pure _)

theorem journaled_transition (ctx : Ctx) (id : Uuid) (dto : TransitionDto) : Journaled (transition ctx id dto) := by
  unfold transition
  refine (looks_assertRequest ctx id).then fun request => Prog.Journaled.ite trivial
    ((looks_workflowTransition guards_look _ _ _ _ _).then fun t => ?_)
  unfold transitionChecked
  refine Prog.Journaled.ite trivial ?_
  refine (change_updateRequest ctx id _).journaled fun updated => recording_auditRecord _ _ _ _ ?_
  exact (tells_notify ctx _ _).bind fun _ => (looks_get ctx id).tells

/-- **Requests for documents**: every operation is journaled but the link of a document, which writes twice. -/
theorem journaled_perform (o : Operation) (hlink : ∀ ctx id documentId, o ≠ .linkDocument ctx id documentId) :
    Journaled (perform o) := by
  unfold perform
  refine Prog.Journaled.ite trivial ?_
  cases o with
  | create ctx dto => exact (journaled_create ctx dto).answer
  | update ctx id dto => exact (journaled_update ctx id dto).answer
  | transition ctx id dto => exact (journaled_transition ctx id dto).answer
  | linkDocument ctx id documentId => exact absurd rfl (hlink ctx id documentId)

end Requests

/-! ### Workpapers -/

namespace Workpapers

theorem guards_look : GuardsLook guardRegistry := by
  unfold guardRegistry
  dsimp only
  refine GuardsLook.register (GuardsLook.register (GuardsLook.register (GuardsLook.register (GuardsLook.register
    (List.forall_mem_nil _) ?_ _ _) ?_ _ _) ?_ _ _) ?_ _ _) ?_ _ _ <;> intro g
  · exact Prog.calls_pure _
  · exact Prog.calls_pure _
  · exact Prog.calls_pure _
  · exact looks_read _
  · exact looks_read _

theorem looks_assertWorkpaper (ctx : Ctx) (id : Uuid) : Looks (assertWorkpaper ctx id) := by
  unfold assertWorkpaper
  refine (looks_read _).bind fun wp => ?_
  cases wp with
  | none => exact Prog.calls_throw _
  | some wp => exact Prog.calls_pure _

theorem looks_get (ctx : Ctx) (id : Uuid) : Looks (get ctx id) := by
  unfold get
  refine (looks_read _).bind fun wp => ?_
  cases wp with
  | none => exact Prog.calls_throw _
  | some wp => exact (looks_availableActions guards_look _ _ _ _ _).bind fun _ => Prog.calls_pure _

theorem looks_templateContent (ctx : Ctx) (templateId : Field Uuid) : Looks (templateContent ctx templateId) := by
  unfold templateContent
  cases templateId.orNull with
  | none => exact Prog.calls_pure _
  | some t =>
    refine (looks_read _).bind fun template => ?_
    cases template with
    | none => exact Prog.calls_throw _
    | some template => exact Prog.calls_pure _

theorem looks_assertReferenceFree (ctx : Ctx) (id : Uuid) (before : Workpaper) (reference : Field String) :
    Looks (assertReferenceFree ctx id before reference) := by
  unfold assertReferenceFree
  cases reference.orNull with
  | none => exact Prog.calls_pure _
  | some reference =>
    exact Prog.Calls.ite (Prog.calls_pure _)
      ((looks_read _).bind fun _ => Prog.Calls.ite (Prog.calls_throw _) (Prog.calls_pure _))

theorem looks_recipients (ctx : Ctx) (wp : Workpaper) (t : Transition WorkpaperStatus) : Looks (recipients ctx wp t) := by
  unfold recipients
  exact Prog.Calls.ite ((looks_read _).bind fun _ => Prog.calls_pure _) (Prog.calls_pure _)

theorem change_insertWorkpaper (id : Uuid) (w : Workpaper) : Change (insertWorkpaper id w) :=
  change_call fun s a s' hrun => by
    rw [(insertWorkpaper_ok hrun).2.2.2]

theorem change_updateTransaction (ctx : Ctx) (id : Uuid) (dto : UpdateWorkpaperDto) (before : Workpaper) :
    Change (updateTransaction ctx id dto before) :=
  change_call fun s a s' hrun => by
    obtain ⟨_, s₁, hversion, hrow⟩ := Prog.run_bind_ok.mp (Prog.run_transaction_ok.mp hrun)
    obtain ⟨_, -, -, -, -, -, hrest⟩ := updateWorkpaper_ok hrow
    rw [hrest, (insertVersion_ok hversion).2.2.2]

theorem change_insertReviewNote (id : Uuid) (n : ReviewNote) : Change (insertReviewNote id n) :=
  change_call fun s a s' hrun => by
    rw [(insertReviewNote_ok hrun).2.2.2]

theorem change_updateNote (ctx : Ctx) (id : Uuid) (g : ReviewNote → ReviewNote) : Change (updateNoteRow ctx id g) :=
  change_call fun s a s' hrun => by
    obtain ⟨_, -, -, -, -, hrest⟩ := updateNoteRow_ok hrun
    rw [hrest]

theorem recordReview_trail {ctx : Ctx} {id : Uuid} {dto : TransitionDto} {t : Transition WorkpaperStatus} {s s' : Db}
    {u : Unit} (h : (recordReview ctx id dto t).run s = (.ok u, s')) : s'.auditTrail = s.auditTrail := by
  unfold recordReview at h
  split at h
  · cases h
    rfl
  · rw [insertReview_ok h]

theorem moveStep_trail {ctx : Ctx} {wp : Workpaper} {t : Transition WorkpaperStatus} {s s' : Db} {u : Unit}
    (h : (moveStep ctx wp t).run s = (.ok u, s')) : s'.auditTrail = s.auditTrail := by
  unfold moveStep at h
  split at h
  · cases h
    rfl
  · split_ifs at h
    · rw [(updateStepStatus_ok h).2]
    · rw [(updateStepStatus_ok h).2]
    · cases h
      rfl

theorem change_transition (ctx : Ctx) (id : Uuid) (dto : TransitionDto) (t : Transition WorkpaperStatus) (wp : Workpaper) :
    Change (transitionTransaction ctx id dto t wp) :=
  change_call fun s a s' hrun => by
    obtain ⟨_, s₁, hrow, hrun⟩ := Prog.run_bind_ok.mp (Prog.run_transaction_ok.mp hrun)
    obtain ⟨_, s₂, hreview, hrun⟩ := Prog.run_bind_ok.mp hrun
    obtain ⟨_, s₃, hstep, hrun⟩ := Prog.run_bind_ok.mp hrun
    obtain ⟨_, -, -, -, -, -, hrest⟩ := updateWorkpaper_ok hrow
    cases hrun
    rw [moveStep_trail hstep, recordReview_trail hreview, hrest]

theorem journaled_create (ctx : Ctx) (engagementId : Uuid) (dto : CreateWorkpaperDto) (hstep : dto.programStepId.orNull = none) :
    Journaled (create ctx engagementId dto) := by
  unfold create
  refine (looks_read _).then fun engagement => ?_
  cases engagement with
  | none => trivial
  | some engagement =>
    refine Prog.Journaled.ite trivial ((looks_templateContent ctx _).then fun content =>
      (looks_assertRelated ctx _ _ _ _).then fun _ => (looks_read _).then fun duplicate => Prog.Journaled.ite trivial ?_)
    -- no step is started
    refine (change_insertWorkpaper _ _).journaled fun _ => ?_
    unfold startStep
    rw [hstep]
    exact recording_auditRecord _ _ _ _ (Prog.calls_pure _)

theorem journaled_update (ctx : Ctx) (id : Uuid) (dto : UpdateWorkpaperDto) : Journaled (update ctx id dto) := by
  unfold update updateRead
  refine (looks_assertWorkpaper ctx id).then fun before => Prog.Journaled.ite trivial (Prog.Journaled.ite trivial
    (Prog.Journaled.ite trivial ?_))
  refine (looks_assertReferenceFree ctx id before _).then fun _ => ?_
  exact (change_updateTransaction ctx id dto before).journaled fun after => recording_auditRecord _ _ _ _ (Prog.calls_pure _)

theorem journaled_transition (ctx : Ctx) (id : Uuid) (dto : TransitionDto) : Journaled (transition ctx id dto) := by
  unfold transition
  refine (looks_assertWorkpaper ctx id).then fun wp => (looks_workflowTransition guards_look _ _ _ _ _).then fun t =>
    (change_transition ctx id dto t wp).journaled fun _ => ?_
  rw [afterTransition, bind_assoc]
  exact recording_auditRecord _ _ _ _ (Prog.Calls.bind (Prog.Calls.bind (looks_recipients ctx wp t).tells fun users =>
    tells_notifyMany ctx _ _) fun _ => (looks_get ctx id).tells)

theorem journaled_createReviewNote (ctx : Ctx) (workpaperId : Uuid) (dto : CreateReviewNoteDto) :
    Journaled (createReviewNote ctx workpaperId dto) := by
  unfold createReviewNote
  refine (looks_assertWorkpaper ctx workpaperId).then fun wp => (change_insertReviewNote _ _).journaled fun _ =>
    recording_auditRecord _ _ _ _ ?_
  exact (tells_notify ctx _ _).bind fun _ => Prog.calls_pure _

theorem journaled_updateReviewNote (ctx : Ctx) (id : Uuid) (dto : UpdateReviewNoteDto) :
    Journaled (updateReviewNote ctx id dto) := by
  unfold updateReviewNote
  refine (looks_read _).then fun before => ?_
  cases before with
  | none => trivial
  | some before =>
    obtain ⟨before, wp⟩ := before
    dsimp only
    cases noteChange ctx before wp dto with
    | error e => trivial
    | ok change =>
      obtain ⟨data, action⟩ := change
      refine (change_updateNote ctx id data).journaled fun after => recording_auditRecord _ _ _ _ ?_
      exact (tells_notify ctx _ _).bind fun _ => Prog.calls_pure _

/-- **Workpapers**: every request is journaled but the creation for a programme step, which also starts the step. -/
theorem journaled_serve (r : Request)
    (hstep : ∀ ctx engagementId dto, r = .create ctx engagementId dto → dto.programStepId.orNull = none) :
    Journaled (serve r) := by
  unfold serve
  dsimp only
  refine Prog.Journaled.ite trivial ?_
  cases r with
  | create ctx engagementId dto => exact (journaled_create ctx engagementId dto (hstep _ _ _ rfl)).answer
  | update ctx id dto => exact (journaled_update ctx id dto).answer
  | transition ctx id dto => exact (journaled_transition ctx id dto).answer
  | createReviewNote ctx workpaperId dto => exact (journaled_createReviewNote ctx workpaperId dto).answer
  | updateReviewNote ctx id dto => exact (journaled_updateReviewNote ctx id dto).answer

end Workpapers

/-! ### Evidence -/

namespace Evidence

theorem looks_assertDocument (ctx : Ctx) (documentId : Field Uuid) : Looks (assertDocument ctx documentId) := by
  unfold assertDocument
  cases documentId.orNull with
  | none => exact Prog.calls_pure _
  | some d =>
    refine (looks_read _).bind fun doc => ?_
    cases doc with
    | none => exact Prog.calls_throw _
    | some doc => exact Prog.Calls.ite (Prog.calls_throw _) (Prog.calls_pure _)

theorem looks_assertUnlocked (ctx : Ctx) (engagementId : Uuid) (workpaperId : Field Uuid) :
    Looks (assertUnlocked ctx engagementId workpaperId) := by
  unfold assertUnlocked
  cases workpaperId.orNull with
  | none => exact Prog.calls_pure _
  | some i =>
    refine (looks_read _).bind fun wp => ?_
    cases wp with
    | none => exact Prog.calls_throw _
    | some wp => exact Prog.Calls.ite (Prog.calls_throw _) (Prog.calls_pure _)

theorem change_insertEvidence (id : Uuid) (e : Evidence) : Change (insertEvidence id e) :=
  change_call fun s a s' hrun => by
    rw [(insertEvidence_ok hrun).2.2.2.2]

theorem change_updateEvidence (ctx : Ctx) (id : Uuid) (g : Evidence → Except HttpError Evidence) :
    Change (updateEvidence ctx id g) :=
  change_call fun s a s' hrun => by
    obtain ⟨_, _, -, -, -, -, -, hrest⟩ := updateEvidence_ok hrun
    rw [hrest]

theorem journaled_create (ctx : Ctx) (dto : CreateEvidenceDto) (hdocument : dto.documentId.orNull = none) :
    Journaled (create ctx dto) := by
  unfold create createUnlocked
  refine (looks_read _).then fun engagement => Prog.Journaled.ite trivial ((looks_assertUnlocked ctx _ _).then fun _ =>
    (looks_assertDocument ctx _).then fun _ => ?_)
  refine (insertNumbered_numbered ctx dto).journaled (fun _ _ => change_insertEvidence _ _) (fun created => ?_) 5
  -- no document is adopted
  unfold adoptDocument
  rw [hdocument]
  refine recording_auditRecord _ _ _ _ (Looks.tells (Prog.Calls.bind (looks_read _) fun found => ?_))
  cases found with
  | none => exact Prog.calls_throw _
  | some found => exact Prog.calls_pure _

theorem journaled_update (ctx : Ctx) (id : Uuid) (dto : UpdateEvidenceDto) : Journaled (update ctx id dto) := by
  unfold update
  refine (looks_read _).then fun before => ?_
  cases before with
  | none => trivial
  | some before =>
    refine (looks_assertRelated ctx _ _ _ _).then fun _ => (looks_assertDocument ctx _).then fun _ => ?_
    exact (change_updateEvidence ctx id _).journaled fun after => recording_auditRecord _ _ _ _ (Prog.calls_pure _)

/-- **Evidence**: every request is journaled but the creation with a document, which may also change the document. -/
theorem journaled_serve (r : Request) (hdocument : ∀ ctx dto, r = .create ctx dto → dto.documentId.orNull = none) :
    Journaled (serve r) := by
  unfold serve
  dsimp only
  refine Prog.Journaled.ite trivial ?_
  cases r with
  | create ctx dto => exact journaled_create ctx dto (hdocument _ _ rfl)
  | update ctx id dto => exact journaled_update ctx id dto

end Evidence

/-! ### All operations -/

namespace Changes

/-- An operation on the findings, the requests for documents, the workpapers or the evidence of an engagement. -/
inductive Operation where
  | finding (o : Findings.Operation)
  | request (o : Requests.Operation)
  | workpaper (r : Workpapers.Request)
  | evidence (r : Evidence.Request)

/-- What an operation answers. -/
inductive Response where
  | finding (v : Findings.Outcome)
  | request (v : Requests.Response)
  | workpaper (v : Workpapers.Response)
  | evidence (v : Evidence.EvidenceView)

/-- The controllers. -/
def perform : Operation → Service Response
  | .finding o => do return .finding (← Findings.perform o)
  | .request o => do return .request (← Requests.perform o)
  | .workpaper r => do return .workpaper (← Workpapers.serve r)
  | .evidence r => do return .evidence (← Evidence.serve r)

/-- Outside of a transaction, the operation writes its data once. -/
def Operation.writesOnce : Operation → Bool
  | .request (.linkDocument ..) => false
  | .workpaper (.create _ _ dto) => dto.programStepId.orNull.isNone
  | .evidence (.create _ dto) => dto.documentId.orNull.isNone
  | _ => true

theorem journaled_perform {o : Operation} (h : o.writesOnce = true) : Journaled (perform o) := by
  cases o with
  | finding o => exact (Findings.journaled_perform o).answer
  | request o =>
    refine (Requests.journaled_perform o ?_).answer
    rintro ctx id documentId rfl
    cases h
  | workpaper r =>
    refine (Workpapers.journaled_serve r ?_).answer
    rintro ctx engagementId dto rfl
    have h : dto.programStepId.orNull.isNone = true := h
    exact Option.isNone_iff_eq_none.mp h
  | evidence r =>
    refine (Evidence.journaled_serve r ?_).answer
    rintro ctx dto rfl
    have h : dto.documentId.orNull.isNone = true := h
    exact Option.isNone_iff_eq_none.mp h

/-- **Every change is on record, but for one moment**: an operation that writes once changes nothing, and leaves nothing
behind wherever the process stops; or it makes its change and records it, and there is one moment at which a process
that stops leaves the change without its record. -/
theorem change_on_record (o : Operation) (h : o.writesOnce = true) (db : Db) :
    (business ((perform o).run db).2 = business db ∧ ∀ n, (perform o).Agreed business Db.auditTrail n db) ∨
      (business ((perform o).run db).2 ≠ business db ∧ ((perform o).run db).2.auditTrail ≠ db.auditTrail ∧
        ∃ gap, ∀ n, (perform o).Agreed business Db.auditTrail n db ↔ n ≠ gap) :=
  (journaled_perform h).one_gap db

/-- Cleo's sign-off is such a change. -/
theorem change_on_record_sign_off : ∃ gap, ∀ n, (perform (.workpaper (Workpapers.take 3 106 "sign_off"))).Agreed business
    Db.auditTrail n (history Workpapers.serve Workpapers.office Workpapers.reviewed) ↔ n ≠ gap := by
  rcases change_on_record (.workpaper (Workpapers.take 3 106 "sign_off")) rfl
    (history Workpapers.serve Workpapers.office Workpapers.reviewed) with ⟨hsame, -⟩ | ⟨-, -, hgap⟩
  · have hstatus := congrArg (fun db => (db.workpapers.find 100).map Workpaper.status) hsame
    exact absurd hstatus (by decide +kernel)
  · exact hgap

end Changes

end AuditSphere
