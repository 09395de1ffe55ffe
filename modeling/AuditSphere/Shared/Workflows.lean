import AuditSphere.Shared.Permissions
import Mathlib.Data.List.Basic

/-!
# Workflows

`workflows.ts`: a record's life as a declared state machine. A transition is found
by the state it starts from and the name of its action.
-/

namespace AuditSphere.Shared

/-- A transition: who may make it, and what must hold. -/
structure Transition (S : Type) where
  /-- The state it leaves. -/
  fromState : S
  /-- The state it enters. -/
  toState : S
  /-- The name under which it is asked for. -/
  action : String
  /-- The name shown to users. -/
  label : String
  /-- What the actor must hold. -/
  permission : PermissionKey
  /-- What must hold of the record. -/
  guards : List String := []
  deriving DecidableEq

/-- A state machine over the states `S`. -/
structure StateMachine (S : Type) where
  /-- Its name, under which guards are registered. -/
  name : String
  /-- The state of a new record. -/
  initial : S
  /-- The states that are final. -/
  terminal : List S
  /-- The transitions. -/
  transitions : List (Transition S)

variable {S : Type} [DecidableEq S]

/-- The first transition from a state with the action. -/
def findTransition (machine : StateMachine S) (fromState : S) (action : String) : Option (Transition S) :=
  machine.transitions.find? fun t => t.fromState = fromState && t.action = action

/-- What `findTransition` returns is declared, and starts where asked. -/
theorem findTransition_some {machine : StateMachine S} {s : S} {action : String} {t : Transition S}
    (h : findTransition machine s action = some t) :
    t ∈ machine.transitions ∧ t.fromState = s ∧ t.action = action := by
  have hp := List.find?_some h
  simp only [Bool.and_eq_true, decide_eq_true_eq] at hp
  exact ⟨List.mem_of_find?_eq_some h, hp.1, hp.2⟩

/-- The status of a workpaper. -/
inductive WorkpaperStatus where
  | draft | prepared | inReview | reviewNotesOpen | reviewed | signedOff
  deriving DecidableEq

/-- The status as it is stored and shown. -/
def WorkpaperStatus.text : WorkpaperStatus → String
  | .draft => "DRAFT"
  | .prepared => "PREPARED"
  | .inReview => "IN_REVIEW"
  | .reviewNotesOpen => "REVIEW_NOTES_OPEN"
  | .reviewed => "REVIEWED"
  | .signedOff => "SIGNED_OFF"

namespace WorkpaperWorkflow

/-- The preparer is done. -/
def markPrepared : Transition WorkpaperStatus where
  fromState := .draft
  toState := .prepared
  action := "mark_prepared"
  label := "Mark as prepared"
  permission := .workpaperPrepare
  guards := ["has_procedure_and_conclusion"]

/-- Back to the preparer. -/
def reopen : Transition WorkpaperStatus where
  fromState := .prepared
  toState := .draft
  action := "reopen"
  label := "Reopen"
  permission := .workpaperPrepare

/-- A reviewer begins. -/
def startReview : Transition WorkpaperStatus where
  fromState := .prepared
  toState := .inReview
  action := "start_review"
  label := "Start review"
  permission := .workpaperReview
  guards := ["reviewer_is_not_preparer"]

/-- The reviewer has notes. -/
def raiseNotes : Transition WorkpaperStatus where
  fromState := .inReview
  toState := .reviewNotesOpen
  action := "raise_notes"
  label := "Raise review notes"
  permission := .workpaperReview

/-- The preparer has addressed the notes. -/
def addressNotes : Transition WorkpaperStatus where
  fromState := .reviewNotesOpen
  toState := .prepared
  action := "address_notes"
  label := "Notes addressed"
  permission := .workpaperPrepare
  guards := ["all_notes_addressed"]

/-- The reviewer approves. -/
def approveReview : Transition WorkpaperStatus where
  fromState := .inReview
  toState := .reviewed
  action := "approve_review"
  label := "Approve review"
  permission := .workpaperReview
  guards := ["no_open_review_notes", "reviewer_is_not_preparer"]

/-- The final sign-off, which locks the workpaper. -/
def signOff : Transition WorkpaperStatus where
  fromState := .reviewed
  toState := .signedOff
  action := "sign_off"
  label := "Sign off"
  permission := .workpaperSignOff
  guards := ["signer_is_not_preparer"]

/-- The lock is lifted; the workpaper starts over. -/
def unlock : Transition WorkpaperStatus where
  fromState := .signedOff
  toState := .draft
  action := "unlock"
  label := "Unlock"
  permission := .workpaperUnlock

end WorkpaperWorkflow

open WorkpaperWorkflow

/-- The life of a workpaper. -/
def workpaperWorkflow : StateMachine WorkpaperStatus where
  name := "workpaper"
  initial := .draft
  terminal := [.signedOff]
  transitions := [markPrepared, reopen, startReview, raiseNotes, addressNotes, approveReview, signOff, unlock]

/-- The cases of a transition. -/
theorem workpaperWorkflow_cases {t : Transition WorkpaperStatus} (h : t ∈ workpaperWorkflow.transitions) :
    t = markPrepared ∨ t = reopen ∨ t = startReview ∨ t = raiseNotes ∨ t = addressNotes ∨ t = approveReview ∨
      t = signOff ∨ t = unlock := by
  simpa [workpaperWorkflow] using h

/-- The declared transition has the state and the action it was found by. -/
theorem declared_cases {s : WorkpaperStatus} {action : String} {t : Transition WorkpaperStatus}
    (h : findTransition workpaperWorkflow s action = some t) :
    (t = markPrepared ∨ t = reopen ∨ t = startReview ∨ t = raiseNotes ∨ t = addressNotes ∨ t = approveReview ∨
      t = signOff ∨ t = unlock) ∧ s = t.fromState ∧ action = t.action := by
  obtain ⟨hmem, hs, ha⟩ := findTransition_some h
  exact ⟨workpaperWorkflow_cases hmem, hs.symm, ha.symm⟩

/-- The guards that the transitions name. -/
theorem workpaperWorkflow_guards : ∀ t ∈ workpaperWorkflow.transitions, ∀ guard ∈ t.guards,
    guard ∈ ["has_procedure_and_conclusion", "reviewer_is_not_preparer", "signer_is_not_preparer",
      "all_notes_addressed", "no_open_review_notes"] := by
  decide

/-! ### Findings -/

/-- The status of a finding. -/
inductive FindingStatus where
  | draft | managementReview | agreed | implementation | validation | closed | riskAccepted
  deriving DecidableEq

/-- The status as it is stored and shown. -/
def FindingStatus.text : FindingStatus → String
  | .draft => "DRAFT"
  | .managementReview => "MANAGEMENT_REVIEW"
  | .agreed => "AGREED"
  | .implementation => "IMPLEMENTATION"
  | .validation => "VALIDATION"
  | .closed => "CLOSED"
  | .riskAccepted => "RISK_ACCEPTED"

namespace FindingWorkflow

/-- Management is asked. -/
def submit : Transition FindingStatus where
  fromState := .draft
  toState := .managementReview
  action := "submit"
  label := "Submit to management"
  permission := .findingSubmit
  guards := ["has_condition_criteria", "has_recommendation"]

/-- The finding is taken back. -/
def returnToDraft : Transition FindingStatus where
  fromState := .managementReview
  toState := .draft
  action := "return_to_draft"
  label := "Return to draft"
  permission := .findingManage

/-- Management agrees. -/
def agree : Transition FindingStatus where
  fromState := .managementReview
  toState := .agreed
  action := "agree"
  label := "Agree finding"
  permission := .findingRespond
  guards := ["has_management_response", "has_action_owner_and_due_date"]

/-- Management accepts the risk instead. -/
def acceptRisk : Transition FindingStatus where
  fromState := .managementReview
  toState := .riskAccepted
  action := "accept_risk"
  label := "Accept risk"
  permission := .findingAcceptRisk

/-- The agreed action begins. -/
def startImplementation : Transition FindingStatus where
  fromState := .agreed
  toState := .implementation
  action := "start_implementation"
  label := "Start implementation"
  permission := .findingRespond

/-- The action is done, as far as management is concerned. -/
def requestValidation : Transition FindingStatus where
  fromState := .implementation
  toState := .validation
  action := "request_validation"
  label := "Request validation"
  permission := .findingRespond
  guards := ["has_implementation_evidence"]

/-- The auditor sees more to do. -/
def rejectValidation : Transition FindingStatus where
  fromState := .validation
  toState := .implementation
  action := "reject_validation"
  label := "Return to implementation"
  permission := .findingValidate

/-- The auditor has seen the action done. -/
def validateAndClose : Transition FindingStatus where
  fromState := .validation
  toState := .closed
  action := "validate_and_close"
  label := "Validate and close"
  permission := .findingValidate

end FindingWorkflow

open FindingWorkflow

/-- The life of a finding. -/
def findingWorkflow : StateMachine FindingStatus where
  name := "finding"
  initial := .draft
  terminal := [.closed, .riskAccepted]
  transitions := [submit, returnToDraft, agree, acceptRisk, startImplementation, requestValidation, rejectValidation,
    validateAndClose]

/-- The cases of a transition. -/
theorem findingWorkflow_cases {s : FindingStatus} {action : String} {t : Transition FindingStatus}
    (h : findTransition findingWorkflow s action = some t) :
    (t = submit ∨ t = returnToDraft ∨ t = agree ∨ t = acceptRisk ∨ t = startImplementation ∨ t = requestValidation ∨
      t = rejectValidation ∨ t = validateAndClose) ∧ s = t.fromState ∧ action = t.action := by
  obtain ⟨hmem, hs, ha⟩ := findTransition_some h
  exact ⟨by simpa [findingWorkflow] using hmem, hs.symm, ha.symm⟩

/-! ### Engagements -/

/-- The stage of an engagement. -/
inductive EngagementStage where
  | planning | riskAssessment | programme | fieldwork | review | reporting | followUp | closed
  deriving DecidableEq

/-- The stage as it is stored and shown. -/
def EngagementStage.text : EngagementStage → String
  | .planning => "PLANNING"
  | .riskAssessment => "RISK_ASSESSMENT"
  | .programme => "PROGRAMME"
  | .fieldwork => "FIELDWORK"
  | .review => "REVIEW"
  | .reporting => "REPORTING"
  | .followUp => "FOLLOW_UP"
  | .closed => "CLOSED"

namespace EngagementWorkflow

/-- The engagement is set up. -/
def startRiskAssessment : Transition EngagementStage where
  fromState := .planning
  toState := .riskAssessment
  action := "start_risk_assessment"
  label := "Start risk assessment"
  permission := .engagementAdvanceStage
  guards := ["has_objectives_and_scope", "has_lead"]

/-- The risks are assessed. -/
def buildProgramme : Transition EngagementStage where
  fromState := .riskAssessment
  toState := .programme
  action := "build_programme"
  label := "Build audit programme"
  permission := .engagementAdvanceStage

/-- The work begins. -/
def startFieldwork : Transition EngagementStage where
  fromState := .programme
  toState := .fieldwork
  action := "start_fieldwork"
  label := "Start fieldwork"
  permission := .engagementAdvanceStage
  guards := ["programme_approved"]

/-- The work is done, as far as its preparers are concerned. -/
def submitForReview : Transition EngagementStage where
  fromState := .fieldwork
  toState := .review
  action := "submit_for_review"
  label := "Submit for review"
  permission := .engagementAdvanceStage
  guards := ["all_workpapers_prepared"]

/-- The reviewer sees more to do. -/
def returnToFieldwork : Transition EngagementStage where
  fromState := .review
  toState := .fieldwork
  action := "return_to_fieldwork"
  label := "Return to fieldwork"
  permission := .workpaperReview

/-- The work is signed off and the report is written. -/
def startReporting : Transition EngagementStage where
  fromState := .review
  toState := .reporting
  action := "start_reporting"
  label := "Start reporting"
  permission := .engagementAdvanceStage
  guards := ["all_workpapers_signed_off", "no_open_review_notes"]

/-- The report is out. -/
def issueReport : Transition EngagementStage where
  fromState := .reporting
  toState := .followUp
  action := "issue_report"
  label := "Issue report"
  permission := .engagementIssueReport
  guards := ["all_findings_agreed_or_accepted"]

/-- The engagement is completed. -/
def close : Transition EngagementStage where
  fromState := .followUp
  toState := .closed
  action := "close"
  label := "Close engagement"
  permission := .engagementClose
  guards := ["all_findings_owned_and_submitted"]

/-- The engagement does not take place. -/
def cancel : Transition EngagementStage where
  fromState := .planning
  toState := .closed
  action := "cancel"
  label := "Cancel engagement"
  permission := .engagementClose

end EngagementWorkflow

open EngagementWorkflow in
/-- The life of an engagement. -/
def engagementWorkflow : StateMachine EngagementStage where
  name := "engagement"
  initial := .planning
  terminal := [.closed]
  transitions := [startRiskAssessment, buildProgramme, startFieldwork, submitForReview, returnToFieldwork, startReporting,
    issueReport, close, cancel]

open EngagementWorkflow in
/-- The cases of a transition. -/
theorem engagementWorkflow_cases {s : EngagementStage} {action : String} {t : Transition EngagementStage}
    (h : findTransition engagementWorkflow s action = some t) :
    (t = startRiskAssessment ∨ t = buildProgramme ∨ t = startFieldwork ∨ t = submitForReview ∨ t = returnToFieldwork ∨
      t = startReporting ∨ t = issueReport ∨ t = close ∨ t = cancel) ∧ s = t.fromState ∧ action = t.action := by
  obtain ⟨hmem, hs, ha⟩ := findTransition_some h
  exact ⟨by simpa [engagementWorkflow] using hmem, hs.symm, ha.symm⟩

end AuditSphere.Shared
