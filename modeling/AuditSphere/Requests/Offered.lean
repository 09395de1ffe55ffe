import AuditSphere.Requests.Responses
import AuditSphere.Workflow.Offered

/-!
# The actions offered on a request

`RequestsService.get` lists the actions of a request with the verdict of the workflow, which knows
nothing of the assignee. `transition` asks first that who responds is the assignee, or manages
requests. On a request that is assigned to someone else a responder is therefore offered an action
that is refused (`withheld`); every other offer is kept, and every other refusal was listed
(`transition_offered_iff`).
-/

namespace AuditSphere.Requests

open Prisma Theory Shared

/-- The workflow lets the user respond, but the request is assigned to someone else. -/
def withheld (ctx : Ctx) (db : Db) (id : Uuid) (r : DocumentRequest) (action : String) : Bool :=
  assignedElsewhere ctx r && !ctx.hasPermission .requestManage && ctx.hasPermission .requestRespond &&
    (r.status = .opened && action = "submit" || r.status = .returned && action = "resubmit") &&
    (!isBlank r.responseNote || 0 < attachedCount ctx db id)

/-- What stands in the way of a transition. -/
def failedGuards (ctx : Ctx) (db : Db) (id : Uuid) (r : DocumentRequest) (t : Transition RequestStatus) :
    List GuardFailure :=
  if t.guards = [] ∨ isBlank r.responseNote = false ∨ 0 < attachedCount ctx db id then []
  else [⟨"has_attachment_or_response", "Attach at least one document or write a response note"⟩]

/-- The actions that `get` lists. -/
def offers (ctx : Ctx) (db : Db) (id : Uuid) (r : DocumentRequest) : List (AvailableAction RequestStatus) :=
  (requestWorkflow.transitions.filter fun t => t.fromState = r.status).map fun t => offer ctx (failedGuards ctx db id r t) t

theorem requestWorkflow_deterministic : Deterministic requestWorkflow := by decide

theorem requestWorkflow_guards_eq : ∀ t ∈ requestWorkflow.transitions,
    t.guards = [] ∨ t.guards = ["has_attachment_or_response"] := by
  decide

section Runs

variable {ctx : Ctx} {db : Db} {id : Uuid} {r : DocumentRequest}

/-- The guards of a transition are evaluated to what stands in its way. -/
theorem evaluate_run (t : Transition RequestStatus) (ht : t ∈ requestWorkflow.transitions) (comment : Option String) :
    (evaluate guardRegistry requestWorkflow.name ⟨(id, r), ctx, t.action, t.fromState, t.toState, comment⟩
      (t.guards ++ [])).run db = (.ok (failedGuards ctx db id r t), db) := by
  rw [List.append_nil]
  rcases requestWorkflow_guards_eq t ht with hguards | hguards
  · rw [hguards, failedGuards, if_pos (.inl hguards)]
    rfl
  · rw [hguards, failedGuards, hguards]
    have hget : guardRegistry.get requestWorkflow.name "has_attachment_or_response" = some fun g =>
        if !isBlank g.entity.2.responseNote then pure ⟨true, none⟩
        else .read fun db =>
          ⟨0 < attachedCount g.actor db g.entity.1, "Attach at least one document or write a response note"⟩ := rfl
    rw [evaluate, hget]
    dsimp only
    cases hblank : isBlank r.responseNote with
    | false => rfl
    | true =>
      simp only [Bool.not_true, Bool.false_eq_true, if_false, Prog.run_bind, Prog.run_read, evaluate]
      by_cases hattached : 0 < attachedCount ctx db id
      · simp [hattached]
      · simp [hattached]

/-- Determining the scope of the documents succeeds, and only looks. -/
theorem documentScope_run (ctx : Ctx) (db : Db) : ∃ scope, (ObjectAccess.documentScope ctx).run db = (.ok scope, db) := by
  unfold ObjectAccess.documentScope
  rw [Prog.run_ite]
  split
  · exact ⟨_, rfl⟩
  · rw [Prog.run_bind, Prog.run_read]
    dsimp only
    rw [Prog.run_bind, Prog.run_read]
    dsimp only
    split <;> exact ⟨_, rfl⟩

/-- A notification is sent or not; nothing else happens. -/
theorem notify_run (ctx : Ctx) (db : Db) (userId : Option Uuid) (input : NotifyInput) :
    ∃ db', (notify ctx userId input).run db = (.ok (), db') ∧ db'.requests = db.requests := by
  cases userId with
  | none => exact ⟨db, rfl, rfl⟩
  | some u =>
    unfold notify
    rw [Prog.run_bind, Prog.run_read]
    dsimp only
    split <;> exact ⟨_, rfl, rfl⟩

variable (hfind : ctx.findById db.requests id (fun _ => true) = some r) (hscope : ObjectAccess.requestScope ctx r = true)

include hfind hscope

/-- A user of the request passes the check of access. -/
theorem access_run : (ObjectAccess.assertRequest ctx id).run db = (.ok (), db) := by
  obtain ⟨hrow, hsees, -⟩ := Ctx.findById_eq_some.mp hfind
  have hcount : ctx.count db.requests (fun j r => j = id && ObjectAccess.requestScope ctx r) ≠ 0 :=
    Ctx.count_ne_zero_iff.mpr ⟨id, r, hrow, hsees, by simp [hscope]⟩
  unfold ObjectAccess.assertRequest
  rw [Prog.run_bind, Prog.run_read]
  dsimp only
  rw [if_neg hcount]
  rfl

theorem assertRequest_run : (assertRequest ctx id).run db = (.ok r, db) := by
  unfold assertRequest
  rw [Prog.run_bind_of_ok (access_run hfind hscope), Prog.run_bind, Prog.run_read]
  dsimp only
  rw [hfind]
  rfl

/-- A user of the request is shown it, with the offers. -/
theorem get_run : ∃ view, (get ctx id).run db = (.ok (view, offers ctx db id r), db) := by
  obtain ⟨scope, hscoped⟩ := documentScope_run ctx db
  unfold get
  rw [Prog.run_bind_of_ok (access_run hfind hscope), Prog.run_bind_of_ok hscoped, Prog.run_bind, Prog.run_read]
  dsimp only
  rw [hfind]
  refine ⟨detail ctx scope db (id, r), ?_⟩
  have hactions : (workflowAvailableActions guardRegistry requestWorkflow r.status ctx (id, r) fun _ => []).run db =
      (.ok (offers ctx db id r), db) := availableActions_run evaluate_run
  dsimp only [Option.map_some]
  exact Prog.run_bind_of_ok hactions _

/-- A request that the workflow lets pass is moved on. -/
theorem transitionChecked_succeeds (hconstrained : constrained db id r = .ok ()) {dto : TransitionDto}
    (hcomment : isBlank dto.comment.orNull = false) (t : Transition RequestStatus) :
    (transitionChecked ctx id dto r t).Succeeds db := by
  obtain ⟨hrow, hsees, -⟩ := Ctx.findById_eq_some.mp hfind
  have hrefused : ¬(t.action = "return" ∧ isBlank dto.comment.orNull = true) := by
    rintro ⟨-, h⟩
    rw [hcomment] at h
    cases h
  refine Prog.succeeds_guard hrefused ?_
  have hupdate : (updateRequestRow ctx id fun r => .ok (transitioned ctx t dto.comment.orNull r)).run db = (.ok
      (view { db with requests := db.requests.modify (fun j _ => j = id) fun _ => transitioned ctx t dto.comment.orNull r }
        (id, transitioned ctx t dto.comment.orNull r)),
      { db with requests := db.requests.modify (fun j _ => j = id) fun _ => transitioned ctx t dto.comment.orNull r }) := by
    -- the constraints are about columns that a transition leaves
    have hconstrained : constrained db id (transitioned ctx t dto.comment.orNull r) = .ok () := hconstrained
    refine Prog.run_call_ok.mpr ?_
    have hrow : updateRow ctx db.requests id (fun r => .ok (transitioned ctx t dto.comment.orNull r)) =
        .ok (transitioned ctx t dto.comment.orNull r,
          db.requests.modify (fun j _ => j = id) fun _ => transitioned ctx t dto.comment.orNull r) := by
      rw [updateRow, hfind]
    rw [hrow]
    change (constrained db id (transitioned ctx t dto.comment.orNull r) >>= _) = _
    rw [hconstrained]
    rfl
  refine Prog.succeeds_bind hupdate ?_
  refine Prog.succeeds_bind rfl ?_
  obtain ⟨db', hnotify, hrequests⟩ := notify_run ctx { db with
      requests := db.requests.modify (fun j _ => j = id) fun _ => transitioned ctx t dto.comment.orNull r
      auditTrail := ⟨ctx.tenantId, ctx.userId, "request.status_changed", "DocumentRequest", id⟩ :: db.auditTrail }
    (recipient ctx t r) {
      type := "request.status_changed"
      title := s!"Request {r.reference} {r.title}: {t.label.toLower}"
      body := dto.comment.orNull
      link := s!"/requests/{id}" }
  refine Prog.succeeds_bind hnotify ?_
  have hafter : ctx.findById db'.requests id (fun _ => true) = some (transitioned ctx t dto.comment.orNull r) := by
    rw [hrequests]
    refine Ctx.findById_eq_some.mpr ⟨?_, hsees, rfl⟩
    simp [Table.find_modify, hrow]
  obtain ⟨view, hget⟩ := get_run hafter hscope
  exact ⟨_, _, hget⟩

end Runs

section Offered

variable {ctx : Ctx} {db : Db} {id : Uuid} {r : DocumentRequest}

/-- The offers say what the workflow answers. -/
theorem workflow_foretells (action : String) (comment : Option String) :
    Foretells statusText r.status (offers ctx db id r) action
      ((workflowTransition guardRegistry statusText requestWorkflow r.status ⟨(id, r), ctx, action, comment⟩ []).run db).1 :=
  foretells_of_failed evaluate_run statusText requestWorkflow_deterministic action comment fun _ _ => rfl

/-- The workflow only looks. -/
theorem workflow_keeps (action : String) (comment : Option String) :
    ((workflowTransition guardRegistry statusText requestWorkflow r.status ⟨(id, r), ctx, action, comment⟩ []).run db).2 =
      db := by
  cases hfind : findTransition requestWorkflow r.status action with
  | none =>
    rw [workflowTransition]
    dsimp only
    rw [hfind]
    rfl
  | some t =>
    obtain ⟨message, hrun⟩ := transition_run evaluate_run statusText comment hfind
    rw [hrun]

/-- An action is offered if it exists, the user holds its permission, and nothing stands in its way. -/
theorem offered_iff {action : String} : (∃ o ∈ offers ctx db id r, o.action = action ∧ o.allowed) ↔
    ∃ t, findTransition requestWorkflow r.status action = some t ∧ ctx.hasPermission t.permission = true ∧
      failedGuards ctx db id r t = [] := by
  rw [(workflow_foretells action none).allowed]
  cases hfind : findTransition requestWorkflow r.status action with
  | none =>
    rw [workflowTransition]
    dsimp only
    rw [hfind]
    refine iff_of_false ?_ ?_
    · rintro ⟨_, h⟩
      cases h
    · rintro ⟨_, h, -⟩
      cases h
  | some t =>
    obtain ⟨message, hrun⟩ := transition_run evaluate_run statusText none hfind
    rw [hrun]
    simp only [Option.some.injEq, exists_eq_left', Ctx.hasPermission, decide_eq_true_eq]
    by_cases hpermission : t.permission ∈ ctx.permissions
    · by_cases hfailed : failedGuards ctx db id r t = [] <;> simp [hpermission, hfailed]
    · simp [hpermission]

/-- The responses of others are withheld exactly if they are offered. -/
theorem withheld_iff {action : String} (hresponds : (r.status = .opened ∨ r.status = .returned) ∧ responds action = true ∧
      assignedElsewhere ctx r = true ∧ (!ctx.hasPermission .requestManage) = true) :
    withheld ctx db id r action = true ↔ ∃ o ∈ offers ctx db id r, o.action = action ∧ o.allowed := by
  obtain ⟨hstatus, hresponds, helsewhere, hmanage⟩ := hresponds
  rw [offered_iff]
  simp only [withheld, helsewhere, hmanage, Bool.true_and, Bool.and_eq_true, Bool.or_eq_true, decide_eq_true_eq,
    Bool.not_eq_true']
  simp only [responds, Bool.or_eq_true, decide_eq_true_eq] at hresponds
  have hguarded (t : Transition RequestStatus) (hguards : t.guards ≠ []) : failedGuards ctx db id r t = [] ↔
      isBlank r.responseNote = false ∨ 0 < attachedCount ctx db id := by
    by_cases hresponse : isBlank r.responseNote = false ∨ 0 < attachedCount ctx db id
    · simp only [failedGuards, hresponse, or_true, if_true]
    · simp [failedGuards, hguards, hresponse]
  rcases hstatus with hstatus | hstatus <;> rcases hresponds with rfl | rfl
  · have hfind : findTransition requestWorkflow .opened "submit" = some RequestWorkflow.submit := by decide
    simp [hstatus, hfind, hguarded, RequestWorkflow.submit]
  · have hfind : findTransition requestWorkflow .opened "resubmit" = none := by decide
    simp [hstatus, hfind]
  · have hfind : findTransition requestWorkflow .returned "submit" = none := by decide
    simp [hstatus, hfind]
  · have hfind : findTransition requestWorkflow .returned "resubmit" = some RequestWorkflow.resubmit := by decide
    simp [hstatus, hfind, hguarded, RequestWorkflow.resubmit]

/-- **Requests offer what they accept**: an action is offered exactly if the transition succeeds,
unless it is the response to a request that is assigned to someone else. -/
theorem transition_offered_iff (hfind : ctx.findById db.requests id (fun _ => true) = some r)
    (hscope : ObjectAccess.requestScope ctx r = true) (hconstrained : constrained db id r = .ok ())
    (action comment : String) (hcomment : isBlank (some comment) = false) :
    ∃ view actions, (get ctx id).run db = (.ok (view, actions), db) ∧
      (((∃ o ∈ actions, o.action = action ∧ o.allowed) ↔
          (transition ctx id { action, comment := some (some comment) }).Succeeds db) ↔
        withheld ctx db id r action = false) := by
  obtain ⟨view, hget⟩ := get_run hfind hscope
  refine ⟨view, offers ctx db id r, hget, ?_⟩
  have hassert := assertRequest_run hfind hscope
  by_cases hresponds : (r.status = .opened ∨ r.status = .returned) ∧ responds action = true ∧
      assignedElsewhere ctx r = true ∧ (!ctx.hasPermission .requestManage) = true
  · have hrefused : ¬(transition ctx id { action, comment := some (some comment) }).Succeeds db := by
      rintro ⟨a, s', hrun⟩
      unfold transition at hrun
      rw [Prog.run_bind_of_ok hassert, if_pos hresponds] at hrun
      cases hrun
    rw [← withheld_iff hresponds, ← Bool.not_eq_true, iff_false_right hrefused]
  · have hkept : withheld ctx db id r action = false := by
      by_contra hwithheld
      simp only [withheld, Bool.not_eq_false, Bool.and_eq_true, Bool.or_eq_true, decide_eq_true_eq] at hwithheld
      obtain ⟨⟨⟨⟨helsewhere, hmanage⟩, -⟩, haction⟩, -⟩ := hwithheld
      refine hresponds ⟨haction.imp And.left And.left, ?_, helsewhere, hmanage⟩
      rcases haction with ⟨-, rfl⟩ | ⟨-, rfl⟩ <;> rfl
    refine iff_of_true ?_ hkept
    rw [(workflow_foretells action (some comment)).allowed]
    have hkeeps : ((workflowTransition guardRegistry statusText requestWorkflow r.status
        ⟨(id, r), ctx, action, some comment⟩ []).run db).2 = db := workflow_keeps action (some comment)
    generalize hworkflow : (workflowTransition guardRegistry statusText requestWorkflow r.status
      ⟨(id, r), ctx, action, some comment⟩ []).run db = outcome at hkeeps
    obtain ⟨outcome, db'⟩ := outcome
    dsimp only at hkeeps
    subst hkeeps
    constructor
    · rintro ⟨t, rfl⟩
      refine Prog.succeeds_bind hassert (Prog.succeeds_guard hresponds (Prog.succeeds_bind hworkflow ?_))
      refine transitionChecked_succeeds hfind hscope hconstrained ?_ t
      exact hcomment
    · rintro ⟨a, s', hrun⟩
      unfold transition at hrun
      rw [Prog.run_bind_of_ok hassert, if_neg hresponds] at hrun
      obtain ⟨t, s₁, ht, -⟩ := Prog.run_bind_ok.mp hrun
      exact ⟨t, congrArg Prod.fst (hworkflow.symm.trans ht)⟩

end Offered

/-- On the desk, whoever manages requests is offered what is accepted. -/
theorem transition_offered_iff_desk :
    ∃ view actions, (get (Responses.clerk 600) 20).run Responses.desk.db = (.ok (view, actions), Responses.desk.db) ∧
      (((∃ o ∈ actions, o.action = "cancel" ∧ o.allowed) ↔
          (transition (Responses.clerk 600) 20 { action := "cancel", comment := some (some "Settled") }).Succeeds
            Responses.desk.db) ↔
        withheld (Responses.clerk 600) Responses.desk.db 20 (Responses.asked "DR-01" "Contract") "cancel" = false) :=
  transition_offered_iff (by decide) (by decide) (by decide) "cancel" "Settled" (by decide)

/-- A user who may respond to requests. -/
def respondent (userId k : Uuid) : Ctx := { Workpapers.actor userId k with
  permissions := [.requestRead, .requestRespond] }

/-- The contract has a note, and user 2 is to answer. -/
def assigned : DocumentRequest := { Responses.asked "DR-01" "Contract" with
  assigneeId := some 2
  responseNote := some "There is none" }

/-- The desk with the request of user 2. -/
def assignedDesk : Db := { Responses.desk.db with requests := ⟨[(20, assigned)], by decide⟩ }

/-- User 1 is offered to submit the response of user 2, and is refused. -/
theorem submit_offered_refused :
    (∃ view actions, (get (respondent 1 600) 20).run assignedDesk = (.ok (view, actions), assignedDesk) ∧
      ∃ o ∈ actions, o.action = "submit" ∧ o.allowed) ∧
    (transition (respondent 1 600) 20 { action := "submit", comment := some (some "Here") }).run assignedDesk =
      (.error (.forbidden "This request is assigned to someone else"), assignedDesk) := by
  have hfind : (respondent 1 600).findById assignedDesk.requests 20 (fun _ => true) = some assigned := by decide
  have hscope : ObjectAccess.requestScope (respondent 1 600) assigned = true := by decide
  obtain ⟨view, hget⟩ := get_run hfind hscope
  refine ⟨⟨view, _, hget, offered_iff.mpr ⟨RequestWorkflow.submit, by decide, by decide, by decide +kernel⟩⟩, ?_⟩
  unfold transition
  rw [Prog.run_bind_of_ok (assertRequest_run hfind hscope), if_pos (by decide)]
  rfl

end AuditSphere.Requests
