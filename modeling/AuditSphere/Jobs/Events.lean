import AuditSphere.Jobs.Daily
import AuditSphere.Theory.Marks

/-!
# Reminders among other operations

Runs of the job at times that do not decrease, with operations on findings and on requests
in between (`Event`). A run marks what it reminds about with its own time, and no operation
touches the mark (`finding_marking`, `request_marking`): an item is reminded about once a day
at most, however its due date moves.
-/

namespace AuditSphere.Jobs

open Prisma Theory Shared

/-! ### Events -/

/-- What happens, one after another: the job runs for a tenant, or an operation is performed. -/
inductive Event where
  | run (tenantId : Uuid) (now : Date)
  | finding (o : Findings.Operation)
  | request (o : Requests.Operation)

/-- When the job runs. -/
def Event.time : Event → Option Date
  | .run _ now => some now
  | _ => none

/-- An event. -/
def serve : Event → Method Unit
  | .run tenantId now => do
    let _ ← runForTenant tenantId now
    pure ()
  | .finding o => do
    let _ ← onDb (Findings.perform o)
    pure ()
  | .request o => do
    let _ ← onDb (Requests.perform o)
    pure ()

theorem run_unit {α : Type} (p : Method α) (s : Agenda) : ((p >>= fun _ => pure ()).run s).2 = (p.run s).2 := by
  rw [Prog.run_bind]
  rcases p.run s with ⟨e | a, s'⟩ <;> rfl

theorem after_finding (s : Agenda) (o : Findings.Operation) :
    after serve s (.finding o) = { s with db := after Findings.perform s.db o } := by
  unfold after serve
  rw [run_unit, onDb_run]

theorem after_request (s : Agenda) (o : Requests.Operation) :
    after serve s (.request o) = { s with db := after Requests.perform s.db o } := by
  unfold after serve
  rw [run_unit, onDb_run]

theorem after_run (s : Agenda) (tenantId : Uuid) (now : Date) : ∃ alerts notices,
    (∀ x ∈ alerts, x.type = "milestone.overdue") ∧
      after serve s (.run tenantId now) = alerted alerts notices { s with db := remindedDb (systemCtx tenantId now) s } := by
  obtain ⟨alerts, notices, n, htypes, hrun⟩ := runForTenant_run tenantId now s
  refine ⟨alerts, notices, htypes, ?_⟩
  unfold after serve
  rw [run_unit, hrun]

/-! ### Marks -/

/-- What a finding bears. -/
def markOfFinding (f : Option Finding) : Mark Date := f.elim ⟨none, 0⟩ fun f => ⟨f.lastReminderAt, f.reminderCount⟩

/-- What a request bears. -/
def markOfRequest (r : Option DocumentRequest) : Mark Date := r.elim ⟨none, 0⟩ fun r => ⟨r.lastReminderAt, r.reminderCount⟩

def findingMark (i : Uuid) (s : Agenda) : Mark Date := markOfFinding (s.db.findings.find i)

def requestMark (i : Uuid) (s : Agenda) : Mark Date := markOfRequest (s.db.requests.find i)

/-- What a run of the job adds to a count. -/
def addedBy (count : Agenda → ℕ) (s : Agenda) : Event → ℕ
  | .run tenantId now => count (after serve s (.run tenantId now)) - count s
  | _ => 0

/-! ### A run -/

section Run

variable (s : Agenda) (tenantId : Uuid) (now : Date) (i : Uuid)

theorem find_finding_run : (after serve s (.run tenantId now)).db.findings.find i =
    (s.db.findings.find i).map fun f =>
      if findingDue (systemCtx tenantId now) f then remindedFinding (systemCtx tenantId now) f else f := by
  obtain ⟨alerts, notices, -, hafter⟩ := after_run s tenantId now
  rw [hafter]
  exact Table.find_modify _ _ _ i

theorem find_request_run : (after serve s (.run tenantId now)).db.requests.find i =
    (s.db.requests.find i).map fun r =>
      if requestDue (systemCtx tenantId now) r then markRequest (systemCtx tenantId now) r else r := by
  obtain ⟨alerts, notices, -, hafter⟩ := after_run s tenantId now
  rw [hafter]
  exact Table.find_modify _ _ _ i

theorem remindableFindings_nodup (ctx : Ctx) (db : Db) : ((remindableFindings ctx db).map fun x => x.1.1).Nodup :=
  selected_nodup remindable (fun f => related db.engagements (some f.engagementId)) rfl

theorem remindableRequests_nodup (ctx : Ctx) (db : Db) : ((remindableRequests ctx db).map fun x => x.1.1).Nodup :=
  selected_nodup unanswered (fun r => related db.engagements (some r.engagementId)) rfl

/-- The audit trail after a run. -/
theorem auditTrail_run : (after serve s (.run tenantId now)).db.auditTrail =
    ((findingReminders (systemCtx tenantId now) s ++ requestReminders (systemCtx tenantId now) s).map
      (Reminder.entry (systemCtx tenantId now))).reverse ++ s.db.auditTrail := by
  obtain ⟨alerts, notices, -, hafter⟩ := after_run s tenantId now
  rw [hafter]
  rfl

/-- The notifications after a run. -/
theorem notifications_run : ∃ alerts : List Notification, (∀ x ∈ alerts, x.type = "milestone.overdue") ∧
    (after serve s (.run tenantId now)).db.notifications = alerts ++
      (((findingReminders (systemCtx tenantId now) s ++ requestReminders (systemCtx tenantId now) s).flatMap
        (Reminder.delivered (systemCtx tenantId now) s.db)).reverse ++ s.db.notifications) := by
  obtain ⟨alerts, notices, htypes, hafter⟩ := after_run s tenantId now
  refine ⟨alerts, htypes, ?_⟩
  have hdelivered : Reminder.delivered (systemCtx tenantId now) { s.db with
      findings := s.db.findings.modify (fun _ f => findingDue (systemCtx tenantId now) f) (remindedFinding (systemCtx tenantId now))
      requests := s.db.requests.modify (fun _ r => requestDue (systemCtx tenantId now) r) (markRequest (systemCtx tenantId now)) } =
        Reminder.delivered (systemCtx tenantId now) s.db := delivered_congr rfl
  rw [hafter, ← hdelivered]
  rfl

/-- **A run and the audit trail**: it records one reminder of each finding that is due. -/
theorem findingReminded_run : findingReminded i (after serve s (.run tenantId now)) =
    (if (s.db.findings.find i).any (findingDue (systemCtx tenantId now)) then 1 else 0) + findingReminded i s := by
  rw [← findingReminderOf_isSome, findingReminded, auditTrail_run, List.countP_append, List.countP_reverse,
    List.map_append, List.countP_append, findingReminders, countP_entries (remindableFindings_nodup _ _) _ i ?_,
    List.countP_eq_zero.mpr ?_, Nat.add_zero]
  · rfl
  · intro e he
    obtain ⟨r, hr, rfl⟩ := List.mem_map.mp he
    obtain ⟨j, hj⟩ := about_requestReminders hr
    simp [Reminder.entry, hj.1]
  · intro x _ r hr
    obtain ⟨htype, hid, haction, -⟩ := findingReminder_about hr
    rcases haction with haction | haction <;> simp [Reminder.entry, htype, hid, haction]

/-- The same for requests. -/
theorem requestReminded_run : requestReminded i (after serve s (.run tenantId now)) =
    (if (s.db.requests.find i).any (requestDue (systemCtx tenantId now)) then 1 else 0) + requestReminded i s := by
  rw [← requestReminderOf_isSome, requestReminded, auditTrail_run, List.countP_append, List.countP_reverse,
    List.map_append, List.countP_append, requestReminders, countP_entries (remindableRequests_nodup _ _) _ i ?_,
    List.countP_eq_zero.mpr ?_, Nat.zero_add]
  · rfl
  · intro e he
    obtain ⟨r, hr, rfl⟩ := List.mem_map.mp he
    obtain ⟨j, hj⟩ := about_findingReminders hr
    simp [Reminder.entry, hj.1]
  · intro x _ r hr
    obtain ⟨htype, hid, haction, -⟩ := requestReminder_about hr
    simp [Reminder.entry, htype, hid, haction]

/-- **A run and the recipients**: each recipient of a reminder of the finding is sent one. -/
theorem findingNotices_run (u : Uuid) : findingNotices u i (after serve s (.run tenantId now)) =
    (if (findingReminderOf (systemCtx tenantId now) s i).any (fun r =>
      some u ∈ r.recipients ∧ notifiable (systemCtx tenantId now) s.db u = true) then 1 else 0) + findingNotices u i s := by
  obtain ⟨alerts, htypes, hafter⟩ := notifications_run s tenantId now
  rw [findingNotices, hafter, List.countP_append, List.countP_append, List.countP_reverse, List.flatMap_append,
    List.countP_append, findingReminders, countP_delivered (remindableFindings_nodup _ _) s.db _ i u ?_,
    List.countP_eq_zero.mpr ?_, List.countP_eq_zero.mpr ?_, Nat.zero_add, Nat.add_zero]
  · rfl
  · intro n hn
    obtain ⟨r, hr, hn⟩ := List.mem_flatMap.mp hn
    obtain ⟨j, -, -, -, -, htype⟩ := about_requestReminders hr
    rw [← (delivered_input hn).2] at htype
    rcases htype with htype | htype <;> simp [htype]
  · intro n hn
    simp [htypes n hn]
  · intro x _ r hr n hn
    obtain ⟨-, -, -, hlink, htype⟩ := findingReminder_about hr
    obtain ⟨hnlink, hntype⟩ := delivered_input hn
    rw [hlink] at hnlink
    rw [← hntype] at htype
    have hsame : (some s!"/findings/{x.1.1}" = some s!"/findings/{i}") ↔ x.1.1 = i :=
      ⟨fun h => findingLink_injective (Option.some.inj h), fun h => by rw [h]⟩
    rcases htype with htype | htype <;>
      simp only [hnlink, hsame, htype, decide_true, Bool.or_true, Bool.true_or, Bool.and_true]

/-- The same for requests. -/
theorem requestNotices_run (u : Uuid) : requestNotices u i (after serve s (.run tenantId now)) =
    (if (requestReminderOf (systemCtx tenantId now) s i).any (fun r =>
      some u ∈ r.recipients ∧ notifiable (systemCtx tenantId now) s.db u = true) then 1 else 0) + requestNotices u i s := by
  obtain ⟨alerts, htypes, hafter⟩ := notifications_run s tenantId now
  rw [requestNotices, hafter, List.countP_append, List.countP_append, List.countP_reverse, List.flatMap_append,
    List.countP_append, requestReminders, countP_delivered (remindableRequests_nodup _ _) s.db _ i u ?_,
    List.countP_eq_zero.mpr ?_, List.countP_eq_zero.mpr ?_, Nat.zero_add, Nat.zero_add]
  · rfl
  · intro n hn
    obtain ⟨r, hr, hn⟩ := List.mem_flatMap.mp hn
    obtain ⟨j, -, -, -, -, htype⟩ := about_findingReminders hr
    rw [← (delivered_input hn).2] at htype
    rcases htype with htype | htype <;> simp [htype]
  · intro n hn
    simp [htypes n hn]
  · intro x _ r hr n hn
    obtain ⟨-, -, -, hlink, htype⟩ := requestReminder_about hr
    obtain ⟨hnlink, hntype⟩ := delivered_input hn
    rw [hlink] at hnlink
    rw [← hntype] at htype
    have hsame : (some s!"/requests/{x.1.1}" = some s!"/requests/{i}") ↔ x.1.1 = i :=
      ⟨fun h => requestLink_injective (Option.some.inj h), fun h => by rw [h]⟩
    rcases htype with htype | htype <;>
      simp only [hnlink, hsame, htype, decide_true, Bool.or_true, Bool.true_or, Bool.and_true]

end Run

/-! ### An operation -/

/-- An operation on findings leaves the requests. -/
theorem requests_finding (s : Db) (o : Findings.Operation) : (after Findings.perform s o).requests = s.requests := by
  rcases Findings.perform_effect s o with ⟨-, hquiet⟩ | ⟨-, s₂, hcommitted, hquiet⟩
  · obtain ⟨_, _, heq⟩ := hquiet.eq
    rw [heq]
  · obtain ⟨_, _, heq⟩ := hquiet.eq
    rw [heq]
    cases hcommitted with
    | edit h =>
      cases h with
      | create h => rw [h.rest]
      | update h => rw [h.rest]
    | transition h => rw [h.rest]
    | extend h => rw [h.rest]
    | addRecommendation h => rw [h.rest]
    | updateRecommendation h => rw [h.rest]

/-- An operation on requests leaves the findings. -/
theorem findings_request (s : Db) (o : Requests.Operation) : (after Requests.perform s o).findings = s.findings := by
  refine (Requests.perform_meets Interference.of_quiet o s).run_keeps (I := fun b => b.findings = s.findings) Quiet.refl
    (fun a b ha hcall => ?_) rfl
  rw [← ha]
  cases hcall with
  | quiet h =>
    obtain ⟨_, _, rfl⟩ := h.eq
    rfl
  | create h => rw [h.rest]
  | update h => rw [h.rest]
  | transition h => rw [h.rest]
  | connect h => rw [h.rest]
  | own h => rw [h.rest]

/-- An operation on findings leaves what a finding bears, and its level unless it is extended. -/
theorem markOfFinding_perform (s : Db) (o : Findings.Operation) (i : Uuid) :
    markOfFinding ((after Findings.perform s o).findings.find i) = markOfFinding (s.findings.find i) := by
  have hrow := Findings.perform_row s o i
  generalize (after Findings.perform s o).findings.find i = row at hrow
  cases hrow with
  | kept => rfl
  | created _ _ _ fresh =>
    rw [fresh]
    rfl
  | edited f f' _ hfound _ change =>
    obtain ⟨hfind, -⟩ := Findings.found_eq_some.mp hfound
    rw [hfind]
    unfold Findings.UpdateFindingDto.apply at change
    split at change
    · cases change
      rfl
    · cases change
  | moved t f _ hfound =>
    obtain ⟨hfind, -⟩ := Findings.found_eq_some.mp hfound
    rw [hfind]
    unfold Findings.transitioned
    dsimp only
    split <;> rfl
  | extended f _ hfound =>
    obtain ⟨hfind, -⟩ := Findings.found_eq_some.mp hfound
    rw [hfind]
    rfl

/-- The state after a request for a new request. -/
theorem after_create (s : Db) (ctx : Ctx) (dto : Requests.CreateRequestDto) :
    after Requests.perform s (.create ctx dto) = after Requests.serve s (.create ctx dto) := by
  unfold after Requests.perform Requests.serve
  have hpermission : (Requests.Operation.create ctx dto).permissions.any (Requests.Operation.create ctx dto).ctx.hasPermission =
      (Requests.Request.create ctx dto).ctx.hasPermission (Requests.Request.create ctx dto).permission := by
    simp [Requests.Operation.permissions, Requests.Operation.ctx, Requests.Request.ctx, Requests.Request.permission]
  rw [hpermission]
  split
  · rfl
  · rw [Prog.run_bind]
    dsimp only
    rcases (Requests.create ctx dto).run s with ⟨e | a, s'⟩ <;> rfl

/-- An operation on requests leaves what a request bears. -/
theorem markOfRequest_perform (s : Db) (o : Requests.Operation) (i : Uuid) :
    markOfRequest ((after Requests.perform s o).requests.find i) = markOfRequest (s.requests.find i) := by
  by_cases hcreate : ∃ ctx dto, o = .create ctx dto
  · obtain ⟨ctx, dto, rfl⟩ := hcreate
    rw [after_create]
    rcases Requests.create_effect s ctx dto with ⟨-, hsame⟩ | ⟨-, id, r, hrecorded⟩
    · rw [hsame]
    · rw [hrecorded.rows]
      split
      · rename_i hi
        rw [hi, hrecorded.fresh, hrecorded.row]
        rfl
      · rfl
  refine (Requests.perform_meets Interference.of_quiet o s).run_keeps
    (I := fun b => markOfRequest (b.requests.find i) = markOfRequest (s.requests.find i)) Quiet.refl
    (fun a b ha hcall => ?_) rfl
  rw [← ha]
  cases hcall with
  | quiet h =>
    obtain ⟨_, _, rfl⟩ := h.eq
    rfl
  | create => exact absurd ⟨_, _, rfl⟩ hcreate
  | update h =>
    rw [h.rows]
    split
    · rename_i hi
      have change := h.change
      rw [hi, h.row]
      unfold Requests.UpdateRequestDto.apply at change
      split at change
      · cases change
      · cases change
        rfl
    · rfl
  | transition h =>
    rw [h.rows]
    split
    · rename_i hi
      rw [hi, h.row]
      rfl
    · rfl
  | connect h =>
    rw [h.rows]
    split
    · rename_i hi
      rw [hi, h.row]
      rfl
    · rfl
  | own h => rw [h.rest]

/-! ### Marking -/

theorem remindedToday_eq_false {last : Option Date} {now : Date} (h : remindedToday last now = false) :
    ∀ t ∈ last, startOfUtcDay t ≠ startOfUtcDay now := by
  intro t ht heq
  rw [Option.mem_def.mp ht, remindedToday, Option.any_some, decide_eq_false_iff_not] at h
  exact h heq

/-- **Findings are marked**: a run serves a finding once, on a day on which it was not reminded about. -/
theorem finding_marking (i : Uuid) :
    Marking serve (findingMark i) Event.time (addedBy (findingReminded i)) startOfUtcDay := by
  rintro s (⟨tenantId, now⟩ | o | o)
  · rw [findingMark, find_finding_run, addedBy, findingReminded_run, Nat.add_sub_cancel, findingMark]
    cases hrow : s.db.findings.find i with
    | none => exact .inl ⟨rfl, rfl⟩
    | some f =>
      rw [Option.any_some, Option.map_some]
      cases hdue : findingDue (systemCtx tenantId now) f with
      | false => exact .inl ⟨rfl, rfl⟩
      | true =>
        refine .inr ⟨now, rfl, rfl, ?_, rfl⟩
        rw [findingDue_eq, Bool.and_eq_true, Option.any_eq_true] at hdue
        obtain ⟨-, d, hd, hremind⟩ := hdue
        obtain ⟨due, -, rfl⟩ := Option.map_eq_some_iff.mp hd
        exact remindedToday_eq_false (not_remindedToday_of_remind hremind)
  · refine .inl ⟨rfl, ?_⟩
    rw [findingMark, after_finding, findingMark]
    exact markOfFinding_perform s.db o i
  · refine .inl ⟨rfl, ?_⟩
    rw [findingMark, after_request, findingMark]
    exact congrArg (fun t => markOfFinding (t.find i)) (findings_request s.db o)

/-- **Requests are marked** in the same way. -/
theorem request_marking (i : Uuid) :
    Marking serve (requestMark i) Event.time (addedBy (requestReminded i)) startOfUtcDay := by
  rintro s (⟨tenantId, now⟩ | o | o)
  · rw [requestMark, find_request_run, addedBy, requestReminded_run, Nat.add_sub_cancel, requestMark]
    cases hrow : s.db.requests.find i with
    | none => exact .inl ⟨rfl, rfl⟩
    | some r =>
      rw [Option.any_some, Option.map_some]
      cases hdue : requestDue (systemCtx tenantId now) r with
      | false => exact .inl ⟨rfl, rfl⟩
      | true =>
        refine .inr ⟨now, rfl, rfl, ?_, rfl⟩
        rw [requestDue, Bool.and_eq_true] at hdue
        exact remindedToday_eq_false (not_remindedToday_of_remind hdue.2)
  · refine .inl ⟨rfl, ?_⟩
    rw [requestMark, after_finding, requestMark]
    exact congrArg (fun t => markOfRequest (t.find i)) (requests_finding s.db o)
  · refine .inl ⟨rfl, ?_⟩
    rw [requestMark, after_request, requestMark]
    exact markOfRequest_perform s.db o i

/-! ### What an event does -/

/-- Only an extension takes a finding back from its level. -/
theorem level_le (s : Agenda) (e : Event) {i : Uuid} {f : Finding} (hrow : s.db.findings.find i = some f)
    (hextend : ∀ ctx dto, e ≠ .finding (.extend ctx i dto)) :
    ∃ f', (after serve s e).db.findings.find i = some f' ∧ f.escalationLevel ≤ f'.escalationLevel := by
  rcases e with ⟨tenantId, now⟩ | o | o
  · rw [find_finding_run, hrow, Option.map_some]
    refine ⟨_, rfl, ?_⟩
    split
    · exact le_max_left _ _
    · exact le_rfl
  · rw [after_finding]
    have hstep := Findings.perform_row s.db o i
    show ∃ f', (after Findings.perform s.db o).findings.find i = some f' ∧ _
    generalize (after Findings.perform s.db o).findings.find i = row at hstep
    cases hstep with
    | kept => exact ⟨f, hrow, le_rfl⟩
    | created _ _ _ fresh =>
      rw [hrow] at fresh
      cases fresh
    | edited f₀ f' _ hfound _ change =>
      obtain ⟨hfind, -⟩ := Findings.found_eq_some.mp hfound
      rw [hrow, Option.some.injEq] at hfind
      subst hfind
      refine ⟨f', rfl, ?_⟩
      unfold Findings.UpdateFindingDto.apply at change
      split at change
      · cases change
        exact le_rfl
      · cases change
    | moved t f₀ _ hfound =>
      obtain ⟨hfind, -⟩ := Findings.found_eq_some.mp hfound
      rw [hrow, Option.some.injEq] at hfind
      subst hfind
      refine ⟨_, rfl, ?_⟩
      unfold Findings.transitioned
      dsimp only
      split <;> exact le_rfl
    | extended => exact absurd rfl (hextend _ _)
  · rw [after_request]
    exact ⟨f, (congrArg (fun t => t.find i) (findings_request s.db o)).trans hrow, le_rfl⟩

/-- After its reminder, a finding is not due again at that moment. -/
theorem not_due_again (ctx : Ctx) (f : Finding) :
    findingDue ctx (if findingDue ctx f then remindedFinding ctx f else f) = false := by
  cases hdue : findingDue ctx f with
  | false => exact hdue
  | true =>
    rw [if_pos rfl, findingDue_eq]
    have hdecision : (findingDecision ctx (remindedFinding ctx f)).any ReminderDecision.remind = false := by
      have hdate : (remindedFinding ctx f).dueDate = f.dueDate := rfl
      have hlast : (remindedFinding ctx f).lastReminderAt = some ctx.now := rfl
      rw [findingDecision, hdate, hlast]
      cases f.dueDate with
      | none => rfl
      | some due => rw [Option.map_some, Option.any_some, not_remind_again]
    rw [hdecision, Bool.and_false]

theorem request_not_due_again (ctx : Ctx) (r : DocumentRequest) :
    requestDue ctx (if requestDue ctx r then markRequest ctx r else r) = false := by
  cases hdue : requestDue ctx r with
  | false => exact hdue
  | true =>
    rw [if_pos rfl, requestDue]
    have hlast : (markRequest ctx r).lastReminderAt = some ctx.now := rfl
    rw [hlast, not_remind_again, Bool.and_false]

/-- After a run there is nothing left to remind of at that moment. -/
theorem reminders_again (s : Agenda) (tenantId : Uuid) (now : Date) :
    findingReminders (systemCtx tenantId now) (after serve s (.run tenantId now)) = [] ∧
      requestReminders (systemCtx tenantId now) (after serve s (.run tenantId now)) = [] := by
  constructor
  · refine List.filterMap_eq_nil_iff.mpr fun x hx => ?_
    obtain ⟨y, hrow, rfl⟩ := List.mem_map.mp hx
    obtain ⟨hfind, hselected⟩ := (Table.mem_rows_iff _ (fun _ f => (systemCtx tenantId now).sees f && remindable f) y.1 y.2).mp hrow
    rw [find_finding_run] at hfind
    obtain ⟨f, -, hf⟩ := Option.map_eq_some_iff.mp hfind
    have hdue := not_due_again (systemCtx tenantId now) f
    rw [hf, findingDue_eq, hselected, Bool.true_and] at hdue
    rw [← Option.not_isSome_iff_eq_none, findingReminder_isSome, hdue]
    decide
  · refine List.filterMap_eq_nil_iff.mpr fun x hx => ?_
    obtain ⟨y, hrow, rfl⟩ := List.mem_map.mp hx
    obtain ⟨hfind, hselected⟩ := (Table.mem_rows_iff _ (fun _ r => (systemCtx tenantId now).sees r && unanswered r) y.1 y.2).mp hrow
    rw [find_request_run] at hfind
    obtain ⟨r, -, hr⟩ := Option.map_eq_some_iff.mp hfind
    have hdue := request_not_due_again (systemCtx tenantId now) r
    unfold unanswered at hselected
    rw [hr, requestDue, hselected, Bool.true_and] at hdue
    rw [← Option.not_isSome_iff_eq_none, requestReminder, requestReminderIf_isSome, hdue]
    decide

/-- An event is in order: a run tells each recipient of a reminder once and nobody else, it would find nothing to
remind of if it were repeated at once, and no event but an extension takes a finding back from its level. -/
structure Orderly (s : Agenda) (e : Event) : Prop where
  findingTold : ∀ tenantId now, e = .run tenantId now → ∀ i u, findingNotices u i (after serve s e) =
    (if (findingReminderOf (systemCtx tenantId now) s i).any (fun r =>
      some u ∈ r.recipients ∧ notifiable (systemCtx tenantId now) s.db u = true) then 1 else 0) + findingNotices u i s
  requestTold : ∀ tenantId now, e = .run tenantId now → ∀ i u, requestNotices u i (after serve s e) =
    (if (requestReminderOf (systemCtx tenantId now) s i).any (fun r =>
      some u ∈ r.recipients ∧ notifiable (systemCtx tenantId now) s.db u = true) then 1 else 0) + requestNotices u i s
  again : ∀ tenantId now, e = .run tenantId now →
    ∃ milestoneAlerts, ((runForTenant tenantId now).run (after serve s e)).1 = .ok ⟨0, 0, milestoneAlerts⟩
  level : ∀ i f, s.db.findings.find i = some f → (∀ ctx dto, e ≠ .finding (.extend ctx i dto)) →
    ∃ f', (after serve s e).db.findings.find i = some f' ∧ f.escalationLevel ≤ f'.escalationLevel

theorem orderly (s : Agenda) (e : Event) : Orderly s e where
  findingTold := by
    rintro tenantId now rfl i u
    exact findingNotices_run s tenantId now i u
  requestTold := by
    rintro tenantId now rfl i u
    exact requestNotices_run s tenantId now i u
  again := by
    rintro tenantId now rfl
    obtain ⟨_, _, n, -, hrun⟩ := runForTenant_run tenantId now (after serve s (.run tenantId now))
    obtain ⟨hfindings, hrequests⟩ := reminders_again s tenantId now
    rw [hrun, hfindings, hrequests]
    exact ⟨n, rfl⟩
  level i f hrow hextend := level_le s e hrow hextend

/-! ### Histories -/

/-- The times of the runs that reminded of a finding, the last one first. -/
def findingTimes (i : Uuid) (s₀ : Agenda) (events : List Event) : List Date :=
  served serve Event.time (addedBy (findingReminded i)) s₀ events

/-- The times of the runs that reminded of a request, the last one first. -/
def requestTimes (i : Uuid) (s₀ : Agenda) (events : List Event) : List Date :=
  served serve Event.time (addedBy (requestReminded i)) s₀ events

/-- A history of reminders: those of an item are sent on different days, and the item counts them. -/
structure OnceADay (s₀ : Agenda) (events : List Event) : Prop where
  findingDays : ∀ i, ((findingTimes i s₀ events).map startOfUtcDay).Pairwise (· > ·)
  requestDays : ∀ i, ((requestTimes i s₀ events).map startOfUtcDay).Pairwise (· > ·)
  findingCount : ∀ i,
    (findingMark i (history serve s₀ events)).count = (findingMark i s₀).count + (findingTimes i s₀ events).length
  requestCount : ∀ i,
    (requestMark i (history serve s₀ events)).count = (requestMark i s₀).count + (requestTimes i s₀ events).length
  orderly : Always serve Orderly s₀ events

/-- The job never runs at an earlier time than before. -/
def Chronological (events : List Event) : Prop := (events.filterMap Event.time).Pairwise (· ≥ ·)

instance (events : List Event) : Decidable (Chronological events) :=
  inferInstanceAs (Decidable (List.Pairwise _ _))

theorem startOfUtcDay_mono : Monotone startOfUtcDay :=
  fun _ _ h => Nat.mul_le_mul_right _ (Nat.div_le_div_right h)

/-- **At most one reminder a day**, whatever happens to the items between the runs. -/
theorem once_a_day (s₀ : Agenda) (events : List Event) (hclock : Chronological events) : OnceADay s₀ events where
  findingDays i := (finding_marking i).periods_increase startOfUtcDay_mono s₀ hclock
  requestDays i := (request_marking i).periods_increase startOfUtcDay_mono s₀ hclock
  findingCount i := congrArg Mark.count ((finding_marking i).mark_history s₀ events)
  requestCount i := congrArg Mark.count ((request_marking i).mark_history s₀ events)
  orderly := by
    clear hclock
    induction events with
    | nil => trivial
    | cons e past ih => exact ⟨orderly _ e, ih⟩

/-- The office, without milestones. -/
def agenda : Agenda where
  db := Workpapers.office
  roles _ := []
  milestones := .empty
  milestoneNotices := []
  clock := 0

/-- Finding 200 is agreed on and due on the first day. The job runs on that day, and once more after the due date has
been moved to the second day; it runs on the second day, and on the tenth. -/
def overdue : List Event :=
  [.run 1 (9 * 86400000 + 700), .run 1 (86400000 + 800), .run 1 900,
    .finding (Findings.change 1 300 { dueDate := some (some 86400000) }), .run 1 600] ++ Findings.agreed.map .finding

/-- Of the four runs three remind of the finding. -/
theorem once_a_day_overdue : OnceADay agenda overdue ∧
    findingTimes 200 agenda overdue = [9 * 86400000 + 700, 86400000 + 800, 600] ∧
      (findingMark 200 (history serve agenda overdue)).count = 3 :=
  ⟨once_a_day agenda overdue (by decide), by decide +kernel, by decide +kernel⟩

end AuditSphere.Jobs
