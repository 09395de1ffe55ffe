import AuditSphere.Findings.History
import AuditSphere.Jobs.Runs
import AuditSphere.Requests.Calls
import AuditSphere.Requests.Numbering
import AuditSphere.Theory.Lists

/-!
# At most one reminder a day

A run marks what it reminds about with its own time, and no request of the services touches
the mark: so an item is reminded about once a day at most, however its due date moves. The
lemmas here are about one run, on findings and on requests alike.
-/

namespace AuditSphere.Jobs

open Prisma Theory Shared

/-! ### Decisions -/

/-- Nobody is reminded about what was reminded about today. -/
theorem not_remindedToday_of_remind {due now : Date} {last : Option Date} (h : (reminderDecision due last now).remind = true) :
    remindedToday last now = false := by
  rw [reminderDecision] at h
  split at h
  · exact (by simpa using h : _ ∧ _).2
  · exact (by simpa using h : _ ∧ _).2

theorem not_remind_again (due now : Date) : (reminderDecision due (some now) now).remind = false := by
  rw [← Bool.not_eq_true]
  intro hremind
  have htoday := not_remindedToday_of_remind hremind
  have hsame : remindedToday (some now) now = true := by
    rw [remindedToday, Option.any_some]
    exact decide_eq_true rfl
  exact Bool.noConfusion (hsame.symm.trans htoday)

/-! ### One item of a run -/

section Item

variable {ρ : Type} (reminder : OnEngagement ρ → Option Reminder)

/-- The reminder of the item with an id. -/
def reminderOf (items : List (OnEngagement ρ)) (i : Uuid) : Option Reminder :=
  (items.find? fun x => x.1.1 = i).bind reminder

/-- What is counted over the reminders of a run, and only those of one item have, that one has. -/
theorem sum_reminders {items : List (OnEngagement ρ)} (hnodup : (items.map fun x => x.1.1).Nodup) (weight : Reminder → ℕ) (i : Uuid)
    (hother : ∀ x ∈ items, ∀ r, reminder x = some r → x.1.1 ≠ i → weight r = 0) :
    ((items.filterMap reminder).map weight).sum = ((reminderOf reminder items i).map weight).getD 0 := by
  induction items with
  | nil => rfl
  | cons x items ih =>
    obtain ⟨hnew, hrest⟩ := List.nodup_cons.mp hnodup
    have ih := ih hrest fun y hy => hother y (List.mem_cons_of_mem x hy)
    by_cases hx : x.1.1 = i
    · -- the others have other ids
      have hnone : ∀ y ∈ items, y.1.1 ≠ i := by
        intro y hy heq
        exact hnew (List.mem_map.mpr ⟨y, hy, heq.trans hx.symm⟩)
      have hzero : ((items.filterMap reminder).map weight).sum = 0 := by
        rw [ih, reminderOf, List.find?_eq_none.mpr (by simpa using hnone)]
        rfl
      rw [reminderOf, List.find?_cons_of_pos (by simpa using hx), Option.bind_some]
      cases hreminder : reminder x with
      | none => rw [List.filterMap_cons_none hreminder, hzero, Option.map_none, Option.getD_none]
      | some r =>
        rw [List.filterMap_cons_some hreminder, List.map_cons, List.sum_cons, hzero, Option.map_some, Option.getD_some,
          Nat.add_zero]
    · have hof : reminderOf reminder (x :: items) i = reminderOf reminder items i := by
        rw [reminderOf, List.find?_cons_of_neg (by simpa using hx), reminderOf]
      rw [hof]
      cases hreminder : reminder x with
      | none => rw [List.filterMap_cons_none hreminder, ih]
      | some r =>
        rw [List.filterMap_cons_some hreminder, List.map_cons, List.sum_cons, ih,
          hother x List.mem_cons_self r hreminder hx, Nat.zero_add]

end Item

section Selected

variable {ctx : Ctx} {ρ : Type} [TenantRow ρ] {t : Table Uuid ρ} (p : ρ → Bool) (g : ρ → Option (WithId Engagement))
  {items : List (OnEngagement ρ)} (hitems : items = (ctx.findMany t fun _ r => p r).map fun x => (x, g x.2))

include hitems

/-- The item with an id is the row, if it is selected. -/
theorem find?_selected (i : Uuid) : (items.find? fun x => x.1.1 = i) =
    ((t.find i).filter fun r => ctx.sees r && p r).map fun r => ((i, r), g r) := by
  have hfirst : (t.rows fun _ r => ctx.sees r && p r).find? (fun x => x.1 = i) =
      ((t.find i).filter fun r => ctx.sees r && p r).map fun r => (i, r) := by
    rw [← Table.first_key, Table.rows, Table.first, List.find?_filter]
    congr 1
    funext e
    simp [Bool.and_comm, and_comm]
  rw [hitems, Ctx.findMany, List.find?_map]
  have hcomp : ((fun x : OnEngagement ρ => decide (x.1.1 = i)) ∘ fun x : WithId ρ => (x, g x.2)) =
      fun x : WithId ρ => decide (x.1 = i) := rfl
  rw [hcomp, hfirst, Option.map_map]
  rfl

end Selected

/-! ### What a reminder leaves -/

section Left

variable {ctx : Ctx} {ρ : Type} {items : List (OnEngagement ρ)} {reminder : OnEngagement ρ → Option Reminder}

/-- In the audit trail: one entry for the item. -/
theorem countP_entries (hnodup : (items.map fun x => x.1.1).Nodup) (about : AuditTrail → Bool) (i : Uuid)
    (habout : ∀ x ∈ items, ∀ r, reminder x = some r → about (r.entry ctx) = decide (x.1.1 = i)) :
    ((items.filterMap reminder).map (Reminder.entry ctx)).countP about =
      if (reminderOf reminder items i).isSome then 1 else 0 := by
  have hsum := sum_reminders reminder hnodup (fun r => if about (r.entry ctx) then 1 else 0) i
    fun x hx r hr hne => by rw [habout x hx r hr, decide_eq_false hne]; rfl
  rw [List.countP_map, countP_eq_sum]
  refine hsum.trans ?_
  cases hof : reminderOf reminder items i with
  | none => rfl
  | some r =>
    obtain ⟨x, hfind, hr⟩ := Option.bind_eq_some_iff.mp hof
    have hid : x.1.1 = i := by simpa using List.find?_some hfind
    simp [habout x (List.mem_of_find?_eq_some hfind) r hr, hid]

/-- A user is notified once if he is among the recipients and can be notified. -/
theorem countP_deliveries (db : Db) (userIds : List (Option Uuid)) (input : NotifyInput) (u : Uuid) :
    (deliveries ctx db userIds input).countP (fun n => n.userId = u) =
      if some u ∈ userIds ∧ notifiable ctx db u = true then 1 else 0 := by
  rw [deliveries, List.countP_filterMap]
  by_cases hnotifiable : notifiable ctx db u = true
  · have hsame : ∀ o : Option Uuid, ((((o.filter (notifiable ctx db)).map fun u =>
        (⟨ctx.tenantId, u, input.type, input.title, input.body, input.link⟩ : Notification)).map
          fun n => decide (n.userId = u)).getD false) = decide (o = some u) := by
      intro o
      cases o with
      | none => rfl
      | some v =>
        by_cases hv : v = u
        · subst hv
          simp [Option.filter, hnotifiable]
        · cases hb : notifiable ctx db v <;> simp [Option.filter, hb, hv]
    simp only [hsame]
    rw [countP_eq_of_nodup (nodup_eraseDups userIds) (a := some u) (by simp)]
    simp [hnotifiable, List.mem_eraseDups]
  · rw [if_neg fun h => hnotifiable h.2, List.countP_eq_zero]
    intro o _
    cases o with
    | none => simp
    | some v =>
      by_cases hv : v = u
      · subst hv
        simp [Option.filter, hnotifiable]
      · cases hb : notifiable ctx db v <;> simp [Option.filter, hb, hv]

/-- To each recipient who can be notified: one notification about the item. -/
theorem countP_delivered (hnodup : (items.map fun x => x.1.1).Nodup) (db : Db) (about : Notification → Bool) (i u : Uuid)
    (habout : ∀ x ∈ items, ∀ r, reminder x = some r → ∀ n ∈ r.delivered ctx db,
      about n = (decide (n.userId = u) && decide (x.1.1 = i))) :
    ((items.filterMap reminder).flatMap (Reminder.delivered ctx db)).countP about =
      if (reminderOf reminder items i).any (fun r => some u ∈ r.recipients ∧ notifiable ctx db u = true) then 1 else 0 := by
  have hsum := sum_reminders reminder hnodup (fun r => (r.delivered ctx db).countP about) i fun x hx r hr hne => by
    rw [List.countP_eq_zero]
    intro n hn
    simp [habout x hx r hr n hn, hne]
  rw [List.countP_flatMap]
  refine hsum.trans ?_
  cases hof : reminderOf reminder items i with
  | none => rfl
  | some r =>
    obtain ⟨x, hfind, hr⟩ := Option.bind_eq_some_iff.mp hof
    have hid : x.1.1 = i := by simpa using List.find?_some hfind
    have hcount : (r.delivered ctx db).countP about = (r.delivered ctx db).countP fun n => n.userId = u := by
      refine List.countP_congr fun n hn => ?_
      simp [habout x (List.mem_of_find?_eq_some hfind) r hr n hn, hid]
    rw [Option.map_some, Option.getD_some, Option.any_some, hcount, Reminder.delivered, countP_deliveries]
    simp

end Left

/-! ### Links -/

theorem toString_injective {i j : Uuid} (h : toString i = toString j) : i = j := by
  have hdigits : Nat.toDigits 10 i = Nat.toDigits 10 j := String.ofList_injective h
  rw [← Nat.ofDigitChars_ten_toDigits (n := i), hdigits, Nat.ofDigitChars_ten_toDigits]

theorem findingLink_injective {i j : Uuid} (h : s!"/findings/{i}" = s!"/findings/{j}") : i = j :=
  toString_injective (String.append_right_inj _ |>.mp h)

theorem requestLink_injective {i j : Uuid} (h : s!"/requests/{i}" = s!"/requests/{j}") : i = j :=
  toString_injective (String.append_right_inj _ |>.mp h)

/-! ### What is counted -/

/-- How many reminders of a finding the audit trail records. -/
def findingReminded (i : Uuid) (s : Agenda) : ℕ := s.db.auditTrail.countP fun e =>
  e.targetType = "Finding" && e.targetId = i && (e.action = "finding.escalated" || e.action = "finding.reminder_sent")

/-- How many reminders of a request the audit trail records. -/
def requestReminded (i : Uuid) (s : Agenda) : ℕ := s.db.auditTrail.countP fun e =>
  e.targetType = "DocumentRequest" && e.targetId = i && e.action = "request.reminder_sent"

/-- How many reminders of a finding a user has been sent. -/
def findingNotices (u i : Uuid) (s : Agenda) : ℕ := s.db.notifications.countP fun n =>
  n.userId = u && (n.link = some s!"/findings/{i}" && (n.type = "finding.reminder" || n.type = "finding.overdue"))

/-- How many reminders of a request a user has been sent. -/
def requestNotices (u i : Uuid) (s : Agenda) : ℕ := s.db.notifications.countP fun n =>
  n.userId = u && (n.link = some s!"/requests/{i}" && (n.type = "request.reminder" || n.type = "request.overdue"))

section Counted

variable (ctx : Ctx) (s : Agenda) (i : Uuid)

/-- The reminder of a finding that a run sends, if it does. -/
def findingReminderOf : Option Reminder :=
  reminderOf (findingReminder ctx (contacts ctx .chiefAuditExecutive s) (contacts ctx .auditPartner s))
    (remindableFindings ctx s.db) i

/-- The reminder of a request that a run sends, if it does. -/
def requestReminderOf : Option Reminder := reminderOf (requestReminder ctx) (remindableRequests ctx s.db) i

variable {ctx s i}

theorem findingReminderOf_isSome :
    (findingReminderOf ctx s i).isSome = (s.db.findings.find i).any (findingDue ctx) := by
  let engagementOf (f : Finding) := related s.db.engagements (some f.engagementId)
  have hitems : remindableFindings ctx s.db =
      (ctx.findMany s.db.findings fun _ f => remindable f).map fun x => (x, engagementOf x.2) := rfl
  rw [findingReminderOf, reminderOf, find?_selected remindable engagementOf hitems]
  cases s.db.findings.find i with
  | none => rfl
  | some f =>
    rw [Option.any_some, findingDue_eq]
    cases hselected : ctx.sees f && remindable f with
    | false => rw [Option.filter_some, hselected]; rfl
    | true =>
      rw [Option.filter_some, hselected, if_pos rfl, Option.map_some, Option.bind_some, findingReminder_isSome,
        Bool.true_and]

theorem requestReminderOf_isSome :
    (requestReminderOf ctx s i).isSome = (s.db.requests.find i).any (requestDue ctx) := by
  let engagementOf (r : DocumentRequest) := related s.db.engagements (some r.engagementId)
  have hitems : remindableRequests ctx s.db =
      (ctx.findMany s.db.requests fun _ r => unanswered r).map fun x => (x, engagementOf x.2) := rfl
  rw [requestReminderOf, reminderOf, find?_selected unanswered engagementOf hitems]
  cases s.db.requests.find i with
  | none => rfl
  | some r =>
    have hdue : requestDue ctx r = ((ctx.sees r && unanswered r) &&
      (reminderDecision r.dueDate r.lastReminderAt ctx.now).remind) := by rw [requestDue, unanswered]
    rw [Option.any_some, hdue]
    cases hselected : ctx.sees r && unanswered r with
    | false => rw [Option.filter_some, hselected]; rfl
    | true =>
      rw [Option.filter_some, hselected, if_pos rfl, Option.map_some, Option.bind_some, requestReminder,
        requestReminderIf_isSome, Bool.true_and]

/-! ### What a reminder says of its item -/

/-- The reminder is about the finding. -/
def AboutFinding (r : Reminder) (i : Uuid) : Prop :=
  r.targetType = "Finding" ∧ r.targetId = i ∧ (r.action = "finding.escalated" ∨ r.action = "finding.reminder_sent") ∧
    r.input.link = some s!"/findings/{i}" ∧ (r.input.type = "finding.reminder" ∨ r.input.type = "finding.overdue")

/-- The reminder is about the request. -/
def AboutRequest (r : Reminder) (i : Uuid) : Prop :=
  r.targetType = "DocumentRequest" ∧ r.targetId = i ∧ r.action = "request.reminder_sent" ∧
    r.input.link = some s!"/requests/{i}" ∧ (r.input.type = "request.reminder" ∨ r.input.type = "request.overdue")

theorem findingReminder_about {caeIds partnerIds : List (Option Uuid)} {x : OnEngagement Finding} {r : Reminder}
    (h : findingReminder ctx caeIds partnerIds x = some r) : AboutFinding r x.1.1 := by
  obtain ⟨due, -, h⟩ := Option.bind_eq_some_iff.mp h
  generalize reminderDecision due x.1.2.lastReminderAt ctx.now = d at h
  unfold findingReminderIf at h
  split at h
  · cases h
    refine ⟨rfl, rfl, ?_, rfl, ?_⟩
    · dsimp only
      split
      · exact .inl rfl
      · exact .inr rfl
    · dsimp only [findingNotice]
      split
      · exact .inl rfl
      · exact .inr rfl
  · cases h

theorem requestReminder_about {x : OnEngagement DocumentRequest} {r : Reminder} (h : requestReminder ctx x = some r) :
    AboutRequest r x.1.1 := by
  unfold requestReminder at h
  generalize reminderDecision x.1.2.dueDate x.1.2.lastReminderAt ctx.now = d at h
  unfold requestReminderIf at h
  split at h
  · cases h
    refine ⟨rfl, rfl, rfl, rfl, ?_⟩
    dsimp only [requestNotice]
    split
    · exact .inl rfl
    · exact .inr rfl
  · cases h

theorem about_findingReminders {r : Reminder} (h : r ∈ findingReminders ctx s) : ∃ i, AboutFinding r i := by
  obtain ⟨x, -, hr⟩ := List.mem_filterMap.mp h
  exact ⟨_, findingReminder_about hr⟩

theorem about_requestReminders {r : Reminder} (h : r ∈ requestReminders ctx s) : ∃ i, AboutRequest r i := by
  obtain ⟨x, -, hr⟩ := List.mem_filterMap.mp h
  exact ⟨_, requestReminder_about hr⟩

/-- A notification of a reminder says what the reminder says. -/
theorem delivered_input {db : Db} {r : Reminder} {n : Notification} (h : n ∈ r.delivered ctx db) :
    n.link = r.input.link ∧ n.type = r.input.type := by
  rw [Reminder.delivered, deliveries, List.mem_filterMap] at h
  obtain ⟨o, -, hn⟩ := h
  obtain ⟨u, -, rfl⟩ := Option.map_eq_some_iff.mp hn
  exact ⟨rfl, rfl⟩

end Counted

end AuditSphere.Jobs
