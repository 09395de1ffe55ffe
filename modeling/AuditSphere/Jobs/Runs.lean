import AuditSphere.Jobs.Reminders

/-!
# What a run of the job does

Served alone a run always comes to an end: it marks the findings and the requests that are
due for a reminder and no others, and for each it tells every recipient once and leaves one
entry in the audit trail (`runForTenant_run`).
-/

namespace AuditSphere.Jobs

open Prisma Theory Shared

/-! ### A reminder -/

/-- A reminder that is sent. -/
structure Reminder where
  recipients : List (Option Uuid)
  input : NotifyInput
  action : String
  targetType : String
  targetId : Uuid

section Tenant

variable (ctx : Ctx)

/-- The entry that it leaves in the audit trail. -/
def Reminder.entry (r : Reminder) : AuditTrail := ⟨ctx.tenantId, none, r.action, r.targetType, r.targetId⟩

/-- The notifications to some users, each once, as far as they can be notified. -/
def deliveries (db : Db) (userIds : List (Option Uuid)) (input : NotifyInput) : List Notification :=
  userIds.eraseDups.filterMap fun u => (u.filter (notifiable ctx db)).map fun u =>
    ⟨ctx.tenantId, u, input.type, input.title, input.body, input.link⟩

/-- The notifications of a reminder. -/
def Reminder.delivered (db : Db) (r : Reminder) : List Notification := deliveries ctx db r.recipients r.input

/-- The database after some reminders, but for what they mark. -/
def told (rs : List Reminder) (db : Db) : Db := { db with
  notifications := (rs.flatMap (Reminder.delivered ctx db)).reverse ++ db.notifications
  auditTrail := (rs.map (Reminder.entry ctx)).reverse ++ db.auditTrail }

variable {ctx}

theorem told_nil (db : Db) : told ctx [] db = db := rfl

theorem notifiable_congr {db db' : Db} (h : db'.users = db.users) : notifiable ctx db' = notifiable ctx db := by
  funext u
  simp only [notifiable, h]

theorem delivered_congr {db db' : Db} (h : db'.users = db.users) :
    Reminder.delivered ctx db' = Reminder.delivered ctx db := by
  funext r
  simp only [Reminder.delivered, deliveries, notifiable_congr h]

/-- First some reminders, then others. -/
theorem told_append (rs rs' : List Reminder) (db : Db) : told ctx rs' (told ctx rs db) = told ctx (rs ++ rs') db := by
  have hdelivered : Reminder.delivered ctx (told ctx rs db) = Reminder.delivered ctx db := delivered_congr rfl
  rw [told, hdelivered]
  simp [told]

/-- The database after some notifications. -/
def notified (notifications : List Notification) (db : Db) : Db := { db with
  notifications := notifications ++ db.notifications }

@[simp] theorem notifiable_notified (notifications : List Notification) (db : Db) :
    notifiable ctx (notified notifications db) = notifiable ctx db := notifiable_congr rfl

@[simp] theorem notified_notified (l l' : List Notification) (db : Db) :
    notified l' (notified l db) = notified (l' ++ l) db := by
  simp [notified]

theorem notify_sent (userId : Option Uuid) (input : NotifyInput) (db : Db) :
    (notify ctx userId input).run db = (.ok (), notified ((userId.filter (notifiable ctx db)).map fun u =>
      (⟨ctx.tenantId, u, input.type, input.title, input.body, input.link⟩ : Notification)).toList db) := by
  cases userId with
  | none => rfl
  | some u =>
    unfold notify
    rw [Prog.run_bind, Prog.run_read]
    dsimp only
    cases hnotifiable : notifiable ctx db u <;> simp [Option.filter, hnotifiable, notified]

/-- Each user is notified once. -/
theorem notifyMany_sent (userIds : List (Option Uuid)) (input : NotifyInput) (db : Db) :
    (notifyMany ctx userIds input).run db = (.ok (), notified (deliveries ctx db userIds input).reverse db) := by
  unfold notifyMany deliveries
  induction userIds.eraseDups generalizing db with
  | nil => rfl
  | cons u us ih =>
    refine (Prog.run_bind_of_ok (notify_sent u input db) _).trans ((ih _).trans ?_)
    cases hu : u.filter (notifiable ctx db) <;> simp [hu]

/-! ### One item after another -/

/-- A table of the database, on which telling others makes no difference. -/
structure Part (ρ : Type) where
  get : Db → Table Uuid ρ
  put : Db → Table Uuid ρ → Db
  get_put : ∀ db t, get (put db t) = t
  put_get : ∀ db, put db (get db) = db
  put_put : ∀ db t t', put (put db t) t' = put db t'
  get_told : ∀ ctx rs db, get (told ctx rs db) = get db
  told_put : ∀ ctx rs db t, told ctx rs (put db t) = put (told ctx rs db) t

/-- The findings. -/
def findingPart : Part Finding :=
  ⟨Db.findings, fun db findings => { db with findings }, fun _ _ => rfl, fun _ => rfl, fun _ _ _ => rfl,
    fun _ _ _ => rfl, fun _ _ _ _ => rfl⟩

/-- The requests. -/
def requestPart : Part DocumentRequest :=
  ⟨Db.requests, fun db requests => { db with requests }, fun _ _ => rfl, fun _ => rfl, fun _ _ _ => rfl,
    fun _ _ _ => rfl, fun _ _ _ _ => rfl⟩

/-- The ids of the items that are reminded about. -/
def remindedIds {ρ : Type} (reminder : OnEngagement ρ → Option Reminder) (items : List (OnEngagement ρ)) : List Uuid :=
  (items.filter fun x => (reminder x).isSome).map fun x => x.1.1

/-- **The loop**: where each item that is reminded about is told of and marked, all of them are. -/
theorem sumOver_run {ρ : Type} (c : Part ρ) (f : OnEngagement ρ → Service ℕ) (reminder : OnEngagement ρ → Option Reminder)
    (mark : ρ → ρ) {items : List (OnEngagement ρ)} (hnodup : (items.map fun x => x.1.1).Nodup)
    (hf : ∀ x ∈ items, ∀ db, (c.get db).find x.1.1 = some x.1.2 → (f x).run db = match reminder x with
      | none => (.ok 0, db)
      | some r => (.ok 1, c.put (told ctx [r] db) ((c.get db).modify (fun j _ => j = x.1.1) mark))) (db : Db)
    (hrows : ∀ x ∈ items, (c.get db).find x.1.1 = some x.1.2) :
    (sumOver f items).run db = (.ok (items.filterMap reminder).length,
      c.put (told ctx (items.filterMap reminder) db) ((c.get db).modify (fun j _ => j ∈ remindedIds reminder items) mark)) := by
  induction items generalizing db with
  | nil =>
    have hsame : (c.get db).modify (fun j _ => decide (j ∈ remindedIds reminder [])) mark = c.get db := by
      simp [Table.modify, remindedIds]
    rw [hsame, List.filterMap_nil, told_nil, c.put_get]
    rfl
  | cons x items ih =>
    obtain ⟨hnew, hrest⟩ := List.nodup_cons.mp hnodup
    have hlater : ∀ y ∈ items, ∀ db, (c.get db).find y.1.1 = some y.1.2 → _ :=
      fun y hy => hf y (List.mem_cons_of_mem x hy)
    have hx := hf x List.mem_cons_self db (hrows x List.mem_cons_self)
    cases hreminder : reminder x with
    | none =>
      have hids : remindedIds reminder (x :: items) = remindedIds reminder items := by simp [remindedIds, hreminder]
      rw [hreminder] at hx
      rw [List.filterMap_cons_none hreminder, hids]
      refine (Prog.run_bind_of_ok hx _).trans ?_
      refine (Prog.run_bind_of_ok (ih hrest hlater db fun y hy => hrows y (List.mem_cons_of_mem x hy)) _).trans ?_
      simp
    | some r =>
      have hids : remindedIds reminder (x :: items) = x.1.1 :: remindedIds reminder items := by
        simp [remindedIds, hreminder]
      rw [hreminder] at hx
      have hrows' : ∀ y ∈ items, (c.get (c.put (told ctx [r] db)
          ((c.get db).modify (fun j _ => decide (j = x.1.1)) mark))).find y.1.1 = some y.1.2 := by
        intro y hy
        have hne : y.1.1 ≠ x.1.1 := fun h => hnew (List.mem_map.mpr ⟨y, hy, h⟩)
        rw [c.get_put, Table.find_modify, hrows y (List.mem_cons_of_mem x hy), Option.map_some,
          if_neg (by simpa using hne)]
      -- the marks of the first item and of the others are on different rows
      have hmarks : ((c.get db).modify (fun j _ => decide (j = x.1.1)) mark).modify
          (fun j _ => decide (j ∈ remindedIds reminder items)) mark =
          (c.get db).modify (fun j _ => decide (j ∈ x.1.1 :: remindedIds reminder items)) mark := by
        rw [Table.modify_modify (p := fun j => decide (j = x.1.1)) (q := fun j => decide (j ∈ remindedIds reminder items))]
        · refine Table.modify_congr fun i row _ => ?_
          simp
        · intro i hi
          rw [decide_eq_true_eq] at hi
          subst hi
          rw [decide_eq_false_iff_not]
          intro hmem
          obtain ⟨y, hy, heq⟩ := List.mem_map.mp hmem
          exact hnew (List.mem_map.mpr ⟨y, (List.mem_filter.mp hy).1, heq⟩)
      refine (Prog.run_bind_of_ok hx _).trans ?_
      refine (Prog.run_bind_of_ok (ih hrest hlater _ hrows') _).trans ?_
      rw [Prog.run_pure, c.get_put, hmarks, c.told_put, c.put_put, told_append, List.filterMap_cons_some hreminder, hids,
        List.length_cons, List.singleton_append, Nat.add_comm]

/-! ### Findings and requests -/

variable (ctx)

/-- The reminder of a finding, once it is decided on. -/
def findingReminderIf (caeIds partnerIds : List (Option Uuid)) (x : OnEngagement Finding) (due : Date)
    (d : ReminderDecision) : Option Reminder :=
  if d.remind then some {
    recipients := findingRecipients caeIds partnerIds x.1.2 x.2 d.escalationLevel
    input := findingNotice x.1.1 x.1.2 x.2 due d
    action := if x.1.2.escalationLevel < d.escalationLevel then "finding.escalated" else "finding.reminder_sent"
    targetType := "Finding"
    targetId := x.1.1 }
  else none

/-- The reminder of a finding, if it is to be reminded about. -/
def findingReminder (caeIds partnerIds : List (Option Uuid)) (x : OnEngagement Finding) : Option Reminder :=
  x.1.2.dueDate.bind fun due =>
    findingReminderIf caeIds partnerIds x due (reminderDecision due x.1.2.lastReminderAt ctx.now)

/-- The decision about a finding, if it has a due date. -/
def findingDecision (f : Finding) : Option ReminderDecision :=
  f.dueDate.map fun due => reminderDecision due f.lastReminderAt ctx.now

/-- The finding is one that the job selects, and due for a reminder. -/
def findingDue (f : Finding) : Bool :=
  ctx.sees f && (f.deletedAt.isNone && f.status ∈ Findings.actionableStatuses) &&
    (findingDecision ctx f).any ReminderDecision.remind

/-- A finding after its reminder. -/
def remindedFinding (f : Finding) : Finding :=
  markFinding ctx f.escalationLevel (((findingDecision ctx f).map ReminderDecision.escalationLevel).getD 0) f

/-- The reminder of a request, once it is decided on. -/
def requestReminderIf (x : OnEngagement DocumentRequest) (d : ReminderDecision) : Option Reminder :=
  if d.remind then some {
    recipients := requestRecipients x.1.2 x.2 d.escalationLevel
    input := requestNotice x.1.1 x.1.2 x.2 d
    action := "request.reminder_sent"
    targetType := "DocumentRequest"
    targetId := x.1.1 }
  else none

/-- The reminder of a request, if it is to be reminded about. -/
def requestReminder (x : OnEngagement DocumentRequest) : Option Reminder :=
  requestReminderIf x (reminderDecision x.1.2.dueDate x.1.2.lastReminderAt ctx.now)

/-- The request is one that the job selects, and due for a reminder. -/
def requestDue (r : DocumentRequest) : Bool :=
  ctx.sees r && (r.status = .opened || r.status = .returned) && (reminderDecision r.dueDate r.lastReminderAt ctx.now).remind

variable {ctx}

theorem systemRecord_run (action targetType : String) (targetId : Uuid) (db : Db) :
    (systemRecord ctx action targetType targetId).run db =
      (.ok (), { db with auditTrail := ⟨ctx.tenantId, none, action, targetType, targetId⟩ :: db.auditTrail }) := rfl

/-- What is made of the row under a key is made of the row. -/
theorem modify_row {ρ : Type} {t : Table Uuid ρ} {id : Uuid} {row : ρ} (hrow : t.find id = some row) {f g : ρ → ρ}
    (h : f row = g row) : t.modify (fun j _ => decide (j = id)) f = t.modify (fun j _ => decide (j = id)) g := by
  refine Table.modify_congr fun i r hi => ?_
  by_cases hid : i = id
  · subst hid
    rw [hrow, Option.some.injEq] at hi
    subst hi
    simp [h]
  · simp [hid]

theorem updateFindingRow_run {db : Db} {id : Uuid} {row : Finding} (hrow : db.findings.find id = some row)
    (hsees : ctx.sees row = true) (f : Finding → Finding) : (updateFindingRow ctx id f).run db =
      (.ok (), { db with findings := db.findings.modify (fun j _ => j = id) f }) := by
  have hfound : ctx.findById db.findings id (fun _ => true) = some row :=
    Ctx.findById_eq_some.mpr ⟨hrow, hsees, rfl⟩
  rw [updateFindingRow, Prog.run_call, updateRow, hfound, modify_row hrow (f := f) (g := fun _ => f row) rfl]
  rfl

theorem updateRequestRow_run {db : Db} {id : Uuid} {row : DocumentRequest} (hrow : db.requests.find id = some row)
    (hsees : ctx.sees row = true) (f : DocumentRequest → DocumentRequest) : (updateRequestRow ctx id f).run db =
      (.ok (), { db with requests := db.requests.modify (fun j _ => j = id) f }) := by
  have hfound : ctx.findById db.requests id (fun _ => true) = some row :=
    Ctx.findById_eq_some.mpr ⟨hrow, hsees, rfl⟩
  rw [updateRequestRow, Prog.run_call, updateRow, hfound, modify_row hrow (f := f) (g := fun _ => f row) rfl]
  rfl

/-- To tell of an item, to mark it, and to record it. -/
theorem reminding_run (r : Reminder) {mark : Service Unit} (db marked : Db) (husers : marked.users = db.users)
    (hmark : ∀ l, mark.run (notified l db) = (.ok (), notified l marked)) :
    (do
      notifyMany ctx r.recipients r.input
      mark
      systemRecord ctx r.action r.targetType r.targetId
      pure 1 : Service ℕ).run db = (.ok 1, told ctx [r] marked) := by
  refine (Prog.run_bind_of_ok (notifyMany_sent _ _ db) _).trans ?_
  refine (Prog.run_bind_of_ok (hmark _) _).trans ?_
  refine (Prog.run_bind_of_ok (systemRecord_run _ _ _ _) _).trans ?_
  have hdelivered : Reminder.delivered ctx marked = Reminder.delivered ctx db := delivered_congr husers
  simp [told, hdelivered, notified, Reminder.entry, Reminder.delivered]

/-- A finding, once it is decided on. -/
theorem remindFindingIf_run {caeIds partnerIds : List (Option Uuid)} {x : OnEngagement Finding} {due : Date}
    {d : ReminderDecision} {db : Db} (hrow : db.findings.find x.1.1 = some x.1.2) (hsees : ctx.sees x.1.2 = true)
    (hdecision : findingDecision ctx x.1.2 = some d) :
    (remindFindingIf ctx caeIds partnerIds x due d).run db = match findingReminderIf caeIds partnerIds x due d with
      | none => (.ok 0, db)
      | some r => (.ok 1, findingPart.put (told ctx [r] db)
          ((findingPart.get db).modify (fun j _ => j = x.1.1) (remindedFinding ctx))) := by
  have hmark : remindedFinding ctx x.1.2 = markFinding ctx x.1.2.escalationLevel d.escalationLevel x.1.2 := by
    rw [remindedFinding, hdecision]
    rfl
  unfold remindFindingIf findingReminderIf
  cases hremind : d.remind with
  | false => simp
  | true =>
    rw [if_neg (by decide), if_pos rfl]
    dsimp only
    rw [← findingPart.told_put]
    refine reminding_run ⟨_, _, _, _, _⟩ db _ rfl fun l => ?_
    have hrow' : (notified l db).findings.find x.1.1 = some x.1.2 := hrow
    rw [updateFindingRow_run hrow' hsees, modify_row hrow' hmark.symm]
    rfl

theorem findingDecision_of_due {f : Finding} {due : Date} (h : f.dueDate = some due) :
    findingDecision ctx f = some (reminderDecision due f.lastReminderAt ctx.now) := by
  rw [findingDecision, h]
  rfl

/-- One finding. -/
theorem remindFinding_run {caeIds partnerIds : List (Option Uuid)} {x : OnEngagement Finding} {db : Db}
    (hrow : db.findings.find x.1.1 = some x.1.2) (hsees : ctx.sees x.1.2 = true) :
    (remindFinding ctx caeIds partnerIds x).run db = match findingReminder ctx caeIds partnerIds x with
      | none => (.ok 0, db)
      | some r => (.ok 1, findingPart.put (told ctx [r] db)
          ((findingPart.get db).modify (fun j _ => j = x.1.1) (remindedFinding ctx))) := by
  cases hdue : x.1.2.dueDate with
  | none =>
    unfold remindFinding findingReminder
    rw [hdue, Option.bind_none]
    rfl
  | some due =>
    unfold remindFinding findingReminder
    rw [hdue, Option.bind_some]
    exact remindFindingIf_run hrow hsees (findingDecision_of_due hdue)

/-- A request, once it is decided on. -/
theorem remindRequestIf_run {x : OnEngagement DocumentRequest} {d : ReminderDecision} {db : Db}
    (hrow : db.requests.find x.1.1 = some x.1.2) (hsees : ctx.sees x.1.2 = true) :
    (remindRequestIf ctx x d).run db = match requestReminderIf x d with
      | none => (.ok 0, db)
      | some r => (.ok 1, requestPart.put (told ctx [r] db)
          ((requestPart.get db).modify (fun j _ => j = x.1.1) (markRequest ctx))) := by
  unfold remindRequestIf requestReminderIf
  cases hremind : d.remind with
  | false => simp
  | true =>
    rw [if_neg (by decide), if_pos rfl]
    dsimp only
    rw [← requestPart.told_put]
    refine reminding_run ⟨_, _, _, _, _⟩ db _ rfl fun l => ?_
    have hrow' : (notified l db).requests.find x.1.1 = some x.1.2 := hrow
    rw [updateRequestRow_run hrow' hsees]
    rfl

/-- One request. -/
theorem remindRequest_run {x : OnEngagement DocumentRequest} {db : Db} (hrow : db.requests.find x.1.1 = some x.1.2)
    (hsees : ctx.sees x.1.2 = true) : (remindRequest ctx x).run db = match requestReminder ctx x with
      | none => (.ok 0, db)
      | some r => (.ok 1, requestPart.put (told ctx [r] db)
          ((requestPart.get db).modify (fun j _ => j = x.1.1) (markRequest ctx))) := by
  obtain ⟨d, hd⟩ : ∃ d, d = reminderDecision x.1.2.dueDate x.1.2.lastReminderAt ctx.now := ⟨_, rfl⟩
  have hprogram : remindRequest ctx x = remindRequestIf ctx x d := by rw [hd, remindRequest]
  have hreminder : requestReminder ctx x = requestReminderIf x d := by rw [hd, requestReminder]
  rw [hprogram, hreminder]
  exact remindRequestIf_run hrow hsees

/-! ### The selected rows -/

theorem findingReminderIf_isSome (caeIds partnerIds : List (Option Uuid)) (x : OnEngagement Finding) (due : Date)
    (d : ReminderDecision) : (findingReminderIf caeIds partnerIds x due d).isSome = d.remind := by
  unfold findingReminderIf
  split <;> simp [*]

theorem findingReminder_of_due {caeIds partnerIds : List (Option Uuid)} {x : OnEngagement Finding} {due : Date}
    (h : x.1.2.dueDate = some due) : findingReminder ctx caeIds partnerIds x =
      findingReminderIf caeIds partnerIds x due (reminderDecision due x.1.2.lastReminderAt ctx.now) := by
  rw [findingReminder, h, Option.bind_some]

theorem findingReminder_isSome (caeIds partnerIds : List (Option Uuid)) (x : OnEngagement Finding) :
    (findingReminder ctx caeIds partnerIds x).isSome = (findingDecision ctx x.1.2).any ReminderDecision.remind := by
  cases hdue : x.1.2.dueDate with
  | none => rw [findingReminder, findingDecision, hdue, Option.bind_none, Option.map_none, Option.isSome_none, Option.any_none]
  | some due =>
    rw [findingReminder_of_due hdue, findingReminderIf_isSome, findingDecision_of_due hdue, Option.any_some]

theorem requestReminderIf_isSome (x : OnEngagement DocumentRequest) (d : ReminderDecision) :
    (requestReminderIf x d).isSome = d.remind := by
  unfold requestReminderIf
  split <;> simp [*]

section Selected

variable {ρ : Type} [TenantRow ρ] {t : Table Uuid ρ} (p : ρ → Bool) (g : ρ → Option (WithId Engagement))
  {items : List (OnEngagement ρ)} (hitems : items = (ctx.findMany t fun _ r => p r).map fun x => (x, g x.2))

include hitems

theorem selected_nodup : (items.map fun x => x.1.1).Nodup := by
  rw [hitems, List.map_map]
  exact (List.filter_sublist.map Prod.fst).nodup t.nodup

theorem selected_row : ∀ x ∈ items, t.find x.1.1 = some x.1.2 ∧ ctx.sees x.1.2 = true := by
  intro x hx
  rw [hitems] at hx
  obtain ⟨⟨i, r⟩, hrow, rfl⟩ := List.mem_map.mp hx
  obtain ⟨hfind, hcond⟩ := (t.mem_rows_iff _ i r).mp hrow
  rw [Bool.and_eq_true] at hcond
  exact ⟨hfind, hcond.1⟩

/-- The rows that are reminded about are those that are selected and due. -/
theorem modify_reminded (reminder : OnEngagement ρ → Option Reminder) (due : ρ → Bool)
    (hdue : ∀ x, (reminder x).isSome = due x.1.2) (f : ρ → ρ) :
    t.modify (fun j _ => j ∈ remindedIds reminder items) f =
      t.modify (fun _ r => (ctx.sees r && p r) && due r) f := by
  refine Table.modify_congr fun i r hi => ?_
  have hmem : i ∈ remindedIds reminder items ↔ ((ctx.sees r && p r) && due r) = true := by
    simp only [remindedIds, hitems, List.mem_map, List.mem_filter, Bool.and_eq_true]
    constructor
    · rintro ⟨_, ⟨⟨⟨j, r'⟩, hrow, rfl⟩, hsome⟩, rfl⟩
      obtain ⟨hfind, hcond⟩ := (t.mem_rows_iff _ _ _).mp hrow
      rw [hi, Option.some.injEq] at hfind
      subst hfind
      rw [hdue] at hsome
      exact ⟨by simpa using hcond, hsome⟩
    · rintro ⟨hcond, hsome⟩
      exact ⟨((i, r), g r), ⟨⟨(i, r), (t.mem_rows_iff _ _ _).mpr ⟨hi, by simpa using hcond⟩, rfl⟩, by rw [hdue]; exact hsome⟩, rfl⟩
  simp only [hmem, decide_eq_true_eq]

end Selected

/-! ### Milestones -/

/-- The state after some alerts. -/
def alerted (notifications : List Notification) (notices : List MilestoneNotice) (s : Agenda) : Agenda := { s with
  db := notified notifications s.db
  milestoneNotices := notices ++ s.milestoneNotices }

theorem alerted_alerted (l l' : List Notification) (n n' : List MilestoneNotice) (s : Agenda) :
    alerted l' n' (alerted l n s) = alerted (l' ++ l) (n' ++ n) s := by
  simp [alerted]

/-- The program only sends alerts. -/
def OnlyAlerts {α : Type} (p : Method α) : Prop :=
  ∀ s, ∃ a l n, p.run s = (.ok a, alerted l n s) ∧ ∀ x ∈ l, x.type = "milestone.overdue"

theorem onlyAlerts_pure {α : Type} (a : α) : OnlyAlerts (pure a : Method α) :=
  fun _ => ⟨a, [], [], rfl, by simp⟩

theorem OnlyAlerts.bind {α β : Type} {p : Method α} {k : α → Method β} (hp : OnlyAlerts p) (hk : ∀ a, OnlyAlerts (k a)) :
    OnlyAlerts (p >>= k) := by
  intro s
  obtain ⟨a, l, n, hrun, hl⟩ := hp s
  obtain ⟨b, l', n', hrun', hl'⟩ := hk a (alerted l n s)
  refine ⟨b, l' ++ l, n' ++ n, ?_, fun x hx => ?_⟩
  · rw [Prog.run_bind_of_ok hrun, hrun', alerted_alerted]
  · rcases List.mem_append.mp hx with hx | hx
    · exact hl' x hx
    · exact hl x hx

theorem onlyAlerts_read {α : Type} (f : Agenda → α) : OnlyAlerts (Prog.read f : Method α) :=
  fun s => ⟨f s, [], [], rfl, by simp⟩

theorem onlyAlerts_notifyMilestone (milestoneId : Uuid) (userId : Option Uuid) {input : NotifyInput}
    (htype : input.type = "milestone.overdue") : OnlyAlerts (notifyMilestone ctx milestoneId userId input) := by
  unfold notifyMilestone
  cases userId with
  | none => exact onlyAlerts_pure ()
  | some u =>
    refine (onlyAlerts_read _).bind fun b => ?_
    split
    · exact fun s => ⟨(), [_], [_], rfl, fun n hn => by rw [List.mem_singleton.mp hn, htype]⟩
    · exact onlyAlerts_pure ()

theorem onlyAlerts_alertMilestone (x : OnEngagement EngagementMilestone) : OnlyAlerts (alertMilestone ctx x) := by
  unfold alertMilestone
  refine (onlyAlerts_read _).bind fun recent => ?_
  split
  · exact onlyAlerts_pure 0
  · refine OnlyAlerts.bind ?_ fun _ => onlyAlerts_pure 1
    generalize [x.2.bind fun e => e.2.leadId, x.2.bind fun e => e.2.managerId].eraseDups = users
    induction users with
    | nil => exact onlyAlerts_pure ()
    | cons u users ih => exact (onlyAlerts_notifyMilestone x.1.1 u rfl).bind fun _ => ih

theorem onlyAlerts_sumOver {α : Type} {f : α → Method ℕ} (hf : ∀ x, OnlyAlerts (f x)) (l : List α) :
    OnlyAlerts (sumOver f l) := by
  induction l with
  | nil => exact onlyAlerts_pure 0
  | cons x l ih => exact (hf x).bind fun n => ih.bind fun rest => onlyAlerts_pure (n + rest)

/-! ### The run -/

theorem onDb_run {α : Type} (p : Service α) (s : Agenda) :
    (onDb p).run s = ((p.run s.db).1, { s with db := (p.run s.db).2 }) := by
  unfold onDb
  rw [Prog.run_embed] <;> intros
  · cases (p.run s.db).1 <;> rfl
  · rfl
  · rfl
  · rfl

variable (ctx)

/-- The reminders that a run sends about findings. -/
def findingReminders (s : Agenda) : List Reminder :=
  (remindableFindings ctx s.db).filterMap
    (findingReminder ctx (contacts ctx .chiefAuditExecutive s) (contacts ctx .auditPartner s))

/-- The reminders that a run sends about requests. -/
def requestReminders (s : Agenda) : List Reminder := (remindableRequests ctx s.db).filterMap (requestReminder ctx)

/-- The database after the reminders of a run. -/
def remindedDb (s : Agenda) : Db := told ctx (findingReminders ctx s ++ requestReminders ctx s) { s.db with
  findings := s.db.findings.modify (fun _ f => findingDue ctx f) (remindedFinding ctx)
  requests := s.db.requests.modify (fun _ r => requestDue ctx r) (markRequest ctx) }

variable {ctx}

/-- A finding is selected: it is open for action and has a due date. -/
def remindable (f : Finding) : Bool :=
  f.deletedAt.isNone && f.status ∈ Findings.actionableStatuses && f.dueDate.isSome

theorem findingDue_eq (f : Finding) : findingDue ctx f =
    ((ctx.sees f && remindable f) && (findingDecision ctx f).any ReminderDecision.remind) := by
  have hdated : f.dueDate.isSome = (findingDecision ctx f).isSome := by rw [findingDecision, Option.isSome_map]
  rw [findingDue, remindable, hdated]
  generalize findingDecision ctx f = decision
  cases decision <;> simp

/-- The loop over the findings. -/
theorem findings_run (s : Agenda) :
    (onDb (sumOver (remindFinding ctx (contacts ctx .chiefAuditExecutive s) (contacts ctx .auditPartner s))
      (remindableFindings ctx s.db))).run s = (.ok (findingReminders ctx s).length, { s with
        db := findingPart.put (told ctx (findingReminders ctx s) s.db)
          (s.db.findings.modify (fun _ f => findingDue ctx f) (remindedFinding ctx)) }) := by
  let engagementOf (f : Finding) := related s.db.engagements (some f.engagementId)
  have hitems : remindableFindings ctx s.db =
      (ctx.findMany s.db.findings fun _ f => remindable f).map fun x => (x, engagementOf x.2) := rfl
  have hrows : ∀ x ∈ remindableFindings ctx s.db, s.db.findings.find x.1.1 = some x.1.2 ∧ ctx.sees x.1.2 = true :=
    selected_row remindable engagementOf hitems
  have hrun := sumOver_run findingPart (remindFinding ctx (contacts ctx .chiefAuditExecutive s) (contacts ctx .auditPartner s))
    (findingReminder ctx (contacts ctx .chiefAuditExecutive s) (contacts ctx .auditPartner s)) (remindedFinding ctx)
    (selected_nodup remindable engagementOf hitems) (fun x hx db hrow => remindFinding_run hrow (hrows x hx).2) s.db fun x hx => (hrows x hx).1
  have hmodify := modify_reminded remindable engagementOf hitems
    (findingReminder ctx (contacts ctx .chiefAuditExecutive s) (contacts ctx .auditPartner s))
    (fun f => (findingDecision ctx f).any ReminderDecision.remind) (findingReminder_isSome _ _) (remindedFinding ctx)
  have hdue : s.db.findings.modify (fun _ f => (ctx.sees f && remindable f) &&
      (findingDecision ctx f).any ReminderDecision.remind) (remindedFinding ctx) =
        s.db.findings.modify (fun _ f => findingDue ctx f) (remindedFinding ctx) := by
    refine Table.modify_congr fun i f _ => ?_
    rw [findingDue_eq]
  have hget : findingPart.get s.db = s.db.findings := rfl
  rw [onDb_run, hrun, hget, hmodify, hdue, findingReminders]

/-- A request is selected: it is to be answered. -/
def unanswered (r : DocumentRequest) : Bool := r.status = .opened || r.status = .returned

/-- The loop over the requests. -/
theorem requests_run (s : Agenda) : (onDb (sumOver (remindRequest ctx) (remindableRequests ctx s.db))).run s =
    (.ok (requestReminders ctx s).length, { s with
      db := requestPart.put (told ctx (requestReminders ctx s) s.db)
        (s.db.requests.modify (fun _ r => requestDue ctx r) (markRequest ctx)) }) := by
  let engagementOf (r : DocumentRequest) := related s.db.engagements (some r.engagementId)
  have hitems : remindableRequests ctx s.db =
      (ctx.findMany s.db.requests fun _ r => unanswered r).map fun x => (x, engagementOf x.2) := rfl
  have hrows : ∀ x ∈ remindableRequests ctx s.db, s.db.requests.find x.1.1 = some x.1.2 ∧ ctx.sees x.1.2 = true :=
    selected_row unanswered engagementOf hitems
  have hrun := sumOver_run requestPart (remindRequest ctx) (requestReminder ctx) (markRequest ctx)
    (selected_nodup unanswered engagementOf hitems) (fun x hx db hrow => remindRequest_run hrow (hrows x hx).2) s.db fun x hx => (hrows x hx).1
  have hmodify := modify_reminded unanswered engagementOf hitems (requestReminder ctx)
    (fun r => (reminderDecision r.dueDate r.lastReminderAt ctx.now).remind) (fun x => requestReminderIf_isSome x _)
    (markRequest ctx)
  have hget : requestPart.get s.db = s.db.requests := rfl
  rw [onDb_run, hrun, hget, hmodify, requestReminders]
  rfl

/-- One loop after the other. -/
theorem remindedDb_eq (s : Agenda) : requestPart.put (told ctx (requestReminders ctx s) (findingPart.put
    (told ctx (findingReminders ctx s) s.db) (s.db.findings.modify (fun _ f => findingDue ctx f) (remindedFinding ctx))))
      (s.db.requests.modify (fun _ r => requestDue ctx r) (markRequest ctx)) = remindedDb ctx s := by
  rw [findingPart.told_put, told_append, remindedDb, ← findingPart.told_put, ← requestPart.told_put]
  rfl

/-- **A run** comes to an end. It marks the findings and the requests that are due and no others, sends their reminders,
and otherwise only alerts about milestones. -/
theorem runForTenant_run (tenantId : Uuid) (now : Date) (s : Agenda) : ∃ alerts notices n,
    (∀ x ∈ alerts, x.type = "milestone.overdue") ∧ (runForTenant tenantId now).run s =
      (.ok ⟨(findingReminders (systemCtx tenantId now) s).length, (requestReminders (systemCtx tenantId now) s).length, n⟩,
        alerted alerts notices { s with db := remindedDb (systemCtx tenantId now) s }) := by
  obtain ⟨n, alerts, notices, hrun, htypes⟩ := onlyAlerts_sumOver
    (fun x => @onlyAlerts_alertMilestone (systemCtx tenantId now) x)
    (lateMilestones (systemCtx tenantId now) { s with db := remindedDb (systemCtx tenantId now) s })
    { s with db := remindedDb (systemCtx tenantId now) s }
  refine ⟨alerts, notices, n, htypes, ?_⟩
  have hrequests := @requests_run (systemCtx tenantId now) { s with
    db := findingPart.put (told (systemCtx tenantId now) (findingReminders (systemCtx tenantId now) s) s.db)
      (s.db.findings.modify (fun _ f => findingDue (systemCtx tenantId now) f) (remindedFinding (systemCtx tenantId now))) }
  -- the loop over the findings leaves the requests and their engagements
  have hsame : requestReminders (systemCtx tenantId now) { s with
      db := findingPart.put (told (systemCtx tenantId now) (findingReminders (systemCtx tenantId now) s) s.db)
        (s.db.findings.modify (fun _ f => findingDue (systemCtx tenantId now) f) (remindedFinding (systemCtx tenantId now))) } =
      requestReminders (systemCtx tenantId now) s := rfl
  rw [hsame] at hrequests
  have hdb := @remindedDb_eq (systemCtx tenantId now) s
  unfold runForTenant
  refine (Prog.run_bind_of_ok (Prog.run_read _ _) _).trans ((Prog.run_bind_of_ok (Prog.run_read _ _) _).trans ?_)
  refine (Prog.run_bind_of_ok (Prog.run_read _ _) _).trans ((Prog.run_bind_of_ok (findings_run s) _).trans ?_)
  refine (Prog.run_bind_of_ok (Prog.run_read _ _) _).trans ((Prog.run_bind_of_ok hrequests _).trans ?_)
  refine (Prog.run_bind_of_ok (Prog.run_read _ _) _).trans ?_
  have hstate : ∀ db : Db, db = remindedDb (systemCtx tenantId now) s → (do
      let milestoneAlerts ← sumOver (alertMilestone (systemCtx tenantId now))
        (lateMilestones (systemCtx tenantId now) { s with db := db })
      pure (⟨(findingReminders (systemCtx tenantId now) s).length, (requestReminders (systemCtx tenantId now) s).length,
        milestoneAlerts⟩ : RunSummary) : Method RunSummary).run { s with db := db } =
      (.ok ⟨(findingReminders (systemCtx tenantId now) s).length, (requestReminders (systemCtx tenantId now) s).length, n⟩,
        alerted alerts notices { s with db := remindedDb (systemCtx tenantId now) s }) := by
    rintro _ rfl
    exact (Prog.run_bind_of_ok hrun _).trans rfl
  exact hstate _ hdb

end Tenant

end AuditSphere.Jobs
