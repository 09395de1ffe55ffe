import AuditSphere.Common.Dates
import AuditSphere.Findings.Service
import AuditSphere.Requests.Operations
import AuditSphere.Theory.Follow

/-!
# Reminders

The daily job: owners of findings are reminded before the due date and, after it, every
week, with ever more people told (`reminderDecision`, `RemindersService`); so are those who
are to answer a request for documents, and those who lead an engagement with a late milestone.
-/

namespace AuditSphere.Jobs

open Prisma Theory Shared

/-! ### The schedule -/

/-- Why an item is reminded about. -/
inductive ReminderReason where
  | beforeDue | overdue | none
  deriving DecidableEq

/-- `ReminderDecision`. -/
structure ReminderDecision where
  remind : Bool
  daysUntilDue : ℤ
  daysOverdue : ℕ
  escalationLevel : ℕ
  reason : ReminderReason
  deriving DecidableEq

/-- The days from today to the day of a due date; both begin at midnight, so nothing is rounded. -/
def daysUntilDue (dueDate now : Date) : ℤ := ((startOfUtcDay dueDate : ℤ) - startOfUtcDay now) / msPerDay

/-- The last reminder was sent today. -/
def remindedToday (lastReminderAt : Option Date) (now : Date) : Bool :=
  lastReminderAt.any fun last => startOfUtcDay last = startOfUtcDay now

/-- `reminderDecision`. -/
def reminderDecision (dueDate : Date) (lastReminderAt : Option Date) (now : Date) : ReminderDecision :=
  if 0 < daysUntilDue dueDate now then
    let scheduled := decide (daysUntilDue dueDate now ∈ beforeDueDays)
    { remind := scheduled && !remindedToday lastReminderAt now
      daysUntilDue := daysUntilDue dueDate now
      daysOverdue := 0
      escalationLevel := 0
      reason := if scheduled then .beforeDue else .none }
  else
    -- without a last reminder, it is infinitely long ago
    let dueNow := lastReminderAt.all (fun last => afterDueEveryDays ≤ daysSince last now) ||
      (daysUntilDue dueDate now = 0 && !remindedToday lastReminderAt now)
    { remind := dueNow && !remindedToday lastReminderAt now
      daysUntilDue := daysUntilDue dueDate now
      daysOverdue := daysOverdue (some dueDate) now
      escalationLevel := escalationLevel (daysOverdue (some dueDate) now)
      reason := .overdue }

/-! ### What the job works on -/

/-- A milestone of an engagement. -/
structure EngagementMilestone where
  tenantId : Uuid
  engagementId : Uuid
  name : String
  dueDate : Date
  completedAt : Option Date
  deriving DecidableEq

instance : TenantRow EngagementMilestone := ⟨.engagementMilestone, fun r => some r.tenantId⟩

/-- Of a notification about a late milestone: the milestone, which its payload names, and when it was created. -/
structure MilestoneNotice where
  tenantId : Uuid
  milestoneId : Uuid
  createdAt : Date
  deriving DecidableEq

/-- The database with the roles of users and the milestones. -/
structure Agenda where
  db : Db
  /-- The roles of a user, be it for single entities. -/
  roles : Uuid → List RoleKey
  milestones : Table Uuid EngagementMilestone
  milestoneNotices : List MilestoneNotice
  /-- The clock of the database. -/
  clock : Date

/-- A program of the job. -/
abbrev Method (α : Type) := Prog Agenda HttpError α

/-- A program on the rest of the database. -/
def onDb {α : Type} (p : Service α) : Method α := p.embed Agenda.db (fun a db => { a with db }) id

/-- The job acts for a tenant; there is no user, and it draws no uuid. -/
def systemCtx (tenantId : Uuid) (now : Date) : Ctx where
  tenantId
  userId := 0
  email := some "system"
  roles := []
  permissions := []
  now
  uuid := fun _ => 0

/-- `AuditTrailService.record`, of what no user does. -/
def systemRecord (ctx : Ctx) (action targetType : String) (targetId : Uuid) : Service Unit :=
  .write fun db => { db with auditTrail := ⟨ctx.tenantId, none, action, targetType, targetId⟩ :: db.auditTrail }

/-- The active users of the tenant with a role. -/
def contacts (ctx : Ctx) (role : RoleKey) (s : Agenda) : List (Option Uuid) :=
  (ctx.findMany s.db.users fun i u => u.deletedAt.isNone && u.status = .active && role ∈ s.roles i).map fun u => some u.1

/-- Who manages the engagement, or else leads it. -/
def managerOrLead (engagement : Option (WithId Engagement)) : Option Uuid :=
  engagement.bind fun e => e.2.managerId.or e.2.leadId

/-- The number of the engagement. -/
def auditNumberOf (engagement : Option (WithId Engagement)) : String := (engagement.map fun e => e.2.auditNumber).getD ""

/-- A row with the engagement that it belongs to. -/
abbrev OnEngagement (ρ : Type) := WithId ρ × Option (WithId Engagement)

section Tenant

variable (ctx : Ctx)

/-! ### Findings -/

/-- Whom a reminder of a finding tells. -/
def findingRecipients (caeIds partnerIds : List (Option Uuid)) (f : Finding) (engagement : Option (WithId Engagement))
    (level : ℕ) : List (Option Uuid) :=
  [f.actionOwnerId] ++ (if 1 ≤ level then [managerOrLead engagement] else []) ++
    (if 2 ≤ level then caeIds else []) ++ if 3 ≤ level then partnerIds else []

/-- What it says. -/
def findingNotice (id : Uuid) (f : Finding) (engagement : Option (WithId Engagement)) (due : Date) (d : ReminderDecision) :
    NotifyInput where
  type := if d.reason = .beforeDue then "finding.reminder" else "finding.overdue"
  title :=
    if d.reason = .beforeDue then s!"{f.reference} {f.title} is due in {d.daysUntilDue} day(s)"
    else s!"{f.reference} {f.title} is {d.daysOverdue} day(s) overdue" ++ if 2 ≤ d.escalationLevel then " (escalated)" else ""
  body := some s!"Engagement {auditNumberOf engagement}. Due {isoDate due}. Escalation level {d.escalationLevel}."
  link := some s!"/findings/{id}"

/-- A finding that has been reminded about; its level was read before. -/
def markFinding (before level : ℕ) (f : Finding) : Finding := { f with
  reminderCount := f.reminderCount + 1
  lastReminderAt := some ctx.now
  escalationLevel := max before level }

/-- `finding.update` of one row. -/
def updateFindingRow (id : Uuid) (f : Finding → Finding) : Service Unit := .call fun db => do
  let (_, findings) ← updateRow ctx db.findings id fun r => .ok (f r)
  return ((), { db with findings })

/-- A finding, once it is decided on. -/
def remindFindingIf (caeIds partnerIds : List (Option Uuid)) (x : OnEngagement Finding) (due : Date) (d : ReminderDecision) :
    Service ℕ :=
  if !d.remind then pure 0
  else do
    notifyMany ctx (findingRecipients caeIds partnerIds x.1.2 x.2 d.escalationLevel) (findingNotice x.1.1 x.1.2 x.2 due d)
    updateFindingRow ctx x.1.1 (markFinding ctx x.1.2.escalationLevel d.escalationLevel)
    systemRecord ctx (if x.1.2.escalationLevel < d.escalationLevel then "finding.escalated" else "finding.reminder_sent")
      "Finding" x.1.1
    pure 1

/-- One finding; it answers how many reminders were sent. -/
def remindFinding (caeIds partnerIds : List (Option Uuid)) (x : OnEngagement Finding) : Service ℕ :=
  match x.1.2.dueDate with
  | none => pure 0
  | some due => remindFindingIf ctx caeIds partnerIds x due (reminderDecision due x.1.2.lastReminderAt ctx.now)

/-- The findings that are open for action and have a due date. -/
def remindableFindings (db : Db) : List (OnEngagement Finding) :=
  (ctx.findMany db.findings fun _ f =>
    f.deletedAt.isNone && f.status ∈ Findings.actionableStatuses && f.dueDate.isSome).map fun x =>
      (x, related db.engagements (some x.2.engagementId))

/-! ### Requests for documents -/

/-- Whom a reminder of a request tells. -/
def requestRecipients (r : DocumentRequest) (engagement : Option (WithId Engagement)) (level : ℕ) : List (Option Uuid) :=
  [r.assigneeId] ++ (if 1 ≤ level then [some r.requestedById] else []) ++ if 2 ≤ level then [managerOrLead engagement] else []

/-- What it says. -/
def requestNotice (id : Uuid) (r : DocumentRequest) (engagement : Option (WithId Engagement)) (d : ReminderDecision) :
    NotifyInput where
  type := if d.reason = .beforeDue then "request.reminder" else "request.overdue"
  title :=
    if d.reason = .beforeDue then s!"Request {r.reference} {r.title} is due in {d.daysUntilDue} day(s)"
    else s!"Request {r.reference} {r.title} is {d.daysOverdue} day(s) overdue"
  body := some s!"Engagement {auditNumberOf engagement}. Due {isoDate r.dueDate}."
  link := some s!"/requests/{id}"

/-- A request that has been reminded about. -/
def markRequest (r : DocumentRequest) : DocumentRequest := { r with
  reminderCount := r.reminderCount + 1
  lastReminderAt := some ctx.now }

/-- `documentRequest.update` of one row. -/
def updateRequestRow (id : Uuid) (f : DocumentRequest → DocumentRequest) : Service Unit := .call fun db => do
  let (_, requests) ← updateRow ctx db.requests id fun r => .ok (f r)
  return ((), { db with requests })

/-- A request, once it is decided on. -/
def remindRequestIf (x : OnEngagement DocumentRequest) (d : ReminderDecision) : Service ℕ :=
  if !d.remind then pure 0
  else do
    notifyMany ctx (requestRecipients x.1.2 x.2 d.escalationLevel) (requestNotice x.1.1 x.1.2 x.2 d)
    updateRequestRow ctx x.1.1 (markRequest ctx)
    systemRecord ctx "request.reminder_sent" "DocumentRequest" x.1.1
    pure 1

/-- One request; it answers how many reminders were sent. -/
def remindRequest (x : OnEngagement DocumentRequest) : Service ℕ :=
  remindRequestIf ctx x (reminderDecision x.1.2.dueDate x.1.2.lastReminderAt ctx.now)

/-- The requests that are to be answered. -/
def remindableRequests (db : Db) : List (OnEngagement DocumentRequest) :=
  (ctx.findMany db.requests fun _ r => r.status = .opened || r.status = .returned).map fun x =>
    (x, related db.engagements (some x.2.engagementId))

/-! ### Milestones -/

/-- `notify`, about a milestone. -/
def notifyMilestone (milestoneId : Uuid) (userId : Option Uuid) (input : NotifyInput) : Method Unit :=
  match userId with
  | none => pure ()
  | some u => do
    if ← .read fun s => notifiable ctx s.db u then
      .write fun s => { s with
        db := { s.db with
          notifications := ⟨ctx.tenantId, u, input.type, input.title, input.body, input.link⟩ :: s.db.notifications }
        milestoneNotices := ⟨ctx.tenantId, milestoneId, s.clock⟩ :: s.milestoneNotices }
    else pure ()

/-- A week in milliseconds. -/
def weekMs : ℕ := 7 * 86400000

/-- One late milestone; it answers how many alerts were sent: none if there was one in the last week. -/
def alertMilestone (x : OnEngagement EngagementMilestone) : Method ℕ := do
  let recent ← .read fun s => s.milestoneNotices.countP fun n =>
    n.tenantId = ctx.tenantId && n.milestoneId = x.1.1 && ctx.now ≤ n.createdAt + weekMs
  if 0 < recent then pure 0
  else do
    [x.2.bind fun e => e.2.leadId, x.2.bind fun e => e.2.managerId].eraseDups.forM fun u => notifyMilestone ctx x.1.1 u {
      type := "milestone.overdue"
      title := "Milestone \"" ++ x.1.2.name ++
        s!"\" on {auditNumberOf x.2} is {daysSince x.1.2.dueDate ctx.now} day(s) overdue"
      link := some s!"/engagements/{x.1.2.engagementId}" }
    pure 1

/-- The milestones that are late, of engagements that go on. -/
def lateMilestones (s : Agenda) : List (OnEngagement EngagementMilestone) :=
  ((ctx.findMany s.milestones fun _ m => m.completedAt.isNone && m.dueDate < ctx.now).map fun x =>
    (x, related s.db.engagements (some x.2.engagementId))).filter fun x =>
      x.2.any fun e => e.2.deletedAt.isNone && e.2.status = .active

end Tenant

/-! ### The run -/

/-- Something for each element, and the sum of the answers. -/
def sumOver {σ ε α : Type} (f : α → Prog σ ε ℕ) : List α → Prog σ ε ℕ
  | [] => pure 0
  | x :: xs => do
    let n ← f x
    let rest ← sumOver f xs
    pure (n + rest)

/-- What a run answers. -/
structure RunSummary where
  findingReminders : ℕ
  requestReminders : ℕ
  milestoneAlerts : ℕ
  deriving DecidableEq

/-- `runForTenant`. -/
def runForTenant (tenantId : Uuid) (now : Date) : Method RunSummary := do
  let ctx := systemCtx tenantId now
  let caeIds ← .read (contacts ctx .chiefAuditExecutive)
  let partnerIds ← .read (contacts ctx .auditPartner)
  let findings ← .read fun s => remindableFindings ctx s.db
  let findingReminders ← onDb (sumOver (remindFinding ctx caeIds partnerIds) findings)
  let requests ← .read fun s => remindableRequests ctx s.db
  let requestReminders ← onDb (sumOver (remindRequest ctx) requests)
  let milestones ← .read fun s => lateMilestones ctx s
  let milestoneAlerts ← sumOver (alertMilestone ctx) milestones
  pure { findingReminders, requestReminders, milestoneAlerts }

end AuditSphere.Jobs
