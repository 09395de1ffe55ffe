import AuditSphere.Common.Dates
import AuditSphere.Db.Client
import AuditSphere.Theory.Follow
import AuditSphere.Theory.Transactions

/-!
# Timesheets

`ResourcesService`, as far as timesheets go. The owner of a sheet enters hours while it is open
or rejected; each change of an entry recalculates the total in one transaction. The sheet is
submitted, and approved or rejected by someone else.

Its own checks each method makes first, outside the transaction.
-/

namespace AuditSphere.Timesheets

open Prisma Theory Shared

/-! ### Rows -/

/-- The status of a timesheet. -/
inductive TimesheetStatus where
  | opened | submitted | approved | rejected
  deriving DecidableEq

/-- As it is stored. -/
def TimesheetStatus.text : TimesheetStatus → String
  | .opened => "OPEN"
  | .submitted => "SUBMITTED"
  | .approved => "APPROVED"
  | .rejected => "REJECTED"

/-- The timesheet of a user for a week. The total is in hundredths of an hour. -/
structure Timesheet where
  tenantId : Uuid
  userId : Uuid
  weekStart : Date
  status : TimesheetStatus
  totalHours : ℕ
  submittedAt : Option Date
  approvedById : Option Uuid
  approvedAt : Option Date
  rejectReason : Option String
  deriving DecidableEq

/-- An entry of a timesheet. Its hours are in hundredths. -/
structure TimeEntry where
  tenantId : Uuid
  timesheetId : Uuid
  engagementId : Option Uuid
  chargeCodeId : Uuid
  date : Date
  hours : ℕ
  notes : Option String
  deriving DecidableEq

/-- A charge code. -/
structure ChargeCode where
  tenantId : Uuid
  code : String
  name : String
  isBillable : Bool
  isActive : Bool
  deriving DecidableEq

/-- The database, with the tables of timesheets. A uuid is not drawn twice for an entry. -/
structure Books where
  db : Db
  timesheets : Table Uuid Timesheet
  entries : Register Uuid TimeEntry
  chargeCodes : Table Uuid ChargeCode

instance : TenantRow Timesheet := ⟨.timesheet, fun r => some r.tenantId⟩
instance : TenantRow TimeEntry := ⟨.timeEntry, fun r => some r.tenantId⟩
instance : TenantRow ChargeCode := ⟨.chargeCode, fun r => some r.tenantId⟩

/-- A method. -/
abbrev Method (α : Type) := Prog Books HttpError α

/-- A program on the rest of the database. -/
def onDb {α : Type} (p : Service α) : Method α := p.embed Books.db (fun b db => { b with db }) id

/-! ### Requests -/

/-- The hours that an entry may have. -/
abbrev Hours := { q : ℚ // 1 / 4 ≤ q ∧ q ≤ 24 }

/-- The hours as they are stored, in hundredths. -/
def hundredths (h : Hours) : ℕ := (h.val * 100 + 1 / 2).floor.toNat

/-- `CreateTimeEntryDto`. -/
structure CreateTimeEntryDto where
  date : Date
  chargeCodeId : Uuid
  engagementId : Field Uuid := none
  hours : Hours
  notes : Field String := none

/-- `UpdateTimeEntryDto`. -/
structure UpdateTimeEntryDto where
  date : Field Date := none
  chargeCodeId : Field Uuid := none
  engagementId : Field Uuid := none
  hours : Field Hours := none
  notes : Field String := none

/-- `startOfUtcDay`. -/
def startOfUtcDay (d : Date) : Date := d / 86400000 * 86400000

/-- The day of an update, if it gives one. -/
def UpdateTimeEntryDto.day (dto : UpdateTimeEntryDto) : Option Date := dto.date.orNull.map startOfUtcDay

/-- What the supplied properties make of an entry; a null date is left out. -/
def UpdateTimeEntryDto.apply (dto : UpdateTimeEntryDto) (e : TimeEntry) : Except HttpError TimeEntry :=
  match dto.chargeCodeId.onRequired e.chargeCodeId, Field.onRequired (dto.hours.map (Option.map hundredths)) e.hours with
  | some chargeCodeId, some hours => .ok { e with
      date := dto.day.getD e.date
      chargeCodeId
      engagementId := dto.engagementId.onNullable e.engagementId
      hours
      notes := dto.notes.onNullable e.notes }
  | _, _ => .error (.prisma .validation)

/-- `isWithinWeek`. -/
def isWithinWeek (date start : Date) : Bool := start ≤ date && date < start + 7 * 86400000

/-! ### Views -/

/-- An entry with its charge code and engagement. -/
structure EntryView where
  row : WithId TimeEntry
  chargeCode : Option (WithId ChargeCode)
  engagement : Option (WithId Engagement)

/-- The row with what is included. -/
def entryView (b : Books) (row : WithId TimeEntry) : EntryView where
  row
  chargeCode := related b.chargeCodes (some row.2.chargeCodeId)
  engagement := related b.db.engagements row.2.engagementId

/-- A timesheet with what `TIMESHEET_INCLUDE` adds. -/
structure TimesheetView where
  row : WithId Timesheet
  user : Option (WithId User)
  approvedBy : Option (WithId User)
  entries : List EntryView

/-- The row with what `TIMESHEET_INCLUDE` adds: entries by date, and then in the order of their creation. -/
def view (b : Books) (row : WithId Timesheet) : TimesheetView where
  row
  user := related b.db.users (some row.2.userId)
  approvedBy := related b.db.users row.2.approvedById
  entries := ((b.entries.table.rows fun _ e => e.timesheetId = row.1).reverse.mergeSort
    fun e e' => e.2.date ≤ e'.2.date).map (entryView b)

/-! ### Checks -/

/-- `assertTimesheet`. -/
def assertTimesheet (ctx : Ctx) (id : Uuid) : Method Timesheet := do
  let sheet ← .read fun b => ctx.findById b.timesheets id fun _ => true
  match sheet with
  | none => throw (.notFound "Timesheet not found")
  | some sheet => pure sheet

/-- The sheet may be edited, or submitted. -/
def editable (status : TimesheetStatus) : Bool := status ∈ [.opened, .rejected]

/-- `assertCanEditOwn`. -/
def assertCanEditOwn (ctx : Ctx) (sheet : Timesheet) : Except HttpError Unit :=
  if sheet.userId ≠ ctx.userId then .error (.forbidden "Only the timesheet owner can edit entries")
  else if !editable sheet.status then
    .error (.conflict s!"Timesheet in status {sheet.status.text} cannot be edited")
  else .ok ()

/-- `assertChargeCode`. -/
def assertChargeCode (ctx : Ctx) (id : Uuid) : Method Unit := do
  let code ← .read fun b => ctx.findById b.chargeCodes id fun c => c.isActive
  if code.isNone then throw (.badRequest "Charge code not found") else pure ()

/-- `assertEngagement`. -/
def assertEngagement (ctx : Ctx) (id : Uuid) : Method Unit := do
  let engagement ← .read fun b => ctx.findById b.db.engagements id fun e => e.deletedAt.isNone
  if engagement.isNone then throw (.badRequest "Engagement not found") else pure ()

/-- A check of what is given, if it is. -/
def ifGiven (id : Option Uuid) (assert : Uuid → Method Unit) : Method Unit :=
  match id with
  | none => pure ()
  | some i => assert i

/-! ### Writes -/

/-- The foreign keys of an entry. -/
def constrained (b : Books) (e : TimeEntry) : Except HttpError Unit :=
  if refersTo b.timesheets (some e.timesheetId) && refersTo b.chargeCodes (some e.chargeCodeId) &&
      refersTo b.db.engagements e.engagementId then .ok ()
  else .error (.prisma .p2003)

/-- `timeEntry.create`. -/
def insertEntry (id : Uuid) (e : TimeEntry) (b : Books) : Except HttpError (Unit × Books) := do
  constrained b e
  match b.entries.insert id e with
  | none => .error (.prisma .p2002)
  | some entries => .ok ((), { b with entries })

/-- `timeEntry.update` of one entry. -/
def updateEntryRow (ctx : Ctx) (id : Uuid) (dto : UpdateTimeEntryDto) (b : Books) : Except HttpError (Unit × Books) :=
  match ctx.findById b.entries.table id fun _ => true with
  | none => .error (.prisma .p2025)
  | some e => do
    let e' ← dto.apply e
    constrained b e'
    .ok ((), { b with entries := b.entries.modify (fun j _ => j = id) fun _ => e' })

/-- `timeEntry.delete` of one entry. -/
def deleteEntryRow (ctx : Ctx) (id : Uuid) (b : Books) : Except HttpError (Unit × Books) :=
  if (ctx.findById b.entries.table id fun _ => true).isNone then .error (.prisma .p2025)
  else .ok ((), { b with entries := b.entries.remove fun j _ => j = id })

/-- The hours of the entries of a sheet. -/
def hoursOf (ctx : Ctx) (b : Books) (timesheetId : Uuid) : ℕ :=
  ((ctx.findMany b.entries.table fun _ e => e.timesheetId = timesheetId).map fun e => e.2.hours).sum

/-- `timesheet.update` of the total, which has four digits before the point. -/
def setTotal (ctx : Ctx) (timesheetId : Uuid) (total : ℕ) (b : Books) : Except HttpError (Unit × Books) :=
  if 999999 < total then .error (.internal "numeric field overflow")
  else do
    let (_, timesheets) ← updateRow ctx b.timesheets timesheetId fun t => .ok { t with totalHours := total }
    .ok ((), { b with timesheets })

/-- `recalculateTotal`. -/
def recalculateTotal (ctx : Ctx) (timesheetId : Uuid) : Txn Books HttpError Unit := do
  let total ← .query fun b => hoursOf ctx b timesheetId
  .exec (setTotal ctx timesheetId total)

/-- The transaction of a change of an entry: the change, and the total. -/
def changing (ctx : Ctx) (timesheetId : Uuid) (change : Books → Except HttpError (Unit × Books)) : Method Unit :=
  Txn.committed do
    Txn.exec change
    recalculateTotal ctx timesheetId

/-- `timesheet.update` of one sheet. -/
def updateSheet (ctx : Ctx) (id : Uuid) (f : Timesheet → Timesheet) : Method TimesheetView := .call fun b => do
  let (t, timesheets) ← updateRow ctx b.timesheets id fun t => .ok (f t)
  .ok (view { b with timesheets } (id, t), { b with timesheets })

/-! ### Entries -/

/-- The row of a new entry. -/
def newEntry (ctx : Ctx) (timesheetId : Uuid) (dto : CreateTimeEntryDto) : TimeEntry where
  tenantId := ctx.tenantId
  timesheetId
  engagementId := dto.engagementId.orNull
  chargeCodeId := dto.chargeCodeId
  date := startOfUtcDay dto.date
  hours := hundredths dto.hours
  notes := dto.notes.orNull

/-- The entry as it is answered. -/
def findEntry (ctx : Ctx) (id : Uuid) : Method (Option EntryView) :=
  .read fun b => (ctx.findById b.entries.table id fun _ => true).map fun e => entryView b (id, e)

/-- `createEntry`, once the sheet is checked. -/
def createChecked (ctx : Ctx) (timesheetId : Uuid) (dto : CreateTimeEntryDto) : Method (Option EntryView) := do
  assertChargeCode ctx dto.chargeCodeId
  ifGiven dto.engagementId.orNull (assertEngagement ctx)
  changing ctx timesheetId (insertEntry (ctx.uuid 0) (newEntry ctx timesheetId dto))
  let after ← findEntry ctx (ctx.uuid 0)
  onDb (auditRecord ctx "time_entry.created" "TimeEntry" (ctx.uuid 0))
  pure after

/-- `createEntry`. -/
def createEntry (ctx : Ctx) (timesheetId : Uuid) (dto : CreateTimeEntryDto) : Method (Option EntryView) := do
  let sheet ← assertTimesheet ctx timesheetId
  match assertCanEditOwn ctx sheet with
  | .error e => throw e
  | .ok () =>
    if !isWithinWeek (startOfUtcDay dto.date) sheet.weekStart then
      throw (.badRequest "Entry date must fall within the timesheet week")
    else createChecked ctx timesheetId dto

/-- An entry with its timesheet. -/
def findWithSheet (ctx : Ctx) (id : Uuid) : Method (TimeEntry × Timesheet) := do
  let before ← .read fun b => (ctx.findById b.entries.table id fun _ => true).bind fun e =>
    (b.timesheets.find e.timesheetId).map fun t => (e, t)
  match before with
  | none => throw (.notFound "Time entry not found")
  | some before => pure before

/-- `updateEntry`, once the sheet is checked. -/
def updateChecked (ctx : Ctx) (id timesheetId : Uuid) (dto : UpdateTimeEntryDto) : Method (Option EntryView) := do
  ifGiven dto.chargeCodeId.orNull (assertChargeCode ctx)
  ifGiven dto.engagementId.orNull (assertEngagement ctx)
  changing ctx timesheetId (updateEntryRow ctx id dto)
  onDb (auditRecord ctx "time_entry.updated" "TimeEntry" id)
  findEntry ctx id

/-- `updateEntry`. -/
def updateEntry (ctx : Ctx) (id : Uuid) (dto : UpdateTimeEntryDto) : Method (Option EntryView) := do
  let (before, sheet) ← findWithSheet ctx id
  match assertCanEditOwn ctx sheet with
  | .error e => throw e
  | .ok () =>
    if dto.day.any fun date => !isWithinWeek date sheet.weekStart then
      throw (.badRequest "Entry date must fall within the timesheet week")
    else updateChecked ctx id before.timesheetId dto

/-- `deleteEntry`. -/
def deleteEntry (ctx : Ctx) (id : Uuid) : Method Unit := do
  let (before, sheet) ← findWithSheet ctx id
  match assertCanEditOwn ctx sheet with
  | .error e => throw e
  | .ok () => do
    changing ctx before.timesheetId (deleteEntryRow ctx id)
    onDb (auditRecord ctx "time_entry.deleted" "TimeEntry" id)

/-! ### Submission and approval -/

/-- A submitted sheet. -/
def submitted (ctx : Ctx) (t : Timesheet) : Timesheet :=
  { t with status := .submitted, submittedAt := some ctx.now, rejectReason := none }

/-- An approved sheet. -/
def approved (ctx : Ctx) (t : Timesheet) : Timesheet :=
  { t with status := .approved, approvedById := some ctx.userId, approvedAt := some ctx.now, rejectReason := none }

/-- A rejected sheet. -/
def rejected (reason : String) (t : Timesheet) : Timesheet :=
  { t with status := .rejected, rejectReason := some reason, approvedById := none, approvedAt := none }

/-- `submit`. -/
def submit (ctx : Ctx) (id : Uuid) : Method TimesheetView := do
  let before ← assertTimesheet ctx id
  if before.userId ≠ ctx.userId then throw (.forbidden "Only the timesheet owner can submit it")
  else if !editable before.status then
    throw (.conflict s!"Timesheet in status {before.status.text} cannot be submitted")
  else if before.totalHours = 0 then throw (.badRequest "Timesheet has no time entries")
  else do
    let after ← updateSheet ctx id (submitted ctx)
    onDb (auditRecord ctx "timesheet.submitted" "Timesheet" id)
    pure after

/-- `approve`. -/
def approve (ctx : Ctx) (id : Uuid) : Method TimesheetView :=
  if !ctx.hasPermission .timeApprove then throw (.forbidden "Missing time approval permission")
  else do
    let before ← assertTimesheet ctx id
    if before.userId = ctx.userId then throw (.forbidden "You cannot approve your own timesheet")
    else if before.status ≠ .submitted then throw (.conflict "Only submitted timesheets can be approved")
    else do
      let after ← updateSheet ctx id (approved ctx)
      onDb (auditRecord ctx "timesheet.approved" "Timesheet" id)
      pure after

/-- `reject`. -/
def reject (ctx : Ctx) (id : Uuid) (reason : String) : Method TimesheetView :=
  if !ctx.hasPermission .timeApprove then throw (.forbidden "Missing time approval permission")
  else do
    let before ← assertTimesheet ctx id
    if before.userId = ctx.userId then throw (.forbidden "You cannot reject your own timesheet")
    else if before.status ≠ .submitted then throw (.conflict "Only submitted timesheets can be rejected")
    else do
      let after ← updateSheet ctx id (rejected reason)
      onDb (auditRecord ctx "timesheet.rejected" "Timesheet" id)
      pure after

/-! ### All requests -/

/-- A request for timesheets, with its user. -/
inductive Request where
  | createEntry (ctx : Ctx) (timesheetId : Uuid) (dto : CreateTimeEntryDto)
  | updateEntry (ctx : Ctx) (id : Uuid) (dto : UpdateTimeEntryDto)
  | deleteEntry (ctx : Ctx) (id : Uuid)
  | submit (ctx : Ctx) (id : Uuid)
  | approve (ctx : Ctx) (id : Uuid)
  | reject (ctx : Ctx) (id : Uuid) (reason : String)

/-- What a request answers. -/
inductive Response where
  | entry (e : Option EntryView)
  | deleted
  | sheet (t : TimesheetView)

/-- The user who makes the request. -/
def Request.ctx : Request → Ctx
  | .createEntry ctx .. | .updateEntry ctx .. | .deleteEntry ctx .. | .submit ctx .. | .approve ctx .. |
    .reject ctx .. => ctx

/-- The permission that the route asks for. -/
def Request.permission : Request → PermissionKey
  | .createEntry .. | .updateEntry .. | .deleteEntry .. | .submit .. => .timeOwn
  | .approve .. | .reject .. => .timeApprove

/-- The controller: the user must hold the permission of the route. -/
def serve (r : Request) : Method Response :=
  if !r.ctx.hasPermission r.permission then throw (.forbidden s!"Missing permission: {r.permission.key}")
  else match r with
    | .createEntry ctx timesheetId dto => do return .entry (← createEntry ctx timesheetId dto)
    | .updateEntry ctx id dto => do return .entry (← updateEntry ctx id dto)
    | .deleteEntry ctx id => do
      deleteEntry ctx id
      return .deleted
    | .submit ctx id => do return .sheet (← submit ctx id)
    | .approve ctx id => do return .sheet (← approve ctx id)
    | .reject ctx id reason => do return .sheet (← reject ctx id reason)

end AuditSphere.Timesheets
