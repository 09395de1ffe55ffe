import AuditSphere.Common.Values

/-!
# Ageing

`ageing.ts`: how long a finding has been overdue, and when it is reminded about.
-/

namespace AuditSphere.Shared

/-- A day in milliseconds. -/
def msPerDay : ℤ := 86400000

/-- The whole days from a due date to now, rounded down. -/
def daysSince (dueDate now : Date) : ℤ := ((now : ℤ) - dueDate) / msPerDay

/-- `AGEING_BUCKETS`. -/
def ageingBuckets : List String := ["NOT_DUE", "1-30", "31-60", "61-90", "91-180", "180+"]

/-- `ageingBucket`. -/
def ageingBucket (dueDate : Option Date) (now : Date) : String :=
  match dueDate with
  | none => "NOT_DUE"
  | some due =>
    let days := daysSince due now
    if days ≤ 0 then "NOT_DUE"
    else if days ≤ 30 then "1-30"
    else if days ≤ 60 then "31-60"
    else if days ≤ 90 then "61-90"
    else if days ≤ 180 then "91-180"
    else "180+"

/-- `daysOverdue`. -/
def daysOverdue (dueDate : Option Date) (now : Date) : ℕ :=
  match dueDate with
  | none => 0
  | some due => (daysSince due now).toNat

/-- `escalationLevel`. -/
def escalationLevel (daysOverdueCount : ℕ) : ℕ :=
  if daysOverdueCount = 0 then 0
  else if daysOverdueCount ≤ 14 then 1
  else if daysOverdueCount ≤ 45 then 2
  else 3

/-- The days before a due date on which `REMINDER_SCHEDULE` reminds. -/
def beforeDueDays : List ℤ := [14, 7, 1]

/-- After so many days it reminds again. -/
def afterDueEveryDays : ℤ := 7

end AuditSphere.Shared
