import AuditSphere.Common.References
import AuditSphere.Common.Values

/-!
# Dates

The calendar date of an instant, in UTC and the Gregorian calendar. Years are counted
from March, so that the day that may be missing is the last of its year.
-/

namespace AuditSphere

/-- The year, month and day of a day, counted from the first of January 1970. -/
def civil (day : ℕ) : ℕ × ℕ × ℕ :=
  let z := day + 719468
  -- the Gregorian calendar repeats itself every 400 years
  let era := z / 146097
  let dayOfEra := z % 146097
  let yearOfEra := (dayOfEra - dayOfEra / 1460 + dayOfEra / 36524 - dayOfEra / 146096) / 365
  let dayOfYear := dayOfEra - (365 * yearOfEra + yearOfEra / 4 - yearOfEra / 100)
  let month := (5 * dayOfYear + 2) / 153
  (yearOfEra + era * 400 + if month < 10 then 0 else 1, if month < 10 then month + 3 else month - 9,
    dayOfYear - (153 * month + 2) / 5 + 1)

/-- `getUTCFullYear`. -/
def utcFullYear (d : Date) : ℕ := (civil (d / 86400000)).1

/-- The first ten characters of `toISOString`: the date, up to the year 9999. -/
def isoDate (d : Date) : String :=
  let (year, month, day) := civil (d / 86400000)
  let text := (if year ≤ 9999 then pad year 4 else "+" ++ pad year 6) ++ "-" ++ pad month 2 ++ "-" ++ pad day 2
  String.ofList (text.toList.take 10)

/-- `startOfUtcDay`. -/
def startOfUtcDay (d : Date) : Date := d / 86400000 * 86400000

/-- The day on which a month begins, counted like `civil`. Months run from 1. -/
def monthStart (year month : ℕ) : ℕ :=
  let y := if 3 ≤ month then year else year - 1
  let monthOfYear := if 3 ≤ month then month - 3 else month + 9
  y / 400 * 146097 + (y % 400 * 365 + y % 400 / 4 - y % 400 / 100) + (153 * monthOfYear + 2) / 5 - 719468

/-- `addMonths`: the same day so many months later, and as many days more as that month lacks. A date that
`Date` cannot hold is invalid. -/
def addMonths (d : Date) (months : ℕ) : Option Date :=
  let (year, month, day) := civil (d / 86400000)
  let later := year * 12 + (month - 1) + months
  let d' := (monthStart (later / 12) (later % 12 + 1) + (day - 1)) * 86400000 + d % 86400000
  if d' ≤ 8640000000000000 then some d' else none

example : monthStart 1970 1 = 0 ∧ addMonths (19753 * 86400000 + 5) 1 = some (19784 * 86400000 + 5) := by decide

example : civil 0 = (1970, 1, 1) ∧ civil 19782 = (2024, 2, 29) ∧ civil 19783 = (2024, 3, 1) := by decide

end AuditSphere
