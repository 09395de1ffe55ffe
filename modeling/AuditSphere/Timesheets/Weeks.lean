import AuditSphere.Common.Months
import AuditSphere.Timesheets.Service

/-!
# Weeks

`weekStart` is the Monday of the week in which an instant lies, and `isWithinWeek` checks that
an instant lies in the week of a Monday; for any instant that a `Date` can hold.

`startOfUtcDay` hands the year of an instant to `Date.UTC`, which takes the years from 0 to 99
for those of the twentieth century. The weeks are those of the calendar exactly for the instants
of `inWeeks`: neither they nor the Monday before them lie in such a year, and a `Date` can hold
that Monday and the one after it (`weeks_iff`).
-/

namespace AuditSphere.Utc

open Theory Theory.Calendar

/-! ### Days of a week -/

/-- `Date.UTC`: the years from 0 to 99 are those from 1900 to 1999. -/
def utc (year month date : ℤ) : Option ℤ :=
  timeClip (instant (12 * (if 0 ≤ year ∧ year ≤ 99 then 1900 + year else year) + month) date 0)

/-- `startOfUtcDay`. -/
def startOfUtcDay (d : ℤ) : Option ℤ := utc (getUTCFullYear d) (getUTCMonth d) (getUTCDate d)

/-- `getUTCDay`, from Sunday on. -/
def getUTCDay (d : ℤ) : ℤ := (day d + 4) % 7

/-- `setUTCDate`: days beyond a month are of the months after or before it. -/
def setUTCDate (d date : ℤ) : Option ℤ := timeClip (instant (month d) date (timeWithinDay d))

/-- `addDays`. -/
def addDays (d days : ℤ) : Option ℤ := timeClip (d + days * 86400000)

/-- `weekStart` of an instant. -/
def weekStart (value : ℤ) : Option ℤ := do
  let d ← startOfUtcDay value
  let diff := (getUTCDay d + 6) % 7
  setUTCDate d (getUTCDate d - diff)

/-- `isWithinWeek`; nothing is before an invalid date. -/
def isWithinWeek (date start : ℤ) : Bool := date ≥ start && (addDays start 7).any fun last => date < last

/-- A Monday, at 00:00. -/
def IsMonday (s : ℤ) : Prop := getUTCDay s = 1 ∧ timeWithinDay s = 0

/-! ### The start of a week -/

/-- The Monday of the week of a day. -/
def mondayOf (n : ℤ) : ℤ := n - (n + 3) % 7

theorem mondayOf_bounds (n : ℤ) : mondayOf n ≤ n ∧ n < mondayOf n + 7 ∧ (mondayOf n + 4) % 7 = 1 := by
  simp only [mondayOf]
  omega

/-- A week begins on one Monday. -/
theorem mondayOf_eq {n s : ℤ} (hmonday : (s + 4) % 7 = 1) (hle : s ≤ n) (hlt : n < s + 7) : mondayOf n = s := by
  simp only [mondayOf]
  omega

/-- A later day lies in no earlier week. -/
theorem mondayOf_le {n n' : ℤ} (h : n ≤ n') : mondayOf n ≤ mondayOf n' := by
  simp only [mondayOf]
  omega

/-- The Monday is found from the start of the day. -/
theorem weekStart_of_start {d s : ℤ} (h : startOfUtcDay d = some s) (hs : timeWithinDay s = 0) :
    weekStart d = timeClip (mondayOf (day s) * 86400000) := by
  have hinstant : instant (month s) (getUTCDate s - (getUTCDay s + 6) % 7) (timeWithinDay s) = mondayOf (day s) * 86400000 := by
    have hself := instant_self s
    simp only [instant, hs, getUTCDay, mondayOf] at hself ⊢
    simp only [timeWithinDay, day] at hself hs ⊢
    omega
  rw [weekStart, h, Option.bind_eq_bind, Option.bind_some]
  dsimp only
  rw [setUTCDate, hinstant]

theorem valid_iff {t : ℤ} : valid t = true ↔ -8640000000000000 ≤ t ∧ t ≤ 8640000000000000 := by
  simp only [valid, Bool.and_eq_true, decide_eq_true_eq]

/-- The start of a day is one that a `Date` can hold. -/
theorem valid_startOfDay {d : ℤ} (hd : valid d = true) : valid (day d * 86400000) = true := by
  rw [valid_iff] at hd ⊢
  rw [day]
  omega

/-- The day of an instant begins at midnight, unless its year is taken for another. -/
theorem startOfUtcDay_eq {d : ℤ} (hd : valid d = true) (h : ¬(0 ≤ getUTCFullYear d ∧ getUTCFullYear d ≤ 99)) :
    startOfUtcDay d = some (day d * 86400000) := by
  have hmonth : 12 * getUTCFullYear d + getUTCMonth d = month d := by
    simp only [getUTCFullYear, getUTCMonth]
    omega
  have hinstant : instant (month d) (getUTCDate d) 0 = day d * 86400000 := by
    have hself := instant_self d
    simp only [instant, timeWithinDay, day] at hself ⊢
    omega
  rw [startOfUtcDay, utc, if_neg h, hmonth, hinstant, timeClip_eq_some]
  exact ⟨valid_startOfDay hd, rfl⟩

/-- A month has begun on a day exactly if the day lies in it or in a later one. -/
theorem le_monthOf_iff {m n : ℤ} : m ≤ monthOf n ↔ Calendar.monthStart m ≤ n := by
  obtain ⟨hfrom, huntil⟩ := monthOf_spec n
  constructor
  · intro h
    exact (monthStart_le h).trans hfrom
  · intro h
    by_contra hlt
    have := monthStart_le (show monthOf n + 1 ≤ m by omega)
    omega

/-- The years that `Date.UTC` takes for others last from the first of January 0 to the end of December 99. -/
theorem shortYear_iff {d : ℤ} : (0 ≤ getUTCFullYear d ∧ getUTCFullYear d ≤ 99) ↔ -719528 ≤ day d ∧ day d < -683003 := by
  have hfrom : 0 ≤ monthOf (day d) ↔ -719528 ≤ day d := le_monthOf_iff
  have huntil : 1200 ≤ monthOf (day d) ↔ -683003 ≤ day d := le_monthOf_iff
  rw [getUTCFullYear, month]
  omega

/-- Then the start of the day lies in the twentieth century. -/
theorem startOfUtcDay_short {d s : ℤ} (h : 0 ≤ getUTCFullYear d ∧ getUTCFullYear d ≤ 99) (hs : startOfUtcDay d = some s) :
    timeWithinDay s = 0 ∧ -25567 ≤ day s := by
  rw [startOfUtcDay, utc, if_pos h] at hs
  obtain ⟨-, rfl⟩ := timeClip_eq_some.mp hs
  have hstart : Calendar.monthStart 22800 = -25567 := by decide
  have hle := monthStart_le (show 22800 ≤ 12 * (1900 + getUTCFullYear d) + getUTCMonth d by rw [getUTCMonth]; omega)
  have hdate := (getUTCDate_bounds d).1
  rw [timeWithinDay_instant (by decide) (by decide), day_instant (by decide) (by decide)]
  omega

/-- The week of an instant begins on the Monday before it, unless the year of the instant is taken for another. -/
theorem weekStart_eq {d : ℤ} (hd : valid d = true) (h : ¬(-719528 ≤ day d ∧ day d < -683003)) :
    weekStart d = timeClip (mondayOf (day d) * 86400000) := by
  have hday : day (day d * 86400000) = day d ∧ timeWithinDay (day d * 86400000) = 0 := by
    simp only [day, timeWithinDay]
    omega
  rw [weekStart_of_start (startOfUtcDay_eq hd (shortYear_iff.not.mpr h)) hday.2, hday.1]

/-- Otherwise it is not before the instant. -/
theorem weekStart_short {d r : ℤ} (h : -719528 ≤ day d ∧ day d < -683003) (hr : weekStart d = some r) : d < r := by
  cases hstart : startOfUtcDay d with
  | none =>
    rw [weekStart, hstart] at hr
    cases hr
  | some s =>
    obtain ⟨htime, hfrom⟩ := startOfUtcDay_short (shortYear_iff.mpr h) hstart
    rw [weekStart_of_start hstart htime] at hr
    obtain ⟨-, rfl⟩ := timeClip_eq_some.mp hr
    have := mondayOf_bounds (day s)
    rw [day] at h
    omega

/-! ### What weeks are for -/

/-- What `weekStart` and `isWithinWeek` are to say of an instant. -/
structure HasWeek (d : ℤ) : Prop where
  /-- The week begins on the last Monday before. -/
  monday : ∃ r, weekStart d = some r ∧ IsMonday r ∧ r ≤ d ∧ d < r + 7 * 86400000
  /-- That Monday is the start of its own week. -/
  idempotent : (weekStart d).bind weekStart = weekStart d
  /-- The instant lies within the week of a Monday exactly if its week begins then. -/
  within_iff : ∀ s, valid s = true → IsMonday s → (isWithinWeek d s = true ↔ weekStart d = some s)

/-- What they are to say of two instants. -/
structure HaveWeeks (d e : ℤ) : Prop where
  left : HasWeek d
  right : HasWeek e
  /-- A later instant lies in no earlier week. -/
  mono : ∀ r r', d ≤ e → weekStart d = some r → weekStart e = some r' → r ≤ r'

/-- The instant is not one of the years from 0 to 99 or of the first three days of the year 100, and not one of the
first six days that a `Date` can hold or of the last five and the end. -/
def inWeeks (d : ℤ) : Bool :=
  -99999994 ≤ day d && day d < 99999995 && (day d < -719528 || -683000 ≤ day d)

theorem inWeeks_iff {d : ℤ} : inWeeks d = true ↔
    -99999994 ≤ day d ∧ day d < 99999995 ∧ (day d < -719528 ∨ -683000 ≤ day d) := by
  simp only [inWeeks, Bool.and_eq_true, Bool.or_eq_true, decide_eq_true_eq, and_assoc]

theorem isWithinWeek_iff {d s : ℤ} :
    isWithinWeek d s = true ↔ s ≤ d ∧ valid (s + 7 * 86400000) = true ∧ d < s + 7 * 86400000 := by
  simp only [isWithinWeek, Bool.and_eq_true, Option.any_eq_true, decide_eq_true_eq, addDays, timeClip_eq_some]
  constructor
  · rintro ⟨hle, last, ⟨hvalid, rfl⟩, hlt⟩
    exact ⟨hle, hvalid, hlt⟩
  · rintro ⟨hle, hvalid, hlt⟩
    exact ⟨hle, _, ⟨hvalid, rfl⟩, hlt⟩

/-- A Monday is the start of a day. -/
theorem isMonday_iff {s : ℤ} : IsMonday s ↔ (day s + 4) % 7 = 1 ∧ s = day s * 86400000 := by
  rw [IsMonday, getUTCDay, timeWithinDay, day]
  omega

theorem day_startOfDay (n : ℤ) : day (n * 86400000) = n := by
  rw [day]
  omega

/-- The week of an instant, where there is one. -/
theorem weekStart_inWeeks {d : ℤ} (hd : valid d = true) (h : inWeeks d = true) :
    weekStart d = some (mondayOf (day d) * 86400000) := by
  obtain ⟨hfrom, huntil, hyear⟩ := inWeeks_iff.mp h
  obtain ⟨hle, hlt, hmonday⟩ := mondayOf_bounds (day d)
  rw [weekStart_eq hd (by omega), timeClip_eq_some]
  exact ⟨valid_iff.mpr (by omega), rfl⟩

/-- The instants whose weeks are those of the calendar. -/
theorem hasWeek_iff {d : ℤ} (hd : valid d = true) : HasWeek d ↔ inWeeks d = true := by
  obtain ⟨hle, hlt, hmonday⟩ := mondayOf_bounds (day d)
  have hbounds : day d * 86400000 ≤ d ∧ d < day d * 86400000 + 86400000 := by
    rw [day]
    omega
  constructor
  · rintro ⟨⟨r, hr, hday, hrd, -⟩, hself, hwithin⟩
    -- the instant is not in a year that is taken for another
    have hyear : ¬(-719528 ≤ day d ∧ day d < -683003) := fun h => not_lt.mpr hrd (weekStart_short h hr)
    rw [weekStart_eq hd hyear] at hr
    obtain ⟨hvalid, rfl⟩ := timeClip_eq_some.mp hr
    have hr' := (weekStart_eq hd hyear).trans hr
    -- nor is the Monday before it
    have hyear' : ¬(-719528 ≤ mondayOf (day d) ∧ mondayOf (day d) < -683003) := by
      intro h
      rw [hr', Option.bind_some] at hself
      exact lt_irrefl _ (weekStart_short (by rwa [day_startOfDay]) hself)
    -- the Monday after it is a date
    obtain ⟨-, hnext, -⟩ := isWithinWeek_iff.mp ((hwithin _ hvalid hday).mpr hr')
    rw [valid_iff] at hvalid hnext
    rw [inWeeks_iff]
    omega
  · intro h
    have hweek := weekStart_inWeeks hd h
    obtain ⟨hfrom, huntil, hyear⟩ := inWeeks_iff.mp h
    have hvalid : valid (mondayOf (day d) * 86400000) = true := valid_iff.mpr (by omega)
    refine ⟨⟨_, hweek, ?_, by omega, by omega⟩, ?_, fun s hs hmondays => ?_⟩
    · rw [isMonday_iff, day_startOfDay]
      exact ⟨hmonday, rfl⟩
    · have hmonday' : mondayOf (mondayOf (day d)) = mondayOf (day d) := mondayOf_eq hmonday le_rfl (by omega)
      have hin : inWeeks (mondayOf (day d) * 86400000) = true := by
        rw [inWeeks_iff, day_startOfDay]
        omega
      rw [hweek, Option.bind_some, weekStart_inWeeks hvalid hin, day_startOfDay, hmonday']
    · obtain ⟨hs', hstart⟩ := isMonday_iff.mp hmondays
      rw [hweek, isWithinWeek_iff, Option.some.injEq]
      constructor
      · rintro ⟨hsd, -, hds⟩
        rw [hstart, mondayOf_eq hs' (by omega) (by omega)]
      · intro heq
        rw [← heq]
        exact ⟨by omega, valid_iff.mpr (by omega), by omega⟩

/-- **When weeks partition time**: for the instants of `inWeeks`, and no others. -/
theorem weeks_iff {d e : ℤ} (hd : valid d = true) (he : valid e = true) :
    HaveWeeks d e ↔ inWeeks d = true ∧ inWeeks e = true := by
  rw [← hasWeek_iff hd, ← hasWeek_iff he]
  constructor
  · rintro ⟨hleft, hright, -⟩
    exact ⟨hleft, hright⟩
  · rintro ⟨hleft, hright⟩
    refine ⟨hleft, hright, fun r r' hde hr hr' => ?_⟩
    rw [weekStart_inWeeks hd ((hasWeek_iff hd).mp hleft), Option.some.injEq] at hr
    rw [weekStart_inWeeks he ((hasWeek_iff he).mp hright), Option.some.injEq] at hr'
    have hday : day d ≤ day e := Int.ediv_le_ediv (by decide) hde
    rw [← hr, ← hr']
    exact Int.mul_le_mul_of_nonneg_right (mondayOf_le hday) (by decide)

/-- Two days of a week of 2026. -/
theorem weeks_of_2026 : HaveWeeks (20484 * 86400000) (20485 * 86400000 + 5) :=
  (weeks_iff (by decide) (by decide)).mpr (by decide)

/-- An instant lies in the week of one Monday only. -/
theorem HasWeek.unique {d : ℤ} (hd : valid d = true) (h : HasWeek d) :
    ∃ s, IsMonday s ∧ isWithinWeek d s = true ∧ ∀ s', valid s' = true → IsMonday s' → isWithinWeek d s' = true → s' = s := by
  have hweek := weekStart_inWeeks hd ((hasWeek_iff hd).mp h)
  obtain ⟨r, hr, hmonday, hle, -⟩ := h.monday
  have hvalid : valid r = true := by
    have hbounds := mondayOf_bounds (day d)
    have hin := inWeeks_iff.mp ((hasWeek_iff hd).mp h)
    rw [hweek, Option.some.injEq] at hr
    rw [← hr, valid_iff]
    omega
  refine ⟨r, hmonday, (h.within_iff r hvalid hmonday).mpr hr, fun s' hs' hmonday' hwithin => ?_⟩
  exact Option.some.inj (((h.within_iff s' hs' hmonday').mp hwithin).symm.trans hr)

/-- The 15th of June of the year 50 lies, by `weekStart`, in a week of 1950. -/
theorem week_of_1950 : valid (-701100 * 86400000) = true ∧ getUTCFullYear (-701100 * 86400000) = 50 ∧
    weekStart (-701100 * 86400000) = some (-7143 * 86400000) ∧ ¬HaveWeeks (-701100 * 86400000) (-701100 * 86400000) := by
  have hweek : weekStart (-701100 * 86400000) = some (-7143 * 86400000) := by decide +kernel
  refine ⟨by decide, by decide +kernel, hweek, ?_⟩
  rintro ⟨⟨⟨r, hr, -, hle, -⟩, -, -⟩, -, -⟩
  rw [hweek, Option.some.injEq] at hr
  rw [← hr] at hle
  exact absurd hle (by decide)

/-- **On the instants from 1970 on** the check of an entry is the one that the services make, up to the last week that
a `Date` can hold. -/
theorem isWithinWeek_natCast (d s : ℕ) (hs : s + 7 * 86400000 ≤ 8640000000000000) :
    isWithinWeek d s = Timesheets.isWithinWeek d s := by
  rw [Bool.eq_iff_iff, isWithinWeek_iff, valid_iff, Timesheets.isWithinWeek, Bool.and_eq_true, decide_eq_true_eq,
    decide_eq_true_eq]
  change _ ↔ s ≤ d ∧ d < s + 7 * 86400000
  omega

end AuditSphere.Utc
