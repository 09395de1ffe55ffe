import AuditSphere.Common.Dates
import AuditSphere.Theory.Calendar

/-!
# Adding months

`addMonths` hands the sum of a month and a number of months to `setUTCMonth`, for
any instant that a `Date` can hold and any integer. That method keeps the day of
the month and lets a day that the month lacks run over into the next one: the
31st of January and a month make the 2nd or the 3rd of March. The sum is the
instant the calendar gives exactly when the month has the day and a `Date` can
hold the result (`addMonths_iff`); for those instants adding months is monotone.

`addMonths_natCast` identifies this with the function that the services use on
the instants from 1970 on.
-/

namespace AuditSphere.Utc

open Theory Theory.Calendar

/-! ### Instants -/

/-- An instant, in milliseconds from 1970, that a `Date` can hold. -/
def valid (t : ℤ) : Bool := -8640000000000000 ≤ t && t ≤ 8640000000000000

/-- `TimeClip`: what a `Date` cannot hold is invalid. -/
def timeClip (t : ℤ) : Option ℤ := if valid t then some t else none

/-- The day of an instant. -/
def day (t : ℤ) : ℤ := t / 86400000

/-- The time of day of an instant. -/
def timeWithinDay (t : ℤ) : ℤ := t % 86400000

/-- The calendar month of an instant, counted from January of the year 0. -/
def month (t : ℤ) : ℤ := monthOf (day t)

/-- `getUTCFullYear`. -/
def getUTCFullYear (t : ℤ) : ℤ := month t / 12

/-- `getUTCMonth`. -/
def getUTCMonth (t : ℤ) : ℤ := month t % 12

/-- `getUTCDate`. -/
def getUTCDate (t : ℤ) : ℤ := dayOfMonth (day t)

/-- The instant of a time on a day of a month, or on the day so many days after the first. -/
def instant (m date time : ℤ) : ℤ := (Calendar.monthStart m + date - 1) * 86400000 + time

/-- `setUTCMonth`: months beyond a year are of the years after or before it. -/
def setUTCMonth (t m : ℤ) : Option ℤ :=
  timeClip (instant (12 * (getUTCFullYear t + m / 12) + m % 12) (getUTCDate t) (timeWithinDay t))

/-- `addMonths`. -/
def addMonths (d months : ℤ) : Option ℤ := setUTCMonth d (getUTCMonth d + months)

theorem timeClip_eq_some {t r : ℤ} : timeClip t = some r ↔ valid t = true ∧ t = r := by
  unfold timeClip
  split <;> simp_all

theorem addMonths_eq (d months : ℤ) :
    addMonths d months = timeClip (instant (month d + months) (getUTCDate d) (timeWithinDay d)) := by
  have hmonth : 12 * (getUTCFullYear d + (getUTCMonth d + months) / 12) + (getUTCMonth d + months) % 12 = month d + months := by
    simp only [getUTCFullYear, getUTCMonth]
    omega
  rw [addMonths, setUTCMonth, hmonth]

/-- An instant is the time of day on its day of its month. -/
theorem instant_self (d : ℤ) : instant (month d) (getUTCDate d) (timeWithinDay d) = d := by
  obtain ⟨-, -, hday⟩ := dayOfMonth_spec (day d)
  rw [instant, month, getUTCDate, ← hday, day, timeWithinDay]
  omega

theorem getUTCDate_bounds (d : ℤ) : 1 ≤ getUTCDate d ∧ getUTCDate d ≤ monthLength (month d) :=
  ⟨(dayOfMonth_spec (day d)).1, (dayOfMonth_spec (day d)).2.1⟩

theorem timeWithinDay_bounds (d : ℤ) : 0 ≤ timeWithinDay d ∧ timeWithinDay d < 86400000 := by
  rw [timeWithinDay]
  omega

section Instant

variable {m date time : ℤ}

theorem day_instant (h : 0 ≤ time) (h' : time < 86400000) : day (instant m date time) = Calendar.monthStart m + date - 1 := by
  rw [day, instant]
  omega

theorem timeWithinDay_instant (h : 0 ≤ time) (h' : time < 86400000) : timeWithinDay (instant m date time) = time := by
  rw [timeWithinDay, instant]
  omega

/-- A day that the month has lies in the month. -/
theorem month_instant_iff (hdate : 1 ≤ date) (h : 0 ≤ time) (h' : time < 86400000) :
    month (instant m date time) = m ↔ date ≤ monthLength m := by
  rw [month, day_instant h h', monthOf_eq_iff]
  omega

theorem getUTCDate_instant (hdate : 1 ≤ date) (hlength : date ≤ monthLength m) (h : 0 ≤ time) (h' : time < 86400000) :
    getUTCDate (instant m date time) = date := by
  have hmonth := (month_instant_iff hdate h h').mpr hlength
  rw [getUTCDate, dayOfMonth, ← month, hmonth, day_instant h h']
  omega

end Instant

/-! ### What adding months is for -/

/-- What `addMonths` is to do with an instant and a number of months. -/
structure AddsMonths (d months : ℤ) : Prop where
  /-- The sum lies so many months later, at the same time of day, on the same day of the month or, if the month lacks
  it, on its last day. -/
  sum : ∃ r, addMonths d months = some r ∧ month r = month d + months ∧ timeWithinDay r = timeWithinDay d ∧
    getUTCDate r = min (getUTCDate d) (monthLength (month d + months))
  /-- A later instant or more months make no earlier sum. -/
  mono : ∀ r d' months' r', addMonths d months = some r → valid d' = true → d ≤ d' → months ≤ months' →
    addMonths d' months' = some r' → r ≤ r'

/-- The month has the day, and a `Date` can hold the instant. -/
def fits (d months : ℤ) : Bool :=
  getUTCDate d ≤ monthLength (month d + months) &&
    valid (instant (month d + months) (getUTCDate d) (timeWithinDay d))

/-- An instant of a month is before every later month. -/
theorem instant_lt {m m' date date' time time' : ℤ} (hlength : date ≤ monthLength m) (hm : m < m')
    (ht : time < 86400000) (hdate' : 1 ≤ date') (ht' : 0 ≤ time') : instant m date time < instant m' date' time' := by
  have hnext := monthStart_le (show m + 1 ≤ m' from hm)
  rw [monthStart_succ] at hnext
  simp only [instant]
  omega

theorem month_le {d d' : ℤ} (h : d ≤ d') : month d ≤ month d' := by
  by_contra hlt
  have := instant_lt (getUTCDate_bounds d').2 (not_le.mp hlt) (timeWithinDay_bounds d').2 (getUTCDate_bounds d).1
    (timeWithinDay_bounds d).1
  rw [instant_self, instant_self] at this
  exact absurd h (not_le.mpr this)

/-- **When `addMonths` adds months**: the month has the day, and a `Date` can hold the instant. -/
theorem addMonths_iff (d months : ℤ) : AddsMonths d months ↔ fits d months = true := by
  obtain ⟨hdate, -⟩ := getUTCDate_bounds d
  obtain ⟨ht, ht'⟩ := timeWithinDay_bounds d
  simp only [fits, Bool.and_eq_true, decide_eq_true_eq]
  constructor
  · rintro ⟨⟨r, hr, hmonth, -, -⟩, -⟩
    rw [addMonths_eq] at hr
    obtain ⟨hvalid, rfl⟩ := timeClip_eq_some.mp hr
    exact ⟨(month_instant_iff hdate ht ht').mp hmonth, hvalid⟩
  · rintro ⟨hlength, hvalid⟩
    have hsum : addMonths d months = some (instant (month d + months) (getUTCDate d) (timeWithinDay d)) := by
      rw [addMonths_eq]
      exact timeClip_eq_some.mpr ⟨hvalid, rfl⟩
    refine ⟨⟨_, hsum, (month_instant_iff hdate ht ht').mpr hlength, timeWithinDay_instant ht ht', ?_⟩, ?_⟩
    · rw [getUTCDate_instant hdate hlength ht ht', min_eq_left hlength]
    · rintro r d' months' r' hr - hd hmonths hr'
      rw [hsum, Option.some.injEq] at hr
      rw [addMonths_eq] at hr'
      obtain ⟨-, rfl⟩ := timeClip_eq_some.mp hr'
      subst hr
      rcases lt_or_eq_of_le (add_le_add (month_le hd) hmonths) with hlt | heq
      · exact (instant_lt hlength hlt ht' (getUTCDate_bounds d').1 (timeWithinDay_bounds d').1).le
      · -- The two lie in one month, and so do the sums.
        have hm : month d = month d' := by
          have := month_le hd
          omega
        have hself := instant_self d
        have hself' := instant_self d'
        rw [← heq]
        rw [← hm] at hself'
        simp only [instant] at hself hself' ⊢
        omega

/-- A month after the 31st of January 2026 is the 3rd of March, and a month after the day after it is the 1st. -/
theorem addMonths_overflows : valid (20484 * 86400000) = true ∧ ¬AddsMonths (20484 * 86400000) 1 ∧
    addMonths (20484 * 86400000) 1 = some (20515 * 86400000) ∧
    addMonths (20485 * 86400000) 1 = some (20513 * 86400000) := by
  have hsum : addMonths (20484 * 86400000) 1 = some (20515 * 86400000) := by decide +kernel
  refine ⟨by decide, ?_, hsum, by decide +kernel⟩
  rintro ⟨⟨r, hr, hmonth, -⟩, -⟩
  rw [hsum, Option.some.injEq] at hr
  rw [← hr] at hmonth
  exact absurd hmonth (by decide +kernel)

/-! ### From 1970 on -/

/-- The year of an era of 400 years that a day of the era lies in. -/
theorem yearOfEra_spec {day y : ℕ} (h : day < 146097)
    (hy : y = (day - day / 1460 + day / 36524 - day / 146096) / 365) : y < 400 ∧
    365 * y + y / 4 - y / 100 ≤ day ∧ day < 365 * (y + 1) + (y + 1) / 4 - (y + 1) / 100 + (y + 1) / 400 := by
  obtain ⟨a, ha⟩ : ∃ a, a = day / 1460 := ⟨_, rfl⟩
  obtain ⟨b, hb⟩ : ∃ b, b = day / 36524 := ⟨_, rfl⟩
  obtain ⟨c, hc⟩ : ∃ c, c = day / 146096 := ⟨_, rfl⟩
  rw [← ha, ← hb, ← hc] at hy
  -- the last day of the era, or one of four centuries
  have hcentury : c = 0 ∧ b < 4 ∨ c = 1 ∧ day = 146096 := by omega
  rcases hcentury with ⟨rfl, hlt⟩ | ⟨rfl, rfl⟩
  · have hab : b ≤ a := by omega
    have hyears : 100 * b ≤ y ∧ y < 100 * b + 100 := by
      have hb4 : b = 0 ∨ b = 1 ∨ b = 2 ∨ b = 3 := by omega
      rcases hb4 with h | h | h | h <;> subst h <;> omega
    have hhundred : y / 100 = b := by omega
    have hfrom : y / 4 ≤ a := by omega
    have huntil : a ≤ (y + 1) / 4 := by omega
    refine ⟨by omega, by omega, ?_⟩
    by_cases hlast : y + 1 = 100 * (b + 1)
    · omega
    · have hhundred' : (y + 1) / 100 = b := by omega
      omega
  · omega

/-- The year of an era begins after the years before it. -/
theorem yearStart_era {y : ℕ} (e : ℕ) (h : y < 400) :
    yearStart (y + e * 400) = e * 146097 + (365 * y + y / 4 - y / 100 : ℕ) - 719468 := by
  simp only [yearStart]
  omega

theorem yearStart_era_succ {y : ℕ} (e : ℕ) : yearStart (y + e * 400 + 1) =
    e * 146097 + (365 * (y + 1) + (y + 1) / 4 - (y + 1) / 100 + (y + 1) / 400 : ℕ) - 719468 := by
  simp only [yearStart]
  omega

/-- There are twelve months from March on. -/
theorem march_lt {x : ℕ} (h : x < 366) : (((5 * x + 2) / 153 : ℕ) : ℤ) < 12 := by
  omega

/-- The parts of a date are those of the calendar. -/
theorem civil_eq (n : ℕ) : ((civil n).1 : ℤ) = monthOf n / 12 ∧ ((civil n).2.1 : ℤ) = monthOf n % 12 + 1 ∧
    ((civil n).2.2 : ℤ) = dayOfMonth n := by
  obtain ⟨e, he⟩ : ∃ e, e = (n + 719468) / 146097 := ⟨_, rfl⟩
  obtain ⟨d, hd⟩ : ∃ d, d = (n + 719468) % 146097 := ⟨_, rfl⟩
  obtain ⟨y, hy⟩ : ∃ y, y = (d - d / 1460 + d / 36524 - d / 146096) / 365 := ⟨_, rfl⟩
  obtain ⟨start, hstart⟩ : ∃ start, start = 365 * y + y / 4 - y / 100 := ⟨_, rfl⟩
  obtain ⟨next, hnext⟩ : ∃ next, next = 365 * (y + 1) + (y + 1) / 4 - (y + 1) / 100 + (y + 1) / 400 := ⟨_, rfl⟩
  obtain ⟨k, hk⟩ : ∃ k, k = (5 * (d - start) + 2) / 153 := ⟨_, rfl⟩
  have hcivil : civil n = (y + e * 400 + if k < 10 then 0 else 1, if k < 10 then k + 3 else k - 9,
      d - start - (153 * k + 2) / 5 + 1) := by
    rw [hk, hstart, hy, hd, he]
    rfl
  have hday : (n : ℤ) = e * 146097 + d - 719468 := by
    rw [hd, he]
    omega
  obtain ⟨hlt, hfrom, huntil⟩ := yearOfEra_spec (hd ▸ Nat.mod_lt _ (by decide)) hy
  have hyear := yearStart_era e hlt
  have hyear' := @yearStart_era_succ y e
  rw [← hstart] at hfrom hyear
  rw [← hnext] at huntil hyear'
  clear hy hstart hnext he hd
  have hof : yearOf n = y + e * 400 := yearOf_eq (by omega) (by omega)
  have hlong := yearStart_lt (y + e * 400)
  have hx : (n : ℤ) - yearStart (y + e * 400) = (d - start : ℕ) := by omega
  have hmonth : monthOf n = 12 * (y + e * 400) + k + 2 := by
    rw [monthOf, hof, hx, hk]
    omega
  have hdays : d - start < 366 := by
    have hshort : next ≤ start + 366 := by omega
    clear hk hx hmonth hcivil hof
    omega
  have hx' : (n : ℤ) = yearStart (y + e * 400) + (d - start : ℕ) := by omega
  rw [hcivil, dayOfMonth, hmonth, monthStart_march (Int.natCast_nonneg k) (hk ▸ march_lt hdays), marchStart, hx']
  clear hcivil hday hfrom huntil hyear hyear' hof hlong hx hx' hmonth
  generalize d - start = x at *
  have hk' : k < 12 := by omega
  dsimp only
  refine ⟨?_, ?_, ?_⟩
  · split <;> omega
  · split <;> omega
  · omega

/-- The first day of a year, counted from March of the year 0. -/
theorem yearStart_natCast (y : ℕ) :
    ((y / 400 * 146097 + (y % 400 * 365 + y % 400 / 4 - y % 400 / 100) : ℕ) : ℤ) = yearStart y + 719468 := by
  simp only [yearStart]
  omega

/-- The months from January 1970 on. -/
theorem monthStart_natCast {y k : ℕ} (hk : k < 12) (h : 1969 < y ∨ y = 1969 ∧ 10 ≤ k) :
    (AuditSphere.monthStart ((12 * y + k + 2) / 12) ((12 * y + k + 2) % 12 + 1) : ℤ) =
      Calendar.monthStart (12 * y + k + 2) := by
  have hyear : (if 3 ≤ (12 * y + k + 2) % 12 + 1 then (12 * y + k + 2) / 12 else (12 * y + k + 2) / 12 - 1) = y := by
    split <;> omega
  have hmonth : (if 3 ≤ (12 * y + k + 2) % 12 + 1 then (12 * y + k + 2) % 12 + 1 - 3
      else (12 * y + k + 2) % 12 + 1 + 9) = k := by
    split <;> omega
  have hfrom : 0 ≤ yearStart y + marchStart k := by
    have hfirst : yearStart 1969 = -306 := by decide
    simp only [marchStart]
    rcases h with h | ⟨rfl, h⟩
    · have := yearStart_lt 1969
      have := yearStart_le (show (1969 : ℤ) + 1 ≤ y by omega)
      omega
    · rw [show ((1969 : ℕ) : ℤ) = 1969 from rfl, hfirst]
      omega
  have hnat := yearStart_natCast y
  generalize hstart : y / 400 * 146097 + (y % 400 * 365 + y % 400 / 4 - y % 400 / 100) = start at hnat
  rw [monthStart_march (Int.natCast_nonneg k) (by omega)]
  unfold AuditSphere.monthStart
  simp only [hyear, hmonth, hstart]
  simp only [marchStart] at hfrom ⊢
  omega

/-- No day from 1970 on lies in an earlier month. -/
theorem monthOf_natCast (n : ℕ) : 23640 ≤ monthOf n := by
  have hmonth := (monthOf_spec n).2
  have hstart : Calendar.monthStart 23640 = 0 := by decide
  by_contra hlt
  have := monthStart_le (show monthOf n + 1 ≤ 23640 by omega)
  omega

/-- The day so many days after the first of a month, from January 1970 on. -/
theorem monthStart_later {later : ℕ} (h : 23640 ≤ later) :
    (AuditSphere.monthStart (later / 12) (later % 12 + 1) : ℤ) = Calendar.monthStart later := by
  obtain ⟨y, k, rfl, hk⟩ : ∃ y k : ℕ, later = 12 * y + k + 2 ∧ k < 12 :=
    ⟨(later - 2) / 12, (later - 2) % 12, by omega, Nat.mod_lt _ (by decide)⟩
  rw [monthStart_natCast hk (by omega)]
  push_cast
  rfl

/-- **On the instants from 1970 on** this is the function that the services use. -/
theorem addMonths_natCast (d months : ℕ) : addMonths d months = (AuditSphere.addMonths d months).map (↑) := by
  obtain ⟨n, hn⟩ : ∃ n, n = d / 86400000 := ⟨_, rfl⟩
  obtain ⟨hyear, hmonth, hdate⟩ := civil_eq n
  obtain ⟨later, hlater⟩ : ∃ later, later = (civil n).1 * 12 + ((civil n).2.1 - 1) + months := ⟨_, rfl⟩
  obtain ⟨start, hstart⟩ : ∃ start, start = AuditSphere.monthStart (later / 12) (later % 12 + 1) := ⟨_, rfl⟩
  obtain ⟨r, hr⟩ : ∃ r, r = (start + ((civil n).2.2 - 1)) * 86400000 + d % 86400000 := ⟨_, rfl⟩
  have hservices : AuditSphere.addMonths d months = if r ≤ 8640000000000000 then some r else none := by
    rw [hr, hstart, hlater, hn]
    rfl
  have hday : day d = n := by
    rw [day, hn]
    rfl
  have hsum : (later : ℤ) = month d + months := by
    have hfrom := monthOf_natCast n
    rw [month, hday, hlater]
    clear hservices hr hstart hlater hn hday hdate
    omega
  have hlast : (start : ℤ) = Calendar.monthStart (month d + months) := by
    rw [hstart, ← hsum]
    refine monthStart_later ?_
    have := monthOf_natCast n
    rw [← hday, ← month] at this
    clear hservices hr hstart hlater hn hday hdate hyear hmonth
    omega
  have hinstant : instant (month d + months) (getUTCDate d) (timeWithinDay d) = r := by
    have hpos := (dayOfMonth_spec n).1
    rw [← hdate] at hpos
    rw [instant, ← hlast, getUTCDate, hday, ← hdate, timeWithinDay, hr]
    generalize (civil n).2.2 = date at *
    clear hservices hr hstart hlater hn hday hdate hyear hmonth hsum hlast
    omega
  rw [addMonths_eq, hinstant, hservices]
  simp only [timeClip, valid, Bool.and_eq_true, decide_eq_true_eq]
  clear hservices hr hstart hlater hn hday hdate hyear hmonth hsum hlast hinstant
  split
  · rename_i h
    rw [if_pos (by omega)]
    rfl
  · rename_i h
    rw [if_neg (by omega)]
    rfl

end AuditSphere.Utc
