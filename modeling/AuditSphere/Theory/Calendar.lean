import Mathlib.Algebra.Order.Ring.Int

/-!
# The Gregorian calendar

Days are integers, counted from the first of January 1970, and months are integers
counted from January of the year 0: month `12 * y + k` is the month `k` of the year
`y`, with January as month 0. The calendar is extended to all days before and after.

`monthStart` is the day a month begins on and `monthOf` the month a day lies in;
`monthStart_succ` says that the months have the lengths that the calendar gives
them, and `monthOf_eq_iff` that each day lies in one month and no other. Both count
years from March (`yearStart`, `yearOf`), so that the day that may be missing is
the last of its year.
-/

namespace AuditSphere.Theory.Calendar

/-! ### Years and months from March -/

/-- The first of March of a year. -/
def yearStart (y : ℤ) : ℤ := 365 * y + y / 4 - y / 100 + y / 400 - 719468

/-- The year from March that a day lies in: the estimate from the mean length of a year, put right. -/
def yearOf (day : ℤ) : ℤ :=
  let y := 400 * (day + 719468) / 146097
  if day < yearStart y then y - 1 else if yearStart (y + 1) ≤ day then y + 1 else y

/-- The days from the first of March to the first of the `k`-th month after it. -/
def marchStart (k : ℤ) : ℤ := (153 * k + 2) / 5

theorem yearOf_spec (day : ℤ) : yearStart (yearOf day) ≤ day ∧ day < yearStart (yearOf day + 1) := by
  obtain ⟨y, hy⟩ : ∃ y, y = 400 * (day + 719468) / 146097 := ⟨_, rfl⟩
  have hyear : yearOf day = if day < yearStart y then y - 1 else if yearStart (y + 1) ≤ day then y + 1 else y := by
    rw [hy]
    rfl
  rw [hyear]
  split
  · rename_i h
    simp only [yearStart] at h ⊢
    omega
  split
  · rename_i h h'
    simp only [yearStart] at h h' ⊢
    omega
  · rename_i h h'
    exact ⟨not_lt.mp h, not_le.mp h'⟩

theorem yearStart_lt (y : ℤ) : yearStart y + 365 ≤ yearStart (y + 1) ∧ yearStart (y + 1) ≤ yearStart y + 366 := by
  simp only [yearStart]
  omega

theorem yearStart_le {y y' : ℤ} (h : y ≤ y') : yearStart y ≤ yearStart y' := by
  simp only [yearStart]
  omega

/-- The year of a day is the one that has begun and has not ended. -/
theorem yearOf_eq {day y : ℤ} (hfrom : yearStart y ≤ day) (huntil : day < yearStart (y + 1)) : yearOf day = y := by
  obtain ⟨hfrom', huntil'⟩ := yearOf_spec day
  by_contra hne
  rcases lt_or_gt_of_ne hne with h | h
  · have := yearStart_le (show yearOf day + 1 ≤ y by omega)
    omega
  · have := yearStart_le (show y + 1 ≤ yearOf day by omega)
    omega

/-! ### Months -/

/-- The day on which a month begins. -/
def monthStart (m : ℤ) : ℤ := yearStart ((m - 2) / 12) + marchStart ((m - 2) % 12)

/-- The month that a day lies in. -/
def monthOf (day : ℤ) : ℤ := 12 * yearOf day + (5 * (day - yearStart (yearOf day)) + 2) / 153 + 2

/-- The day of the month, from 1. -/
def dayOfMonth (day : ℤ) : ℤ := day - monthStart (monthOf day) + 1

/-- A leap year has a 29th of February. -/
def isLeap (y : ℤ) : Bool := y % 4 = 0 && (y % 100 ≠ 0 || y % 400 = 0)

/-- The number of days of a month. -/
def monthLength (m : ℤ) : ℤ :=
  if m % 12 = 1 then if isLeap (m / 12) then 29 else 28
  else if m % 12 = 3 ∨ m % 12 = 5 ∨ m % 12 = 8 ∨ m % 12 = 10 then 30
  else 31

/-- The `k`-th month from March on. -/
theorem monthStart_march {y k : ℤ} (hk : 0 ≤ k) (hk' : k < 12) :
    monthStart (12 * y + k + 2) = yearStart y + marchStart k := by
  rw [monthStart, show (12 * y + k + 2 - 2) / 12 = y by omega, show (12 * y + k + 2 - 2) % 12 = k by omega]

/-- **The months have the lengths of the calendar.** -/
theorem monthStart_succ (m : ℤ) : monthStart (m + 1) = monthStart m + monthLength m := by
  obtain ⟨y, k, hm, hk, hk'⟩ : ∃ y k : ℤ, m = 12 * y + k + 2 ∧ 0 ≤ k ∧ k < 12 :=
    ⟨(m - 2) / 12, (m - 2) % 12, by omega, by omega, by omega⟩
  have hstart : monthStart m = yearStart y + marchStart k := by rw [hm, monthStart_march hk hk']
  by_cases hlast : k = 11
  · have hnext : monthStart (m + 1) = yearStart (y + 1) := by
      rw [monthStart, show (m + 1 - 2) / 12 = y + 1 by omega, show (m + 1 - 2) % 12 = 0 by omega]
      simp [marchStart]
    have hlength : monthLength m = if isLeap (y + 1) then 29 else 28 := by
      rw [monthLength, if_pos (by omega), show m / 12 = y + 1 by omega]
    rw [hnext, hstart, hlength, hlast]
    simp only [yearStart, marchStart, isLeap, Bool.and_eq_true, Bool.or_eq_true, decide_eq_true_eq]
    split <;> omega
  · have hnext : monthStart (m + 1) = yearStart y + marchStart (k + 1) := by
      rw [monthStart, show (m + 1 - 2) / 12 = y by omega, show (m + 1 - 2) % 12 = k + 1 by omega]
    rw [hnext, hstart, monthLength, if_neg (by omega)]
    simp only [marchStart]
    have hmonths : k = 0 ∨ k = 1 ∨ k = 2 ∨ k = 3 ∨ k = 4 ∨ k = 5 ∨ k = 6 ∨ k = 7 ∨ k = 8 ∨ k = 9 ∨ k = 10 := by omega
    rcases hmonths with h | h | h | h | h | h | h | h | h | h | h <;> split <;> omega

theorem monthLength_bounds (m : ℤ) : 28 ≤ monthLength m ∧ monthLength m ≤ 31 := by
  unfold monthLength
  split
  · split <;> omega
  · split <;> omega

/-- A later month begins later. -/
theorem monthStart_le {m m' : ℤ} (h : m ≤ m') : monthStart m ≤ monthStart m' := by
  obtain ⟨k, rfl⟩ := Int.le.dest h
  induction k with
  | zero => simp
  | succ k ih =>
    have hstep := monthStart_succ (m + k)
    have hlength := monthLength_bounds (m + k)
    have := ih (by omega)
    rw [show m + ((k + 1 : ℕ) : ℤ) = m + k + 1 by push_cast; omega]
    omega

/-- A day lies in its month. -/
theorem monthOf_spec (day : ℤ) : monthStart (monthOf day) ≤ day ∧ day < monthStart (monthOf day + 1) := by
  obtain ⟨hfrom, huntil⟩ := yearOf_spec day
  have hyear := yearStart_lt (yearOf day)
  obtain ⟨y, hy⟩ : ∃ y, y = yearOf day := ⟨_, rfl⟩
  obtain ⟨k, hk⟩ : ∃ k, k = (5 * (day - yearStart y) + 2) / 153 := ⟨_, rfl⟩
  have hmonth : monthOf day = 12 * y + k + 2 := by rw [monthOf, ← hy, hk]
  rw [← hy] at hfrom huntil hyear
  rw [hmonth]
  refine ⟨?_, ?_⟩
  · rw [monthStart_march (by omega) (by omega), marchStart]
    omega
  · by_cases hlast : k = 11
    · rw [monthStart, show (12 * y + k + 2 + 1 - 2) / 12 = y + 1 by omega,
        show (12 * y + k + 2 + 1 - 2) % 12 = 0 by omega]
      simpa [marchStart] using huntil
    · rw [monthStart, show (12 * y + k + 2 + 1 - 2) / 12 = y by omega,
        show (12 * y + k + 2 + 1 - 2) % 12 = k + 1 by omega, marchStart]
      omega

/-- **Each day lies in one month**: the one it does not precede and that has not ended. -/
theorem monthOf_eq_iff {day m : ℤ} : monthOf day = m ↔ monthStart m ≤ day ∧ day < monthStart m + monthLength m := by
  rw [← monthStart_succ]
  constructor
  · rintro rfl
    exact monthOf_spec day
  · rintro ⟨hfrom, huntil⟩
    obtain ⟨hfrom', huntil'⟩ := monthOf_spec day
    by_contra hne
    rcases lt_or_gt_of_ne hne with h | h
    · have := monthStart_le (show monthOf day + 1 ≤ m by omega)
      omega
    · have := monthStart_le (show m + 1 ≤ monthOf day by omega)
      omega

/-- A day is given by its month and the day of the month. -/
theorem dayOfMonth_spec (day : ℤ) : 1 ≤ dayOfMonth day ∧ dayOfMonth day ≤ monthLength (monthOf day) ∧
    day = monthStart (monthOf day) + dayOfMonth day - 1 := by
  have h := monthOf_eq_iff.mp (rfl : monthOf day = monthOf day)
  simp only [dayOfMonth]
  omega

end AuditSphere.Theory.Calendar
