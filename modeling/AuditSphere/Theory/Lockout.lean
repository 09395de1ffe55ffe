import Mathlib.Data.List.Basic
import Mathlib.Data.List.Pairwise

/-!
# Lockout counters

A counter of failures that locks: at the `max`-th failure it starts again at zero and is
locked for a while (`fail`). Failures happen only while it is not locked (`Unlocked`).
Then within any window as long as a lock there are `max` failures at most, whatever the
counter was at first (`fails_in_window`).
-/

namespace AuditSphere.Theory.Lockout

/-- How many failures, and until when it is locked. -/
structure Counter where
  count : ℕ
  lockedUntil : Option ℕ
  deriving DecidableEq

/-- The counter is locked at a time. -/
def Counter.locked (c : Counter) (time : ℕ) : Bool := c.lockedUntil.any (time < ·)

section Lockout

variable (max window : ℕ)

/-- One more failure. -/
def Counter.fail (c : Counter) (time : ℕ) : Counter :=
  if max ≤ c.count + 1 then ⟨0, some (time + window)⟩ else ⟨c.count + 1, c.lockedUntil⟩

/-- The counter after failures at these times, the most recent first. -/
def Counter.after (c : Counter) : List ℕ → Counter
  | [] => c
  | time :: past => (c.after past).fail max window time

/-- Each failure has found the counter unlocked. -/
def Unlocked (c : Counter) : List ℕ → Prop
  | [] => True
  | time :: past => (c.after max window past).locked time = false ∧ Unlocked c past

/-- How many of these times are in the window that begins at `start`. -/
def inWindow (start : ℕ) (times : List ℕ) : ℕ := (times.filter fun time => start ≤ time ∧ time < start + window).length

variable {max window}

/-- Either the failures in the window are all counted, or the counter is locked until its end. -/
theorem counted_or_locked (hmax : 0 < max) {c : Counter} (start : ℕ) {times : List ℕ} (hsorted : times.Pairwise (· ≥ ·))
    (hunlocked : Unlocked max window c times) :
    (inWindow window start times ≤ (c.after max window times).count ∧ inWindow window start times < max) ∨
      (inWindow window start times ≤ max ∧ ∃ u, (c.after max window times).lockedUntil = some u ∧ start + window ≤ u) := by
  induction times with
  | nil => exact .inl ⟨Nat.zero_le _, hmax⟩
  | cons time past ih =>
    obtain ⟨hlast, hpast⟩ := List.pairwise_cons.mp hsorted
    have ih := ih hpast hunlocked.2
    have hlocked := hunlocked.1
    rw [Counter.after, Counter.fail]
    by_cases hbefore : time < start
    · -- nothing has been in the window so far
      have hzero : inWindow window start (time :: past) = 0 := by
        rw [inWindow, List.length_eq_zero_iff, List.filter_eq_nil_iff]
        intro τ hτ
        rcases List.mem_cons.mp hτ with rfl | hτ
        · simp
          omega
        · have := hlast τ hτ
          simp
          omega
      rw [hzero]
      exact .inl ⟨Nat.zero_le _, hmax⟩
    by_cases hafter : start + window ≤ time
    · have hsame : inWindow window start (time :: past) = inWindow window start past := by
        rw [inWindow, List.filter_cons_of_neg (by simp; omega), inWindow]
      rw [hsame]
      split
      · refine .inr ⟨?_, _, rfl, by omega⟩
        rcases ih with ⟨-, h⟩ | ⟨h, -⟩ <;> omega
      · rcases ih with ⟨h, hlt⟩ | ⟨h, hu⟩
        · exact .inl ⟨by dsimp only; omega, hlt⟩
        · exact .inr ⟨h, hu⟩
    · have hone : inWindow window start (time :: past) = inWindow window start past + 1 := by
        rw [inWindow, List.filter_cons_of_pos (by simp; omega), List.length_cons, inWindow]
      rw [hone]
      rcases ih with ⟨h, hlt⟩ | ⟨-, u, hu, hlate⟩
      · split
        · exact .inr ⟨by omega, _, rfl, by omega⟩
        · exact .inl ⟨by dsimp only; omega, by omega⟩
      · rw [Counter.locked, hu, Option.any_some, decide_eq_false_iff_not] at hlocked
        omega

/-- **Any window**: as long as a lock, it contains at most `max` failures. -/
theorem fails_in_window (hmax : 0 < max) {c : Counter} (start : ℕ) {times : List ℕ} (hsorted : times.Pairwise (· ≥ ·))
    (hunlocked : Unlocked max window c times) : inWindow window start times ≤ max := by
  rcases counted_or_locked hmax start hsorted hunlocked with ⟨-, h⟩ | ⟨h, -⟩
  · exact Nat.le_of_lt h
  · exact h

end Lockout

end AuditSphere.Theory.Lockout
