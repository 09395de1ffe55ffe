import Mathlib.Data.List.GetD
import Mathlib.Data.List.Basic
import Mathlib.Tactic.Ring

/-!
# Rows, columns and blocks

A list that is written row by row is read at `row * width + column` (`getD_rows`), and a list that
is cut at offsets which follow each other is put together again (`flatMap_slices`).
-/

namespace AuditSphere.Theory

variable {α : Type}

/-- All entries of a list in their order are the list. -/
theorem map_getD_range (l : List α) (d : α) : (List.range l.length).map (fun i => l.getD i d) = l := by
  apply List.ext_getElem
  · simp
  · intro i h₁ h₂
    simp [h₂]

/-- The entry of a row and a column. -/
theorem getD_rows (g : ℕ → ℕ → α) (rest : List α) (d : α) {m n i j : ℕ} (hi : i < m) (hj : j < n) :
    (((List.range m).flatMap fun i => (List.range n).map (g i)) ++ rest).getD (i * n + j) d = g i j := by
  induction m generalizing rest with
  | zero => omega
  | succ m ih =>
    rw [List.range_succ, List.flatMap_append, List.append_assoc]
    rcases Nat.lt_succ_iff_lt_or_eq.mp hi with hi | rfl
    · exact ih _ hi
    · have hlength : ((List.range i).flatMap fun i => (List.range n).map (g i)).length = i * n := by
        simp [List.length_flatMap]
      rw [List.getD_append_right _ _ _ _ (by omega), hlength, Nat.add_sub_cancel_left]
      simp [List.getD_eq_getElem?_getD, List.getElem?_append, hj]

/-- Slices that follow each other are the list up to the last of them. -/
theorem flatMap_slices (l : List α) {offset width : ℕ → ℕ} (hzero : offset 0 = 0)
    (hsucc : ∀ j, offset (j + 1) = offset j + width j) (n : ℕ) :
    ((List.range n).flatMap fun j => (l.drop (offset j)).take (width j)) = l.take (offset n) := by
  induction n with
  | zero => rw [hzero]; rfl
  | succ n ih => rw [List.range_succ, List.flatMap_append, ih, List.flatMap_singleton, hsucc, List.take_add]

end AuditSphere.Theory
