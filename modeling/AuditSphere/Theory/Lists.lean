import Mathlib.Algebra.Ring.Nat
import Mathlib.Data.List.Nodup

/-!
# Lists

What the developments need of lists and is not in the library: lists without repetitions.
-/

namespace AuditSphere.Theory

variable {α : Type}

/-- What is left of a list without its repetitions has none. -/
theorem nodup_eraseDups [BEq α] [LawfulBEq α] : ∀ l : List α, l.eraseDups.Nodup
  | [] => by simp
  | a :: l => by
    rw [List.eraseDups_cons]
    refine List.nodup_cons.mpr ⟨?_, nodup_eraseDups _⟩
    simp [List.mem_eraseDups]
termination_by l => l.length
decreasing_by
  simp only [List.length_cons]
  exact Nat.lt_succ_of_le (List.length_filter_le _ _)

/-- A list without repetitions stays as it is. -/
theorem eraseDups_of_nodup [BEq α] [LawfulBEq α] {l : List α} (h : l.Nodup) : l.eraseDups = l := by
  induction l with
  | nil => rfl
  | cons a l ih =>
    obtain ⟨ha, hl⟩ := List.nodup_cons.mp h
    have hfilter : l.filter (fun b => !b == a) = l :=
      List.filter_eq_self.mpr fun b hb => by simpa using ne_of_mem_of_not_mem hb ha
    rw [List.eraseDups_cons, hfilter, ih hl]

/-- In a list without repetitions an element occurs once or not at all. -/
theorem countP_eq_of_nodup [DecidableEq α] {l : List α} (h : l.Nodup) {p : α → Bool} {a : α}
    (hp : ∀ b, p b = true ↔ b = a) : l.countP p = if a ∈ l then 1 else 0 := by
  have hcount : l.countP p = l.count a := by
    rw [List.count]
    exact List.countP_congr fun b _ => by simp [hp]
  rw [hcount]
  split
  · rename_i hmem
    exact List.count_eq_one_of_mem h hmem
  · rename_i hmem
    exact List.count_eq_zero.mpr hmem

/-- What is counted, as a sum. -/
theorem countP_eq_sum (p : α → Bool) (l : List α) : l.countP p = (l.map fun a => if p a then 1 else 0).sum := by
  induction l with
  | nil => rfl
  | cons a l ih => rw [List.countP_cons, ih, List.map_cons, List.sum_cons, Nat.add_comm]

end AuditSphere.Theory
