import Mathlib.Order.RelClasses
import Mathlib.Data.List.Basic

/-!
# Reading page by page

A list in ascending order is read in pages: each page has the first elements after a cursor,
and the last of them is the next cursor. The pages together are the list (`afterCursor_last`), and a
page with fewer elements than it may have is the last one (`page_of_length_lt`).
-/

namespace AuditSphere.Theory

variable {α κ : Type} (lt : κ → κ → Prop) [DecidableRel lt] (key : α → κ)

/-- The elements after a cursor; all of them, without one. -/
def afterCursor : Option κ → List α → List α
  | none, l => l
  | some c, l => l.filter fun x => lt c (key x)

/-- The first elements after a cursor. -/
def page (size : ℕ) (cursor : Option κ) (l : List α) : List α := (afterCursor lt key cursor l).take size

/-- A list in ascending order. -/
abbrev Ascending (l : List α) : Prop := l.Pairwise fun x y => lt (key x) (key y)

variable {lt key} {l : List α}

theorem afterCursor_sublist (cursor : Option κ) : (afterCursor lt key cursor l).Sublist l := by
  cases cursor with
  | none => exact List.Sublist.refl l
  | some c => exact List.filter_sublist

/-- A page that is not full has everything after the cursor. -/
theorem page_of_length_lt {size : ℕ} {cursor : Option κ} (h : (page lt key size cursor l).length < size) :
    page lt key size cursor l = afterCursor lt key cursor l := by
  unfold page at h ⊢
  rw [List.length_take] at h
  exact List.take_of_length_le (by omega)

variable [IsStrictOrder κ lt]

/-- After an element come those that stand behind it. -/
theorem afterCursor_element {front back : List α} {x : α} (h : Ascending lt key (front ++ x :: back)) :
    afterCursor lt key (some (key x)) (front ++ x :: back) = back := by
  rw [Ascending, List.pairwise_append, List.pairwise_cons] at h
  obtain ⟨-, ⟨hback, -⟩, hfront⟩ := h
  have hnone : front.filter (fun y => decide (lt (key x) (key y))) = [] := by
    rw [List.filter_eq_nil_iff]
    intro y hy hlt
    exact asymm (hfront y hy x List.mem_cons_self) (of_decide_eq_true hlt)
  have hall : back.filter (fun y => decide (lt (key x) (key y))) = back := by
    rw [List.filter_eq_self]
    intro y hy
    exact decide_eq_true (hback y hy)
  simp only [afterCursor, List.filter_append, List.filter_cons, irrefl, decide_false, Bool.false_eq_true, if_false, hnone,
    hall, List.nil_append]

/-- What comes after a later cursor also comes after an earlier one. -/
theorem afterCursor_afterCursor {cursor : Option κ} {x : α} (hx : x ∈ afterCursor lt key cursor l) :
    afterCursor lt key (some (key x)) (afterCursor lt key cursor l) = afterCursor lt key (some (key x)) l := by
  cases cursor with
  | none => rfl
  | some c =>
    have hcx : lt c (key x) := of_decide_eq_true (List.mem_filter.mp hx).2
    simp only [afterCursor, List.filter_filter]
    refine List.filter_congr fun y _ => ?_
    by_cases hy : lt (key x) (key y)
    · simp [hy, IsTrans.trans _ _ _ hcx hy]
    · simp [hy]

/-- After the last element of a page comes the rest. -/
theorem afterCursor_last (hl : Ascending lt key l) {size : ℕ} {cursor : Option κ} {x : α}
    (hx : (page lt key size cursor l).getLast? = some x) :
    afterCursor lt key (some (key x)) l = (afterCursor lt key cursor l).drop size := by
  obtain ⟨front, hfront⟩ := List.getLast?_eq_some_iff.mp hx
  have hsplit : afterCursor lt key cursor l = front ++ x :: (afterCursor lt key cursor l).drop size := by
    conv_lhs => rw [← List.take_append_drop size (afterCursor lt key cursor l)]
    rw [show (afterCursor lt key cursor l).take size = front ++ [x] from hfront]
    simp
  have hmem : x ∈ afterCursor lt key cursor l := by
    rw [hsplit]
    simp
  rw [← afterCursor_afterCursor hmem, hsplit, afterCursor_element, ← hsplit]
  rw [← hsplit]
  exact hl.sublist (afterCursor_sublist cursor)

end AuditSphere.Theory
