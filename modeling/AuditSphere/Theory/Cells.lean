import Mathlib.Algebra.Ring.Nat
import Mathlib.Data.Finset.Card
import Mathlib.Data.Finset.Prod
import Mathlib.Data.List.Nodup
import Mathlib.Logic.Function.Basic
import Mathlib.Order.Interval.Finset.Nat

/-!
# Writing to cells

Values are written to the cells of a grid, one after the other (`writeAll`). What is written
to different cells can be read from them again (`map_writeAll_zip`). Cells in rectangles are
counted by the areas of these (`length_filter_covered_le`).
-/

namespace AuditSphere.Theory

section Writes

variable {κ β : Type} [DecidableEq κ]

/-- Write values to cells. -/
def writeAll (writes : List (κ × β)) (f : κ → β) : κ → β := writes.foldl (fun f w => Function.update f w.1 w.2) f

variable {writes : List (κ × β)} {f : κ → β}

theorem writeAll_append (writes more : List (κ × β)) (f : κ → β) :
    writeAll (writes ++ more) f = writeAll more (writeAll writes f) :=
  List.foldl_append

/-- A cell to which nothing is written keeps its value. -/
theorem writeAll_of_notMem {c : κ} (h : c ∉ writes.map Prod.fst) : writeAll writes f c = f c := by
  induction writes generalizing f with
  | nil => rfl
  | cons w writes ih =>
    rw [List.map_cons, List.mem_cons, not_or] at h
    rw [writeAll, List.foldl_cons, ← writeAll, ih h.2, Function.update_of_ne h.1]

/-- The value that is written to a cell once can be read from it. -/
theorem writeAll_of_mem (hnodup : (writes.map Prod.fst).Nodup) {w : κ × β} (hw : w ∈ writes) :
    writeAll writes f w.1 = w.2 := by
  induction writes generalizing f with
  | nil => cases hw
  | cons v writes ih =>
    obtain ⟨hv, hnodup⟩ := List.nodup_cons.mp hnodup
    rw [writeAll, List.foldl_cons, ← writeAll]
    rcases List.mem_cons.mp hw with rfl | hw
    · rw [writeAll_of_notMem hv, Function.update_self]
    · exact ih hnodup hw

/-- What is written to a cell does not depend on its value before. -/
theorem writeAll_congr {g : κ → β} {c : κ} (h : c ∈ writes.map Prod.fst) : writeAll writes f c = writeAll writes g c := by
  induction writes generalizing f g with
  | nil => cases h
  | cons w writes ih =>
    change writeAll writes (Function.update f w.1 w.2) c = writeAll writes (Function.update g w.1 w.2) c
    by_cases hc : c ∈ writes.map Prod.fst
    · exact ih hc
    · rw [List.map_cons, List.mem_cons, or_iff_left hc] at h
      rw [writeAll_of_notMem hc, writeAll_of_notMem hc, h, Function.update_self, Function.update_self]

theorem map_fst_zip (cells : List κ) (values : List β) :
    (cells.zip values).map Prod.fst = cells.take values.length := by
  induction cells generalizing values with
  | nil => simp
  | cons c cells ih =>
    cases values with
    | nil => rfl
    | cons b values => rw [List.zip_cons_cons, List.map_cons, ih, List.length_cons, List.take_succ_cons]

/-- Values that are written to different cells are read from them. -/
theorem map_writeAll_zip {cells : List κ} {values : List β} (hnodup : cells.Nodup) (h : values.length ≤ cells.length) :
    (cells.map (writeAll (cells.zip values) f)).take values.length = values := by
  have hfst : (cells.zip values).map Prod.fst = cells.take values.length := map_fst_zip cells values
  have hnodup' : ((cells.zip values).map Prod.fst).Nodup := hfst ▸ hnodup.sublist (List.take_sublist _ _)
  rw [← List.map_take, ← hfst, List.map_map]
  calc
    (cells.zip values).map (writeAll (cells.zip values) f ∘ Prod.fst) = (cells.zip values).map Prod.snd :=
      List.map_congr_left fun w hw => writeAll_of_mem hnodup' hw
    _ = values := List.map_snd_zip h

end Writes

/-! ### Rectangles -/

/-- A rectangle of cells. -/
structure Rect where
  left : ℕ
  width : ℕ
  top : ℕ
  height : ℕ
  deriving DecidableEq

namespace Rect

/-- The cell is in the rectangle. -/
def Contains (r : Rect) (c : ℕ × ℕ) : Prop :=
  r.left ≤ c.1 ∧ c.1 < r.left + r.width ∧ r.top ≤ c.2 ∧ c.2 < r.top + r.height

instance (r : Rect) : DecidablePred r.Contains := fun _ => inferInstanceAs (Decidable (_ ∧ _ ∧ _ ∧ _))

theorem contains_mk {left width top height : ℕ} {c : ℕ × ℕ} :
    (Rect.mk left width top height).Contains c ↔
      left ≤ c.1 ∧ c.1 < left + width ∧ top ≤ c.2 ∧ c.2 < top + height := Iff.rfl

/-- The number of cells in the rectangle. -/
def area (r : Rect) : ℕ := r.width * r.height

end Rect

/-- Different cells in a rectangle are no more than it has. -/
theorem length_filter_contains_le {cells : List (ℕ × ℕ)} (hnodup : cells.Nodup) (r : Rect) :
    (cells.filter fun c => r.Contains c).length ≤ r.area := by
  have hsub : (cells.filter fun c => r.Contains c).toFinset ⊆
      Finset.Ico r.left (r.left + r.width) ×ˢ Finset.Ico r.top (r.top + r.height) := by
    intro c hc
    have hcontains : r.Contains c := by simpa using (List.mem_filter.mp (List.mem_toFinset.mp hc)).2
    obtain ⟨hleft, hright, htop, hbottom⟩ := hcontains
    exact Finset.mem_product.mpr ⟨Finset.mem_Ico.mpr ⟨hleft, hright⟩, Finset.mem_Ico.mpr ⟨htop, hbottom⟩⟩
  have hcard := Finset.card_le_card hsub
  rw [List.toFinset_card_of_nodup (hnodup.filter _), Finset.card_product, Nat.card_Ico, Nat.card_Ico,
    Nat.add_sub_cancel_left, Nat.add_sub_cancel_left] at hcard
  exact hcard

theorem length_filter_or_le {κ : Type} (p q : κ → Bool) (cells : List κ) :
    (cells.filter fun c => p c || q c).length ≤ (cells.filter p).length + (cells.filter q).length := by
  simp only [← List.countP_eq_length_filter]
  induction cells with
  | nil => rfl
  | cons c cells ih =>
    simp only [List.countP_cons]
    cases p c <;> cases q c <;> simp <;> omega

/-- Different cells that are covered by rectangles are no more than these have together. -/
theorem length_filter_covered_le {cells : List (ℕ × ℕ)} (hnodup : cells.Nodup) (rects : List Rect) :
    (cells.filter fun c => rects.any fun r => r.Contains c).length ≤ (rects.map Rect.area).sum := by
  induction rects with
  | nil => simp
  | cons r rects ih =>
    have hsplit := length_filter_or_le (fun c => decide (r.Contains c)) (fun c => rects.any fun r => r.Contains c) cells
    rw [List.map_cons, List.sum_cons]
    exact hsplit.trans (Nat.add_le_add (length_filter_contains_le hnodup r) ih)

end AuditSphere.Theory
