import AuditSphere.Qr.Zigzag
import Mathlib.Tactic.IntervalCases

/-!
# Placing and masking

The encoder writes the bits of the codewords to the free modules in their order. Trying a mask
changes nothing but the format bits, so that in the end the function patterns are as they were
drawn, the format bits are those of the chosen mask, and every other module is masked by it.
-/

namespace AuditSphere.Qr

open Theory

/-! ### Placement -/

/-- The bit that the encoder takes at an index. -/
theorem getElem?_bits {codewords : List ℕ} {b : ℕ} (h : b < codewords.length * 8) :
    (codewords.flatMap (bitsOf 8))[b]? = some (getBit (codewords.getD (b >>> 3) 0) (7 - (b &&& 7))) := by
  have hquot : b >>> 3 = b / 8 := Nat.shiftRight_eq_div_pow b 3
  have hrem : b &&& 7 = b % 8 := Nat.and_two_pow_sub_one_eq_mod b 3
  rw [hquot, hrem]
  clear hquot hrem
  induction codewords generalizing b with
  | nil => simp at h
  | cons n codewords ih =>
    rw [List.flatMap_cons]
    by_cases hb : b < 8
    · rw [List.getElem?_append_left (by rw [bitsOf_length]; exact hb), Nat.div_eq_of_lt hb, Nat.mod_eq_of_lt hb]
      interval_cases b <;> rfl
    · have hdiv : b / 8 = (b - 8) / 8 + 1 := by omega
      have hmod : b % 8 = (b - 8) % 8 := by omega
      rw [List.length_cons] at h
      rw [List.getElem?_append_right (by rw [bitsOf_length]; omega), bitsOf_length, ih (by omega), hdiv, hmod,
        List.getD_cons_succ]

/-- From the bit `b` on, the next bits go to the next free modules. -/
theorem foldl_placeBit (codewords : List ℕ) (cells : List Cell) (c : Canvas) (b : ℕ) :
    (cells.foldl (placeBit codewords) (c, b)).1 =
      { c with modules := writeAll ((cells.filter fun p => !c.isFunction p).zip
        ((codewords.flatMap (bitsOf 8)).drop b)) c.modules } := by
  induction cells generalizing c b with
  | nil => rfl
  | cons cell cells ih =>
    rw [List.foldl_cons, placeBit, List.filter_cons]
    by_cases hfree : (!c.isFunction cell) = true
    · by_cases hb : b < codewords.length * 8
      · have hnext := getElem?_bits hb
        obtain ⟨hlt, hbit⟩ := List.getElem?_eq_some_iff.mp hnext
        rw [if_pos (by simp [hfree, hb]), if_pos hfree, ih, List.drop_eq_getElem_cons hlt, hbit, List.zip_cons_cons]
        rfl
      · have hdone : (codewords.flatMap (bitsOf 8)).drop b = [] :=
          List.drop_eq_nil_of_le (by rw [flatMap_bitsOf_length]; omega)
        rw [if_neg (by simp [hb]), ih, hdone, List.zip_nil_right, List.zip_nil_right]
    · rw [if_neg (by simp [hfree]), if_neg hfree, ih]

theorem placeCodewords_eq (size : ℕ) (codewords : List ℕ) (c : Canvas) :
    placeCodewords size codewords c =
      { c with modules := writeAll (((zigzag size).filter fun p => !c.isFunction p).zip
        (codewords.flatMap (bitsOf 8))) c.modules } := by
  rw [placeCodewords, foldl_placeBit, List.drop_zero]

/-- The placement leaves the function modules. -/
theorem placeCodewords_of_function {size : ℕ} {codewords : List ℕ} {c : Canvas} {p : Cell} (h : c.isFunction p = true) :
    (placeCodewords size codewords c).modules p = c.modules p := by
  rw [placeCodewords_eq]
  refine writeAll_of_notMem fun hp => ?_
  rw [map_fst_zip] at hp
  have hfree := List.of_mem_filter (List.mem_of_mem_take hp)
  rw [h] at hfree
  cases hfree

/-! ### Masks -/

theorem applyMask_modules (mask : ℕ) (c : Canvas) (p : Cell) :
    (applyMask mask c).modules p = (c.modules p ^^ (invert mask p && !c.isFunction p)) := by
  simp only [applyMask]
  split
  · rename_i h
    rw [h, Bool.xor_true]
  · rename_i h
    rw [Bool.eq_false_iff.mpr h, Bool.xor_false]

/-- A canvas that differs from another one in the format bits only. -/
structure Apart (size : ℕ) (c₀ c : Canvas) : Prop where
  isFunction_eq : c.isFunction = c₀.isFunction
  modules_eq : ∀ p, p ∉ (drawFormatBits size .L 0).map Prod.fst → c.modules p = c₀.modules p

variable {size : ℕ} {ecl : Ecl} {c₀ : Canvas}

theorem mem_format_iff {mask : ℕ} {p : Cell} :
    p ∈ (drawFormatBits size ecl mask).map Prod.fst ↔ p ∈ (drawFormatBits size .L 0).map Prod.fst := by
  rw [map_fst_drawFormatBits, map_fst_drawFormatBits]

/-- Masking and drawing the format bits keeps the function modules, where these hold the format bits. -/
theorem masked_isFunction (ecl : Ecl)
    (hformat : ∀ p ∈ (drawFormatBits size .L 0).map Prod.fst, c₀.isFunction p = true)
    {c : Canvas} (hc : Apart size c₀ c) (m : ℕ) :
    (draw (drawFormatBits size ecl m) (applyMask m c)).isFunction = c₀.isFunction := by
  funext p
  rw [Bool.eq_iff_iff, draw_isFunction, mem_format_iff, show (applyMask m c).isFunction = c₀.isFunction from hc.isFunction_eq]
  exact ⟨fun h => h.elim (hformat p) id, Or.inr⟩

theorem masked_modules {c : Canvas} (hc : Apart size c₀ c) (m : ℕ) {p : Cell}
    (hp : p ∉ (drawFormatBits size .L 0).map Prod.fst) :
    (draw (drawFormatBits size ecl m) (applyMask m c)).modules p =
      (c₀.modules p ^^ (invert m p && !c₀.isFunction p)) := by
  rw [draw_modules, writeAll_of_notMem (by rw [mem_format_iff]; exact hp), applyMask_modules, hc.isFunction_eq,
    hc.modules_eq p hp]

/-- Trying a mask changes the format bits only. -/
theorem tryMask_apart (ecl : Ecl)
    (hformat : ∀ p ∈ (drawFormatBits size .L 0).map Prod.fst, c₀.isFunction p = true)
    {choice : Choice} (hc : Apart size c₀ choice.canvas) (m : ℕ) :
    Apart size c₀ (tryMask size ecl choice m).canvas := by
  have hfunction := masked_isFunction ecl hformat hc m
  refine ⟨hfunction, fun p hp => ?_⟩
  rw [tryMask, applyMask_modules, hfunction, masked_modules hc m hp, Bool.xor_assoc, Bool.xor_self, Bool.xor_false]

/-- The masks are tried one after the other; the best one is among them. -/
theorem foldl_tryMask (hformat : ∀ p ∈ (drawFormatBits size .L 0).map Prod.fst, c₀.isFunction p = true)
    (masks : List ℕ) {choice : Choice} (hc : Apart size c₀ choice.canvas) :
    Apart size c₀ (masks.foldl (tryMask size ecl) choice).canvas ∧
      ((masks.foldl (tryMask size ecl) choice).bestMask = choice.bestMask ∨
        (masks.foldl (tryMask size ecl) choice).bestMask ∈ masks) := by
  induction masks generalizing choice with
  | nil => exact ⟨hc, Or.inl rfl⟩
  | cons m masks ih =>
    obtain ⟨hapart, hbest⟩ := ih (tryMask_apart ecl hformat hc m)
    refine ⟨hapart, ?_⟩
    rcases hbest with hbest | hbest
    · rw [List.foldl_cons, hbest, tryMask]
      dsimp only
      split
      · exact Or.inr List.mem_cons_self
      · exact Or.inl rfl
    · exact Or.inr (List.mem_cons_of_mem m hbest)

end AuditSphere.Qr
