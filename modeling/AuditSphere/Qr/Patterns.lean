import AuditSphere.Qr.Message
import Mathlib.Tactic.Ring

/-!
# The function patterns of a QR code

The modules that the encoder marks as function modules are those of the standard, and they leave
enough room for the codewords of every version.
-/

namespace AuditSphere.Qr

open Theory

/-! ### Drawing -/

theorem draw_modules (calls : List Call) (c : Canvas) : (draw calls c).modules = writeAll calls c.modules := by
  induction calls generalizing c with
  | nil => rfl
  | cons call calls ih => exact ih (setFn c call)

theorem draw_isFunction (calls : List Call) (c : Canvas) (p : Cell) :
    (draw calls c).isFunction p = true ↔ p ∈ calls.map Prod.fst ∨ c.isFunction p = true := by
  induction calls generalizing c with
  | nil => simp [draw]
  | cons call calls ih =>
    rw [draw, List.foldl_cons, ← draw, ih, List.map_cons, List.mem_cons, setFn]
    by_cases h : p = call.1
    · simp [h]
    · simp [h]

variable {size version : ℕ} {p : Cell}

/-! ### Where the drawings are -/

theorem matrixSize_eq (version : ℕ) : matrixSize version = Reader.dimension version := by
  rw [matrixSize, Reader.dimension]
  ring

theorem mem_timing : p ∈ (timing size).map Prod.fst ↔ (p.1 = 6 ∧ p.2 < size) ∨ (p.2 = 6 ∧ p.1 < size) := by
  obtain ⟨x, y⟩ := p
  simp only [timing, List.map_flatMap, List.map_cons, List.map_nil, List.mem_flatMap, List.mem_range, List.mem_cons,
    List.not_mem_nil, or_false, Prod.mk.injEq]
  constructor
  · rintro ⟨i, hi, ⟨rfl, rfl⟩ | ⟨rfl, rfl⟩⟩
    · exact Or.inl ⟨rfl, hi⟩
    · exact Or.inr ⟨rfl, hi⟩
  · rintro (⟨rfl, hy⟩ | ⟨rfl, hx⟩)
    · exact ⟨y, hy, Or.inl ⟨rfl, rfl⟩⟩
    · exact ⟨x, hx, Or.inr ⟨rfl, rfl⟩⟩

theorem mem_offsets {n : ℕ} {d : ℤ} : d ∈ offsets n ↔ -n ≤ d ∧ d ≤ n := by
  simp only [offsets, List.mem_map, List.mem_range]
  constructor
  · rintro ⟨i, hi, rfl⟩
    omega
  · rintro ⟨hlow, hhigh⟩
    exact ⟨(d + n).toNat, by omega, by omega⟩

theorem mem_drawFinder {x y : ℕ} :
    p ∈ (drawFinder size x y).map Prod.fst ↔
      p.1 < size ∧ p.2 < size ∧ (p.1 ≤ x + 4 ∧ x ≤ p.1 + 4) ∧ p.2 ≤ y + 4 ∧ y ≤ p.2 + 4 := by
  simp only [drawFinder, List.mem_map, List.mem_flatMap, mem_offsets]
  constructor
  · rintro ⟨call, ⟨dy, hdy, dx, hdx, hcall⟩, rfl⟩
    split at hcall
    · rw [List.mem_singleton.mp hcall]
      dsimp only
      omega
    · cases hcall
  · rintro ⟨hx, hy, hdx, hdy⟩
    refine ⟨?call, ⟨p.2 - y, by omega, p.1 - x, by omega, ?drawn⟩, ?cell⟩
    case drawn =>
      rw [if_pos (by omega)]
      exact List.mem_singleton_self _
    case cell => exact Prod.ext (by dsimp only; omega) (by dsimp only; omega)

theorem mem_drawAlign {c : Cell} (h : 2 ≤ c.1 ∧ 2 ≤ c.2) :
    p ∈ (drawAlign c).map Prod.fst ↔ (c.1 ≤ p.1 + 2 ∧ p.1 ≤ c.1 + 2) ∧ c.2 ≤ p.2 + 2 ∧ p.2 ≤ c.2 + 2 := by
  simp only [drawAlign, List.mem_map, List.mem_flatMap, mem_offsets]
  constructor
  · rintro ⟨call, ⟨dy, hdy, dx, hdx, rfl⟩, rfl⟩
    dsimp only
    omega
  · rintro ⟨hx, hy⟩
    exact ⟨_, ⟨p.2 - c.2, by omega, p.1 - c.1, by omega, rfl⟩,
      Prod.ext (by dsimp only; omega) (by dsimp only; omega)⟩

/-- The cells of the format bits do not depend on these. -/
theorem map_fst_drawFormatBits (size : ℕ) (ecl : Ecl) (mask : ℕ) :
    (drawFormatBits size ecl mask).map Prod.fst =
      (List.range 6).map (fun i => (8, i)) ++ [(8, 7), (8, 8), (7, 8)] ++
      (List.range' 9 6).map (fun i => (14 - i, 8)) ++ (List.range 8).map (fun i => (size - 1 - i, 8)) ++
      (List.range' 8 7).map (fun i => (8, size - 15 + i)) ++ [(8, size - 8)] := by
  simp only [drawFormatBits, List.map_append, List.map_map, List.map_cons, List.map_nil]
  rfl

theorem mem_drawFormatBits {ecl : Ecl} {mask : ℕ} (hsize : 21 ≤ size) :
    p ∈ (drawFormatBits size ecl mask).map Prod.fst ↔
      (p.1 = 8 ∧ p.2 < size ∧ (p.2 < 9 ∧ p.2 ≠ 6 ∨ size - 8 ≤ p.2)) ∨
      (p.2 = 8 ∧ p.1 < size ∧ (p.1 < 9 ∧ p.1 ≠ 6 ∨ size - 8 ≤ p.1)) := by
  obtain ⟨x, y⟩ := p
  rw [map_fst_drawFormatBits]
  simp only [List.mem_append, List.mem_map, List.mem_range, List.mem_range'_1, List.mem_cons, List.not_mem_nil,
    or_false, Prod.mk.injEq]
  constructor
  · rintro (((((⟨i, hi, rfl, rfl⟩ | h) | ⟨i, hi, rfl, rfl⟩) | ⟨i, hi, rfl, rfl⟩) | ⟨i, hi, rfl, rfl⟩) | h) <;> omega
  · rintro (⟨rfl, hy, h⟩ | ⟨rfl, hx, h⟩)
    · by_cases hupper : y < 6
      · exact Or.inl (Or.inl (Or.inl (Or.inl (Or.inl ⟨y, hupper, rfl, rfl⟩))))
      · by_cases hlower : size - 7 ≤ y
        · exact Or.inl (Or.inr ⟨y - (size - 15), by omega, rfl, by omega⟩)
        · have hrest : y = 7 ∨ y = 8 ∨ y = size - 8 := by omega
          rcases hrest with rfl | rfl | rfl <;> simp
    · by_cases hleft : x < 6
      · exact Or.inl (Or.inl (Or.inl (Or.inr ⟨14 - x, by omega, by omega, rfl⟩)))
      · by_cases hright : size - 8 ≤ x
        · exact Or.inl (Or.inl (Or.inr ⟨size - 1 - x, by omega, by omega, rfl⟩))
        · have hrest : x = 7 ∨ x = 8 := by omega
          rcases hrest with rfl | rfl <;> simp

theorem mem_drawVersion :
    p ∈ (drawVersion version).map Prod.fst ↔
      7 ≤ version ∧
        ((matrixSize version - 11 ≤ p.1 ∧ p.1 < matrixSize version - 8 ∧ p.2 < 6) ∨
          (p.1 < 6 ∧ matrixSize version - 11 ≤ p.2 ∧ p.2 < matrixSize version - 8)) := by
  obtain ⟨x, y⟩ := p
  have hsize : 17 ≤ matrixSize version := Nat.le_add_left ..
  by_cases hversion : version < 7
  · simp [drawVersion, hversion]
  · simp only [drawVersion, if_neg hversion, List.map_flatMap, List.map_cons, List.map_nil, List.mem_flatMap,
      List.mem_range, List.mem_cons, List.not_mem_nil, or_false, Prod.mk.injEq]
    constructor
    · rintro ⟨i, hi, ⟨rfl, rfl⟩ | ⟨rfl, rfl⟩⟩ <;> omega
    · rintro ⟨-, ⟨hleft, hright, hy⟩ | ⟨hx, htop, hbottom⟩⟩
      · exact ⟨3 * y + (x - (matrixSize version - 11)), by omega, Or.inl ⟨by omega, by omega⟩⟩
      · exact ⟨3 * x + (y - (matrixSize version - 11)), by omega, Or.inr ⟨by omega, by omega⟩⟩

/-! ### The function modules are those of the standard -/

theorem alignCenters_eq : ∀ version ∈ versions, alignCenters version = Reader.alignmentCenters version := by
  decide +kernel

/-- The alignment patterns keep away from the edges and, if they meet a timing pattern, lie on it. -/
theorem alignmentCenters_inside :
    ∀ version ∈ versions, ∀ c ∈ Reader.alignmentCenters version,
      (6 ≤ c.1 ∧ c.1 + 6 < Reader.dimension version) ∧ 6 ≤ c.2 ∧ c.2 + 6 < Reader.dimension version := by
  decide +kernel

theorem twentyone_le_matrixSize (hversion : version ∈ versions) : 21 ≤ matrixSize version := by
  have := (mem_versions.mp hversion).1
  rw [matrixSize]
  omega

/-- The timing patterns, the finders and the format bits cover two lines and three corners. -/
theorem fixedPatterns_iff {x y : ℕ} (hsize : 21 ≤ size) (hx : x < size) (hy : y < size) :
    ((x = 6 ∧ y < size ∨ y = 6 ∧ x < size) ∨
      (x < size ∧ y < size ∧ (x ≤ 3 + 4 ∧ 3 ≤ x + 4) ∧ y ≤ 3 + 4 ∧ 3 ≤ y + 4) ∨
      (x < size ∧ y < size ∧ (x ≤ size - 4 + 4 ∧ size - 4 ≤ x + 4) ∧ y ≤ 3 + 4 ∧ 3 ≤ y + 4) ∨
      (x < size ∧ y < size ∧ (x ≤ 3 + 4 ∧ 3 ≤ x + 4) ∧ y ≤ size - 4 + 4 ∧ size - 4 ≤ y + 4) ∨
      (x = 8 ∧ y < size ∧ (y < 9 ∧ y ≠ 6 ∨ size - 8 ≤ y)) ∨ (y = 8 ∧ x < size ∧ (x < 9 ∧ x ≠ 6 ∨ size - 8 ≤ x))) ↔
      (x < 9 ∧ y < 9) ∨ (size - 8 ≤ x ∧ y < 9) ∨ (x < 9 ∧ size - 8 ≤ y) ∨ x = 6 ∨ y = 6 := by
  constructor
  · rintro ((h | h) | h | h | h | h | h) <;> omega
  · -- the finders reach up to the format bits
    rintro (⟨hx', hy'⟩ | ⟨hx', hy'⟩ | ⟨hx', hy'⟩ | h | h)
    · by_cases hx8 : x = 8
      · omega
      · by_cases hy8 : y = 8
        · omega
        · exact Or.inr (Or.inl (by omega))
    · by_cases hy8 : y = 8
      · omega
      · exact Or.inr (Or.inr (Or.inl (by omega)))
    · by_cases hx8 : x = 8
      · omega
      · exact Or.inr (Or.inr (Or.inr (Or.inl (by omega))))
    · exact Or.inl (Or.inl ⟨h, hy⟩)
    · exact Or.inl (Or.inr ⟨h, hx⟩)

/-- What the encoder draws as function patterns are the function modules. -/
theorem mem_functionPatterns (hversion : version ∈ versions) (ecl : Ecl) (hx : p.1 < matrixSize version)
    (hy : p.2 < matrixSize version) :
    p ∈ (functionPatterns version ecl).map Prod.fst ↔ Reader.FunctionModule version p := by
  have hsize := twentyone_le_matrixSize hversion
  have halign : p ∈ ((alignCenters version).flatMap drawAlign).map Prod.fst ↔
      ∃ c ∈ Reader.alignmentCenters version,
        c.1 ≤ p.1 + 2 ∧ p.1 ≤ c.1 + 2 ∧ c.2 ≤ p.2 + 2 ∧ p.2 ≤ c.2 + 2 := by
    rw [alignCenters_eq version hversion, List.map_flatMap, List.mem_flatMap]
    refine exists_congr fun c => and_congr_right fun hc => ?_
    have hinside := alignmentCenters_inside version hversion c hc
    rw [mem_drawAlign (by omega), and_assoc]
  have hfixed := fixedPatterns_iff hsize hx hy
  unfold Reader.FunctionModule
  simp only [functionPatterns, List.map_append, List.mem_append, mem_timing, mem_drawFinder, halign,
    mem_drawFormatBits hsize, mem_drawVersion, ← matrixSize_eq]
  generalize (∃ c ∈ Reader.alignmentCenters version,
      c.1 ≤ p.1 + 2 ∧ p.1 ≤ c.1 + 2 ∧ c.2 ≤ p.2 + 2 ∧ p.2 ≤ c.2 + 2) = aligned
  generalize (7 ≤ version ∧ ((matrixSize version - 11 ≤ p.1 ∧ p.1 < matrixSize version - 8 ∧ p.2 < 6) ∨
    (p.1 < 6 ∧ matrixSize version - 11 ≤ p.2 ∧ p.2 < matrixSize version - 8))) = versioned
  simp only [or_assoc] at hfixed ⊢
  by_cases haligned : aligned
  · simp only [haligned, true_or, or_true]
  by_cases hversioned : versioned
  · simp only [hversioned, or_true]
  · simp only [haligned, hversioned, false_or, or_false]
    exact hfixed

/-- Nothing is drawn beside the matrix. -/
theorem functionPatterns_inside (hversion : version ∈ versions) (ecl : Ecl)
    (hp : p ∈ (functionPatterns version ecl).map Prod.fst) : p.1 < matrixSize version ∧ p.2 < matrixSize version := by
  have hsize := twentyone_le_matrixSize hversion
  simp only [functionPatterns, List.map_append, List.mem_append, mem_timing, mem_drawFinder,
    mem_drawFormatBits hsize, mem_drawVersion] at hp
  rcases hp with (((((h | h) | h) | h) | h) | h) | h
  · omega
  · exact ⟨h.1, h.2.1⟩
  · exact ⟨h.1, h.2.1⟩
  · exact ⟨h.1, h.2.1⟩
  · rw [List.map_flatMap, List.mem_flatMap] at h
    obtain ⟨c, hc, h⟩ := h
    rw [alignCenters_eq version hversion] at hc
    have hinside := alignmentCenters_inside version hversion c hc
    rw [← matrixSize_eq] at hinside
    rw [mem_drawAlign (by omega)] at h
    omega
  · omega
  · omega

end AuditSphere.Qr
