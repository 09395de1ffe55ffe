import AuditSphere.Qr.Patterns

/-!
# The zigzag of a QR code

The encoder goes through the modules in the reading order of the standard, which meets every
module once. The function patterns are covered by rectangles whose areas leave room for all
codewords.
-/

namespace AuditSphere.Qr

open Theory

/-! ### The order -/

theorem rightColumns_eq (k : ℕ) :
    rightColumns (6 + 2 * k) = (List.range k).map (fun i => 6 + 2 * k - 2 * i) ++ [5, 3, 1] := by
  induction k with
  | zero => simp [rightColumns]
  | succ k ih =>
    have hnext : 6 + 2 * (k + 1) - 2 = 6 + 2 * k := by omega
    rw [rightColumns, if_pos (by omega)]
    simp only [if_neg (show 6 + 2 * (k + 1) ≠ 6 by omega), hnext, ih, List.range_succ_eq_map, List.map_cons,
      List.map_map, List.cons_append]
    congr 2
    exact List.map_congr_left fun i _ => by simp only [Function.comp_apply]; omega

/-- The pairs of columns are those of the reading order. -/
theorem rightColumns_size {size k : ℕ} (h : size = 7 + 2 * k) :
    rightColumns (size - 1) = (List.range ((size - 1) / 2)).map (Reader.rightColumn size) := by
  have hcount : (size - 1) / 2 = k + 3 := by omega
  rw [show size - 1 = 6 + 2 * k by omega, rightColumns_eq, ← show size - 1 = 6 + 2 * k by omega, hcount, List.range_add,
    List.map_append]
  congr 1
  · refine List.map_congr_left fun i hi => ?_
    rw [List.mem_range] at hi
    rw [Reader.rightColumn, if_pos (by omega)]
  · simp only [List.range_succ, List.range_zero, List.nil_append, List.cons_append, List.map_cons, List.map_nil,
      Reader.rightColumn]
    rw [if_neg (by omega), if_neg (by omega), if_neg (by omega), h]
    simp only [List.cons.injEq, and_true]
    omega

/-- Whether the encoder goes upwards is told by the column. -/
theorem upward_iff {size version pair : ℕ} (hsize : size = Reader.dimension version) (hpair : pair < (size - 1) / 2) :
    (((Reader.rightColumn size pair + 1) &&& 2) == 0) = decide (pair % 2 = 0) := by
  have hand (n : ℕ) : ((n &&& 2) == 0) = decide (n / 2 % 2 = 0) := by
    rw [show n &&& 2 = n &&& 2 ^ 1 from rfl, Nat.and_two_pow, Nat.testBit_eq_decide_div_mod_eq, pow_one]
    rcases Nat.mod_two_eq_zero_or_one (n / 2) with h | h <;> simp [h]
  rw [hand, Reader.rightColumn]
  rw [Reader.dimension] at hsize
  split <;> exact decide_eq_decide.mpr (by omega)

/-- The encoder's zigzag is the reading order. -/
theorem zigzag_eq {version : ℕ} (hversion : version ∈ versions) :
    zigzag (matrixSize version) = Reader.readingOrder (Reader.dimension version) := by
  obtain ⟨hpos, -⟩ := mem_versions.mp hversion
  rw [zigzag, Reader.readingOrder, matrixSize_eq,
    rightColumns_size (show Reader.dimension version = 7 + 2 * (2 * version + 5) by rw [Reader.dimension]; omega),
    List.flatMap_map]
  refine List.flatMap_congr fun pair hpair => List.flatMap_congr fun vert _ => ?_
  have hupward := upward_iff rfl (List.mem_range.mp hpair)
  simp only [hupward, decide_eq_true_eq]
  rfl

/-! ### Every module once -/

variable {version : ℕ}

/-- The modules in a pair of columns. -/
theorem mem_readingOrder {size : ℕ} {p : Cell} (hp : p ∈ Reader.readingOrder size) :
    ∃ pair < (size - 1) / 2, (p.1 = Reader.rightColumn size pair ∨ p.1 = Reader.rightColumn size pair - 1) ∧
      p.2 < size := by
  obtain ⟨pair, hpair, hp⟩ := List.mem_flatMap.mp hp
  obtain ⟨i, hi, hp⟩ := List.mem_flatMap.mp hp
  rw [List.mem_range] at hpair hi
  simp only [List.mem_cons, List.not_mem_nil, or_false] at hp
  refine ⟨pair, hpair, ?_, ?_⟩
  · exact hp.imp (fun h => by rw [h]) fun h => by rw [h]
  · rcases hp with rfl | rfl <;> dsimp only <;> split <;> omega

/-- The reading order stays in the matrix and leaves out the vertical timing pattern. -/
theorem readingOrder_inside {p : Cell} (hp : p ∈ Reader.readingOrder (Reader.dimension version)) :
    p.1 < Reader.dimension version ∧ p.2 < Reader.dimension version ∧ p.1 ≠ 6 := by
  obtain ⟨pair, hpair, hx, hy⟩ := mem_readingOrder hp
  have hsize : Reader.dimension version = 17 + 4 * version := rfl
  rw [Reader.rightColumn] at hx
  split at hx <;> omega

theorem readingOrder_nodup (version : ℕ) : (Reader.readingOrder (Reader.dimension version)).Nodup := by
  have hsize : Reader.dimension version = 17 + 4 * version := rfl
  generalize Reader.dimension version = size at hsize
  rw [Reader.readingOrder, List.nodup_flatMap]
  constructor
  · intro pair hpair
    have hpos : 1 ≤ Reader.rightColumn size pair := by
      rw [List.mem_range] at hpair
      rw [Reader.rightColumn]
      split <;> omega
    rw [List.nodup_flatMap]
    refine ⟨fun i _ => ?_, List.nodup_range.pairwise_of_forall_ne ?_⟩
    · simp only [List.nodup_cons, List.mem_singleton, Prod.mk.injEq, List.not_mem_nil, not_false_eq_true,
        List.nodup_nil, and_true]
      omega
    · intro i hi j hj hne
      rw [List.mem_range] at hi hj
      simp only [Function.onFun, List.disjoint_left, List.mem_cons, List.not_mem_nil, or_false]
      rintro p (rfl | rfl) <;> simp only [Prod.mk.injEq] <;> split <;> omega
  · refine List.nodup_range.pairwise_of_forall_ne fun a ha b hb hne => ?_
    rw [List.mem_range] at ha hb
    simp only [Function.onFun, List.disjoint_left, List.mem_flatMap, List.mem_cons, List.not_mem_nil, or_false]
    rintro p ⟨i, -, hpa⟩ ⟨j, -, hpb⟩
    have hxa : p.1 = Reader.rightColumn size a ∨ p.1 = Reader.rightColumn size a - 1 :=
      hpa.imp (fun h => by rw [h]) fun h => by rw [h]
    have hxb : p.1 = Reader.rightColumn size b ∨ p.1 = Reader.rightColumn size b - 1 :=
      hpb.imp (fun h => by rw [h]) fun h => by rw [h]
    rw [Reader.rightColumn] at hxa hxb
    split at hxa <;> split at hxb <;> omega

theorem readingOrder_length (size : ℕ) : (Reader.readingOrder size).length = (size - 1) / 2 * (size * 2) := by
  simp [Reader.readingOrder, List.length_flatMap]

/-! ### Room for the codewords -/

/-- An alignment pattern, without the part that lies on a timing pattern. -/
def alignmentRects (c : Cell) : List Rect :=
  if c.1 = 6 then [⟨4, 2, c.2 - 2, 5⟩, ⟨7, 2, c.2 - 2, 5⟩]
  else if c.2 = 6 then [⟨c.1 - 2, 5, 4, 2⟩, ⟨c.1 - 2, 5, 7, 2⟩]
  else [⟨c.1 - 2, 5, c.2 - 2, 5⟩]

/-- Rectangles that cover the function modules outside the vertical timing pattern. -/
def functionRects (version : ℕ) : List Rect :=
  let size := Reader.dimension version
  [⟨0, 6, 0, 9⟩, ⟨7, 2, 0, 9⟩, ⟨size - 8, 8, 0, 9⟩, ⟨0, 6, size - 8, 8⟩, ⟨7, 2, size - 8, 8⟩, ⟨9, size - 17, 6, 1⟩] ++
    (Reader.alignmentCenters version).flatMap alignmentRects ++
    if 7 ≤ version then [⟨0, 6, size - 11, 3⟩, ⟨size - 11, 3, 0, 6⟩] else []

/-- Beside the rectangles there is room for all codewords. -/
theorem functionRects_area :
    ∀ version ∈ versions,
      ((functionRects version).map Rect.area).sum + 8 * (getNumRawDataModules version / 8) ≤
        (Reader.dimension version - 1) / 2 * (Reader.dimension version * 2) := by
  decide +kernel

theorem alignmentRects_cover {c p : Cell} (hc : 6 ≤ c.1 ∧ 6 ≤ c.2)
    (hp : c.1 ≤ p.1 + 2 ∧ p.1 ≤ c.1 + 2 ∧ c.2 ≤ p.2 + 2 ∧ p.2 ≤ c.2 + 2) (hcolumn : p.1 ≠ 6) (hrow : p.2 ≠ 6) :
    (alignmentRects c).any fun r => r.Contains p := by
  unfold alignmentRects
  split
  · simp only [List.any_cons, List.any_nil, Bool.or_eq_true, decide_eq_true_eq]
    simp only [Rect.contains_mk]
    omega
  · split <;> simp only [List.any_cons, List.any_nil, Bool.or_eq_true, decide_eq_true_eq] <;> simp only [Rect.contains_mk] <;>
      omega

/-- Every function module outside the vertical timing pattern is in a rectangle. -/
theorem functionRects_cover (hversion : version ∈ versions) {p : Cell} (hp : Reader.FunctionModule version p)
    (hx : p.1 < Reader.dimension version) (hy : p.2 < Reader.dimension version) (hcolumn : p.1 ≠ 6) :
    (functionRects version).any fun r => r.Contains p := by
  obtain ⟨hpos, -⟩ := mem_versions.mp hversion
  have hsize : 21 ≤ Reader.dimension version := by
    rw [Reader.dimension]
    omega
  simp only [functionRects, List.any_append, List.any_cons, List.any_nil, List.any_flatMap, Bool.or_eq_true,
    decide_eq_true_eq]
  simp only [Rect.contains_mk]
  by_cases hrow : p.2 = 6
  · left; left; omega
  rcases hp with h | h | h | h | h | ⟨c, hc, h⟩ | ⟨hseven, h⟩
  · left; left; omega
  · left; left; omega
  · left; left; omega
  · exact absurd h hcolumn
  · exact absurd h hrow
  · have hinside := alignmentCenters_inside version hversion c hc
    exact Or.inl (Or.inr (List.any_eq_true.mpr ⟨c, hc, alignmentRects_cover (by omega) h hcolumn hrow⟩))
  · right
    rw [if_pos hseven]
    simp only [List.any_cons, List.any_nil, Bool.or_eq_true, decide_eq_true_eq]
    simp only [Rect.contains_mk]
    omega

/-- The free modules are enough for the codewords. -/
theorem codewords_fit (hversion : version ∈ versions) :
    8 * (getNumRawDataModules version / 8) ≤
      ((Reader.readingOrder (Reader.dimension version)).filter fun p => ¬ Reader.FunctionModule version p).length := by
  have harea := functionRects_area version hversion
  have hcovered : ((Reader.readingOrder (Reader.dimension version)).filter fun p =>
      Reader.FunctionModule version p).length ≤ ((functionRects version).map Rect.area).sum := by
    refine Nat.le_trans ?_ (length_filter_covered_le (readingOrder_nodup version) (functionRects version))
    rw [← List.countP_eq_length_filter, ← List.countP_eq_length_filter]
    refine List.countP_mono_left fun p hp hfunction => ?_
    obtain ⟨hx, hy, hcolumn⟩ := readingOrder_inside hp
    exact functionRects_cover hversion (of_decide_eq_true hfunction) hx hy hcolumn
  have hsplit := List.length_eq_length_filter_add (l := Reader.readingOrder (Reader.dimension version))
    fun p => decide (Reader.FunctionModule version p)
  simp only [readingOrder_length, ← decide_not] at hsplit
  omega

end AuditSphere.Qr
