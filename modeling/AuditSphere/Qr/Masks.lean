import AuditSphere.Qr.RoundTrip

/-!
# The choice of the mask

`buildMatrix` tries the eight masks on one canvas: it masks the data modules, draws the format
bits, scores the matrix and masks the data modules again. Every trial begins with the codewords
as they were placed (`trials_apart`), so that what is scored is the matrix that the mask would
give (`tried_eq`). The first mask with the least penalty is kept (`buildMatrix_masked`).
-/

namespace AuditSphere.Qr

open Theory

variable {version : ℕ} {ecl : Ecl} {codewords : List ℕ}

/-! ### Data modules -/

/-- The data modules of the standard, in the order in which they are filled. -/
def dataModules (version : ℕ) : List Cell :=
  (Reader.readingOrder (Reader.dimension version)).filter fun p => ¬Reader.FunctionModule version p

/-- The reading order has every module outside the vertical timing pattern. -/
theorem mem_readingOrder_iff {p : Cell} : p ∈ Reader.readingOrder (Reader.dimension version) ↔
    p.1 < Reader.dimension version ∧ p.2 < Reader.dimension version ∧ p.1 ≠ 6 := by
  refine ⟨readingOrder_inside, ?_⟩
  obtain ⟨x, y⟩ := p
  rintro ⟨hx, hy, hne⟩
  have hsize : Reader.dimension version = 17 + 4 * version := rfl
  generalize Reader.dimension version = size at *
  dsimp only at hx hy hne
  -- the pair of columns, and the step along it
  obtain ⟨pair, hpair, hcolumn⟩ : ∃ pair < (size - 1) / 2, x = Reader.rightColumn size pair ∨ x = Reader.rightColumn size pair - 1 := by
    refine ⟨if 6 < x then (size - 1 - x) / 2 else (size - 2 - x) / 2, ?_, ?_⟩
    · split <;> omega
    · rw [Reader.rightColumn]
      split <;> split <;> omega
  refine List.mem_flatMap.mpr ⟨pair, List.mem_range.mpr hpair, List.mem_flatMap.mpr ?_⟩
  refine ⟨if pair % 2 = 0 then size - 1 - y else y, List.mem_range.mpr (by split <;> omega), ?_⟩
  have hrow : (if pair % 2 = 0 then size - 1 - (if pair % 2 = 0 then size - 1 - y else y)
      else if pair % 2 = 0 then size - 1 - y else y) = y := by
    split <;> omega
  simp only [hrow, List.mem_cons, Prod.mk.injEq, and_true, List.not_mem_nil, or_false]
  exact hcolumn

/-- A module of the matrix is a data module or a function module. -/
theorem mem_dataModules {p : Cell} : p ∈ dataModules version ↔
    p.1 < matrixSize version ∧ p.2 < matrixSize version ∧ ¬Reader.FunctionModule version p := by
  rw [dataModules, List.mem_filter, mem_readingOrder_iff, matrixSize_eq, decide_eq_true_eq]
  constructor
  · rintro ⟨⟨hx, hy, -⟩, hfree⟩
    exact ⟨hx, hy, hfree⟩
  · rintro ⟨hx, hy, hfree⟩
    refine ⟨⟨hx, hy, fun h => hfree ?_⟩, hfree⟩
    exact .inr (.inr (.inr (.inl h)))

/-- The function modules of the canvas are those of the standard. -/
theorem placed_function_iff (hversion : version ∈ versions) (codewords : List ℕ) {p : Cell}
    (hx : p.1 < matrixSize version) (hy : p.2 < matrixSize version) :
    (placed codewords version ecl).isFunction p = true ↔ Reader.FunctionModule version p := by
  rw [placed_isFunction, mem_functionPatterns hversion ecl hx hy]

/-- The bits are placed in the data modules; those that are left stay light. -/
theorem placed_data (hversion : version ∈ versions) {k : ℕ} {p : Cell} (h : (dataModules version)[k]? = some p) :
    (placed codewords version ecl).modules p = (codewords.flatMap (bitsOf 8)).getD k false := by
  have hnodup : (dataModules version).Nodup := (readingOrder_nodup version).filter _
  have hmem := List.mem_of_getElem? h
  rw [placed, placeCodewords_eq, free_eq hversion, ← dataModules]
  dsimp only
  generalize codewords.flatMap (bitsOf 8) = bits
  by_cases hk : k < bits.length
  · have hwrite : (p, bits[k]) ∈ (dataModules version).zip bits := by
      refine List.mem_of_getElem? (i := k) ?_
      rw [List.getElem?_zip_eq_some]
      exact ⟨h, List.getElem?_eq_getElem hk⟩
    have hnodup' : (((dataModules version).zip bits).map Prod.fst).Nodup := by
      rw [map_fst_zip]
      exact hnodup.sublist (List.take_sublist _ _)
    rw [writeAll_of_mem hnodup' hwrite, List.getD_eq_getElem _ _ hk]
  · have hnot : p ∉ ((dataModules version).zip bits).map Prod.fst := by
      rw [map_fst_zip]
      intro hp
      obtain ⟨j, hj⟩ := List.getElem?_of_mem hp
      rw [List.getElem?_take] at hj
      split at hj
      · rename_i hlt
        have hsame := (List.getElem?_inj (List.getElem?_eq_some_iff.mp h).1 hnodup).mp (h.trans hj.symm)
        omega
      · cases hj
    rw [writeAll_of_notMem hnot, draw_modules, writeAll_of_notMem, List.getD_eq_default _ _ (not_lt.mp hk)]
    · rfl
    · obtain ⟨hx, hy, hfree⟩ := mem_dataModules.mp hmem
      rwa [← mem_functionPatterns hversion ecl hx hy] at hfree

/-! ### Trials -/

/-- The complete matrix of a mask, with its own format bits. -/
def complete (codewords : List ℕ) (version : ℕ) (ecl : Ecl) (mask : ℕ) : Canvas :=
  draw (drawFormatBits (matrixSize version) ecl mask) (applyMask mask (placed codewords version ecl))

/-- What the loop has made of the canvas and of the choice before the mask `k`. -/
def trials (codewords : List ℕ) (version : ℕ) (ecl : Ecl) (k : ℕ) : Choice :=
  (List.range k).foldl (tryMask (matrixSize version) ecl) ⟨placed codewords version ecl, 0, none⟩

theorem trials_succ (k : ℕ) :
    trials codewords version ecl (k + 1) = tryMask (matrixSize version) ecl (trials codewords version ecl k) k := by
  rw [trials, List.range_succ, List.foldl_append]
  rfl

/-- **The trials leave no trace**: before every mask the function modules are the same, and all modules but the format
bits. -/
theorem trials_apart (codewords : List ℕ) (version : ℕ) (ecl : Ecl) (k : ℕ) :
    Apart (matrixSize version) (placed codewords version ecl) (trials codewords version ecl k).canvas :=
  (foldl_tryMask (fun _ hp => format_isFunction codewords hp) (List.range k) ⟨rfl, fun _ _ => rfl⟩).1

/-- A mask that is tried gives its complete matrix. -/
theorem tried_eq (codewords : List ℕ) (version : ℕ) (ecl : Ecl) (k mask : ℕ) :
    (draw (drawFormatBits (matrixSize version) ecl mask) (applyMask mask (trials codewords version ecl k).canvas)).modules =
      (complete codewords version ecl mask).modules := by
  funext p
  by_cases hp : p ∈ (drawFormatBits (matrixSize version) .L 0).map Prod.fst
  · rw [complete, draw_modules, draw_modules]
    exact writeAll_congr (mem_format_iff.mpr hp)
  · rw [masked_modules (trials_apart codewords version ecl k) mask hp, complete, masked_modules ⟨rfl, fun _ _ => rfl⟩ mask hp]

/-- The penalty of the complete matrix of a mask. -/
def penaltyOf (codewords : List ℕ) (version : ℕ) (ecl : Ecl) (mask : ℕ) : ℤ :=
  penaltyScore (matrixSize version) (complete codewords version ecl mask).modules

/-- Of the numbers below `n`, the first one at which `f` is least. -/
structure FirstLeast (f : ℕ → ℤ) (n best : ℕ) : Prop where
  lt : best < n
  least : ∀ m < n, f best ≤ f m
  first : ∀ m < best, f best < f m

/-- After each trial the best mask is the first one with the least penalty. -/
theorem trials_best (codewords : List ℕ) (version : ℕ) (ecl : Ecl) (k : ℕ) :
    (trials codewords version ecl (k + 1)).minPenalty =
        some (penaltyOf codewords version ecl (trials codewords version ecl (k + 1)).bestMask) ∧
      FirstLeast (penaltyOf codewords version ecl) (k + 1) (trials codewords version ecl (k + 1)).bestMask := by
  have hscore (k : ℕ) : penaltyScore (matrixSize version) (draw (drawFormatBits (matrixSize version) ecl k)
      (applyMask k (trials codewords version ecl k).canvas)).modules = penaltyOf codewords version ecl k := by
    rw [tried_eq, penaltyOf]
  induction k with
  | zero =>
    have hfirst : (trials codewords version ecl 0).minPenalty.all (penaltyOf codewords version ecl 0 < ·) = true := rfl
    rw [trials_succ, tryMask, hscore]
    rw [if_pos hfirst, if_pos hfirst]
    refine ⟨rfl, Nat.zero_lt_one, fun m hm => ?_, fun m hm => absurd hm (Nat.not_lt_zero m)⟩
    rw [Nat.lt_one_iff.mp hm]
  | succ k ih =>
    obtain ⟨hmin, hlt, hleast, hfirst⟩ := ih
    rw [trials_succ, tryMask, hscore]
    simp only [hmin, Option.all_some, decide_eq_true_eq]
    generalize (trials codewords version ecl (k + 1)).bestMask = best at *
    generalize penaltyOf codewords version ecl = f at *
    by_cases hbetter : f (k + 1) < f best
    · rw [if_pos hbetter, if_pos hbetter]
      refine ⟨rfl, Nat.lt_succ_self _, fun m hm => ?_, fun m hm => hbetter.trans_le (hleast m hm)⟩
      rcases Nat.lt_succ_iff_lt_or_eq.mp hm with hm | rfl
      · exact hbetter.le.trans (hleast m hm)
      · exact le_rfl
    · rw [if_neg hbetter, if_neg hbetter]
      refine ⟨rfl, hlt.trans (Nat.lt_succ_self _), fun m hm => ?_, hfirst⟩
      rcases Nat.lt_succ_iff_lt_or_eq.mp hm with hm | rfl
      · exact hleast m hm
      · exact not_lt.mp hbetter

/-! ### The finished matrix -/

/-- The matrix of a mask: the placed bits, inverted where the mask says so, the function patterns as they were drawn,
and both copies of the format information of the level and the mask. -/
structure MaskedBy (codewords : List ℕ) (version : ℕ) (ecl : Ecl) (mask : ℕ) (m : Reader.Matrix) : Prop where
  modules : m = rowsOf (matrixSize version) (complete codewords version ecl mask).modules
  data : ∀ k p, (dataModules version)[k]? = some p →
    Reader.moduleAt m p = ((codewords.flatMap (bitsOf 8)).getD k false ^^ invert mask p)
  function : ∀ p, p.1 < matrixSize version → p.2 < matrixSize version → p ∉ dataModules version →
    p ∉ (drawFormatBits (matrixSize version) ecl mask).map Prod.fst →
      Reader.moduleAt m p = (draw (functionPatterns version ecl) blank).modules p
  format : Reader.spelled m Reader.formatCells = Reader.formatInformation.getD (eclFormatBits ecl * 8 + mask) 0 ∧
    Reader.spelled m (Reader.formatCopyCells (matrixSize version)) =
      Reader.formatInformation.getD (eclFormatBits ecl * 8 + mask) 0

theorem complete_finished (hversion : version ∈ versions) (codewords : List ℕ) (ecl : Ecl) {mask : ℕ} (hmask : mask < 8) :
    Finished (placed codewords version ecl) version ecl mask (complete codewords version ecl mask).modules := by
  refine ⟨hmask, fun call hcall => ?_, fun p hp => masked_modules ⟨rfl, fun _ _ => rfl⟩ mask hp⟩
  have hnodup := format_nodup (twentyone_le_matrixSize hversion)
  rw [complete, draw_modules]
  rw [map_fst_drawFormatBits, ← map_fst_drawFormatBits (matrixSize version) ecl mask] at hnodup
  exact writeAll_of_mem hnodup hcall

theorem complete_maskedBy (hversion : version ∈ versions) (codewords : List ℕ) (ecl : Ecl) {mask : ℕ} (hmask : mask < 8) :
    MaskedBy codewords version ecl mask (rowsOf (matrixSize version) (complete codewords version ecl mask).modules) := by
  have hfinished := complete_finished hversion codewords ecl hmask
  obtain ⟨htable, -⟩ := formatBits_eq ecl mask hmask
  refine ⟨rfl, fun k p hp => ?_, fun p hx hy hp hformat => ?_, ?_⟩
  · obtain ⟨hx, hy, hfree⟩ := mem_dataModules.mp (List.mem_of_getElem? hp)
    rw [← @placed_function_iff version ecl hversion codewords p hx hy] at hfree
    have hformat : p ∉ (drawFormatBits (matrixSize version) .L 0).map Prod.fst := fun h =>
      hfree (format_isFunction codewords h)
    rw [moduleAt_rowsOf _ hx hy, hfinished.others p hformat, Bool.eq_false_iff.mpr hfree, Bool.not_false, Bool.and_true,
      placed_data hversion hp]
  · have hfunction : (placed codewords version ecl).isFunction p = true := by
      rw [placed_function_iff hversion codewords hx hy]
      by_contra h
      exact hp (mem_dataModules.mpr ⟨hx, hy, h⟩)
    rw [mem_format_iff] at hformat
    rw [moduleAt_rowsOf _ hx hy, hfinished.others p hformat, hfunction, Bool.not_true, Bool.and_false, Bool.xor_false]
    exact placeCodewords_of_function (by
      rw [placed, placeCodewords_eq] at hfunction
      exact hfunction)
  · rw [← htable]
    exact hfinished.spelled_format hversion

/-- **The choice of the mask**: before every trial the canvas is as after the placement, but for the format bits, no
application of a mask changes a function module, and the matrix is that of the first of the eight masks whose complete
matrix has the least penalty. -/
theorem buildMatrix_masked (hversion : version ∈ versions) (ecl : Ecl) (codewords : List ℕ) :
    (∀ k, Apart (matrixSize version) (placed codewords version ecl) (trials codewords version ecl k).canvas) ∧
      (∀ mask c p, c.isFunction p = true →
        (applyMask mask c).modules p = c.modules p ∧ (applyMask mask c).isFunction = c.isFunction) ∧
      ∃ mask, FirstLeast (penaltyOf codewords version ecl) 8 mask ∧
        MaskedBy codewords version ecl mask (buildMatrix codewords version ecl).modules := by
  refine ⟨trials_apart codewords version ecl, fun mask c p h => ⟨?_, rfl⟩, ?_⟩
  · rw [applyMask_modules, h, Bool.not_true, Bool.and_false, Bool.xor_false]
  · obtain ⟨-, hbest⟩ := trials_best codewords version ecl 7
    refine ⟨_, hbest, ?_⟩
    have hmodules : (buildMatrix codewords version ecl).modules = rowsOf (matrixSize version)
        (complete codewords version ecl (trials codewords version ecl 8).bestMask).modules := by
      rw [← tried_eq codewords version ecl 8]
      rfl
    rw [hmodules]
    exact complete_maskedBy hversion codewords ecl hbest.lt

/-- No codewords at all in the smallest matrix. -/
theorem buildMatrix_masked_empty : ∃ mask, FirstLeast (penaltyOf [] 1 .M) 8 mask ∧
    MaskedBy [] 1 .M mask (buildMatrix [] 1 .M).modules :=
  (@buildMatrix_masked 1 (mem_versions.mpr (by decide)) .M []).2.2

end AuditSphere.Qr
