import AuditSphere.Qr.Message
import AuditSphere.Theory.Blocks

/-!
# The blocks of a QR code

The interleaved codewords of the encoder begin with the data codewords, column by column over the
blocks; the error correction codewords follow. A reader who takes the blocks apart has the data
codewords back, in the encoder's order.
-/

namespace AuditSphere.Qr

open Theory

/-! ### Codewords are bytes -/

theorem gfMultiply_lt (x y : ℕ) : gfMultiply x y < 256 :=
  Nat.lt_of_le_of_lt Nat.and_le_right (by decide)

/-- A remainder has as many codewords as the divisor, and they are bytes. -/
theorem rsComputeRemainder_bytes (data divisor : List ℕ) :
    (rsComputeRemainder data divisor).length = divisor.length ∧
      ∀ n ∈ rsComputeRemainder data divisor, n < 256 := by
  induction data using List.reverseRecOn with
  | nil =>
    refine ⟨List.length_replicate, fun n hn => ?_⟩
    rw [List.eq_of_mem_replicate hn]
    decide
  | append_singleton data b ih =>
    obtain ⟨hlength, hbytes⟩ := ih
    rw [rsComputeRemainder, List.foldl_append, List.foldl_cons, List.foldl_nil, ← rsComputeRemainder]
    generalize rsComputeRemainder data divisor = result at hlength hbytes
    constructor
    · rw [List.length_zipWith, List.length_append, List.length_tail, List.length_singleton, hlength]
      omega
    · intro n hn
      obtain ⟨i, hi, rfl⟩ := List.mem_iff_getElem.mp hn
      rw [List.getElem_zipWith]
      refine Nat.xor_lt_two_pow (n := 8) ?_ (gfMultiply_lt _ _)
      rcases List.mem_append.mp (List.getElem_mem (l := result.tail ++ [0]) (n := i) _) with htail | hzero
      · exact hbytes _ (List.mem_of_mem_tail htail)
      · rw [List.mem_singleton.mp hzero]
        decide

theorem rsComputeDivisor_length {degree : ℕ} (h : 0 < degree) : (rsComputeDivisor degree).length = degree := by
  have hstep (root : ℕ) (cs : List ℕ) : (multiplyRoot root cs).length = cs.length := by
    fun_induction multiplyRoot root cs <;> simp_all
  have hrounds {round : List ℕ × ℕ → ℕ → List ℕ × ℕ} (hround : ∀ state i, (round state i).1.length = state.1.length)
      (rounds : List ℕ) (state : List ℕ × ℕ) : (rounds.foldl round state).1.length = state.1.length := by
    induction rounds generalizing state with
    | nil => rfl
    | cons i rounds ih => rw [List.foldl_cons, ih, hround]
  rw [rsComputeDivisor, hrounds fun state _ => hstep state.2 state.1, List.length_append, List.length_replicate,
    List.length_singleton]
  omega

/-! ### The layout of the blocks -/

section Layout

variable (ver : ℕ) (ecl : Ecl)

def numBlocks : ℕ := entry numErrorCorrectionBlocks ver ecl

def blockEccLen : ℕ := entry eccCodewordsPerBlock ver ecl

def numShortBlocks : ℕ := numBlocks ver ecl - getNumRawDataModules ver / 8 % numBlocks ver ecl

/-- The data codewords of a short block. -/
def shortDataLen : ℕ := getNumRawDataModules ver / 8 / numBlocks ver ecl - blockEccLen ver ecl

/-- The layout that follows from the encoder's tables is that of the standard: the data codewords
fill the blocks, and the error correction codewords the rest of the symbol. -/
structure Layout : Prop where
  blocks_pos : 0 < numShortBlocks ver ecl
  short_le : numShortBlocks ver ecl ≤ numBlocks ver ecl
  ecc_pos : 0 < blockEccLen ver ecl
  data_eq : getNumDataCodewords ver ecl =
    numBlocks ver ecl * shortDataLen ver ecl + (numBlocks ver ecl - numShortBlocks ver ecl)
  raw_eq : getNumRawDataModules ver / 8 = getNumDataCodewords ver ecl + blockEccLen ver ecl * numBlocks ver ecl
  short_eq : getNumDataCodewords ver ecl / numBlocks ver ecl = shortDataLen ver ecl
  shorter_eq : numBlocks ver ecl - getNumDataCodewords ver ecl % numBlocks ver ecl = numShortBlocks ver ecl

instance : Decidable (Layout ver ecl) :=
  decidable_of_iff (_ ∧ _ ∧ _ ∧ _ ∧ _ ∧ _ ∧ _)
    ⟨fun ⟨h₁, h₂, h₃, h₄, h₅, h₆, h₇⟩ => ⟨h₁, h₂, h₃, h₄, h₅, h₆, h₇⟩,
      fun ⟨h₁, h₂, h₃, h₄, h₅, h₆, h₇⟩ => ⟨h₁, h₂, h₃, h₄, h₅, h₆, h₇⟩⟩

end Layout

theorem layout (ecl : Ecl) : ∀ version ∈ versions, Layout version ecl := by
  cases ecl <;> decide +kernel

/-! ### Interleaving -/

section Interleaving

variable (data : List ℕ) (ver : ℕ) (ecl : Ecl)

/-- Where the data of a block begin. -/
def blockOffset (j : ℕ) : ℕ := j * shortDataLen ver ecl + (j - numShortBlocks ver ecl)

def blockDataLen (j : ℕ) : ℕ := shortDataLen ver ecl + if j < numShortBlocks ver ecl then 0 else 1

/-- The data codewords of a block. -/
def blockData (j : ℕ) : List ℕ := (data.drop (blockOffset ver ecl j)).take (blockDataLen ver ecl j)

/-- A block as the encoder keeps it. -/
def block (j : ℕ) : List ℕ :=
  (if j < numShortBlocks ver ecl then blockData data ver ecl j ++ [0] else blockData data ver ecl j) ++
    rsComputeRemainder (blockData data ver ecl j) (rsComputeDivisor (blockEccLen ver ecl))

variable {data ver ecl}

theorem blockOffset_succ (j : ℕ) : blockOffset ver ecl (j + 1) = blockOffset ver ecl j + blockDataLen ver ecl j := by
  unfold blockOffset blockDataLen
  rw [Nat.succ_mul]
  split <;> omega

theorem blockOffset_mono {i j : ℕ} (h : i ≤ j) : blockOffset ver ecl i ≤ blockOffset ver ecl j := by
  induction h with
  | refl => exact Nat.le_refl _
  | step _ ih => exact ih.trans (by rw [Nat.succ_eq_add_one, blockOffset_succ]; omega)

theorem blockOffset_numBlocks (h : Layout ver ecl) :
    blockOffset ver ecl (numBlocks ver ecl) = getNumDataCodewords ver ecl :=
  h.data_eq.symm

theorem blockData_length (h : Layout ver ecl) (hdata : data.length = getNumDataCodewords ver ecl) {j : ℕ}
    (hj : j < numBlocks ver ecl) : (blockData data ver ecl j).length = blockDataLen ver ecl j := by
  have hend : blockOffset ver ecl (j + 1) ≤ data.length := by
    rw [hdata, ← blockOffset_numBlocks h]
    exact blockOffset_mono hj
  rw [blockOffset_succ] at hend
  rw [blockData, List.length_take, List.length_drop]
  omega

/-- The blocks are those of the data from their offsets on. -/
theorem eccBlocks_eq (h : Layout ver ecl) (hdata : data.length = getNumDataCodewords ver ecl) (count i : ℕ)
    (hcount : i + count ≤ numBlocks ver ecl) :
    eccBlocks data (numShortBlocks ver ecl) (shortDataLen ver ecl) (rsComputeDivisor (blockEccLen ver ecl))
      (List.range' i count) (blockOffset ver ecl i) = (List.range' i count).map (block data ver ecl) := by
  induction count generalizing i with
  | zero => rfl
  | succ count ih =>
    have hlength := blockData_length h hdata (j := i) (by omega)
    have htail := ih (i + 1) (by omega)
    rw [blockOffset_succ, ← hlength] at htail
    rw [List.range'_succ, List.map_cons, eccBlocks, ← htail]
    rfl

theorem block_getD (h : Layout ver ecl) (hdata : data.length = getNumDataCodewords ver ecl) {i j : ℕ}
    (hj : j < numBlocks ver ecl) (hi : i < blockDataLen ver ecl j) :
    (block data ver ecl j).getD i 0 = (blockData data ver ecl j).getD i 0 := by
  have hlength := blockData_length h hdata hj
  unfold block
  split
  · rw [List.append_assoc, List.getD_append _ _ _ _ (by omega)]
  · rw [List.getD_append _ _ _ _ (by omega)]

theorem block_length (h : Layout ver ecl) (hdata : data.length = getNumDataCodewords ver ecl) {j : ℕ}
    (hj : j < numBlocks ver ecl) :
    (block data ver ecl j).length = shortDataLen ver ecl + 1 + blockEccLen ver ecl := by
  have hlength := blockData_length h hdata hj
  unfold block
  unfold blockDataLen at hlength
  rw [List.length_append, (rsComputeRemainder_bytes _ _).1, rsComputeDivisor_length h.ecc_pos]
  split <;> simp_all

theorem block_lt (hbytes : ∀ n ∈ data, n < 256) (j : ℕ) : ∀ n ∈ block data ver ecl j, n < 256 := by
  have hblock : ∀ n ∈ blockData data ver ecl j, n < 256 := fun n hn =>
    hbytes n (List.mem_of_mem_drop (List.mem_of_mem_take hn))
  intro n hn
  rcases List.mem_append.mp hn with hn | hn
  · split at hn
    · rcases List.mem_append.mp hn with hn | hn
      · exact hblock n hn
      · rw [List.mem_singleton.mp hn]
        decide
    · exact hblock n hn
  · exact (rsComputeRemainder_bytes _ _).2 n hn

variable (data ver ecl) in
/-- What the encoder takes from the position `i` of the blocks. -/
def codewordRow (i : ℕ) : List ℕ :=
  (List.range (numBlocks ver ecl)).flatMap fun j =>
    if i ≠ shortDataLen ver ecl ∨ j ≥ numShortBlocks ver ecl then [(block data ver ecl j).getD i 0] else []

theorem addEccAndInterleave_rows (h : Layout ver ecl) (hdata : data.length = getNumDataCodewords ver ecl) :
    addEccAndInterleave data ver ecl =
      (List.range (shortDataLen ver ecl + 1 + blockEccLen ver ecl)).flatMap (codewordRow data ver ecl) := by
  have hpos : 0 < numBlocks ver ecl := Nat.lt_of_lt_of_le h.blocks_pos h.short_le
  have hblocks := eccBlocks_eq h hdata (numBlocks ver ecl) 0 (by omega)
  rw [← List.range_eq_range', show blockOffset ver ecl 0 = 0 by simp [blockOffset]] at hblocks
  have hhead : (((List.range (numBlocks ver ecl)).map (block data ver ecl)).headD []).length =
      shortDataLen ver ecl + 1 + blockEccLen ver ecl := by
    obtain ⟨n, hn⟩ := Nat.exists_eq_succ_of_ne_zero hpos.ne'
    rw [hn, List.range_succ_eq_map, List.map_cons, List.headD_cons]
    exact block_length h hdata hpos
  calc
    addEccAndInterleave data ver ecl =
        (List.range (((List.range (numBlocks ver ecl)).map (block data ver ecl)).headD []).length).flatMap fun i =>
          (List.range ((List.range (numBlocks ver ecl)).map (block data ver ecl)).length).flatMap fun j =>
            if i ≠ shortDataLen ver ecl ∨ j ≥ numShortBlocks ver ecl then
              [(((List.range (numBlocks ver ecl)).map (block data ver ecl)).getD j []).getD i 0] else [] := by
      rw [← hblocks]
      rfl
    _ = _ := by
      rw [hhead, List.length_map, List.length_range]
      refine List.flatMap_congr fun i _ => List.flatMap_congr fun j hj => ?_
      have hget : ((List.range (numBlocks ver ecl)).map (block data ver ecl)).getD j [] = block data ver ecl j := by
        simp [List.getD_eq_getElem?_getD, List.mem_range.mp hj]
      rw [hget]

theorem codewordRow_of_ne {i : ℕ} (hi : i ≠ shortDataLen ver ecl) :
    codewordRow data ver ecl i = (List.range (numBlocks ver ecl)).map fun j => (block data ver ecl j).getD i 0 := by
  unfold codewordRow
  simp only [hi, ne_eq, not_false_eq_true, true_or, if_true]
  exact (List.map_eq_flatMap ..).symm

/-- At the placeholder of the short blocks only the longer blocks have a codeword. -/
theorem codewordRow_placeholder (h : Layout ver ecl) :
    codewordRow data ver ecl (shortDataLen ver ecl) =
      (List.range (numBlocks ver ecl - numShortBlocks ver ecl)).map fun t =>
        (block data ver ecl (numShortBlocks ver ecl + t)).getD (shortDataLen ver ecl) 0 := by
  have hsplit : numBlocks ver ecl = numShortBlocks ver ecl + (numBlocks ver ecl - numShortBlocks ver ecl) := by
    have := h.short_le
    omega
  have hshort : (List.range (numShortBlocks ver ecl)).flatMap (fun j =>
      if shortDataLen ver ecl ≠ shortDataLen ver ecl ∨ j ≥ numShortBlocks ver ecl then
        [(block data ver ecl j).getD (shortDataLen ver ecl) 0] else []) = [] := by
    refine List.flatMap_eq_nil_iff.mpr fun j hj => if_neg ?_
    rw [List.mem_range] at hj
    omega
  unfold codewordRow
  rw [hsplit, List.range_add, List.flatMap_append, hshort, List.nil_append, Nat.add_sub_cancel_left, List.flatMap_map,
    List.map_eq_flatMap]
  exact List.flatMap_congr fun t _ => if_pos (Or.inr (Nat.le_add_right ..))

/-- The interleaved codewords: the columns of the data, the last column of the longer blocks, and
the error correction codewords. -/
theorem addEccAndInterleave_eq (h : Layout ver ecl) (hdata : data.length = getNumDataCodewords ver ecl) :
    ∃ ecc : List ℕ, ecc.length = blockEccLen ver ecl * numBlocks ver ecl ∧
      addEccAndInterleave data ver ecl =
        ((List.range (shortDataLen ver ecl)).flatMap fun i =>
          (List.range (numBlocks ver ecl)).map fun j => (blockData data ver ecl j).getD i 0) ++
        (((List.range (numBlocks ver ecl - numShortBlocks ver ecl)).map fun t =>
          (blockData data ver ecl (numShortBlocks ver ecl + t)).getD (shortDataLen ver ecl) 0) ++ ecc) := by
  refine ⟨(List.range (blockEccLen ver ecl)).flatMap fun i => codewordRow data ver ecl (shortDataLen ver ecl + 1 + i),
    ?_, ?_⟩
  · have hrow (i : ℕ) :
        (codewordRow data ver ecl (shortDataLen ver ecl + 1 + i)).length = numBlocks ver ecl := by
      rw [codewordRow_of_ne (by omega), List.length_map, List.length_range]
    simp [List.length_flatMap, hrow]
  · rw [addEccAndInterleave_rows h hdata, List.range_add, List.flatMap_append, List.range_succ, List.flatMap_append,
      List.flatMap_singleton, codewordRow_placeholder h, List.append_assoc, List.flatMap_map]
    congr 1
    · refine List.flatMap_congr fun i hi => ?_
      rw [List.mem_range] at hi
      rw [codewordRow_of_ne (by omega)]
      refine List.map_congr_left fun j hj => block_getD h hdata (List.mem_range.mp hj) ?_
      unfold blockDataLen
      omega
    · congr 1
      refine List.map_congr_left fun t ht => ?_
      have hshort := h.short_le
      rw [List.mem_range] at ht
      refine block_getD h hdata (by omega) ?_
      rw [blockDataLen, if_neg (by omega)]
      omega

theorem addEccAndInterleave_length (h : Layout ver ecl) (hdata : data.length = getNumDataCodewords ver ecl) :
    (addEccAndInterleave data ver ecl).length = getNumRawDataModules ver / 8 := by
  obtain ⟨ecc, hecc, heq⟩ := addEccAndInterleave_eq h hdata
  rw [heq, h.raw_eq, h.data_eq, ← hecc]
  simp [List.length_flatMap]
  ring

/-- The interleaved codewords of bytes are bytes. -/
theorem addEccAndInterleave_lt (h : Layout ver ecl) (hdata : data.length = getNumDataCodewords ver ecl)
    (hbytes : ∀ n ∈ data, n < 256) : ∀ n ∈ addEccAndInterleave data ver ecl, n < 256 := by
  intro n hn
  rw [addEccAndInterleave_rows h hdata] at hn
  obtain ⟨i, -, hn⟩ := List.mem_flatMap.mp hn
  obtain ⟨j, -, hn⟩ := List.mem_flatMap.mp hn
  split at hn
  · rw [List.mem_singleton.mp hn, List.getD_eq_getElem?_getD]
    cases hget : (block data ver ecl j)[i]? with
    | none => decide
    | some c => exact block_lt hbytes j c (List.mem_of_getElem? hget)
  · cases hn

/-- The last codeword of a longer block comes after the columns. -/
theorem getD_addEccAndInterleave (h : Layout ver ecl) (hdata : data.length = getNumDataCodewords ver ecl) {j : ℕ}
    (hshort : numShortBlocks ver ecl ≤ j) (hj : j < numBlocks ver ecl) :
    (addEccAndInterleave data ver ecl).getD
        (shortDataLen ver ecl * numBlocks ver ecl + (j - numShortBlocks ver ecl)) 0 =
      (blockData data ver ecl j).getD (shortDataLen ver ecl) 0 := by
  obtain ⟨ecc, -, heq⟩ := addEccAndInterleave_eq h hdata
  have hcolumns : ((List.range (shortDataLen ver ecl)).flatMap fun i =>
      (List.range (numBlocks ver ecl)).map fun j => (blockData data ver ecl j).getD i 0).length =
        shortDataLen ver ecl * numBlocks ver ecl := by
    simp [List.length_flatMap]
  rw [heq, List.getD_append_right _ _ _ _ (by omega), hcolumns, Nat.add_sub_cancel_left,
    List.getD_append _ _ _ _ (by rw [List.length_map, List.length_range]; omega), List.getD_eq_getElem?_getD,
    List.getElem?_map, List.getElem?_range (by omega), Option.map_some, Option.getD_some, Nat.add_sub_cancel' hshort]

/-- Who takes the blocks apart has the data codewords back. -/
theorem deinterleave_addEccAndInterleave (hver : ver ∈ versions) (hdata : data.length = getNumDataCodewords ver ecl) :
    Reader.deinterleave (addEccAndInterleave data ver ecl) ver ecl = data := by
  have h := layout ecl ver hver
  obtain ⟨ecc, -, heq⟩ := addEccAndInterleave_eq h hdata
  have hblocks : Reader.ofVersion (Reader.blocks ecl) 0 ver = numBlocks ver ecl :=
    (numErrorCorrectionBlocks_eq ecl ver hver).symm
  simp only [Reader.deinterleave, hblocks, ← getNumDataCodewords_eq ecl ver hver, h.short_eq, h.shorter_eq]
  calc
    _ = (List.range (numBlocks ver ecl)).flatMap (blockData data ver ecl) := by
      refine List.flatMap_congr fun j hj => ?_
      rw [List.mem_range] at hj
      have hlength := blockData_length h hdata hj
      have hcolumns : ((List.range (shortDataLen ver ecl)).map fun i =>
          (addEccAndInterleave data ver ecl).getD (i * numBlocks ver ecl + j) 0) =
          (List.range (shortDataLen ver ecl)).map fun i => (blockData data ver ecl j).getD i 0 := by
        refine List.map_congr_left fun i hi => ?_
        rw [heq, getD_rows _ _ _ (List.mem_range.mp hi) hj]
      rw [hcolumns]
      by_cases hshort : j < numShortBlocks ver ecl
      · rw [blockDataLen, if_pos hshort, Nat.add_zero] at hlength
        rw [if_pos hshort, List.append_nil, ← hlength, map_getD_range]
      · rw [blockDataLen, if_neg hshort] at hlength
        have hwhole := map_getD_range (blockData data ver ecl j) 0
        rw [hlength, List.range_succ, List.map_append, List.map_singleton] at hwhole
        rw [if_neg hshort, getD_addEccAndInterleave h hdata (by omega) hj, hwhole]
    _ = data.take (blockOffset ver ecl (numBlocks ver ecl)) :=
      flatMap_slices data (by simp [blockOffset]) blockOffset_succ _
    _ = data := by rw [blockOffset_numBlocks h, ← hdata, List.take_length]

end Interleaving

end AuditSphere.Qr
