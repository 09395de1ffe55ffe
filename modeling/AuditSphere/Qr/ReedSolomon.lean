import AuditSphere.Qr.Blocks
import AuditSphere.Theory.Remainders
import Mathlib.Algebra.CharP.Two
import Mathlib.Algebra.Field.ZMod
import Mathlib.Data.ZMod.Basic
import Mathlib.RingTheory.AdjoinRoot

/-!
# Error correction codewords

Bytes are the polynomials over the field of two elements of a degree below 8: their residues
modulo x^8 + x^4 + x^3 + x^2 + 1 are a field of 256 elements, in which `gfMultiply` multiplies
(`gfMultiply_mod`). Over it `rsComputeDivisor` makes the product of the factors x - 2^i, and
`rsComputeRemainder` divides by it, so that a block is a multiple of the product and all its
syndromes are zero (`reedSolomon`).
-/

namespace AuditSphere.Qr

open Theory Polynomial

/-! ### Bytes as polynomials -/

/-- x^8 + x^4 + x^3 + x^2 + 1. -/
noncomputable def modulus : (ZMod 2)[X] := X ^ 8 + X ^ 4 + X ^ 3 + X ^ 2 + 1

/-- The polynomial of the bits of a number below 2^9. -/
noncomputable def polyOf (n : ℕ) : (ZMod 2)[X] := ∑ i ∈ Finset.range 9, if n.testBit i then X ^ i else 0

theorem polyOf_xor (a b : ℕ) : polyOf (a ^^^ b) = polyOf a + polyOf b := by
  rw [polyOf, polyOf, polyOf, ← Finset.sum_add_distrib]
  refine Finset.sum_congr rfl fun i _ => ?_
  rw [Nat.testBit_xor]
  cases a.testBit i <;> cases b.testBit i <;> simp [CharTwo.add_self_eq_zero]

@[simp] theorem polyOf_zero : polyOf 0 = 0 := by
  simp [polyOf]

/-- A byte has no bit beyond the eighth. -/
theorem polyOf_byte {n : ℕ} (h : n < 256) : polyOf n = ∑ i ∈ Finset.range 8, if n.testBit i then X ^ i else 0 := by
  rw [polyOf, Finset.sum_range_succ, Nat.testBit_lt_two_pow h, if_neg Bool.false_ne_true, add_zero]

/-- A shift is a multiplication by x. -/
theorem polyOf_shift {n : ℕ} (h : n < 256) : polyOf (n <<< 1) = X * polyOf n := by
  have hlow : (n <<< 1).testBit 0 = false := by simp
  rw [polyOf_byte h, polyOf, Finset.sum_range_succ', hlow, if_neg Bool.false_ne_true, add_zero, Finset.mul_sum]
  refine Finset.sum_congr rfl fun i _ => ?_
  rw [Nat.testBit_shiftLeft, Nat.add_sub_cancel, decide_eq_true (Nat.le_add_left 1 i), Bool.true_and, mul_ite, mul_zero,
    pow_succ']

theorem polyOf_one : polyOf 1 = 1 := by
  rw [polyOf, Finset.sum_range_succ', Finset.sum_eq_zero, zero_add, if_pos (by decide), pow_zero]
  intro i _
  rw [Nat.testBit_lt_two_pow (Nat.one_lt_two_pow i.succ_ne_zero), if_neg Bool.false_ne_true]

theorem polyOf_two : polyOf 2 = X := by
  have h := polyOf_shift (show 1 < 256 by decide)
  rwa [polyOf_one, mul_one] at h

theorem polyOf_modulus : polyOf 0x11d = modulus := by
  simp [polyOf, modulus, Finset.sum_range_succ, Nat.testBit]
  ring

/-! ### The field -/

/-- The residues of the polynomials: a field of 256 elements. -/
abbrev GF256 : Type := AdjoinRoot modulus

/-- The element of a byte. -/
noncomputable def element (n : ℕ) : GF256 := AdjoinRoot.mk modulus (polyOf n)

theorem element_xor (a b : ℕ) : element (a ^^^ b) = element a + element b := by
  rw [element, polyOf_xor, map_add]
  rfl

theorem element_zero : element 0 = 0 := by
  rw [element, polyOf_zero, map_zero]

/-- Subtraction is addition. -/
theorem gf_neg (a : GF256) : -a = a := by
  obtain ⟨p, rfl⟩ := AdjoinRoot.mk_surjective a
  rw [← map_neg, CharTwo.neg_eq]

/-- Times 2, as a round of the multiplication does it. -/
def double (z : ℕ) : ℕ := (z <<< 1) ^^^ ((z >>> 7) * 0x11d)

theorem double_lt : ∀ z < 256, double z < 256 := by decide +kernel

theorem element_double {z : ℕ} (h : z < 256) : element (double z) = element 2 * element z := by
  have htwo : element 2 = AdjoinRoot.mk modulus X := by
    rw [element, polyOf_two]
  have hmodulus : element 0x11d = 0 := by
    rw [element, polyOf_modulus, AdjoinRoot.mk_self]
  have hcarry : element ((z >>> 7) * 0x11d) = 0 := by
    have hbit : z >>> 7 = 0 ∨ z >>> 7 = 1 := by
      rw [Nat.shiftRight_eq_div_pow]
      omega
    rcases hbit with hbit | hbit
    · rw [hbit, Nat.zero_mul, element_zero]
    · rw [hbit, Nat.one_mul, hmodulus]
  rw [double, element_xor, hcarry, add_zero, htwo, element, polyOf_shift h, map_mul]
  rfl

/-- A round of the multiplication. -/
def multiplyRound (x y z i : ℕ) : ℕ := double z ^^^ (((y >>> i) &&& 1) * x)

theorem multiplyRound_lt {x z : ℕ} (hx : x < 256) (hz : z < 256) (y i : ℕ) : multiplyRound x y z i < 256 := by
  have hbit : ((y >>> i) &&& 1) ≤ 1 := Nat.and_le_right
  refine Nat.xor_lt_two_pow (n := 8) (double_lt z hz) ?_
  interval_cases (y >>> i) &&& 1 <;> omega

theorem element_round {x z : ℕ} (hz : z < 256) (y i : ℕ) : element (multiplyRound x y z i) =
    element 2 * element z + if y.testBit i then element x else 0 := by
  rw [multiplyRound, element_xor, element_double hz, Nat.testBit, Nat.and_comm 1]
  have hbit : ((y >>> i) &&& 1) = 0 ∨ ((y >>> i) &&& 1) = 1 := by
    have := Nat.and_le_right (n := y >>> i) (m := 1)
    omega
  rcases hbit with hbit | hbit
  · rw [hbit, Nat.zero_mul, element_zero]
    rfl
  · rw [hbit, Nat.one_mul]
    rfl

theorem gfMultiply_eq (x y : ℕ) :
    gfMultiply x y = (List.range 8).reverse.foldl (multiplyRound x y) 0 &&& 0xff := rfl

/-- The rounds multiply by the bits of the byte, the highest first. -/
theorem foldl_multiplyRound {x : ℕ} (hx : x < 256) (y k : ℕ) {z : ℕ} (hz : z < 256) :
    (List.range k).reverse.foldl (multiplyRound x y) z < 256 ∧
      element ((List.range k).reverse.foldl (multiplyRound x y) z) = element 2 ^ k * element z +
        element x * ∑ i ∈ Finset.range k, if y.testBit i then element 2 ^ i else 0 := by
  induction k generalizing z with
  | zero => exact ⟨hz, by simp⟩
  | succ k ih =>
    obtain ⟨hlt, helement⟩ := ih (multiplyRound_lt hx hz y k)
    rw [List.range_succ, List.reverse_append, List.reverse_singleton, List.singleton_append, List.foldl_cons]
    refine ⟨hlt, ?_⟩
    rw [helement, element_round hz, Finset.sum_range_succ]
    split <;> ring

/-- A byte, by its bits. -/
theorem element_eq_sum {y : ℕ} (hy : y < 256) :
    element y = ∑ i ∈ Finset.range 8, if y.testBit i then element 2 ^ i else 0 := by
  rw [element, polyOf_byte hy, map_sum]
  refine Finset.sum_congr rfl fun i _ => ?_
  rw [element, polyOf_two]
  split
  · rw [map_pow]
  · rw [map_zero]

/-- **`gfMultiply` multiplies** in the field. -/
theorem element_gfMultiply {x y : ℕ} (hx : x < 256) (hy : y < 256) : element (gfMultiply x y) = element x * element y := by
  obtain ⟨hlt, helement⟩ := foldl_multiplyRound hx y 8 (show 0 < 256 by decide)
  rw [gfMultiply_eq, Nat.and_two_pow_sub_one_of_lt_two_pow (n := 8) hlt, helement, element_zero, mul_zero, zero_add,
    element_eq_sum hy]

theorem modulus_degree : modulus.Monic ∧ modulus.degree = 8 := by
  have hlow : (X ^ 4 + X ^ 3 + X ^ 2 + 1 : (ZMod 2)[X]).degree < 8 := by
    compute_degree!
  have hmodulus : modulus = X ^ 8 + (X ^ 4 + X ^ 3 + X ^ 2 + 1) := by
    rw [modulus]
    ring
  rw [hmodulus]
  refine ⟨monic_X_pow_add hlow, ?_⟩
  rw [degree_add_eq_left_of_degree_lt (by rwa [degree_X_pow]), degree_X_pow]
  rfl

theorem degree_polyOf {n : ℕ} (h : n < 256) : (polyOf n).degree < modulus.degree := by
  rw [modulus_degree.2, polyOf_byte h]
  refine (degree_sum_le _ _).trans_lt ((Finset.sup_lt_iff (by decide)).mpr fun i hi => ?_)
  rw [Finset.mem_range] at hi
  split
  · rw [degree_X_pow]
    exact_mod_cast hi
  · rw [degree_zero]
    exact WithBot.bot_lt_coe _

/-- **Multiplication modulo the polynomial** x^8 + x^4 + x^3 + x^2 + 1. -/
theorem gfMultiply_mod {x y : ℕ} (hx : x < 256) (hy : y < 256) :
    polyOf (gfMultiply x y) = (polyOf x * polyOf y) %ₘ modulus := by
  have hsame : AdjoinRoot.mk modulus (polyOf (gfMultiply x y)) = AdjoinRoot.mk modulus (polyOf x * polyOf y) := by
    rw [map_mul]
    exact element_gfMultiply hx hy
  rw [← (modByMonic_eq_self_iff modulus_degree.1).mpr (degree_polyOf (gfMultiply_lt x y))]
  exact (modByMonic_eq_of_dvd_sub modulus_degree.1 (AdjoinRoot.mk_eq_mk.mp hsame))

/-- The inverse of a byte, as its power 254. -/
def inverse (x : ℕ) : ℕ :=
  ((List.range 7).foldl (fun (square, power) _ => (gfMultiply square square, gfMultiply power (gfMultiply square square)))
    (x, 1)).2

/-- **Every byte but 0 has an inverse.** -/
theorem gfMultiply_inverse : ∀ x < 256, x ≠ 0 → inverse x < 256 ∧ gfMultiply x (inverse x) = 1 := by decide +kernel

theorem element_one : element 1 = 1 := by
  rw [element, polyOf_one, map_one]

/-! ### The divisor -/

/-- A round of the divisor multiplies by a linear factor. -/
theorem map_multiplyRoot {root : ℕ} (hroot : root < 256) (l : List ℕ) (hl : ∀ c ∈ l, c < 256) :
    (multiplyRoot root l).map element = timesLinear (element root) (l.map element) ∧
      ∀ c ∈ multiplyRoot root l, c < 256 := by
  fun_induction multiplyRoot root l with
  | case1 => exact ⟨rfl, hl⟩
  | case2 c =>
    refine ⟨?_, fun n hn => ?_⟩
    · rw [List.map_singleton, element_gfMultiply (hl c List.mem_cons_self) hroot]
      rfl
    · rw [List.mem_singleton.mp hn]
      exact gfMultiply_lt c root
  | case3 c d cs ih =>
    obtain ⟨hc, hrest⟩ := List.forall_mem_cons.mp hl
    obtain ⟨hmap, hbytes⟩ := ih hrest
    refine ⟨?_, List.forall_mem_cons.mpr ⟨?_, hbytes⟩⟩
    · rw [List.map_cons, hmap, element_xor, element_gfMultiply hc hroot]
      rfl
    · exact Nat.xor_lt_two_pow (n := 8) (gfMultiply_lt c root) (hrest d List.mem_cons_self)

/-- The powers of 2. -/
noncomputable def roots (degree : ℕ) : List GF256 := (List.range degree).map fun i => element 2 ^ i

/-- **The divisor** is the product of the linear factors of the powers of 2, without its highest coefficient. -/
theorem map_rsComputeDivisor (degree : ℕ) :
    (rsComputeDivisor degree).map element = monicProduct (roots degree) ∧ ∀ c ∈ rsComputeDivisor degree, c < 256 := by
  have hstart : (List.replicate (degree - 1) 0 ++ [1]).map element = List.replicate (degree - 1) 0 ++ [1] := by
    rw [List.map_append, List.map_replicate, element_zero, List.map_singleton, element_one]
  have hbytes : ∀ c ∈ List.replicate (degree - 1) 0 ++ [1], c < 256 := by
    intro c hc
    rcases List.mem_append.mp hc with hc | hc
    · rw [List.eq_of_mem_replicate hc]
      decide
    · rw [List.mem_singleton.mp hc]
      decide
  -- after some rounds, the coefficients so far and the next root
  have hrounds (k : ℕ) : ∃ l root, (List.range k).foldl (fun state _ =>
        (multiplyRoot state.2 state.1, gfMultiply state.2 0x02)) (List.replicate (degree - 1) 0 ++ [1], 1) = (l, root) ∧
      l.map element = (roots k).foldl (fun p r => timesLinear r p) (List.replicate (degree - 1) 0 ++ [1]) ∧
      (∀ c ∈ l, c < 256) ∧ root < 256 ∧ element root = element 2 ^ k := by
    induction k with
    | zero => exact ⟨_, _, rfl, hstart, hbytes, by decide, by rw [element_one, pow_zero]⟩
    | succ k ih =>
      obtain ⟨l, root, hfold, hmap, hl, hroot, hpower⟩ := ih
      obtain ⟨hmap', hl'⟩ := map_multiplyRoot hroot l hl
      refine ⟨multiplyRoot root l, gfMultiply root 0x02, ?_, ?_, hl', gfMultiply_lt _ _, ?_⟩
      · rw [List.range_succ, List.foldl_append, hfold]
        rfl
      · rw [hmap', hmap, hpower, roots, roots, List.range_succ, List.map_append, List.foldl_append]
        rfl
      · rw [element_gfMultiply hroot (by decide), hpower, pow_succ]
  obtain ⟨l, root, hfold, hmap, hl, -⟩ := hrounds degree
  have hdivisor : rsComputeDivisor degree = l := congrArg Prod.fst hfold
  rw [hdivisor]
  refine ⟨?_, hl⟩
  rw [hmap, monicProduct, roots, List.length_map, List.length_range]

/-! ### The remainder -/

theorem map_zipWith_gfMultiply {factor : ℕ} (hfactor : factor < 256) (l m : List ℕ) (hm : ∀ c ∈ m, c < 256) :
    (List.zipWith (fun r coef => r ^^^ gfMultiply coef factor) l m).map element =
      List.zipWith (fun a c => a + c * element factor) (l.map element) (m.map element) := by
  induction l generalizing m with
  | nil => rfl
  | cons r l ih =>
    cases m with
    | nil => rfl
    | cons coef m =>
      obtain ⟨hcoef, hm⟩ := List.forall_mem_cons.mp hm
      rw [List.zipWith_cons_cons, List.map_cons, ih m hm, element_xor, element_gfMultiply hcoef hfactor]
      rfl

/-- **The remainder** is what is left in the register. -/
theorem map_rsComputeRemainder {data divisor : List ℕ} (hdata : ∀ b ∈ data, b < 256) (hdivisor : ∀ c ∈ divisor, c < 256) :
    (rsComputeRemainder data divisor).map element = register (divisor.map element) (data.map element) := by
  induction data using List.reverseRecOn with
  | nil =>
    rw [rsComputeRemainder, List.foldl_nil, List.map_replicate, element_zero, register, List.map_nil, List.foldl_nil,
      List.length_map]
  | append_singleton data b ih =>
    rw [List.forall_mem_append] at hdata
    have hhead : ((rsComputeRemainder data divisor).map element).headD 0 =
        element ((rsComputeRemainder data divisor).headD 0) := by
      cases rsComputeRemainder data divisor with
      | nil => exact element_zero.symm
      | cons r l => rfl
    have hfactor : b ^^^ (rsComputeRemainder data divisor).headD 0 < 256 := by
      refine Nat.xor_lt_two_pow (n := 8) (hdata.2 b (List.mem_singleton_self b)) ?_
      have hbytes := (rsComputeRemainder_bytes data divisor).2
      cases hresult : rsComputeRemainder data divisor with
      | nil => decide
      | cons r l => exact hbytes r (hresult ▸ List.mem_cons_self)
    rw [rsComputeRemainder, List.foldl_append, ← rsComputeRemainder, List.foldl_cons, List.foldl_nil,
      map_zipWith_gfMultiply hfactor _ _ hdivisor, element_xor, List.map_append, List.map_append, register,
      List.foldl_append, ← register, ← ih hdata.1, List.map_singleton, List.map_singleton, List.foldl_cons, List.foldl_nil,
      hhead, sub_eq_add_neg, gf_neg, element_zero, List.map_tail]

/-- The generator of a degree: the product of the factors x - 2^i. -/
noncomputable def generator (degree : ℕ) : GF256[X] := ∏ i ∈ Finset.range degree, (X - C (element 2 ^ i))

theorem generator_eq {degree : ℕ} (h : 0 < degree) :
    X ^ degree + ofCoeffs ((rsComputeDivisor degree).map element) = generator degree := by
  have hlength : (roots degree).length = degree := by rw [roots, List.length_map, List.length_range]
  have hne : roots degree ≠ [] := List.ne_nil_of_length_pos (hlength.symm ▸ h)
  have hspec := monicProduct_spec hne
  rw [hlength] at hspec
  have hfactor : ((fun r => X + C r) ∘ fun i => element 2 ^ i) = fun i => X - C (element 2 ^ i) := by
    funext i
    rw [Function.comp_apply, sub_eq_add_neg, ← C_neg, gf_neg]
  rw [(map_rsComputeDivisor degree).1, hspec, generator, roots, List.map_map, hfactor]
  rfl

/-- **A block is a multiple of the generator.** -/
theorem generator_dvd {degree : ℕ} (h : 0 < degree) {data : List ℕ} (hdata : ∀ b ∈ data, b < 256) :
    generator degree ∣ ofCoeffs ((data ++ rsComputeRemainder data (rsComputeDivisor degree)).map element) := by
  obtain ⟨-, hbytes⟩ := map_rsComputeDivisor degree
  have hlength : ((rsComputeDivisor degree).map element).length = degree := by
    rw [List.length_map, rsComputeDivisor_length h]
  have hdvd := dvd_register (List.ne_nil_of_length_pos (hlength.symm ▸ h)) (data.map element)
  rwa [hlength, generator_eq h, ← map_rsComputeRemainder hdata hbytes, ← List.map_append] at hdvd

/-- The syndromes of a block: its values at the powers of 2. -/
noncomputable def syndrome (block : List ℕ) (i : ℕ) : GF256 := (ofCoeffs (block.map element)).eval (element 2 ^ i)

/-- **They are zero.** -/
theorem syndrome_eq_zero {degree : ℕ} (h : 0 < degree) {data : List ℕ} (hdata : ∀ b ∈ data, b < 256) {i : ℕ}
    (hi : i < degree) : syndrome (data ++ rsComputeRemainder data (rsComputeDivisor degree)) i = 0 := by
  have hroot : (generator degree).eval (element 2 ^ i) = 0 := by
    rw [generator, eval_prod]
    exact Finset.prod_eq_zero (Finset.mem_range.mpr hi) (by rw [eval_sub, eval_X, eval_C, sub_self])
  obtain ⟨q, hq⟩ := generator_dvd h hdata
  rw [syndrome, hq, eval_mul, hroot, zero_mul]

/-! ### The blocks of a symbol -/

section Emitted

variable {data : List ℕ} {ver : ℕ} {ecl : Ecl}

variable (ver ecl) in
/-- The codewords of a block among those of a symbol: its data codewords and its error correction codewords. -/
def emittedBlock (codewords : List ℕ) (j : ℕ) : List ℕ :=
  (List.range (shortDataLen ver ecl)).map (fun i => codewords.getD (i * numBlocks ver ecl + j) 0) ++
    (if j < numShortBlocks ver ecl then []
      else [codewords.getD (shortDataLen ver ecl * numBlocks ver ecl + (j - numShortBlocks ver ecl)) 0]) ++
    (List.range (blockEccLen ver ecl)).map fun i =>
      codewords.getD (getNumDataCodewords ver ecl + (i * numBlocks ver ecl + j)) 0

/-- A block has its remainder after its data and the placeholder. -/
theorem block_getD_ecc (h : Layout ver ecl) (hdata : data.length = getNumDataCodewords ver ecl) {i j : ℕ}
    (hj : j < numBlocks ver ecl) : (block data ver ecl j).getD (shortDataLen ver ecl + 1 + i) 0 =
      (rsComputeRemainder (blockData data ver ecl j) (rsComputeDivisor (blockEccLen ver ecl))).getD i 0 := by
  have hlength := blockData_length h hdata hj
  unfold blockDataLen at hlength
  unfold block
  split
  · rename_i hshort
    rw [if_pos hshort] at hlength
    rw [List.getD_append_right _ _ _ _ (by rw [List.length_append, List.length_singleton]; omega), List.length_append,
      List.length_singleton, hlength, Nat.add_zero, Nat.add_sub_cancel_left]
  · rename_i hshort
    rw [if_neg hshort] at hlength
    rw [List.getD_append_right _ _ _ _ (by omega), hlength, Nat.add_sub_cancel_left]

/-- The error correction codewords come after the data codewords, row by row. -/
theorem getD_ecc (h : Layout ver ecl) (hdata : data.length = getNumDataCodewords ver ecl) {i j : ℕ}
    (hi : i < blockEccLen ver ecl) (hj : j < numBlocks ver ecl) :
    (addEccAndInterleave data ver ecl).getD (getNumDataCodewords ver ecl + (i * numBlocks ver ecl + j)) 0 =
      (rsComputeRemainder (blockData data ver ecl j) (rsComputeDivisor (blockEccLen ver ecl))).getD i 0 := by
  have hlength := addEccAndInterleave_length h hdata
  have hrows : (List.range (blockEccLen ver ecl)).flatMap (fun i => codewordRow data ver ecl (shortDataLen ver ecl + 1 + i)) =
      (List.range (blockEccLen ver ecl)).flatMap fun i => (List.range (numBlocks ver ecl)).map fun j =>
        (block data ver ecl j).getD (shortDataLen ver ecl + 1 + i) 0 :=
    List.flatMap_congr fun i _ => codewordRow_of_ne (by omega)
  rw [addEccAndInterleave_rows h hdata, List.range_add, List.flatMap_append, List.flatMap_map, hrows] at hlength ⊢
  generalize (List.range (shortDataLen ver ecl + 1)).flatMap (codewordRow data ver ecl) = first at hlength ⊢
  have hsecond : ((List.range (blockEccLen ver ecl)).flatMap fun i => (List.range (numBlocks ver ecl)).map fun j =>
      (block data ver ecl j).getD (shortDataLen ver ecl + 1 + i) 0).length = blockEccLen ver ecl * numBlocks ver ecl := by
    simp [List.length_flatMap]
  have hfirst : first.length = getNumDataCodewords ver ecl := by
    rw [List.length_append, hsecond, h.raw_eq] at hlength
    omega
  have hentry := getD_rows (fun i j => (block data ver ecl j).getD (shortDataLen ver ecl + 1 + i) 0) [] 0 hi hj
  rw [List.append_nil] at hentry
  rw [List.getD_append_right _ _ _ _ (by omega), hfirst, Nat.add_sub_cancel_left, hentry, block_getD_ecc h hdata hj]

/-- **The blocks of a symbol** are its data blocks, each with its remainder. -/
theorem emittedBlock_eq (h : Layout ver ecl) (hdata : data.length = getNumDataCodewords ver ecl) {j : ℕ}
    (hj : j < numBlocks ver ecl) : emittedBlock ver ecl (addEccAndInterleave data ver ecl) j =
      blockData data ver ecl j ++ rsComputeRemainder (blockData data ver ecl j) (rsComputeDivisor (blockEccLen ver ecl)) := by
  obtain ⟨ecc, -, heq⟩ := addEccAndInterleave_eq h hdata
  have hlength := blockData_length h hdata hj
  have hcolumns : ((List.range (shortDataLen ver ecl)).map fun i =>
      (addEccAndInterleave data ver ecl).getD (i * numBlocks ver ecl + j) 0) =
      (List.range (shortDataLen ver ecl)).map fun i => (blockData data ver ecl j).getD i 0 := by
    refine List.map_congr_left fun i hi => ?_
    rw [heq, getD_rows _ _ _ (List.mem_range.mp hi) hj]
  have hremainder : ((List.range (blockEccLen ver ecl)).map fun i =>
      (addEccAndInterleave data ver ecl).getD (getNumDataCodewords ver ecl + (i * numBlocks ver ecl + j)) 0) =
      rsComputeRemainder (blockData data ver ecl j) (rsComputeDivisor (blockEccLen ver ecl)) := by
    have hecc : (rsComputeRemainder (blockData data ver ecl j) (rsComputeDivisor (blockEccLen ver ecl))).length =
        blockEccLen ver ecl := by
      rw [(rsComputeRemainder_bytes _ _).1, rsComputeDivisor_length h.ecc_pos]
    have hwhole := map_getD_range (rsComputeRemainder (blockData data ver ecl j)
      (rsComputeDivisor (blockEccLen ver ecl))) 0
    rw [hecc] at hwhole
    rw [← hwhole]
    exact List.map_congr_left fun i hi => getD_ecc h hdata (List.mem_range.mp hi) hj
  rw [emittedBlock, hcolumns, hremainder, List.append_left_inj]
  by_cases hshort : j < numShortBlocks ver ecl
  · rw [blockDataLen, if_pos hshort, Nat.add_zero] at hlength
    rw [if_pos hshort, List.append_nil, ← hlength, map_getD_range]
  · rw [blockDataLen, if_neg hshort] at hlength
    have hwhole := map_getD_range (blockData data ver ecl j) 0
    rw [hlength, List.range_succ, List.map_append, List.map_singleton] at hwhole
    rw [if_neg hshort, getD_addEccAndInterleave h hdata (by omega) hj, hwhole]

end Emitted

/-- **Reed–Solomon**: `gfMultiply` is the multiplication of bytes modulo the polynomial 0x11d, in which every byte but
0 has an inverse; the divisor has the coefficients of the generator but the highest; data followed by their remainder
are a multiple of the generator; and all the syndromes of every block of a symbol are zero. -/
theorem reedSolomon :
    (∀ x y, x < 256 → y < 256 → gfMultiply x y < 256 ∧ polyOf (gfMultiply x y) = (polyOf x * polyOf y) %ₘ modulus) ∧
    (∀ x < 256, x ≠ 0 → ∃ y < 256, gfMultiply x y = 1) ∧
    (∀ degree, 1 ≤ degree → (rsComputeDivisor degree).length = degree ∧
      X ^ degree + ofCoeffs ((rsComputeDivisor degree).map element) = generator degree ∧
      ∀ data, (∀ b ∈ data, b < 256) →
        generator degree ∣ ofCoeffs ((data ++ rsComputeRemainder data (rsComputeDivisor degree)).map element)) ∧
    ∀ version ∈ versions, ∀ ecl data, data.length = getNumDataCodewords version ecl → (∀ b ∈ data, b < 256) →
      ∀ j < numBlocks version ecl, ∀ i < blockEccLen version ecl,
        syndrome (emittedBlock version ecl (addEccAndInterleave data version ecl) j) i = 0 := by
  refine ⟨fun x y hx hy => ⟨gfMultiply_lt x y, gfMultiply_mod hx hy⟩,
    fun x hx hne => ⟨inverse x, gfMultiply_inverse x hx hne⟩,
    fun degree h => ⟨rsComputeDivisor_length h, generator_eq h, fun data hdata => generator_dvd h hdata⟩, ?_⟩
  intro version hversion ecl data hlength hdata j hj i hi
  have h := layout ecl version hversion
  rw [emittedBlock_eq h hlength hj]
  exact syndrome_eq_zero h.ecc_pos (fun b hb => hdata b (List.mem_of_mem_drop (List.mem_of_mem_take hb))) hi

/-- The blocks of the smallest symbol, of zeros. -/
theorem reedSolomon_zeros :
    generator 7 ∣ ofCoeffs ((List.replicate 19 0 ++ rsComputeRemainder (List.replicate 19 0) (rsComputeDivisor 7)).map element) ∧
      syndrome (emittedBlock 1 .L (addEccAndInterleave (List.replicate 19 0) 1 .L) 0) 0 = 0 := by
  have hbytes : ∀ b ∈ List.replicate 19 0, b < 256 := by decide
  obtain ⟨-, -, hremainders, hblocks⟩ := reedSolomon
  exact ⟨(hremainders 7 (by decide)).2.2 _ hbytes,
    hblocks 1 (mem_versions.mpr (by decide)) .L _ (by decide) hbytes 0 (by decide) 0 (by decide)⟩

end AuditSphere.Qr
