import Mathlib.Data.Nat.Bitwise
import Mathlib.Data.List.Induction
import Mathlib.Tactic.Ring

/-!
# Bits and bytes

The bits of a number of a fixed width, the most significant first (`bitsOf`), the number of a
list of bits (`ofBits`), and bits taken eight by eight as bytes (`bytesOf`). Each of the two
directions undoes the other.
-/

namespace AuditSphere.Theory

/-- The lowest bits of a number, the most significant of them first. -/
def bitsOf : ℕ → ℕ → List Bool
  | 0, _ => []
  | width + 1, n => n.testBit width :: bitsOf width n

/-- The number of a list of bits. -/
def ofBits (bits : List Bool) : ℕ := bits.foldl (fun n b => 2 * n + b.toNat) 0

/-- Eight bits by eight. -/
def bytesOf : List Bool → List ℕ
  | b₀ :: b₁ :: b₂ :: b₃ :: b₄ :: b₅ :: b₆ :: b₇ :: bits =>
    ofBits [b₀, b₁, b₂, b₃, b₄, b₅, b₆, b₇] :: bytesOf bits
  | _ => []

@[simp] theorem bitsOf_length (width n : ℕ) : (bitsOf width n).length = width := by
  induction width with
  | zero => rfl
  | succ width ih => simp [bitsOf, ih]

theorem foldl_bitsOf (width n m : ℕ) :
    (bitsOf width n).foldl (fun n b => 2 * n + b.toNat) m = m * 2 ^ width + n % 2 ^ width := by
  induction width generalizing m with
  | zero => simp [bitsOf, Nat.mod_one]
  | succ width ih =>
    rw [bitsOf, List.foldl_cons, ih, Nat.mod_pow_succ, pow_succ, Nat.testBit_eq_decide_div_mod_eq]
    have hbit : (decide (n / 2 ^ width % 2 = 1)).toNat = n / 2 ^ width % 2 := by
      rcases Nat.mod_two_eq_zero_or_one (n / 2 ^ width) with h | h <;> simp [h]
    rw [hbit]
    ring

/-- The bits of a number that fits are those of the number. -/
theorem ofBits_bitsOf {width n : ℕ} (h : n < 2 ^ width) : ofBits (bitsOf width n) = n := by
  rw [ofBits, foldl_bitsOf, Nat.zero_mul, Nat.zero_add, Nat.mod_eq_of_lt h]

/-- A list of eight bits is the bits of a byte. -/
theorem bitsOf_ofBits (b₀ b₁ b₂ b₃ b₄ b₅ b₆ b₇ : Bool) :
    bitsOf 8 (ofBits [b₀, b₁, b₂, b₃, b₄, b₅, b₆, b₇]) = [b₀, b₁, b₂, b₃, b₄, b₅, b₆, b₇] := by
  revert b₀ b₁ b₂ b₃ b₄ b₅ b₆ b₇
  decide

theorem flatMap_bitsOf_length (bytes : List ℕ) : (bytes.flatMap (bitsOf 8)).length = 8 * bytes.length := by
  induction bytes with
  | nil => rfl
  | cons n bytes ih =>
    rw [List.flatMap_cons, List.length_append, ih, bitsOf_length, List.length_cons]
    omega

/-- Bits that make whole bytes are the bits of their bytes. -/
theorem flatMap_bytesOf {bits : List Bool} {n : ℕ} (h : bits.length = 8 * n) :
    (bytesOf bits).length = n ∧ (bytesOf bits).flatMap (bitsOf 8) = bits := by
  induction n generalizing bits with
  | zero =>
    rw [List.eq_nil_of_length_eq_zero h]
    exact ⟨rfl, rfl⟩
  | succ n ih =>
    match bits, h with
    | b₀ :: b₁ :: b₂ :: b₃ :: b₄ :: b₅ :: b₆ :: b₇ :: bits, h =>
      obtain ⟨hlength, hbits⟩ := ih (show bits.length = 8 * n by simp only [List.length_cons] at h; omega)
      refine ⟨by rw [bytesOf, List.length_cons, hlength], ?_⟩
      rw [bytesOf, List.flatMap_cons, hbits, bitsOf_ofBits]
      rfl

/-- Bytes are the bytes of their bits. -/
theorem bytesOf_flatMap {bytes : List ℕ} (h : ∀ n ∈ bytes, n < 256) : bytesOf (bytes.flatMap (bitsOf 8)) = bytes := by
  induction bytes with
  | nil => rfl
  | cons n bytes ih =>
    have hn : ofBits (bitsOf 8 n) = n := ofBits_bitsOf (h n List.mem_cons_self)
    have hbits : bitsOf 8 n = [n.testBit 7, n.testBit 6, n.testBit 5, n.testBit 4, n.testBit 3, n.testBit 2,
        n.testBit 1, n.testBit 0] := rfl
    rw [hbits] at hn
    rw [List.flatMap_cons, hbits]
    simp only [List.cons_append, List.nil_append, bytesOf, hn]
    rw [ih fun m hm => h m (List.mem_cons_of_mem n hm)]

/-- A list of bits is a number of its width. -/
theorem ofBits_lt (bits : List Bool) : ofBits bits < 2 ^ bits.length := by
  induction bits using List.reverseRecOn with
  | nil => decide
  | append_singleton bits b ih =>
    have hb : b.toNat ≤ 1 := Bool.toNat_le b
    have happend : ofBits (bits ++ [b]) = 2 * ofBits bits + b.toNat := by
      rw [ofBits, ofBits, List.foldl_append, List.foldl_cons, List.foldl_nil]
    rw [happend, List.length_append, List.length_singleton, pow_succ]
    omega

/-- Bytes are less than 256. -/
theorem bytesOf_lt (bits : List Bool) : ∀ n ∈ bytesOf bits, n < 256 := by
  fun_induction bytesOf bits with
  | case1 b₀ b₁ b₂ b₃ b₄ b₅ b₆ b₇ bits ih =>
    intro n hn
    rcases List.mem_cons.mp hn with rfl | hn
    · have hlt := ofBits_lt [b₀, b₁, b₂, b₃, b₄, b₅, b₆, b₇]
      simpa using hlt
    · exact ih n hn
  | case2 => intro n hn; cases hn

end AuditSphere.Theory
