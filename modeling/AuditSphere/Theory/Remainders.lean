import Mathlib.Algebra.Polynomial.Eval.Defs
import Mathlib.Data.List.Induction
import Mathlib.Tactic.Ring

/-!
# Division of polynomials in a register

Polynomials over a commutative ring as lists of their coefficients, the highest first
(`ofCoeffs`). Such a list is multiplied by a linear factor in place (`timesLinear`), and a
monic product of linear factors is made in a list that leaves its highest coefficient out
(`monicProduct_spec`). A monic polynomial divides others in a register that is shifted by one
coefficient at a time (`register`): what is in it takes the dividend to a multiple of the
divisor (`dvd_register`).
-/

namespace AuditSphere.Theory

open Polynomial

variable {R : Type} [CommRing R]

/-! ### Coefficients -/

/-- The polynomial with the given coefficients, the highest first. -/
noncomputable def ofCoeffs : List R → R[X]
  | [] => 0
  | a :: l => X ^ l.length * C a + ofCoeffs l

theorem ofCoeffs_append (l m : List R) : ofCoeffs (l ++ m) = X ^ m.length * ofCoeffs l + ofCoeffs m := by
  induction l with
  | nil => simp [ofCoeffs]
  | cons a l ih =>
    rw [List.cons_append, ofCoeffs, ofCoeffs, ih, List.length_append]
    ring

theorem ofCoeffs_singleton (a : R) : ofCoeffs [a] = C a := by
  simp [ofCoeffs]

theorem ofCoeffs_replicate_zero (n : ℕ) : ofCoeffs (List.replicate n (0 : R)) = 0 := by
  induction n with
  | zero => rfl
  | succ n ih => rw [List.replicate_succ, ofCoeffs, ih, C_0, mul_zero, add_zero]

/-- Coefficients are added and multiplied one by one. -/
theorem ofCoeffs_zipWith (f : R) {l m : List R} (h : l.length = m.length) :
    ofCoeffs (List.zipWith (fun a b => a + b * f) l m) = ofCoeffs l + C f * ofCoeffs m := by
  induction l generalizing m with
  | nil =>
    obtain rfl := List.length_eq_zero_iff.mp h.symm
    simp [ofCoeffs]
  | cons a l ih =>
    cases m with
    | nil => cases h
    | cons b m =>
      have hlength : l.length = m.length := Nat.succ_inj.mp h
      rw [List.zipWith_cons_cons, ofCoeffs, ofCoeffs, ofCoeffs, ih hlength, List.length_zipWith, hlength, Nat.min_self,
        C_add, C_mul]
      ring

/-- A shift takes out the highest coefficient. -/
theorem ofCoeffs_shift {l : List R} (h : l ≠ []) :
    ofCoeffs (l.tail ++ [0]) = X * ofCoeffs l - X ^ l.length * C (l.headD 0) := by
  cases l with
  | nil => exact absurd rfl h
  | cons a l =>
    rw [List.tail_cons, ofCoeffs_append, ofCoeffs_singleton, ofCoeffs, List.headD_cons, List.length_singleton,
      List.length_cons, C_0]
    ring

/-! ### Products of linear factors -/

/-- Every coefficient is multiplied by a number, and the one below it, which is not yet, is added to it. -/
def timesLinear (r : R) : List R → List R
  | [] => []
  | [c] => [c * r]
  | c :: d :: cs => (c * r + d) :: timesLinear r (d :: cs)

theorem length_timesLinear (r : R) (l : List R) : (timesLinear r l).length = l.length := by
  fun_induction timesLinear r l <;> simp_all

/-- **Times a linear factor**: the highest coefficient leaves the list. -/
theorem ofCoeffs_timesLinear (r : R) (l : List R) :
    ofCoeffs (timesLinear r l) = (X + C r) * ofCoeffs l - X ^ l.length * C (l.headD 0) := by
  fun_induction timesLinear r l with
  | case1 => simp [ofCoeffs]
  | case2 c =>
    rw [ofCoeffs_singleton, ofCoeffs_singleton, List.headD_cons, List.length_singleton, C_mul]
    ring
  | case3 c d cs ih =>
    rw [ofCoeffs, ih, length_timesLinear, List.headD_cons, List.headD_cons]
    conv_rhs => rw [ofCoeffs]
    rw [C_add, C_mul, show (c :: d :: cs).length = (d :: cs).length + 1 from rfl]
    ring

/-- Zeros in front move up by one place. -/
theorem timesLinear_replicate (r : R) (n : ℕ) (l : List R) :
    timesLinear r (List.replicate (n + 1) 0 ++ 1 :: l) = List.replicate n 0 ++ 1 :: timesLinear r (1 :: l) := by
  induction n with
  | zero => simp [timesLinear]
  | succ n ih =>
    rw [List.replicate_succ, List.replicate_succ, List.cons_append, List.cons_append, timesLinear, ← List.cons_append,
      ← List.replicate_succ, ih, zero_mul, zero_add, ← List.cons_append, ← List.replicate_succ]

/-- As long as there are zeros in front the list is the product. -/
theorem foldl_timesLinear (roots : List R) (n : ℕ) (l : List R) :
    ∃ l', roots.foldl (fun p r => timesLinear r p) (List.replicate (n + roots.length) 0 ++ 1 :: l) =
        List.replicate n 0 ++ 1 :: l' ∧ l'.length = l.length + roots.length ∧
      ofCoeffs (1 :: l') = (roots.map fun r => X + C r).prod * ofCoeffs (1 :: l) := by
  induction roots generalizing l with
  | nil => exact ⟨l, rfl, rfl, (one_mul _).symm⟩
  | cons r roots ih =>
    obtain ⟨l', hfold, hlength, hprod⟩ := ih (timesLinear r (1 :: l))
    refine ⟨l', ?_, ?_, ?_⟩
    · rw [List.foldl_cons, List.length_cons, ← Nat.add_assoc, timesLinear_replicate, hfold]
    · rw [hlength, length_timesLinear, List.length_cons, List.length_cons]
      omega
    · rw [hprod, List.map_cons, List.prod_cons]
      have hone : ofCoeffs (1 :: timesLinear r (1 :: l)) = (X + C r) * ofCoeffs (1 :: l) := by
        rw [ofCoeffs, ofCoeffs_timesLinear, length_timesLinear, List.headD_cons]
        ring
      rw [hone]
      ring

/-- The product of the linear factors of some roots, in a list with as many places. -/
def monicProduct (roots : List R) : List R :=
  roots.foldl (fun p r => timesLinear r p) (List.replicate (roots.length - 1) 0 ++ [1])

theorem length_monicProduct {roots : List R} (h : roots ≠ []) : (monicProduct roots).length = roots.length := by
  have hlength : ∀ (roots l : List R), (roots.foldl (fun p r => timesLinear r p) l).length = l.length := by
    intro roots
    induction roots with
    | nil => exact fun l => rfl
    | cons r roots ih => exact fun l => by rw [List.foldl_cons, ih, length_timesLinear]
  have hpos := List.length_pos_of_ne_nil h
  rw [monicProduct, hlength, List.length_append, List.length_replicate, List.length_singleton]
  omega

/-- **The list has all the coefficients but the highest**, which is 1. -/
theorem monicProduct_spec {roots : List R} (h : roots ≠ []) :
    X ^ roots.length + ofCoeffs (monicProduct roots) = (roots.map fun r => X + C r).prod := by
  obtain ⟨init, r, rfl⟩ := (List.eq_nil_or_concat' roots).resolve_left h
  obtain ⟨l', hfold, hlength, hprod⟩ := foldl_timesLinear init 0 []
  have hlast : monicProduct (init ++ [r]) = timesLinear r (1 :: l') := by
    rw [Nat.zero_add] at hfold
    rw [monicProduct, List.foldl_append, List.length_append, List.length_singleton, Nat.add_sub_cancel, hfold]
    rfl
  rw [hlast, ofCoeffs_timesLinear, hprod, List.length_append, List.length_singleton, List.map_append, List.prod_append,
    List.length_cons, hlength, List.headD_cons, ofCoeffs_singleton]
  simp only [List.map_cons, List.map_nil, List.prod_singleton, List.length_nil, Nat.zero_add, map_one]
  ring

/-! ### The register -/

/-- What is in the register after the coefficients of a dividend, for a monic divisor with other coefficients `g`. -/
def register (g data : List R) : List R :=
  data.foldl (fun r b => List.zipWith (fun a c => a + c * (b - r.headD 0)) (r.tail ++ [0]) g) (List.replicate g.length 0)

theorem length_register {g : List R} (hg : g ≠ []) (data : List R) : (register g data).length = g.length := by
  have hpos := List.length_pos_of_ne_nil hg
  induction data using List.reverseRecOn with
  | nil => exact List.length_replicate
  | append_singleton data b ih =>
    rw [register, List.foldl_append, ← register, List.foldl_cons, List.foldl_nil, List.length_zipWith, List.length_append,
      List.length_tail, ih, List.length_singleton]
    omega

/-- **The register holds the remainder**: the dividend, followed by it, is a multiple of the divisor. -/
theorem dvd_register {g : List R} (hg : g ≠ []) (data : List R) :
    X ^ g.length + ofCoeffs g ∣ ofCoeffs (data ++ register g data) := by
  have hpos := List.length_pos_of_ne_nil hg
  rw [ofCoeffs_append, length_register hg]
  induction data using List.reverseRecOn with
  | nil => simp [register, ofCoeffs, ofCoeffs_replicate_zero]
  | append_singleton data b ih =>
    have hlength := length_register hg data
    have hne : register g data ≠ [] := List.ne_nil_of_length_pos (hlength ▸ hpos)
    rw [register, List.foldl_append, ← register, List.foldl_cons, List.foldl_nil, ofCoeffs_append, ofCoeffs_singleton,
      ofCoeffs_zipWith, ofCoeffs_shift hne, hlength, List.length_singleton, C_sub]
    · -- the shift multiplies what was divided, and the factor takes out what has left the register
      have hsum : X ^ g.length * (X ^ 1 * ofCoeffs data + C b) +
          (X * ofCoeffs (register g data) - X ^ g.length * C ((register g data).headD 0) +
            (C b - C ((register g data).headD 0)) * ofCoeffs g) =
          X * (X ^ g.length * ofCoeffs data + ofCoeffs (register g data)) +
            (C b - C ((register g data).headD 0)) * (X ^ g.length + ofCoeffs g) := by
        ring
      rw [hsum]
      exact dvd_add (dvd_mul_of_dvd_right ih X) (dvd_mul_left _ _)
    · rw [List.length_append, List.length_tail, hlength, List.length_singleton]
      omega

end AuditSphere.Theory
