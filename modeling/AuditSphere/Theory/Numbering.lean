import AuditSphere.Theory.Program
import Mathlib.Algebra.Ring.Nat
import Mathlib.Data.List.Lex
import Mathlib.Data.Set.Insert

/-!
# Numbered references

Records are numbered by texts that hold a decimal numeral, padded with zeros up to a width
(`numeral`). Texts compare character by character. Numerals of one width stand in the order
of their numbers (`numeral_lt`), but the first numeral that is wider stands before the last
one that is not (`numeral_overflow`).

A `Numbering` is what follows from this for references of any kind: they stand in the order
of their numbers up to a limit. An allocator that gives a new record the reference after the
highest one numbers the records one by one until it has reached the limit, and then it finds
the same reference again and again (`Allocation.filled`, `Numbering.next_free_iff`).
-/

namespace AuditSphere.Theory

/-! ### Numerals -/

/-- The decimal numeral of a number, with zeros in front up to a width. -/
def numeral (width n : ℕ) : List Char :=
  List.replicate (width - (Nat.toDigits 10 n).length) '0' ++ Nat.toDigits 10 n

theorem value_numeral (width n : ℕ) : Nat.ofDigitChars 10 (numeral width n) 0 = n := by
  rw [numeral, Nat.ofDigitChars_append, Nat.ofDigitChars_replicate_zero, Nat.mul_zero, Nat.ofDigitChars_ten_toDigits]

theorem numeral_injective (width : ℕ) : Function.Injective (numeral width) := by
  intro m n h
  rw [← value_numeral width m, h, value_numeral]

theorem isDigit_of_mem_numeral {width n : ℕ} {c : Char} (h : c ∈ numeral width n) : c.isDigit = true := by
  rcases List.mem_append.mp h with h | h
  · rw [List.eq_of_mem_replicate h]
    rfl
  · exact Nat.isDigit_of_mem_toDigits (by decide) (by decide) h

theorem numeral_ne_nil (width n : ℕ) : numeral width n ≠ [] := by
  simp [numeral, Nat.toDigits_ne_nil]

theorem length_numeral {width n : ℕ} (hwidth : 0 < width) (hn : n < 10 ^ width) : (numeral width n).length = width := by
  have := (Nat.length_toDigits_le_iff (b := 10) (by decide) hwidth).mpr hn
  simp only [numeral, List.length_append, List.length_replicate]
  omega

/-- What digits stand for is less than the power of their number. -/
theorem value_lt {l : List Char} (h : ∀ c ∈ l, c.isDigit = true) : Nat.ofDigitChars 10 l 0 < 10 ^ l.length := by
  induction l with
  | nil => simp
  | cons c l ih =>
    have hl := ih fun d hd => h d (List.mem_cons_of_mem c hd)
    obtain ⟨-, hc⟩ := Char.isDigit_iff_toNat.mp (h c List.mem_cons_self)
    have hdigit : 10 * 0 + (c.toNat - '0'.toNat) ≤ 9 := by
      simp only [Char.reduceToNat] at hc ⊢
      omega
    rw [Nat.ofDigitChars_cons, Nat.ofDigitChars_eq_ofDigitChars_zero, List.length_cons, Nat.pow_succ]
    have := Nat.mul_le_mul_left (10 ^ l.length) hdigit
    omega

/-- Digits of one number compare as what they stand for. -/
theorem lt_of_value_lt : ∀ {l l' : List Char}, l.length = l'.length → (∀ c ∈ l, c.isDigit = true) →
    (∀ c ∈ l', c.isDigit = true) → Nat.ofDigitChars 10 l 0 < Nat.ofDigitChars 10 l' 0 → l < l'
  | [], [], _, _, _, h => by simp at h
  | c :: l, c' :: l', hlength, hl, hl', h => by
    rw [List.length_cons, List.length_cons, Nat.succ_inj] at hlength
    have hvalue' := value_lt fun d hd => hl' d (List.mem_cons_of_mem c' hd)
    obtain ⟨hc, -⟩ := Char.isDigit_iff_toNat.mp (hl c List.mem_cons_self)
    obtain ⟨hc', -⟩ := Char.isDigit_iff_toNat.mp (hl' c' List.mem_cons_self)
    rw [Nat.ofDigitChars_cons, Nat.ofDigitChars_eq_ofDigitChars_zero, Nat.ofDigitChars_cons,
      Nat.ofDigitChars_eq_ofDigitChars_zero (l := l'), hlength] at h
    simp only [Nat.mul_zero, Nat.zero_add, Char.reduceToNat] at h hc hc'
    rw [List.cons_lt_cons_iff]
    rcases Nat.lt_trichotomy c.toNat c'.toNat with hlt | heq | hgt
    · exact .inl hlt
    · -- the first digits are the same
      rw [heq] at h
      exact .inr ⟨Char.toNat_inj.mp heq, lt_of_value_lt hlength (fun d hd => hl d (List.mem_cons_of_mem c hd))
        (fun d hd => hl' d (List.mem_cons_of_mem c' hd)) (by omega)⟩
    · -- the first digit is greater, and what follows cannot make up for it
      have hfirst : c'.toNat - 48 + 1 ≤ c.toNat - 48 := by omega
      have := Nat.mul_le_mul_left (10 ^ l'.length) hfirst
      rw [Nat.mul_add, Nat.mul_one] at this
      omega

/-- What digits stand for, by the first of them. -/
theorem value_cons (c : Char) (l : List Char) :
    Nat.ofDigitChars 10 (c :: l) 0 = 10 ^ l.length * (c.toNat - '0'.toNat) + Nat.ofDigitChars 10 l 0 := by
  rw [Nat.ofDigitChars_cons, Nat.ofDigitChars_eq_ofDigitChars_zero, Nat.mul_zero, Nat.zero_add]

/-- Digits of one length that stand for the same are the same. -/
theorem eq_of_value_eq : ∀ {l l' : List Char}, l.length = l'.length → (∀ c ∈ l, c.isDigit = true) →
    (∀ c ∈ l', c.isDigit = true) → Nat.ofDigitChars 10 l 0 = Nat.ofDigitChars 10 l' 0 → l = l'
  | [], [], _, _, _, _ => rfl
  | c :: l, c' :: l', hlength, hl, hl', h => by
    rw [List.length_cons, List.length_cons, Nat.succ_inj] at hlength
    obtain ⟨hc, hdigits⟩ := List.forall_mem_cons.mp hl
    obtain ⟨hc', hdigits'⟩ := List.forall_mem_cons.mp hl'
    have hvalue := value_lt hdigits
    have hvalue' := value_lt hdigits'
    rw [value_cons, value_cons, hlength] at h
    rw [hlength] at hvalue
    have hpos : 0 < 10 ^ l'.length := Nat.pow_pos (by decide)
    have hrest : Nat.ofDigitChars 10 l 0 = Nat.ofDigitChars 10 l' 0 := by
      have hmod := congrArg (· % 10 ^ l'.length) h
      simp only [Nat.mul_add_mod, Nat.mod_eq_of_lt hvalue, Nat.mod_eq_of_lt hvalue'] at hmod
      exact hmod
    rw [hrest, Nat.add_right_cancel_iff] at h
    have hfirst := Nat.eq_of_mul_eq_mul_left hpos h
    have hbounds := Char.isDigit_iff_toNat.mp hc
    have hbounds' := Char.isDigit_iff_toNat.mp hc'
    rw [eq_of_value_eq hlength hdigits hdigits' hrest, Char.toNat_inj.mp (by omega : c.toNat = c'.toNat)]

/-- **Digits are a numeral** exactly if they have no zeros in front beyond the width. -/
theorem numeral_value_iff {width : ℕ} (hwidth : 0 < width) {l : List Char} (hdigits : ∀ c ∈ l, c.isDigit = true)
    (hlength : width ≤ l.length) :
    numeral width (Nat.ofDigitChars 10 l 0) = l ↔ (width < l.length → l.head? ≠ some '0') := by
  have hnumeral (n : ℕ) : (numeral width n).length = max width (Nat.toDigits 10 n).length := by
    rw [numeral, List.length_append, List.length_replicate]
    omega
  constructor
  · rintro heq hlong hhead
    cases l with
    | nil => cases hhead
    | cons c l =>
      -- with a zero in front, fewer digits are enough
      obtain rfl := Option.some.inj hhead
      have hlt := value_lt (List.forall_mem_cons.mp hdigits).2
      rw [List.length_cons] at hlong
      have hfewer := (Nat.length_toDigits_le_iff (b := 10) (by decide) (by omega : 0 < l.length)).mpr hlt
      have hcount := congrArg List.length heq
      rw [value_cons, Nat.sub_self, Nat.mul_zero, Nat.zero_add, hnumeral, List.length_cons] at hcount
      omega
  · intro hhead
    refine eq_of_value_eq ?_ (fun _ => isDigit_of_mem_numeral) hdigits (value_numeral _ _)
    have hle := (Nat.length_toDigits_le_iff (b := 10) (by decide) (by omega : 0 < l.length)).mpr (value_lt hdigits)
    rw [hnumeral]
    rcases Nat.eq_or_lt_of_le hlength with heq | hlong
    · omega
    · cases l with
      | nil => exact absurd hlong (Nat.not_lt_zero _)
      | cons c l =>
        have hpos : 0 < c.toNat - '0'.toNat := by
          have hbounds := Char.isDigit_iff_toNat.mp (hdigits c List.mem_cons_self)
          have hne : c.toNat ≠ '0'.toNat := fun h => hhead hlong (congrArg some (Char.toNat_inj.mp h))
          omega
        have hmany : 10 ^ l.length ≤ Nat.ofDigitChars 10 (c :: l) 0 := by
          rw [value_cons]
          exact Nat.le_add_right_of_le (Nat.le_mul_of_pos_right _ hpos)
        rw [List.length_cons] at hle hlong ⊢
        have hmore := (Nat.length_toDigits_le_iff (b := 10) (by decide) (by omega : 0 < l.length)).not.mpr (Nat.not_lt.mpr hmany)
        omega

/-- **Numerals of one width** stand in the order of their numbers. -/
theorem numeral_lt {width m n : ℕ} (hwidth : 0 < width) (h : m < n) (hn : n < 10 ^ width) :
    numeral width m < numeral width n := by
  refine lt_of_value_lt ?_ (fun _ => isDigit_of_mem_numeral) (fun _ => isDigit_of_mem_numeral) ?_
  · rw [length_numeral hwidth (h.trans hn), length_numeral hwidth hn]
  · rw [value_numeral, value_numeral]
    exact h

theorem toDigits_pow (k : ℕ) : Nat.toDigits 10 (10 ^ k) = '1' :: List.replicate k '0' := by
  induction k with
  | zero => rfl
  | succ k ih =>
    have h := Nat.toDigits_append_toDigits (b := 10) (n := 10 ^ k) (d := 0) (by decide) (Nat.pow_pos (by decide))
      (by decide)
    rw [Nat.add_zero, ← Nat.pow_succ', ih] at h
    rw [← h, List.replicate_succ']
    rfl

theorem toDigits_pow_pred (k : ℕ) : Nat.toDigits 10 (10 ^ (k + 1) - 1) = List.replicate (k + 1) '9' := by
  induction k with
  | zero => rfl
  | succ k ih =>
    have hpos : 9 ≤ 10 ^ (k + 1) - 1 := by
      have := Nat.one_le_pow k 10 (by decide)
      rw [Nat.pow_succ]
      omega
    have h := Nat.toDigits_append_toDigits (b := 10) (n := 10 ^ (k + 1) - 1) (d := 9) (by decide) (by omega) (by decide)
    rw [ih] at h
    rw [show 10 ^ (k + 1 + 1) - 1 = 10 * (10 ^ (k + 1) - 1) + 9 by rw [Nat.pow_succ 10 (k + 1)]; omega, ← h,
      List.replicate_succ' (n := k + 1)]
    rfl

/-- **The first wider numeral** stands before the last one of the width. -/
theorem numeral_overflow {width : ℕ} (hwidth : 0 < width) : numeral width (10 ^ width) < numeral width (10 ^ width - 1) := by
  obtain ⟨k, rfl⟩ := Nat.exists_eq_succ_of_ne_zero hwidth.ne'
  simp only [numeral, toDigits_pow, toDigits_pow_pred, Nat.succ_eq_add_one, List.length_cons, List.length_replicate,
    Nat.sub_self, List.replicate_zero, List.nil_append]
  rw [Nat.sub_eq_zero_of_le (by omega), List.replicate_zero, List.nil_append, List.replicate_succ (n := k) (a := '9'),
    List.cons_lt_cons_iff]
  exact .inl (by decide)

/-! ### Numberings -/

/-- References that are numbered from 1 on, and the one that follows the highest: they stand in
the order of their numbers up to a limit, and the reference with that number stands before
the one before it. -/
structure Numbering (τ : Type) [LinearOrder τ] (limit : ℕ) where
  /-- The reference with a number. -/
  ref : ℕ → τ
  /-- The reference of a new record, after the highest one. -/
  next : Option τ → τ
  next_none : next none = ref 1
  next_ref : ∀ n, next (some (ref n)) = ref (n + 1)
  injective : Function.Injective ref
  ordered : ∀ {m n}, m < n → n < limit → ref m < ref n
  overflow : ref limit < ref (limit - 1)
  two_le : 2 ≤ limit

/-- The highest of some references, if there are any. -/
def Highest {τ : Type} [LT τ] (S : Set τ) : Option τ → Prop
  | none => S = ∅
  | some x => x ∈ S ∧ ∀ y ∈ S, y ≠ x → y < x

theorem Highest.unique {τ : Type} [LinearOrder τ] {S : Set τ} {a b : Option τ} (ha : Highest S a) (hb : Highest S b) :
    a = b := by
  cases a with
  | none =>
    cases b with
    | none => rfl
    | some y =>
      have hy := hb.1
      rw [show S = ∅ from ha] at hy
      cases hy
  | some x =>
    cases b with
    | none =>
      have hx := ha.1
      rw [show S = ∅ from hb] at hx
      cases hx
    | some y =>
      by_contra hne
      have hxy : x ≠ y := fun h => hne (by rw [h])
      exact lt_asymm (hb.2 x ha.1 hxy) (ha.2 y hb.1 hxy.symm)

namespace Numbering

variable {τ : Type} [LinearOrder τ] {limit : ℕ} (N : Numbering τ limit)

/-- The references from 1 to `n`. -/
def filled (n : ℕ) : Set τ := {t | ∃ k, 1 ≤ k ∧ k ≤ n ∧ t = N.ref k}

@[simp] theorem ref_mem_filled {k n : ℕ} : N.ref k ∈ N.filled n ↔ 1 ≤ k ∧ k ≤ n := by
  constructor
  · rintro ⟨j, h₁, h₂, h⟩
    rw [N.injective h]
    exact ⟨h₁, h₂⟩
  · rintro ⟨h₁, h₂⟩
    exact ⟨k, h₁, h₂, rfl⟩

theorem filled_zero : N.filled 0 = ∅ := by
  ext t
  simp only [filled, Set.mem_ofPred_eq, Set.mem_empty_iff_false, iff_false]
  rintro ⟨k, h₁, h₂, -⟩
  omega

theorem filled_succ (n : ℕ) : N.filled (n + 1) = insert (N.ref (n + 1)) (N.filled n) := by
  ext t
  simp only [filled, Set.mem_insert_iff, Set.mem_ofPred_eq]
  constructor
  · rintro ⟨k, h₁, h₂, rfl⟩
    by_cases hk : k = n + 1
    · exact .inl (by rw [hk])
    · exact .inr ⟨k, h₁, by omega, rfl⟩
  · rintro (rfl | ⟨k, h₁, h₂, rfl⟩)
    · exact ⟨n + 1, by omega, le_rfl, rfl⟩
    · exact ⟨k, h₁, by omega, rfl⟩

/-- The highest of the first references is the last one, or the one before it at the limit. -/
theorem highest_eq {n : ℕ} (hn : 0 < n) (hlimit : n ≤ limit) {latest : Option τ} (h : Highest (N.filled n) latest) :
    latest = some (N.ref (if n < limit then n else limit - 1)) := by
  have htwo := N.two_le
  cases latest with
  | none =>
    have hmem : N.ref 1 ∈ N.filled n := N.ref_mem_filled.mpr ⟨le_rfl, hn⟩
    rw [show N.filled n = ∅ from h] at hmem
    cases hmem
  | some x =>
    obtain ⟨⟨k, hk₁, hk₂, rfl⟩, htop⟩ := h
    rw [Option.some.injEq]
    by_contra hne
    split at hne
    · -- all the references stand in the order of their numbers
      rename_i hlt
      have hother : k ≠ n := fun h => hne (by rw [h])
      have hup := N.ordered (m := k) (n := n) (by omega) hlt
      exact lt_asymm hup (htop (N.ref n) (N.ref_mem_filled.mpr ⟨hn, le_rfl⟩) (Ne.symm hne))
    · -- the last reference stands before the one before it
      have hn' : n = limit := by omega
      have hup : N.ref k < N.ref (limit - 1) := by
        by_cases hk : k = limit
        · rw [hk]
          exact N.overflow
        · have hother : k ≠ limit - 1 := fun h => hne (by rw [h])
          exact N.ordered (by omega) (by omega)
      exact lt_asymm hup (htop (N.ref (limit - 1)) (N.ref_mem_filled.mpr ⟨by omega, by omega⟩) (Ne.symm hne))

/-- What follows the first references. -/
theorem next_eq {n : ℕ} (hlimit : n ≤ limit) {latest : Option τ} (h : Highest (N.filled n) latest) :
    N.next latest = N.ref (if n < limit then n + 1 else limit) := by
  have htwo := N.two_le
  rcases Nat.eq_zero_or_pos n with rfl | hn
  · rw [if_pos (by omega)]
    cases latest with
    | none => exact N.next_none
    | some x =>
      rw [N.filled_zero] at h
      exact absurd h.1 (Set.notMem_empty x)
  · rw [N.highest_eq hn hlimit h]
    split
    · exact N.next_ref n
    · rw [N.next_ref, Nat.sub_add_cancel (by omega)]

/-- **Room for one more**: the reference that follows is free exactly below the limit. -/
theorem next_free_iff {n : ℕ} (hlimit : n ≤ limit) {latest : Option τ} (h : Highest (N.filled n) latest) :
    N.next latest ∉ N.filled n ↔ n < limit := by
  have htwo := N.two_le
  rw [N.next_eq hlimit h, N.ref_mem_filled]
  split
  · rename_i hlt
    exact ⟨fun _ => hlt, fun _ hmem => by omega⟩
  · rename_i hge
    exact ⟨fun hfree => absurd ⟨by omega, by omega⟩ hfree, fun hlt => absurd hlt hge⟩

end Numbering

/-! ### Allocators -/

section Allocation

variable {σ ρ ε α ι τ : Type} [DecidableEq ι] [LinearOrder τ] {limit : ℕ} (prog : ρ → Prog σ ε α)

/-- In the history, `n` requests met `C`. -/
inductive Tally (C : σ → ρ → Prop) (s₀ : σ) : ℕ → List ρ → Prop where
  | none : Tally C s₀ 0 []
  | hit {n r past} (h : Tally C s₀ n past) (hC : C (history prog s₀ past) r) : Tally C s₀ (n + 1) (r :: past)
  | miss {n r past} (h : Tally C s₀ n past) (hC : ¬C (history prog s₀ past) r) : Tally C s₀ n (r :: past)

omit [DecidableEq ι] [LinearOrder τ] in
/-- The references that records have. -/
def present (refs : ι → Option τ) : Set τ := {t | ∃ j, refs j = some t}

omit [DecidableEq ι] [LinearOrder τ] in
theorem present_none {refs : ι → Option τ} (h : ∀ j, refs j = none) : present refs = ∅ := by
  ext t
  simp [present, h]

/-- Record `j` is new and has the reference `t`; the other records have the references they had. -/
def Issued (refs : ι → Option τ) (j : ι) (t : τ) (refs' : ι → Option τ) : Prop :=
  refs j = none ∧ refs' = fun i => if i = j then some t else refs i

omit [LinearOrder τ] in
theorem Issued.present {refs refs' : ι → Option τ} {j : ι} {t : τ} (h : Issued refs j t refs') :
    present refs' = insert t (present refs) := by
  obtain ⟨hj, rfl⟩ := h
  ext t'
  constructor
  · rintro ⟨i, hi⟩
    dsimp only at hi
    split at hi
    · exact .inl (Option.some.inj hi).symm
    · exact .inr ⟨i, hi⟩
  · rintro (rfl | ⟨i, hi⟩)
    · exact ⟨j, if_pos rfl⟩
    · refine ⟨i, ?_⟩
      dsimp only
      rw [if_neg ?_, hi]
      rintro rfl
      rw [hj] at hi
      cases hi

/-- Requests that give new records the references of a numbering: in a state in which `I`
holds, `refs` are the references of the records, and where these are the first references a
request that creates a record gives it the one that follows the highest, `latest`, which is
free. -/
structure Allocation (N : Numbering τ limit) (refs : σ → ι → Option τ) (latest : σ → Option τ) (Creates : σ → ρ → Prop)
    (I : σ → Prop) : Prop where
  invariant : ∀ s r, I s → I (after prog s r)
  highest : ∀ s, I s → Highest (present (refs s)) (latest s)
  kept : ∀ s r, I s → ¬Creates s r → refs (after prog s r) = refs s
  created : ∀ s r n, I s → present (refs s) = N.filled n → Creates s r →
    N.next (latest s) ∉ present (refs s) ∧ ∃ j, Issued (refs s) j (N.next (latest s)) (refs (after prog s r))

variable {prog} {N : Numbering τ limit} {refs : σ → ι → Option τ} {latest : σ → Option τ} {Creates : σ → ρ → Prop}
  {I : σ → Prop} {s₀ : σ} {n : ℕ} {past : List ρ}

/-- **Numbered one by one**: after `n` creations the references are those from 1 to `n`, and
there are no more of them than the limit. -/
theorem Allocation.filled (h : Allocation prog N refs latest Creates I) (h₀ : I s₀) (hnone : ∀ j, refs s₀ j = none)
    (htally : Tally prog Creates s₀ n past) : I (history prog s₀ past) ∧
      present (refs (history prog s₀ past)) = N.filled n ∧ n ≤ limit := by
  induction htally with
  | none =>
    refine ⟨h₀, ?_, Nat.zero_le limit⟩
    rw [N.filled_zero]
    exact present_none hnone
  | @hit n r past _ hC ih =>
    obtain ⟨hI, hfilled, hlimit⟩ := ih
    obtain ⟨hfree, j, hissued⟩ := h.created _ r n hI hfilled hC
    have hhighest := h.highest _ hI
    rw [hfilled] at hhighest hfree
    have hlt := (N.next_free_iff hlimit hhighest).mp hfree
    have hnext := N.next_eq hlimit hhighest
    rw [if_pos hlt] at hnext
    refine ⟨h.invariant _ r hI, ?_, hlt⟩
    rw [history, hissued.present, hfilled, hnext, N.filled_succ]
  | @miss n r past _ hC ih =>
    obtain ⟨hI, hfilled, hlimit⟩ := ih
    refine ⟨h.invariant _ r hI, ?_, hlimit⟩
    rw [history, h.kept _ r hI hC]
    exact hfilled

/-- A creation happens below the limit. -/
theorem Allocation.lt_of_creates (h : Allocation prog N refs latest Creates I) (h₀ : I s₀)
    (hnone : ∀ j, refs s₀ j = none) (htally : Tally prog Creates s₀ n past) {r : ρ}
    (hC : Creates (history prog s₀ past) r) : n < limit := by
  obtain ⟨hI, hfilled, hlimit⟩ := h.filled h₀ hnone htally
  have hfree := (h.created _ r n hI hfilled hC).1
  rw [hfilled] at hfree
  exact (N.next_free_iff hlimit (hfilled ▸ h.highest _ hI)).mp hfree

/-- **The next creation**: a request that creates a record wherever the reference that follows
is free does so below the limit, with the next number, and not at the limit. -/
theorem Allocation.next_iff (h : Allocation prog N refs latest Creates I) (h₀ : I s₀) (hnone : ∀ j, refs s₀ j = none)
    (htally : Tally prog Creates s₀ n past) {r : ρ}
    (hready : I (history prog s₀ past) → present (refs (history prog s₀ past)) = N.filled n →
      N.next (latest (history prog s₀ past)) ∉ present (refs (history prog s₀ past)) →
        Creates (history prog s₀ past) r) :
    (Creates (history prog s₀ past) r ∧
      ∃ j, Issued (refs (history prog s₀ past)) j (N.ref (n + 1)) (refs (after prog (history prog s₀ past) r))) ↔
        n < limit := by
  obtain ⟨hI, hfilled, hlimit⟩ := h.filled h₀ hnone htally
  constructor
  · rintro ⟨hC, -⟩
    exact h.lt_of_creates h₀ hnone htally hC
  · intro hlt
    have hhighest := h.highest _ hI
    rw [hfilled] at hhighest
    have hfree := (N.next_free_iff hlimit hhighest).mpr hlt
    rw [← hfilled] at hfree
    have hC := hready hI hfilled hfree
    have hissued := (h.created _ r n hI hfilled hC).2
    rw [N.next_eq hlimit hhighest, if_pos hlt] at hissued
    exact ⟨hC, hissued⟩

end Allocation

end AuditSphere.Theory
