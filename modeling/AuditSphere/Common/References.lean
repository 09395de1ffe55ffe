import AuditSphere.Theory.Numbering
import Mathlib.Data.String.Basic

/-!
# References

Findings, evidence records, requests and engagements are numbered by references such as
`E-001`. A new reference has the number after that of the greatest one, which is
found by comparing texts. Text columns compare by code points.

So the references of a kind are a `Numbering`, whose limit is the first number that does
not fit the width (`textNumbering`).
-/

namespace AuditSphere

open Theory

/-- `pad`: the number with zeros in front, up to a width. -/
def pad (n width : ℕ) : String :=
  let digits := toString n
  "".pushn '0' (width - digits.length) ++ digits

/-- The number of a reference, a letter, a hyphen and digits. -/
def referenceNumber (letter : Char) (reference : String) : Option ℕ :=
  match reference.toList with
  | l :: '-' :: digits => if l = letter ∧ digits ≠ [] ∧ digits.all Char.isDigit then (String.ofList digits).toNat? else none
  | _ => none

/-- The first text in descending order. -/
def greatest (texts : List String) : Option String :=
  texts.foldl (fun acc t => match acc with
    | none => some t
    | some m => if m < t then some t else some m) none

/-! ### Padded numbers -/

theorem toList_pushn (s : String) (c : Char) (n : ℕ) : (s.pushn c n).toList = s.toList ++ List.replicate n c := by
  rw [String.pushn_eq_repeat_push]
  induction n with
  | zero => simp [Nat.repeat]
  | succ n ih =>
    rw [Nat.repeat, String.toList_push, ih, List.replicate_succ', List.append_assoc]

theorem toList_pad (n width : ℕ) : (pad n width).toList = numeral width n := by
  have hdigits : (toString n).toList = Nat.toDigits 10 n := by rw [Nat.toString_eq_repr, Nat.toList_repr]
  unfold pad numeral
  rw [String.toList_append, toList_pushn, hdigits, ← String.length_toList, hdigits]
  rfl

/-- The loop of `isNat` over digits remembers that it has seen one. -/
theorem forIn_digits {f : Char → Option Bool × Bool → Id (ForInStep (Option Bool × Bool))}
    (hf : ∀ c, c.isDigit = true → ∀ b, f c (none, b) = pure (.yield (none, true))) :
    ∀ (l : List Char) (b : Bool), (∀ c ∈ l, c.isDigit = true) →
      forIn l (none, b) f = pure (none, if l = [] then b else true)
  | [], _, _ => rfl
  | c :: l, b, hl => by
    rw [List.forIn_cons, hf c (hl c List.mem_cons_self) b]
    have := forIn_digits hf l true fun d hd => hl d (List.mem_cons_of_mem c hd)
    simpa using this

/-- Digits are read back. -/
theorem toNat?_numeral (width n : ℕ) : (String.ofList (numeral width n)).toNat? = some n := by
  have hnat : (String.ofList (numeral width n)).toSlice.isNat = true := by
    unfold String.Slice.isNat
    simp only [String.Slice.forIn_eq_forIn_toList, String.copy_toSlice, String.toList_ofList]
    rw [forIn_digits ?_ (numeral width n) false fun c => isDigit_of_mem_numeral]
    · simp [numeral_ne_nil]
    · intro c hc b
      have hunderscore : c ≠ '_' := by
        rintro rfl
        cases hc
      simp [hc, hunderscore]
  unfold String.toNat? String.Slice.toNat?
  rw [if_pos hnat, String.Slice.foldl_eq_foldl_toList, String.copy_toSlice, String.toList_ofList]
  refine congrArg some (Eq.trans ?_ (value_numeral width n))
  rw [Nat.ofDigitChars_eq_foldl]
  refine List.foldl_ext _ _ _ fun a c hc => ?_
  have hunderscore : c ≠ '_' := by
    rintro rfl
    cases isDigit_of_mem_numeral hc
  rw [if_neg hunderscore, Nat.mul_comm]

/-- The number of a reference with a padded number. -/
theorem referenceNumber_pad (letter : Char) (stem : String) (hstem : stem.toList = [letter, '-']) (width n : ℕ) :
    referenceNumber letter (stem ++ pad n width) = some n := by
  unfold referenceNumber
  rw [String.toList_append, hstem, toList_pad]
  simp only [List.cons_append, List.nil_append]
  rw [if_pos ⟨trivial, numeral_ne_nil width n, List.all_eq_true.mpr fun c => isDigit_of_mem_numeral⟩, toNat?_numeral]

theorem startsWith_append (stem t : String) : (stem ++ t).startsWith stem = true := by
  rw [String.startsWith_string_iff, String.toList_append]
  exact List.prefix_append _ _

theorem three_digits : 0 < 3 := by decide

theorem hundred_eq : 100 = 10 ^ 2 := rfl

theorem thousand_eq : 1000 = 10 ^ 3 := rfl

/-- **The references of a kind**: a stem and a padded number. -/
def textNumbering (stem : String) (width limit : ℕ) (hwidth : 0 < width) (hlimit : limit = 10 ^ width)
    (next : Option String → String) (next_none : next none = stem ++ pad 1 width)
    (next_ref : ∀ n, next (some (stem ++ pad n width)) = stem ++ pad (n + 1) width) : Numbering String limit where
  ref n := stem ++ pad n width
  next := next
  next_none := next_none
  next_ref := next_ref
  injective m n h := by
    have := congrArg String.toList h
    simp only [String.toList_append, toList_pad, List.append_cancel_left_eq] at this
    exact numeral_injective width this
  ordered {m n} h hn := by
    rw [String.lt_iff_toList_lt, String.toList_append, String.toList_append, toList_pad, toList_pad]
    exact List.append_left_lt (numeral_lt hwidth h (hlimit ▸ hn))
  overflow := by
    rw [String.lt_iff_toList_lt, String.toList_append, String.toList_append, toList_pad, toList_pad, hlimit]
    exact List.append_left_lt (numeral_overflow hwidth)
  two_le := by
    obtain ⟨k, rfl⟩ := Nat.exists_eq_succ_of_ne_zero hwidth.ne'
    have := Nat.one_le_pow k 10 (by decide)
    rw [hlimit, Nat.pow_succ]
    omega

/-! ### The greatest text -/

/-- What the search for the greatest text has found. -/
theorem greatest_highest (texts : List String) : Highest {t | t ∈ texts} (greatest texts) := by
  suffices ∀ (seen texts : List String) (acc : Option String), Highest {t | t ∈ seen} acc →
      Highest {t | t ∈ seen ++ texts} (texts.foldl (fun acc t => match acc with
        | none => some t
        | some m => if m < t then some t else some m) acc) by
    simpa [greatest] using this [] texts none (by simp [Highest])
  intro seen texts
  induction texts generalizing seen with
  | nil =>
    intro acc h
    simpa using h
  | cons t texts ih =>
    intro acc h
    rw [List.foldl_cons, ← List.singleton_append, ← List.append_assoc]
    refine ih (seen ++ [t]) _ ?_
    cases acc with
    | none =>
      have hseen : ∀ x, x ∉ seen := fun x hx => Set.notMem_empty x (by rw [← show {t | t ∈ seen} = ∅ from h]; exact hx)
      refine ⟨by simp, fun y hy hne => ?_⟩
      rcases List.mem_append.mp hy with hy | hy
      · exact absurd hy (hseen y)
      · exact absurd (List.mem_singleton.mp hy) hne
    | some m =>
      obtain ⟨hm, htop⟩ := h
      dsimp only
      split
      · rename_i hlt
        refine ⟨by simp, fun y hy hne => ?_⟩
        rcases List.mem_append.mp hy with hy | hy
        · by_cases hym : y = m
          · rw [hym]
            exact hlt
          · exact (htop y hy hym).trans hlt
        · exact absurd (List.mem_singleton.mp hy) hne
      · rename_i hge
        refine ⟨List.mem_append_left _ hm, fun y hy hne => ?_⟩
        rcases List.mem_append.mp hy with hy | hy
        · exact htop y hy hne
        · rw [List.mem_singleton.mp hy] at hne ⊢
          exact lt_of_le_of_ne (not_lt.mp hge) hne

end AuditSphere
