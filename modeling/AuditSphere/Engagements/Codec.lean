import AuditSphere.Engagements.Numbering

/-!
# Reading audit numbers

`formatAuditNumber` and `parseAuditNumber` are inverse to each other for the years that are
formatted, and the number that follows is read as the next sequence. A text that is read
need not be the number it is formatted as: it may have a year that is not formatted, or
zeros too many (`auditNumber_codec`). Sequences are natural numbers here; those of the
program are exact below 2^53.
-/

namespace AuditSphere.Engagements

open Theory

/-- The year in a text that is read. -/
def yearPart (v : String) : List Char := ((trimmed v.toList).drop 3).take 4

/-- The sequence in a text that is read. -/
def sequencePart (v : String) : List Char := (trimmed v.toList).drop 8

/-- A text that is read is made of its parts. -/
theorem parseAuditNumber_eq_some {v : String} {year seq : ℕ} (h : parseAuditNumber v = some (year, seq)) :
    trimmed v.toList = 'I' :: 'A' :: '-' :: (yearPart v ++ '-' :: sequencePart v) ∧
      ((yearPart v).length = 4 ∧ ∀ c ∈ yearPart v, c.isDigit = true) ∧
      (3 ≤ (sequencePart v).length ∧ ∀ c ∈ sequencePart v, c.isDigit = true) ∧
      Nat.ofDigitChars 10 (yearPart v) 0 = year ∧ Nat.ofDigitChars 10 (sequencePart v) 0 = seq := by
  unfold parseAuditNumber at h
  split at h
  · rename_i rest hlist
    have hyear : yearPart v = rest.take 4 := by rw [yearPart, hlist]; rfl
    have hseq : sequencePart v = rest.drop 5 := by rw [sequencePart, hlist]; rfl
    dsimp only at h
    split at h
    · rename_i hparts
      obtain ⟨hfour, hdigits, hhyphen, hthree, hdigits'⟩ := hparts
      rw [← hyear] at hfour hdigits h
      rw [← hseq] at hthree hdigits' h
      obtain ⟨rfl, rfl⟩ := Prod.mk.inj (Option.some.inj h)
      have hsplit : rest = yearPart v ++ '-' :: sequencePart v := by
        obtain ⟨hlt, hget⟩ := List.getElem?_eq_some_iff.mp hhyphen
        rw [hyear, hseq, ← hget, List.getElem_cons_drop, List.take_append_drop]
      refine ⟨by rw [hlist, ← hsplit], ⟨hfour, List.all_eq_true.mp hdigits⟩, ⟨hthree, List.all_eq_true.mp hdigits'⟩,
        rfl, rfl⟩
    · cases h
  · cases h

/-- A year that has four digits is formatted exactly if it does not begin with a zero. -/
theorem year_formatted_iff {l : List Char} (hlength : l.length = 4) (hdigits : ∀ c ∈ l, c.isDigit = true) :
    1000 ≤ Nat.ofDigitChars 10 l 0 ↔ l.head? ≠ some '0' := by
  cases l with
  | nil => cases hlength
  | cons c l =>
    have hthree : l.length = 3 := Nat.succ_inj.mp hlength
    have hrest := value_lt (List.forall_mem_cons.mp hdigits).2
    have hbounds := Char.isDigit_iff_toNat.mp (hdigits c List.mem_cons_self)
    rw [value_cons, hthree]
    rw [hthree] at hrest
    constructor
    · intro h hzero
      obtain rfl := Option.some.inj hzero
      rw [Nat.sub_self] at h
      omega
    · intro h
      have hne : c.toNat ≠ '0'.toNat := fun hzero => h (congrArg some (Char.toNat_inj.mp hzero))
      have hpos : 1 ≤ c.toNat - '0'.toNat := by omega
      have := Nat.mul_le_mul_left (10 ^ 3) hpos
      omega

/-- Numbers that are written alike have the same parts. -/
theorem toList_number_iff {year n : ℕ} (hyear : 1000 ≤ year ∧ year ≤ 9999) {l m : List Char} (hl : l.length = 4) :
    (auditNumberPrefix year ++ pad n 3).toList = 'I' :: 'A' :: '-' :: (l ++ '-' :: m) ↔
      Nat.toDigits 10 year = l ∧ numeral 3 n = m := by
  rw [toList_number, List.cons.injEq, List.cons.injEq, List.cons.injEq]
  constructor
  · rintro ⟨-, -, -, h⟩
    obtain ⟨hfirst, hrest⟩ := List.append_inj h (by rw [toDigits_year hyear, hl])
    exact ⟨hfirst, (List.cons.inj hrest).2⟩
  · rintro ⟨rfl, rfl⟩
    exact ⟨rfl, rfl, rfl, rfl⟩

/-- A text that is read is formatted again as it is, without the white space around it, exactly if its year is one
that is formatted, and its sequence is not zero and has no zeros but those that pad it. -/
theorem format_parsed_iff {v : String} {year seq : ℕ} (h : parseAuditNumber v = some (year, seq)) :
    formatAuditNumber year seq = .ok (String.ofList (trimmed v.toList)) ↔
      (yearPart v).head? ≠ some '0' ∧ seq ≠ 0 ∧ (3 < (sequencePart v).length → (sequencePart v).head? ≠ some '0') := by
  obtain ⟨hlist, ⟨hfour, hyear⟩, ⟨hthree, hseq⟩, rfl, rfl⟩ := parseAuditNumber_eq_some h
  have hlt := value_lt hyear
  rw [hfour] at hlt
  rw [← year_formatted_iff hfour hyear, ← numeral_value_iff (by decide) hseq hthree, hlist]
  generalize hy : Nat.ofDigitChars 10 (yearPart v) 0 = year at *
  generalize Nat.ofDigitChars 10 (sequencePart v) 0 = seq at *
  constructor
  · intro hformat
    rcases formatAuditNumber_cases year seq with ⟨hrange, hok⟩ | ⟨message, herror⟩
    · have hpos : seq ≠ 0 := by
        rintro rfl
        unfold formatAuditNumber at hformat
        rw [if_neg (by omega), if_pos Nat.one_pos] at hformat
        cases hformat
      rw [hok, Except.ok.injEq, ← String.toList_inj, String.toList_ofList, toList_number_iff hrange hfour] at hformat
      exact ⟨hrange.1, hpos, hformat.2⟩
    · rw [herror] at hformat
      cases hformat
  · rintro ⟨hfrom, hpos, hnumeral⟩
    have hrange : 1000 ≤ year ∧ year ≤ 9999 := ⟨hfrom, by omega⟩
    have hdigits : Nat.toDigits 10 year = yearPart v :=
      eq_of_value_eq (by rw [toDigits_year hrange, hfour])
        (fun c => Nat.isDigit_of_mem_toDigits (by decide) (by decide)) hyear (by rw [Nat.ofDigitChars_ten_toDigits, hy])
    rw [formatAuditNumber_ok hrange (Nat.pos_of_ne_zero hpos), Except.ok.injEq, ← String.toList_inj, String.toList_ofList,
      toList_number_iff hrange hfour]
    exact ⟨hdigits, hnumeral⟩

end AuditSphere.Engagements
