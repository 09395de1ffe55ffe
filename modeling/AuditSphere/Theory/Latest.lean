import Mathlib.Logic.Function.Basic
import Mathlib.Order.Basic

/-!
# The latest entry

Entries with a date are kept under keys, and a register shows one of them: the
latest, or none if there is no entry (`Latest`). Nothing is computed again from
all the entries when one of them is put, changed or removed; the register either
takes over the entry that is put, or stays. `latest_put_iff` and
`latest_keep_iff` say exactly when it still shows the latest entry.
-/

namespace AuditSphere.Theory

variable {ι δ ν : Type} [Preorder δ]

/-- The register `v` shows the latest of the entries `f`. -/
structure Latest (f : ι → Option (δ × ν)) (v : Option (δ × ν)) : Prop where
  /-- What it shows is an entry. -/
  entry : ∀ e, v = some e → ∃ i, f i = some e
  /-- No entry has a later date. -/
  last : ∀ i e, f i = some e → ∃ e', v = some e' ∧ e.1 ≤ e'.1

variable [DecidableEq ι] {f : ι → Option (δ × ν)} {v : Option (δ × ν)} {i : ι}

/-- The register takes over the entry that is put. -/
theorem latest_put_iff {e : δ × ν} :
    Latest (Function.update f i (some e)) (some e) ↔ ∀ j e', j ≠ i → f j = some e' → e'.1 ≤ e.1 := by
  constructor
  · intro h j e' hj he'
    obtain ⟨e₁, he₁, hle⟩ := h.last j e' (by rwa [Function.update_of_ne hj])
    cases he₁
    exact hle
  · intro h
    refine ⟨fun e₁ he₁ => ⟨i, by rw [Function.update_self, he₁]⟩, fun j e' he' => ⟨e, rfl, ?_⟩⟩
    by_cases hj : j = i
    · subst hj
      rw [Function.update_self, Option.some.injEq] at he'
      exact he' ▸ le_rfl
    · rw [Function.update_of_ne hj] at he'
      exact h j e' hj he'

/-- The register stays while the entry of a key changes. -/
theorem latest_keep_iff (h : Latest f v) (x : Option (δ × ν)) :
    Latest (Function.update f i x) v ↔
      (∀ e, x = some e → ∃ e', v = some e' ∧ e.1 ≤ e'.1) ∧
        ∀ e, v = some e → f i = some e → x = some e ∨ ∃ j, j ≠ i ∧ f j = some e := by
  constructor
  · intro h'
    refine ⟨fun e he => h'.last i e (by rw [Function.update_self, he]), fun e hv _ => ?_⟩
    obtain ⟨j, hj⟩ := h'.entry e hv
    by_cases hji : j = i
    · subst hji
      exact .inl (by rwa [Function.update_self] at hj)
    · exact .inr ⟨j, hji, by rwa [Function.update_of_ne hji] at hj⟩
  · rintro ⟨hnew, hold⟩
    refine ⟨fun e hv => ?_, fun j e he => ?_⟩
    · obtain ⟨j, hj⟩ := h.entry e hv
      by_cases hji : j = i
      · subst hji
        rcases hold e hv hj with hx | ⟨k, hk, hke⟩
        · exact ⟨j, by rw [Function.update_self, hx]⟩
        · exact ⟨k, by rw [Function.update_of_ne hk, hke]⟩
      · exact ⟨j, by rw [Function.update_of_ne hji, hj]⟩
    · by_cases hj : j = i
      · subst hj
        rw [Function.update_self] at he
        exact hnew e he
      · rw [Function.update_of_ne hj] at he
        exact h.last j e he

end AuditSphere.Theory
