import Mathlib.Data.List.Nodup
import Mathlib.Data.List.Perm.Subperm

/-!
# Numbering in turn

The items of a list are given the numbers `n`, `n + 1`, … one after the other. A
later number replaces an earlier one, so an item that occurs twice keeps the
number of its last occurrence, and the number of its first is nobody's: the
numbers are the places of a permutation exactly when no item is repeated.
-/

namespace AuditSphere.Theory

section Renumbering

variable {ι : Type} [DecidableEq ι]

/-- The number of `j`, which was `old`, after the items of a list have been numbered in turn from `n`. -/
def renumbered : ℕ → List ι → ι → ℕ → ℕ
  | _, [], _, old => old
  | n, i :: is, j, old => renumbered (n + 1) is j (if j = i then n else old)

/-- What is not in the list keeps its number. -/
theorem renumbered_of_not_mem {is : List ι} {j : ι} (h : j ∉ is) (n old : ℕ) : renumbered n is j old = old := by
  induction is generalizing n with
  | nil => rfl
  | cons i is ih =>
    rw [List.mem_cons, not_or] at h
    rw [renumbered, if_neg h.1, ih h.2]

/-- Without repetitions, an item gets the number of its place. -/
theorem renumbered_of_nodup {is : List ι} {j : ι} (hnodup : is.Nodup) (h : j ∈ is) (n old : ℕ) :
    renumbered n is j old = n + is.idxOf j := by
  induction is generalizing n old with
  | nil => cases h
  | cons i is ih =>
    obtain ⟨hfresh, hnodup⟩ := List.nodup_cons.mp hnodup
    rw [renumbered]
    by_cases hj : j = i
    · subst hj
      rw [renumbered_of_not_mem hfresh, if_pos rfl, List.idxOf_cons_self, Nat.add_zero]
    · rw [ih hnodup (List.mem_of_ne_of_mem hj h), List.idxOf_cons_ne _ (Ne.symm hj)]
      omega

/-- The last item gets the last number, repeated or not. -/
theorem renumbered_getLast {is : List ι} (h : is ≠ []) (n old : ℕ) :
    renumbered n is (is.getLast h) old + 1 = n + is.length := by
  induction is generalizing n old with
  | nil => exact absurd rfl h
  | cons i is ih =>
    rw [renumbered]
    by_cases his : is = []
    · subst his
      simp [renumbered]
    · rw [List.getLast_cons his, ih his, List.length_cons]
      omega

/-- **The numbers are the places of a permutation exactly when no item is repeated.** -/
theorem renumbered_perm_range_iff {α : Type} {as : List α} {key : α → ι} {is : List ι}
    (hkeys : (as.map key).Nodup) (hsame : ∀ i, i ∈ as.map key ↔ i ∈ is) (old : α → ℕ) :
    (as.map fun a => renumbered 0 is (key a) (old a)).Perm (List.range as.length) ↔ is.Nodup := by
  constructor
  · intro hperm
    have hlength : is.length ≤ (as.map key).length := by
      by_cases his : is = []
      · rw [his]
        exact Nat.zero_le _
      obtain ⟨a, ha, hlast⟩ := List.mem_map.mp ((hsame _).mpr (List.getLast_mem his))
      have hmem : renumbered 0 is (key a) (old a) ∈ List.range as.length :=
        hperm.mem_iff.mp (List.mem_map_of_mem ha)
      have hnumber := renumbered_getLast his 0 (old a)
      rw [List.mem_range, hlast] at hmem
      rw [List.length_map]
      omega
    have hsub : (as.map key).Subperm is := List.subperm_of_subset hkeys fun i hi => (hsame i).mp hi
    exact (hsub.perm_of_length_le hlength).nodup hkeys
  · intro hnodup
    have hperm : (as.map key).Perm is := (List.perm_ext_iff_of_nodup hkeys hnodup).mpr hsame
    have hplace : (as.map fun a => renumbered 0 is (key a) (old a)) = (as.map key).map is.idxOf := by
      rw [List.map_map]
      refine List.map_congr_left fun a ha => ?_
      rw [renumbered_of_nodup hnodup ((hsame _).mp (List.mem_map_of_mem ha)), Nat.zero_add]
      rfl
    have hplaces : is.map is.idxOf = List.range is.length := by
      refine List.ext_getElem (by simp) fun k hk _ => ?_
      rw [List.getElem_map, hnodup.idxOf_getElem, List.getElem_range]
    rw [hplace]
    refine (hperm.map _).trans ?_
    rw [hplaces, ← hperm.length_eq, List.length_map]

end Renumbering

end AuditSphere.Theory
