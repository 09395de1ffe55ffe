import AuditSphere.Theory.Blocks
import Mathlib.Data.List.Forall2
import Mathlib.Data.List.Nodup
import Mathlib.Data.List.Perm.Basic

/-!
# Pages of a list with ties

A list is put in order anew for each page that is read. Elements that tie may change places from one
page to the next. The pages are together the list, whatever the places, exactly if all elements that
tie fall on one page (`pages_perm_iff`).
-/

namespace AuditSphere.Theory

variable {α : Type} (le : α → α → Bool)

/-- The elements in an order; those that tie may stand in any. -/
structure Arranges (rows l : List α) : Prop where
  perm : l.Perm rows
  sorted : l.Pairwise fun x y => le x y = true

/-- How many elements stand before all that tie with an element. -/
def before (rows : List α) (x : α) : ℕ := rows.countP fun y => !le x y

/-- How many elements stand before or tie with it. -/
def through (rows : List α) (x : α) : ℕ := rows.countP fun y => le y x

/-- All elements that tie with an element fall on one page. -/
def Untied (size : ℕ) (rows : List α) : Prop :=
  ∀ x ∈ rows, before le rows x / size = (through le rows x - 1) / size

instance (size : ℕ) (rows : List α) : Decidable (Untied le size rows) := inferInstanceAs (Decidable (∀ _ ∈ rows, _))

/-- The page with a number, counted from zero. -/
def pageAt (size k : ℕ) (l : List α) : List α := (l.drop (k * size)).take size

variable {le} {rows l : List α}

/-! ### Where an element stands -/

/-- What holds of all that stand before an element for which it holds, holds of the first ones. -/
theorem holds_iff_lt_countP {P : α → Bool} (hP : ∀ x y, le x y = true → P y = true → P x = true)
    (h : l.Pairwise fun x y => le x y = true) (j : ℕ) (hj : j < l.length) : P l[j] = true ↔ j < l.countP P := by
  induction l generalizing j with
  | nil => cases hj
  | cons x l ih =>
    obtain ⟨hx, hl⟩ := List.pairwise_cons.mp h
    by_cases hPx : P x = true
    · rw [List.countP_cons_of_pos hPx]
      cases j with
      | zero => simp [hPx]
      | succ j =>
        rw [List.getElem_cons_succ, ih hl j (by simpa using hj)]
        omega
    · have hnone : ∀ y ∈ l, ¬P y = true := fun y hy hPy => hPx (hP x y (hx y hy) hPy)
      rw [List.countP_cons_of_neg hPx, List.countP_eq_zero.mpr hnone]
      refine iff_of_false ?_ (Nat.not_lt_zero j)
      cases j with
      | zero => exact hPx
      | succ j => exact hnone _ (List.getElem_mem _)

/-- The first ones are those for which it holds. -/
theorem take_countP {P : α → Bool} (hP : ∀ x y, le x y = true → P y = true → P x = true)
    (h : l.Pairwise fun x y => le x y = true) : l.take (l.countP P) = l.filter P := by
  induction l with
  | nil => rfl
  | cons x l ih =>
    obtain ⟨hx, hl⟩ := List.pairwise_cons.mp h
    by_cases hPx : P x = true
    · rw [List.countP_cons_of_pos hPx, List.filter_cons_of_pos hPx, List.take_succ_cons, ih hl]
    · have hnone : ∀ y ∈ l, ¬P y = true := fun y hy hPy => hPx (hP x y (hx y hy) hPy)
      rw [List.countP_cons_of_neg hPx, List.countP_eq_zero.mpr hnone, List.filter_cons_of_neg hPx,
        List.filter_eq_nil_iff.mpr hnone]
      rfl

section Order

variable (htrans : ∀ x y z, le x y = true → le y z = true → le x z = true)

include htrans

theorem before_closed (z x y : α) (hxy : le x y = true) (hy : (!le z y) = true) : (!le z x) = true := by
  rw [Bool.not_eq_true'] at hy ⊢
  by_contra hzx
  rw [htrans z x y (by simpa using hzx) hxy] at hy
  cases hy

theorem lt_before_iff (h : Arranges le rows l) (x : α) (j : ℕ) (hj : j < l.length) :
    (!le x l[j]) = true ↔ j < before le rows x := by
  rw [before, ← h.perm.countP_eq]
  exact holds_iff_lt_countP (before_closed htrans x) h.sorted j hj

theorem lt_through_iff (h : Arranges le rows l) (x : α) (j : ℕ) (hj : j < l.length) :
    le l[j] x = true ↔ j < through le rows x := by
  rw [through, ← h.perm.countP_eq]
  exact holds_iff_lt_countP (fun y z hyz hz => htrans y z x hyz hz) h.sorted j hj

variable (htotal : ∀ x y, (le x y || le y x) = true)

include htotal

omit htrans in
theorem le_self (x : α) : le x x = true := by simpa using htotal x x

/-- There is an order. -/
theorem arranges_mergeSort (rows : List α) : Arranges le rows (rows.mergeSort le) :=
  ⟨List.mergeSort_perm rows le, List.pairwise_mergeSort htrans htotal rows⟩

/-- In two orders of the same elements, those at the same place tie. -/
theorem Arranges.ties {l' : List α} (h : Arranges le rows l) (h' : Arranges le rows l') :
    List.Forall₂ (fun x y => le x y = true ∧ le y x = true) l l' := by
  have hlength : l.length = l'.length := h.perm.length_eq.trans h'.perm.length_eq.symm
  refine List.forall₂_iff_get.mpr ⟨hlength, fun j hj hj' => ⟨?_, ?_⟩⟩
  · exact (lt_through_iff htrans h _ j hj).mpr ((lt_through_iff htrans h' _ j hj').mp (le_self htotal _))
  · exact (lt_through_iff htrans h' _ j hj').mpr ((lt_through_iff htrans h _ j hj).mp (le_self htotal _))

/-- An element ties with itself. -/
theorem before_lt_through {x : α} (hx : x ∈ rows) : before le rows x < through le rows x := by
  have hsorted := arranges_mergeSort htrans htotal rows
  obtain ⟨j, hj, rfl⟩ := List.mem_iff_getElem.mp (show x ∈ rows.mergeSort le from List.mem_mergeSort.mpr hx)
  have hself := le_self htotal (rows.mergeSort le)[j]
  have hthrough := (lt_through_iff htrans hsorted _ j hj).mp hself
  have hbefore := mt (lt_before_iff htrans hsorted (rows.mergeSort le)[j] j hj).mpr (by simp [hself])
  omega

/-- No elements tie across the boundary: the elements before it are the same in every order. -/
theorem take_perm {l' : List α} (h : Arranges le rows l) (h' : Arranges le rows l') {b : ℕ}
    (hb : ∀ x ∈ rows, ¬(before le rows x < b ∧ b < through le rows x)) : (l.take b).Perm (l'.take b) := by
  rcases Nat.lt_or_ge b l.length with hlt | hge
  · have hthrough := (lt_through_iff htrans h l[b] b hlt).mp (le_self htotal _)
    have hbefore := mt (lt_before_iff htrans h l[b] b hlt).mpr (by simp [le_self htotal])
    have heq : before le rows l[b] = b := by
      have := hb l[b] (h.perm.mem_iff.mp (List.getElem_mem hlt))
      omega
    have htake {m : List α} (hm : Arranges le rows m) : m.take b = m.filter fun y => !le l[b] y := by
      rw [← take_countP (before_closed htrans l[b]) hm.sorted, hm.perm.countP_eq]
      exact congrArg m.take heq.symm
    rw [htake h, htake h']
    exact (h.perm.trans h'.perm.symm).filter _
  · rw [List.take_of_length_le hge, List.take_of_length_le (by rwa [h'.perm.length_eq, ← h.perm.length_eq])]
    exact h.perm.trans h'.perm.symm

/-! ### Where the pages end -/

/-- If all that tie fall on one page, a page has the same elements in every order. -/
theorem pageAt_perm {l' : List α} (h : Arranges le rows l) (h' : Arranges le rows l') {size : ℕ} (hsize : 0 < size)
    (huntied : Untied le size rows) (k : ℕ) : (pageAt size k l).Perm (pageAt size k l') := by
  have hboundary (k : ℕ) (x : α) (hx : x ∈ rows) : ¬(before le rows x < k * size ∧ k * size < through le rows x) := by
    rintro ⟨hbefore, hthrough⟩
    have hpage := huntied x hx
    have hlt : before le rows x / size < k := (Nat.div_lt_iff_lt_mul hsize).mpr hbefore
    have hle : k ≤ (through le rows x - 1) / size := (Nat.le_div_iff_mul_le hsize).mpr (by omega)
    omega
  have hfront := take_perm htrans htotal h h' (hboundary k)
  have hboth := take_perm htrans htotal h h' (hboundary (k + 1))
  rw [Nat.succ_mul, List.take_add, List.take_add] at hboth
  exact (List.perm_append_left_iff _).mp (hboth.trans (hfront.symm.append_right _))

omit htrans htotal in
/-- The pages of a list are the list. -/
theorem flatMap_pageAt (l : List α) {size : ℕ} (hsize : 0 < size) :
    (List.range ((l.length + size - 1) / size)).flatMap (fun k => pageAt size k l) = l := by
  have hsucc (j : ℕ) : (fun k => k * size) (j + 1) = (fun k => k * size) j + (fun _ => size) j := Nat.succ_mul j size
  have hslices := @flatMap_slices α l (fun k => k * size) (fun _ => size) (Nat.zero_mul size) hsucc
    ((l.length + size - 1) / size)
  rw [List.take_of_length_le] at hslices
  · exact hslices
  · have := Nat.lt_mul_div_succ (l.length + size - 1) hsize
    rw [Nat.mul_comm, Nat.succ_mul] at this
    omega

omit htrans htotal in
/-- An element is on the page of its place. -/
theorem mem_pageAt (l : List α) {size k j : ℕ} (hj : j < l.length) (hk : k * size ≤ j) (hk' : j < (k + 1) * size) :
    l[j] ∈ pageAt size k l := by
  rw [Nat.succ_mul] at hk'
  refine List.mem_iff_getElem.mpr ⟨j - k * size, ?_, ?_⟩
  · rw [pageAt, List.length_take, List.length_drop]
    omega
  · simp only [pageAt, List.getElem_take, List.getElem_drop]
    congr 1
    omega

omit htrans htotal in
/-- Two neighbours that tie may change places. -/
theorem Arranges.swap {front back : List α} {u v : α} (h : Arranges le rows (front ++ u :: v :: back))
    (hvu : le v u = true) : Arranges le rows (front ++ v :: u :: back) := by
  refine ⟨(List.Perm.append_left front (List.Perm.swap u v back)).trans h.perm, ?_⟩
  have hsorted := h.sorted
  simp only [List.pairwise_append, List.pairwise_cons, List.mem_cons, forall_eq_or_imp] at hsorted ⊢
  obtain ⟨hfront, ⟨⟨huv, hu⟩, hv, hback⟩, hcross⟩ := hsorted
  exact ⟨hfront, ⟨⟨hvu, hv⟩, hu, hback⟩, fun x hx => ⟨(hcross x hx).2.1, (hcross x hx).1, (hcross x hx).2.2⟩⟩

/-- **Pages lose and repeat nothing**, whatever the order for each, exactly if all elements that tie
fall on one page. -/
theorem pages_perm_iff (hnodup : rows.Nodup) {size : ℕ} (hsize : 0 < size) :
    (∀ arranged : ℕ → List α, (∀ k, Arranges le rows (arranged k)) →
      ((List.range ((rows.length + size - 1) / size)).flatMap fun k => pageAt size k (arranged k)).Perm rows) ↔
    Untied le size rows := by
  have hsorted := arranges_mergeSort htrans htotal rows
  generalize rows.mergeSort le = s at hsorted
  constructor
  · intro hpages x hx
    have hlt := before_lt_through htrans htotal hx
    by_contra hne
    -- the boundary between two pages stands between elements that tie with `x`
    have hpages_lt : before le rows x / size < (through le rows x - 1) / size :=
      lt_of_le_of_ne (Nat.div_le_div_right (by omega)) hne
    obtain ⟨k, hk⟩ := Nat.exists_eq_add_one.mpr (Nat.zero_lt_of_lt hpages_lt)
    have hbefore : before le rows x < (k + 1) * size := (Nat.div_lt_iff_lt_mul hsize).mp (hk ▸ hpages_lt)
    have hthrough : (k + 1) * size ≤ through le rows x - 1 := (Nat.le_div_iff_mul_le hsize).mp hk.ge
    have hlength : through le rows x ≤ s.length := by
      rw [through, hsorted.perm.length_eq]
      exact List.countP_le_length
    obtain ⟨b, hb⟩ := Nat.exists_eq_add_one.mpr (Nat.mul_pos (show 0 < k + 1 by omega) hsize)
    have htie (j : ℕ) (hj : j < s.length) (hj₁ : before le rows x ≤ j) (hj₂ : j < through le rows x) :
        le x s[j] = true ∧ le s[j] x = true := by
      refine ⟨?_, (lt_through_iff htrans hsorted x j hj).mpr hj₂⟩
      simpa using mt (lt_before_iff htrans hsorted x j hj).mp (by omega)
    have hu := htie b (by omega) (by omega) (by omega)
    have hv := htie (b + 1) (by omega) (by omega) (by omega)
    have hsplit : s = s.take b ++ s[b] :: s[b + 1] :: s.drop (b + 2) := by
      rw [← List.drop_eq_getElem_cons, ← List.drop_eq_getElem_cons, List.take_append_drop]
    have hswapped : Arranges le rows (s.take b ++ s[b + 1] :: s[b] :: s.drop (b + 2)) :=
      Arranges.swap (hsplit ▸ hsorted) (htrans _ x _ hv.2 hu.1)
    -- the element before the boundary is on both pages if it changes places for the second
    have hperm := hpages (fun j => if j = k + 1 then s.take b ++ s[b + 1] :: s[b] :: s.drop (b + 2) else s) fun j => by
      split
      · exact hswapped
      · exact hsorted
    have hdisjoint := (List.nodup_flatMap.mp (hperm.nodup_iff.mpr hnodup)).2
    have hcount : k + 1 < (rows.length + size - 1) / size := by
      rw [← hsorted.perm.length_eq, ← Nat.succ_le_iff, Nat.le_div_iff_mul_le hsize, Nat.succ_mul]
      omega
    have hpair := List.pairwise_iff_getElem.mp hdisjoint k (k + 1) (by simp; omega) (by simp; omega) (by omega)
    simp only [List.getElem_range, Function.onFun, if_true, if_neg (Nat.ne_of_lt (Nat.lt_succ_self k))] at hpair
    have hfirst : s[b] ∈ pageAt size k s := by
      refine mem_pageAt s (by omega) ?_ (by omega)
      rw [Nat.succ_mul] at hb
      omega
    refine hpair hfirst ?_
    have hfront : (s.take b ++ [s[b + 1]]).length = (k + 1) * size := by
      simp only [List.length_append, List.length_take, List.length_singleton]
      omega
    obtain ⟨m, rfl⟩ := Nat.exists_eq_add_one.mpr hsize
    rw [pageAt, List.append_cons, List.drop_left' hfront, List.take_succ_cons]
    exact List.mem_cons_self
  · intro huntied arranged harranged
    have hsame := List.Perm.flatMap_left (List.range ((rows.length + size - 1) / size)) fun k _ =>
      pageAt_perm htrans htotal (harranged k) hsorted hsize huntied k
    rw [← hsorted.perm.length_eq] at hsame ⊢
    rw [flatMap_pageAt s hsize] at hsame
    exact hsame.trans hsorted.perm

end Order

end AuditSphere.Theory
