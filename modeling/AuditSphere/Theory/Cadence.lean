import Mathlib.Algebra.Ring.Nat
import Mathlib.Data.List.Chain

/-!
# Services that are repeated

A visitor comes once a period, at any time of it. It serves an item in the period `start`, and
again as soon as `k` periods of time have passed since the last service (`Repeats`). If it
comes earlier in a period than `k` periods before, the time that has passed falls short, and
the service is a period late: the services lie `k` or `k + 1` periods apart
(`services_apart`). They lie in every `k`-th period exactly if the visitor never comes earlier
in such a period than in the one before (`every_kth_iff`).
-/

namespace AuditSphere.Theory

section Visits

variable (length : ℕ)

/-- Visits, the last one first, one in each period. -/
def Consecutive (ts : List ℕ) : Prop := ts.IsChain fun a b => a / length = b / length + 1

instance (ts : List ℕ) : Decidable (Consecutive length ts) := inferInstanceAs (Decidable (List.IsChain _ ts))

variable {length} {t : ℕ} {ts : List ℕ}

theorem Consecutive.tail (h : Consecutive length (t :: ts)) : Consecutive length ts := List.IsChain.tail h

/-- The visits before were in earlier periods. -/
theorem Consecutive.earlier (h : Consecutive length (t :: ts)) : ∀ a ∈ ts, a / length < t / length := by
  induction ts generalizing t with
  | nil => simp
  | cons t' ts ih =>
    have hnext : t / length = t' / length + 1 := (List.isChain_cons_cons.mp h).1
    refine List.forall_mem_cons.mpr ⟨by omega, fun a ha => ?_⟩
    have := ih h.tail a ha
    omega

theorem Consecutive.nodup (h : Consecutive length (t :: ts)) : t ∉ ts := fun ht => lt_irrefl _ (h.earlier t ht)

/-- Two visits in one period are the same. -/
theorem Consecutive.unique (h : Consecutive length ts) {a b : ℕ} (ha : a ∈ ts) (hb : b ∈ ts)
    (hab : a / length = b / length) : a = b := by
  induction ts with
  | nil => cases ha
  | cons t ts ih =>
    rcases List.mem_cons.mp ha with rfl | ha' <;> rcases List.mem_cons.mp hb with rfl | hb'
    · rfl
    · have := h.earlier b hb'
      omega
    · have := h.earlier a ha'
      omega
    · exact ih h.tail ha' hb'

end Visits

/-! ### Services -/

/-- The visits at which the item is served, the last one first, where `mark` is the last service before. -/
def serviced (due : Option ℕ → ℕ → Bool) (mark : Option ℕ) : List ℕ → List ℕ
  | [] => []
  | t :: ts =>
    if due ((serviced due mark ts).head?.or mark) t then t :: serviced due mark ts else serviced due mark ts

/-- The item is served in a period, and again when so many periods of time have passed. -/
structure Repeats (length k start : ℕ) (due : Option ℕ → ℕ → Bool) : Prop where
  first : ∀ last t, t / length = start → (∀ l ∈ last, l / length < start) → due last t = true
  again : ∀ l t, start < t / length → (due (some l) t = true ↔ l + k * length ≤ t)

variable {length k start : ℕ} {due : Option ℕ → ℕ → Bool} {mark : Option ℕ} {t : ℕ} {ts : List ℕ}

theorem serviced_subset : serviced due mark ts ⊆ ts := by
  induction ts with
  | nil => exact List.Subset.refl _
  | cons t ts ih =>
    unfold serviced
    split
    · exact List.cons_subset_cons t ih
    · exact List.subset_cons_of_subset t ih

theorem mem_serviced_tail (hts : Consecutive length (t :: ts)) {a : ℕ} (ha : a ∈ ts) :
    a ∈ serviced due mark (t :: ts) ↔ a ∈ serviced due mark ts := by
  have hne : a ≠ t := fun h => hts.nodup (h ▸ ha)
  rw [serviced]
  split
  · rw [List.mem_cons, or_iff_right hne]
  · rfl

theorem mem_serviced_head (hts : Consecutive length (t :: ts)) :
    t ∈ serviced due mark (t :: ts) ↔ due ((serviced due mark ts).head?.or mark) t = true := by
  rw [serviced]
  split
  · rename_i hdue
    exact iff_of_true List.mem_cons_self hdue
  · rename_i hdue
    exact iff_of_false (fun ht => hts.nodup (serviced_subset ht)) hdue

theorem head?_serviced (hts : Consecutive length (t :: ts)) (ht : t ∈ serviced due mark (t :: ts)) :
    (serviced due mark (t :: ts)).head? = some t := by
  rw [serviced, if_pos ((mem_serviced_head hts).mp ht)]
  rfl

/-! ### Periods -/

theorem dvd_sub_iff_of_close {k start m n : ℕ} (hm : start ≤ m) (hmn : m < n) (hn : n ≤ m + k)
    (hdvd : k ∣ m - start) : k ∣ n - start ↔ n = m + k := by
  have hsplit : n - start = (m - start) + (n - m) := by omega
  rw [hsplit, Nat.dvd_add_right hdvd]
  constructor
  · intro h
    have := Nat.le_of_dvd (by omega) h
    omega
  · rintro rfl
    exact ⟨1, by omega⟩

/-- `k` periods of time have passed if it is at least as late in the period. -/
theorem add_mul_le_iff {length k l t : ℕ} (hlength : 0 < length) (hclose : t / length ≤ l / length + k) :
    l + k * length ≤ t ↔ t / length = l / length + k ∧ l % length ≤ t % length := by
  have hsame (hperiod : t / length = l / length + k) : l + k * length ≤ t ↔ l % length ≤ t % length := by
    have hl := Nat.div_add_mod l length
    have ht := Nat.div_add_mod t length
    rw [hperiod, Nat.mul_add, Nat.mul_comm length k] at ht
    omega
  constructor
  · intro h
    have hperiod : t / length = l / length + k := by
      refine le_antisymm hclose ?_
      rw [← Nat.add_mul_div_right l k hlength]
      exact Nat.div_le_div_right h
    exact ⟨hperiod, (hsame hperiod).mp h⟩
  · rintro ⟨hperiod, hlate⟩
    exact (hsame hperiod).mpr hlate

section Repeats

variable (h : Repeats length k start due) (hlength : 0 < length) (hmark : ∀ l ∈ mark, l / length < start)

include h hmark

/-- Whoever comes in the first period serves the item. -/
theorem due_first (hts : Consecutive length (t :: ts)) (ht : t / length = start) :
    due ((serviced due mark ts).head?.or mark) t = true := by
  refine h.first _ t ht fun l hl => ?_
  rcases hhead : (serviced due mark ts).head? with _ | l'
  · rw [hhead, Option.none_or] at hl
    exact hmark l hl
  · rw [hhead, Option.some_or, Option.mem_some] at hl
    subst hl
    rw [← ht]
    exact hts.earlier _ (serviced_subset (List.mem_of_mem_head? hhead))

theorem mem_serviced_first (hts : Consecutive length ts) (ht : t ∈ ts) (hstart : t / length = start) :
    t ∈ serviced due mark ts := by
  induction ts with
  | nil => cases ht
  | cons t' ts ih =>
    rcases List.mem_cons.mp ht with rfl | ht
    · exact (mem_serviced_head hts).mpr (due_first h hmark hts hstart)
    · exact (mem_serviced_tail hts ht).mpr (ih hts.tail ht)

include hlength

/-- The last service was so many periods ago at most. -/
theorem last_service (hts : Consecutive length (t :: ts)) (hfrom : ∃ a ∈ t :: ts, a / length ≤ start)
    (ht : start ≤ t / length) : ∃ l ∈ (serviced due mark (t :: ts)).head?, start ≤ l / length ∧ t / length ≤ l / length + k := by
  induction ts generalizing t with
  | nil =>
    obtain ⟨a, ha, hle⟩ := hfrom
    rw [List.mem_singleton] at ha
    subst ha
    have hdue := (mem_serviced_head hts).mpr (due_first h hmark hts (le_antisymm hle ht))
    exact ⟨a, head?_serviced hts hdue, ht, Nat.le_add_right _ _⟩
  | cons t' ts ih =>
    have hnext : t / length = t' / length + 1 := (List.isChain_cons_cons.mp hts).1
    by_cases hserved : t ∈ serviced due mark (t :: t' :: ts)
    · exact ⟨t, head?_serviced hts hserved, ht, Nat.le_add_right _ _⟩
    have hlate : start < t / length :=
      lt_of_le_of_ne ht fun heq => hserved ((mem_serviced_head hts).mpr (due_first h hmark hts heq.symm))
    obtain ⟨a, ha, hle⟩ := hfrom
    have ha' : a ∈ t' :: ts := (List.mem_cons.mp ha).resolve_left fun heq => by
      subst heq
      omega
    obtain ⟨l, hl, hstart, -⟩ := ih hts.tail ⟨a, ha', hle⟩ (by omega)
    -- nobody was served, so less time has passed
    have hnot := hserved
    rw [mem_serviced_head hts, Option.mem_def.mp hl, Option.some_or, h.again l t hlate, not_le] at hnot
    refine ⟨l, ?_, hstart, ?_⟩
    · rw [serviced, if_neg (fun hdue => hserved ((mem_serviced_head hts).mpr hdue))]
      exact hl
    · rw [← Nat.add_mul_div_right l k hlength]
      exact Nat.div_le_div_right hnot.le

omit h hmark hlength in
/-- A visit after the first period is not the first one. -/
theorem earlier_visit (hfrom : ∀ a ∈ (t :: ts).getLast?, a / length ≤ start) (ht : start < t / length) :
    ∃ a ∈ ts, a / length ≤ start := by
  cases ts with
  | nil =>
    have := hfrom t rfl
    omega
  | cons t' ts =>
    refine ⟨(t' :: ts).getLast (by simp), List.getLast_mem _, hfrom _ ?_⟩
    rw [List.getLast?_cons_cons, List.getLast?_eq_some_getLast (by simp), Option.mem_some]

/-- What decides a visit after the first period. -/
theorem due_later (hts : Consecutive length (t :: ts)) (hfrom : ∃ a ∈ ts, a / length ≤ start) (ht : start < t / length) :
    ∃ l ∈ (serviced due mark ts).head?, start ≤ l / length ∧ l / length < t / length ∧ t / length ≤ l / length + k + 1 ∧
      (due ((serviced due mark ts).head?.or mark) t = true ↔ l + k * length ≤ t) := by
  obtain ⟨a, ha, hle⟩ := hfrom
  cases ts with
  | nil => cases ha
  | cons t' ts =>
    have hnext : t / length = t' / length + 1 := (List.isChain_cons_cons.mp hts).1
    obtain ⟨l, hl, hstart, hclose⟩ := last_service h hlength hmark hts.tail ⟨a, ha, hle⟩ (by omega)
    refine ⟨l, hl, hstart, hts.earlier l (serviced_subset (List.mem_of_mem_head? hl)), by omega, ?_⟩
    rw [Option.mem_def.mp hl, Option.some_or, h.again l t ht]

/-- **The gaps**: from the first period on, the services lie `k` or `k + 1` periods apart. -/
theorem services_apart (hts : Consecutive length ts) (hfrom : ∀ a ∈ ts.getLast?, a / length ≤ start) :
    ((serviced due mark ts).filter fun t => start ≤ t / length).IsChain
      fun a b => a / length = b / length + k ∨ a / length = b / length + k + 1 := by
  induction ts with
  | nil => exact .nil
  | cons t ts ih =>
    have ih := ih hts.tail fun a ha => hfrom a (List.mem_getLast?_cons ha)
    by_cases hserved : t ∈ serviced due mark (t :: ts)
    · rw [serviced, if_pos ((mem_serviced_head hts).mp hserved)]
      rcases lt_trichotomy (t / length) start with hlt | heq | hgt
      · rwa [List.filter_cons_of_neg (by simpa using hlt)]
      · have hnone : (serviced due mark ts).filter (fun t => start ≤ t / length) = [] := by
          rw [List.filter_eq_nil_iff]
          intro a ha
          have := hts.earlier a (serviced_subset ha)
          simp
          omega
        rw [List.filter_cons_of_pos (by simp [heq]), hnone]
        exact .singleton _
      · obtain ⟨l, hl, hstart, -, hclose, hdue⟩ := due_later h hlength hmark hts (earlier_visit hfrom hgt) hgt
        have hlate := hdue.mp ((mem_serviced_head hts).mp hserved)
        have hlater : l / length + k ≤ t / length := by
          rw [← Nat.add_mul_div_right l k hlength]
          exact Nat.div_le_div_right hlate
        obtain ⟨rest, hrest⟩ := List.head?_eq_some_iff.mp (Option.mem_def.mp hl)
        rw [hrest, List.filter_cons_of_pos (by simpa using hstart)] at ih
        rw [List.filter_cons_of_pos (by simpa using hgt.le), hrest, List.filter_cons_of_pos (by simpa using hstart)]
        exact List.isChain_cons_cons.mpr ⟨by omega, ih⟩
    · rwa [serviced, if_neg (fun hdue => hserved ((mem_serviced_head hts).mpr hdue))]

/-- Where all services so far were in every `k`-th period, the item is served in the next such period and not before if
the visitor does not come too early. -/
theorem due_kth_iff (hk : 0 < k) (hts : Consecutive length (t :: ts)) (hfrom : ∀ a ∈ (t :: ts).getLast?, a / length ≤ start)
    (hpast : ∀ a ∈ ts, start ≤ a / length → (a ∈ serviced due mark ts ↔ k ∣ a / length - start)) (ht : start ≤ t / length) :
    (due ((serviced due mark ts).head?.or mark) t = true ↔ k ∣ t / length - start) ↔
      (∀ a ∈ ts, start ≤ a / length → k ∣ a / length - start → t / length = a / length + k →
        a % length ≤ t % length) := by
  rcases ht.eq_or_lt with heq | hlt
  · refine iff_of_true (iff_of_true (due_first h hmark hts heq.symm) ?_) fun a _ ha _ hat => ?_
    · rw [← heq, Nat.sub_self]
      exact Nat.dvd_zero k
    · omega
  obtain ⟨l, hl, hstart, hbefore, hclose, hdue⟩ := due_later h hlength hmark hts (earlier_visit hfrom hlt) hlt
  have hserved := List.mem_of_mem_head? hl
  have hlts := serviced_subset hserved
  have hperiod := (hpast l hlts hstart).mp hserved
  -- a visit `k` periods after the last service is not behind us, it would have been a service
  have hclose : t / length ≤ l / length + k := by
    by_contra hfar
    cases ts with
    | nil => cases hlts
    | cons t' ts =>
      have hnext : t / length = t' / length + 1 := (List.isChain_cons_cons.mp hts).1
      have hdvd : k ∣ t' / length - start := by
        have : t' / length - start = (l / length - start) + k := by omega
        rw [this]
        exact Nat.dvd_add hperiod (Nat.dvd_refl k)
      have hhead := head?_serviced hts.tail ((hpast t' List.mem_cons_self (by omega)).mpr hdvd)
      rw [Option.mem_def.mp hl, Option.some.injEq] at hhead
      subst hhead
      omega
  rw [hdue, dvd_sub_iff_of_close hstart hbefore hclose hperiod, add_mul_le_iff hlength hclose]
  constructor
  · intro h a ha hstart' hdvd hat
    have hsame : a / length = l / length := by
      by_contra hne
      have := (dvd_sub_iff_of_close hstart' (by omega) (by omega) hdvd).mp hperiod
      omega
    have hal : a = l := hts.tail.unique ha hlts hsame
    subst hal
    exact (h.mpr hat).2
  · intro h
    exact ⟨And.left, fun hat => ⟨hat, h l hlts hstart hperiod hat⟩⟩

/-- **Every `k`-th period**: the item is served in exactly these if the visitor never comes earlier in such a period than
in the one before. -/
theorem every_kth_iff (hk : 0 < k) (hts : Consecutive length ts) (hfrom : ∀ a ∈ ts.getLast?, a / length ≤ start) :
    (∀ a ∈ ts, start ≤ a / length → (a ∈ serviced due mark ts ↔ k ∣ a / length - start)) ↔
      ∀ b ∈ ts, ∀ a ∈ ts, start ≤ a / length → k ∣ a / length - start → b / length = a / length + k →
        a % length ≤ b % length := by
  induction ts with
  | nil => simp
  | cons t ts ih =>
    have ih := ih hts.tail fun a ha => hfrom a (List.mem_getLast?_cons ha)
    have hpast : (∀ a ∈ ts, start ≤ a / length → (a ∈ serviced due mark (t :: ts) ↔ k ∣ a / length - start)) ↔
        ∀ a ∈ ts, start ≤ a / length → (a ∈ serviced due mark ts ↔ k ∣ a / length - start) :=
      forall₂_congr fun a ha => by rw [mem_serviced_tail hts ha]
    -- nothing comes after the last visit
    have hlast : (∀ b ∈ t :: ts, ∀ a ∈ t :: ts, start ≤ a / length → k ∣ a / length - start →
        b / length = a / length + k → a % length ≤ b % length) ↔
          (∀ a ∈ ts, start ≤ a / length → k ∣ a / length - start → t / length = a / length + k → a % length ≤ t % length) ∧
          ∀ b ∈ ts, ∀ a ∈ ts, start ≤ a / length → k ∣ a / length - start → b / length = a / length + k →
            a % length ≤ b % length := by
      constructor
      · exact fun h => ⟨fun a ha => h t List.mem_cons_self a (List.mem_cons_of_mem t ha),
          fun b hb a ha => h b (List.mem_cons_of_mem t hb) a (List.mem_cons_of_mem t ha)⟩
      · rintro ⟨hhead, htail⟩ b hb a ha hstart hdvd hat
        rcases List.mem_cons.mp ha with rfl | ha'
        · rcases List.mem_cons.mp hb with rfl | hb'
          · omega
          · have := hts.earlier b hb'
            omega
        · rcases List.mem_cons.mp hb with rfl | hb'
          · exact hhead a ha' hstart hdvd hat
          · exact htail b hb' a ha' hstart hdvd hat
    rw [hlast, List.forall_mem_cons, hpast, ← ih, mem_serviced_head hts]
    constructor
    · rintro ⟨ht, hall⟩
      refine ⟨?_, hall⟩
      by_cases hstart : start ≤ t / length
      · exact (due_kth_iff h hlength hmark hk hts hfrom hall hstart).mp (ht hstart)
      · intro a ha hstart'
        have := hts.earlier a ha
        omega
    · rintro ⟨ht, hall⟩
      exact ⟨fun hstart => (due_kth_iff h hlength hmark hk hts hfrom hall hstart).mpr ht, hall⟩

end Repeats

end AuditSphere.Theory
