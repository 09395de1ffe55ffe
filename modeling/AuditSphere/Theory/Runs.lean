import Mathlib.Data.Int.Init
import Mathlib.Tactic.Ring

/-!
# Runs of a sequence

A sequence of two colours is made of runs. A scan that goes through the sequence may keep the
lengths of the last runs (`Before`), the last one first, as far back as it remembers: where
nothing has been recorded all is of the colour `false`, and the length of the oldest run is a
bound only. Of a stretch that ends where the scan stands, and of the place before it, the
history then says whether they are there (`Before.exact`, `Before.stretch_iff`).
-/

namespace AuditSphere.Theory

/-! ### Stretches -/

/-- From the place `p` on, `n` places have the colour `c`. -/
def Stretch (e : ℤ → Bool) (c : Bool) (p : ℤ) (n : ℕ) : Prop := ∀ i < n, e (p + i) = c

instance (e : ℤ → Bool) (c : Bool) (p : ℤ) (n : ℕ) : Decidable (Stretch e c p n) :=
  inferInstanceAs (Decidable (∀ i < n, e (p + i) = c))

section Stretch

variable {e : ℤ → Bool} {c : Bool} {p q : ℤ} {m n : ℕ}

theorem Stretch.at (h : Stretch e c p n) (hp : p ≤ q) (hq : q < p + n) : e q = c := by
  have := h (q - p).toNat (by omega)
  rwa [Int.toNat_of_nonneg (by omega), add_sub_cancel] at this

theorem stretch_of {e : ℤ → Bool} (h : ∀ q, p ≤ q → q < p + n → e q = c) : Stretch e c p n :=
  fun i hi => h (p + i) (by omega) (by omega)

theorem Stretch.sub (h : Stretch e c p n) (hp : p ≤ q) (hq : q + m ≤ p + n) : Stretch e c q m :=
  stretch_of fun i hi hi' => h.at (by omega) (by omega)

end Stretch

/-! ### Histories -/

/-- The lengths of the runs before the place `s`, the last one first; that run has the colour `c`. -/
inductive Before (e : ℤ → Bool) (bound : ℕ) : ℤ → Bool → List ℕ → Prop where
  /-- As far back as the scan remembers. -/
  | forgotten (s : ℤ) (c : Bool) : Before e bound s c []
  /-- Nothing is recorded before the first run. -/
  | start {s : ℤ} (k : ℕ) (h : ∀ i < s, e i = false) : Before e bound s true (List.replicate k 0)
  /-- The first run is recorded as longer than the bound. -/
  | border {s : ℤ} {n : ℕ} (k : ℕ) (h : ∀ i < s, e i = false) (hn : bound ≤ n) :
    Before e bound s false (n :: List.replicate k 0)
  /-- A run after another one. -/
  | run {s : ℤ} {c : Bool} {n : ℕ} {ns : List ℕ} (hpos : 0 < n) (h : Stretch e c (s - n) n) (hend : e (s - n - 1) = !c)
    (hrest : Before e bound (s - n) (!c) ns) : Before e bound s c (n :: ns)

namespace Before

variable {e : ℤ → Bool} {bound : ℕ} {s : ℤ} {c : Bool} {n n' k : ℕ} {ns : List ℕ}

/-- The oldest run can be forgotten. -/
theorem dropLast (h : Before e bound s c ns) : Before e bound s c ns.dropLast := by
  induction h with
  | forgotten s c => exact .forgotten s c
  | start k h =>
    rw [List.dropLast_replicate]
    exact .start (k - 1) h
  | border k h hn =>
    cases k with
    | zero => exact .forgotten _ _
    | succ k =>
      rw [List.replicate_succ, List.dropLast_cons_of_ne_nil (List.cons_ne_nil _ _), ← List.replicate_succ,
        List.dropLast_replicate]
      exact .border k h hn
  | @run s c n ns hpos h hend hrest ih =>
    cases ns with
    | nil => exact .forgotten s c
    | cons n' ns =>
      rw [List.dropLast_cons_of_ne_nil (List.cons_ne_nil _ _)]
      exact .run hpos h hend ih

/-- A stretch that ends at `s`, with another colour before it, is the last run. -/
theorem exact (h : Before e bound s c (n :: ns)) (hk : 0 < k) (hstretch : Stretch e c (s - k) k)
    (hend : e (s - k - 1) = !c) : n = k ∧ Before e bound (s - k) (!c) ns := by
  generalize hl : n :: ns = l at h
  cases h with
  | forgotten => cases hl
  | start k' h =>
    -- the place before `s` would have both colours
    have := hstretch.at (q := s - 1) (by omega) (by omega)
    rw [h _ (by omega)] at this
    cases this
  | border k' h hn =>
    rw [h _ (by omega)] at hend
    cases hend
  | run hpos hrun hother hrest =>
    obtain ⟨rfl, rfl⟩ := List.cons.inj hl
    have hsame : n = k := by
      rcases Nat.lt_trichotomy n k with hlt | heq | hgt
      · have := hstretch.at (q := s - n - 1) (by omega) (by omega)
        rw [hother] at this
        cases c <;> cases this
      · exact heq
      · have := hrun.at (q := s - k - 1) (by omega) (by omega)
        rw [hend] at this
        cases c <;> cases this
    rw [← hsame]
    exact ⟨rfl, hrest⟩

/-- The last run is there if it and the one before it are recorded. -/
theorem recorded (h : Before e bound s c (n :: n' :: ns)) (hn : 0 < n) (hn' : 0 < n') :
    Stretch e c (s - n) n ∧ e (s - n - 1) = !c ∧ Before e bound (s - n) (!c) (n' :: ns) := by
  generalize hl : n :: n' :: ns = l at h
  cases h with
  | forgotten => cases hl
  | start k h =>
    have := List.eq_of_mem_replicate (hl ▸ List.mem_cons_self : n ∈ List.replicate k 0)
    omega
  | border k h hbound =>
    have := List.eq_of_mem_replicate ((List.cons.inj hl).2 ▸ List.mem_cons_self : n' ∈ List.replicate k 0)
    omega
  | run hpos hrun hother hrest =>
    obtain ⟨rfl, rfl⟩ := List.cons.inj hl
    exact ⟨hrun, hother, hrest⟩

/-- A stretch up to the bound ends at `s` exactly if the last run is as long. -/
theorem stretch_iff (h : Before e bound s c (n :: ns)) (hk : 0 < k) (hbound : k ≤ bound) :
    Stretch e c (s - k) k ↔ k ≤ n := by
  generalize hl : n :: ns = l at h
  cases h with
  | forgotten => cases hl
  | start k' h =>
    have hzero := List.eq_of_mem_replicate (hl ▸ List.mem_cons_self : n ∈ List.replicate k' 0)
    refine iff_of_false (fun hstretch => ?_) (by omega)
    have := hstretch.at (q := s - 1) (by omega) (by omega)
    rw [h _ (by omega)] at this
    cases this
  | border k' h hn =>
    obtain ⟨rfl, -⟩ := List.cons.inj hl
    exact iff_of_true (stretch_of fun q _ hq => h q (by omega)) (hbound.trans hn)
  | run hpos hrun hother hrest =>
    obtain ⟨rfl, -⟩ := List.cons.inj hl
    constructor
    · intro hstretch
      by_contra hlt
      have := hstretch.at (q := s - n - 1) (by omega) (by omega)
      rw [hother] at this
      cases c <;> cases this
    · intro hle
      exact hrun.sub (by omega) (by omega)

/-- The place before `s` has the colour of the last run. -/
theorem last (h : Before e bound s c (n :: ns)) (hn : 0 < n) : e (s - 1) = c := by
  generalize hl : n :: ns = l at h
  cases h with
  | forgotten => cases hl
  | start k h =>
    have := List.eq_of_mem_replicate (hl ▸ List.mem_cons_self : n ∈ List.replicate k 0)
    omega
  | border k h hbound => exact h _ (by omega)
  | run hpos hrun hother hrest =>
    obtain ⟨rfl, -⟩ := List.cons.inj hl
    exact hrun.at (by omega) (by omega)

end Before

end AuditSphere.Theory
