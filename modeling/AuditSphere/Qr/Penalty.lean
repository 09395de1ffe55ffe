import AuditSphere.Qr.Matrix
import AuditSphere.Theory.Runs
import Mathlib.Algebra.BigOperators.Intervals
import Mathlib.Algebra.BigOperators.Ring.Finset
import Mathlib.Data.Rat.Cast.Order
import Mathlib.Tactic.FieldSimp
import Mathlib.Tactic.Positivity

/-!
# The penalty of a matrix

The penalty of the standard, said of the places of a matrix (`standardPenalty`): for runs, for
squares, for patterns like a finder, and for the share of dark modules. `penaltyScore` goes
through each row and column once and keeps the lengths of the last seven runs, with a light
border on both sides. At each place it has counted what starts or ends before the current run
(`Scanned`), so that the two are equal (`penaltyScore_eq`).
-/

namespace AuditSphere.Qr

open Theory Finset

/-! ### The penalty of the standard -/

/-- A row or column of a matrix, light beyond the border. -/
def extended (size : ℕ) (f : ℕ → Bool) (i : ℤ) : Bool := decide (0 ≤ i ∧ i < size) && f i.toNat

/-- A run of `n` equal modules from `i` on that cannot be made longer. -/
def MaximalRun (size : ℕ) (f : ℕ → Bool) (i n : ℕ) : Prop :=
  i + n ≤ size ∧ (∀ j < n, f (i + j) = f i) ∧ (i = 0 ∨ f (i - 1) ≠ f i) ∧ (i + n = size ∨ f (i + n) ≠ f i)

instance (size : ℕ) (f : ℕ → Bool) (i n : ℕ) : Decidable (MaximalRun size f i n) := inferInstanceAs (Decidable (_ ∧ _))

/-- Dark and light modules in the proportion of a finder, of the width `n`, from `p` on. -/
def FinderPattern (e : ℤ → Bool) (p : ℤ) (n : ℕ) : Prop :=
  Stretch e true p n ∧ Stretch e false (p + n) n ∧ Stretch e true (p + 2 * n) (3 * n) ∧
    Stretch e false (p + 5 * n) n ∧ Stretch e true (p + 6 * n) n

instance (e : ℤ → Bool) (p : ℤ) (n : ℕ) : Decidable (FinderPattern e p n) := inferInstanceAs (Decidable (_ ∧ _))

/-- On how many sides a pattern has four light widths, with one on the other side. -/
def finderSides (e : ℤ → Bool) (p : ℤ) (n : ℕ) : ℤ :=
  (if FinderPattern e p n ∧ Stretch e false (p - 4 * n) (4 * n) ∧ Stretch e false (p + 7 * n) n then 1 else 0) +
    if FinderPattern e p n ∧ Stretch e false (p - n) n ∧ Stretch e false (p + 7 * n) (4 * n) then 1 else 0

/-- The penalty of a row or column: for every maximal run of five modules or more, and for every pattern like a finder
that starts in it. -/
def standardLine (size : ℕ) (f : ℕ → Bool) : ℤ :=
  (∑ i ∈ range size, ∑ n ∈ Icc 5 size, if MaximalRun size f i n then (n : ℤ) - 2 else 0) +
    ∑ p ∈ range size, ∑ n ∈ Icc 1 size, 40 * finderSides (extended size f) p n

/-- The number of dark modules. -/
def darkCount (size : ℕ) (modules : Cell → Bool) : ℕ := ((range size ×ˢ range size).filter fun p => modules p).card

/-- Their share. -/
def darkShare (size : ℕ) (modules : Cell → Bool) : ℚ := darkCount size modules / (size * size : ℕ)

/-- The penalty of the standard: of the rows and columns, 3 for every square of one colour, and 10 for every 5% that
the share of dark modules is farther from one half. -/
def standardPenalty (size : ℕ) (modules : Cell → Bool) : ℤ :=
  (∑ y ∈ range size, standardLine size fun x => modules (x, y)) +
    (∑ x ∈ range size, standardLine size fun y => modules (x, y)) +
    (∑ y ∈ range (size - 1), ∑ x ∈ range (size - 1),
      if modules (x, y) = modules (x + 1, y) ∧ modules (x, y) = modules (x, y + 1) ∧
        modules (x, y) = modules (x + 1, y + 1) then 3 else 0) +
    10 * ((Icc 1 10).filter fun k : ℕ => (k : ℚ) * (5 / 100) < |darkShare size modules - 1 / 2|).card

/-! ### Patterns and histories -/

section History

variable {e : ℤ → Bool} {bound n h₀ h₁ h₂ h₃ h₄ h₅ h₆ : ℕ} {s : ℤ}

/-- A pattern, seen from its end. -/
theorem finderPattern_iff : FinderPattern e (s - 7 * n) n ↔ Stretch e true (s - n) n ∧ Stretch e false (s - n - n) n ∧
    Stretch e true (s - n - n - (3 * n : ℕ)) (3 * n) ∧ Stretch e false (s - n - n - (3 * n : ℕ) - n) n ∧
      Stretch e true (s - n - n - (3 * n : ℕ) - n - n) n := by
  rw [FinderPattern, show s - 7 * n + n = s - n - n - (3 * n : ℕ) - n by push_cast; ring,
    show s - 7 * n + 2 * n = s - n - n - (3 * n : ℕ) by push_cast; ring, show s - 7 * n + 5 * n = s - n - n by ring,
    show s - 7 * n + 6 * n = s - n by ring, show s - 7 * n = s - n - n - (3 * n : ℕ) - n - n by push_cast; ring]
  tauto

/-- A pattern that ends where the history does has its runs in it. -/
theorem finder_history (hb : Before e bound s true [h₁, h₂, h₃, h₄, h₅, h₆]) (hn : 0 < n)
    (h : FinderPattern e (s - 7 * n) n) (hlight : e (s - 7 * n - 1) = false) :
    (h₁ = n ∧ h₂ = n ∧ h₃ = 3 * n ∧ h₄ = n ∧ h₅ = n) ∧ Before e bound (s - 7 * n) false [h₆] := by
  obtain ⟨hdark, hlight₂, hdark₃, hlight₄, hdark₅⟩ := finderPattern_iff.mp h
  rw [show s - 7 * n - 1 = s - n - n - (3 * n : ℕ) - n - n - 1 by push_cast; ring] at hlight
  rw [show s - 7 * n = s - n - n - (3 * n : ℕ) - n - n by push_cast; ring]
  obtain ⟨h₁', hb⟩ := hb.exact hn hdark (hlight₂.at (by omega) (by omega))
  obtain ⟨h₂', hb⟩ := hb.exact hn hlight₂ (hdark₃.at (by omega) (by omega))
  obtain ⟨h₃', hb⟩ := hb.exact (by omega) hdark₃ (hlight₄.at (by omega) (by omega))
  obtain ⟨h₄', hb⟩ := hb.exact hn hlight₄ (hdark₅.at (by omega) (by omega))
  obtain ⟨h₅', hb⟩ := hb.exact hn hdark₅ hlight
  exact ⟨⟨h₁', h₂', h₃', h₄', h₅'⟩, hb⟩

/-- Runs of the history in the proportion of a finder are a pattern. -/
theorem finder_of_history (hb : Before e bound s true [n, n, 3 * n, n, n, h₆]) (hn : 0 < n) (h₆' : 0 < h₆) :
    FinderPattern e (s - 7 * n) n ∧ e (s - 7 * n - 1) = false := by
  obtain ⟨hdark, -, hb⟩ := hb.recorded hn hn
  obtain ⟨hlight₂, -, hb⟩ := hb.recorded hn (by omega)
  obtain ⟨hdark₃, -, hb⟩ := hb.recorded (by omega) hn
  obtain ⟨hlight₄, -, hb⟩ := hb.recorded hn hn
  obtain ⟨hdark₅, hlight, -⟩ := hb.recorded hn h₆'
  refine ⟨finderPattern_iff.mpr ⟨hdark, hlight₂, hdark₃, hlight₄, hdark₅⟩, ?_⟩
  rw [← show s - 7 * n - 1 = s - n - n - (3 * n : ℕ) - n - n - 1 by push_cast; ring] at hlight
  exact hlight

/-- A pattern that counts has a light module before it. -/
theorem finderSides_eq_zero {p : ℤ} (hn : 0 < n) (h : ¬(FinderPattern e p n ∧ e (p - 1) = false)) : finderSides e p n = 0 := by
  rw [finderSides, if_neg, if_neg, add_zero]
  · rintro ⟨hpattern, hbefore, -⟩
    exact h ⟨hpattern, hbefore.at (by omega) (by omega)⟩
  · rintro ⟨hpattern, hbefore, -⟩
    exact h ⟨hpattern, hbefore.at (by omega) (by omega)⟩

/-- **The patterns that end at a place** are counted from the history there and the length of the light run that
follows. -/
theorem finders_eq (hb : Before e bound s true [h₁, h₂, h₃, h₄, h₅, h₆]) (hborder : ∀ i < 0, e i = false)
    (hs : s ≤ bound) (hafter : 0 < h₁ → ∀ k, 0 < k → k ≤ bound → (Stretch e false s k ↔ k ≤ h₀)) :
    ∑ n ∈ Icc 1 bound, finderSides e (s - 7 * n) n = countPatterns [h₀, h₁, h₂, h₃, h₄, h₅, h₆] := by
  simp only [countPatterns, List.getD_cons_zero, List.getD_cons_succ]
  by_cases hcore : 0 < h₁ ∧ h₂ = h₁ ∧ h₃ = 3 * h₁ ∧ h₄ = h₁ ∧ h₅ = h₁ ∧ 0 < h₆
  · obtain ⟨hpos, rfl, rfl, rfl, rfl, hpos₆⟩ := hcore
    obtain ⟨hpattern, hlight⟩ := finder_of_history hb hpos hpos₆
    obtain ⟨-, hb₆⟩ := finder_history hb hpos hpattern hlight
    -- the pattern lies within the line
    have hfit : 7 * h₅ ≤ bound := by
      by_contra hlt
      have hdark := hpattern.1.at (q := s - 7 * h₅) (by omega) (by omega)
      rw [hborder _ (by omega)] at hdark
      cases hdark
    rw [Finset.sum_eq_single_of_mem h₅ (mem_Icc.mpr ⟨hpos, by omega⟩)]
    · have hbefore := fun k (hk : 0 < k) (hk' : k ≤ bound) => hb₆.stretch_iff hk hk'
      have hfour := hbefore (4 * h₅) (by omega) (by omega)
      rw [Nat.cast_mul, Nat.cast_ofNat] at hfour
      simp only [finderSides, hpattern, sub_add_cancel, hfour, hbefore h₅ hpos (by omega),
        hafter hpos h₅ hpos (by omega), hafter hpos (4 * h₅) (by omega) (by omega), true_and, gt_iff_lt, hpos, ge_iff_le,
        Nat.mul_comm h₅]
      rw [add_comm]
      congr 1
      simp only [and_comm]
    · intro n hn hne
      refine finderSides_eq_zero (mem_Icc.mp hn).1 fun h => hne ?_
      obtain ⟨⟨heq, -⟩, -⟩ := finder_history hb (mem_Icc.mp hn).1 h.1 h.2
      exact heq.symm
  · rw [Finset.sum_eq_zero, if_neg, if_neg, add_zero]
    · omega
    · omega
    · intro n hn
      have hpos := (mem_Icc.mp hn).1
      refine finderSides_eq_zero hpos fun h => hcore ?_
      obtain ⟨⟨h₁', h₂', h₃', h₄', h₅'⟩, hb₆⟩ := finder_history hb hpos h.1 h.2
      refine ⟨by omega, by omega, by omega, by omega, by omega, ?_⟩
      refine (hb₆.stretch_iff Nat.one_pos (hpos.trans (mem_Icc.mp hn).2)).mp (stretch_of fun q hq hq' => ?_)
      obtain rfl : q = s - 7 * n - 1 := by omega
      exact h.2

end History

/-! ### Scanning a line -/

section Line

variable {size : ℕ} {f : ℕ → Bool} {s x : ℕ} {run : Run}

theorem extended_natCast {i : ℕ} (h : i < size) : extended size f i = f i := by
  rw [extended, decide_eq_true (by omega), Bool.true_and, Int.toNat_natCast]

theorem extended_outside {i : ℤ} (h : i < 0 ∨ size ≤ i) : extended size f i = false := by
  rw [extended, decide_eq_false (by omega), Bool.false_and]

/-- The penalty of the runs that start at a place. -/
def runsAt (size : ℕ) (f : ℕ → Bool) (i : ℕ) : ℤ := ∑ n ∈ Icc 5 size, if MaximalRun size f i n then (n : ℤ) - 2 else 0

/-- The patterns that end before a place. -/
def findersAt (size : ℕ) (f : ℕ → Bool) (q : ℕ) : ℤ := ∑ n ∈ Icc 1 size, finderSides (extended size f) (q - 7 * n) n

/-- What holds of the scan before the place `x`, where the current run began at `s`. -/
structure Scanned (size : ℕ) (f : ℕ → Bool) (s x : ℕ) (run : Run) : Prop where
  runLen : s + run.runLen = x
  same : ∀ i, s ≤ i → i < x → f i = run.runColor
  change : s = 0 ∨ f (s - 1) ≠ run.runColor
  length : run.hist.length = 7
  before : Before (extended size f) size s (!run.runColor) run.hist
  recorded : (run.hist = List.replicate 7 0 ∧ s = 0 ∧ run.runColor = false) ∨ (0 < run.runLen ∧ 0 < run.hist.headD 0)
  result : run.result = ∑ i ∈ range s, (runsAt size f i + 40 * findersAt size f i) +
    if 5 ≤ run.runLen then (run.runLen : ℤ) - 2 else 0

/-- The run is as long as it can be. -/
def Scanned.Ended (size : ℕ) (f : ℕ → Bool) (x : ℕ) (run : Run) : Prop := x = size ∨ x < size ∧ f x ≠ run.runColor

theorem scanned_start : Scanned size f 0 0 ⟨0, false, 0, [0, 0, 0, 0, 0, 0, 0]⟩ where
  runLen := rfl
  same _ _ hi := absurd hi (Nat.not_lt_zero _)
  change := .inl rfl
  length := rfl
  before := .start 7 fun _ hi => extended_outside (.inl hi)
  recorded := .inl ⟨rfl, rfl, rfl⟩
  result := rfl

theorem length_addHistory {size runLen : ℕ} {hist : List ℕ} (h : hist.length = 7) :
    (addHistory size runLen hist).length = 7 := by
  rw [addHistory, List.length_cons, List.length_dropLast, h]

/-- No pattern ends with the first run. -/
theorem countPatterns_start (size runLen : ℕ) : countPatterns (addHistory size runLen (List.replicate 7 0)) = 0 := rfl

/-- The sum over the places of a run is that of its first one. -/
theorem sum_run {g : ℕ → ℤ} {s x : ℕ} (hs : s < x) (hzero : ∀ i, s < i → i < x → g i = 0) :
    ∑ i ∈ range x, g i = ∑ i ∈ range s, g i + g s := by
  rw [← Finset.sum_range_succ]
  refine (Finset.sum_subset (range_subset_range.mpr hs) fun i hi hi' => ?_).symm
  rw [mem_range] at hi hi'
  exact hzero i (by omega) hi

namespace Scanned

/-- The modules of the run. -/
theorem stretch (h : Scanned size f s x run) (hx : x ≤ size) : Stretch (extended size f) run.runColor s run.runLen := by
  intro i hi
  have hlen := h.runLen
  rw [← Nat.cast_add, extended_natCast (by omega)]
  exact h.same (s + i) (by omega) (by omega)

/-- The history once the run is over. -/
theorem before_next (h : Scanned size f s x run) (hx : x ≤ size) :
    Before (extended size f) size x run.runColor (addHistory size run.runLen run.hist) := by
  have hlen := h.runLen
  rcases h.recorded with ⟨hhist, rfl, hlight⟩ | ⟨hpos, hhead⟩
  · rw [hhist, hlight]
    refine .border 6 (fun i hi => ?_) (Nat.le_add_left _ _)
    rcases lt_or_ge i 0 with hneg | hnonneg
    · exact extended_outside (.inl hneg)
    · have := (h.stretch hx).at (q := i) (by omega) (by omega)
      rwa [hlight] at this
  · have hs : ((x : ℤ) - run.runLen) = s := by omega
    have hlast : extended size f (s - 1) = !run.runColor := by
      have hb := h.before
      generalize run.hist = hist at hb hhead
      cases hist with
      | nil => exact absurd hhead (Nat.lt_irrefl 0)
      | cons n ns => exact hb.last hhead
    rw [addHistory, if_neg hhead.ne']
    refine .run hpos ?_ ?_ ?_
    · rw [hs]
      exact h.stretch hx
    · rw [hs]
      exact hlast
    · rw [hs]
      exact h.before.dropLast

/-- The penalty of the run, once it is over. -/
theorem runsAt_eq (h : Scanned size f s x run) (hend : Ended size f x run) (hs : s < x) :
    runsAt size f s = if 5 ≤ run.runLen then (run.runLen : ℤ) - 2 else 0 := by
  have hlen := h.runLen
  have hmaximal (n : ℕ) (hn : 0 < n) : MaximalRun size f s n ↔ n = run.runLen := by
    have hcolor := h.same s le_rfl hs
    constructor
    · rintro ⟨hle, hsame, -, hnext⟩
      rcases Nat.lt_trichotomy n run.runLen with hlt | heq | hgt
      · -- the run goes on
        rcases hnext with hsize | hnext
        · rcases hend with rfl | ⟨hx, -⟩ <;> omega
        · exact absurd ((h.same (s + n) (by omega) (by omega)).trans hcolor.symm) hnext
      · exact heq
      · -- the run is over
        rcases hend with rfl | ⟨-, hother⟩
        · omega
        · have := hsame run.runLen hgt
          rw [hlen, hcolor] at this
          exact absurd this hother
    · rintro rfl
      refine ⟨?_, fun j hj => ?_, ?_, ?_⟩
      · rcases hend with rfl | ⟨hx, -⟩ <;> omega
      · rw [hcolor]
        exact h.same (s + j) (by omega) (by omega)
      · rw [hcolor]
        exact h.change
      · rw [hcolor, hlen]
        exact hend.imp id And.right
  have hsum : runsAt size f s = ∑ n ∈ Icc 5 size, if n = run.runLen then (n : ℤ) - 2 else 0 :=
    Finset.sum_congr rfl fun n hn => if_congr (hmaximal n (by have := mem_Icc.mp hn; omega)) rfl rfl
  rw [hsum, Finset.sum_ite_eq']
  by_cases hfive : 5 ≤ run.runLen
  · rw [if_pos hfive, if_pos (mem_Icc.mpr ⟨hfive, by rcases hend with rfl | ⟨hx, -⟩ <;> omega⟩)]
  · rw [if_neg hfive, if_neg fun hmem => hfive (mem_Icc.mp hmem).1]

/-- No run starts within a run. -/
theorem runsAt_within (h : Scanned size f s x run) {i : ℕ} (hi : s < i) (hx : i < x) : runsAt size f i = 0 := by
  refine Finset.sum_eq_zero fun n _ => if_neg ?_
  rintro ⟨-, -, hfirst | hfirst, -⟩
  · omega
  · exact hfirst ((h.same (i - 1) (by omega) (by omega)).trans (h.same i hi.le hx).symm)

end Scanned

/-- A pattern ends where a light run follows a dark one. -/
theorem findersAt_eq_zero {q : ℕ} (h : ¬(extended size f (q - 1) = true ∧ extended size f q = false)) :
    findersAt size f q = 0 := by
  refine Finset.sum_eq_zero fun n hn => ?_
  have hpos := (mem_Icc.mp hn).1
  have hpattern : ∀ k, 0 < k → ¬(FinderPattern (extended size f) (q - 7 * n) n ∧
      Stretch (extended size f) false (q - 7 * n + 7 * n) k) := by
    rintro k hk ⟨⟨-, -, -, -, hdark⟩, hlight⟩
    exact h ⟨hdark.at (by omega) (by omega), hlight.at (by omega) (by omega)⟩
  rw [finderSides, if_neg, if_neg, add_zero]
  · rintro ⟨hp, -, hafter⟩
    exact hpattern (4 * n) (by omega) ⟨hp, hafter⟩
  · rintro ⟨hp, -, hafter⟩
    exact hpattern n hpos ⟨hp, hafter⟩

/-- The patterns that end before a light run, from the history and a length that tells how long it is. -/
theorem findersAt_eq {q : ℕ} {hist : List ℕ} (hb : Before (extended size f) size q true hist) (hlength : hist.length = 7)
    (hq : q ≤ size) {runLen : ℕ}
    (hafter : 0 < hist.headD 0 → ∀ k, 0 < k → k ≤ size → (Stretch (extended size f) false q k ↔ k ≤ runLen)) :
    findersAt size f q = countPatterns (addHistory size runLen hist) := by
  match hist, hlength with
  | [h₁, h₂, h₃, h₄, h₅, h₆, h₇], _ =>
    exact finders_eq hb.dropLast (fun i hi => extended_outside (.inl hi)) (by omega) fun hpos k hk hk' => by
      rw [if_neg (show ¬[h₁, h₂, h₃, h₄, h₅, h₆, h₇].headD 0 = 0 from hpos.ne')]
      exact hafter hpos k hk hk'

namespace Scanned

/-- The current run, if it is light. -/
theorem findersAt_light (h : Scanned size f s x run) (hx : x ≤ size) (hlight : run.runColor = false) {runLen : ℕ}
    (hafter : ∀ k, 0 < k → k ≤ size → (Stretch (extended size f) false s k ↔ k ≤ runLen)) :
    findersAt size f s = countPatterns (addHistory size runLen run.hist) := by
  have hlen := h.runLen
  have hb := h.before
  rw [hlight] at hb
  exact findersAt_eq hb h.length (by omega) fun _ => hafter

/-- No pattern ends within a run. -/
theorem findersAt_within (h : Scanned size f s x run) (hx : x ≤ size) {i : ℕ} (hi : s < i) (hix : i < x) :
    findersAt size f i = 0 := by
  refine findersAt_eq_zero ?_
  rintro ⟨hdark, hlight⟩
  have hlen := h.runLen
  rw [(h.stretch hx).at (by omega) (by omega)] at hdark hlight
  rw [hdark] at hlight
  cases hlight

/-- Nor before a dark run. -/
theorem findersAt_dark (h : Scanned size f s x run) (hx : x ≤ size) (hs : s < x) (hdark : run.runColor = true) :
    findersAt size f s = 0 := by
  refine findersAt_eq_zero ?_
  rintro ⟨-, hlight⟩
  have hlen := h.runLen
  rw [(h.stretch hx).at (by omega) (by omega), hdark] at hlight
  cases hlight

/-- The light run before a place that is not light is as long as it was scanned. -/
theorem stretch_light_iff (h : Scanned size f s x run) (hlight : run.runColor = false) (hx : x < size) (hother : f x = true)
    (k : ℕ) : Stretch (extended size f) false s k ↔ k ≤ run.runLen := by
  have hlen := h.runLen
  have hrun := h.stretch hx.le
  rw [hlight] at hrun
  constructor
  · intro hk
    by_contra hlt
    have := hk.at (q := x) (by omega) (by omega)
    rw [extended_natCast hx, hother] at this
    cases this
  · intro hk
    exact hrun.sub le_rfl (by omega)

/-- A run that is over has its whole penalty, with the patterns before it. -/
theorem result_next (h : Scanned size f s x run) (hx : x < size) (hother : f x ≠ run.runColor) :
    run.result + (if !run.runColor then countPatterns (addHistory size run.runLen run.hist) * 40 else 0) =
      ∑ i ∈ range x, (runsAt size f i + 40 * findersAt size f i) := by
  have hlen := h.runLen
  have hresult := h.result
  rcases Nat.eq_or_lt_of_le (show s ≤ x by omega) with rfl | hs
  · -- nothing is scanned yet
    obtain ⟨hhist, -, hlight⟩ := h.recorded.resolve_right (by omega)
    rw [hresult, hhist, hlight, show run.runLen = 0 by omega, countPatterns_start]
    simp
  · rw [sum_run hs fun i hi hix => by rw [h.runsAt_within hi hix, h.findersAt_within hx.le hi hix]; rfl,
      h.runsAt_eq (.inr ⟨hx, hother⟩) hs, hresult]
    cases hcolor : run.runColor with
    | true =>
      rw [h.findersAt_dark hx.le hs hcolor]
      simp
    | false =>
      have hdark : f x = true := by
        rw [hcolor] at hother
        simpa using hother
      rw [h.findersAt_light hx.le hcolor fun k _ _ => h.stretch_light_iff hcolor hx hdark k]
      simp only [Bool.not_false, if_true]
      ring

/-- **One module more.** -/
theorem step (h : Scanned size f s x run) (hx : x < size) : ∃ s', Scanned size f s' (x + 1) (run.step size (f x)) := by
  have hlen := h.runLen
  by_cases hsame : f x = run.runColor
  · refine ⟨s, ?_⟩
    rw [Run.step, if_pos hsame]
    refine ⟨?_, fun i hi hix => ?_, h.change, h.length, h.before, ?_, ?_⟩
    · dsimp only
      omega
    · rcases Nat.lt_succ_iff_lt_or_eq.mp hix with hix | rfl
      · exact h.same i hi hix
      · exact hsame
    · exact h.recorded.imp_right fun hpos => ⟨Nat.succ_pos _, hpos.2⟩
    · have hresult := h.result
      dsimp only
      rw [hresult]
      push_cast
      split_ifs <;> omega
  · refine ⟨x, ?_⟩
    rw [Run.step, if_neg hsame]
    have hcolor : run.runColor = !f x := by
      cases hf : f x <;> cases hr : run.runColor <;> simp_all
    refine ⟨rfl, fun i hi hix => ?_, ?_, ?_, ?_, .inr ⟨Nat.one_pos, ?_⟩, ?_⟩
    · rw [show i = x by omega]
    · dsimp only
      rcases Nat.eq_zero_or_pos x with hzero | hpos
      · exact .inl hzero
      · refine .inr ?_
        rcases Nat.eq_or_lt_of_le (show s ≤ x by omega) with rfl | hs
        · obtain ⟨-, hzero, -⟩ := h.recorded.resolve_right (by omega)
          omega
        · rw [h.same (x - 1) (by omega) (by omega)]
          exact Ne.symm hsame
    · exact length_addHistory h.length
    · have hnext := h.before_next hx.le
      rw [hcolor] at hnext
      exact hnext
    · rw [addHistory, List.headD_cons]
      rcases h.recorded with ⟨hhist, -⟩ | ⟨hpos, hhead⟩
      · rw [hhist, List.replicate_succ, List.headD_cons, if_pos rfl]
        omega
      · rw [if_neg hhead.ne']
        exact hpos
    · dsimp only
      rw [h.result_next hx hsame, if_neg (by decide), add_zero]

end Scanned

/-- **A line that is scanned.** -/
theorem scanned_line {x : ℕ} (hx : x ≤ size) :
    ∃ s, Scanned size f s x (((List.range x).map f).foldl (Run.step size) ⟨0, false, 0, [0, 0, 0, 0, 0, 0, 0]⟩) := by
  induction x with
  | zero => exact ⟨0, scanned_start⟩
  | succ x ih =>
    obtain ⟨s, h⟩ := ih (by omega)
    rw [List.range_succ, List.map_append, List.foldl_append]
    exact h.step hx

/-- No run starts at the end. -/
theorem runsAt_end : runsAt size f size = 0 :=
  Finset.sum_eq_zero fun n hn => if_neg fun h => by have := (mem_Icc.mp hn).1; have := h.1; omega

/-- The scan of a line counts its runs and patterns, each where it starts or ends. -/
theorem linePenalty_eq : linePenalty size ((List.range size).map f) =
    ∑ i ∈ range size, runsAt size f i + 40 * ∑ q ∈ range (size + 1), findersAt size f q := by
  obtain ⟨s, h⟩ := @scanned_line size f size le_rfl
  have hsum : ∑ i ∈ range size, runsAt size f i + 40 * ∑ q ∈ range (size + 1), findersAt size f q =
      ∑ i ∈ range size, (runsAt size f i + 40 * findersAt size f i) + 40 * findersAt size f size := by
    rw [Finset.sum_add_distrib, ← Finset.mul_sum, Finset.sum_range_succ]
    ring
  rw [linePenalty, hsum]
  generalize ((List.range size).map f).foldl (Run.step size) ⟨0, false, 0, [0, 0, 0, 0, 0, 0, 0]⟩ = run at h
  have hlen := h.runLen
  -- beyond the border all is light
  have hborder (q k : ℕ) (hq : size ≤ q) : Stretch (extended size f) false q k :=
    stretch_of fun i hi _ => extended_outside (.inr (by omega))
  have hruns : s < size → ∑ i ∈ range size, (runsAt size f i + 40 * findersAt size f i) =
      run.result + 40 * findersAt size f s := fun hs => by
    rw [sum_run hs fun i hi hix => by rw [h.runsAt_within hi hix, h.findersAt_within le_rfl hi hix]; rfl,
      h.runsAt_eq (.inl rfl) hs, h.result]
    ring
  cases hcolor : run.runColor with
  | true =>
    have hs : s < size := by
      rcases h.recorded with ⟨-, -, hlight⟩ | ⟨hpos, -⟩
      · rw [hcolor] at hlight
        cases hlight
      · omega
    have hnext := h.before_next le_rfl
    rw [hcolor] at hnext
    have hlast := findersAt_eq hnext (length_addHistory h.length) le_rfl fun _ k _ hk =>
      iff_of_true (hborder size k le_rfl) hk
    rw [hruns hs, h.findersAt_dark le_rfl hs hcolor, hlast, terminateAndCount, if_pos rfl]
    ring
  | false =>
    rw [terminateAndCount, if_neg Bool.false_ne_true]
    rcases Nat.eq_or_lt_of_le (show s ≤ size by omega) with rfl | hs
    · -- the line is empty
      obtain ⟨hhist, rfl, -⟩ := h.recorded.resolve_right (by omega)
      rw [h.result, hhist, countPatterns_start, show run.runLen = 0 by omega]
      simp [findersAt]
    · have hrun := h.stretch le_rfl
      rw [hcolor] at hrun
      have hlight : ∀ i : ℤ, s ≤ i → extended size f i = false := fun i hi => by
        rcases lt_or_ge i size with hlt | hge
        · exact hrun.at hi (by omega)
        · exact extended_outside (.inr hge)
      have hlast : findersAt size f size = 0 := findersAt_eq_zero fun h' => by
        rw [hlight _ (by omega)] at h'
        exact Bool.false_ne_true h'.1
      rw [hruns hs, hlast, h.findersAt_light le_rfl hcolor fun k _ hk =>
        iff_of_true (stretch_of fun i hi _ => hlight i hi) (show k ≤ run.runLen + size by omega)]
      ring

/-- A pattern that counts lies within the line. -/
theorem finderSides_fits {p : ℤ} {n : ℕ} (hn : 0 < n) (h : finderSides (extended size f) p n ≠ 0) :
    0 ≤ p ∧ p + 7 * n ≤ size := by
  have hpattern : FinderPattern (extended size f) p n := by
    by_contra hnot
    exact h (finderSides_eq_zero hn fun h' => hnot h'.1)
  obtain ⟨hfirst, -, -, -, hlast⟩ := hpattern
  have hin : ∀ i, extended size f i = true → 0 ≤ i ∧ i < size := fun i hi => by
    by_contra hout
    rw [extended_outside (by omega)] at hi
    cases hi
  have hp := hin p (hfirst.at le_rfl (by omega))
  have hp' := hin (p + 7 * n - 1) (hlast.at (by omega) (by omega))
  omega

/-- Each pattern starts at a place of the line and ends at one. -/
theorem sum_findersAt : ∑ q ∈ range (size + 1), findersAt size f q =
    ∑ p ∈ range size, ∑ n ∈ Icc 1 size, finderSides (extended size f) p n := by
  unfold findersAt
  rw [Finset.sum_comm, Finset.sum_comm (s := range size)]
  refine Finset.sum_congr rfl fun n hn => ?_
  have hpos : 0 < n := (mem_Icc.mp hn).1
  symm
  refine Finset.sum_bij_ne_zero (fun p _ _ => p + 7 * n) (fun p _ hp => ?_) (fun p _ _ p' _ _ heq => ?_)
    (fun q _ hq => ?_) fun p _ _ => ?_
  · have := finderSides_fits hpos hp
    exact mem_range.mpr (by omega)
  · exact Nat.add_right_cancel heq
  · have hfit := finderSides_fits hpos hq
    have hcast : ((q - 7 * n : ℕ) : ℤ) = q - 7 * n := by omega
    refine ⟨q - 7 * n, mem_range.mpr (by omega), ?_, by omega⟩
    rwa [hcast]
  · rw [show ((p + 7 * n : ℕ) : ℤ) - 7 * n = p by omega]

/-- **The penalty of a line** is that of the standard. -/
theorem linePenalty_standard : linePenalty size ((List.range size).map f) = standardLine size f := by
  rw [linePenalty_eq, sum_findersAt, standardLine, Finset.mul_sum]
  simp only [Finset.mul_sum]
  rfl

end Line

/-! ### The matrix -/

section Matrix

variable {size : ℕ} {modules : Cell → Bool}

theorem darkCount_eq : ((List.range size).flatMap fun y => (List.range size).filter fun x => modules (x, y)).length =
    darkCount size modules := by
  rw [List.length_flatMap, darkCount, Finset.card_filter, Finset.sum_product_right]
  change ∑ y ∈ range size, ((List.range size).filter fun x => modules (x, y)).length = _
  refine Finset.sum_congr rfl fun y _ => ?_
  rw [← Finset.card_filter]
  change _ = ((List.range size).filter fun x => decide (modules (x, y) = true)).length
  simp only [Bool.decide_eq_true]

theorem darkCount_le : darkCount size modules ≤ size * size := by
  have := Finset.card_filter_le (range size ×ˢ range size) fun p => modules p
  rwa [Finset.card_product, Finset.card_range] at this

/-- How far the share of `dark` of `total` modules is from one half, in steps of 5%. -/
theorem step_lt_iff {dark total k : ℕ} (htotal : 0 < total) :
    (k : ℚ) * (5 / 100) < |(dark : ℚ) / total - 1 / 2| ↔ k * total < ((dark * 20 : ℤ) - total * 10).natAbs := by
  have hpos : (0 : ℚ) < total := Nat.cast_pos.mpr htotal
  have hshare : (dark : ℚ) / total - 1 / 2 = (((dark * 20 : ℤ) - total * 10 : ℤ) : ℚ) / (20 * total) := by
    push_cast
    field_simp
    ring
  rw [hshare, abs_div, abs_of_pos (by positivity : (0 : ℚ) < 20 * total), lt_div_iff₀ (by positivity), ← Int.cast_abs,
    Int.abs_eq_natAbs, show (k : ℚ) * (5 / 100) * (20 * total) = ((k * total : ℕ) : ℚ) by push_cast; ring, Int.cast_natCast,
    Nat.cast_lt]

/-- The steps that are counted, if the number of modules is odd. -/
theorem card_steps {dark total : ℕ} (hodd : total % 2 = 1) (hle : dark ≤ total) :
    ((((dark * 20 : ℤ) - total * 10).natAbs + total - 1) / total - 1 : ℤ) =
      ((Icc 1 10).filter fun k : ℕ => (k : ℚ) * (5 / 100) < |(dark : ℚ) / total - 1 / 2|).card := by
  have htotal : 0 < total := by omega
  obtain ⟨b, hb⟩ : ∃ b, ((dark * 20 : ℤ) - total * 10).natAbs = b + 1 :=
    Nat.exists_eq_succ_of_ne_zero (by omega)
  have hbound : b < 10 * total := by omega
  have hsteps : ((Icc 1 10).filter fun k : ℕ => (k : ℚ) * (5 / 100) < |(dark : ℚ) / total - 1 / 2|) = Icc 1 (b / total) := by
    ext k
    rw [mem_filter, step_lt_iff htotal, hb, mem_Icc, mem_Icc, Nat.lt_succ_iff, ← Nat.le_div_iff_mul_le htotal]
    have hnine : b / total < 10 := (Nat.div_lt_iff_lt_mul htotal).mpr hbound
    omega
  rw [hsteps, Nat.card_Icc, hb, Nat.add_sub_cancel]
  push_cast
  rw [show (b : ℤ) + 1 + total - 1 = b + 1 * total by ring, Int.add_mul_ediv_right _ _ (by omega), add_sub_cancel_right]

/-- **The penalty is that of the standard**, for every matrix of an odd size. -/
theorem penaltyScore_eq (modules : Cell → Bool) (hsize : size % 2 = 1) :
    penaltyScore size modules = standardPenalty size modules := by
  have hodd : size * size % 2 = 1 := by
    rw [Nat.mul_mod, hsize]
  have hsteps := card_steps hodd (@darkCount_le size modules)
  rw [standardPenalty, darkShare, ← hsteps, penaltyScore]
  simp only [linePenalty_standard, darkCount_eq]
  rw [List.flatMap_def, List.sum_flatten, List.map_map, mul_comm (10 : ℤ)]
  rfl

/-- The smallest code, all dark. -/
theorem penaltyScore_dark : penaltyScore 21 (fun _ => true) = standardPenalty 21 fun _ => true :=
  penaltyScore_eq _ (by decide)

end Matrix

end AuditSphere.Qr
