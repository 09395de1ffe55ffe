import AuditSphere.Db.Schema
import Mathlib.Data.Rat.Floor
import Mathlib.Tactic.Linarith
import Mathlib.Tactic.NormNum
import Mathlib.Tactic.Ring

/-!
# Scoring of risks

`risk-scoring.ts`: the score of a risk is likelihood times impact, each from 1 to 5, and controls
lower both. Scores are rounded to two decimals, so that what the arithmetic of doubles leaves of a
decimal is gone.

The residual likelihood and impact are integers only for some likelihoods, impacts and controls
(`residualLikelihood_isInt_iff`, `residualImpact_isInt_iff`).
-/

namespace AuditSphere.Risks

/-! ### Numbers -/

/-- `scaleValue`: an integer from 1 to 5. -/
abbrev Scale := { n : ℕ // 1 ≤ n ∧ n ≤ 5 }

/-- The middle of the scale. -/
def Scale.middle : Scale := ⟨3, by decide⟩

theorem one_on_scale : 1 ≤ 1 ∧ 1 ≤ 5 := by decide

theorem five_on_scale : 1 ≤ 5 ∧ 5 ≤ 5 := by decide

/-- `round`, to two decimals. -/
def round (q : ℚ) : ℚ := ⌊q * 100 + 1 / 2⌋ / 100

/-- `clamp`. -/
def clamp (q lo hi : ℚ) : ℚ := max lo (min hi q)

/-- How fast a risk strikes. -/
inductive RiskVelocity where
  | slow | moderate | fast | immediate
  deriving DecidableEq

/-- `VELOCITY_FACTOR`. -/
def RiskVelocity.factor : RiskVelocity → ℚ
  | .slow => 85 / 100
  | .moderate => 1
  | .fast => 115 / 100
  | .immediate => 130 / 100

/-! ### Models -/

/-- What likelihood, impact and velocity count for. -/
structure ScoringWeights where
  likelihood : ℚ := 1
  impact : ℚ := 1
  velocity : ℚ := 0
  deriving DecidableEq

/-- The highest score of each rating. -/
structure Thresholds where
  low : ℚ := 5
  medium : ℚ := 10
  high : ℚ := 16
  critical : ℚ := 25
  deriving DecidableEq

/-- A property that is a number, not below a bound if there is one; undefined becomes the default. -/
def numberOr (j : Json) (key : String) (default : Option ℚ) (atLeast : Option ℚ) : Option ℚ :=
  match j.property key with
  | none => default
  | some (.num q) => if atLeast.all (· ≤ q) then some q else none
  | some _ => none

/-- The JSON document is an object. -/
def isObject : Json → Bool
  | .obj _ => true
  | _ => false

/-- `ScoringWeightsSchema.safeParse`. -/
def ScoringWeights.parse (j : Json) : Option ScoringWeights :=
  if !isObject j then none
  else do
    let likelihood ← numberOr j "likelihood" (some 1) (some 0)
    let impact ← numberOr j "impact" (some 1) (some 0)
    let velocity ← numberOr j "velocity" (some 0) (some 0)
    return { likelihood, impact, velocity }

/-- `ThresholdsSchema.safeParse`. -/
def Thresholds.parse (j : Json) : Option Thresholds :=
  if !isObject j then none
  else do
    let low ← numberOr j "LOW" none none
    let medium ← numberOr j "MEDIUM" none none
    let high ← numberOr j "HIGH" none none
    let critical ← numberOr j "CRITICAL" none none
    return { low, medium, high, critical }

/-! ### Scores -/

/-- `RiskInput`. -/
structure RiskInput where
  inherentLikelihood : Scale
  inherentImpact : Scale
  controlEffectiveness : Scale
  velocity : RiskVelocity
  appetiteThreshold : Option ℚ

/-- `RiskScoreResult`. -/
structure RiskScoreResult where
  inherentScore : ℚ
  residualLikelihood : ℚ
  residualImpact : ℚ
  residualScore : ℚ
  rating : RiskRating
  withinAppetite : Option Bool

/-- `ratingFor`. -/
def ratingFor (score : ℚ) (t : Thresholds) : RiskRating :=
  if score ≤ t.low then .low
  else if score ≤ t.medium then .medium
  else if score ≤ t.high then .high
  else .critical

/-- What controls take away, from 0 to 1. -/
def mitigation (controlEffectiveness : Scale) : ℚ := ((controlEffectiveness.val : ℚ) - 1) / 4

/-- The likelihood that is left: controls take away up to four fifths. -/
def residualLikelihood (inherent controlEffectiveness : Scale) : ℚ :=
  clamp (round (inherent.val * (1 - 8 / 10 * mitigation controlEffectiveness))) 1 5

/-- The impact that is left: controls take away up to two fifths. -/
def residualImpact (inherent controlEffectiveness : Scale) : ℚ :=
  clamp (round (inherent.val * (1 - 4 / 10 * mitigation controlEffectiveness))) 1 5

/-- `scoreRisk`. -/
def scoreRisk (input : RiskInput) (w : ScoringWeights) (t : Thresholds) : RiskScoreResult :=
  let l := residualLikelihood input.inherentLikelihood input.controlEffectiveness
  let i := residualImpact input.inherentImpact input.controlEffectiveness
  let score := round (l * w.likelihood * (i * w.impact) * (1 + (input.velocity.factor - 1) * w.velocity))
  { inherentScore := round (input.inherentLikelihood.val * w.likelihood * (input.inherentImpact.val * w.impact))
    residualLikelihood := l
    residualImpact := i
    residualScore := score
    rating := ratingFor score t
    withinAppetite := input.appetiteThreshold.map fun threshold => score ≤ threshold }

/-! ### What is left -/

/-- What has two decimals is not rounded. -/
theorem round_hundredths (n : ℤ) : round (n / 100) = n / 100 := by
  have hfloor : ⌊(n : ℚ) / 100 * 100 + 1 / 2⌋ = n := by
    rw [Int.floor_eq_iff]
    constructor <;> linarith
  rw [round, hfloor]

theorem clamp_mem (q : ℚ) : 1 ≤ clamp q 1 5 ∧ clamp q 1 5 ≤ 5 :=
  ⟨le_max_left _ _, max_le (by norm_num) (min_le_left _ _)⟩

theorem residualLikelihood_eq (l c : Scale) : residualLikelihood l c = max 1 (((l.val * (6 - c.val) : ℤ) : ℚ) / 5) := by
  have hround : (l.val : ℚ) * (1 - 8 / 10 * mitigation c) = ((20 * (l.val * (6 - c.val)) : ℤ) : ℚ) / 100 := by
    push_cast [mitigation]
    ring
  have hle : ((l.val * (6 - c.val) : ℤ) : ℚ) / 5 ≤ 5 := by
    have : (l.val : ℤ) * (6 - c.val) ≤ 25 := by
      obtain ⟨l, -, hl⟩ := l
      obtain ⟨c, hc, hc'⟩ := c
      simp only
      nlinarith
    have : ((l.val * (6 - c.val) : ℤ) : ℚ) ≤ 25 := by exact_mod_cast this
    linarith
  have hsame : ((20 * (l.val * (6 - c.val)) : ℤ) : ℚ) / 100 = ((l.val * (6 - c.val) : ℤ) : ℚ) / 5 := by
    push_cast
    ring
  rw [residualLikelihood, hround, round_hundredths, hsame, clamp, min_eq_right hle]

theorem residualImpact_eq (i c : Scale) : residualImpact i c = max 1 (((i.val * (11 - c.val) : ℤ) : ℚ) / 10) := by
  have hround : (i.val : ℚ) * (1 - 4 / 10 * mitigation c) = ((10 * (i.val * (11 - c.val)) : ℤ) : ℚ) / 100 := by
    push_cast [mitigation]
    ring
  have hle : ((i.val * (11 - c.val) : ℤ) : ℚ) / 10 ≤ 5 := by
    have : (i.val : ℤ) * (11 - c.val) ≤ 50 := by
      obtain ⟨i, -, hi⟩ := i
      obtain ⟨c, hc, hc'⟩ := c
      simp only
      nlinarith
    have : ((i.val * (11 - c.val) : ℤ) : ℚ) ≤ 50 := by exact_mod_cast this
    linarith
  have hsame : ((10 * (i.val * (11 - c.val)) : ℤ) : ℚ) / 100 = ((i.val * (11 - c.val) : ℤ) : ℚ) / 10 := by
    push_cast
    ring
  rw [residualImpact, hround, round_hundredths, hsame, clamp, min_eq_right hle]

/-- A quotient that is raised to 1 at least is an integer if it is below 1 or is one without that. -/
theorem max_div_isInt_iff (n : ℤ) {k : ℤ} (hk : 0 < k) :
    (max 1 ((n : ℚ) / k)).isInt = true ↔ n ≤ k ∨ k ∣ n := by
  have hkq : (0 : ℚ) < k := by exact_mod_cast hk
  have hisInt : ∀ q : ℚ, q.isInt = true ↔ ∃ m : ℤ, q = m := fun q =>
    ⟨fun h => ⟨q.num, (Rat.den_eq_one_iff q).mp (by simpa [Rat.isInt] using h) |>.symm⟩, by
      rintro ⟨m, rfl⟩
      rfl⟩
  by_cases hle : n ≤ k
  · have hone : (n : ℚ) / k ≤ 1 := by
      rw [div_le_one hkq]
      exact_mod_cast hle
    rw [max_eq_left hone]
    exact iff_of_true rfl (.inl hle)
  · have hone : 1 ≤ (n : ℚ) / k := by
      rw [one_le_div hkq]
      exact_mod_cast (not_le.mp hle).le
    rw [max_eq_right hone, hisInt, or_iff_right hle]
    constructor
    · rintro ⟨m, hm⟩
      rw [div_eq_iff hkq.ne'] at hm
      exact ⟨m, by rw [mul_comm]; exact_mod_cast hm⟩
    · rintro ⟨m, rfl⟩
      exact ⟨m, by push_cast; rw [mul_comm, mul_div_assoc, div_self hkq.ne', mul_one]⟩

/-- **The residual likelihood is an integer** if five divides `L(6 - C)`, or that is less than five. -/
theorem residualLikelihood_isInt_iff (l c : Scale) :
    (residualLikelihood l c).isInt = true ↔ (l.val * (6 - c.val) : ℤ) ≤ 5 ∨ (5 : ℤ) ∣ l.val * (6 - c.val) := by
  rw [residualLikelihood_eq]
  exact max_div_isInt_iff (l.val * (6 - c.val)) (k := 5) (by norm_num)

/-- **The residual impact is an integer** if ten divides `I(11 - C)`, or that is less than ten. -/
theorem residualImpact_isInt_iff (i c : Scale) :
    (residualImpact i c).isInt = true ↔ (i.val * (11 - c.val) : ℤ) ≤ 10 ∨ (10 : ℤ) ∣ i.val * (11 - c.val) := by
  rw [residualImpact_eq]
  exact max_div_isInt_iff (i.val * (11 - c.val)) (k := 10) (by norm_num)

end AuditSphere.Risks
