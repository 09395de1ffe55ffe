import AuditSphere.Risks.Scoring
import Mathlib.Tactic.GCongr
import Mathlib.Tactic.Positivity

/-!
# Scores grow with the risk

The residual score is to be non-negative, to grow with likelihood, impact and velocity, to fall with
better controls, and to decide a rating that grows with it. All of that holds as long as no score
falls below zero; the weight of the velocity has no upper bound, and with a great one the factor of
a slow risk is negative.
-/

namespace AuditSphere.Risks

/-- The order of the velocities: slow, moderate, fast, immediate. -/
def RiskVelocity.rank : RiskVelocity → ℕ
  | .slow => 0
  | .moderate => 1
  | .fast => 2
  | .immediate => 3

/-- The order of the ratings. -/
def ratingRank : RiskRating → ℕ
  | .low => 0
  | .medium => 1
  | .high => 2
  | .critical => 3

/-- What the scores of a model are to be. -/
structure SoundScores (w : ScoringWeights) (t : Thresholds) : Prop where
  nonneg : ∀ input, 0 ≤ (scoreRisk input w t).residualScore
  likelihood : ∀ input (l : Scale), input.inherentLikelihood.val ≤ l.val →
    (scoreRisk input w t).residualScore ≤ (scoreRisk { input with inherentLikelihood := l } w t).residualScore
  impact : ∀ input (i : Scale), input.inherentImpact.val ≤ i.val →
    (scoreRisk input w t).residualScore ≤ (scoreRisk { input with inherentImpact := i } w t).residualScore
  velocity : ∀ input (v : RiskVelocity), input.velocity.rank ≤ v.rank →
    (scoreRisk input w t).residualScore ≤ (scoreRisk { input with velocity := v } w t).residualScore
  controls : ∀ input (c : Scale), input.controlEffectiveness.val ≤ c.val →
    (scoreRisk { input with controlEffectiveness := c } w t).residualScore ≤ (scoreRisk input w t).residualScore
  rating : ∀ input input', (scoreRisk input w t).residualScore ≤ (scoreRisk input' w t).residualScore →
    ratingRank (scoreRisk input w t).rating ≤ ratingRank (scoreRisk input' w t).rating
  unweighted : w.velocity = 0 → ∀ input, (scoreRisk input w t).residualScore ≤ (scoreRisk input w t).inherentScore

/-! ### Rounding -/

theorem round_mono {p q : ℚ} (h : p ≤ q) : round p ≤ round q := by
  unfold round
  gcongr

theorem round_nonneg_iff (q : ℚ) : 0 ≤ round q ↔ -1 / 2 ≤ 100 * q := by
  have hfloor : (0 : ℚ) ≤ ⌊q * 100 + 1 / 2⌋ ↔ 0 ≤ q * 100 + 1 / 2 := by
    rw [← Int.cast_zero, Int.cast_le, Int.le_floor, Int.cast_zero]
  rw [round, le_div_iff₀ (by norm_num), zero_mul, hfloor]
  constructor <;> intro h <;> linarith

/-- What rounds to no less than zero and is not above it rounds to zero. -/
theorem round_eq_zero {q : ℚ} (hle : q ≤ 0) (hge : -1 / 2 ≤ 100 * q) : round q = 0 := by
  refine le_antisymm ?_ ((round_nonneg_iff q).mpr hge)
  calc
    round q ≤ round 0 := round_mono hle
    _ = 0 := by simpa using round_hundredths 0

/-! ### What is left -/

theorem clamp_mono {p q : ℚ} (h : p ≤ q) : clamp p 1 5 ≤ clamp q 1 5 :=
  max_le_max_left 1 (min_le_min_left 5 h)

theorem mitigation_mono {c c' : Scale} (h : c.val ≤ c'.val) : mitigation c ≤ mitigation c' := by
  have : (c.val : ℚ) ≤ c'.val := by exact_mod_cast h
  unfold mitigation
  gcongr

theorem mitigation_mem (c : Scale) : 0 ≤ mitigation c ∧ mitigation c ≤ 1 := by
  have hlow : (1 : ℚ) ≤ c.val := by exact_mod_cast c.property.1
  have hhigh : (c.val : ℚ) ≤ 5 := by exact_mod_cast c.property.2
  unfold mitigation
  constructor <;> linarith

/-- The part that controls leave of a likelihood or an impact. -/
theorem left_mono {k : ℚ} (hk : 0 ≤ k ∧ k ≤ 1) {n n' c c' : Scale} (hn : n.val ≤ n'.val) (hc : c'.val ≤ c.val) :
    clamp (round (n.val * (1 - k * mitigation c))) 1 5 ≤ clamp (round (n'.val * (1 - k * mitigation c'))) 1 5 := by
  have hnq : (n.val : ℚ) ≤ n'.val := by exact_mod_cast hn
  have hmitigation := mitigation_mono hc
  obtain ⟨hlow, hhigh⟩ := mitigation_mem c
  have hpart : 0 ≤ 1 - k * mitigation c := by
    nlinarith [hk.1, hk.2]
  have hparts : 1 - k * mitigation c ≤ 1 - k * mitigation c' := by
    nlinarith [hk.1]
  refine clamp_mono (round_mono ?_)
  calc
    (n.val : ℚ) * (1 - k * mitigation c) ≤ n'.val * (1 - k * mitigation c) := mul_le_mul_of_nonneg_right hnq hpart
    _ ≤ n'.val * (1 - k * mitigation c') := mul_le_mul_of_nonneg_left hparts (by positivity)

theorem residualLikelihood_mono {l l' c c' : Scale} (hl : l.val ≤ l'.val) (hc : c'.val ≤ c.val) :
    residualLikelihood l c ≤ residualLikelihood l' c' :=
  left_mono (by norm_num) hl hc

theorem residualImpact_mono {i i' c c' : Scale} (hi : i.val ≤ i'.val) (hc : c'.val ≤ c.val) :
    residualImpact i c ≤ residualImpact i' c' :=
  left_mono (by norm_num) hi hc

/-- Controls leave no more than there was. -/
theorem left_le {k : ℚ} (hk : 0 ≤ k) (n c : Scale) : clamp (round (n.val * (1 - k * mitigation c))) 1 5 ≤ n.val := by
  have hone : (1 : ℚ) ≤ n.val := by exact_mod_cast n.property.1
  obtain ⟨hlow, -⟩ := mitigation_mem c
  have hround : round (n.val * (1 - k * mitigation c)) ≤ n.val := by
    calc
      round (n.val * (1 - k * mitigation c)) ≤ round n.val := by
        refine round_mono ?_
        nlinarith [mul_nonneg hk hlow]
      _ = n.val := by
        have := round_hundredths (100 * n.val)
        push_cast at this
        rwa [mul_div_cancel_left₀ _ (by norm_num : (100 : ℚ) ≠ 0)] at this
  exact max_le hone ((min_le_right _ _).trans hround)

/-! ### Scores -/

/-- The factor of a velocity under a weight. -/
def velocityFactor (v : RiskVelocity) (weight : ℚ) : ℚ := 1 + (v.factor - 1) * weight

/-- Likelihood times impact, weighted. -/
def residualBase (input : RiskInput) (w : ScoringWeights) : ℚ :=
  residualLikelihood input.inherentLikelihood input.controlEffectiveness * w.likelihood *
    (residualImpact input.inherentImpact input.controlEffectiveness * w.impact)

theorem residualScore_eq (input : RiskInput) (w : ScoringWeights) (t : Thresholds) :
    (scoreRisk input w t).residualScore = round (residualBase input w * velocityFactor input.velocity w.velocity) := rfl

/-- A factor below zero is that of a slow risk. -/
theorem velocityFactor_neg {v : RiskVelocity} {weight : ℚ} (hweight : 0 ≤ weight) (h : velocityFactor v weight < 0) :
    v = .slow := by
  cases v with
  | slow => rfl
  | moderate => norm_num [velocityFactor, RiskVelocity.factor] at h
  | fast => norm_num [velocityFactor, RiskVelocity.factor] at h; linarith
  | immediate => norm_num [velocityFactor, RiskVelocity.factor] at h; linarith

theorem velocityFactor_mono {v v' : RiskVelocity} {weight : ℚ} (hweight : 0 ≤ weight) (h : v.rank ≤ v'.rank) :
    velocityFactor v weight ≤ velocityFactor v' weight := by
  have hfactor : v.factor ≤ v'.factor := by
    cases v <;> cases v' <;> first | (exact absurd h (by decide)) | norm_num [RiskVelocity.factor]
  unfold velocityFactor
  gcongr

section Weights

variable {w : ScoringWeights} (hl : 0 ≤ w.likelihood) (hi : 0 ≤ w.impact) (hv : 0 ≤ w.velocity)

theorem numberOr_nonneg {j : Json} {key : String} {default : ℚ} (hdefault : 0 ≤ default) {q : ℚ}
    (h : numberOr j key (some default) (some 0) = some q) : 0 ≤ q := by
  unfold numberOr at h
  split at h
  · cases h
    exact hdefault
  · split at h
    · rename_i hle
      cases h
      simpa using hle
    · cases h
  · cases h

/-- Weights that are accepted are not negative. -/
theorem ScoringWeights.parse_nonneg {j : Json} (h : ScoringWeights.parse j = some w) :
    0 ≤ w.likelihood ∧ 0 ≤ w.impact ∧ 0 ≤ w.velocity := by
  unfold ScoringWeights.parse at h
  split at h
  · cases h
  · simp only [Option.bind_eq_bind, Option.bind_eq_some_iff, Option.pure_def, Option.some.injEq] at h
    obtain ⟨likelihood, hlikelihood, impact, himpact, velocity, hvelocity, rfl⟩ := h
    exact ⟨numberOr_nonneg (by norm_num) hlikelihood, numberOr_nonneg (by norm_num) himpact,
      numberOr_nonneg (by norm_num) hvelocity⟩

include hl hi

theorem residualBase_mem (input : RiskInput) :
    0 ≤ residualBase input w ∧ residualBase input w ≤ 25 * (w.likelihood * w.impact) := by
  obtain ⟨hl₁, hl₅⟩ := clamp_mem (round (input.inherentLikelihood.val * (1 - 8 / 10 * mitigation input.controlEffectiveness)))
  obtain ⟨hi₁, hi₅⟩ := clamp_mem (round (input.inherentImpact.val * (1 - 4 / 10 * mitigation input.controlEffectiveness)))
  rw [← residualLikelihood] at hl₁ hl₅
  rw [← residualImpact] at hi₁ hi₅
  unfold residualBase
  generalize residualLikelihood input.inherentLikelihood input.controlEffectiveness = l at hl₁ hl₅
  generalize residualImpact input.inherentImpact input.controlEffectiveness = i at hi₁ hi₅
  have hprod := mul_nonneg hl hi
  constructor
  · positivity
  · calc
      l * w.likelihood * (i * w.impact) = l * i * (w.likelihood * w.impact) := by ring
      _ ≤ 5 * 5 * (w.likelihood * w.impact) := by gcongr
      _ = 25 * (w.likelihood * w.impact) := by ring

theorem residualBase_mono {input input' : RiskInput}
    (hlikelihood : residualLikelihood input.inherentLikelihood input.controlEffectiveness ≤
      residualLikelihood input'.inherentLikelihood input'.controlEffectiveness)
    (himpact : residualImpact input.inherentImpact input.controlEffectiveness ≤
      residualImpact input'.inherentImpact input'.controlEffectiveness) :
    residualBase input w ≤ residualBase input' w := by
  have h₁ := (clamp_mem (round (input.inherentImpact.val * (1 - 4 / 10 * mitigation input.controlEffectiveness)))).1
  have h₂ := (clamp_mem (round (input'.inherentLikelihood.val * (1 - 8 / 10 * mitigation input'.controlEffectiveness)))).1
  rw [← residualImpact] at h₁
  rw [← residualLikelihood] at h₂
  unfold residualBase
  gcongr

include hv

/-- **The scores of a model are sound** if no slow risk gets a score below zero. -/
theorem soundScores_of_slow {t : Thresholds} (hlow : t.low ≤ t.medium) (hmedium : t.medium ≤ t.high)
    (hslow : -1 / 2 ≤ 2500 * (w.likelihood * w.impact) * velocityFactor .slow w.velocity) : SoundScores w t := by
  -- with a negative factor every score is rounded to zero
  have hzero (input : RiskInput) (hneg : velocityFactor input.velocity w.velocity < 0) :
      (scoreRisk input w t).residualScore = 0 := by
    obtain ⟨hbase, hbase'⟩ := residualBase_mem hl hi input
    rw [residualScore_eq]
    refine round_eq_zero (mul_nonpos_of_nonneg_of_nonpos hbase hneg.le) ?_
    have heq := velocityFactor_neg hv hneg
    rw [heq] at hneg ⊢
    nlinarith [mul_le_mul_of_nonpos_right hbase' hneg.le]
  have hnonneg (input : RiskInput) : 0 ≤ (scoreRisk input w t).residualScore := by
    rcases lt_or_ge (velocityFactor input.velocity w.velocity) 0 with hneg | hpos
    · exact (hzero input hneg).ge
    · rw [residualScore_eq, round_nonneg_iff]
      have := mul_nonneg (residualBase_mem hl hi input).1 hpos
      linarith
  have hbase {input input' : RiskInput} (hvelocity : input.velocity = input'.velocity)
      (h : residualBase input w ≤ residualBase input' w) :
      (scoreRisk input w t).residualScore ≤ (scoreRisk input' w t).residualScore := by
    rcases lt_or_ge (velocityFactor input.velocity w.velocity) 0 with hneg | hpos
    · rw [hzero input hneg]
      exact hnonneg input'
    · rw [residualScore_eq, residualScore_eq, ← hvelocity]
      exact round_mono (mul_le_mul_of_nonneg_right h hpos)
  have hrating {s s' : ℚ} (h : s ≤ s') : ratingRank (ratingFor s t) ≤ ratingRank (ratingFor s' t) := by
    unfold ratingFor
    split_ifs <;> first | decide | (exfalso; linarith)
  exact {
    nonneg := hnonneg
    likelihood := fun input l h => hbase rfl (residualBase_mono hl hi (residualLikelihood_mono h le_rfl) le_rfl)
    impact := fun input i h => hbase rfl (residualBase_mono hl hi le_rfl (residualImpact_mono h le_rfl))
    velocity := fun input v h => by
      rw [residualScore_eq, residualScore_eq]
      exact round_mono (mul_le_mul_of_nonneg_left (velocityFactor_mono hv h) (residualBase_mem hl hi input).1)
    controls := fun input c h =>
      hbase rfl (residualBase_mono hl hi (residualLikelihood_mono le_rfl h) (residualImpact_mono le_rfl h))
    rating := fun input input' h => hrating h
    unweighted := fun hzero input => by
      have hlikelihood : residualLikelihood input.inherentLikelihood input.controlEffectiveness ≤
          input.inherentLikelihood.val := left_le (by norm_num) _ _
      have himpact : residualImpact input.inherentImpact input.controlEffectiveness ≤ input.inherentImpact.val :=
        left_le (by norm_num) _ _
      have hone : 0 ≤ residualImpact input.inherentImpact input.controlEffectiveness :=
        zero_le_one.trans (clamp_mem _).1
      rw [residualScore_eq, velocityFactor, hzero, mul_zero, add_zero, mul_one]
      refine round_mono ?_
      unfold residualBase
      gcongr }

end Weights

/-- The input with the greatest score of a slow risk. -/
def slowRisk : RiskInput where
  inherentLikelihood := ⟨5, five_on_scale⟩
  inherentImpact := ⟨5, five_on_scale⟩
  controlEffectiveness := ⟨1, one_on_scale⟩
  velocity := .slow
  appetiteThreshold := none

theorem residualBase_slowRisk (w : ScoringWeights) : residualBase slowRisk w = 25 * (w.likelihood * w.impact) := by
  have hlikelihood : residualLikelihood slowRisk.inherentLikelihood slowRisk.controlEffectiveness = 5 := by
    rw [residualLikelihood_eq]
    norm_num [slowRisk]
  have himpact : residualImpact slowRisk.inherentImpact slowRisk.controlEffectiveness = 5 := by
    rw [residualImpact_eq]
    norm_num [slowRisk]
  rw [residualBase, hlikelihood, himpact]
  ring

/-- **Risk scoring is sound** for accepted weights and ordered thresholds exactly if the weight of the
velocity does not take the greatest score of a slow risk below zero. -/
theorem soundScores_iff {j : Json} {w : ScoringWeights} (hw : ScoringWeights.parse j = some w) {t : Thresholds}
    (hlow : t.low ≤ t.medium) (hmedium : t.medium ≤ t.high) :
    SoundScores w t ↔ -1 / 2 ≤ 2500 * (w.likelihood * w.impact) * (1 + (85 / 100 - 1) * w.velocity) := by
  obtain ⟨hl, hi, hv⟩ := ScoringWeights.parse_nonneg hw
  constructor
  · intro h
    have hnonneg := h.nonneg slowRisk
    rw [residualScore_eq, residualBase_slowRisk, round_nonneg_iff] at hnonneg
    calc
      -1 / 2 ≤ 100 * (25 * (w.likelihood * w.impact) * velocityFactor .slow w.velocity) := hnonneg
      _ = 2500 * (w.likelihood * w.impact) * (1 + (85 / 100 - 1) * w.velocity) := by
        rw [velocityFactor, RiskVelocity.factor]
        ring
  · exact soundScores_of_slow hl hi hv hlow hmedium

/-- The default weights and thresholds are sound. -/
theorem soundScores_default : SoundScores {} {} :=
  (soundScores_iff (j := .obj []) (by rfl) (by norm_num) (by norm_num)).mpr (by norm_num)

/-- With the velocity weighted eightfold a slow risk scores below zero. -/
theorem heavyVelocity_negative :
    ScoringWeights.parse (.obj [("velocity", .num 8)]) = some { velocity := 8 } ∧
      ¬ SoundScores { velocity := 8 } {} ∧ (scoreRisk slowRisk { velocity := 8 } {}).residualScore = -5 := by
  have hscore : (scoreRisk slowRisk { velocity := 8 } {}).residualScore = -5 := by
    rw [residualScore_eq, residualBase_slowRisk]
    have hrounded := round_hundredths (-500)
    norm_num [velocityFactor, RiskVelocity.factor, slowRisk] at hrounded ⊢
    exact hrounded
  refine ⟨by decide +kernel, fun h => ?_, hscore⟩
  have hnonneg := h.nonneg slowRisk
  rw [hscore] at hnonneg
  norm_num at hnonneg

end AuditSphere.Risks
