import Mathlib.Algebra.Order.AbsoluteValue.Basic
import Mathlib.Tactic.Linarith
import Mathlib.Tactic.NormNum
import Mathlib.Tactic.Positivity
import Mathlib.Tactic.Ring
import YatCasched.Simu.CacheAware

/-!
# Bounds on scores

With utilisations below their caps and a mean sensitivity between 0 and 1, every
part of the score of a proper task is bounded, and the whole is positive: the
quality is worth at least 0.027, the interference costs at most 0.0225, and the
load term is positive.

Main results:

- Theorem {lit}`CacheState.UtilizationBounds.afterTask`: the caps are kept.
- Theorem {lit}`doubleMinValue_lt_score`: every score beats the sentinel.
-/

namespace YatCasched
namespace Simu

/-! ## Cache states -/

/-- The utilisations are between zero and their caps. -/
structure CacheState.UtilizationBounds (cacheState : CacheState) : Prop where
  l1_nonneg : 0 ≤ cacheState.l1Utilization
  l1_le : cacheState.l1Utilization ≤ 0.9
  l2_nonneg : 0 ≤ cacheState.l2Utilization
  l2_le : cacheState.l2Utilization ≤ 0.8
  l3_nonneg : 0 ≤ cacheState.l3Utilization
  l3_le : cacheState.l3Utilization ≤ 0.7

/-- The mean sensitivity is between 0 and 1. -/
structure CacheState.MeanBounds (cacheState : CacheState) : Prop where
  nonneg : 0 ≤ cacheState.avgTaskSensitivity
  le_one : cacheState.avgTaskSensitivity ≤ 1

theorem CacheState.utilizationBounds_new : CacheState.UtilizationBounds .new := by
  constructor <;> norm_num [CacheState.new]

/-- A utilisation grows up to its cap and decays. -/
theorem cappedUtilization_bounds {cap utilization increment factor : ℚ} (hcap : 0 ≤ cap)
    (hutilization : 0 ≤ utilization) (hincrement : 0 ≤ increment) (hfactor : 0 ≤ factor)
    (hfactor' : factor ≤ 1) :
    0 ≤ min cap (utilization + increment) * factor ∧
      min cap (utilization + increment) * factor ≤ cap := by
  have hmin : 0 ≤ min cap (utilization + increment) := by
    apply le_min hcap
    linarith
  constructor
  · exact mul_nonneg hmin hfactor
  · calc
      min cap (utilization + increment) * factor ≤ min cap (utilization + increment) :=
        mul_le_of_le_one_right hmin hfactor'
      _ ≤ cap := min_le_left _ _

/-- The caps are kept by a task. -/
theorem CacheState.UtilizationBounds.afterTask {cacheState : CacheState} {task : Node}
    (h : cacheState.UtilizationBounds) (htask : task.Proper) :
    (cacheState.afterTask task).UtilizationBounds := by
  have hincrement : ∀ i (share : ℚ), 0 ≤ share →
      0 ≤ task.sensitivity * 0.05 * task.weight i * share := by
    intro i share hshare
    have hsensitivity := htask.sensitivity_nonneg
    have hweight := htask.weight_nonneg i
    positivity
  have hfactor : ∀ b : Prop, [Decidable b] → (0 : ℚ) ≤ (if b then 0.95 else 1) ∧
      (if b then 0.95 else 1) ≤ (1 : ℚ) := by
    intro b _
    split
    · norm_num
    · norm_num
  have hl1 := cappedUtilization_bounds (by norm_num : (0 : ℚ) ≤ 0.9) h.l1_nonneg
    (hincrement 0 0.8 (by norm_num)) (hfactor (cacheState.recentTaskCount > 5)).1
    (hfactor (cacheState.recentTaskCount > 5)).2
  have hl2 := cappedUtilization_bounds (by norm_num : (0 : ℚ) ≤ 0.8) h.l2_nonneg
    (hincrement 1 0.6 (by norm_num)) (hfactor (cacheState.recentTaskCount > 5)).1
    (hfactor (cacheState.recentTaskCount > 5)).2
  have hl3 := cappedUtilization_bounds (by norm_num : (0 : ℚ) ≤ 0.7) h.l3_nonneg
    (hincrement 2 0.4 (by norm_num)) (hfactor (cacheState.recentTaskCount > 5)).1
    (hfactor (cacheState.recentTaskCount > 5)).2
  unfold CacheState.afterTask
  rw [if_pos htask.hasWeights]
  exact ⟨hl1.1, hl1.2, hl2.1, hl2.2, hl3.1, hl3.2⟩

/-! ## The parts of the score -/

variable {node : Node} {cacheState : CacheState}

/-- One level's benefit is not negative. -/
theorem levelBenefit_nonneg {weight sensitivity share utilization factor : ℚ}
    (hweight : 0 ≤ weight) (hsensitivity : 0 ≤ sensitivity) (hshare : 0 ≤ share)
    (hle : utilization * factor ≤ 1) :
    0 ≤ weight * sensitivity * share * (1 - utilization * factor) := by
  have hrest : 0 ≤ 1 - utilization * factor := by
    linarith
  positivity

theorem calculateCacheBenefitScore_nonneg (hnode : node.Proper)
    (h : cacheState.UtilizationBounds) : 0 ≤ calculateCacheBenefitScore node cacheState := by
  unfold calculateCacheBenefitScore
  rw [hnode.hasWeights, if_neg (by decide)]
  dsimp only
  have hl1 := levelBenefit_nonneg (hnode.weight_nonneg 0) hnode.sensitivity_nonneg
    (by norm_num : (0 : ℚ) ≤ 0.6) (by linarith [h.l1_le] : cacheState.l1Utilization * 0.7 ≤ 1)
  have hl2 := levelBenefit_nonneg (hnode.weight_nonneg 1) hnode.sensitivity_nonneg
    (by norm_num : (0 : ℚ) ≤ 0.4) (by linarith [h.l2_le] : cacheState.l2Utilization * 0.5 ≤ 1)
  have hl3 := levelBenefit_nonneg (hnode.weight_nonneg 2) hnode.sensitivity_nonneg
    (by norm_num : (0 : ℚ) ≤ 0.3) (by linarith [h.l3_le] : cacheState.l3Utilization * 0.3 ≤ 1)
  apply mul_nonneg
  · linarith
  · split
    · norm_num
    · split
      · norm_num
      · norm_num

theorem calculateLoadBalanceScore_pos {load time : ℚ} (hload : 0 ≤ load) (htime : 0 < time) :
    0 < calculateLoadBalanceScore load time := by
  unfold calculateLoadBalanceScore
  have hratio : load / (load + time) < 1 := by
    rw [div_lt_one (by linarith)]
    linarith
  linarith

theorem calculateCacheAffinityScore_nonneg (hnonneg : 0 ≤ node.sensitivity)
    (hle : node.sensitivity ≤ 1) (p : ProcId) (h : cacheState.MeanBounds) :
    0 ≤ calculateCacheAffinityScore node p cacheState := by
  unfold calculateCacheAffinityScore
  dsimp only
  apply le_min
  · apply add_nonneg
    · split
      · split
        · have hdifference : |node.sensitivity - cacheState.avgTaskSensitivity| ≤ 1 := by
            rw [abs_le]
            constructor
            · linarith [h.le_one]
            · linarith [h.nonneg]
          apply mul_nonneg
          · linarith
          · norm_num
        · norm_num
      · exact le_rfl
    · split
      · exact le_max_left _ _
      · norm_num
  · norm_num

/-- A utilisation is worth at least what the farther end of its range is. -/
theorem levelQuality_ge {utilization optimal cap : ℚ} (hnonneg : 0 ≤ utilization)
    (hle : utilization ≤ cap) (hoptimal : cap ≤ 2 * optimal) :
    1 - optimal ≤ 1 - |utilization - optimal| := by
  have habs : |utilization - optimal| ≤ optimal := by
    rw [abs_le]
    constructor
    · linarith
    · linarith
  linarith

theorem calculateCacheQualityScore_ge (h : cacheState.UtilizationBounds) :
    0.27 ≤ calculateCacheQualityScore cacheState := by
  have hl1 := levelQuality_ge h.l1_nonneg h.l1_le (by norm_num : (0.9 : ℚ) ≤ 2 * 0.6)
  have hl2 := levelQuality_ge h.l2_nonneg h.l2_le (by norm_num : (0.8 : ℚ) ≤ 2 * 0.5)
  have hl3 := levelQuality_ge h.l3_nonneg h.l3_le (by norm_num : (0.7 : ℚ) ≤ 2 * 0.4)
  unfold calculateCacheQualityScore
  dsimp only
  apply le_max_of_le_right
  apply le_min
  · split
    · linarith
    · split
      · linarith
      · linarith
  · norm_num

theorem calculateCacheInterferenceScore_le (hnonneg : 0 ≤ node.sensitivity)
    (hle : node.sensitivity ≤ 1) (h : cacheState.MeanBounds) :
    calculateCacheInterferenceScore node cacheState ≤ 0.45 := by
  unfold calculateCacheInterferenceScore
  dsimp only
  have hcount : min ((cacheState.recentTaskCount.toInt : ℚ) * 0.05) 0.3 ≤ 0.3 :=
    min_le_right _ _
  have hdifference : |node.sensitivity - cacheState.avgTaskSensitivity| ≤ 1 := by
    rw [abs_le]
    constructor
    · linarith [h.le_one]
    · linarith [h.nonneg]
  linarith

/-! ## Bounds from above -/

/-- A task of no sensitivity has no use for a cache. -/
theorem calculateCacheBenefitScore_eq_zero (hweights : node.hasWeights = true)
    (hsensitivity : node.sensitivity = 0) : calculateCacheBenefitScore node cacheState = 0 := by
  unfold calculateCacheBenefitScore
  rw [hweights, hsensitivity, if_neg (by decide)]
  dsimp only
  ring

theorem calculateLoadBalanceScore_le_one {load time : ℚ} (hload : 0 ≤ load) (htime : 0 ≤ time) :
    calculateLoadBalanceScore load time ≤ 1 := by
  unfold calculateLoadBalanceScore
  have hratio : 0 ≤ load / (load + time) := div_nonneg hload (add_nonneg hload htime)
  linarith

theorem calculateCacheAffinityScore_le_one (node : Node) (p : ProcId)
    (cacheState : CacheState) : calculateCacheAffinityScore node p cacheState ≤ 1 := by
  unfold calculateCacheAffinityScore
  exact min_le_right _ _

theorem calculateCacheQualityScore_le_one (cacheState : CacheState) :
    calculateCacheQualityScore cacheState ≤ 1 := by
  unfold calculateCacheQualityScore
  apply max_le zero_le_one
  exact min_le_right _ _

/-! ## The whole score -/

/-- The score is above the margin between the least quality and the greatest
interference. -/
theorem cacheAwareScore_gt (hnode : node.Proper) (p : ProcId)
    (hutilization : cacheState.UtilizationBounds) (hmean : cacheState.MeanBounds) {load : ℚ}
    (hload : 0 ≤ load) : 0.0045 < cacheAwareScore node p cacheState load := by
  have htime : 0 < node.time := by
    linarith [hnode.time_ge_one]
  unfold cacheAwareScore
  dsimp only
  linarith [calculateCacheBenefitScore_nonneg hnode hutilization,
    calculateLoadBalanceScore_pos hload htime,
    calculateCacheAffinityScore_nonneg hnode.sensitivity_nonneg hnode.sensitivity_le_one p hmean,
    calculateCacheQualityScore_ge hutilization,
    calculateCacheInterferenceScore_le hnode.sensitivity_nonneg hnode.sensitivity_le_one hmean]

theorem doubleMinValue_pos : 0 < doubleMinValue := by
  unfold doubleMinValue
  positivity

theorem doubleMinValue_lt : doubleMinValue < 0.0045 := by
  unfold doubleMinValue
  calc
    (1 : ℚ) / 2 ^ 1074 ≤ 1 / 2 ^ 10 := by
      apply one_div_le_one_div_of_le
      · positivity
      · exact pow_le_pow_right₀ (by norm_num) (by norm_num)
    _ < 0.0045 := by norm_num

/-- Every score beats the sentinel. -/
theorem doubleMinValue_lt_score (hnode : node.Proper) (p : ProcId)
    (hutilization : cacheState.UtilizationBounds) (hmean : cacheState.MeanBounds) {load : ℚ}
    (hload : 0 ≤ load) : doubleMinValue < cacheAwareScore node p cacheState load :=
  doubleMinValue_lt.trans (cacheAwareScore_gt hnode p hutilization hmean hload)

end Simu
end YatCasched
