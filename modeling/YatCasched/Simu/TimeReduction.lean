import YatCasched.Simu.ExecutionTime
import YatCasched.Simu.HitStats

/-!
# What execution times depend on

The cache-aware execution time of a task falls with its sensitivity and with its
weights, and rises with the utilisation of the caches.  The savings are monotone level by
level, the factor for sensitive tasks is a step function that only goes up, and neither
the cap on the savings nor the cast to {lit}`long` reverses the order.

Main results:

- Theorem {lit}`totalSavings_le`: who saves more.
- Theorem {lit}`calculateExecutionTime_monotone`: whose execution time is shorter.
-/

namespace YatCasched
namespace Simu
namespace CacheAwareState

/-! ## Savings -/

/-- A level is hit more often with more weight and less utilisation. -/
theorem hitRatio_le {weight weight' utilization utilization' factor : ℚ} (hweight : 0 ≤ weight)
    (hle : weight ≤ weight') (hless : utilization' ≤ utilization) (hfactor : 0 ≤ factor)
    (hroom : utilization * factor ≤ 1) :
    hitRatio weight utilization factor ≤ hitRatio weight' utilization' factor := by
  have hused : utilization' * factor ≤ utilization * factor :=
    mul_le_mul_of_nonneg_right hless hfactor
  apply max_le_max le_rfl
  apply mul_le_mul hle _ _ (hweight.trans hle)
  · linarith
  · linarith

/-- The factor goes up at both thresholds. -/
theorem sensitivityFactor_le {sensitivity sensitivity' : ℚ} (hle : sensitivity ≤ sensitivity') :
    sensitivityFactor sensitivity ≤ sensitivityFactor sensitivity' := by
  unfold sensitivityFactor
  by_cases hhigh : sensitivity > 0.8
  · rw [if_pos hhigh, if_pos (hhigh.trans_le hle)]
  · rw [if_neg hhigh]
    by_cases hhigh' : sensitivity' > 0.8
    · rw [if_pos hhigh']
      split <;> norm_num
    · rw [if_neg hhigh']
      by_cases hmiddle : sensitivity > 0.6
      · rw [if_pos hmiddle, if_pos (hmiddle.trans_le hle)]
      · rw [if_neg hmiddle]
        split <;> norm_num

end CacheAwareState

open CacheAwareState

/-- A task whose time the caches may reduce. -/
structure Node.Reducible (node : Node) : Prop where
  time_nonneg : 0 ≤ node.expectedET.toInt
  sensitivity_nonneg : 0 ≤ node.sensitivity
  sensitivity_le_one : node.sensitivity ≤ 1
  hasWeights : node.hasWeights = true
  weight_nonneg : ∀ i, 0 ≤ node.weight i

/-- The second task is expected to take the same time, is at least as sensitive and has
at least the same weights. -/
structure Node.UsesLess (task task' : Node) : Prop where
  expectedET_eq : task'.expectedET = task.expectedET
  sensitivity_le : task.sensitivity ≤ task'.sensitivity
  weight_le : ∀ i, i < 3 → task.weight i ≤ task'.weight i

/-- No level of the second cache state is used more. -/
structure CacheState.MoreUsed (cacheState cacheState' : CacheState) : Prop where
  l1_le : cacheState'.l1Utilization ≤ cacheState.l1Utilization
  l2_le : cacheState'.l2Utilization ≤ cacheState.l2Utilization
  l3_le : cacheState'.l3Utilization ≤ cacheState.l3Utilization

namespace CacheAwareState

variable {task task' : Node} {cacheState cacheState' : CacheState}

/-- The savings of one level. -/
theorem levelSavings_le {hits hits' sensitivity sensitivity' share : ℚ} (hhits : 0 ≤ hits)
    (hle : hits ≤ hits') (hsensitivity : 0 ≤ sensitivity)
    (hmore : sensitivity ≤ sensitivity') (hshare : 0 ≤ share) :
    0 ≤ hits * sensitivity * share ∧
      hits * sensitivity * share ≤ hits' * sensitivity' * share := by
  constructor
  · positivity
  · apply mul_le_mul_of_nonneg_right _ hshare
    exact mul_le_mul hle hmore hsensitivity (hhits.trans hle)

/-- A task saves at least as much if it is more sensitive, has more weight, or the caches
are used less. -/
theorem totalSavings_le (hcache : cacheState.UtilizationBounds) (htask : task.Reducible)
    (hless : task.UsesLess task') (hmore : cacheState.MoreUsed cacheState') :
    totalSavings task cacheState ≤ totalSavings task' cacheState' := by
  have hlevel : ∀ i : Nat, i < 3 → ∀ {utilization utilization' factor share : ℚ},
      utilization' ≤ utilization → 0 ≤ factor → 0 ≤ share → utilization * factor ≤ 1 →
        0 ≤ hitRatio (task.weight i) utilization factor * task.sensitivity * share ∧
        hitRatio (task.weight i) utilization factor * task.sensitivity * share ≤
          hitRatio (task'.weight i) utilization' factor * task'.sensitivity * share := by
    intro i hi utilization utilization' factor share hused hfactor hshare hroom
    exact levelSavings_le (hitRatio_nonneg _ _ _)
      (hitRatio_le (htask.weight_nonneg i) (hless.weight_le i hi) hused hfactor hroom)
      htask.sensitivity_nonneg hless.sensitivity_le hshare
  have h1 := @hlevel 0 (by omega) _ _ 0.8 0.25 hmore.l1_le (by norm_num) (by norm_num)
    (by linarith [hcache.l1_le])
  have h2 := @hlevel 1 (by omega) _ _ 0.6 0.15 hmore.l2_le (by norm_num) (by norm_num)
    (by linarith [hcache.l2_le])
  have h3 := @hlevel 2 (by omega) _ _ 0.4 0.08 hmore.l3_le (by norm_num) (by norm_num)
    (by linarith [hcache.l3_le])
  unfold totalSavings
  apply min_le_min _ le_rfl
  apply mul_le_mul _ (sensitivityFactor_le hless.sensitivity_le)
    (sensitivityFactor_nonneg task.sensitivity)
  · linarith
  · linarith

/-- A level with some weight is hit, as long as it is not full. -/
theorem hitRatio_pos {weight utilization factor : ℚ} (hweight : 0 < weight)
    (hroom : utilization * factor < 1) : 0 < hitRatio weight utilization factor := by
  apply lt_max_of_lt_right
  apply mul_pos hweight
  linarith

/-- Any other task saves something. -/
theorem totalSavings_pos (hcache : cacheState.UtilizationBounds) (htask : task.Reducible)
    (h : ¬task.SavesNothing) : 0 < totalSavings task cacheState := by
  have hsensitivity : 0 < task.sensitivity :=
    lt_of_le_of_ne htask.sensitivity_nonneg fun hzero => h (Or.inl hzero.symm)
  have hfactor : 0 < sensitivityFactor task.sensitivity := by
    unfold sensitivityFactor
    split
    · norm_num
    · split <;> norm_num
  have hlevel : ∀ i (utilization factor share : ℚ), 0 < share → utilization * factor < 1 →
      0 ≤ hitRatio (task.weight i) utilization factor * task.sensitivity * share ∧
      (task.weight i ≠ 0 →
        0 < hitRatio (task.weight i) utilization factor * task.sensitivity * share) := by
    intro i utilization factor share hshare hroom
    constructor
    · exact mul_nonneg (mul_nonneg (hitRatio_nonneg _ _ _) hsensitivity.le) hshare.le
    · intro hweight
      have hhits := hitRatio_pos (lt_of_le_of_ne (htask.weight_nonneg i) hweight.symm) hroom
      positivity
  have h1 := hlevel 0 cacheState.l1Utilization 0.8 0.25 (by norm_num) (by linarith [hcache.l1_le])
  have h2 := hlevel 1 cacheState.l2Utilization 0.6 0.15 (by norm_num) (by linarith [hcache.l2_le])
  have h3 := hlevel 2 cacheState.l3Utilization 0.4 0.08 (by norm_num) (by linarith [hcache.l3_le])
  -- one of the levels has some weight
  have hweight : task.weight 0 ≠ 0 ∨ task.weight 1 ≠ 0 ∨ task.weight 2 ≠ 0 := by
    by_contra hnone
    simp only [not_or, not_not] at hnone
    apply h
    right
    intro i hi
    rcases (by omega : i = 0 ∨ i = 1 ∨ i = 2) with rfl | rfl | rfl
    · exact hnone.1
    · exact hnone.2.1
    · exact hnone.2.2
  unfold totalSavings
  apply lt_min _ (by norm_num)
  apply mul_pos _ hfactor
  rcases hweight with hweight | hweight | hweight
  · linarith [h1.2 hweight, h2.1, h3.1]
  · linarith [h1.1, h2.2 hweight, h3.1]
  · linarith [h1.1, h2.1, h3.2 hweight]

/-! ## Execution times -/

/-- With utilisations below their caps, the execution time of a task is between one half
of what is expected and all of it, all of it for a task that is not sensitive, and no
longer for another task that is more sensitive or has more weight, or where the caches are
used less. -/
theorem calculateExecutionTime_monotone {st : CacheAwareState} {p : ProcId}
    {cacheState : CacheState} {task : Node} (hst : st.cacheStates p = some cacheState)
    (hcache : cacheState.UtilizationBounds) (htask : task.Reducible) :
    (task.expectedET.toInt / 2 ≤ (st.calculateExecutionTime task p).toInt ∧
        (st.calculateExecutionTime task p).toInt ≤ task.expectedET.toInt) ∧
      (task.sensitivity = 0 → st.calculateExecutionTime task p = task.expectedET) ∧
      ∀ (st' : CacheAwareState) (p' : ProcId) (cacheState' : CacheState) (task' : Node),
        st'.cacheStates p' = some cacheState' → cacheState'.UtilizationBounds →
        task'.Reducible → task.UsesLess task' → cacheState.MoreUsed cacheState' →
        (st'.calculateExecutionTime task' p').toInt ≤
          (st.calculateExecutionTime task p).toInt := by
  refine ⟨calculateExecutionTime_half st p htask.time_nonneg htask.sensitivity_nonneg, ?_, ?_⟩
  · intro hsensitivity
    exact calculateExecutionTime_of_savesNothing st p htask.time_nonneg (Or.inl hsensitivity)
  · intro st' p' cacheState' task' hst' _ htask' hless hmore
    have hsavings := totalSavings_bounds htask.sensitivity_nonneg cacheState
    have hsavings' := totalSavings_bounds htask'.sensitivity_nonneg cacheState'
    rw [calculateExecutionTime_eq hst htask.hasWeights,
      calculateExecutionTime_eq hst' htask'.hasWeights, hless.expectedET_eq]
    exact adjustedTime_le htask.time_nonneg hsavings.1
      (totalSavings_le hcache htask hless hmore) hsavings'.2

/-- Exactly the tasks that save nothing keep their execution time. -/
theorem calculateExecutionTime_eq_expectedET_iff {st : CacheAwareState} {p : ProcId}
    {cacheState : CacheState} {task : Node} (hst : st.cacheStates p = some cacheState)
    (hcache : cacheState.UtilizationBounds) (htask : task.Reducible)
    (htime : 0 < task.expectedET.toInt) :
    st.calculateExecutionTime task p = task.expectedET ↔ task.SavesNothing := by
  constructor
  · intro hkept
    by_contra hsaves
    have hsavings := totalSavings_bounds htask.sensitivity_nonneg cacheState
    have hlt := adjustedTime_lt htime (totalSavings_pos hcache htask hsaves) hsavings.2
    rw [calculateExecutionTime_eq hst htask.hasWeights] at hkept
    rw [hkept] at hlt
    exact lt_irrefl _ hlt
  · exact calculateExecutionTime_of_savesNothing st p htask.time_nonneg

/-- The task of one half, twenty times as long and of any sensitivity. -/
def timedTask (sensitivity : ℚ) : Node :=
  { halfTask with expectedET := 20, sensitivity := sensitivity }

theorem timedTask_reducible {sensitivity : ℚ} (h0 : 0 ≤ sensitivity) (h1 : sensitivity ≤ 1) :
    (timedTask sensitivity).Reducible where
  time_nonneg := (by decide : 0 ≤ (20 : Int64).toInt)
  sensitivity_nonneg := h0
  sensitivity_le_one := h1
  hasWeights := rfl
  weight_nonneg i := (halfTask_weight i).1

/-- On a new processor a sensitivity of 0.7 is at least as good as one of 0.5. -/
theorem calculateExecutionTime_monotone_timedTask :
    ((resetState.initProcessor 0).calculateExecutionTime (timedTask 0.7) 0).toInt ≤
      ((resetState.initProcessor 0).calculateExecutionTime (timedTask 0.5) 0).toInt := by
  have hst : (resetState.initProcessor 0).cacheStates 0 = some .new := rfl
  have hcache := CacheState.utilizationBounds_new
  exact (calculateExecutionTime_monotone hst hcache
    (timedTask_reducible (by norm_num) (by norm_num))).2.2 _ 0 .new (timedTask 0.7) hst hcache
      (timedTask_reducible (by norm_num) (by norm_num))
      ⟨rfl, by norm_num [timedTask], fun _ _ => le_rfl⟩ ⟨le_rfl, le_rfl, le_rfl⟩

end CacheAwareState
end Simu
end YatCasched
