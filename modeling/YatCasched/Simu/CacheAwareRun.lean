import YatCasched.Simu.Analysis
import YatCasched.Simu.HitAgreement

/-!
# The cache-aware run of a test case

A test case starts the cache-aware allocator from its reset state.  Every task it
simulates keeps its sensitivity and its weights and at least one half of its execution
time, and hits the caches with at least one tenth of its accesses, so the analyzer always
finds a measured hit ratio.

Main results:

- Theorem {lit}`cached_accountedTask`: what a round does to a task.
- Theorem {lit}`simulate_cached`: what a run does to its tasks.
- Theorem {lit}`Accounted.cacheHitRatio_eq`: the analyzer never has to estimate.
-/

namespace YatCasched
namespace Simu

open CacheAwareState Ratio

/-! ## One round -/

/-- The task as a round leaves it. -/
structure Cached (task task' : Node) : Prop where
  needs : SameNeeds task task'
  half : task.expectedET.toInt / 2 ≤ task'.expectedET.toInt
  time_le : task'.expectedET.toInt ≤ task.expectedET.toInt
  own_ge : 0.1 ≤ task'.ownHitRatio
  own_le : task'.ownHitRatio ≤ 1

/-- What a task enters at one level, with the hits that are left when the level is in
use. -/
theorem levelShare {weight sensitivity utilization factor : ℚ} (hweight : 0 ≤ weight)
    (hweight' : weight ≤ 1) (hsensitivity : 0 ≤ sensitivity) (hsensitivity' : sensitivity ≤ 1)
    (hutilization : 0 ≤ utilization * factor) (hleft : utilization * factor ≤ 0.8) :
    0.1 * (weight + weight * sensitivity) ≤
        hitRatio weight utilization factor +
          weight * sensitivity * hitRatio weight utilization factor ∧
      hitRatio weight utilization factor +
          weight * sensitivity * hitRatio weight utilization factor ≤
        weight + weight * sensitivity := by
  have hle : utilization * factor ≤ 1 := hleft.trans (by norm_num)
  have hunit := hitRatio_unit hweight hweight' hutilization hle
  have haccesses : 0 ≤ weight * sensitivity := mul_nonneg hweight hsensitivity
  have haccesses' : weight * sensitivity ≤ weight := mul_le_of_le_one_right hweight hsensitivity'
  have hhits : 0.2 * weight ≤ hitRatio weight utilization factor := by
    rw [hitRatio_eq hweight hutilization hle, mul_comm]
    apply mul_le_mul_of_nonneg_left _ hweight
    linarith
  have hhits' : hitRatio weight utilization factor ≤ weight := by
    rw [hitRatio_eq hweight hutilization hle]
    exact (levelHits_bounds hweight hutilization hle).2
  constructor
  · have hmore : 0 ≤ weight * sensitivity * hitRatio weight utilization factor :=
      mul_nonneg haccesses hunit.1
    linarith
  · exact add_le_add hhits' (mul_le_of_le_one_right haccesses hunit.2)

variable {st : CacheAwareState} {node : Node} {p : ProcId} {tasks tasks' done : List Node}

/-- What a round does to a task. -/
theorem cached_accountedTask (hnode : node.UsesCache)
    (hcache : (st.cacheState p).UtilizationBounds) (busy : ProcId → Int64) :
    Cached node (accountedTask busy st node p) := by
  rcases hcache with ⟨h1, h1', h2, h2', h3, h3'⟩
  have hlevel := fun i => @levelShare (node.weight i) node.sensitivity
  have hs := hnode.sensitivity_nonneg
  have hs' := hnode.sensitivity_le_one
  have l1 := hlevel 0 (hnode.weight_nonneg 0) (hnode.weight_le_one 0) hs hs'
    (by linarith : 0 ≤ (st.cacheState p).l1Utilization * 0.8) (by linarith)
  have l2 := hlevel 1 (hnode.weight_nonneg 1) (hnode.weight_le_one 1) hs hs'
    (by linarith : 0 ≤ (st.cacheState p).l2Utilization * 0.6) (by linarith)
  have l3 := hlevel 2 (hnode.weight_nonneg 2) (hnode.weight_le_one 2) hs hs'
    (by linarith : 0 ≤ (st.cacheState p).l3Utilization * 0.4) (by linarith)
  have htime : (accountedTask busy st node p).expectedET = st.calculateExecutionTime
      (markedNode node (st.hitStats p) (st.cacheState p)) p := rfl
  have hhalf := @calculateExecutionTime_half st (markedNode node (st.hitStats p) (st.cacheState p))
    p hnode.toInt_nonneg hs
  have haccesses : (accountedTask busy st node p).ownAccesses = node.ownAccesses := rfl
  have hpos : 0 < node.ownAccesses := by
    rw [Node.ownAccesses_eq]
    exact mul_pos (by linarith) hnode.levelWeight_pos
  have hbounds : 0.1 ≤ (accountedTask busy st node p).ownHitRatio ∧
      (accountedTask busy st node p).ownHitRatio ≤ 1 := by
    unfold Node.ownHitRatio
    rw [haccesses]
    apply ratio_bounds hpos
    · unfold Node.ownAccesses Node.levelWeight
      exact le_trans (by linarith) (add_le_add (add_le_add l1.1 l2.1) l3.1)
    · unfold Node.ownAccesses Node.levelWeight
      exact (add_le_add (add_le_add l1.2 l2.2) l3.2).trans (by linarith)
  refine ⟨⟨rfl, rfl⟩, ?_, ?_, hbounds.1, hbounds.2⟩
  · rw [htime]
    exact hhalf.1
  · rw [htime]
    exact hhalf.2

/-! ## The run -/

/-- What a run does to its tasks. -/
theorem simulate_cached {P : Nat} (hP : 1 ≤ P) (hint : P < 2 ^ 31)
    (htasks : ∀ task ∈ tasks, task.UsesCache) (hlength : tasks.length < 2 ^ 31) :
    ∃ st tasks', simulateCacheAwareAllocation tasks (generateProcessorList P) resetState =
        .ok (st, tasks') ∧ Accounted P st tasks' ∧ List.Forall₂ Cached tasks tasks' := by
  rcases simulate_accounted hP hint htasks hlength with ⟨st, tasks', hrun, haccounted⟩
  rcases cacheAwareRun_forall₂ hP (fun task htask => (htasks task htask).toProper) hlength
    (fun task htask st log busy p hledger _ =>
      cached_accountedTask (htasks task htask) (hledger.utilization p) busy) with
        ⟨st', tasks'', hsame, hcached⟩
  have hend : (st, tasks') = (st', tasks'') := Except.ok.inj (hrun.symm.trans hsame)
  refine ⟨st, tasks', hrun, haccounted, ?_⟩
  rw [(Prod.mk.inj hend).2]
  exact hcached

/-- The analyzer never has to estimate the hit ratio of a run. -/
theorem Accounted.cacheHitRatio_eq {P : Nat} (h : Accounted P st done) (hne : done ≠ [])
    (hown : ∀ task ∈ done, 0.1 ≤ task.ownHitRatio ∧ task.ownHitRatio ≤ 1) :
    calculateCacheHitRatio done "CacheAware_v2" = calculateCacheHitRatioFromTasks done ∧
      0.1 ≤ calculateCacheHitRatioFromTasks done ∧ calculateCacheHitRatioFromTasks done ≤ 1 := by
  rcases h.reachable.exists_keys with ⟨keys, hkeys⟩
  have hbounds := (h.ratios_bounds hkeys hne hown).2
  have hpos : calculateCacheHitRatioFromTasks done > 0 := lt_of_lt_of_le (by norm_num) hbounds.1
  refine ⟨?_, hbounds⟩
  unfold calculateCacheHitRatio
  rw [if_pos (by decide)]
  exact if_pos hpos

end Simu
end YatCasched
