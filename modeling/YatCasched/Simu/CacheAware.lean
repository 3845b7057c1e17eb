import Mathlib.Algebra.Order.Field.Rat
import Mathlib.Logic.Function.Basic
import YatCasched.Simu.Node

/-!
# The cache-aware allocator

{lit}`CacheAware_v2`: scores, the choice of a processor, the state it keeps for
each processor, and execution times.  The static maps are functions to optional
values; the counters are {lit}`int`s and wrap.

A division by zero is 0 here.  The scores divide by zero only for tasks without
execution time on a processor without load, and the means only after a counter
has wrapped all the way to -1.
-/

namespace YatCasched
namespace Simu

/-! ## State -/

/-- {lit}`CacheState`. -/
structure CacheState where
  l1Utilization : ℚ
  l2Utilization : ℚ
  l3Utilization : ℚ
  recentTaskCount : Int32
  avgTaskSensitivity : ℚ

/-- {lit}`new CacheState()`. -/
def CacheState.new : CacheState where
  l1Utilization := 0
  l2Utilization := 0
  l3Utilization := 0
  recentTaskCount := 0
  avgTaskSensitivity := 0

/-- {lit}`CacheHitStats`. -/
structure CacheHitStats where
  totalL1Accesses : ℚ
  totalL2Accesses : ℚ
  totalL3Accesses : ℚ
  totalL1Hits : ℚ
  totalL2Hits : ℚ
  totalL3Hits : ℚ
  totalTasks : Int32

/-- {lit}`new CacheHitStats()`. -/
def CacheHitStats.new : CacheHitStats where
  totalL1Accesses := 0
  totalL2Accesses := 0
  totalL3Accesses := 0
  totalL1Hits := 0
  totalL2Hits := 0
  totalL3Hits := 0
  totalTasks := 0

/-- The static maps.  The first three get their keys together. -/
structure CacheAwareState where
  processorLoads : ProcId → Option ℚ
  cacheStates : ProcId → Option CacheState
  taskCount : ProcId → Option Int32
  cacheHitStats : ProcId → Option CacheHitStats

namespace CacheAwareState

/-- {lit}`resetState`. -/
def resetState : CacheAwareState where
  processorLoads := fun _ => none
  cacheStates := fun _ => none
  taskCount := fun _ => none
  cacheHitStats := fun _ => none

/-- {lit}`processorLoads.getOrDefault(p, 0.0)`. -/
def load (st : CacheAwareState) (p : ProcId) : ℚ :=
  (st.processorLoads p).getD 0

/-- The cache state of a processor; a processor that was never looked at has a
new one. -/
def cacheState (st : CacheAwareState) (p : ProcId) : CacheState :=
  (st.cacheStates p).getD .new

/-- The task count of a processor. -/
def count (st : CacheAwareState) (p : ProcId) : Int32 :=
  (st.taskCount p).getD 0

/-- The hit statistics of a processor. -/
def hitStats (st : CacheAwareState) (p : ProcId) : CacheHitStats :=
  (st.cacheHitStats p).getD .new

end CacheAwareState

/-! ## Scores -/

/-- {lit}`Double.MIN_VALUE`, the least positive {lit}`double`. -/
def doubleMinValue : ℚ :=
  1 / 2 ^ 1074

/-- {lit}`SystemParameters.Level2CoreNum`. -/
def level2CoreNum : Int32 := 2

/-- {lit}`Math.abs` on {lit}`int`: the least one is its own absolute value. -/
def absInt (x : Int32) : Int32 :=
  if x < 0 then -x else x

/-- {lit}`calculateCacheBenefitScore`. -/
def calculateCacheBenefitScore (node : Node) (cacheState : CacheState) : ℚ :=
  if !node.hasWeights then
    0.5
  else
    let l1Benefit := node.weight 0 * node.sensitivity * 0.6
    let l2Benefit := node.weight 1 * node.sensitivity * 0.4
    let l3Benefit := node.weight 2 * node.sensitivity * 0.3
    let l1UtilizationPenalty := cacheState.l1Utilization * 0.7
    let l2UtilizationPenalty := cacheState.l2Utilization * 0.5
    let l3UtilizationPenalty := cacheState.l3Utilization * 0.3
    let adjustedL1Benefit := l1Benefit * (1 - l1UtilizationPenalty)
    let adjustedL2Benefit := l2Benefit * (1 - l2UtilizationPenalty)
    let adjustedL3Benefit := l3Benefit * (1 - l3UtilizationPenalty)
    let sensitivityBonus : ℚ :=
      if node.sensitivity > 0.8 then 0.15 else if node.sensitivity > 0.6 then 0.08 else 0
    (adjustedL1Benefit + adjustedL2Benefit + adjustedL3Benefit) * (1 + sensitivityBonus)

/-- {lit}`calculateCacheAffinityScore`. -/
def calculateCacheAffinityScore (node : Node) (processorId : ProcId)
    (cacheState : CacheState) : ℚ :=
  let shared : ℚ :=
    if level2CoreNum > 0 then
      if cacheState.avgTaskSensitivity > 0 then
        (1 - |node.sensitivity - cacheState.avgTaskSensitivity|) * 0.3
      else
        0.5
    else
      0
  let own : ℚ :=
    if node.affinity ≠ -1 then
      let distance := absInt (node.affinity - Int32.ofNat processorId)
      max 0 (1 - distance.toInt * 0.1)
    else
      0.5
  min (shared + own) 1

/-- {lit}`calculateCacheQualityScore`. -/
def calculateCacheQualityScore (cacheState : CacheState) : ℚ :=
  let l1Quality := 1 - |cacheState.l1Utilization - 0.6|
  let l2Quality := 1 - |cacheState.l2Utilization - 0.5|
  let l3Quality := 1 - |cacheState.l3Utilization - 0.4|
  let score := l1Quality * 0.5 + l2Quality * 0.3 + l3Quality * 0.2
  let score :=
    if cacheState.recentTaskCount < 3 then score + 0.3
    else if cacheState.recentTaskCount > 8 then score - 0.2
    else score
  max 0 (min score 1)

/-- {lit}`calculateCacheInterferenceScore`. -/
def calculateCacheInterferenceScore (node : Node) (cacheState : CacheState) : ℚ :=
  let taskCountPenalty : ℚ := min (cacheState.recentTaskCount.toInt * 0.05) 0.3
  let sensitivityDifference := |node.sensitivity - cacheState.avgTaskSensitivity|
  let sensitivityPenalty := sensitivityDifference * 0.15
  taskCountPenalty + sensitivityPenalty

/-- {lit}`calculateLoadBalanceScore`. -/
def calculateLoadBalanceScore (currentLoad taskET : ℚ) : ℚ :=
  let loadRatio := currentLoad / (currentLoad + taskET)
  1 - loadRatio

/-- The weighted sum of {lit}`calculateCacheAwareScore`. -/
def cacheAwareScore (node : Node) (processorId : ProcId) (cacheState : CacheState)
    (currentLoad : ℚ) : ℚ :=
  let cacheScore := calculateCacheBenefitScore node cacheState * 0.4
  let loadScore := calculateLoadBalanceScore currentLoad node.time * 0.3
  let affinityScore := calculateCacheAffinityScore node processorId cacheState * 0.2
  let cacheQualityScore := calculateCacheQualityScore cacheState * 0.1
  let interferenceScore := calculateCacheInterferenceScore node cacheState * 0.05
  cacheScore + loadScore + affinityScore + cacheQualityScore - interferenceScore

namespace CacheAwareState

/-- The entries {lit}`calculateCacheAwareScore` makes for a processor it sees for
the first time. -/
def initProcessor (st : CacheAwareState) (p : ProcId) : CacheAwareState :=
  if (st.cacheStates p).isNone then
    { st with
      cacheStates := Function.update st.cacheStates p (some .new)
      processorLoads := Function.update st.processorLoads p (some 0)
      taskCount := Function.update st.taskCount p (some 0) }
  else
    st

/-- {lit}`calculateCacheAwareScore`. -/
def calculateCacheAwareScore (st : CacheAwareState) (node : Node) (p : ProcId) :
    CacheAwareState × ℚ :=
  let st := st.initProcessor p
  (st, cacheAwareScore node p (st.cacheState p) (st.load p))

end CacheAwareState

/-! ## Updates -/

/-- The cache state {lit}`updateProcessorState` leaves. -/
def CacheState.afterTask (cacheState : CacheState) (task : Node) : CacheState :=
  let cacheState :=
    if task.hasWeights then
      let utilizationIncrement := task.sensitivity * 0.05
      let l1 := min 0.9 (cacheState.l1Utilization + utilizationIncrement * task.weight 0 * 0.8)
      let l2 := min 0.8 (cacheState.l2Utilization + utilizationIncrement * task.weight 1 * 0.6)
      let l3 := min 0.7 (cacheState.l3Utilization + utilizationIncrement * task.weight 2 * 0.4)
      let decayFactor : ℚ := if cacheState.recentTaskCount > 5 then 0.95 else 1
      { cacheState with
        l1Utilization := l1 * decayFactor
        l2Utilization := l2 * decayFactor
        l3Utilization := l3 * decayFactor }
    else
      cacheState
  { cacheState with
    avgTaskSensitivity :=
      (cacheState.avgTaskSensitivity * cacheState.recentTaskCount.toInt + task.sensitivity) /
        (cacheState.recentTaskCount + 1).toInt
    recentTaskCount := cacheState.recentTaskCount + 1 }

@[simp]
theorem CacheState.afterTask_recentTaskCount (cacheState : CacheState) (task : Node) :
    (cacheState.afterTask task).recentTaskCount = cacheState.recentTaskCount + 1 := by
  unfold CacheState.afterTask
  dsimp only
  split
  · rfl
  · rfl

theorem CacheState.afterTask_avgTaskSensitivity (cacheState : CacheState) (task : Node) :
    (cacheState.afterTask task).avgTaskSensitivity =
      (cacheState.avgTaskSensitivity * cacheState.recentTaskCount.toInt + task.sensitivity) /
        (cacheState.recentTaskCount + 1).toInt := by
  unfold CacheState.afterTask
  dsimp only
  split
  · rfl
  · rfl

/-- The statistics {lit}`updateCacheHitStats` leaves. -/
def CacheHitStats.afterUpdate (stats : CacheHitStats) (task : Node) (cacheState : CacheState) :
    CacheHitStats :=
  let l1EstimatedHits := task.weight 0 * (1 - cacheState.l1Utilization * 0.8)
  let l2EstimatedHits := task.weight 1 * (1 - cacheState.l2Utilization * 0.6)
  let l3EstimatedHits := task.weight 2 * (1 - cacheState.l3Utilization * 0.4)
  { totalL1Accesses := stats.totalL1Accesses + task.weight 0
    totalL2Accesses := stats.totalL2Accesses + task.weight 1
    totalL3Accesses := stats.totalL3Accesses + task.weight 2
    totalL1Hits := stats.totalL1Hits + l1EstimatedHits
    totalL2Hits := stats.totalL2Hits + l2EstimatedHits
    totalL3Hits := stats.totalL3Hits + l3EstimatedHits
    totalTasks := stats.totalTasks + 1 }

/-- The hit ratio of a task at one cache level. -/
def hitRatio (weight utilization factor : ℚ) : ℚ :=
  max 0 (weight * (1 - utilization * factor))

/-- The statistics {lit}`recordTaskCacheHitRatio` leaves. -/
def CacheHitStats.afterRecord (stats : CacheHitStats) (task : Node) (cacheState : CacheState) :
    CacheHitStats :=
  let l1Access := task.weight 0 * task.sensitivity
  let l2Access := task.weight 1 * task.sensitivity
  let l3Access := task.weight 2 * task.sensitivity
  { totalL1Accesses := stats.totalL1Accesses + l1Access
    totalL2Accesses := stats.totalL2Accesses + l2Access
    totalL3Accesses := stats.totalL3Accesses + l3Access
    totalL1Hits := stats.totalL1Hits +
      l1Access * hitRatio (task.weight 0) cacheState.l1Utilization 0.8
    totalL2Hits := stats.totalL2Hits +
      l2Access * hitRatio (task.weight 1) cacheState.l2Utilization 0.6
    totalL3Hits := stats.totalL3Hits +
      l3Access * hitRatio (task.weight 2) cacheState.l3Utilization 0.4
    totalTasks := stats.totalTasks + 1 }

namespace CacheAwareState

/-- {lit}`updateCacheHitStats`: reads three weights without a check. -/
def updateCacheHitStats (st : CacheAwareState) (task : Node) (p : ProcId) :
    Except JavaException CacheAwareState :=
  match task.weights with
  | none => .error .nullPointer
  | some weights =>
      if weights.length < 3 then
        .error .arrayIndexOutOfBounds
      else
        .ok { st with
          cacheHitStats := Function.update st.cacheHitStats p
            (some ((st.hitStats p).afterUpdate task (st.cacheState p))) }

/-- {lit}`updateProcessorState`. -/
def updateProcessorState (st : CacheAwareState) (p : ProcId) (task : Node) :
    Except JavaException CacheAwareState :=
  { st with
    processorLoads := Function.update st.processorLoads p (some (st.load p + task.time))
    taskCount := Function.update st.taskCount p (some (st.count p + 1))
    cacheStates := Function.update st.cacheStates p
      (some ((st.cacheState p).afterTask task)) }.updateCacheHitStats task p

/-- {lit}`recordTaskCacheHitRatio`. -/
def recordTaskCacheHitRatio (st : CacheAwareState) (p : ProcId) (task : Node) :
    CacheAwareState × Node :=
  let stats := st.hitStats p
  let st := { st with cacheHitStats := Function.update st.cacheHitStats p (some stats) }
  if !task.hasWeights then
    (st, task)
  else
    let cacheState := st.cacheState p
    let stats := stats.afterRecord task cacheState
    let totalAccesses := stats.totalL1Accesses + stats.totalL2Accesses + stats.totalL3Accesses
    let totalHits := stats.totalL1Hits + stats.totalL2Hits + stats.totalL3Hits
    ({ st with cacheHitStats := Function.update st.cacheHitStats p (some stats) },
      { task with
        actualCacheHitRatio := if totalAccesses > 0 then totalHits / totalAccesses else 0
        actualL1L2L3HitRatio :=
          (hitRatio (task.weight 0) cacheState.l1Utilization 0.8,
            hitRatio (task.weight 1) cacheState.l2Utilization 0.6,
            hitRatio (task.weight 2) cacheState.l3Utilization 0.4) })

/-! ## Allocation -/

/-- One round of the loop of {lit}`allocate`, on the state, the best processor and
the best score. -/
def scoreRound (node : Node) (best : CacheAwareState × Option ProcId × ℚ) (p : ProcId) :
    CacheAwareState × Option ProcId × ℚ :=
  let scored := best.1.calculateCacheAwareScore node p
  if scored.2 > best.2.2 then
    (scored.1, some p, scored.2)
  else
    (scored.1, best.2)

/-- {lit}`allocate`: the returned id, the state and the ready nodes, of which the
first is marked with its hit ratios. -/
def allocate (st : CacheAwareState) (readyNodes : List Node) (availableProc : List ProcId) :
    Except JavaException (Int × CacheAwareState × List Node) :=
  match readyNodes, availableProc with
  | [], _ => .ok (-1, st, readyNodes)
  | _, [] => .ok (-1, st, readyNodes)
  | node :: rest, first :: _ =>
      match availableProc.foldl (scoreRound node) (st, none, doubleMinValue) with
      | (st, none, _) => .ok (first, st, readyNodes)
      | (st, some p, _) =>
          match st.updateProcessorState p node with
          | .error e => .error e
          | .ok st =>
              let recorded := st.recordTaskCacheHitRatio p node
              .ok (p, recorded.1, recorded.2 :: rest)

/-! ## Execution times -/

/-- {lit}`(long)` of a {lit}`double`: towards zero, and clamped. -/
def longOfDouble (x : ℚ) : Int64 :=
  Int64.ofIntClamp (x.num.tdiv x.den)

/-- {lit}`calculateExecutionTime`. -/
def calculateExecutionTime (st : CacheAwareState) (task : Node) (p : ProcId) : Int64 :=
  match st.cacheStates p with
  | none => task.expectedET
  | some cacheState =>
      if !task.hasWeights then
        task.expectedET
      else
        let l1HitRatio := hitRatio (task.weight 0) cacheState.l1Utilization 0.8
        let l2HitRatio := hitRatio (task.weight 1) cacheState.l2Utilization 0.6
        let l3HitRatio := hitRatio (task.weight 2) cacheState.l3Utilization 0.4
        let l1Savings := l1HitRatio * task.sensitivity * 0.25
        let l2Savings := l2HitRatio * task.sensitivity * 0.15
        let l3Savings := l3HitRatio * task.sensitivity * 0.08
        let totalSavings := l1Savings + l2Savings + l3Savings
        let totalSavings :=
          if task.sensitivity > 0.8 then totalSavings * 1.15
          else if task.sensitivity > 0.6 then totalSavings * 1.08
          else totalSavings
        let totalSavings := min totalSavings 0.5
        let adjustedET := longOfDouble (task.time * (1 - totalSavings))
        if adjustedET < task.expectedET / 2 then task.expectedET / 2 else adjustedET

end CacheAwareState

end Simu
end YatCasched
