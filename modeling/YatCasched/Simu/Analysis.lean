import Mathlib.Data.List.Infix
import YatCasched.Simu.Deadlines
import YatCasched.Simu.HitStats
import YatCasched.Simu.LoadBalance
import YatCasched.Simu.ResponseTime

/-!
# The performance analyzer

{lit}`PerformanceAnalyzer.analyzeAlgorithmPerformance`: all metrics of a simulated test
case, and the list of results the analyzer keeps.  Only the cache-aware allocator measures
hits; the hit ratio of the others is a formula on the sensitivities and the weights of the
tasks, which no schedule changes.

Main results:

- Theorem {lit}`calculateWFDCacheHitRatio_congr`: what the ratio of {lit}`WFD` depends on.
- Theorem {lit}`calculateCacheHitRatio_unit`: all ratios are between 0 and 1.
- Theorem {lit}`calculateEnergyConsumption_bounds`: the energy is the time and up to one
  fifth of it.
- Theorem {lit}`groupByAlgorithm_eq`: the groups are the results of one algorithm, in order.
-/

namespace YatCasched
namespace Simu

open Ratio

/-! ## Hit ratios -/

/-- One round of the loops that estimate a hit ratio, on the weighted ratio and the weight. -/
def weightedHitRatioRound (hitRatio : Node → ℚ) (total : ℚ × ℚ) (task : Node) : ℚ × ℚ :=
  if task.hasLevelWeights then
    let weight := task.levelWeight
    (total.1 + hitRatio task * weight, total.2 + weight)
  else
    total

/-- The ratio that {lit}`calculateCacheAwareCacheHitRatio` estimates for a task without
one. -/
def cacheAwareEstimate (task : Node) : ℚ :=
  (task.weight 0 * 0.85 + task.weight 1 * 0.75 + task.weight 2 * 0.65) *
    (1 + task.sensitivity * 0.25)

/-- {lit}`calculateCacheAwareCacheHitRatio`. -/
def calculateCacheAwareCacheHitRatio (tasks : List Node) : ℚ :=
  let hitRatio := calculateCacheHitRatioFromTasks tasks
  if hitRatio > 0 then
    hitRatio
  else
    let total := tasks.foldl (weightedHitRatioRound fun task =>
      if task.actualCacheHitRatio > 0 then task.actualCacheHitRatio
      else cacheAwareEstimate task) (0, 0)
    if total.2 > 0 then min (total.1 / total.2) 0.95 else 0.7

/-- The ratio that {lit}`calculateWFDCacheHitRatio` estimates for a task. -/
def wfdEstimate (task : Node) : ℚ :=
  let baseHitRatio := task.weight 0 * 0.6 + task.weight 1 * 0.5 + task.weight 2 * 0.4
  let adjustedHitRatio := baseHitRatio * (0.8 + task.sensitivity * 0.2)
  let randomnessPenalty := 0.9
  adjustedHitRatio * randomnessPenalty

/-- {lit}`calculateWFDCacheHitRatio`. -/
def calculateWFDCacheHitRatio (tasks : List Node) : ℚ :=
  let total := tasks.foldl (weightedHitRatioRound wfdEstimate) (0, 0)
  let wfdHitRatio := if total.2 > 0 then total.1 / total.2 else 0.4
  max 0.3 (min wfdHitRatio 0.7)

/-- The ratio that {lit}`calculateBasicCacheHitRatio` estimates for a task. -/
def basicEstimate (task : Node) : ℚ :=
  (task.weight 0 * 0.7 + task.weight 1 * 0.6 + task.weight 2 * 0.5) *
    (0.7 + task.sensitivity * 0.3)

/-- {lit}`calculateBasicCacheHitRatio`. -/
def calculateBasicCacheHitRatio (tasks : List Node) : ℚ :=
  let total := tasks.foldl (weightedHitRatioRound basicEstimate) (0, 0)
  if total.2 > 0 then min (total.1 / total.2) 0.8 else 0.5

/-- {lit}`calculateCacheHitRatio`. -/
def calculateCacheHitRatio (tasks : List Node) (algorithmName : String) : ℚ :=
  if "CacheAware".toList <:+: algorithmName.toList then
    calculateCacheAwareCacheHitRatio tasks
  else if algorithmName = "WFD" then
    calculateWFDCacheHitRatio tasks
  else
    calculateBasicCacheHitRatio tasks

/-! ## Energy and benefit -/

/-- The energy {lit}`calculateEnergyConsumption` adds for a task that has run. -/
def Node.energy (task : Node) : ℚ :=
  let baseEnergy := task.elapsed * 1
  let cacheMissPenalty := (1 - task.sensitivity) * 0.2 * task.elapsed
  baseEnergy + cacheMissPenalty

/-- {lit}`calculateEnergyConsumption`. -/
def calculateEnergyConsumption (tasks : List Node) : ℚ :=
  tasks.foldl
    (fun totalEnergy task => if task.HasRun then totalEnergy + task.energy else totalEnergy) 0

/-- {lit}`calculateCacheSensitivityBenefit`. -/
def calculateCacheSensitivityBenefit (tasks : List Node) (algorithmName : String) : ℚ :=
  if algorithmName ≠ "Cache-Aware" then
    0
  else
    let total := tasks.foldl (fun (total : ℚ × ℕ) task =>
      if task.sensitivity > 0.5 then (total.1 + task.sensitivity * 0.15, total.2 + 1)
      else total) (0, 0)
    if total.2 > 0 then total.1 / total.2 else 0

/-! ## The analyzer -/

/-- {lit}`ExperimentResult`. -/
structure ExperimentResult where
  algorithmName : String
  testCaseId : ℕ
  makespan : ℚ
  averageResponseTime : ℚ
  cpuUtilization : ℚ
  loadBalance : ℝ
  cacheHitRatio : ℚ
  energyConsumption : ℚ
  missedDeadlines : ℕ
  cacheSensitivityBenefit : ℚ
  algorithmExecutionTime : ℚ
  utilizationLevel : ℚ
  totalTaskExecutionTime : ℚ
  averageTaskExecutionTime : ℚ

/-- The result {lit}`analyzeAlgorithmPerformance` fills in. -/
noncomputable def experimentResult (algorithmName : String) (testCaseId : ℕ) (tasks : List Node)
    (processorCount : Nat) (executionTimeMs utilizationLevel : ℚ) : ExperimentResult where
  algorithmName := algorithmName
  testCaseId := testCaseId
  algorithmExecutionTime := executionTimeMs
  utilizationLevel := utilizationLevel
  makespan := calculateMakespan tasks processorCount
  averageResponseTime := calculateAverageResponseTime tasks
  cpuUtilization := calculateCpuUtilization tasks processorCount
  loadBalance := calculateLoadBalance tasks processorCount
  cacheHitRatio := calculateCacheHitRatio tasks algorithmName
  energyConsumption := calculateEnergyConsumption tasks
  missedDeadlines := calculateMissedDeadlines tasks
  cacheSensitivityBenefit := calculateCacheSensitivityBenefit tasks algorithmName
  totalTaskExecutionTime := calculateTotalTaskExecutionTime tasks
  averageTaskExecutionTime := calculateAverageTaskExecutionTime tasks

/-- {lit}`analyzeAlgorithmPerformance`, on the list of results the analyzer keeps. -/
noncomputable def analyzeAlgorithmPerformance (results : List ExperimentResult)
    (algorithmName : String) (testCaseId : ℕ) (tasks : List Node) (processorCount : Nat)
    (executionTimeMs utilizationLevel : ℚ) : List ExperimentResult × ExperimentResult :=
  let result := experimentResult algorithmName testCaseId tasks processorCount executionTimeMs
    utilizationLevel
  (results ++ [result], result)

/-- One round of the loop of {lit}`groupByAlgorithm`. -/
def groupRound (grouped : String → Option (List ExperimentResult)) (result : ExperimentResult) :
    String → Option (List ExperimentResult) :=
  let grouped :=
    if (grouped result.algorithmName).isNone then
      Function.update grouped result.algorithmName (some [])
    else
      grouped
  Function.update grouped result.algorithmName
    ((grouped result.algorithmName).map (· ++ [result]))

/-- {lit}`groupByAlgorithm`. -/
def groupByAlgorithm (results : List ExperimentResult) :
    String → Option (List ExperimentResult) :=
  results.foldl groupRound fun _ => none

/-! ## What the hit ratios depend on -/

variable {tasks tasks' : List Node} {hitRatio : Node → ℚ}

/-- The loop adds up over the tasks that count. -/
theorem foldl_weightedHitRatioRound (hitRatio : Node → ℚ) (tasks : List Node) :
    tasks.foldl (weightedHitRatioRound hitRatio) (0, 0) =
      (((tasks.filter Node.hasLevelWeights).map fun task =>
        hitRatio task * task.levelWeight).sum,
      ((tasks.filter Node.hasLevelWeights).map Node.levelWeight).sum) := by
  induction tasks using List.reverseRecOn with
  | nil => rfl
  | append_singleton tasks task ih =>
      rw [List.foldl_append, ih, List.filter_append]
      by_cases hcounts : task.hasLevelWeights = true
      · simp [weightedHitRatioRound, hcounts]
      · simp [weightedHitRatioRound, hcounts]

/-- Tasks with the same sensitivity and the same weights. -/
def SameNeeds (task task' : Node) : Prop :=
  task'.sensitivity = task.sensitivity ∧ task'.weights = task.weights

theorem SimulatedAs.sameNeeds {task task' : Node} (h : SimulatedAs task task') :
    SameNeeds task task' := by
  rw [← h.same]
  exact ⟨rfl, rfl⟩

theorem SameNeeds.weight {task task' : Node} (h : SameNeeds task task') (i : ℕ) :
    task'.weight i = task.weight i := by
  unfold Node.weight
  rw [h.2]

theorem SameNeeds.hasLevelWeights {task task' : Node} (h : SameNeeds task task') :
    task'.hasLevelWeights = task.hasLevelWeights := by
  unfold Node.hasLevelWeights
  rw [h.2]

theorem SameNeeds.wfdEstimate {task task' : Node} (h : SameNeeds task task') :
    wfdEstimate task' = wfdEstimate task := by
  unfold Simu.wfdEstimate
  rw [h.weight, h.weight, h.weight, h.1]

/-- The hit ratio of {lit}`WFD` depends on the sensitivities and the weights alone. -/
theorem calculateWFDCacheHitRatio_congr (h : List.Forall₂ SameNeeds tasks tasks') :
    calculateWFDCacheHitRatio tasks' = calculateWFDCacheHitRatio tasks := by
  have hfold : ∀ total, tasks'.foldl (weightedHitRatioRound wfdEstimate) total =
      tasks.foldl (weightedHitRatioRound wfdEstimate) total := by
    induction h with
    | nil => exact fun _ => rfl
    | @cons task task' tasks tasks' htask _ ih =>
        intro total
        have hround : weightedHitRatioRound wfdEstimate total task' =
            weightedHitRatioRound wfdEstimate total task := by
          unfold weightedHitRatioRound Node.levelWeight
          rw [htask.hasLevelWeights, htask.wfdEstimate, htask.weight, htask.weight,
            htask.weight]
        rw [List.foldl_cons, List.foldl_cons, hround, ih]
  unfold calculateWFDCacheHitRatio
  rw [hfold]

/-! ## Ranges -/

/-- The estimates of tasks with ratios that are not negative. -/
theorem weightedHitRatio_nonneg (hweight : ∀ task ∈ tasks, ∀ i, 0 ≤ task.weight i)
    (hratio : ∀ task ∈ tasks, 0 ≤ hitRatio task) :
    0 ≤ (tasks.foldl (weightedHitRatioRound hitRatio) (0, 0)).1 := by
  rw [foldl_weightedHitRatioRound]
  apply List.sum_nonneg
  intro x hx
  rcases List.mem_map.mp hx with ⟨task, htask, rfl⟩
  have hmem := List.mem_of_mem_filter htask
  have hlevel : 0 ≤ task.levelWeight :=
    add_nonneg (add_nonneg (hweight task hmem 0) (hweight task hmem 1)) (hweight task hmem 2)
  exact mul_nonneg (hratio task hmem) hlevel

/-- The ratio of {lit}`WFD` is cut off at both ends. -/
theorem calculateWFDCacheHitRatio_bounds (tasks : List Node) :
    0.3 ≤ calculateWFDCacheHitRatio tasks ∧ calculateWFDCacheHitRatio tasks ≤ 0.7 := by
  unfold calculateWFDCacheHitRatio
  constructor
  · exact le_max_left _ _
  · exact max_le (by norm_num) (min_le_right _ _)

theorem calculateCacheHitRatio_wfd (tasks : List Node) :
    calculateCacheHitRatio tasks "WFD" = calculateWFDCacheHitRatio tasks := by
  unfold calculateCacheHitRatio
  rw [if_neg (by decide), if_pos rfl]

/-- The ratio of other algorithms is cut off at the upper end. -/
theorem calculateBasicCacheHitRatio_bounds
    (hweight : ∀ task ∈ tasks, ∀ i, 0 ≤ task.weight i)
    (hsensitivity : ∀ task ∈ tasks, 0 ≤ task.sensitivity) :
    0 ≤ calculateBasicCacheHitRatio tasks ∧ calculateBasicCacheHitRatio tasks ≤ 0.8 := by
  have hnonneg := weightedHitRatio_nonneg hweight fun task htask => by
    have h0 := hweight task htask 0
    have h1 := hweight task htask 1
    have h2 := hweight task htask 2
    have hs := hsensitivity task htask
    exact (by unfold basicEstimate; positivity : 0 ≤ basicEstimate task)
  unfold calculateBasicCacheHitRatio
  dsimp only
  split
  · rename_i hpos
    exact ⟨le_min (div_nonneg hnonneg hpos.le) (by norm_num), min_le_right _ _⟩
  · norm_num

/-- So is that of the cache-aware allocator where it is estimated; where it is measured it
is a ratio of hits. -/
theorem calculateCacheAwareCacheHitRatio_bounds (hrated : ∀ task ∈ tasks, task.Rated)
    (hweight : ∀ task ∈ tasks, ∀ i, 0 ≤ task.weight i)
    (hsensitivity : ∀ task ∈ tasks, 0 ≤ task.sensitivity) :
    0 ≤ calculateCacheAwareCacheHitRatio tasks ∧ calculateCacheAwareCacheHitRatio tasks ≤ 1 := by
  have hunit := calculateCacheHitRatioFromTasks_unit hrated hweight
  have hnonneg := weightedHitRatio_nonneg hweight fun task htask => by
    have h0 := hweight task htask 0
    have h1 := hweight task htask 1
    have h2 := hweight task htask 2
    have hs := hsensitivity task htask
    have hactual := (hrated task htask).actual_nonneg
    suffices 0 ≤ if task.actualCacheHitRatio > 0 then task.actualCacheHitRatio
      else cacheAwareEstimate task from this
    split
    · exact hactual
    · unfold cacheAwareEstimate
      positivity
  unfold calculateCacheAwareCacheHitRatio
  dsimp only
  split
  · exact hunit
  · split
    · rename_i hpos
      exact ⟨le_min (div_nonneg hnonneg hpos.le) (by norm_num),
        (min_le_right _ _).trans (by norm_num)⟩
    · norm_num

/-- The ratio is between 0 and 1 whatever the algorithm. -/
theorem calculateCacheHitRatio_unit (hrated : ∀ task ∈ tasks, task.Rated)
    (hweight : ∀ task ∈ tasks, ∀ i, 0 ≤ task.weight i)
    (hsensitivity : ∀ task ∈ tasks, 0 ≤ task.sensitivity) (algorithmName : String) :
    0 ≤ calculateCacheHitRatio tasks algorithmName ∧
      calculateCacheHitRatio tasks algorithmName ≤ 1 := by
  unfold calculateCacheHitRatio
  split
  · exact calculateCacheAwareCacheHitRatio_bounds hrated hweight hsensitivity
  · split
    · have hbounds := calculateWFDCacheHitRatio_bounds tasks
      constructor
      all_goals linarith
    · have hbounds := calculateBasicCacheHitRatio_bounds hweight hsensitivity
      exact ⟨hbounds.1, hbounds.2.trans (by norm_num)⟩

/-! ## Energy -/

/-- If all tasks have run, the loop adds up their energies. -/
theorem calculateEnergyConsumption_eq (hrun : ∀ task ∈ tasks, task.HasRun) :
    calculateEnergyConsumption tasks = (tasks.map Node.energy).sum := by
  unfold calculateEnergyConsumption
  induction tasks using List.reverseRecOn with
  | nil => rfl
  | append_singleton tasks task ih =>
      have htask : task.HasRun := hrun task (by simp)
      rw [List.foldl_append, ih fun t ht => hrun t (List.mem_append_left _ ht), List.map_append,
        List.sum_append]
      simp [htask]

/-- The energy of tasks that have run is their time and up to one fifth of it. -/
theorem calculateEnergyConsumption_bounds (hrun : ∀ task ∈ tasks, task.HasRun)
    (helapsed : ∀ task ∈ tasks, 0 ≤ task.elapsed)
    (hsensitivity : ∀ task ∈ tasks, 0 ≤ task.sensitivity ∧ task.sensitivity ≤ 1) :
    calculateTotalTaskExecutionTime tasks ≤ calculateEnergyConsumption tasks ∧
      calculateEnergyConsumption tasks ≤ 1.2 * calculateTotalTaskExecutionTime tasks := by
  have htotal : calculateTotalTaskExecutionTime tasks = (tasks.map Node.elapsed).sum :=
    (foldl_rounds_of_hasRun hrun).2.1
  have htask : ∀ task ∈ tasks, task.elapsed ≤ task.energy ∧ task.energy ≤ 1.2 * task.elapsed := by
    intro task ht
    have htime := helapsed task ht
    have hmiss : 0 ≤ (1 - task.sensitivity) * task.elapsed :=
      mul_nonneg (by linarith [hsensitivity task ht]) htime
    have hmiss' : 0 ≤ task.sensitivity * task.elapsed :=
      mul_nonneg (hsensitivity task ht).1 htime
    unfold Node.energy
    constructor
    all_goals linarith
  rw [calculateEnergyConsumption_eq hrun, htotal]
  exact ⟨List.sum_le_sum fun task ht => (htask task ht).1,
    sum_le_mul fun task ht => (htask task ht).2⟩

/-! ## Groups -/

/-- A result is added to the group of its algorithm, which is new if there is none. -/
theorem groupRound_self (grouped : String → Option (List ExperimentResult))
    (result : ExperimentResult) :
    groupRound grouped result result.algorithmName =
      some ((grouped result.algorithmName).getD [] ++ [result]) := by
  unfold groupRound
  rw [Function.update_self]
  cases hgroup : grouped result.algorithmName with
  | none => simp
  | some group => simp [hgroup]

theorem groupRound_of_ne (grouped : String → Option (List ExperimentResult))
    {result : ExperimentResult} {name : String} (h : name ≠ result.algorithmName) :
    groupRound grouped result name = grouped name := by
  unfold groupRound
  rw [Function.update_of_ne h]
  split
  · exact Function.update_of_ne h _ _
  · rfl

/-- The groups are the results of one algorithm, in order; an algorithm without results has
none. -/
theorem groupByAlgorithm_eq (results : List ExperimentResult) (name : String) :
    groupByAlgorithm results name =
      let group := results.filter fun result => result.algorithmName = name
      if group.isEmpty then none else some group := by
  dsimp only
  unfold groupByAlgorithm
  induction results using List.reverseRecOn with
  | nil => rfl
  | append_singleton results result ih =>
      rw [List.foldl_append, List.filter_append, List.foldl_cons, List.foldl_nil]
      by_cases hname : result.algorithmName = name
      · subst hname
        rw [groupRound_self, ih]
        split
        · rename_i hempty
          simp [List.isEmpty_iff.mp hempty]
        · simp
      · rw [groupRound_of_ne _ fun h => hname h.symm, ih]
        simp [hname]

end Simu
end YatCasched
