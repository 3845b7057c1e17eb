import YatCasched.Simu.CacheIntensive
import YatCasched.Simu.WfdCarry

/-!
# The results of a test case

What the analyzer makes of the two schedules of a test case, and what they have to do with
each other.  The metrics of a schedule are in their ranges and fit together.  For the same
tasks the cache-aware schedule takes less time in total, but at least one half, and less
energy, because that is so of every single task.  The hit ratio of the other one is that of
the tasks, however they are placed.

Main results:

- Theorem {lit}`Scheduled.measured`: the metrics of one schedule.
- Theorem {lit}`gain_of_cached`: what the cache-aware schedule gains.
- Theorem {lit}`CacheIntensive.usesCache`: the generated tasks are of the kind both need.
- Theorem {lit}`wfdHitRatio_unscheduled`: what the ratio of {lit}`WFD` does not depend on.
-/

namespace YatCasched
namespace Simu

open Ratio

/-! ## The metrics of one schedule -/

/-- The metrics of a result are in their ranges and fit together. -/
structure Measured (taskCount P : ℕ) (result : ExperimentResult) : Prop where
  makespan_pos : 0 < result.makespan
  mean_le_makespan : result.totalTaskExecutionTime / P ≤ result.makespan
  makespan_le_total : result.makespan ≤ result.totalTaskExecutionTime
  utilization_pos : 0 < result.cpuUtilization
  utilization_le_one : result.cpuUtilization ≤ 1
  utilization_mul : result.cpuUtilization * P * result.makespan = result.totalTaskExecutionTime
  average_mul : result.averageTaskExecutionTime * taskCount = result.totalTaskExecutionTime
  average_le_response : result.averageTaskExecutionTime + 1 ≤ result.averageResponseTime
  response_le_makespan : result.averageResponseTime ≤ result.makespan + 1
  loadBalance_le_one : result.loadBalance ≤ 1
  hitRatio_ge : 0.1 ≤ result.cacheHitRatio
  hitRatio_le_one : result.cacheHitRatio ≤ 1
  energy_ge : result.totalTaskExecutionTime ≤ result.energyConsumption
  energy_le : result.energyConsumption ≤ 1.2 * result.totalTaskExecutionTime
  missed_le : result.missedDeadlines ≤ taskCount
  benefit_eq : result.cacheSensitivityBenefit = 0

variable {P : ℕ} {busy : ProcId → Int64} {tasks tasks' original : List Node}
  {drawn : Nat → Drawn} {name : String} {testCaseId : ℕ}
  {executionTimeMs utilizationLevel : ℚ}

/-- What is true of every task at the left of a relation, and is kept by it. -/
theorem forall_mem_of_forall₂ {R : Node → Node → Prop} {p q : Node → Prop}
    (h : List.Forall₂ R tasks tasks') (hkeep : ∀ task task', R task task' → p task → q task')
    (htasks : ∀ task ∈ tasks, p task) : ∀ task ∈ tasks', q task := by
  induction h with
  | nil => simp
  | @cons task task' tasks tasks' hfirst _ ih =>
      intro t ht
      rcases List.mem_cons.mp ht with rfl | ht
      · exact hkeep _ _ hfirst (htasks _ List.mem_cons_self)
      · exact ih (fun u hu => htasks u (List.mem_cons_of_mem _ hu)) t ht

/-- A sum over related tasks is ordered if the terms are. -/
theorem sum_map_le_of_forall₂ {R : Node → Node → Prop} {f g : Node → ℚ}
    (h : List.Forall₂ R tasks tasks') (hle : ∀ task task', R task task' → f task ≤ g task') :
    (tasks.map f).sum ≤ (tasks'.map g).sum := by
  apply List.Forall₂.sum_le_sum
  rw [List.forall₂_map_left_iff, List.forall₂_map_right_iff]
  exact h.imp hle

/-- The load balance of a schedule is at most 1. -/
theorem Scheduled.loadBalance_le_one (h : Scheduled P busy tasks tasks') :
    calculateLoadBalance tasks' P ≤ 1 := by
  rw [h.calculateLoadBalance_eq]
  unfold Dispersion.evenness
  split
  · rename_i hmean
    have hratio := div_nonneg (Real.sqrt_nonneg
      (Dispersion.variance (Finset.range P) fun p => (timeOn tasks' p : ℝ))) hmean.le
    linarith
  · exact zero_le_one

/-- The total time of a schedule is the sum of its execution times. -/
theorem Scheduled.totalTaskExecutionTime_eq (h : Scheduled P (fun _ => 0) tasks tasks')
    (hP : P ≤ 2 ^ 31) (hfits : NoOverflow P tasks') :
    calculateTotalTaskExecutionTime tasks' = totalTime tasks' :=
  (foldl_rounds_of_hasRun (h.hasRun hP hfits)).2.1.trans h.elapsedTime_eq

/-- A schedule does not take longer in total than its tasks were meant to. -/
theorem Scheduled.totalTime_le_totalTime (h : Scheduled P busy tasks tasks') :
    totalTime tasks' ≤ totalTime tasks := by
  apply List.Forall₂.sum_le_sum
  rw [List.forall₂_map_left_iff, List.forall₂_map_right_iff]
  exact (h.simulated.imp fun _ _ htask => htask.time_le).flip

/-- The response times of scheduled clones fit if all tasks one after the other do. -/
theorem Scheduled.responsesFit (h : Scheduled P (fun _ => 0) (cloneTasks drawn original) tasks')
    (hP : P ≤ 2 ^ 31) (htotal : totalTime original + 1 < 2 ^ 63) : ResponsesFit tasks' := by
  have hclones := (totalTime_cloneTasks drawn original).1
  have hfits := h.noOverflow hP (by omega)
  have hrelease : ∀ task ∈ cloneTasks drawn original, task.release.toInt = -1 := by
    intro task htask
    rcases List.mem_mapIdx.mp htask with ⟨i, hi, rfl⟩
    rw [cloneTask_release]
    rfl
  have hkept := forall_mem_of_forall₂ h.simulated (fun task task' htask hminus => by
    have hsame : task'.release = task.release := (congrArg Node.release htask.same).symm
    rw [hsame]
    exact hminus : ∀ task task', SimulatedAs task task' → task.release.toInt = -1 →
      task'.release.toInt = -1) hrelease
  intro task htask
  have hfinish := (calculateMakespan_spec fun t ht => (h.placed hP t ht).2).1 task htask
  have hmakespan := h.makespan_le_totalTime hP hfits
  have hle : task.finishAt.toInt ≤ totalTime tasks' := by exact_mod_cast hfinish.trans hmakespan
  have htime := h.totalTime_le_totalTime
  rw [hkept task htask]
  omega

/-- The metrics of scheduled clones in which every task takes time. -/
theorem Scheduled.measured (h : Scheduled P (fun _ => 0) (cloneTasks drawn original) tasks')
    (hP : P ≤ 2 ^ 31) (hne : original ≠ []) (hproper : ∀ task ∈ original, task.Proper)
    (htotal : totalTime original + 1 < 2 ^ 63)
    (hpos : ∀ task ∈ tasks', 0 < task.expectedET.toInt) (hname : name ≠ "Cache-Aware")
    (hratio : 0.1 ≤ calculateCacheHitRatio tasks' name ∧ calculateCacheHitRatio tasks' name ≤ 1) :
    Measured original.length P
      (experimentResult name testCaseId tasks' P executionTimeMs utilizationLevel) := by
  have hlength : tasks'.length = original.length := by
    rw [h.length_eq]
    simp [cloneTasks]
  have hne' : tasks' ≠ [] := by
    apply List.ne_nil_of_length_pos
    rw [hlength]
    exact List.length_pos_of_ne_nil hne
  have hfits : NoOverflow P tasks' := by
    apply h.noOverflow hP
    rw [(totalTime_cloneTasks drawn original).1]
    omega
  have hduration := h.duration_of_noOverflow hP hfits
  have hmetrics : TimeMetrics P tasks' := by
    rcases List.exists_mem_of_ne_nil tasks' hne' with ⟨task, htask⟩
    have htime := hpos task htask
    rcases hduration task htask with ⟨_, _, hfinish⟩
    exact h.timeMetrics hP hfits ⟨task, htask, by omega⟩
  have hmakespan : 0 < calculateMakespan tasks' P := by
    rcases List.exists_mem_of_ne_nil tasks' hne' with ⟨task, htask⟩
    have htime := hpos task htask
    rcases hduration task htask with ⟨hstart, _, hfinish⟩
    have hle := (calculateMakespan_spec fun t ht => (h.placed hP t ht).2).1 task htask
    exact lt_of_lt_of_le (by exact_mod_cast (by omega : 0 < task.finishAt.toInt)) hle
  have hresponse := (h.averageResponseTime_cloneTasks hP hne hfits (h.responsesFit hP htotal)).1
  have hsensitivity := forall_mem_of_forall₂ h.simulated (fun task task' htask hbounds => by
    rw [htask.sameNeeds.1]
    exact hbounds : ∀ task task', SimulatedAs task task' →
      (0 ≤ task.sensitivity ∧ task.sensitivity ≤ 1) →
      0 ≤ task'.sensitivity ∧ task'.sensitivity ≤ 1) fun task htask =>
    ⟨(proper_of_mem_cloneTasks hproper drawn task htask).sensitivity_nonneg,
      (proper_of_mem_cloneTasks hproper drawn task htask).sensitivity_le_one⟩
  have henergy := calculateEnergyConsumption_bounds (h.hasRun hP hfits) (fun task htask => by
    rw [h.elapsed_eq task htask]
    exact_mod_cast (hpos task htask).le) hsensitivity
  have haverage := h.average_le_mean_finishTime hP hfits hne'
  have hfinish := h.mean_finishTime_le_makespan hP hne'
  exact
    { makespan_pos := hmakespan
      mean_le_makespan := hmetrics.mean_le_makespan
      makespan_le_total := hmetrics.makespan_le_total
      utilization_pos := hmetrics.utilization_pos
      utilization_le_one := hmetrics.utilization_le_one
      utilization_mul := hmetrics.utilization_mul
      average_mul := by rw [← hlength]; exact hmetrics.average_mul
      average_le_response := (add_le_add_left haverage 1).trans_eq hresponse.symm
      response_le_makespan := hresponse.trans_le (add_le_add_left hfinish 1)
      loadBalance_le_one := h.loadBalance_le_one
      hitRatio_ge := hratio.1
      hitRatio_le_one := hratio.2
      energy_ge := henergy.1
      energy_le := henergy.2
      missed_le := by
        rw [← hlength]
        exact (calculateMissedDeadlines_eq_countP tasks').trans_le List.countP_le_length
      benefit_eq := if_pos hname }

/-! ## What the cache-aware schedule gains -/

/-- What a task consumes if it runs for its execution time. -/
def Node.plannedEnergy (task : Node) : ℚ :=
  (1 + (1 - task.sensitivity) * 0.2) * task.time

/-- A schedule consumes what its tasks do. -/
theorem Scheduled.energyConsumption_eq (h : Scheduled P (fun _ => 0) tasks tasks')
    (hP : P ≤ 2 ^ 31) (hfits : NoOverflow P tasks') :
    calculateEnergyConsumption tasks' = (tasks'.map Node.plannedEnergy).sum := by
  rw [calculateEnergyConsumption_eq (h.hasRun hP hfits)]
  congr 1
  apply List.map_congr_left
  intro task htask
  unfold Node.energy Node.plannedEnergy Node.time
  rw [h.elapsed_eq task htask]
  ring

/-- What the cache-aware schedule of a task set gains over another schedule of it. -/
structure Gain (taskCount : ℕ) (wfdResult cacheResult : ExperimentResult) : Prop where
  total_le : cacheResult.totalTaskExecutionTime ≤ wfdResult.totalTaskExecutionTime
  total_ge : wfdResult.totalTaskExecutionTime ≤
    2 * cacheResult.totalTaskExecutionTime + taskCount
  energy_le : cacheResult.energyConsumption ≤ wfdResult.energyConsumption
  energy_ge : wfdResult.energyConsumption ≤ 2 * cacheResult.energyConsumption + 1.2 * taskCount

theorem Cached.time {task task' : Node} (h : Cached task task') :
    task'.time ≤ task.time ∧ task.time ≤ 2 * task'.time + 1 := by
  have hhalf := h.half
  have hle := h.time_le
  unfold Node.time
  constructor
  · exact_mod_cast hle
  · exact_mod_cast (by omega : task.expectedET.toInt ≤ 2 * task'.expectedET.toInt + 1)

/-- A task that takes less time consumes less. -/
theorem Cached.plannedEnergy {task task' : Node} (h : Cached task task') (hproper : task.Proper) :
    task'.plannedEnergy ≤ task.plannedEnergy ∧
      task.plannedEnergy ≤ 2 * task'.plannedEnergy + 1.2 := by
  have hfactor : 0 ≤ 1 + (1 - task.sensitivity) * 0.2 := by
    linarith [hproper.sensitivity_le_one]
  have hfactor' : 1 + (1 - task.sensitivity) * 0.2 ≤ 1.2 := by
    linarith [hproper.sensitivity_nonneg]
  unfold Node.plannedEnergy
  rw [h.needs.1]
  constructor
  · exact mul_le_mul_of_nonneg_left h.time.1 hfactor
  · calc
      (1 + (1 - task.sensitivity) * 0.2) * task.time
        ≤ (1 + (1 - task.sensitivity) * 0.2) * (2 * task'.time + 1) :=
          mul_le_mul_of_nonneg_left h.time.2 hfactor
      _ ≤ 2 * ((1 + (1 - task.sensitivity) * 0.2) * task'.time) + 1.2 := by linarith

/-- Twice a sum and the same for every task. -/
theorem sum_map_two_mul_add (f : Node → ℚ) (c : ℚ) (tasks : List Node) :
    (tasks.map fun task => 2 * f task + c).sum = 2 * (tasks.map f).sum + c * tasks.length := by
  rw [List.sum_map_add, List.sum_map_mul_left, List.map_const', List.sum_replicate, nsmul_eq_mul,
    mul_comm c]

theorem totalTime_eq_sum_time (tasks : List Node) :
    (totalTime tasks : ℚ) = (tasks.map Node.time).sum := by
  unfold totalTime
  rw [Int.cast_list_sum, List.map_map]
  rfl

/-- A schedule that keeps the execution times consumes what its tasks do. -/
theorem plannedEnergy_of_sameTimes (h : List.Forall₂ SimulatedAs tasks tasks')
    (htimes : tasks'.map Node.expectedET = tasks.map Node.expectedET) :
    tasks'.map Node.plannedEnergy = tasks.map Node.plannedEnergy := by
  induction h with
  | nil => rfl
  | @cons task task' tasks tasks' htask _ ih =>
      rw [List.map_cons, List.map_cons, List.cons.injEq] at htimes
      rw [List.map_cons, List.map_cons, ih htimes.2]
      unfold Node.plannedEnergy Node.time
      rw [htimes.1, htask.sameNeeds.1]

/-- What the cache-aware schedule gains over one that keeps the execution times. -/
theorem gain_of_cached {clones wfdTasks cacheTasks : List Node}
    (hwfd : Scheduled P (fun _ => 0) clones wfdTasks)
    (htimes : wfdTasks.map Node.expectedET = clones.map Node.expectedET)
    (hcache : Scheduled P (fun _ => 0) clones cacheTasks)
    (hcached : List.Forall₂ Cached clones cacheTasks) (hP : P ≤ 2 ^ 31)
    (hproper : ∀ task ∈ clones, task.Proper) (htotal : totalTime clones < 2 ^ 63)
    {id id' : ℕ} {name name' : String} {ms ms' level level' : ℚ} :
    Gain clones.length (experimentResult name id wfdTasks P ms level)
      (experimentResult name' id' cacheTasks P ms' level') := by
  have hwfdFits := hwfd.noOverflow hP htotal
  have hcacheFits := hcache.noOverflow hP htotal
  have hlength : cacheTasks.length = clones.length := hcache.length_eq
  have hwfdTotal : calculateTotalTaskExecutionTime wfdTasks = (clones.map Node.time).sum := by
    have hsame := congrArg (List.map fun time : Int64 => (time.toInt : ℚ)) htimes
    rw [List.map_map, List.map_map] at hsame
    rw [hwfd.totalTaskExecutionTime_eq hP hwfdFits, totalTime_eq_sum_time]
    exact congrArg List.sum hsame
  have hcacheTotal : calculateTotalTaskExecutionTime cacheTasks =
      (cacheTasks.map Node.time).sum := by
    rw [hcache.totalTaskExecutionTime_eq hP hcacheFits, totalTime_eq_sum_time]
  have hwfdEnergy : calculateEnergyConsumption wfdTasks =
      (clones.map Node.plannedEnergy).sum := by
    rw [hwfd.energyConsumption_eq hP hwfdFits,
      plannedEnergy_of_sameTimes hwfd.simulated htimes]
  have hcacheEnergy := hcache.energyConsumption_eq hP hcacheFits
  have hboth := (List.forall₂_and_left clones cacheTasks).mpr ⟨hproper, hcached⟩
  constructor
  case total_le =>
    refine (hcacheTotal.trans_le ?_).trans_eq hwfdTotal.symm
    exact sum_map_le_of_forall₂ hcached.flip fun _ _ htask => htask.time.1
  case total_ge =>
    have hsum := sum_map_le_of_forall₂ hcached fun _ _ htask => htask.time.2
    rw [sum_map_two_mul_add, one_mul, hlength, ← hwfdTotal, ← hcacheTotal] at hsum
    exact hsum
  case energy_le =>
    refine (hcacheEnergy.trans_le ?_).trans_eq hwfdEnergy.symm
    exact sum_map_le_of_forall₂ hboth.flip fun _ _ htask => (htask.2.plannedEnergy htask.1).1
  case energy_ge =>
    have hsum := sum_map_le_of_forall₂ hboth fun _ _ htask =>
      (htask.2.plannedEnergy htask.1).2
    rw [sum_map_two_mul_add, hlength, ← hwfdEnergy, ← hcacheEnergy] at hsum
    exact hsum

/-! ## The tasks of the experiment -/

/-- A clone of a task with weights needs what the task does. -/
theorem cloneTask_sameNeeds {task : Node} (hweights : task.hasWeights = true) (drawn : Drawn) :
    SameNeeds task (cloneTask drawn task) := by
  unfold cloneTask
  cases hsome : task.weights with
  | none =>
      unfold Node.hasWeights at hweights
      rw [hsome] at hweights
      cases hweights
  | some weights => exact ⟨rfl, hsome.symm⟩

theorem cloneTasks_sameNeeds (hweights : ∀ task ∈ original, task.hasWeights = true)
    (drawn : Nat → Drawn) : List.Forall₂ SameNeeds original (cloneTasks drawn original) := by
  apply List.forall₂_iff_get.mpr
  refine ⟨by simp [cloneTasks], ?_⟩
  intro i hi hi'
  unfold cloneTasks
  simp only [List.get_eq_getElem, List.getElem_mapIdx]
  exact cloneTask_sameNeeds (hweights _ (List.getElem_mem hi)) (drawn i)

/-- A clone uses the caches if its task does. -/
theorem Node.UsesCache.cloneTask {task : Node} (h : task.UsesCache) (drawn : Drawn) :
    (Simu.cloneTask drawn task).UsesCache := by
  have hsame := cloneTask_sameNeeds h.hasWeights drawn
  refine ⟨⟨h.toProper.cloneTask drawn, ?_⟩, ?_⟩
  · intro i
    rw [hsame.weight]
    exact h.weight_le_one i
  · rw [hsame.weight, hsame.weight, hsame.weight]
    exact h.used

theorem usesCache_of_mem_cloneTasks (huses : ∀ task ∈ original, task.UsesCache)
    (drawn : Nat → Drawn) : ∀ task ∈ cloneTasks drawn original, task.UsesCache := by
  intro task htask
  rcases List.mem_mapIdx.mp htask with ⟨i, hi, rfl⟩
  exact (huses _ (List.getElem_mem hi)).cloneTask (drawn i)

/-- The generated tasks use the caches. -/
theorem CacheIntensive.usesCache {cores taskId : ℕ} {isHighSensitivity : Bool} {task : Node}
    (h : CacheIntensive cores taskId isHighSensitivity task) : task.UsesCache := by
  rcases h.weights with ⟨l1, l2, l3, memory, hweights, hone, h1, h2, h3, hmemory, _⟩
  refine ⟨⟨h.proper, ?_⟩, Or.inl ?_⟩
  · intro i
    rcases Node.weight_eq_zero_or_mem hweights i with hzero | hmem
    · rw [hzero]
      exact zero_le_one
    · simp only [List.mem_cons, List.not_mem_nil, or_false] at hmem
      rcases hmem with heq | heq | heq | heq
      all_goals rw [heq]; linarith
  · have hfirst : task.weight 0 = l1 := by
      unfold Node.weight
      rw [hweights]
      rfl
    rw [hfirst]
    exact (h1.trans' (by norm_num)).ne'

/-- The second simulation of a test case: its schedule and what it enters. -/
theorem cacheAwareTest_spec (drawn : Nat → Drawn) (s : Statics)
    (huses : ∀ task ∈ original, task.UsesCache) (hlength : original.length < 2 ^ 31) :
    ∃ st cacheTasks,
      cacheAwareTest drawn s original = .ok ({ s with cacheAware := st }, cacheTasks) ∧
      Scheduled cores (fun _ => 0) (cloneTasks drawn original) cacheTasks ∧
      Accounted cores st cacheTasks ∧
      List.Forall₂ Cached (cloneTasks drawn original) cacheTasks := by
  have hcores : 1 ≤ cores := by decide
  have hclones := usesCache_of_mem_cloneTasks huses drawn
  have hsame : (cloneTasks drawn original).length = original.length := by simp [cloneTasks]
  rcases simulate_cached hcores (by decide) hclones (hsame ▸ hlength) with
    ⟨st, cacheTasks, hrun, haccounted, hcached⟩
  rcases simulateCacheAwareAllocation_scheduled hcores CacheAwareState.Reachable.resetState
    fun task htask => (hclones task htask).toProper with ⟨st', tasks', hrun', hscheduled⟩
  have hend : (st', tasks') = (st, cacheTasks) := Except.ok.inj (hrun'.symm.trans hrun)
  rw [(Prod.mk.inj hend).2] at hscheduled
  refine ⟨st, cacheTasks, ?_, hscheduled, haccounted, hcached⟩
  unfold cacheAwareTest
  dsimp only
  rw [hrun]

/-! ## The hit ratio of the baseline -/

/-- The weighted mean of ratios that have a common bound. -/
theorem weightedHitRatio_le {hitRatio : Node → ℚ} {c : ℚ}
    (hweight : ∀ task ∈ tasks, 0 ≤ task.levelWeight) (hratio : ∀ task ∈ tasks, hitRatio task ≤ c) :
    (tasks.foldl (weightedHitRatioRound hitRatio) (0, 0)).1 ≤
      c * (tasks.foldl (weightedHitRatioRound hitRatio) (0, 0)).2 := by
  rw [foldl_weightedHitRatioRound]
  dsimp only
  rw [← List.sum_map_mul_left]
  apply List.sum_le_sum
  intro task htask
  have hmem := List.mem_of_mem_filter htask
  exact mul_le_mul_of_nonneg_right (hratio task hmem) (hweight task hmem)

/-- What {lit}`WFD` is said to hit of a task whose weights add up to at most 1. -/
theorem wfdEstimate_le {task : Node} (hproper : task.Proper) (hone : task.levelWeight ≤ 1) :
    wfdEstimate task ≤ 0.54 := by
  have h0 := hproper.weight_nonneg 0
  have h1 := hproper.weight_nonneg 1
  have h2 := hproper.weight_nonneg 2
  have hbase : task.weight 0 * 0.6 + task.weight 1 * 0.5 + task.weight 2 * 0.4 ≤ 0.6 := by
    unfold Node.levelWeight at hone
    linarith
  have hfactor : 0 ≤ 0.8 + task.sensitivity * 0.2 := by
    linarith [hproper.sensitivity_nonneg]
  have hfactor' : 0.8 + task.sensitivity * 0.2 ≤ 1 := by
    linarith [hproper.sensitivity_le_one]
  have hadjusted := mul_le_mul hbase hfactor' hfactor (by norm_num)
  unfold wfdEstimate
  dsimp only
  linarith

/-- The hit ratio the analyzer reports for {lit}`WFD` is that of the tasks before they are
scheduled: no load, no placement and no draw of the clones changes it, and it is at most
0.54. -/
theorem wfdHitRatio_unscheduled (hP : 1 ≤ P) (drawn : Nat → Drawn)
    (processorLoads : WFD.Loads) (hproper : ∀ task ∈ original, task.Proper)
    (hone : ∀ task ∈ original, task.levelWeight ≤ 1) :
    ∃ processorLoads' tasks',
      simulateWFDAllocation (cloneTasks drawn original) (generateProcessorList P)
        processorLoads = .ok (processorLoads', tasks') ∧
      calculateCacheHitRatio tasks' "WFD" = calculateCacheHitRatio original "WFD" ∧
      0.3 ≤ calculateCacheHitRatio tasks' "WFD" ∧
      calculateCacheHitRatio tasks' "WFD" ≤ 0.54 := by
  rcases simulateWFDAllocation_scheduled hP processorLoads fun task htask =>
    (proper_of_mem_cloneTasks hproper drawn task htask).toInt_nonneg with
    ⟨processorLoads', tasks', hrun, hscheduled⟩
  have hclones := calculateWFDCacheHitRatio_congr
    (cloneTasks_sameNeeds (fun task htask => (hproper task htask).hasWeights) drawn)
  have hkept := calculateWFDCacheHitRatio_congr
    (hscheduled.simulated.imp fun _ _ htask => htask.sameNeeds)
  have hratio := hkept.trans hclones
  refine ⟨processorLoads', tasks', hrun, ?_⟩
  rw [calculateCacheHitRatio_wfd, calculateCacheHitRatio_wfd, hratio]
  refine ⟨rfl, (calculateWFDCacheHitRatio_bounds original).1, ?_⟩
  have hmean := weightedHitRatio_le (fun task htask => by
    have h0 := (hproper task htask).weight_nonneg 0
    have h1 := (hproper task htask).weight_nonneg 1
    have h2 := (hproper task htask).weight_nonneg 2
    exact (by unfold Node.levelWeight; positivity : 0 ≤ task.levelWeight))
    fun task htask => wfdEstimate_le (hproper task htask) (hone task htask)
  unfold calculateWFDCacheHitRatio
  dsimp only
  refine max_le (by norm_num) ((min_le_left _ _).trans ?_)
  split
  · rename_i hpos
    exact (div_le_iff₀ hpos).mpr hmean
  · norm_num

/-- The ratio of a single task on two processors. -/
theorem wfdHitRatio_unscheduled_unitTask :
    ∃ processorLoads' tasks',
      simulateWFDAllocation (cloneTasks (fun _ => ⟨100, 0, [0, 0, 0, 0]⟩) [unitTask])
        (generateProcessorList 2) (fun _ => 0) = .ok (processorLoads', tasks') ∧
      calculateCacheHitRatio tasks' "WFD" = calculateCacheHitRatio [unitTask] "WFD" := by
  have hunit : ∀ task ∈ [unitTask], task = unitTask := fun task => List.mem_singleton.mp
  have hone : unitTask.levelWeight ≤ 1 := by decide +kernel
  rcases wfdHitRatio_unscheduled (by decide : 1 ≤ 2) (fun _ => ⟨100, 0, [0, 0, 0, 0]⟩)
    (fun _ => 0) (fun task htask => hunit task htask ▸ unitTask_proper)
    (fun task htask => hunit task htask ▸ hone) with ⟨loads, tasks', hrun, hratio, _⟩
  exact ⟨loads, tasks', hrun, hratio⟩

end Simu
end YatCasched
