import YatCasched.Simu.ListSchedule

/-!
# Time metrics

{lit}`PerformanceAnalyzer` computes the makespan, the CPU utilisation and the total and
mean execution times in separate loops, each with its own test for the tasks that count.
In a schedule all tasks count in all of them, the processors are never idle before they
are done, and the metrics fit together.

Main results:

- Theorem {lit}`sum_timeOn`: the processors share the execution times.
- Theorem {lit}`Scheduled.timeMetrics`: the metrics of a schedule.
- Theorem {lit}`timeMetrics_consistent`: so those of both simulations.
-/

namespace YatCasched
namespace Simu

/-! ## The metrics -/

/-- {lit}`task.start >= 0 && task.finishAt >= 0`. -/
def Node.HasRun (task : Node) : Prop :=
  0 ≤ task.start.toInt ∧ 0 ≤ task.finishAt.toInt

instance (task : Node) : Decidable task.HasRun :=
  inferInstanceAs (Decidable (_ ∧ _))

/-- {lit}`task.finishAt - task.start`, as a {lit}`double`. -/
def Node.elapsed (task : Node) : ℚ :=
  (task.finishAt - task.start).toInt

/-- One round of the loop of {lit}`calculateCpuUtilization`. -/
def cpuUtilizationRound (totalExecutionTime : ℚ) (task : Node) : ℚ :=
  if task.HasRun then totalExecutionTime + task.elapsed else totalExecutionTime

/-- {lit}`calculateCpuUtilization`. -/
def calculateCpuUtilization (tasks : List Node) (processorCount : Nat) : ℚ :=
  if tasks.isEmpty then
    0
  else
    let totalMakespan := calculateMakespan tasks processorCount
    let totalExecutionTime := tasks.foldl cpuUtilizationRound 0
    let totalAvailableTime := totalMakespan * processorCount
    if totalAvailableTime > 0 then totalExecutionTime / totalAvailableTime else 0

/-- One round of the loop of {lit}`calculateTotalTaskExecutionTime`. -/
def totalTaskExecutionTimeRound (totalExecutionTime : ℚ) (task : Node) : ℚ :=
  if task.HasRun then totalExecutionTime + task.elapsed
  else if 0 < task.expectedET then totalExecutionTime + task.time
  else totalExecutionTime

/-- {lit}`calculateTotalTaskExecutionTime`. -/
def calculateTotalTaskExecutionTime (tasks : List Node) : ℚ :=
  tasks.foldl totalTaskExecutionTimeRound 0

/-- One round of the loop of {lit}`calculateAverageTaskExecutionTime`, on the time and
the number of valid tasks. -/
def averageTaskExecutionTimeRound (total : ℚ × Nat) (task : Node) : ℚ × Nat :=
  if task.HasRun then (total.1 + task.elapsed, total.2 + 1)
  else if 0 < task.expectedET then (total.1 + task.time, total.2 + 1)
  else total

/-- {lit}`calculateAverageTaskExecutionTime`. -/
def calculateAverageTaskExecutionTime (tasks : List Node) : ℚ :=
  if tasks.isEmpty then
    0
  else
    let total := tasks.foldl averageTaskExecutionTimeRound (0, 0)
    if total.2 > 0 then total.1 / total.2 else 0

/-- What the metrics of tasks on {lit}`P` processors have to do with each other. -/
structure TimeMetrics (P : Nat) (tasks : List Node) : Prop where
  total_eq : calculateTotalTaskExecutionTime tasks =
    (tasks.map fun task => (task.finishAt.toInt : ℚ) - task.start.toInt).sum
  average_mul : calculateAverageTaskExecutionTime tasks * tasks.length =
    calculateTotalTaskExecutionTime tasks
  utilization_mul : calculateCpuUtilization tasks P * P * calculateMakespan tasks P =
    calculateTotalTaskExecutionTime tasks
  utilization_pos : 0 < calculateCpuUtilization tasks P
  utilization_le_one : calculateCpuUtilization tasks P ≤ 1
  mean_le_makespan : calculateTotalTaskExecutionTime tasks / P ≤ calculateMakespan tasks P
  makespan_le_total : calculateMakespan tasks P ≤ calculateTotalTaskExecutionTime tasks

/-! ## Tasks that have run -/

/-- The times the tasks were running add up to {lit}`elapsedTime`. -/
def elapsedTime (tasks : List Node) : ℚ :=
  (tasks.map Node.elapsed).sum

variable {tasks tasks' : List Node}

/-- If all tasks have run, each of the three loops adds up the same times. -/
theorem foldl_rounds_of_hasRun (hrun : ∀ task ∈ tasks, task.HasRun) :
    tasks.foldl cpuUtilizationRound 0 = elapsedTime tasks ∧
      tasks.foldl totalTaskExecutionTimeRound 0 = elapsedTime tasks ∧
      tasks.foldl averageTaskExecutionTimeRound (0, 0) = (elapsedTime tasks, tasks.length) := by
  induction tasks using List.reverseRecOn with
  | nil => exact ⟨rfl, rfl, rfl⟩
  | append_singleton tasks task ih =>
      rcases ih fun t ht => hrun t (List.mem_append_left _ ht) with ⟨hcpu, htotal, haverage⟩
      have htask : task.HasRun := hrun task (by simp)
      have hsum : elapsedTime (tasks ++ [task]) = elapsedTime tasks + task.elapsed := by
        simp [elapsedTime]
      rw [List.foldl_append, List.foldl_append, List.foldl_append, hcpu, htotal, haverage, hsum,
        List.length_append, List.length_singleton]
      exact ⟨if_pos htask, if_pos htask, if_pos htask⟩

/-- Then the mean times the number of tasks is the total. -/
theorem average_mul_of_hasRun (hne : tasks ≠ []) (hrun : ∀ task ∈ tasks, task.HasRun) :
    calculateAverageTaskExecutionTime tasks * tasks.length =
      calculateTotalTaskExecutionTime tasks := by
  rcases foldl_rounds_of_hasRun hrun with ⟨_, htotal, haverage⟩
  have hlength : 0 < tasks.length := List.length_pos_of_ne_nil hne
  unfold calculateAverageTaskExecutionTime calculateTotalTaskExecutionTime
  rw [if_neg (by simpa using hne), haverage, htotal]
  dsimp only
  rw [if_pos hlength, div_mul_cancel₀]
  exact_mod_cast hlength.ne'

/-! ## The processors of a schedule -/

/-- The processors share the execution times of the tasks. -/
theorem sum_timeOn {P : Nat}
    (hplaced : ∀ task ∈ tasks, ∃ p : ProcId, p < P ∧ task.partition.toInt = (p : Int)) :
    ∑ p ∈ Finset.range P, timeOn tasks p = totalTime tasks := by
  induction tasks with
  | nil => simp [timeOn, tasksOn, totalTime]
  | cons task tasks ih =>
      rcases hplaced task List.mem_cons_self with ⟨q, hq, hon⟩
      have hcons : ∀ p : ProcId, timeOn (task :: tasks) p =
          timeOn tasks p + if q = p then task.expectedET.toInt else 0 := by
        intro p
        unfold timeOn
        by_cases hqp : q = p
        · rw [tasksOn_cons_of_eq (hqp ▸ hon), List.map_cons, List.sum_cons, if_pos hqp, add_comm]
        · have hoff : task.partition.toInt ≠ (p : Int) := by
            rw [hon]
            exact_mod_cast hqp
          rw [tasksOn_cons_of_ne hoff, if_neg hqp, add_zero]
      simp only [hcons]
      rw [Finset.sum_add_distrib, Finset.sum_ite_eq, if_pos (Finset.mem_range.mpr hq),
        ih fun t ht => hplaced t (List.mem_cons_of_mem task ht)]
      simp [totalTime, add_comm]

/-- Without gaps the last task ends when the whole time is used, and none ends later. -/
theorem GapFree.bounds {time : Int64} (h : GapFree time tasks)
    (htimes : ∀ task ∈ tasks, 0 ≤ task.expectedET.toInt ∧
      task.finishAt.toInt = task.start.toInt + task.expectedET.toInt) :
    (∀ bound : Int, time.toInt ≤ bound → (∀ task ∈ tasks, task.finishAt.toInt ≤ bound) →
        time.toInt + totalTime tasks ≤ bound) ∧
      ∀ task ∈ tasks, task.finishAt.toInt ≤ time.toInt + totalTime tasks := by
  induction tasks generalizing time with
  | nil => simp [totalTime]
  | cons first tasks ih =>
      rcases h with ⟨hstart, hrest⟩
      have hfirst := htimes first List.mem_cons_self
      rw [hstart] at hfirst
      have hlater := ih hrest fun task htask => htimes task (List.mem_cons_of_mem first htask)
      have hnonneg := totalTime_nonneg fun task htask =>
        (htimes task (List.mem_cons_of_mem first htask)).1
      have hcons : totalTime (first :: tasks) = first.expectedET.toInt + totalTime tasks := by
        simp [totalTime]
      rw [hcons]
      constructor
      · intro bound _ hbound
        have hle := hlater.1 bound (hbound first List.mem_cons_self) fun task htask =>
          hbound task (List.mem_cons_of_mem first htask)
        omega
      · intro task htask
        rcases List.mem_cons.mp htask with rfl | htask
        · omega
        · have hle := hlater.2 task htask
          omega

/-! ## The metrics of a schedule -/

section Metrics

variable {P : Nat} {busy : ProcId → Int64}

/-- A scheduled task has been running for its execution time. -/
theorem Scheduled.elapsed_eq (h : Scheduled P busy tasks tasks') :
    ∀ task ∈ tasks', task.elapsed = task.expectedET.toInt := by
  induction h with
  | nil =>
      intro task htask
      cases htask
  | @cons busy task marked tasks tasks' p _ _ _ ih =>
      intro t ht
      rcases List.mem_cons.mp ht with rfl | ht
      · have hdiff : busy p + marked.expectedET - busy p = marked.expectedET := by grind
        unfold Node.elapsed scheduledTask
        dsimp only
        rw [hdiff]
      · exact ih t ht

/-- So the times the tasks were running are their execution times. -/
theorem Scheduled.elapsedTime_eq (h : Scheduled P busy tasks tasks') :
    elapsedTime tasks' = totalTime tasks' := by
  have hmap : tasks'.map Node.elapsed =
      tasks'.map fun task => ((task.expectedET.toInt : Int) : ℚ) :=
    List.map_congr_left h.elapsed_eq
  unfold elapsedTime totalTime
  rw [hmap, Int.cast_list_sum, List.map_map]
  rfl

/-- The finishing times fit if the given times together do. -/
theorem Scheduled.noOverflow (h : Scheduled P busy tasks tasks') (hP : P ≤ 2 ^ 31)
    (htotal : totalTime tasks < 2 ^ 63) : NoOverflow P tasks' := by
  have hle : totalTime tasks' ≤ totalTime tasks := by
    have hsimulated := h.simulated
    clear h htotal
    induction hsimulated with
    | nil => exact le_rfl
    | @cons task task' tasks tasks' htask _ ih =>
        have hfirst := htask.time_le
        simp only [totalTime, List.map_cons, List.sum_cons] at ih ⊢
        omega
  intro p hp
  have hshare : timeOn tasks' p ≤ totalTime tasks' := by
    rw [← sum_timeOn fun task htask => (h.placed hP task htask).2]
    exact Finset.single_le_sum (fun q _ => h.timeOn_nonneg q) (Finset.mem_range.mpr hp)
  omega

variable (h : Scheduled P (fun _ => 0) tasks tasks') (hP : P ≤ 2 ^ 31)
  (hfits : NoOverflow P tasks')

include h hP hfits

/-- As long as the finishing times fit, they are what they should be. -/
theorem Scheduled.duration_of_noOverflow :
    ∀ task ∈ tasks', 0 ≤ task.start.toInt ∧ 0 ≤ task.expectedET.toInt ∧
      task.finishAt.toInt = task.start.toInt + task.expectedET.toInt := by
  apply h.duration hP fun _ => le_rfl
  intro p hp
  rw [show ((0 : Int64)).toInt = 0 from rfl, zero_add]
  exact hfits p hp

/-- Then all tasks count. -/
theorem Scheduled.hasRun : ∀ task ∈ tasks', task.HasRun := by
  intro task htask
  rcases h.duration_of_noOverflow hP hfits task htask with ⟨hstart, htime, hfinish⟩
  refine ⟨hstart, ?_⟩
  rw [hfinish]
  exact add_nonneg hstart htime

/-- No processor works longer than the makespan. -/
theorem Scheduled.timeOn_le_makespan (p : ProcId) :
    (timeOn tasks' p : ℚ) ≤ calculateMakespan tasks' P := by
  have hspec := calculateMakespan_spec fun task htask => (h.placed hP task htask).2
  have hduration := h.duration_of_noOverflow hP hfits
  have hbounds := (h.gapFree hP p).bounds fun task htask =>
    (hduration task (List.mem_of_mem_filter htask)).2
  have hle := hbounds.1 ⌊calculateMakespan tasks' P⌋ (Int.floor_nonneg.mpr hspec.2.1)
    fun task htask => Int.le_floor.mpr (hspec.1 task (List.mem_of_mem_filter htask))
  rw [show ((0 : Int64)).toInt = 0 from rfl, zero_add] at hle
  exact Int.le_floor.mp hle

/-- The makespan is not longer than all tasks one after the other. -/
theorem Scheduled.makespan_le_totalTime :
    calculateMakespan tasks' P ≤ totalTime tasks' := by
  have hplaced := fun task htask => (h.placed hP task htask).2
  have hduration := h.duration_of_noOverflow hP hfits
  rcases (calculateMakespan_spec hplaced).2.2 with hzero | ⟨task, htask, heq⟩
  · rw [hzero]
    exact_mod_cast totalTime_nonneg fun task htask => (hduration task htask).2.1
  · rcases hplaced task htask with ⟨p, hp, hon⟩
    have hmem : task ∈ tasksOn tasks' p := List.mem_filter.mpr ⟨htask, decide_eq_true hon⟩
    have hfinish := ((h.gapFree hP p).bounds fun t ht =>
      (hduration t (List.mem_of_mem_filter ht)).2).2 task hmem
    rw [show ((0 : Int64)).toInt = 0 from rfl, zero_add] at hfinish
    have hshare : timeOn tasks' p ≤ totalTime tasks' := by
      rw [← sum_timeOn hplaced]
      exact Finset.single_le_sum (fun q _ => h.timeOn_nonneg q) (Finset.mem_range.mpr hp)
    rw [heq]
    exact_mod_cast hfinish.trans hshare

/-- The processors together work no longer than all of them for the makespan. -/
theorem Scheduled.totalTime_le : (totalTime tasks' : ℚ) ≤ P * calculateMakespan tasks' P := by
  rw [← sum_timeOn fun task htask => (h.placed hP task htask).2, Int.cast_sum]
  have hle := Finset.sum_le_card_nsmul (Finset.range P) (fun p => (timeOn tasks' p : ℚ))
    (calculateMakespan tasks' P) fun p _ => h.timeOn_le_makespan hP hfits p
  rw [Finset.card_range, nsmul_eq_mul] at hle
  exact hle

/-- The metrics of a schedule in which some task takes time. -/
theorem Scheduled.timeMetrics
    (hpos : ∃ task ∈ tasks', task.start.toInt < task.finishAt.toInt) : TimeMetrics P tasks' := by
  have hduration := h.duration_of_noOverflow hP hfits
  have hrun := h.hasRun hP hfits
  rcases foldl_rounds_of_hasRun hrun with ⟨hcpu, htotal, _⟩
  have hmean := h.totalTime_le hP hfits
  have htotalTime : calculateTotalTaskExecutionTime tasks' = totalTime tasks' :=
    htotal.trans h.elapsedTime_eq
  rcases hpos with ⟨task, htask, hlt⟩
  have hne : tasks' ≠ [] := List.ne_nil_of_mem htask
  have hmakespan : 0 < calculateMakespan tasks' P := by
    have hle := (calculateMakespan_spec fun t ht => (h.placed hP t ht).2).1 task htask
    have hfinish : 0 < task.finishAt.toInt := (hduration task htask).1.trans_lt hlt
    exact lt_of_lt_of_le (by exact_mod_cast hfinish) hle
  have htime : (0 : ℚ) < totalTime tasks' := hmakespan.trans_le (h.makespan_le_totalTime hP hfits)
  have hprocessors : (0 : ℚ) < P := by
    rcases (h.placed hP task htask).2 with ⟨p, hp, _⟩
    exact_mod_cast (Nat.zero_le p).trans_lt hp
  have hutilization : calculateCpuUtilization tasks' P =
      totalTime tasks' / (calculateMakespan tasks' P * P) := by
    unfold calculateCpuUtilization
    rw [if_neg (by simpa using hne), hcpu, h.elapsedTime_eq]
    exact if_pos (mul_pos hmakespan hprocessors)
  constructor
  case total_eq =>
    rw [htotalTime, ← h.elapsedTime_eq]
    unfold elapsedTime
    congr 1
    apply List.map_congr_left
    intro t ht
    rw [h.elapsed_eq t ht, (hduration t ht).2.2]
    push_cast
    ring
  case average_mul => exact average_mul_of_hasRun hne hrun
  case utilization_mul =>
    rw [hutilization, htotalTime]
    field_simp
  case utilization_pos =>
    rw [hutilization]
    exact div_pos htime (mul_pos hmakespan hprocessors)
  case utilization_le_one =>
    rw [hutilization, div_le_one (mul_pos hmakespan hprocessors), mul_comm]
    exact hmean
  case mean_le_makespan =>
    rw [htotalTime, div_le_iff₀ hprocessors, mul_comm]
    exact hmean
  case makespan_le_total =>
    rw [htotalTime]
    exact h.makespan_le_totalTime hP hfits

end Metrics

/-- The time metrics fit together for whatever either simulation produces from any state
that earlier calls can leave, if some task takes time and the finishing times fit
({lit}`NoOverflow`). -/
theorem timeMetrics_consistent {P : Nat} (hP : 1 ≤ P) (hint : P < 2 ^ 31) :
    (∀ (processorLoads : WFD.Loads) (tasks : List Node),
        (∀ task ∈ tasks, 0 ≤ task.expectedET.toInt) →
      ∃ processorLoads' tasks',
        simulateWFDAllocation tasks (generateProcessorList P) processorLoads =
          .ok (processorLoads', tasks') ∧
        (NoOverflow P tasks' → (∃ task ∈ tasks', task.start.toInt < task.finishAt.toInt) →
          TimeMetrics P tasks')) ∧
    ∀ (st : CacheAwareState) (tasks : List Node), st.Reachable → (∀ task ∈ tasks, task.Proper) →
      ∃ st' tasks',
        simulateCacheAwareAllocation tasks (generateProcessorList P) st = .ok (st', tasks') ∧
        (NoOverflow P tasks' → (∃ task ∈ tasks', task.start.toInt < task.finishAt.toInt) →
          TimeMetrics P tasks') :=
  simulations_of_scheduled hP fun _ _ hscheduled => hscheduled.timeMetrics hint.le

/-- Three tasks of one unit of time on two processors. -/
theorem timeMetrics_consistent_unitTasks :
    (∃ processorLoads' tasks',
      simulateWFDAllocation [unitTask, unitTask, unitTask] (generateProcessorList 2)
        WFD.resetLoads = .ok (processorLoads', tasks') ∧ TimeMetrics 2 tasks') ∧
    ∃ st' tasks',
      simulateCacheAwareAllocation [unitTask, unitTask, unitTask] (generateProcessorList 2)
        CacheAwareState.resetState = .ok (st', tasks') ∧ TimeMetrics 2 tasks' := by
  have htasks : ∀ task ∈ [unitTask, unitTask, unitTask], task = unitTask := by simp
  have hconsistent := timeMetrics_consistent one_le_two (by norm_num : (2 : Nat) < 2 ^ 31)
  constructor
  · rcases hconsistent.1 WFD.resetLoads [unitTask, unitTask, unitTask]
      (fun task htask => by rw [htasks task htask]; decide) with
        ⟨processorLoads', tasks', hrun, hmetrics⟩
    rcases Run.of_all_ok (P := fun r => NoOverflow 2 r.2 ∧
      ∃ task ∈ r.2, task.start.toInt < task.finishAt.toInt) hrun (by decide +kernel) with
        ⟨hfits, hpos⟩
    exact ⟨processorLoads', tasks', hrun, hmetrics hfits hpos⟩
  · rcases hconsistent.2 CacheAwareState.resetState [unitTask, unitTask, unitTask] .resetState
      (fun task htask => by rw [htasks task htask]; exact unitTask_proper) with
        ⟨st', tasks', hrun, hmetrics⟩
    rcases Run.of_all_ok (P := fun r => NoOverflow 2 r.2 ∧
      ∃ task ∈ r.2, task.start.toInt < task.finishAt.toInt) hrun (by decide +kernel) with
        ⟨hfits, hpos⟩
    exact ⟨st', tasks', hrun, hmetrics hfits hpos⟩

end Simu
end YatCasched
