import YatCasched.Simu.TimeMetrics

/-!
# Response times

{lit}`PerformanceAnalyzer` measures the response time of a task from its field
{lit}`release`.  The constructor of {lit}`Node` sets that field to -1 and nothing assigns
it afterwards, so the mean response time of clones is their mean finishing time plus one.

Main results:

- Theorem {lit}`Scheduled.averageResponseTime_eq`: the mean response time of a schedule.
- Theorem {lit}`responseTime_asFromZero_iff`: when it is that of tasks available from time 0.
- Theorem {lit}`not_asFromZero_cloneTasks`: never for clones.
-/

namespace YatCasched
namespace Simu

/-! ## The metric -/

/-- {lit}`task.finishAt - task.release`, as a {lit}`double`. -/
def Node.response (task : Node) : ℚ :=
  (task.finishAt - task.release).toInt

/-- One round of the loop of {lit}`calculateAverageResponseTime`, on the time and the
number of valid tasks. -/
def averageResponseTimeRound (total : ℚ × Nat) (task : Node) : ℚ × Nat :=
  if task.HasRun then (total.1 + task.response, total.2 + 1) else total

/-- {lit}`calculateAverageResponseTime`. -/
def calculateAverageResponseTime (tasks : List Node) : ℚ :=
  if tasks.isEmpty then
    0
  else
    let total := tasks.foldl averageResponseTimeRound (0, 0)
    if total.2 > 0 then total.1 / total.2 else 0

/-- The finishing time as a {lit}`double`. -/
def Node.finishTime (task : Node) : ℚ :=
  task.finishAt.toInt

/-- The release times add up to {lit}`totalRelease`. -/
def totalRelease (tasks : List Node) : Int :=
  (tasks.map fun task => task.release.toInt).sum

/-- The mean response time of tasks that are available from time 0. -/
structure ResponsesFromZero (P : Nat) (tasks : List Node) : Prop where
  eq_mean : calculateAverageResponseTime tasks = mean (tasks.map Node.finishTime)
  average_le : calculateAverageTaskExecutionTime tasks ≤ calculateAverageResponseTime tasks
  le_makespan : calculateAverageResponseTime tasks ≤ calculateMakespan tasks P

/-- No response time leaves the range of a {lit}`long`. -/
def ResponsesFit (tasks : List Node) : Prop :=
  ∀ task ∈ tasks, task.finishAt.toInt - task.release.toInt < 2 ^ 63

instance (tasks : List Node) : Decidable (ResponsesFit tasks) :=
  inferInstanceAs (Decidable (∀ task ∈ tasks, _))

/-! ## The response times of a schedule -/

variable {P : Nat} {busy : ProcId → Int64} {tasks tasks' : List Node}

/-- If all tasks have run, the loop adds up all response times. -/
theorem foldl_averageResponseTimeRound (hrun : ∀ task ∈ tasks, task.HasRun) :
    tasks.foldl averageResponseTimeRound (0, 0) =
      ((tasks.map Node.response).sum, tasks.length) := by
  induction tasks using List.reverseRecOn with
  | nil => simp
  | append_singleton tasks task ih =>
      have htask : task.HasRun := hrun task (by simp)
      rw [List.foldl_append, ih fun t ht => hrun t (List.mem_append_left _ ht)]
      simp [averageResponseTimeRound, htask]

/-- Then the metric is the mean of the response times. -/
theorem calculateAverageResponseTime_of_hasRun (hne : tasks ≠ [])
    (hrun : ∀ task ∈ tasks, task.HasRun) :
    calculateAverageResponseTime tasks = mean (tasks.map Node.response) := by
  unfold calculateAverageResponseTime mean
  rw [if_neg (by simpa using hne), foldl_averageResponseTimeRound hrun]
  dsimp only
  rw [if_pos (List.length_pos_of_ne_nil hne), List.length_map]

/-- So is the mean execution time the mean of the times the tasks were running. -/
theorem calculateAverageTaskExecutionTime_of_hasRun (hne : tasks ≠ [])
    (hrun : ∀ task ∈ tasks, task.HasRun) :
    calculateAverageTaskExecutionTime tasks = mean (tasks.map Node.elapsed) := by
  rcases foldl_rounds_of_hasRun hrun with ⟨_, _, haverage⟩
  unfold calculateAverageTaskExecutionTime mean
  rw [if_neg (by simpa using hne), haverage]
  dsimp only
  rw [if_pos (List.length_pos_of_ne_nil hne), List.length_map]
  rfl

/-- A simulation leaves the release times alone. -/
theorem Scheduled.totalRelease_eq (h : Scheduled P busy tasks tasks') :
    totalRelease tasks' = totalRelease tasks := by
  induction h with
  | nil => rfl
  | @cons busy task marked tasks tasks' p _ hmarked _ ih =>
      have hrelease : (scheduledTask busy marked p).release = task.release :=
        (congrArg Node.release hmarked.same).symm
      simp only [totalRelease, List.map_cons, List.sum_cons] at ih ⊢
      rw [hrelease, ih]

theorem Scheduled.length_eq (h : Scheduled P busy tasks tasks') :
    tasks'.length = tasks.length :=
  h.simulated.length_eq.symm

theorem Scheduled.ne_nil (h : Scheduled P busy tasks tasks') (hne : tasks ≠ []) :
    tasks' ≠ [] := by
  apply List.ne_nil_of_length_pos
  rw [h.length_eq]
  exact List.length_pos_of_ne_nil hne

/-- Means of numbers are ordered if the numbers are. -/
theorem mean_map_le_mean_map {f g : Node → ℚ} (h : ∀ task ∈ tasks, f task ≤ g task) :
    mean (tasks.map f) ≤ mean (tasks.map g) := by
  unfold mean
  rw [List.length_map, List.length_map]
  exact div_le_div_of_nonneg_right (List.sum_le_sum h) (Nat.cast_nonneg _)

/-- The mean of numbers that are not greater than a bound. -/
theorem mean_map_le {f : Node → ℚ} {bound : ℚ} (hne : tasks ≠ [])
    (h : ∀ task ∈ tasks, f task ≤ bound) : mean (tasks.map f) ≤ bound := by
  have hlength : (0 : ℚ) < tasks.length := by
    exact_mod_cast List.length_pos_of_ne_nil hne
  have hsum := List.sum_le_card_nsmul (tasks.map f) bound fun x hx => by
    rcases List.mem_map.mp hx with ⟨task, htask, rfl⟩
    exact h task htask
  rw [List.length_map, nsmul_eq_mul] at hsum
  unfold mean
  rw [List.length_map, div_le_iff₀ hlength, mul_comm]
  exact hsum

section Responses

variable (h : Scheduled P (fun _ => 0) tasks tasks') (hP : P ≤ 2 ^ 31)
  (hfits : NoOverflow P tasks')

include h hP hfits

/-- The mean response time of a schedule: the mean finishing time less the mean release
time. -/
theorem Scheduled.averageResponseTime_eq (hne : tasks ≠ []) (hresponses : ResponsesFit tasks') :
    calculateAverageResponseTime tasks' =
      mean (tasks'.map Node.finishTime) - totalRelease tasks / tasks.length := by
  have hrun := h.hasRun hP hfits
  have hne' := h.ne_nil hne
  have hfinish : ∀ task ∈ tasks',
      task.finishTime = task.response + (task.release.toInt : ℚ) := by
    intro task htask
    unfold Node.response Node.finishTime
    rw [MachineInt.toInt_sub_of_lt (hrun task htask).2 (hresponses task htask)]
    push_cast
    ring
  have hsum : (tasks'.map Node.finishTime).sum =
      (tasks'.map Node.response).sum + totalRelease tasks := by
    rw [List.map_congr_left hfinish, List.sum_map_add, ← h.totalRelease_eq]
    unfold totalRelease
    rw [Int.cast_list_sum, List.map_map]
    rfl
  rw [calculateAverageResponseTime_of_hasRun hne' hrun]
  unfold mean
  rw [List.length_map, List.length_map, hsum, h.length_eq, add_div]
  ring

/-- On average a task ends no earlier than after its execution time. -/
theorem Scheduled.average_le_mean_finishTime (hne : tasks' ≠ []) :
    calculateAverageTaskExecutionTime tasks' ≤ mean (tasks'.map Node.finishTime) := by
  rw [calculateAverageTaskExecutionTime_of_hasRun hne (h.hasRun hP hfits)]
  apply mean_map_le_mean_map
  intro task htask
  rcases h.duration_of_noOverflow hP hfits task htask with ⟨hstart, _, hfinish⟩
  rw [h.elapsed_eq task htask]
  unfold Node.finishTime
  exact_mod_cast (by omega : task.expectedET.toInt ≤ task.finishAt.toInt)

omit hfits in
/-- On average a task does not end after the makespan. -/
theorem Scheduled.mean_finishTime_le_makespan (hne : tasks' ≠ []) :
    mean (tasks'.map Node.finishTime) ≤ calculateMakespan tasks' P :=
  mean_map_le hne (calculateMakespan_spec fun task htask => (h.placed hP task htask).2).1

/-- The mean response time is that of tasks available from time 0 exactly if the
release times add up to 0. -/
theorem Scheduled.responsesFromZero_iff (hne : tasks ≠ []) (hresponses : ResponsesFit tasks') :
    ResponsesFromZero P tasks' ↔ totalRelease tasks = 0 := by
  have heq := h.averageResponseTime_eq hP hfits hne hresponses
  have hlength : (0 : ℚ) < tasks.length := by
    exact_mod_cast List.length_pos_of_ne_nil hne
  have hne' := h.ne_nil hne
  constructor
  · intro hzero
    have hquotient : (totalRelease tasks : ℚ) / tasks.length = 0 := by
      rw [hzero.eq_mean] at heq
      linarith
    rcases div_eq_zero_iff.mp hquotient with hrelease | hnone
    · exact_mod_cast hrelease
    · exact absurd hnone hlength.ne'
  · intro hrelease
    have hmean : calculateAverageResponseTime tasks' = mean (tasks'.map Node.finishTime) := by
      rw [heq, hrelease]
      simp
    refine ⟨hmean, ?_, ?_⟩
    · rw [hmean]
      exact h.average_le_mean_finishTime hP hfits hne'
    · rw [hmean]
      exact h.mean_finishTime_le_makespan hP hne'

end Responses

/-! ## Both simulations -/

/-- For whatever either simulation produces from any state that earlier calls can leave:
if the finishing times ({lit}`NoOverflow`) and the response times ({lit}`ResponsesFit`)
fit, the mean response time is that of tasks available from time 0 exactly if the release
times of the given tasks add up to 0. -/
theorem responseTime_asFromZero_iff {P : Nat} (hP : 1 ≤ P) (hint : P < 2 ^ 31) :
    (∀ (processorLoads : WFD.Loads) (tasks : List Node),
        (∀ task ∈ tasks, 0 ≤ task.expectedET.toInt) →
      ∃ processorLoads' tasks',
        simulateWFDAllocation tasks (generateProcessorList P) processorLoads =
          .ok (processorLoads', tasks') ∧
        (tasks ≠ [] → NoOverflow P tasks' → ResponsesFit tasks' →
          (ResponsesFromZero P tasks' ↔ totalRelease tasks = 0))) ∧
    ∀ (st : CacheAwareState) (tasks : List Node), st.Reachable → (∀ task ∈ tasks, task.Proper) →
      ∃ st' tasks',
        simulateCacheAwareAllocation tasks (generateProcessorList P) st = .ok (st', tasks') ∧
        (tasks ≠ [] → NoOverflow P tasks' → ResponsesFit tasks' →
          (ResponsesFromZero P tasks' ↔ totalRelease tasks = 0)) :=
  simulations_of_scheduled hP fun _ _ hscheduled hne hfits hresponses =>
    hscheduled.responsesFromZero_iff hint.le hfits hne hresponses

/-- A task with release time 0. -/
def releasedTask : Node :=
  { unitTask with release := 0 }

/-- With the release times set the metric is right, and as the constructor leaves them it
is not. -/
theorem responseTime_asFromZero_iff_unitTasks :
    (∃ processorLoads' tasks',
      simulateWFDAllocation [releasedTask, releasedTask] (generateProcessorList 2)
        WFD.resetLoads = .ok (processorLoads', tasks') ∧ ResponsesFromZero 2 tasks') ∧
    ∃ st' tasks',
      simulateCacheAwareAllocation [unitTask, unitTask] (generateProcessorList 2)
        CacheAwareState.resetState = .ok (st', tasks') ∧ ¬ResponsesFromZero 2 tasks' := by
  have htasks : ∀ task ∈ [unitTask, unitTask], task = unitTask := by simp
  have hiff := responseTime_asFromZero_iff one_le_two (by norm_num : (2 : Nat) < 2 ^ 31)
  constructor
  · rcases hiff.1 WFD.resetLoads [releasedTask, releasedTask] (by decide) with
      ⟨processorLoads', tasks', hrun, hmetric⟩
    rcases Run.of_all_ok (P := fun r => NoOverflow 2 r.2 ∧ ResponsesFit r.2) hrun
      (by decide +kernel) with ⟨hfits, hresponses⟩
    exact ⟨processorLoads', tasks', hrun,
      (hmetric (by simp) hfits hresponses).mpr (by decide)⟩
  · rcases hiff.2 CacheAwareState.resetState [unitTask, unitTask] .resetState
      (fun task htask => by rw [htasks task htask]; exact unitTask_proper) with
        ⟨st', tasks', hrun, hmetric⟩
    rcases Run.of_all_ok (P := fun r => NoOverflow 2 r.2 ∧ ResponsesFit r.2) hrun
      (by decide +kernel) with ⟨hfits, hresponses⟩
    refine ⟨st', tasks', hrun, fun hzero => ?_⟩
    exact absurd ((hmetric (by simp) hfits hresponses).mp hzero) (by decide)

/-- One task of one unit of time: its mean response time is longer than the makespan. -/
theorem responseTime_exceedsMakespan :
    (∃ processorLoads' tasks',
      simulateWFDAllocation [unitTask] (generateProcessorList 1) WFD.resetLoads =
        .ok (processorLoads', tasks') ∧
      calculateMakespan tasks' 1 < calculateAverageResponseTime tasks') ∧
    ∃ st' tasks',
      simulateCacheAwareAllocation [unitTask] (generateProcessorList 1)
        CacheAwareState.resetState = .ok (st', tasks') ∧
      calculateMakespan tasks' 1 < calculateAverageResponseTime tasks' := by
  have htasks : ∀ task ∈ [unitTask], task = unitTask := by simp
  constructor
  · rcases simulateWFDAllocation_scheduled le_rfl WFD.resetLoads
      (by decide : ∀ task ∈ [unitTask], 0 ≤ task.expectedET.toInt) with
        ⟨processorLoads', tasks', hrun, _⟩
    have hexceeds := Run.of_all_ok
      (P := fun r => calculateMakespan r.2 1 < calculateAverageResponseTime r.2) hrun
      (by decide +kernel)
    exact ⟨processorLoads', tasks', hrun, hexceeds⟩
  · rcases simulateCacheAwareAllocation_scheduled le_rfl .resetState
      (fun task htask => by rw [htasks task htask]; exact unitTask_proper) with
        ⟨st', tasks', hrun, _⟩
    have hexceeds := Run.of_all_ok
      (P := fun r => calculateMakespan r.2 1 < calculateAverageResponseTime r.2) hrun
      (by decide +kernel)
    exact ⟨st', tasks', hrun, hexceeds⟩

/-! ## Clones -/

theorem totalRelease_cloneTasks (drawn : Nat → Drawn) (original : List Node) :
    totalRelease (cloneTasks drawn original) = -original.length := by
  have hmap : (cloneTasks drawn original).map (fun task => task.release.toInt) =
      List.replicate original.length (-1) := by
    unfold cloneTasks
    apply List.ext_getElem
    · simp
    · intro i _ _
      simp [cloneTask_release]
  unfold totalRelease
  rw [hmap, List.sum_replicate]
  simp

/-- The mean response time of scheduled clones is one more than their mean finishing time,
so it is not that of tasks available from time 0. -/
theorem Scheduled.averageResponseTime_cloneTasks {drawn : Nat → Drawn} {original : List Node}
    (h : Scheduled P (fun _ => 0) (cloneTasks drawn original) tasks') (hP : P ≤ 2 ^ 31)
    (hne : original ≠ []) (hfits : NoOverflow P tasks') (hresponses : ResponsesFit tasks') :
    calculateAverageResponseTime tasks' = mean (tasks'.map Node.finishTime) + 1 ∧
      ¬ResponsesFromZero P tasks' := by
  have hlength : (cloneTasks drawn original).length = original.length := by
    simp [cloneTasks]
  have hpos : 0 < original.length := List.length_pos_of_ne_nil hne
  have hne' : cloneTasks drawn original ≠ [] := by
    apply List.ne_nil_of_length_pos
    rw [hlength]
    exact hpos
  constructor
  · have hcast : ((original.length : Nat) : ℚ) ≠ 0 := by exact_mod_cast hpos.ne'
    rw [h.averageResponseTime_eq hP hfits hne' hresponses, totalRelease_cloneTasks, hlength]
    push_cast
    rw [neg_div, div_self hcast]
    ring
  · rw [h.responsesFromZero_iff hP hfits hne' hresponses, totalRelease_cloneTasks]
    omega

/-- So the metric is never right for clones, whatever simulation they go through. -/
theorem not_asFromZero_cloneTasks {P : Nat} (hP : 1 ≤ P) (hint : P < 2 ^ 31)
    (drawn : Nat → Drawn) {original : List Node} (hne : original ≠ [])
    (hproper : ∀ task ∈ original, task.Proper) :
    (∀ processorLoads : WFD.Loads, ∃ processorLoads' tasks',
      simulateWFDAllocation (cloneTasks drawn original) (generateProcessorList P)
        processorLoads = .ok (processorLoads', tasks') ∧
      (NoOverflow P tasks' → ResponsesFit tasks' →
        calculateAverageResponseTime tasks' = mean (tasks'.map Node.finishTime) + 1 ∧
          ¬ResponsesFromZero P tasks')) ∧
    ∀ st : CacheAwareState, st.Reachable → ∃ st' tasks',
      simulateCacheAwareAllocation (cloneTasks drawn original) (generateProcessorList P) st =
        .ok (st', tasks') ∧
      (NoOverflow P tasks' → ResponsesFit tasks' →
        calculateAverageResponseTime tasks' = mean (tasks'.map Node.finishTime) + 1 ∧
          ¬ResponsesFromZero P tasks') := by
  have hclones := proper_of_mem_cloneTasks hproper drawn
  constructor
  · intro processorLoads
    rcases simulateWFDAllocation_scheduled hP processorLoads
      fun task htask => (hclones task htask).toInt_nonneg with
        ⟨processorLoads', tasks', hrun, hscheduled⟩
    exact ⟨processorLoads', tasks', hrun,
      hscheduled.averageResponseTime_cloneTasks hint.le hne⟩
  · intro st hst
    rcases simulateCacheAwareAllocation_scheduled hP hst hclones with
      ⟨st', tasks', hrun, hscheduled⟩
    exact ⟨st', tasks', hrun, hscheduled.averageResponseTime_cloneTasks hint.le hne⟩

end Simu
end YatCasched
