import YatCasched.Lib.Dispersion
import YatCasched.Simu.TimeMetrics

/-!
# The load balance

{lit}`calculateLoadBalance` is one minus the standard deviation of the processors' loads
in units of their mean, and is documented to be between 0 and 1.  That is so exactly if
the load is spread over at least half of the processors; with fewer busy processors the
value is negative.  On one or two processors it always is so, and on more of them there
are tasks for which it is not.

The loads are differences of finishing and starting times.  These wrap together, so the
loads are execution times even where the times themselves have overflowed.

Main results:

- Theorem {lit}`Scheduled.calculateLoadBalance_eq`: the metric of a schedule is the
  evenness of the processors' execution times.
- Theorem {lit}`Scheduled.loadBalance_of_few`: it is out of range with few tasks.
- Theorem {lit}`Coupled.spread`: and in range for a list schedule of short tasks.
- Theorem {lit}`loadBalance_inRange_iff`: it is in range for all tasks on one or two
  processors only.
-/

namespace YatCasched
namespace Simu

open Dispersion (evenness Spread variance)

/-! ## The metric -/

/-- One round of the first loop of {lit}`calculateLoadBalance`. -/
def processorLoadRound (processorCount : Nat) (processorLoads : ProcId → ℚ) (task : Node) :
    ProcId → ℚ :=
  if 0 ≤ task.partition.toInt ∧ task.partition.toInt < processorCount then
    Function.update processorLoads task.partition.toInt.toNat
      (processorLoads task.partition.toInt.toNat + task.elapsed)
  else
    processorLoads

/-- The array {lit}`processorLoads` of {lit}`calculateLoadBalance`. -/
def processorLoads (tasks : List Node) (processorCount : Nat) : ProcId → ℚ :=
  tasks.foldl (processorLoadRound processorCount) fun _ => 0

/-- The value {lit}`avgLoad` of {lit}`calculateLoadBalance`. -/
def avgLoad (processorLoads : ProcId → ℚ) (processorCount : Nat) : ℚ :=
  (List.range processorCount).foldl (fun avgLoad p => avgLoad + processorLoads p) 0 /
    processorCount

/-- The sum {lit}`variance` of {lit}`calculateLoadBalance`. -/
def loadVariance (processorLoads : ProcId → ℚ) (avgLoad : ℚ) (processorCount : Nat) : ℚ :=
  (List.range processorCount).foldl
    (fun variance p => variance + (processorLoads p - avgLoad) ^ 2) 0

/-- {lit}`calculateLoadBalance`, with an exact square root. -/
noncomputable def calculateLoadBalance (tasks : List Node) (processorCount : Nat) : ℝ :=
  let processorLoads := processorLoads tasks processorCount
  let avgLoad := avgLoad processorLoads processorCount
  let variance := loadVariance processorLoads avgLoad processorCount
  let stdDev := √((variance / processorCount : ℚ) : ℝ)
  if avgLoad > 0 then 1 - stdDev / avgLoad else 0

/-! ## The metric as an evenness -/

variable {tasks tasks' : List Node} {P : Nat} {busy : ProcId → Int64}

/-- Adding up over the processors. -/
theorem foldl_range_add (f : ProcId → ℚ) (P : Nat) :
    (List.range P).foldl (fun total p => total + f p) 0 = ∑ p ∈ Finset.range P, f p := by
  induction P with
  | zero => rfl
  | succ P ih => rw [List.range_succ, List.foldl_append, ih, Finset.sum_range_succ]; rfl

/-- The load of a processor is the time its tasks were running. -/
theorem foldl_processorLoadRound {p : ProcId} (hp : p < P) (loads : ProcId → ℚ) :
    tasks.foldl (processorLoadRound P) loads p = loads p + elapsedTime (tasksOn tasks p) := by
  induction tasks generalizing loads with
  | nil => simp [elapsedTime, tasksOn]
  | cons task tasks ih =>
      rw [List.foldl_cons, ih]
      by_cases hon : task.partition.toInt = p
      · have hround : processorLoadRound P loads task p = loads p + task.elapsed := by
          unfold processorLoadRound
          rw [hon, if_pos ⟨by omega, by exact_mod_cast hp⟩, Int.toNat_natCast,
            Function.update_self]
        rw [hround, tasksOn_cons_of_eq hon, add_assoc]
        simp [elapsedTime]
      · have hround : processorLoadRound P loads task p = loads p := by
          unfold processorLoadRound
          split
          · rename_i hrange
            apply Function.update_of_ne
            intro hpt
            exact hon (by rw [hpt, Int.toNat_of_nonneg hrange.1])
          · rfl
        rw [hround, tasksOn_cons_of_ne hon]

/-- In a schedule it is their execution time. -/
theorem Scheduled.processorLoads_eq (h : Scheduled P busy tasks tasks') {p : ProcId}
    (hp : p < P) : processorLoads tasks' P p = timeOn tasks' p := by
  have hmap : (tasksOn tasks' p).map Node.elapsed =
      (tasksOn tasks' p).map fun task => ((task.expectedET.toInt : Int) : ℚ) :=
    List.map_congr_left fun task htask => h.elapsed_eq task (List.mem_of_mem_filter htask)
  unfold processorLoads
  rw [foldl_processorLoadRound hp, zero_add, elapsedTime, hmap, timeOn, Int.cast_list_sum,
    List.map_map]
  rfl

/-- The metric of a schedule is the evenness of the processors' execution times. -/
theorem Scheduled.calculateLoadBalance_eq (h : Scheduled P busy tasks tasks') :
    calculateLoadBalance tasks' P =
      evenness (Finset.range P) fun p => (timeOn tasks' p : ℝ) := by
  have havg : avgLoad (processorLoads tasks' P) P =
      Dispersion.mean (Finset.range P) fun p => (timeOn tasks' p : ℚ) := by
    unfold avgLoad Dispersion.mean
    rw [foldl_range_add, Finset.card_range]
    congr 1
    exact Finset.sum_congr rfl fun p hp => h.processorLoads_eq (Finset.mem_range.mp hp)
  have hvariance : loadVariance (processorLoads tasks' P)
        (avgLoad (processorLoads tasks' P) P) P / P =
      variance (Finset.range P) fun p => (timeOn tasks' p : ℚ) := by
    rw [havg]
    unfold loadVariance variance
    rw [foldl_range_add, Finset.card_range]
    congr 1
    refine Finset.sum_congr rfl fun p hp => ?_
    rw [h.processorLoads_eq (Finset.mem_range.mp hp)]
  have hcast : (fun p => (timeOn tasks' p : ℝ)) = fun p => ((timeOn tasks' p : ℚ) : ℝ) := by
    funext p
    rw [Rat.cast_intCast]
  rw [hcast]
  unfold calculateLoadBalance evenness
  dsimp only
  rw [hvariance, havg, Dispersion.mean_ratCast, Dispersion.variance_ratCast]
  simp only [gt_iff_lt, Rat.cast_pos]

/-- The metric of a schedule is in the documented range exactly if the execution times
are spread over at least half of the processors. -/
theorem Scheduled.loadBalance_mem_Icc_iff (h : Scheduled P busy tasks tasks') (hP : 1 ≤ P) :
    calculateLoadBalance tasks' P ∈ Set.Icc 0 1 ↔
      Spread (Finset.range P) fun p => (timeOn tasks' p : ℝ) := by
  rw [h.calculateLoadBalance_eq]
  apply Dispersion.evenness_mem_Icc_iff
  · exact ⟨0, Finset.mem_range.mpr hP⟩
  · intro p _
    exact_mod_cast h.timeOn_nonneg p

/-- On one or two processors it always is. -/
theorem Scheduled.spread_of_le_two (h : Scheduled P busy tasks tasks') (hP : P ≤ 2) :
    Spread (Finset.range P) fun p => (timeOn tasks' p : ℝ) := by
  apply Dispersion.spread_of_card_le_two
  · intro p _
    exact_mod_cast h.timeOn_nonneg p
  · rw [Finset.card_range]
    exact hP

/-- With more than half of the processors idle, and some work, it is not. -/
theorem Scheduled.not_spread_of_idle (h : Scheduled P busy tasks tasks') (hP : P ≤ 2 ^ 31)
    (hidle : 2 * ((Finset.range P).filter fun p => timeOn tasks' p ≠ 0).card < P)
    (hwork : totalTime tasks' ≠ 0) :
    ¬Spread (Finset.range P) fun p => (timeOn tasks' p : ℝ) := by
  intro hspread
  have hsum : ∑ p ∈ Finset.range P, (timeOn tasks' p : ℝ) ≠ 0 := by
    rw [← Int.cast_sum, sum_timeOn fun task htask => (h.placed hP task htask).2]
    exact_mod_cast hwork
  have hle := hspread.card_le hsum
  simp only [Finset.card_range, ne_eq, Int.cast_eq_zero] at hle
  exact absurd hle (not_le.mpr hidle)

/-! ## Busy processors -/

/-- No more processors are busy than tasks take time. -/
theorem card_busy_le (P : Nat) (tasks : List Node)
    (htimes : ∀ task ∈ tasks, 0 ≤ task.expectedET.toInt) :
    ((Finset.range P).filter fun p => timeOn tasks p ≠ 0).card ≤
      tasks.countP fun task => 0 < task.expectedET.toInt := by
  have hsub : ((Finset.range P).filter fun p => timeOn tasks p ≠ 0) ⊆
      ((tasks.filter fun task => 0 < task.expectedET.toInt).map fun task =>
        task.partition.toInt.toNat).toFinset := by
    intro p hp
    have hbusy : timeOn tasks p ≠ 0 := (Finset.mem_filter.mp hp).2
    rcases List.exists_mem_ne_zero_of_sum_ne_zero hbusy with ⟨time, htime, hne⟩
    rcases List.mem_map.mp htime with ⟨task, htask, rfl⟩
    have hmem : task ∈ tasks := List.mem_of_mem_filter htask
    have hon : task.partition.toInt = (p : Int) := of_decide_eq_true (List.mem_filter.mp htask).2
    rw [List.mem_toFinset]
    apply List.mem_map.mpr
    refine ⟨task, List.mem_filter.mpr ⟨hmem, decide_eq_true ?_⟩, ?_⟩
    · exact lt_of_le_of_ne (htimes task hmem) hne.symm
    · rw [hon, Int.toNat_natCast]
  calc
    ((Finset.range P).filter fun p => timeOn tasks p ≠ 0).card
      ≤ ((tasks.filter fun task => 0 < task.expectedET.toInt).map fun task =>
          task.partition.toInt.toNat).toFinset.card := Finset.card_le_card hsub
    _ ≤ ((tasks.filter fun task => 0 < task.expectedET.toInt).map fun task =>
          task.partition.toInt.toNat).length := List.toFinset_card_le _
    _ = tasks.countP fun task => 0 < task.expectedET.toInt := by
      rw [List.length_map, List.countP_eq_length_filter]

/-- Some task takes time, so all together do. -/
theorem totalTime_ne_zero (htimes : ∀ task ∈ tasks, 0 ≤ task.expectedET.toInt)
    (hpos : ∃ task ∈ tasks, 0 < task.expectedET.toInt) : totalTime tasks ≠ 0 := by
  rcases hpos with ⟨task, htask, hpos⟩
  have hle : task.expectedET.toInt ≤ totalTime tasks := by
    apply List.single_le_sum
    · intro time htime
      rcases List.mem_map.mp htime with ⟨t, ht, rfl⟩
      exact htimes t ht
    · exact List.mem_map_of_mem htask
  omega

/-- With tasks for fewer than half of the processors the metric is out of range. -/
theorem Scheduled.loadBalance_of_few (h : Scheduled P busy tasks tasks') (hP : 1 ≤ P)
    (hint : P ≤ 2 ^ 31) (hfew : 2 * tasks'.countP (fun task => 0 < task.expectedET.toInt) < P)
    (hpos : ∃ task ∈ tasks', 0 < task.expectedET.toInt) :
    calculateLoadBalance tasks' P ∉ Set.Icc 0 1 := by
  have htimes : ∀ task ∈ tasks', 0 ≤ task.expectedET.toInt := by
    intro task htask
    rcases List.forall₂_iff_get.mp h.simulated with ⟨hlength, hget⟩
    rcases List.mem_iff_get.mp htask with ⟨i, rfl⟩
    exact (hget i.val (by rw [hlength]; exact i.isLt) i.isLt).time_nonneg
  have hbusy := card_busy_le P tasks' htimes
  rw [h.loadBalance_mem_Icc_iff hP]
  exact h.not_spread_of_idle hint (by omega) (totalTime_ne_zero htimes hpos)

/-- A list schedule from free processors is spread, if the share of its longest task is at
most twice the whole time. -/
theorem Coupled.spread [NeZero P] {hP : P ≤ 8} {r : WFD.Loads × (ProcId → Int64) × List Node}
    (h : Coupled hP tasks r) (hshare : (P : Int) * longestTime tasks ≤ 2 * totalTime tasks) :
    Spread (Finset.range P) fun p => (timeOn r.2.2 p : ℝ) := by
  have hsum : ∑ p ∈ Finset.range P, (timeOn r.2.2 p : ℝ) = totalTime tasks := by
    rw [← h.sum, Int.cast_sum, Finset.sum_range]
    exact Finset.sum_congr rfl fun i _ => by rw [h.times]
  refine Dispersion.spread_of_sub_le ?_ ?_
    (?_ : ((Finset.range P).card : ℝ) * (longestTime tasks : ℝ) ≤ _)
  · intro p hp
    have hnonneg := h.nonneg ⟨p, Finset.mem_range.mp hp⟩
    rw [← h.times] at hnonneg
    exact_mod_cast hnonneg
  · intro p hp q hq
    have hle := h.balanced ⟨p, Finset.mem_range.mp hp⟩ ⟨q, Finset.mem_range.mp hq⟩
    dsimp only at hle
    rw [← h.times ⟨p, Finset.mem_range.mp hp⟩, ← h.times ⟨q, Finset.mem_range.mp hq⟩] at hle
    exact_mod_cast hle
  · rw [hsum, Finset.card_range]
    exact_mod_cast hshare

/-! ## Both simulations -/

/-- On so many processors, whatever either simulation produces from any state that earlier
calls can leave has a load balance in the documented range. -/
def LoadBalanceInRange (P : Nat) : Prop :=
  (∀ (processorLoads : WFD.Loads) (tasks : List Node),
      (∀ task ∈ tasks, 0 ≤ task.expectedET.toInt) →
    ∃ processorLoads' tasks',
      simulateWFDAllocation tasks (generateProcessorList P) processorLoads =
        .ok (processorLoads', tasks') ∧
      calculateLoadBalance tasks' P ∈ Set.Icc 0 1) ∧
  ∀ (st : CacheAwareState) (tasks : List Node), st.Reachable → (∀ task ∈ tasks, task.Proper) →
    ∃ st' tasks',
      simulateCacheAwareAllocation tasks (generateProcessorList P) st = .ok (st', tasks') ∧
      calculateLoadBalance tasks' P ∈ Set.Icc 0 1

/-- Tasks for fewer than half of the processors are out of range in the first simulation. -/
theorem simulateWFDAllocation_outOfRange {P : Nat} (hP : 1 ≤ P) (hint : P ≤ 2 ^ 31)
    (processorLoads : WFD.Loads) {tasks : List Node}
    (htasks : ∀ task ∈ tasks, 0 ≤ task.expectedET.toInt)
    (hpos : ∃ task ∈ tasks, 0 < task.expectedET.toInt)
    (hfew : 2 * tasks.countP (fun task => 0 < task.expectedET.toInt) < P) :
    ∃ processorLoads' tasks',
      simulateWFDAllocation tasks (generateProcessorList P) processorLoads =
        .ok (processorLoads', tasks') ∧
      calculateLoadBalance tasks' P ∉ Set.Icc 0 1 := by
  rcases simulateWFDAllocation_timed hP processorLoads htasks with
    ⟨processorLoads', tasks', hrun, hscheduled, htimes⟩
  refine ⟨processorLoads', tasks', hrun, hscheduled.loadBalance_of_few hP hint ?_ ?_⟩
  · have hcount : tasks'.countP (fun task => 0 < task.expectedET.toInt) =
        tasks.countP fun task => 0 < task.expectedET.toInt := by
      clear hrun hscheduled htasks hpos hfew
      induction htimes with
      | nil => rfl
      | cons htime _ ih => rw [List.countP_cons, List.countP_cons, ih, htime]
    rw [hcount]
    exact hfew
  · rcases hpos with ⟨task, htask, hpos⟩
    rcases htimes.exists_of_mem htask with ⟨task', htask', htime⟩
    exact ⟨task', htask', by rw [htime]; exact hpos⟩

/-- Fewer tasks than half of the processors are so in the second one. -/
theorem simulateCacheAwareAllocation_outOfRange {P : Nat} (hP : 1 ≤ P) (hint : P ≤ 2 ^ 31)
    {st : CacheAwareState} (hst : st.Reachable) {tasks : List Node}
    (htasks : ∀ task ∈ tasks, task.Proper) (hpos : ∃ task ∈ tasks, 2 ≤ task.expectedET.toInt)
    (hfew : 2 * tasks.length < P) :
    ∃ st' tasks',
      simulateCacheAwareAllocation tasks (generateProcessorList P) st = .ok (st', tasks') ∧
      calculateLoadBalance tasks' P ∉ Set.Icc 0 1 := by
  rcases simulateCacheAwareAllocation_timed hP hst htasks with
    ⟨st', tasks', hrun, hscheduled, htimes⟩
  refine ⟨st', tasks', hrun, hscheduled.loadBalance_of_few hP hint ?_ ?_⟩
  · have hlength : tasks.length = tasks'.length := htimes.length_eq
    have hcount := tasks'.countP_le_length (p := fun task => 0 < task.expectedET.toInt)
    omega
  · -- a task that is not cut to nothing
    rcases hpos with ⟨task, htask, hpos⟩
    rcases htimes.exists_of_mem htask with ⟨task', htask', htime⟩
    have hhalf := htime.1
    exact ⟨task', htask', by omega⟩

/-- The load balance is in the documented range for all tasks on one or two processors
only.  From three on it is out of range whenever fewer than half of the processors have a
task that takes time; the tasks of {lit}`WFD` are in range, from {lit}`resetLoads`, if the
longest one takes at most twice the mean load. -/
theorem loadBalance_inRange_iff {P : Nat} (hP : 1 ≤ P) (hint : P ≤ 2 ^ 31) :
    (LoadBalanceInRange P ↔ P ≤ 2) ∧
    (∀ (processorLoads : WFD.Loads) (tasks : List Node),
        (∀ task ∈ tasks, 0 ≤ task.expectedET.toInt) → (∃ task ∈ tasks, 0 < task.expectedET.toInt) →
        2 * tasks.countP (fun task => 0 < task.expectedET.toInt) < P →
      ∃ processorLoads' tasks',
        simulateWFDAllocation tasks (generateProcessorList P) processorLoads =
          .ok (processorLoads', tasks') ∧
        calculateLoadBalance tasks' P ∉ Set.Icc 0 1) ∧
    (∀ (st : CacheAwareState) (tasks : List Node), st.Reachable → (∀ task ∈ tasks, task.Proper) →
        (∃ task ∈ tasks, 2 ≤ task.expectedET.toInt) → 2 * tasks.length < P →
      ∃ st' tasks',
        simulateCacheAwareAllocation tasks (generateProcessorList P) st = .ok (st', tasks') ∧
        calculateLoadBalance tasks' P ∉ Set.Icc 0 1) ∧
    ∀ tasks : List Node, P ≤ 8 → (∀ task ∈ tasks, 0 ≤ task.expectedET.toInt) →
        totalTime tasks < 2 ^ 31 - 1 → (P : Int) * longestTime tasks ≤ 2 * totalTime tasks →
      ∃ processorLoads' tasks',
        simulateWFDAllocation tasks (generateProcessorList P) WFD.resetLoads =
          .ok (processorLoads', tasks') ∧
        calculateLoadBalance tasks' P ∈ Set.Icc 0 1 := by
  refine ⟨⟨?_, ?_⟩, ?_, ?_, ?_⟩
  · intro hrange
    by_contra hthree
    have htasks : ∀ task ∈ [unitTask], 0 ≤ task.expectedET.toInt := by decide
    have hfew : 2 * [unitTask].countP (fun task => 0 < task.expectedET.toInt) < P := by
      rw [show [unitTask].countP (fun task => 0 < task.expectedET.toInt) = 1 by decide]
      omega
    rcases simulateWFDAllocation_outOfRange hP hint WFD.resetLoads htasks (by decide) hfew with
      ⟨processorLoads', tasks', hrun, hout⟩
    rcases hrange.1 WFD.resetLoads [unitTask] htasks with ⟨_, tasks₁, hrun₁, hin⟩
    rw [hrun] at hrun₁
    rw [(Prod.mk.inj (Except.ok.inj hrun₁)).2] at hout
    exact hout hin
  · intro htwo
    exact simulations_of_scheduled hP fun _ _ hscheduled =>
      (hscheduled.loadBalance_mem_Icc_iff hP).mpr (hscheduled.spread_of_le_two htwo)
  · intro processorLoads tasks htasks hpos hfew
    exact simulateWFDAllocation_outOfRange hP hint processorLoads htasks hpos hfew
  · intro st tasks hst htasks hpos hfew
    exact simulateCacheAwareAllocation_outOfRange hP hint hst htasks hpos hfew
  · intro tasks height htasks hfits hshare
    have : NeZero P := ⟨by omega⟩
    rcases coupled_run height tasks htasks hfits with ⟨r, hfold, hcoupled⟩
    have hrun := simulateWFDAllocation_of_foldlM hfold
    rcases simulateWFDAllocation_scheduled hP WFD.resetLoads htasks with
      ⟨processorLoads', tasks', hrun', hscheduled⟩
    rw [hrun] at hrun'
    refine ⟨r.1, r.2.2, hrun, ?_⟩
    rw [← (Prod.mk.inj (Except.ok.inj hrun')).2] at hscheduled
    exact (hscheduled.loadBalance_mem_Icc_iff hP).mpr (hcoupled.spread hshare)

/-- Three tasks of one unit of time on four processors are in range. -/
theorem loadBalance_inRange_unitTasks :
    ∃ processorLoads' tasks',
      simulateWFDAllocation [unitTask, unitTask, unitTask] (generateProcessorList 4)
        WFD.resetLoads = .ok (processorLoads', tasks') ∧
      calculateLoadBalance tasks' 4 ∈ Set.Icc 0 1 :=
  (loadBalance_inRange_iff (by norm_num : 1 ≤ 4) (by norm_num)).2.2.2 [unitTask, unitTask, unitTask]
    (by norm_num) (by decide) (by decide) (by decide)

/-- One task of one unit of time on eight processors is not. -/
theorem loadBalance_outOfRange :
    ∃ processorLoads' tasks',
      simulateWFDAllocation [unitTask] (generateProcessorList cores) WFD.resetLoads =
        .ok (processorLoads', tasks') ∧
      calculateLoadBalance tasks' cores ∉ Set.Icc 0 1 :=
  simulateWFDAllocation_outOfRange (by decide) (by decide) WFD.resetLoads (by decide) (by decide)
    (by decide)

end Simu
end YatCasched
