import Mathlib.Algebra.Order.Floor.Ring
import Mathlib.Data.List.GetD
import Mathlib.Data.Rat.Floor
import YatCasched.Lib.MachineInt
import YatCasched.Simu.FallbackUtilizations
import YatCasched.Simu.Node

/-!
# Generated task sets

{lit}`EnhancedTaskGenerator.generateComplexTaskSet` gives every task a utilisation, draws
its period, and takes the product for its execution time, but at least ten units.  Short
tasks so use more than their share.

Main results:

- Theorem {lit}`createTaskFromUtilization_bounds`: the execution time of a task.
- Theorem {lit}`generateComplexTaskSet_utilization`: what a task set uses.
- Theorem {lit}`generateComplexTaskSet_proper`: the simulators accept the tasks.
-/

namespace YatCasched
namespace Simu

open Shares UUnifastDiscard

/-! ## The generator -/

section Generator

variable {α : Type*} [Field α] [LinearOrder α]

/-- A generated task, with the utilisation and the period its execution time comes from. -/
structure GeneratedTask (α : Type*) where
  utilization : α
  period : Int64
  node : Node
  isCritical : Bool

/-- {lit}`commonPeriods`. -/
def commonPeriods : List Int64 :=
  [10, 20, 50, 100, 200, 500, 1000]

/-- {lit}`generatePeriod`. -/
def generatePeriod (draws : Draws α) (pos : ℕ) : Int64 :=
  commonPeriods.get ⟨draws.nextInt pos commonPeriods.length,
    draws.nextInt_lt pos commonPeriods.length (by decide)⟩

/-- {lit}`generateCacheSensitivity`, which draws twice. -/
def generateCacheSensitivity (draws : Draws α) (pos : ℕ) : ℚ :=
  let rand := draws.nextDouble pos
  if rand < 0.4 then
    0.7 + draws.nextDouble (pos + 1) * 0.3
  else if rand < 0.8 then
    0.3 + draws.nextDouble (pos + 1) * 0.4
  else
    draws.nextDouble (pos + 1) * 0.3

/-- The array {lit}`weights` of {lit}`generateCacheWeights` before it is normalised. -/
def drawnWeights (draws : Draws α) (pos : ℕ) : List ℚ :=
  let taskType := draws.nextDouble pos
  if taskType < 0.3 then
    [0.5 + draws.nextDouble (pos + 1) * 0.3, 0.2 + draws.nextDouble (pos + 2) * 0.2,
      0.1 + draws.nextDouble (pos + 3) * 0.1, 0.05 + draws.nextDouble (pos + 4) * 0.1]
  else if taskType < 0.6 then
    [0.2 + draws.nextDouble (pos + 1) * 0.2, 0.3 + draws.nextDouble (pos + 2) * 0.2,
      0.2 + draws.nextDouble (pos + 3) * 0.2, 0.1 + draws.nextDouble (pos + 4) * 0.2]
  else
    [0.1 + draws.nextDouble (pos + 1) * 0.2, 0.2 + draws.nextDouble (pos + 2) * 0.2,
      0.2 + draws.nextDouble (pos + 3) * 0.2, 0.3 + draws.nextDouble (pos + 4) * 0.2]

/-- {lit}`generateCacheWeights`, which draws five times. -/
def generateCacheWeights (draws : Draws α) (pos : ℕ) : List ℚ :=
  let weights := drawnWeights draws pos
  let sum := weights.sum
  weights.map (· / sum)

variable [FloorRing α]

/-- The cast to {lit}`long`: without the fraction, and inside the range. -/
def longOf (x : α) : Int64 :=
  Int64.ofIntClamp (if 0 ≤ x then ⌊x⌋ else ⌈x⌉)

/-- {lit}`createTaskFromUtilization`, which draws fifteen times: the period, six times in
the constructor of {lit}`Node`, the sensitivity, the weights, and whether the task is
critical. -/
def createTaskFromUtilization (draws : Draws α) (pos taskId : ℕ) (utilization : α) :
    GeneratedTask α :=
  let period := generatePeriod draws pos
  let wcet := longOf (utilization * (period.toInt : α))
  let wcet := max wcet 10
  let wcet := min wcet period
  let task := Node.new 0 .normal (Int32.ofNat taskId) (Int32.ofNat (taskId / 5))
    (100 + Int64.ofNat (draws.nextInt (pos + 1) 50)) (draws.nextDouble (pos + 2))
    [draws.nextDouble (pos + 3), draws.nextDouble (pos + 4), draws.nextDouble (pos + 5),
      draws.nextDouble (pos + 6)]
  { utilization := utilization
    period := period
    node := { task with
      expectedET := wcet
      sensitivity := generateCacheSensitivity draws (pos + 7)
      weights := some (generateCacheWeights draws (pos + 9)) }
    isCritical := draws.nextDouble (pos + 14) < 0.3 }

omit [FloorRing α] in
/-- The utilisations of {lit}`generateComplexTaskSet` and the draws after them; nothing if
{lit}`getUtils` ends the program. -/
def complexUtilizations (draws : Draws α) (cores pos taskCount : ℕ) (totalUtilization : α) :
    Option (List α × ℕ) :=
  let r := getUtils draws (.new totalUtilization taskCount 1000 cores false) pos
  let fallback := (generateFallbackUtilizations draws r.2.2 taskCount totalUtilization,
    r.2.2 + (taskCount - 1))
  match r.1 with
  | .exits => none
  | .null => some fallback
  | .utils utilizations =>
      if utilizations.length < taskCount then some fallback else some (utilizations, r.2.2)

/-- {lit}`generateComplexTaskSet`, for a number of cores and after a number of draws. -/
def generateComplexTaskSet (draws : Draws α) (cores pos taskCount : ℕ) (totalUtilization : α) :
    Option (List (GeneratedTask α)) :=
  (complexUtilizations draws cores pos taskCount totalUtilization).map fun r =>
    (List.range taskCount).map fun i =>
      let util := r.1.getD i 0.1
      createTaskFromUtilization draws (r.2 + 15 * i) i util

end Generator

/-! ## Utilisations of tasks -/

section Load

variable {α : Type*} [Field α] [LinearOrder α]

/-- The utilisation of a task: its execution time in its period. -/
def GeneratedTask.load (task : GeneratedTask α) : α :=
  (task.node.expectedET.toInt : α) / task.period.toInt

/-- The execution time has been raised to the least one. -/
def GeneratedTask.Raised (task : GeneratedTask α) : Prop :=
  task.utilization * (task.period.toInt : α) < 10

instance (task : GeneratedTask α) : Decidable task.Raised :=
  inferInstanceAs (Decidable (_ < _))

/-- By how much a task exceeds its share. -/
def GeneratedTask.excess (task : GeneratedTask α) : α :=
  if task.Raised then 10 / (task.period.toInt : α) - task.utilization else 0

variable [FloorRing α]

omit [FloorRing α] in
/-- Periods have at least ten units. -/
theorem ten_le_generatePeriod (draws : Draws α) (pos : ℕ) :
    10 ≤ (generatePeriod draws pos).toInt := by
  have hperiods : ∀ period ∈ commonPeriods, 10 ≤ period.toInt := by
    simp [commonPeriods]
  exact hperiods _ (List.get_mem commonPeriods _)

@[simp]
theorem createTaskFromUtilization_period (draws : Draws α) (pos taskId : ℕ) (utilization : α) :
    (createTaskFromUtilization draws pos taskId utilization).period = generatePeriod draws pos :=
  rfl

@[simp]
theorem createTaskFromUtilization_utilization (draws : Draws α) (pos taskId : ℕ)
    (utilization : α) :
    (createTaskFromUtilization draws pos taskId utilization).utilization = utilization :=
  rfl

/-- The execution time of a task: the product cut off, but at least ten units and at most
the period. -/
theorem createTaskFromUtilization_toInt (draws : Draws α) (pos taskId : ℕ) (utilization : α) :
    (createTaskFromUtilization draws pos taskId utilization).node.expectedET.toInt =
      min (max (longOf (utilization * ((generatePeriod draws pos).toInt : α))).toInt 10)
        (generatePeriod draws pos).toInt := by
  unfold createTaskFromUtilization
  dsimp only
  rw [MachineInt.toInt_min, MachineInt.toInt_max]
  rfl

/-- The execution time of a task has at least ten units, and does not exceed its period. -/
theorem createTaskFromUtilization_bounds (draws : Draws α) (pos taskId : ℕ) (utilization : α) :
    10 ≤ (createTaskFromUtilization draws pos taskId utilization).node.expectedET.toInt ∧
      (createTaskFromUtilization draws pos taskId utilization).node.expectedET.toInt ≤
        (createTaskFromUtilization draws pos taskId utilization).period.toInt := by
  rw [createTaskFromUtilization_toInt]
  exact ⟨le_min (le_max_right _ _) (ten_le_generatePeriod draws pos), min_le_right _ _⟩

variable [IsStrictOrderedRing α]

/-- The cast to {lit}`long` does not increase a number that is not negative. -/
theorem longOf_le {x : α} (hx : 0 ≤ x) : ((longOf x).toInt : α) ≤ x := by
  have hfloor : 0 ≤ ⌊x⌋ := Int.floor_nonneg.mpr hx
  have hclamp : (longOf x).toInt ≤ ⌊x⌋ := by
    unfold longOf
    rw [if_pos hx]
    exact MachineInt.toInt_ofIntClamp_le (by omega)
  exact (Int.cast_le.mpr hclamp).trans (Int.floor_le x)

/-- A task uses no more than its share, unless its execution time has been raised. -/
theorem createTaskFromUtilization_load (draws : Draws α) (pos taskId : ℕ) {utilization : α}
    (h : 0 ≤ utilization) :
    (createTaskFromUtilization draws pos taskId utilization).load ≤
      (createTaskFromUtilization draws pos taskId utilization).utilization +
        (createTaskFromUtilization draws pos taskId utilization).excess := by
  have hten := ten_le_generatePeriod draws pos
  have hperiod : (0 : α) < (generatePeriod draws pos).toInt := by
    exact_mod_cast (by omega : 0 < (generatePeriod draws pos).toInt)
  have hproduct : 0 ≤ utilization * ((generatePeriod draws pos).toInt : α) :=
    mul_nonneg h hperiod.le
  have hlong := longOf_le hproduct
  unfold GeneratedTask.load GeneratedTask.excess
  rw [createTaskFromUtilization_toInt, createTaskFromUtilization_period,
    createTaskFromUtilization_utilization]
  by_cases hraised : (createTaskFromUtilization draws pos taskId utilization).Raised
  · have hproduct' : utilization * ((generatePeriod draws pos).toInt : α) < 10 := hraised
    have hlt : (longOf (utilization * ((generatePeriod draws pos).toInt : α))).toInt < 10 := by
      exact_mod_cast hlong.trans_lt hproduct'
    rw [if_pos hraised, max_eq_right hlt.le, min_eq_left hten]
    apply le_of_eq
    push_cast
    ring
  · have hten' : (10 : α) ≤ utilization * ((generatePeriod draws pos).toInt : α) :=
      not_lt.mp hraised
    rw [if_neg hraised, add_zero, div_le_iff₀ hperiod]
    refine le_trans (Int.cast_le.mpr (min_le_left _ _)) ?_
    rw [Int.cast_max]
    exact max_le hlong (by exact_mod_cast hten')

omit [FloorRing α] in
/-- The utilisations of a task set: one for each task, none negative, together no more
than the total. -/
theorem complexUtilizations_spec (draws : Draws α) (cores pos : ℕ) {taskCount : ℕ}
    (hcount : 1 ≤ taskCount) {totalUtilization : α} (h : 0 ≤ totalUtilization) :
    ∃ utilizations pos', complexUtilizations draws cores pos taskCount totalUtilization =
        some (utilizations, pos') ∧
      utilizations.length = taskCount ∧ (∀ util ∈ utilizations, 0 ≤ util) ∧
      utilizations.sum ≤ totalUtilization := by
  have hcontract := contract_getUtils
    (u := .new totalUtilization taskCount 1000 cores false) h hcount draws pos
  unfold complexUtilizations
  dsimp only
  cases hanswer : (getUtils draws (.new totalUtilization taskCount 1000 cores false) pos).1 with
  | exits => exact absurd hanswer hcontract.not_exits
  | null =>
      have hsplits := generateFallbackUtilizations_splits h draws
        (getUtils draws (.new totalUtilization taskCount 1000 cores false) pos).2.2 taskCount
      exact ⟨_, _, rfl, length_generateFallbackUtilizations h draws _ hcount, hsplits.nonneg,
        hsplits.sum_le⟩
  | utils utilizations =>
      have hlength : utilizations.length = taskCount := hcontract.length_eq _ hanswer
      rcases hcontract.sum_add_dropped _ hanswer rfl with ⟨dropped, hdropped, _, hsum⟩
      dsimp only
      rw [if_neg (by omega)]
      refine ⟨utilizations, _, rfl, hlength,
        fun util hutil => (hcontract.mem_range _ hanswer util hutil).1, ?_⟩
      rw [hsum]
      exact sub_le_self _ hdropped

/-- A task set is generated task by task, from the utilisations. -/
theorem generateComplexTaskSet_spec (draws : Draws α) (cores pos : ℕ) {taskCount : ℕ}
    (hcount : 1 ≤ taskCount) {totalUtilization : α} (h : 0 ≤ totalUtilization) :
    ∃ tasks, generateComplexTaskSet draws cores pos taskCount totalUtilization = some tasks ∧
      tasks.length = taskCount ∧
      (tasks.map GeneratedTask.utilization).sum ≤ totalUtilization ∧
      ∀ task ∈ tasks, ∃ pos' taskId util, 0 ≤ util ∧
        task = createTaskFromUtilization draws pos' taskId util := by
  rcases complexUtilizations_spec draws cores pos hcount h with
    ⟨utilizations, pos', hutilizations, hlength, hnonneg, hsum⟩
  have hget : ∀ i, i < taskCount → utilizations.getD i 0.1 ∈ utilizations := by
    intro i hi
    rw [List.getD_eq_getElem _ _ (hlength ▸ hi)]
    exact List.getElem_mem _
  have hmap : ((List.range taskCount).map fun i =>
      createTaskFromUtilization draws (pos' + 15 * i) i (utilizations.getD i 0.1)).map
        GeneratedTask.utilization = utilizations := by
    apply List.ext_getElem
    · simp [hlength]
    · intro i hi hi'
      simp [hi']
  unfold generateComplexTaskSet
  rw [hutilizations]
  refine ⟨_, rfl, by simp, ?_, ?_⟩
  · dsimp only
    rw [hmap]
    exact hsum
  · intro task htask
    rcases List.mem_map.mp htask with ⟨i, hi, rfl⟩
    exact ⟨_, _, _, hnonneg _ (hget i (List.mem_range.mp hi)), rfl⟩

/-- The execution times of a task set are in range.  The set uses no more than the total,
but for what the tasks whose times have been raised exceed their shares by. -/
theorem generateComplexTaskSet_utilization (draws : Draws α) (cores pos : ℕ) {taskCount : ℕ}
    (hcount : 1 ≤ taskCount) {totalUtilization : α} (h : 0 ≤ totalUtilization) :
    ∃ tasks, generateComplexTaskSet draws cores pos taskCount totalUtilization = some tasks ∧
      tasks.length = taskCount ∧
      (∀ task ∈ tasks, 10 ≤ task.node.expectedET.toInt ∧
        task.node.expectedET.toInt ≤ task.period.toInt) ∧
      (tasks.map GeneratedTask.load).sum ≤
        totalUtilization + (tasks.map GeneratedTask.excess).sum := by
  rcases generateComplexTaskSet_spec draws cores pos hcount h with
    ⟨tasks, hrun, hlength, hsum, hcreated⟩
  refine ⟨tasks, hrun, hlength, ?_, ?_⟩
  · intro task htask
    rcases hcreated task htask with ⟨pos', taskId, util, _, rfl⟩
    exact createTaskFromUtilization_bounds draws pos' taskId util
  · calc (tasks.map GeneratedTask.load).sum
        ≤ (tasks.map fun task => task.utilization + task.excess).sum := by
          apply List.sum_le_sum
          intro task htask
          rcases hcreated task htask with ⟨pos', taskId, util, hutil, rfl⟩
          exact createTaskFromUtilization_load draws pos' taskId hutil
      _ = (tasks.map GeneratedTask.utilization).sum + (tasks.map GeneratedTask.excess).sum := by
          rw [List.sum_map_add]
      _ ≤ totalUtilization + (tasks.map GeneratedTask.excess).sum := by
          gcongr

/-! ## Tasks for the simulators -/

omit [FloorRing α] [IsStrictOrderedRing α] in
/-- The sensitivity is between 0 and 1. -/
theorem generateCacheSensitivity_bounds (draws : Draws α) (pos : ℕ) :
    0 ≤ generateCacheSensitivity draws pos ∧ generateCacheSensitivity draws pos ≤ 1 := by
  have hnonneg := draws.nextDouble_nonneg (pos + 1)
  have hlt := draws.nextDouble_lt_one (pos + 1)
  unfold generateCacheSensitivity
  dsimp only
  split_ifs
  all_goals
    constructor
    all_goals norm_num; linarith

omit [FloorRing α] [IsStrictOrderedRing α] in
/-- There are four weights before they are normalised, none negative. -/
theorem drawnWeights_spec (draws : Draws α) (pos : ℕ) :
    (drawnWeights draws pos).length = 4 ∧ ∀ weight ∈ drawnWeights draws pos, 0 ≤ weight := by
  have h₁ := draws.nextDouble_nonneg (pos + 1)
  have h₂ := draws.nextDouble_nonneg (pos + 2)
  have h₃ := draws.nextDouble_nonneg (pos + 3)
  have h₄ := draws.nextDouble_nonneg (pos + 4)
  unfold drawnWeights
  dsimp only
  split_ifs
  all_goals
    refine ⟨rfl, ?_⟩
    simp only [List.forall_mem_cons, List.not_mem_nil, false_imp_iff, implies_true, and_true]
    refine ⟨?_, ?_, ?_, ?_⟩
    all_goals positivity

omit [IsStrictOrderedRing α] in
/-- The simulators accept every generated task. -/
theorem createTaskFromUtilization_proper (draws : Draws α) (pos taskId : ℕ) (utilization : α) :
    (createTaskFromUtilization draws pos taskId utilization).node.Proper := by
  have htime := (createTaskFromUtilization_bounds draws pos taskId utilization).1
  have hsensitivity := generateCacheSensitivity_bounds draws (pos + 7)
  rcases drawnWeights_spec draws (pos + 9) with ⟨hlength, hnonneg⟩
  have hweights : (createTaskFromUtilization draws pos taskId utilization).node.weights =
      some (generateCacheWeights draws (pos + 9)) := rfl
  constructor
  case time_ge_one =>
    unfold Node.time
    exact_mod_cast (by omega :
      1 ≤ (createTaskFromUtilization draws pos taskId utilization).node.expectedET.toInt)
  case sensitivity_nonneg => exact hsensitivity.1
  case sensitivity_le_one => exact hsensitivity.2
  case hasWeights =>
    unfold Node.hasWeights
    rw [hweights]
    simp [generateCacheWeights, hlength]
  case weight_nonneg =>
    intro i
    rcases Node.weight_eq_zero_or_mem hweights i with hzero | hmem
    · rw [hzero]
    · rcases List.mem_map.mp hmem with ⟨weight, hweight, heq⟩
      rw [← heq]
      exact div_nonneg (hnonneg weight hweight) (List.sum_nonneg hnonneg)

/-- The simulators accept a generated task set. -/
theorem generateComplexTaskSet_proper (draws : Draws α) (cores pos : ℕ) {taskCount : ℕ}
    (hcount : 1 ≤ taskCount) {totalUtilization : α} (h : 0 ≤ totalUtilization) :
    ∃ tasks, generateComplexTaskSet draws cores pos taskCount totalUtilization = some tasks ∧
      ∀ node ∈ tasks.map GeneratedTask.node, node.Proper := by
  rcases generateComplexTaskSet_spec draws cores pos hcount h with
    ⟨tasks, hrun, _, _, hcreated⟩
  refine ⟨tasks, hrun, ?_⟩
  intro node hnode
  rcases List.mem_map.mp hnode with ⟨task, htask, rfl⟩
  rcases hcreated task htask with ⟨pos', taskId, util, _, rfl⟩
  exact createTaskFromUtilization_proper draws pos' taskId util

end Load

/-! ## Two task sets -/

/-- Two tasks for a utilisation of 1. -/
theorem generateComplexTaskSet_utilization_twoTasks :
    ∃ tasks, generateComplexTaskSet zeroDraws 1 0 2 1 = some tasks ∧
      tasks.length = 2 ∧
      (∀ task ∈ tasks, 10 ≤ task.node.expectedET.toInt ∧
        task.node.expectedET.toInt ≤ task.period.toInt) ∧
      (tasks.map GeneratedTask.load).sum ≤ 1 + (tasks.map GeneratedTask.excess).sum :=
  generateComplexTaskSet_utilization zeroDraws 1 0 one_le_two zero_le_one

/-- One task for no utilisation at all takes ten units of a period of ten. -/
theorem generateComplexTaskSet_exceeds :
    ∃ tasks, generateComplexTaskSet zeroDraws 1 0 1 0 = some tasks ∧
      0 < (tasks.map GeneratedTask.load).sum := by
  rcases generateComplexTaskSet_spec zeroDraws 1 0 le_rfl le_rfl with
    ⟨tasks, hrun, hlength, _, hcreated⟩
  refine ⟨tasks, hrun, ?_⟩
  rcases List.length_eq_one_iff.mp hlength with ⟨task, rfl⟩
  rcases hcreated task (by simp) with ⟨pos', taskId, util, _, rfl⟩
  have hbounds := createTaskFromUtilization_bounds zeroDraws pos' taskId util
  have hpos : ∀ time : Int, 10 ≤ time → (0 : ℚ) < time := by
    intro time htime
    exact_mod_cast (by omega : 0 < time)
  rw [List.map_singleton, List.sum_singleton]
  exact div_pos (hpos _ hbounds.1) (hpos _ (hbounds.1.trans hbounds.2))

end Simu
end YatCasched
