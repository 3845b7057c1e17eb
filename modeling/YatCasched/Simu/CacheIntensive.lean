import YatCasched.Simu.ListSchedule
import YatCasched.Simu.TaskSet

/-!
# Cache-intensive task sets

{lit}`EnhancedTaskGenerator.generateCacheIntensiveTasks`, which the experiment uses: the
first tasks are sensitive to the cache and rely on its first level, the others are not, and
some prefer a processor.  A task takes its utilisation of a second, but at least ten
microseconds.

Main results:

- Theorem {lit}`createCacheIntensiveTask_spec`: what a task of the set is like.
- Theorem {lit}`countP_sensitive`: how many of them are sensitive.
- Theorem {lit}`generateCacheIntensiveTasks_spec`: a task set is generated for all draws, its
  first tasks are the sensitive ones, and their total time is bounded.
-/

namespace YatCasched
namespace Simu

open Shares UUnifastDiscard

/-! ## The generator -/

section Generator

variable {α : Type*} [Field α] [LinearOrder α]

/-- The array {lit}`weights` of {lit}`createCacheIntensiveTask` before it is normalised. -/
def intensiveWeights (draws : Draws α) (pos : ℕ) (isHighSensitivity : Bool) : List ℚ :=
  if isHighSensitivity then
    [0.6 + draws.nextDouble pos * 0.3, 0.2 + draws.nextDouble (pos + 1) * 0.2,
      0.1 + draws.nextDouble (pos + 2) * 0.1, 0.02 + draws.nextDouble (pos + 3) * 0.03]
  else
    [0.3 + draws.nextDouble pos * 0.3, 0.2 + draws.nextDouble (pos + 1) * 0.2,
      0.15 + draws.nextDouble (pos + 2) * 0.15, 0.05 + draws.nextDouble (pos + 3) * 0.15]

/-- The sensitivity of {lit}`createCacheIntensiveTask`. -/
def intensiveSensitivity (draws : Draws α) (pos : ℕ) (isHighSensitivity : Bool) : ℚ :=
  if isHighSensitivity then
    0.7 + draws.nextDouble pos * 0.25
  else
    0.1 + draws.nextDouble pos * 0.5

variable [FloorRing α]

/-- {lit}`createCacheIntensiveTask`: the task and the draws after it.  The constructor of
{lit}`Node` draws six times, and a task with an affinity draws once more than one without. -/
def createCacheIntensiveTask (draws : Draws α) (cores pos taskId : ℕ) (utilization : α)
    (isHighSensitivity : Bool) : Node × ℕ :=
  let task := Node.new 0 .normal (Int32.ofNat taskId) 0
    (100 + Int64.ofNat (draws.nextInt pos 50)) (draws.nextDouble (pos + 1))
    [draws.nextDouble (pos + 2), draws.nextDouble (pos + 3), draws.nextDouble (pos + 4),
      draws.nextDouble (pos + 5)]
  let baseExecutionTime := longOf (utilization * 1000000)
  let weights := intensiveWeights draws (pos + 7) isHighSensitivity
  let weightSum := weights.sum
  let task :=
    { task with
      expectedET := max baseExecutionTime 10000
      sensitivity := intensiveSensitivity draws (pos + 6) isHighSensitivity
      weights := some (weights.map (· / weightSum)) }
  if draws.nextDouble (pos + 11) < 0.6 then
    ({ task with affinity := Int32.ofNat (draws.nextInt (pos + 12) cores) }, pos + 13)
  else
    ({ task with affinity := -1 }, pos + 12)

/-- The cast to {lit}`int`. -/
def intOf (x : ℚ) : Int32 :=
  Int32.ofIntClamp (if 0 ≤ x then ⌊x⌋ else ⌈x⌉)

/-- A round of the loop of {lit}`generateCacheIntensiveTasks`, on the tasks so far and the
draws. -/
def cacheIntensiveRound (draws : Draws α) (cores : ℕ) (utilizations : List α)
    (highSensitivityCount : Int32) (r : List Node × ℕ) (i : ℕ) : List Node × ℕ :=
  let util := utilizations.getD i 0.1
  let task := createCacheIntensiveTask draws cores r.2 i util
    ((i : Int) < highSensitivityCount.toInt)
  (r.1 ++ [task.1], task.2)

/-- {lit}`generateCacheIntensiveTasks`, after a number of draws, and the draws after it.  It
finds the utilisations as {lit}`generateComplexTaskSet` does. -/
def generateCacheIntensiveTasks (draws : Draws α) (cores pos taskCount : ℕ)
    (totalUtilization : α) (highSensitivityRatio : ℚ) : Option (List Node × ℕ) :=
  (complexUtilizations draws cores pos taskCount totalUtilization).map fun r =>
    let highSensitivityCount := intOf (taskCount * highSensitivityRatio)
    (List.range taskCount).foldl (cacheIntensiveRound draws cores r.1 highSensitivityCount)
      ([], r.2)

end Generator

/-! ## One task -/

/-- What a task of the set is like. -/
structure CacheIntensive (cores taskId : ℕ) (isHighSensitivity : Bool) (task : Node) : Prop where
  id_eq : task.id = Int32.ofNat taskId
  time : 10000 ≤ task.expectedET.toInt
  high : isHighSensitivity = true → 0.7 ≤ task.sensitivity ∧ task.sensitivity < 0.95
  low : isHighSensitivity = false → 0.1 ≤ task.sensitivity ∧ task.sensitivity < 0.6
  weights : ∃ l1 l2 l3 memory, task.weights = some [l1, l2, l3, memory] ∧
    l1 + l2 + l3 + memory = 1 ∧ 0.25 < l1 ∧ 0 < l2 ∧ 0 < l3 ∧ 0 < memory ∧
      (isHighSensitivity = true → 0.48 < l1 ∧ l2 < l1 ∧ l3 < l2 ∧ memory < l3)
  affinity : task.affinity = -1 ∨ ∃ p < cores, task.affinity = Int32.ofNat p

section Task

variable {α : Type*} [Field α] [LinearOrder α]

/-- The weights before they are normalised. -/
theorem intensiveWeights_spec (draws : Draws α) (pos : ℕ) (isHighSensitivity : Bool) :
    ∃ l1 l2 l3 memory,
      intensiveWeights draws pos isHighSensitivity = [l1, l2, l3, memory] ∧
      0 < l1 ∧ 0 < l2 ∧ 0 < l3 ∧ 0 < memory ∧ l2 + l3 + memory < 3 * l1 ∧
      (isHighSensitivity = true →
        12 * (l2 + l3 + memory) < 13 * l1 ∧ l2 < l1 ∧ l3 < l2 ∧ memory < l3) := by
  have h₀ := draws.nextDouble_nonneg pos
  have h₁ := draws.nextDouble_nonneg (pos + 1)
  have h₂ := draws.nextDouble_nonneg (pos + 2)
  have h₃ := draws.nextDouble_nonneg (pos + 3)
  have h₁' := draws.nextDouble_lt_one (pos + 1)
  have h₂' := draws.nextDouble_lt_one (pos + 2)
  have h₃' := draws.nextDouble_lt_one (pos + 3)
  unfold intensiveWeights
  cases isHighSensitivity with
  | true =>
      refine ⟨_, _, _, _, rfl, ?_, ?_, ?_, ?_, ?_, fun _ => ⟨?_, ?_, ?_, ?_⟩⟩
      all_goals norm_num; linarith
  | false =>
      refine ⟨_, _, _, _, rfl, ?_, ?_, ?_, ?_, ?_, fun h => by cases h⟩
      all_goals norm_num; linarith

/-- Weights that are normalised add up to one and keep their order. -/
theorem normalized_weights {l1 l2 l3 memory : ℚ} (h1 : 0 < l1) (h2 : 0 < l2) (h3 : 0 < l3)
    (hmemory : 0 < memory) :
    ∃ sum, 0 < sum ∧ sum = l1 + l2 + l3 + memory ∧
      [l1, l2, l3, memory].map (· / [l1, l2, l3, memory].sum) =
        [l1 / sum, l2 / sum, l3 / sum, memory / sum] ∧
      l1 / sum + l2 / sum + l3 / sum + memory / sum = 1 := by
  have hsum : 0 < l1 + l2 + l3 + memory := by positivity
  refine ⟨l1 + l2 + l3 + memory, hsum, rfl, ?_, ?_⟩
  · simp [add_assoc]
  · rw [← add_div, ← add_div, ← add_div, div_self hsum.ne']

variable [FloorRing α]

/-- The execution time of a task. -/
theorem createCacheIntensiveTask_expectedET (draws : Draws α) (cores pos taskId : ℕ)
    (utilization : α) (isHighSensitivity : Bool) :
    (createCacheIntensiveTask draws cores pos taskId utilization isHighSensitivity).1.expectedET =
      max (longOf (utilization * 1000000)) 10000 := by
  unfold createCacheIntensiveTask
  dsimp only
  split
  · rfl
  · rfl

/-- A task is created as it should be. -/
theorem createCacheIntensiveTask_spec (draws : Draws α) {cores : ℕ} (hcores : 0 < cores)
    (pos taskId : ℕ) (utilization : α) (isHighSensitivity : Bool) :
    CacheIntensive cores taskId isHighSensitivity
      (createCacheIntensiveTask draws cores pos taskId utilization isHighSensitivity).1 := by
  have hnonneg := draws.nextDouble_nonneg (pos + 6)
  have hlt := draws.nextDouble_lt_one (pos + 6)
  have hsensitivity :
      (createCacheIntensiveTask draws cores pos taskId utilization isHighSensitivity).1.sensitivity
        = intensiveSensitivity draws (pos + 6) isHighSensitivity := by
    unfold createCacheIntensiveTask
    dsimp only
    split
    · rfl
    · rfl
  constructor
  case id_eq =>
    unfold createCacheIntensiveTask
    dsimp only
    split
    · rfl
    · rfl
  case time =>
    rw [createCacheIntensiveTask_expectedET, MachineInt.toInt_max]
    exact le_max_right _ _
  case high =>
    rintro rfl
    rw [hsensitivity]
    unfold intensiveSensitivity
    constructor
    all_goals norm_num; linarith
  case low =>
    rintro rfl
    rw [hsensitivity]
    unfold intensiveSensitivity
    constructor
    all_goals norm_num; linarith
  case weights =>
    rcases intensiveWeights_spec draws (pos + 7) isHighSensitivity with
      ⟨l1, l2, l3, memory, hdrawn, h1, h2, h3, hmemory, hthird, hhigh⟩
    rcases normalized_weights h1 h2 h3 hmemory with ⟨sum, hsum, hadd, hmap, hone⟩
    refine ⟨l1 / sum, l2 / sum, l3 / sum, memory / sum, ?_, hone, ?_, div_pos h2 hsum,
      div_pos h3 hsum, div_pos hmemory hsum, ?_⟩
    · unfold createCacheIntensiveTask
      dsimp only
      rw [hdrawn, hmap]
      split
      · rfl
      · rfl
    · rw [lt_div_iff₀ hsum, hadd]
      linarith
    · intro htrue
      rcases hhigh htrue with ⟨hhalf, h21, h32, hm3⟩
      refine ⟨?_, ?_, ?_, ?_⟩
      · rw [lt_div_iff₀ hsum, hadd]
        linarith
      · exact div_lt_div_of_pos_right h21 hsum
      · exact div_lt_div_of_pos_right h32 hsum
      · exact div_lt_div_of_pos_right hm3 hsum
  case affinity =>
    unfold createCacheIntensiveTask
    dsimp only
    split
    · exact Or.inr ⟨_, draws.nextInt_lt _ cores hcores, rfl⟩
    · exact Or.inl rfl

/-- The simulators accept such a task. -/
theorem CacheIntensive.proper {cores taskId : ℕ} {isHighSensitivity : Bool} {task : Node}
    (h : CacheIntensive cores taskId isHighSensitivity task) : task.Proper := by
  rcases h.weights with ⟨l1, l2, l3, memory, hweights, _, h1, h2, h3, hmemory, _⟩
  have hsensitivity : 0 ≤ task.sensitivity ∧ task.sensitivity ≤ 1 := by
    cases isHighSensitivity with
    | true =>
        have hhigh := h.high rfl
        constructor
        all_goals linarith
    | false =>
        have hlow := h.low rfl
        constructor
        all_goals linarith
  constructor
  case time_ge_one =>
    have htime := h.time
    unfold Node.time
    exact_mod_cast (by omega : 1 ≤ task.expectedET.toInt)
  case sensitivity_nonneg => exact hsensitivity.1
  case sensitivity_le_one => exact hsensitivity.2
  case hasWeights =>
    unfold Node.hasWeights
    rw [hweights]
    rfl
  case weight_nonneg =>
    intro i
    rcases Node.weight_eq_zero_or_mem hweights i with hzero | hmem
    · rw [hzero]
    · simp only [List.mem_cons, List.not_mem_nil, or_false] at hmem
      rcases hmem with heq | heq | heq | heq
      all_goals rw [heq]; linarith

variable [IsStrictOrderedRing α]

/-- The execution time of a task exceeds its utilisation by ten microseconds at most. -/
theorem createCacheIntensiveTask_time (draws : Draws α) (cores pos taskId : ℕ)
    {utilization : α} (h : 0 ≤ utilization) (isHighSensitivity : Bool) :
    ((createCacheIntensiveTask draws cores pos taskId utilization
      isHighSensitivity).1.expectedET.toInt : α) ≤ utilization * 1000000 + 10000 := by
  have hproduct : 0 ≤ utilization * 1000000 := by positivity
  have hlong := longOf_le hproduct
  have hleast : (10000 : Int64).toInt = 10000 := rfl
  rw [createCacheIntensiveTask_expectedET, MachineInt.toInt_max, hleast, Int.cast_max]
  apply max_le
  · linarith
  · push_cast
    linarith

end Task

/-! ## A task set -/

section TaskSet

variable {α : Type*} [Field α] [LinearOrder α] [FloorRing α]

/-- The loop creates the tasks one after the other. -/
theorem foldl_cacheIntensiveRound (draws : Draws α) (cores pos : ℕ) (utilizations : List α)
    (highSensitivityCount : Int32) (taskCount : ℕ) :
    ∃ posAt : ℕ → ℕ,
      ((List.range taskCount).foldl
        (cacheIntensiveRound draws cores utilizations highSensitivityCount) ([], pos)).1 =
      (List.range taskCount).map fun i =>
        (createCacheIntensiveTask draws cores (posAt i) i (utilizations.getD i 0.1)
          ((i : Int) < highSensitivityCount.toInt)).1 := by
  refine ⟨fun i => ((List.range i).foldl
    (cacheIntensiveRound draws cores utilizations highSensitivityCount) ([], pos)).2, ?_⟩
  induction taskCount with
  | zero => rfl
  | succ taskCount ih =>
      rw [List.range_succ, List.foldl_append, List.map_append, ← ih]
      rfl

variable [IsStrictOrderedRing α]

/-- A task set is generated task by task, from the utilisations. -/
theorem generateCacheIntensiveTasks_eq (draws : Draws α) (cores pos : ℕ) {taskCount : ℕ}
    (hcount : 1 ≤ taskCount) {totalUtilization : α} (h : 0 ≤ totalUtilization)
    (highSensitivityRatio : ℚ) :
    ∃ (utilizations : List α) (posAt : ℕ → ℕ) (pos' : ℕ),
      generateCacheIntensiveTasks draws cores pos taskCount totalUtilization
        highSensitivityRatio =
          some ((List.range taskCount).map fun i =>
            (createCacheIntensiveTask draws cores (posAt i) i (utilizations.getD i 0.1)
              ((i : Int) < (intOf (taskCount * highSensitivityRatio)).toInt)).1, pos') ∧
      utilizations.length = taskCount ∧ (∀ util ∈ utilizations, 0 ≤ util) ∧
      utilizations.sum ≤ totalUtilization := by
  rcases complexUtilizations_spec draws cores pos hcount h with
    ⟨utilizations, pos', hutilizations, hlength, hnonneg, hsum⟩
  rcases foldl_cacheIntensiveRound draws cores pos' utilizations
    (intOf (taskCount * highSensitivityRatio)) taskCount with ⟨posAt, hloop⟩
  refine ⟨utilizations, posAt, ((List.range taskCount).foldl (cacheIntensiveRound draws cores
    utilizations (intOf (taskCount * highSensitivityRatio))) ([], pos')).2, ?_, hlength, hnonneg,
    hsum⟩
  unfold generateCacheIntensiveTasks
  rw [hutilizations, ← hloop]
  rfl

omit [LinearOrder α] [FloorRing α] [IsStrictOrderedRing α] in
/-- The utilisations the loop reads are those of the list. -/
theorem map_getD_range (utilizations : List α) :
    (List.range utilizations.length).map (fun i => utilizations.getD i 0.1) = utilizations := by
  apply List.ext_getElem
  · simp
  · intro i hi hi'
    simp [hi']

/-- For all draws a task set is generated: each of its tasks is as it should be, and exceeds
its utilisation by ten microseconds at most. -/
theorem exists_cacheIntensiveTasks (draws : Draws α) {cores : ℕ} (hcores : 0 < cores)
    (pos : ℕ) {taskCount : ℕ} (hcount : 1 ≤ taskCount) {totalUtilization : α}
    (h : 0 ≤ totalUtilization) (highSensitivityRatio : ℚ) :
    ∃ tasks pos', generateCacheIntensiveTasks draws cores pos taskCount totalUtilization
        highSensitivityRatio = some (tasks, pos') ∧
      tasks.length = taskCount ∧
      (∀ i (hi : i < tasks.length), CacheIntensive cores i
        ((i : Int) < (intOf (taskCount * highSensitivityRatio)).toInt) tasks[i]) ∧
      (totalTime tasks : α) ≤ totalUtilization * 1000000 + 10000 * taskCount := by
  rcases generateCacheIntensiveTasks_eq draws cores pos hcount h highSensitivityRatio with
    ⟨utilizations, posAt, pos', hrun, hlength, hnonneg, hsum⟩
  have hget : ∀ i, i < taskCount → 0 ≤ utilizations.getD i 0.1 := by
    intro i hi
    rw [List.getD_eq_getElem _ _ (hlength ▸ hi)]
    exact hnonneg _ (List.getElem_mem _)
  refine ⟨_, pos', hrun, by simp, ?_, ?_⟩
  · intro i hi
    rw [List.getElem_map, List.getElem_range]
    exact createCacheIntensiveTask_spec draws hcores _ i _ _
  · unfold totalTime
    rw [List.map_map, Int.cast_list_sum, List.map_map]
    calc ((List.range taskCount).map _).sum
        ≤ ((List.range taskCount).map fun i =>
            utilizations.getD i 0.1 * 1000000 + 10000).sum := by
          apply List.sum_le_sum
          intro i hi
          exact createCacheIntensiveTask_time draws cores (posAt i) i
            (hget i (List.mem_range.mp hi)) _
      _ = utilizations.sum * 1000000 + 10000 * taskCount := by
          rw [List.sum_map_add, List.sum_map_mul_right, ← hlength, map_getD_range]
          simp [mul_comm]
      _ ≤ totalUtilization * 1000000 + 10000 * taskCount := by
          gcongr

/-- The first tasks are the sensitive ones, and no others are. -/
theorem countP_sensitive {cores : ℕ} {bound : Int} {tasks : List Node}
    (h : ∀ i (hi : i < tasks.length), CacheIntensive cores i ((i : Int) < bound) tasks[i]) :
    tasks.countP (fun task => 0.7 ≤ task.sensitivity) = min tasks.length bound.toNat := by
  induction tasks using List.reverseRecOn with
  | nil => simp
  | append_singleton tasks task ih =>
      have hlast : CacheIntensive cores tasks.length ((tasks.length : Int) < bound) task := by
        simpa using h tasks.length (by simp)
      have hbefore := ih fun i hi => by
        have hi' : i < (tasks ++ [task]).length := by
          rw [List.length_append]
          omega
        simpa [List.getElem_append_left hi] using h i hi'
      rw [List.countP_append, hbefore, List.countP_singleton, List.length_append,
        List.length_singleton]
      by_cases hn : (tasks.length : Int) < bound
      · rw [decide_eq_true (hlast.high (decide_eq_true hn)).1, if_pos rfl]
        omega
      · have hlow : ¬0.7 ≤ task.sensitivity := by
          linarith [(hlast.low (decide_eq_false hn)).2]
        rw [decide_eq_false hlow, if_neg Bool.false_ne_true]
        omega

/-- For all draws and at least one core a task set is generated: it has as many tasks as
asked for, and each of them is as it should be, the sensitive ones first. -/
theorem generateCacheIntensiveTasks_spec (draws : Draws α) {cores : ℕ} (hcores : 0 < cores)
    (pos : ℕ) {taskCount : ℕ} (hcount : 1 ≤ taskCount) {totalUtilization : α}
    (h : 0 ≤ totalUtilization) (highSensitivityRatio : ℚ) :
    ∃ tasks pos', generateCacheIntensiveTasks draws cores pos taskCount totalUtilization
        highSensitivityRatio = some (tasks, pos') ∧
      tasks.length = taskCount ∧
      (∀ i (hi : i < tasks.length), CacheIntensive cores i
        ((i : Int) < (intOf (taskCount * highSensitivityRatio)).toInt) tasks[i]) ∧
      tasks.countP (fun task => 0.7 ≤ task.sensitivity) =
        min taskCount (intOf (taskCount * highSensitivityRatio)).toInt.toNat ∧
      (totalTime tasks : α) ≤ totalUtilization * 1000000 + 10000 * taskCount := by
  rcases exists_cacheIntensiveTasks draws hcores pos hcount h highSensitivityRatio with
    ⟨tasks, pos', hrun, hlength, htasks, htime⟩
  have hsensitive := countP_sensitive htasks
  rw [hlength] at hsensitive
  exact ⟨tasks, pos', hrun, hlength, htasks, hsensitive, htime⟩

end TaskSet

/-- In the task sets of the experiment 42 of 60 tasks are sensitive. -/
theorem generateCacheIntensiveTasks_sixtyTasks :
    ∃ tasks pos', generateCacheIntensiveTasks zeroDraws 8 0 60 0.6 0.7 = some (tasks, pos') ∧
      tasks.length = 60 ∧ tasks.countP (fun task => 0.7 ≤ task.sensitivity) = 42 ∧
      (totalTime tasks : ℚ) ≤ 1200000 := by
  have hcores : 0 < 8 := by decide
  have htasks : 1 ≤ 60 := by decide
  have hutilization : (0 : ℚ) ≤ 0.6 := by norm_num
  rcases generateCacheIntensiveTasks_spec zeroDraws hcores 0 htasks hutilization 0.7 with
    ⟨tasks, pos', hrun, hlength, _, hcount, htime⟩
  refine ⟨tasks, pos', hrun, hlength, hcount.trans (by decide +kernel), htime.trans ?_⟩
  norm_num

end Simu
end YatCasched
