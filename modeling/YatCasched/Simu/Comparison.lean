import YatCasched.Simu.TestCase

/-!
# The whole experiment

{lit}`AlgorithmComparisonExperiment.runComparison`: a hundred test cases at five levels of
utilisation, each with its own task set from one generator, both simulations and both
analyses, the statistics of wins and improvements, the report and the final resets.  The
draws of the generators and the readings of the clock are arbitrary.

Main results:

- Theorem {lit}`compareTest_spec`: one test case, after any number of others.
- Theorem {lit}`runComparison_completes`: the experiment always ends, with consistent books.
- Theorem {lit}`runComparison_measured`: the metrics of all results are in their ranges.
- Theorem {lit}`runComparison_gain`: the cache-aware allocator never takes more time in
  total or more energy.
- Theorem {lit}`runComparison_report`: what the report says.
-/

namespace YatCasched
namespace Simu
namespace AlgorithmComparisonExperiment

/-! ## The experiment -/

/-- {lit}`TOTAL_TEST_CASES`. -/
def totalTestCases : ℕ := 100

/-- {lit}`TASKS_PER_CASE`. -/
def tasksPerCase : ℕ := 60

/-- {lit}`UTILIZATION_LEVELS`. -/
def utilizationLevels : List ℚ := [0.6, 0.8, 1, 1.2, 1.5]

/-- {lit}`HIGH_CACHE_SENSITIVITY_RATIO`. -/
def highCacheSensitivityRatio : ℚ := 0.7

/-- What ends the program early. -/
inductive Stop
  /-- The generator calls {lit}`System.exit`. -/
  | exits
  | throws (e : JavaException)

/-- The local variables of {lit}`runComparison`, the draws and readings of the clock so far,
the static state of the allocators and the results of the analyzer.  The two lists of the
map {lit}`algorithmResults` are kept apart. -/
structure Variables where
  statics : Statics
  draws : ℕ
  readings : ℕ
  results : List ExperimentResult
  wfdResults : List ExperimentResult
  cacheResults : List ExperimentResult
  completedTests : ℕ
  wfdWins : ℕ
  cacheAwareWins : ℕ
  totalMakespanImprovement : ℚ
  totalCacheHitImprovement : ℚ

/-- Before the first test case. -/
def Variables.start : Variables where
  statics := .fresh
  draws := 0
  readings := 0
  results := []
  wfdResults := []
  cacheResults := []
  completedTests := 0
  wfdWins := 0
  cacheAwareWins := 0
  totalMakespanImprovement := 0
  totalCacheHitImprovement := 0

/-- {lit}`(endTime - startTime) / 1_000_000.0`, for two readings one after the other. -/
def elapsedMs (nanoTime : ℕ → Int64) (readings : ℕ) : ℚ :=
  (nanoTime (readings + 1) - nanoTime readings).toInt / 1000000

/-- {lit}`makespanImprovement`.  The quotient is never one by zero. -/
def makespanImprovement (wfdResult cacheResult : ExperimentResult) : ℚ :=
  (wfdResult.makespan - cacheResult.makespan) / wfdResult.makespan

/-- {lit}`cacheHitImprovement`. -/
def cacheHitImprovement (wfdResult cacheResult : ExperimentResult) : ℚ :=
  cacheResult.cacheHitRatio - wfdResult.cacheHitRatio

/-- What a test case does to the variables once both results are there. -/
noncomputable def Variables.record (v : Variables) (statics : Statics) (draws : ℕ)
    (results : List ExperimentResult) (wfdResult cacheResult : ExperimentResult) : Variables where
  statics := statics
  draws := draws
  readings := v.readings + 4
  results := results
  wfdResults := v.wfdResults ++ [wfdResult]
  cacheResults := v.cacheResults ++ [cacheResult]
  completedTests := v.completedTests + 1
  wfdWins := if cacheResult.makespan < wfdResult.makespan then v.wfdWins else v.wfdWins + 1
  cacheAwareWins :=
    if cacheResult.makespan < wfdResult.makespan then v.cacheAwareWins + 1 else v.cacheAwareWins
  totalMakespanImprovement :=
    v.totalMakespanImprovement + makespanImprovement wfdResult cacheResult
  totalCacheHitImprovement :=
    v.totalCacheHitImprovement + cacheHitImprovement wfdResult cacheResult

section Program

variable {α : Type*} [Field α] [LinearOrder α] [FloorRing α]

/-- The body of the inner loop of {lit}`runComparison`. -/
noncomputable def compareTest (rng : Draws α) (drawn : ℕ → Drawn) (nanoTime : ℕ → Int64)
    (utilization : ℚ) (v : Variables) : Except Stop Variables :=
  let completedTests := v.completedTests + 1
  match generateCacheIntensiveTasks rng cores v.draws tasksPerCase (utilization : α)
    highCacheSensitivityRatio with
  | none => .error .exits
  | some (originalTasks, draws) =>
      match wfdTest drawn v.statics originalTasks with
      | .error e => .error (.throws e)
      | .ok (statics, wfdTasks) =>
          let (results, wfdResult) := analyzeAlgorithmPerformance v.results "WFD" completedTests
            wfdTasks cores (elapsedMs nanoTime v.readings) utilization
          match cacheAwareTest drawn statics originalTasks with
          | .error e => .error (.throws e)
          | .ok (statics, cacheTasks) =>
              let (results, cacheResult) := analyzeAlgorithmPerformance results "CacheAware_v2"
                completedTests cacheTasks cores (elapsedMs nanoTime (v.readings + 2)) utilization
              .ok (v.record statics draws results wfdResult cacheResult)

/-- The inner loop of {lit}`runComparison`. -/
noncomputable def compareLevel (rng : Draws α) (drawn : ℕ → Drawn) (nanoTime : ℕ → Int64)
    (v : Variables) (utilization : ℚ) : Except Stop Variables :=
  let testsPerLevel := totalTestCases / utilizationLevels.length
  (List.range testsPerLevel).foldlM (fun v _ => compareTest rng drawn nanoTime utilization v) v

end Program

/-- {lit}`mapToDouble(value).average().orElse(0)`. -/
def averageOf (value : ExperimentResult → ℚ) (results : List ExperimentResult) : ℚ :=
  if results.isEmpty then 0 else (results.map value).sum / results.length

/-- The grades of {lit}`generateReport`. -/
inductive Grade
  | significant
  | moderate
  | small
deriving DecidableEq

/-- A grade, by the bounds of the two better ones. -/
def grade (high middle value : ℚ) : Grade :=
  if value > high then .significant else if value > middle then .moderate else .small

/-- The numbers and the grades that {lit}`generateReport` prints. -/
structure Report where
  totalTests : ℕ
  avgMakespanImprovement : ℚ
  avgCacheHitImprovement : ℚ
  winRate : ℚ
  wfdAvgMakespan : ℚ
  cacheAvgMakespan : ℚ
  wfdAvgCacheHit : ℚ
  cacheAvgCacheHit : ℚ
  makespanGrade : Grade
  winGrade : Grade

/-- {lit}`generateReport`. -/
def generateReport (v : Variables) : Report :=
  let avgMakespanImprovement := v.totalMakespanImprovement / v.completedTests * 100
  let avgCacheHitImprovement := v.totalCacheHitImprovement / v.completedTests * 100
  let winRate : ℚ := v.cacheAwareWins / v.completedTests * 100
  { totalTests := v.completedTests
    avgMakespanImprovement := avgMakespanImprovement
    avgCacheHitImprovement := avgCacheHitImprovement
    winRate := winRate
    wfdAvgMakespan := averageOf ExperimentResult.makespan v.wfdResults
    cacheAvgMakespan := averageOf ExperimentResult.makespan v.cacheResults
    wfdAvgCacheHit := averageOf ExperimentResult.cacheHitRatio v.wfdResults
    cacheAvgCacheHit := averageOf ExperimentResult.cacheHitRatio v.cacheResults
    makespanGrade := grade 15 5 avgMakespanImprovement
    winGrade := grade 75 60 winRate }

/-- {lit}`runComparison`: the variables at its end and the report. -/
noncomputable def runComparison {α : Type*} [Field α] [LinearOrder α] [FloorRing α]
    (rng : Draws α) (drawn : ℕ → Drawn) (nanoTime : ℕ → Int64) :
    Except Stop (Variables × Report) :=
  match utilizationLevels.foldlM (compareLevel rng drawn nanoTime) .start with
  | .error e => .error e
  | .ok v =>
      .ok ({ v with
        statics := { wfd := WFD.resetLoads, cacheAware := CacheAwareState.resetState } },
        generateReport v)

/-! ## One test case -/

/-- What is known of the results of a test case. -/
structure Tested (test : ℚ × ℕ) (pair : ExperimentResult × ExperimentResult) : Prop where
  wfd : Measured tasksPerCase cores pair.1
  cache : Measured tasksPerCase cores pair.2
  gain : Gain tasksPerCase pair.1 pair.2
  wfdName : pair.1.algorithmName = "WFD"
  cacheName : pair.2.algorithmName = "CacheAware_v2"
  wfdLabel : pair.1.testCaseId = test.2 ∧ pair.1.utilizationLevel = test.1
  cacheLabel : pair.2.testCaseId = test.2 ∧ pair.2.utilizationLevel = test.1
  wfdHitRatio : 0.3 ≤ pair.1.cacheHitRatio ∧ pair.1.cacheHitRatio ≤ 0.7
  wfdTotal : 600000 ≤ pair.1.totalTaskExecutionTime ∧
    pair.1.totalTaskExecutionTime ≤ test.1 * 1000000 + 600000

/-- The books after some test cases, for the levels of utilisation and the results of
each. -/
structure Compared (levels : List ℚ) (pairs : List (ExperimentResult × ExperimentResult))
    (v : Variables) : Prop where
  loads : ∃ tests, CarriedLoads tests v.statics.wfd ∧
    totalTime tests.flatten ≤ 2100000 * levels.length
  tested : List.Forall₂ Tested (levels.zipIdx 1) pairs
  results : v.results = pairs.flatMap fun pair => [pair.1, pair.2]
  wfdResults : v.wfdResults = pairs.map Prod.fst
  cacheResults : v.cacheResults = pairs.map Prod.snd
  completedTests : v.completedTests = pairs.length
  cacheAwareWins : v.cacheAwareWins =
    pairs.countP fun pair => pair.2.makespan < pair.1.makespan
  wfdWins : v.wfdWins + v.cacheAwareWins = pairs.length
  totalMakespanImprovement : v.totalMakespanImprovement =
    (pairs.map fun pair => makespanImprovement pair.1 pair.2).sum
  totalCacheHitImprovement : v.totalCacheHitImprovement =
    (pairs.map fun pair => cacheHitImprovement pair.1 pair.2).sum

theorem compared_start : Compared [] [] .start where
  loads := ⟨[], carriedLoads_resetLoads, le_rfl⟩
  tested := .nil
  results := rfl
  wfdResults := rfl
  cacheResults := rfl
  completedTests := rfl
  cacheAwareWins := rfl
  wfdWins := rfl
  totalMakespanImprovement := rfl
  totalCacheHitImprovement := rfl

theorem Compared.length_eq {levels : List ℚ} {pairs : List (ExperimentResult × ExperimentResult)}
    {v : Variables} (h : Compared levels pairs v) : pairs.length = levels.length := by
  rw [← h.tested.length_eq, List.length_zipIdx]

section Run

variable {α : Type*} [Field α] [LinearOrder α] [FloorRing α] [IsStrictOrderedRing α]
  {levels : List ℚ} {pairs : List (ExperimentResult × ExperimentResult)} {v : Variables}
  {utilization : ℚ}

/-- The task set of a test case. -/
theorem generateCacheIntensiveTasks_usesCache (rng : Draws α) (pos : ℕ)
    (hutilization : 0 ≤ utilization) :
    ∃ tasks pos', generateCacheIntensiveTasks rng cores pos tasksPerCase (utilization : α)
        highCacheSensitivityRatio = some (tasks, pos') ∧
      tasks.length = tasksPerCase ∧
      (∀ task ∈ tasks, task.UsesCache ∧ 10000 ≤ task.expectedET.toInt) ∧
      600000 ≤ totalTime tasks ∧ (totalTime tasks : ℚ) ≤ utilization * 1000000 + 600000 := by
  have hcast : (0 : α) ≤ (utilization : α) := by exact_mod_cast hutilization
  rcases exists_cacheIntensiveTasks rng (by decide : 0 < cores) pos
    (by decide : 1 ≤ tasksPerCase) hcast highCacheSensitivityRatio with
      ⟨tasks, pos', hrun, hlength, htasks, htime⟩
  have hmem : ∀ task ∈ tasks, task.UsesCache ∧ 10000 ≤ task.expectedET.toInt := by
    intro task htask
    rcases List.mem_iff_getElem.mp htask with ⟨i, hi, rfl⟩
    exact ⟨(htasks i hi).usesCache, (htasks i hi).time⟩
  refine ⟨tasks, pos', hrun, hlength, hmem, ?_, ?_⟩
  · have hle := List.card_nsmul_le_sum (tasks.map fun task => task.expectedET.toInt) 10000
      fun x hx => by
        rcases List.mem_map.mp hx with ⟨task, htask, rfl⟩
        exact (hmem task htask).2
    rw [List.length_map, hlength] at hle
    exact hle
  · have hbound : ((totalTime tasks : ℚ) : α) ≤
        ((utilization * 1000000 + 600000 : ℚ) : α) := by
      push_cast
      refine htime.trans_eq ?_
      rw [show tasksPerCase = 60 from rfl]
      norm_num
    exact Rat.cast_le.mp hbound

/-- The results of a test case, from its two schedules. -/
theorem tested_of_scheduled {original wfdTasks cacheTasks : List Node} {drawn : ℕ → Drawn}
    {st : CacheAwareState} {testCaseId : ℕ} {ms ms' : ℚ} (hlength : original.length = tasksPerCase)
    (htasks : ∀ task ∈ original, task.UsesCache ∧ 10000 ≤ task.expectedET.toInt)
    (htotal : 600000 ≤ totalTime original)
    (htotal' : (totalTime original : ℚ) ≤ utilization * 1000000 + 600000)
    (hroom : totalTime original + 1 < 2 ^ 63)
    (hwfd : Scheduled cores (fun _ => 0) (cloneTasks drawn original) wfdTasks)
    (hkept : wfdTasks.map Node.expectedET = (cloneTasks drawn original).map Node.expectedET)
    (hcache : Scheduled cores (fun _ => 0) (cloneTasks drawn original) cacheTasks)
    (haccounted : Accounted cores st cacheTasks)
    (hcached : List.Forall₂ Cached (cloneTasks drawn original) cacheTasks) :
    Tested (utilization, testCaseId)
      (experimentResult "WFD" testCaseId wfdTasks cores ms utilization,
        experimentResult "CacheAware_v2" testCaseId cacheTasks cores ms' utilization) := by
  have hP : cores ≤ 2 ^ 31 := by decide
  have hproper : ∀ task ∈ original, task.Proper := fun task htask =>
    (htasks task htask).1.toProper
  have hne : original ≠ [] := by
    apply List.ne_nil_of_length_pos
    rw [hlength]
    decide
  have hclones := (totalTime_cloneTasks drawn original).1
  have hclonesLength : (cloneTasks drawn original).length = tasksPerCase := by
    rw [← hlength]
    simp [cloneTasks]
  have htimes : ∀ task ∈ cloneTasks drawn original, 10000 ≤ task.expectedET.toInt := by
    intro task htask
    rcases List.mem_mapIdx.mp htask with ⟨i, hi, rfl⟩
    rw [cloneTask_expectedET]
    exact (htasks _ (List.getElem_mem hi)).2
  have hwfdPos : ∀ task ∈ wfdTasks, 0 < task.expectedET.toInt := by
    intro task htask
    have hmem : task.expectedET ∈ (cloneTasks drawn original).map Node.expectedET := by
      rw [← hkept]
      exact List.mem_map_of_mem htask
    rcases List.mem_map.mp hmem with ⟨clone, hclone, heq⟩
    have hle := htimes clone hclone
    rw [heq] at hle
    omega
  have hcachePos : ∀ task ∈ cacheTasks, 0 < task.expectedET.toInt :=
    forall_mem_of_forall₂ hcached (fun task task' htask hle => by
      have hhalf := htask.half
      omega : ∀ task task', Cached task task' → 10000 ≤ task.expectedET.toInt →
        0 < task'.expectedET.toInt) htimes
  have hown : ∀ task ∈ cacheTasks, 0.1 ≤ task.ownHitRatio ∧ task.ownHitRatio ≤ 1 :=
    forall_mem_of_forall₂ hcached (fun _ _ htask _ => ⟨htask.own_ge, htask.own_le⟩)
      fun _ _ => trivial
  have hcacheNe : cacheTasks ≠ [] := by
    apply List.ne_nil_of_length_pos
    rw [hcache.length_eq, hclonesLength]
    decide
  have hcacheRatio := haccounted.cacheHitRatio_eq hcacheNe hown
  have hwfdRatio := calculateWFDCacheHitRatio_bounds wfdTasks
  have hwfdTotal : calculateTotalTaskExecutionTime wfdTasks = totalTime original := by
    have hints := congrArg (List.map Int64.toInt) hkept
    rw [List.map_map, List.map_map] at hints
    rw [hwfd.totalTaskExecutionTime_eq hP (hwfd.noOverflow hP (by omega)), ← hclones]
    exact congrArg (fun times : List Int => ((times.sum : Int) : ℚ)) hints
  constructor
  case wfd =>
    rw [← hlength]
    refine hwfd.measured hP hne hproper hroom hwfdPos (by decide) ?_
    rw [calculateCacheHitRatio_wfd]
    constructor
    all_goals linarith
  case cache =>
    rw [← hlength]
    refine hcache.measured hP hne hproper hroom hcachePos (by decide) ?_
    rw [hcacheRatio.1]
    exact hcacheRatio.2
  case gain =>
    rw [← hclonesLength]
    exact gain_of_cached hwfd hkept hcache hcached hP (proper_of_mem_cloneTasks hproper drawn)
      (by omega)
  case wfdName => rfl
  case cacheName => rfl
  case wfdLabel => exact ⟨rfl, rfl⟩
  case cacheLabel => exact ⟨rfl, rfl⟩
  case wfdHitRatio =>
    have heq := calculateCacheHitRatio_wfd wfdTasks
    exact ⟨hwfdRatio.1.trans_eq heq.symm, heq.trans_le hwfdRatio.2⟩
  case wfdTotal =>
    constructor
    · exact le_trans (by exact_mod_cast htotal) hwfdTotal.symm.le
    · exact hwfdTotal.trans_le htotal'

/-- The books after one more test case. -/
theorem Compared.record (h : Compared levels pairs v) (statics : Statics)
    {wfdResult cacheResult : ExperimentResult}
    (hloads : ∃ tests, CarriedLoads tests statics.wfd ∧
      totalTime tests.flatten ≤ 2100000 * (levels.length + 1))
    (htested : Tested (utilization, v.completedTests + 1) (wfdResult, cacheResult)) (draws : ℕ) :
    Compared (levels ++ [utilization]) (pairs ++ [(wfdResult, cacheResult)])
      (v.record statics draws (v.results ++ [wfdResult] ++ [cacheResult]) wfdResult
        cacheResult) := by
  have hwins := h.cacheAwareWins
  have hlosses := h.wfdWins
  constructor
  case loads =>
    rcases hloads with ⟨tests, hcarried, hsum⟩
    refine ⟨tests, hcarried, ?_⟩
    rw [List.length_append, List.length_singleton]
    push_cast
    exact hsum
  case tested =>
    rw [List.zipIdx_append, add_comm, ← h.length_eq, ← h.completedTests]
    exact List.rel_append h.tested (.cons htested .nil)
  case results => simp [Variables.record, h.results]
  case wfdResults => simp [Variables.record, h.wfdResults]
  case cacheResults => simp [Variables.record, h.cacheResults]
  case completedTests => simp [Variables.record, h.completedTests]
  case cacheAwareWins =>
    unfold Variables.record
    rw [List.countP_append, List.countP_singleton, ← hwins]
    by_cases hlt : cacheResult.makespan < wfdResult.makespan
    · simp [hlt]
    · simp [hlt]
  case wfdWins =>
    unfold Variables.record
    rw [List.length_append, List.length_singleton]
    by_cases hlt : cacheResult.makespan < wfdResult.makespan
    · simp only [hlt, if_true]
      omega
    · simp only [hlt, if_false]
      omega
  case totalMakespanImprovement => simp [Variables.record, h.totalMakespanImprovement]
  case totalCacheHitImprovement => simp [Variables.record, h.totalCacheHitImprovement]

/-- One test case, after any number of others. -/
theorem compareTest_spec (h : Compared levels pairs v) (rng : Draws α) (drawn : ℕ → Drawn)
    (nanoTime : ℕ → Int64) (hutilization : 0 ≤ utilization) (hutilization' : utilization ≤ 1.5)
    (hroom : levels.length < totalTestCases) :
    ∃ pair v', compareTest rng drawn nanoTime utilization v = .ok v' ∧
      Compared (levels ++ [utilization]) (pairs ++ [pair]) v' := by
  rcases generateCacheIntensiveTasks_usesCache rng v.draws hutilization with
    ⟨original, draws, hgenerate, hlength, htasks, htotal, htotal'⟩
  rcases h.loads with ⟨tests, hloads, hsum⟩
  have hshort : totalTime original ≤ 2100000 := by
    have hle : (totalTime original : ℚ) ≤ 2100000 := by linarith
    exact_mod_cast hle
  have hfits : totalTime (tests.flatten ++ original) < 2 ^ 31 - 1 := by
    rw [totalTime_append]
    unfold totalTestCases at hroom
    omega
  rcases hloads.wfdTest drawn (fun task htask => (htasks task htask).1.toProper) hfits with
    ⟨L, wfdTasks, hwfdTest, hloads', hwfd, hkept, _⟩
  rcases cacheAwareTest_spec drawn { v.statics with wfd := L }
    (fun task htask => (htasks task htask).1) (by rw [hlength]; decide) with
      ⟨st, cacheTasks, hcacheTest, hcache, haccounted, hcached⟩
  have htested := @tested_of_scheduled utilization original wfdTasks cacheTasks drawn st
    (v.completedTests + 1) (elapsedMs nanoTime v.readings) (elapsedMs nanoTime (v.readings + 2))
    hlength htasks htotal htotal' (by omega) hwfd hkept hcache haccounted hcached
  refine ⟨_, _, ?_, h.record { wfd := L, cacheAware := st } ⟨tests ++ [original], hloads', ?_⟩
    htested draws⟩
  · unfold compareTest
    rw [hgenerate]
    dsimp only
    rw [hwfdTest]
    dsimp only
    rw [hcacheTest]
    rfl
  · rw [List.flatten_append, List.flatten_singleton, totalTime_append]
    omega

/-! ## All test cases -/

/-- The test cases of one level. -/
theorem compareLevel_spec (h : Compared levels pairs v) (rng : Draws α) (drawn : ℕ → Drawn)
    (nanoTime : ℕ → Int64) (hutilization : 0 ≤ utilization) (hutilization' : utilization ≤ 1.5)
    (hroom : levels.length + 20 ≤ totalTestCases) :
    ∃ pairs' v', compareLevel rng drawn nanoTime v utilization = .ok v' ∧
      Compared (levels ++ List.replicate 20 utilization) pairs' v' := by
  have hloop : ∀ tests : List ℕ, tests.length ≤ 20 →
      ∃ v', tests.foldlM (fun v _ => compareTest rng drawn nanoTime utilization v) v = .ok v' ∧
        ∃ pairs', Compared (levels ++ List.replicate tests.length utilization) pairs' v' := by
    intro tests htests
    apply Run.exists_foldlM
    · exact ⟨pairs, by simpa using h⟩
    · rintro before test after v' rfl ⟨pairs', h'⟩
      rw [List.length_append, List.length_cons] at htests
      rcases compareTest_spec h' rng drawn nanoTime hutilization hutilization' (by
        rw [List.length_append, List.length_replicate]
        omega) with ⟨pair, v'', hrun, h''⟩
      refine ⟨v'', hrun, pairs' ++ [pair], ?_⟩
      rw [List.length_append, List.length_singleton, List.replicate_succ', ← List.append_assoc]
      exact h''
  rcases hloop (List.range 20) (by simp) with ⟨v', hrun, pairs', h'⟩
  rw [List.length_range] at h'
  exact ⟨pairs', v', hrun, h'⟩

/-- The levels of the test cases at some levels. -/
def testsAt (levels : List ℚ) : List ℚ :=
  levels.flatMap (List.replicate 20)

theorem testsAt_append_singleton (levels : List ℚ) (utilization : ℚ) :
    testsAt (levels ++ [utilization]) = testsAt levels ++ List.replicate 20 utilization := by
  simp [testsAt]

theorem length_testsAt (levels : List ℚ) : (testsAt levels).length = 20 * levels.length := by
  simp [testsAt, mul_comm]

/-- The outer loop. -/
theorem compareLevels_spec (rng : Draws α) (drawn : ℕ → Drawn) (nanoTime : ℕ → Int64)
    (hlevels : ∀ utilization ∈ levels, 0 ≤ utilization ∧ utilization ≤ 1.5)
    (hroom : 20 * levels.length ≤ totalTestCases) :
    ∃ v, levels.foldlM (compareLevel rng drawn nanoTime) .start = .ok v ∧
      ∃ pairs, Compared (testsAt levels) pairs v := by
  apply Run.exists_foldlM
  · exact ⟨[], compared_start⟩
  · rintro before utilization after v rfl ⟨pairs, h⟩
    rw [List.length_append, List.length_cons] at hroom
    have hrange := hlevels utilization (by simp)
    rcases compareLevel_spec h rng drawn nanoTime hrange.1 hrange.2 (by
      rw [length_testsAt]
      omega) with ⟨pairs', v', hrun, h'⟩
    exact ⟨v', hrun, pairs', by rw [testsAt_append_singleton]; exact h'⟩

/-- Whatever the generators draw and the clock says, the experiment ends with its books in
order and the allocators reset. -/
theorem runComparison_compared (rng : Draws α) (drawn : ℕ → Drawn) (nanoTime : ℕ → Int64) :
    ∃ v pairs, runComparison rng drawn nanoTime = .ok (v, generateReport v) ∧
      Compared (testsAt utilizationLevels) pairs v ∧ v.statics = .fresh := by
  have hlevels : ∀ utilization ∈ utilizationLevels, 0 ≤ utilization ∧ utilization ≤ 1.5 := by
    intro utilization hmem
    simp only [utilizationLevels, List.mem_cons, List.not_mem_nil, or_false] at hmem
    rcases hmem with rfl | rfl | rfl | rfl | rfl
    all_goals norm_num
  rcases compareLevels_spec rng drawn nanoTime hlevels (by decide) with ⟨v, hrun, pairs, h⟩
  refine ⟨{ v with statics := { wfd := WFD.resetLoads, cacheAware := .resetState } }, pairs, ?_,
    { h with loads := ⟨[], carriedLoads_resetLoads, by simp [totalTime]⟩ }, rfl⟩
  unfold runComparison
  rw [hrun]
  rfl

end Run

/-! ## The books -/

section Books

variable {levels : List ℚ} {pairs : List (ExperimentResult × ExperimentResult)} {v : Variables}

/-- Both lists together are the pairs of results. -/
theorem Compared.zip_eq (h : Compared levels pairs v) :
    v.wfdResults.zip v.cacheResults = pairs := by
  rw [h.wfdResults, h.cacheResults, ← List.unzip_fst, ← List.unzip_snd, List.zip_unzip]

/-- What every test case promises of its level and its results. -/
theorem Compared.forall_pairs (h : Compared levels pairs v) :
    ∀ pair ∈ pairs, ∃ test ∈ levels.zipIdx 1, Tested test pair := by
  have htested := h.tested
  clear h
  generalize levels.zipIdx 1 = tests at htested ⊢
  induction htested with
  | nil => simp
  | @cons test pair tests pairs htest _ ih =>
      intro p hp
      rcases List.mem_cons.mp hp with rfl | hp
      · exact ⟨test, List.mem_cons_self, htest⟩
      · rcases ih p hp with ⟨t, ht, htested⟩
        exact ⟨t, List.mem_cons_of_mem test ht, htested⟩

/-- The labels of the results. -/
theorem Compared.labels (h : Compared levels pairs v) :
    v.wfdResults.map (fun result => (result.utilizationLevel, result.testCaseId)) =
        levels.zipIdx 1 ∧
      v.cacheResults.map (fun result => (result.utilizationLevel, result.testCaseId)) =
        levels.zipIdx 1 := by
  have htested := h.tested
  rw [h.wfdResults, h.cacheResults]
  clear h
  generalize levels.zipIdx 1 = tests at htested ⊢
  induction htested with
  | nil => exact ⟨rfl, rfl⟩
  | cons htest _ ih =>
      rw [List.map_map, List.map_map] at ih
      simp only [List.map_cons, htest.wfdLabel, htest.cacheLabel, List.map_map, ih, and_self]

/-- The analyzer groups its results as the experiment does. -/
theorem Compared.groupByAlgorithm_eq (h : Compared levels pairs v) (hne : pairs ≠ []) :
    groupByAlgorithm v.results "WFD" = some v.wfdResults ∧
      groupByAlgorithm v.results "CacheAware_v2" = some v.cacheResults := by
  have hgroups : (v.results.filter fun result => result.algorithmName = "WFD") = v.wfdResults ∧
      (v.results.filter fun result => result.algorithmName = "CacheAware_v2") =
        v.cacheResults := by
    have hpairs := h.forall_pairs
    rw [h.results, h.wfdResults, h.cacheResults]
    clear h hne
    induction pairs with
    | nil => exact ⟨rfl, rfl⟩
    | cons pair pairs ih =>
        rcases hpairs pair List.mem_cons_self with ⟨test, _, htest⟩
        have hrest := ih fun p hp => hpairs p (List.mem_cons_of_mem pair hp)
        rw [List.flatMap_cons, List.filter_append, List.filter_append, hrest.1, hrest.2]
        simp [htest.wfdName, htest.cacheName]
  rw [Simu.groupByAlgorithm_eq, Simu.groupByAlgorithm_eq]
  dsimp only
  rw [hgroups.1, hgroups.2, h.wfdResults, h.cacheResults]
  simp [hne]

/-- The improvement of a test case. -/
theorem Tested.makespanImprovement_bounds {test : ℚ × ℕ}
    {pair : ExperimentResult × ExperimentResult} (h : Tested test pair) :
    -7 ≤ makespanImprovement pair.1 pair.2 ∧ makespanImprovement pair.1 pair.2 ≤ 0.94 := by
  have hpos := h.wfd.makespan_pos
  have hwfd := h.wfd.mean_le_makespan
  have hcache := h.cache.mean_le_makespan
  have hcores : ((cores : ℕ) : ℚ) = 8 := by norm_num [cores]
  have htasks : ((tasksPerCase : ℕ) : ℚ) = 60 := by norm_num [tasksPerCase]
  have hlonger := h.cache.makespan_le_total
  have hless := h.gain.total_le
  have hhalf := h.gain.total_ge
  have htotal := h.wfd.makespan_le_total
  have hleast := h.wfdTotal.1
  rw [hcores, div_le_iff₀ (by norm_num)] at hwfd hcache
  rw [htasks] at hhalf
  unfold makespanImprovement
  constructor
  · rw [le_div_iff₀ hpos]
    linarith
  · rw [div_le_iff₀ hpos]
    linarith

/-- The improvement of the hit ratio. -/
theorem Tested.cacheHitImprovement_bounds {test : ℚ × ℕ}
    {pair : ExperimentResult × ExperimentResult} (h : Tested test pair) :
    -0.6 ≤ cacheHitImprovement pair.1 pair.2 ∧ cacheHitImprovement pair.1 pair.2 ≤ 0.7 := by
  have hwfd := h.wfdHitRatio
  have hlow := h.cache.hitRatio_ge
  have hhigh := h.cache.hitRatio_le_one
  unfold cacheHitImprovement
  constructor
  all_goals linarith

/-- A sum of numbers that are not less than a bound. -/
theorem length_mul_le_sum_map {ι : Type*} {f : ι → ℚ} {low : ℚ} {l : List ι}
    (h : ∀ x ∈ l, low ≤ f x) : low * l.length ≤ (l.map f).sum := by
  have hle := List.card_nsmul_le_sum (l.map f) low fun y hy => by
    rcases List.mem_map.mp hy with ⟨x, hx, rfl⟩
    exact h x hx
  rw [List.length_map, nsmul_eq_mul, mul_comm] at hle
  exact hle

/-- A sum of numbers that are not greater than a bound. -/
theorem sum_map_le_length_mul {ι : Type*} {f : ι → ℚ} {high : ℚ} {l : List ι}
    (h : ∀ x ∈ l, f x ≤ high) : (l.map f).sum ≤ high * l.length := by
  have hle := List.sum_le_card_nsmul (l.map f) high fun y hy => by
    rcases List.mem_map.mp hy with ⟨x, hx, rfl⟩
    exact h x hx
  rw [List.length_map, nsmul_eq_mul, mul_comm] at hle
  exact hle

/-- The mean of some results is their sum by their number. -/
theorem averageOf_eq {value : ExperimentResult → ℚ} {results : List ExperimentResult}
    (hne : results ≠ []) :
    averageOf value results = (results.map value).sum / results.length :=
  if_neg (by simpa using hne)

theorem le_averageOf {value : ExperimentResult → ℚ} {low : ℚ} {results : List ExperimentResult}
    (hne : results ≠ []) (h : ∀ result ∈ results, low ≤ value result) :
    low ≤ averageOf value results := by
  have hlength : (0 : ℚ) < results.length := by exact_mod_cast List.length_pos_of_ne_nil hne
  rw [averageOf_eq hne, le_div_iff₀ hlength]
  exact length_mul_le_sum_map h

theorem averageOf_le {value : ExperimentResult → ℚ} {high : ℚ} {results : List ExperimentResult}
    (hne : results ≠ []) (h : ∀ result ∈ results, value result ≤ high) :
    averageOf value results ≤ high := by
  have hlength : (0 : ℚ) < results.length := by exact_mod_cast List.length_pos_of_ne_nil hne
  rw [averageOf_eq hne, div_le_iff₀ hlength]
  exact sum_map_le_length_mul h

theorem averageOf_pos {value : ExperimentResult → ℚ} {results : List ExperimentResult}
    (hne : results ≠ []) (h : ∀ result ∈ results, 0 < value result) :
    0 < averageOf value results := by
  rw [averageOf_eq hne]
  apply div_pos
  · apply List.sum_pos
    · intro x hx
      rcases List.mem_map.mp hx with ⟨result, hresult, rfl⟩
      exact h result hresult
    · simpa using hne
  · exact_mod_cast List.length_pos_of_ne_nil hne

/-- What the report of an experiment says. -/
structure Report.Sound (v : Variables) (report : Report) : Prop where
  totalTests : report.totalTests = totalTestCases
  winRate : report.winRate = v.cacheAwareWins
  winRate_le : report.winRate ≤ 100
  makespan_ge : -700 ≤ report.avgMakespanImprovement
  makespan_le : report.avgMakespanImprovement ≤ 94
  cacheHit_eq : report.avgCacheHitImprovement =
    (report.cacheAvgCacheHit - report.wfdAvgCacheHit) * 100
  cacheHit_ge : -60 ≤ report.avgCacheHitImprovement
  cacheHit_le : report.avgCacheHitImprovement ≤ 70
  wfdAvgCacheHit : 0.3 ≤ report.wfdAvgCacheHit ∧ report.wfdAvgCacheHit ≤ 0.7
  cacheAvgCacheHit : 0.1 ≤ report.cacheAvgCacheHit ∧ report.cacheAvgCacheHit ≤ 1
  avgMakespan_pos : 0 < report.wfdAvgMakespan ∧ 0 < report.cacheAvgMakespan
  winGrade : report.winGrade =
    if 75 < v.cacheAwareWins then .significant
    else if 60 < v.cacheAwareWins then .moderate else .small

/-- The report of a hundred test cases. -/
theorem Compared.report_sound (h : Compared levels pairs v)
    (hlength : levels.length = totalTestCases) : (generateReport v).Sound v := by
  have hpairs : pairs.length = 100 := h.length_eq.trans hlength
  have hcompleted : ((v.completedTests : ℕ) : ℚ) = 100 := by
    rw [h.completedTests, hpairs]
    norm_num
  have hne : pairs ≠ [] := by
    apply List.ne_nil_of_length_pos
    omega
  have htested := h.forall_pairs
  have hwins : v.cacheAwareWins ≤ 100 := by
    have hlosses := h.wfdWins
    omega
  have hwfd : ∀ result ∈ v.wfdResults, ∃ test pair, Tested test pair ∧ result = pair.1 := by
    intro result hresult
    rw [h.wfdResults] at hresult
    rcases List.mem_map.mp hresult with ⟨pair, hpair, rfl⟩
    rcases htested pair hpair with ⟨test, _, htest⟩
    exact ⟨test, pair, htest, rfl⟩
  have hcache : ∀ result ∈ v.cacheResults, ∃ test pair, Tested test pair ∧ result = pair.2 := by
    intro result hresult
    rw [h.cacheResults] at hresult
    rcases List.mem_map.mp hresult with ⟨pair, hpair, rfl⟩
    rcases htested pair hpair with ⟨test, _, htest⟩
    exact ⟨test, pair, htest, rfl⟩
  have hwfdNe : v.wfdResults ≠ [] := by simpa [h.wfdResults] using hne
  have hcacheNe : v.cacheResults ≠ [] := by simpa [h.cacheResults] using hne
  -- with a hundred test cases the sums are their means in percent
  have hrate : (generateReport v).winRate = v.cacheAwareWins := by
    unfold generateReport
    dsimp only
    rw [hcompleted]
    ring
  have hmakespan : (generateReport v).avgMakespanImprovement =
      (pairs.map fun pair => makespanImprovement pair.1 pair.2).sum := by
    unfold generateReport
    dsimp only
    rw [hcompleted, h.totalMakespanImprovement]
    ring
  have hhit : (generateReport v).avgCacheHitImprovement =
      (pairs.map fun pair => cacheHitImprovement pair.1 pair.2).sum := by
    unfold generateReport
    dsimp only
    rw [hcompleted, h.totalCacheHitImprovement]
    ring
  have hlength' : ((pairs.length : ℕ) : ℚ) = 100 := by
    rw [hpairs]
    norm_num
  constructor
  case totalTests => exact h.completedTests.trans hpairs
  case winRate => exact hrate
  case winRate_le =>
    rw [hrate]
    exact_mod_cast hwins
  case makespan_ge =>
    have hle := length_mul_le_sum_map fun pair hpair => by
      rcases htested pair hpair with ⟨test, _, htest⟩
      exact htest.makespanImprovement_bounds.1
    rw [hmakespan]
    refine le_trans ?_ hle
    rw [hlength']
    norm_num
  case makespan_le =>
    have hle := sum_map_le_length_mul fun pair hpair => by
      rcases htested pair hpair with ⟨test, _, htest⟩
      exact htest.makespanImprovement_bounds.2
    rw [hmakespan]
    refine hle.trans ?_
    rw [hlength']
    norm_num
  case cacheHit_eq =>
    have hsum : (pairs.map fun pair => pair.2.cacheHitRatio).sum =
        (pairs.map fun pair => cacheHitImprovement pair.1 pair.2).sum +
          (pairs.map fun pair => pair.1.cacheHitRatio).sum := by
      rw [← List.sum_map_add]
      simp [cacheHitImprovement]
    have hwfdAverage : (generateReport v).wfdAvgCacheHit =
        (pairs.map fun pair => pair.1.cacheHitRatio).sum / 100 := by
      refine (averageOf_eq hwfdNe).trans ?_
      rw [h.wfdResults, List.map_map, List.length_map, hlength']
      rfl
    have hcacheAverage : (generateReport v).cacheAvgCacheHit =
        (pairs.map fun pair => pair.2.cacheHitRatio).sum / 100 := by
      refine (averageOf_eq hcacheNe).trans ?_
      rw [h.cacheResults, List.map_map, List.length_map, hlength']
      rfl
    rw [hhit, hwfdAverage, hcacheAverage, hsum]
    ring
  case cacheHit_ge =>
    have hle := length_mul_le_sum_map fun pair hpair => by
      rcases htested pair hpair with ⟨test, _, htest⟩
      exact htest.cacheHitImprovement_bounds.1
    rw [hhit]
    refine le_trans ?_ hle
    rw [hlength']
    norm_num
  case cacheHit_le =>
    have hle := sum_map_le_length_mul fun pair hpair => by
      rcases htested pair hpair with ⟨test, _, htest⟩
      exact htest.cacheHitImprovement_bounds.2
    rw [hhit]
    refine hle.trans ?_
    rw [hlength']
    norm_num
  case wfdAvgCacheHit =>
    constructor
    · apply le_averageOf hwfdNe
      intro result hresult
      rcases hwfd result hresult with ⟨test, pair, htest, rfl⟩
      exact htest.wfdHitRatio.1
    · apply averageOf_le hwfdNe
      intro result hresult
      rcases hwfd result hresult with ⟨test, pair, htest, rfl⟩
      exact htest.wfdHitRatio.2
  case cacheAvgCacheHit =>
    constructor
    · apply le_averageOf hcacheNe
      intro result hresult
      rcases hcache result hresult with ⟨test, pair, htest, rfl⟩
      exact htest.cache.hitRatio_ge
    · apply averageOf_le hcacheNe
      intro result hresult
      rcases hcache result hresult with ⟨test, pair, htest, rfl⟩
      exact htest.cache.hitRatio_le_one
  case avgMakespan_pos =>
    constructor
    · apply averageOf_pos hwfdNe
      intro result hresult
      rcases hwfd result hresult with ⟨test, pair, htest, rfl⟩
      exact htest.wfd.makespan_pos
    · apply averageOf_pos hcacheNe
      intro result hresult
      rcases hcache result hresult with ⟨test, pair, htest, rfl⟩
      exact htest.cache.makespan_pos
  case winGrade =>
    refine (congrArg (grade 75 60) hrate).trans ?_
    unfold grade
    simp only [gt_iff_lt, Nat.ofNat_lt_cast]

end Books

/-! ## Main results -/

/-- Any draws for the fields that {lit}`cloneTasks` overwrites. -/
def noDrawn : ℕ → Drawn :=
  fun _ => ⟨100, 0, [0, 0, 0, 0]⟩

section Results

variable {α : Type*} [Field α] [LinearOrder α] [FloorRing α] [IsStrictOrderedRing α]

/-- Whatever the generators draw and the clock says, the experiment ends: a hundred test
cases, numbered and at their levels, one winner each, the same results in the books of the
analyzer, and both allocators reset. -/
theorem runComparison_completes (rng : Draws α) (drawn : ℕ → Drawn) (nanoTime : ℕ → Int64) :
    ∃ v report, runComparison rng drawn nanoTime = .ok (v, report) ∧
      v.statics = .fresh ∧ v.completedTests = totalTestCases ∧
      v.wfdResults.map (fun result => (result.utilizationLevel, result.testCaseId)) =
        (testsAt utilizationLevels).zipIdx 1 ∧
      v.cacheResults.map (fun result => (result.utilizationLevel, result.testCaseId)) =
        (testsAt utilizationLevels).zipIdx 1 ∧
      v.cacheAwareWins = (v.wfdResults.zip v.cacheResults).countP
        (fun pair => pair.2.makespan < pair.1.makespan) ∧
      v.wfdWins + v.cacheAwareWins = totalTestCases ∧
      groupByAlgorithm v.results "WFD" = some v.wfdResults ∧
      groupByAlgorithm v.results "CacheAware_v2" = some v.cacheResults := by
  rcases runComparison_compared rng drawn nanoTime with ⟨v, pairs, hrun, h, hfresh⟩
  have hlength : pairs.length = totalTestCases := h.length_eq.trans (length_testsAt _)
  have hne : pairs ≠ [] := by
    apply List.ne_nil_of_length_pos
    rw [hlength]
    decide
  have hgroups := h.groupByAlgorithm_eq hne
  exact ⟨v, _, hrun, hfresh, h.completedTests.trans hlength, h.labels.1, h.labels.2,
    by rw [h.zip_eq]; exact h.cacheAwareWins, h.wfdWins.trans hlength, hgroups.1, hgroups.2⟩

/-- With draws that are all zero there are a hundred winners. -/
theorem runComparison_completes_zeroDraws :
    ∃ v report, runComparison zeroDraws noDrawn (fun _ => 0) = .ok (v, report) ∧
      v.wfdWins + v.cacheAwareWins = 100 := by
  rcases runComparison_completes zeroDraws noDrawn (fun _ => 0) with
    ⟨v, report, hrun, _, _, _, _, _, hwins, _⟩
  exact ⟨v, report, hrun, hwins⟩

/-- The metrics of all two hundred results are in their ranges. -/
theorem runComparison_measured (rng : Draws α) (drawn : ℕ → Drawn) (nanoTime : ℕ → Int64) :
    ∃ v report, runComparison rng drawn nanoTime = .ok (v, report) ∧
      v.results.length = 2 * totalTestCases ∧
      (∀ result ∈ v.results, Measured tasksPerCase cores result) ∧
      ∀ result ∈ v.wfdResults, 0.3 ≤ result.cacheHitRatio ∧ result.cacheHitRatio ≤ 0.7 ∧
        600000 ≤ result.totalTaskExecutionTime ∧
        result.totalTaskExecutionTime ≤ result.utilizationLevel * 1000000 + 600000 := by
  rcases runComparison_compared rng drawn nanoTime with ⟨v, pairs, hrun, h, _⟩
  have hlength : pairs.length = totalTestCases := h.length_eq.trans (length_testsAt _)
  have htested := h.forall_pairs
  refine ⟨v, _, hrun, ?_, ?_, ?_⟩
  · rw [h.results, List.length_flatMap, ← hlength]
    simp [mul_comm]
  · intro result hresult
    rw [h.results] at hresult
    rcases List.mem_flatMap.mp hresult with ⟨pair, hpair, hmem⟩
    rcases htested pair hpair with ⟨test, _, htest⟩
    simp only [List.mem_cons, List.not_mem_nil, or_false] at hmem
    rcases hmem with rfl | rfl
    · exact htest.wfd
    · exact htest.cache
  · intro result hresult
    rw [h.wfdResults] at hresult
    rcases List.mem_map.mp hresult with ⟨pair, hpair, rfl⟩
    rcases htested pair hpair with ⟨test, _, htest⟩
    rw [htest.wfdLabel.2]
    exact ⟨htest.wfdHitRatio.1, htest.wfdHitRatio.2, htest.wfdTotal.1, htest.wfdTotal.2⟩

/-- And no processor is idle or overloaded. -/
theorem runComparison_measured_zeroDraws :
    ∃ v report, runComparison zeroDraws noDrawn (fun _ => 0) = .ok (v, report) ∧
      ∀ result ∈ v.results, 0 < result.cpuUtilization ∧ result.cpuUtilization ≤ 1 := by
  rcases runComparison_measured zeroDraws noDrawn (fun _ => 0) with
    ⟨v, report, hrun, _, hmeasured, _⟩
  exact ⟨v, report, hrun, fun result hresult =>
    ⟨(hmeasured result hresult).utilization_pos, (hmeasured result hresult).utilization_le_one⟩⟩

/-- In every test case the cache-aware allocator takes no more time in total and no more
energy than {lit}`WFD`, but at least one half of both. -/
theorem runComparison_gain (rng : Draws α) (drawn : ℕ → Drawn) (nanoTime : ℕ → Int64) :
    ∃ v report, runComparison rng drawn nanoTime = .ok (v, report) ∧
      v.wfdResults.length = totalTestCases ∧
      List.Forall₂ (Gain tasksPerCase) v.wfdResults v.cacheResults := by
  rcases runComparison_compared rng drawn nanoTime with ⟨v, pairs, hrun, h, _⟩
  refine ⟨v, _, hrun, ?_, ?_⟩
  · rw [h.wfdResults, List.length_map, h.length_eq]
    exact length_testsAt _
  · rw [h.wfdResults, h.cacheResults, List.forall₂_map_left_iff, List.forall₂_map_right_iff,
      List.forall₂_same]
    intro pair hpair
    rcases h.forall_pairs pair hpair with ⟨test, _, htest⟩
    exact htest.gain

theorem runComparison_gain_zeroDraws :
    ∃ v report, runComparison zeroDraws noDrawn (fun _ => 0) = .ok (v, report) ∧
      v.wfdResults.length = 100 ∧
      List.Forall₂ (Gain tasksPerCase) v.wfdResults v.cacheResults :=
  runComparison_gain zeroDraws noDrawn fun _ => 0

/-- The report of every experiment is sound. -/
theorem runComparison_report (rng : Draws α) (drawn : ℕ → Drawn) (nanoTime : ℕ → Int64) :
    ∃ v report, runComparison rng drawn nanoTime = .ok (v, report) ∧ report.Sound v := by
  rcases runComparison_compared rng drawn nanoTime with ⟨v, pairs, hrun, h, _⟩
  exact ⟨v, _, hrun, h.report_sound (length_testsAt _)⟩

theorem runComparison_report_zeroDraws :
    ∃ v report, runComparison zeroDraws noDrawn (fun _ => 0) = .ok (v, report) ∧
      report.winRate ≤ 100 := by
  rcases runComparison_report zeroDraws noDrawn (fun _ => 0) with ⟨v, report, hrun, hsound⟩
  exact ⟨v, report, hrun, hsound.winRate_le⟩

end Results

end AlgorithmComparisonExperiment
end Simu
end YatCasched
