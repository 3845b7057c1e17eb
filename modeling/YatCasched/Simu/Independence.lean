import YatCasched.Simu.Experiment

/-!
# Independence of test cases

The cache-aware allocator starts every test case from its initial state.  The
worst-fit one does not: its results show the loads that earlier test cases left.

Main results:

- Theorem {lit}`cacheAwareResult_eq`: the second simulation shows nothing of the
  state it starts from.
- Theorem {lit}`wfdResult_eq_iff`: the first one shows all that the loads allow.
- Theorem {lit}`testCases_independent_iff`: when test cases are independent.
-/

namespace YatCasched
namespace Simu

open Transducer WFD

/-! ## The cache-aware simulation -/

/-- The maps are reset, so what they were does not matter. -/
theorem cacheAwareTest_result_eq (drawn : Nat → Drawn) (s s' : Statics) (tasks : List Node) :
    (cacheAwareTest drawn s tasks).map (fun r => r.2.map Node.result) =
      (cacheAwareTest drawn s' tasks).map fun r => r.2.map Node.result := by
  unfold cacheAwareTest
  dsimp only
  split
  · rfl
  · rfl

/-! ## The worst-fit simulation -/

/-- The simulation on all processors, with any times. -/
abbrev simulateWFD (L : Loads) (busy : ProcId → Int64) (tasks : List Node) :
    Except JavaException (Loads × List Node) :=
  simulateAllocation (wfdAllocateTask (generateProcessorList 8)) 8 L busy tasks

variable {L L' : Loads} {i : Fin 8}

/-- One round of the simulation. -/
theorem simulateWFD_cons (hi : Least L i) (busy : ProcId → Int64) (task : Node)
    (tasks : List Node) :
    simulateWFD L busy (task :: tasks) =
      (simulateWFD (allocateStep L task).2
        (Function.update busy i.val (busy i.val + task.expectedET)) tasks).map
          fun r => (r.1, scheduledTask busy task i.val :: r.2) := by
  unfold simulateWFD
  rw [simulateAllocation]
  unfold wfdAllocateTask
  dsimp only
  rw [← allocateStep, allocateStep_output hi, if_neg (by omega), Int.toNat_natCast, if_pos i.isLt]
  split
  · rename_i e hrest
    rw [hrest]
    rfl
  · rename_i L' nodes hrest
    rw [hrest]
    rfl

/-- The simulation succeeds. -/
theorem simulateWFD_ok (L : Loads) (busy : ProcId → Int64) (tasks : List Node) :
    ∃ L' nodes, simulateWFD L busy tasks = .ok (L', nodes) := by
  induction tasks generalizing L busy with
  | nil => exact ⟨L, [], rfl⟩
  | cons task tasks ih =>
      rcases allocate_spec L task with ⟨i, hi, _⟩
      rcases ih (allocateStep L task).2
        (Function.update busy i.val (busy i.val + task.expectedET)) with ⟨L', nodes, hrest⟩
      refine ⟨L', scheduledTask busy task i.val :: nodes, ?_⟩
      rw [simulateWFD_cons hi, hrest]
      rfl

/-- The results of the simulation. -/
def simulatedResults (L : Loads) (busy : ProcId → Int64) (tasks : List Node) :
    Except JavaException (List TaskResult) :=
  (simulateWFD L busy tasks).map fun r => r.2.map Node.result

/-- The result of the first task, and the others. -/
theorem simulatedResults_cons (hi : Least L i) (busy : ProcId → Int64) (task : Node)
    (tasks : List Node) :
    simulatedResults L busy (task :: tasks) =
      (simulatedResults (allocateStep L task).2
        (Function.update busy i.val (busy i.val + task.expectedET)) tasks).map
          fun results => (scheduledTask busy task i.val).result :: results := by
  unfold simulatedResults
  rw [simulateWFD_cons hi]
  cases simulateWFD (allocateStep L task).2
      (Function.update busy i.val (busy i.val + task.expectedET)) tasks with
  | error e => rfl
  | ok r => rfl

/-- Different processors are different partitions. -/
theorem int32_ofNat_inj {i j : Fin 8} (h : Int32.ofNat i.val = Int32.ofNat j.val) : i = j := by
  have hval : ∀ k : Fin 8, (Int32.ofNat k.val).toInt = (k.val : Int) := by decide
  have htoInt := congrArg Int32.toInt h
  rw [hval, hval] at htoInt
  exact Fin.ext (by exact_mod_cast htoInt)

/-- The results are the same if the processors are: they determine the times. -/
theorem simulatedResults_eq_iff (busy : ProcId → Int64) (tasks : List Node) :
    simulatedResults L busy tasks = simulatedResults L' busy tasks ↔
      outputs allocateStep L tasks = outputs allocateStep L' tasks := by
  induction tasks generalizing L L' busy with
  | nil => exact ⟨fun _ => rfl, fun _ => rfl⟩
  | cons task tasks ih =>
      rcases allocate_spec L task with ⟨i, hi, _⟩
      rcases allocate_spec L' task with ⟨j, hj, _⟩
      rw [simulatedResults_cons hi, simulatedResults_cons hj]
      unfold outputs
      rw [allocateStep_output hi, allocateStep_output hj]
      constructor
      · intro heq
        rcases simulateWFD_ok (allocateStep L task).2
          (Function.update busy i.val (busy i.val + task.expectedET)) tasks with
            ⟨M, nodes, hrest⟩
        rcases simulateWFD_ok (allocateStep L' task).2
          (Function.update busy j.val (busy j.val + task.expectedET)) tasks with
            ⟨M', nodes', hrest'⟩
        have hresults : (scheduledTask busy task i.val).result :: nodes.map Node.result =
            (scheduledTask busy task j.val).result :: nodes'.map Node.result := by
          unfold simulatedResults at heq
          rw [hrest, hrest'] at heq
          exact Except.ok.inj heq
        have hij : i = j := by
          apply int32_ofNat_inj
          exact congrArg TaskResult.partition (List.cons.inj hresults).1
        subst hij
        have htail : outputs allocateStep (allocateStep L task).2 tasks =
            outputs allocateStep (allocateStep L' task).2 tasks := by
          apply (ih (Function.update busy i.val (busy i.val + task.expectedET))).mp
          unfold simulatedResults
          rw [hrest, hrest']
          exact congrArg Except.ok (List.cons.inj hresults).2
        rw [htail]
      · intro heq
        have hij : i = j := Fin.ext (by exact_mod_cast (List.cons.inj heq).1)
        subst hij
        rw [(ih (Function.update busy i.val (busy i.val + task.expectedET))).mpr
          (List.cons.inj heq).2]

/-! ## Test cases -/

/-- The processors depend on the execution times only. -/
theorem outputs_congr {tasks tasks' : List Node}
    (h : tasks.map Node.expectedET = tasks'.map Node.expectedET) :
    outputs allocateStep L tasks = outputs allocateStep L tasks' := by
  induction tasks generalizing L tasks' with
  | nil =>
      cases tasks' with
      | nil => rfl
      | cons task' tasks' => cases h
  | cons task tasks ih =>
      cases tasks' with
      | nil => cases h
      | cons task' tasks' =>
          rcases List.cons.inj h with ⟨hET, hrest⟩
          have hstep : allocateStep L task = allocateStep L task' := by
            rcases allocate_spec L task with ⟨i, hi, hallocate⟩
            unfold allocateStep
            rw [hallocate, allocate_of_least hi, hET]
          unfold outputs
          rw [hstep, ih hrest]

theorem wfdResult_eq (drawn : Nat → Drawn) (s : Statics) (tasks : List Node) :
    wfdResult drawn s tasks =
      simulatedResults s.wfd (fun _ => 0) (cloneTasks drawn tasks) := by
  unfold wfdResult wfdTest simulatedResults
  dsimp only
  rw [show simulateWFDAllocation (cloneTasks drawn tasks) (generateProcessorList cores) s.wfd =
    simulateWFD s.wfd (fun _ => 0) (cloneTasks drawn tasks) from rfl]
  cases simulateWFD s.wfd (fun _ => 0) (cloneTasks drawn tasks) with
  | error e => rfl
  | ok r => rfl

/-- All further test cases have the same worst-fit results if and only if no tasks
tell the loads apart. -/
theorem wfdResult_eq_iff (drawn : Nat → Drawn) (s s' : Statics) :
    (∀ tasks, wfdResult drawn s tasks = wfdResult drawn s' tasks) ↔
      Indistinguishable allocateStep s.wfd s'.wfd := by
  constructor
  · intro h tasks
    have hclone := h tasks
    rw [wfdResult_eq, wfdResult_eq, simulatedResults_eq_iff,
      outputs_congr (cloneTasks_expectedET drawn tasks),
      outputs_congr (cloneTasks_expectedET drawn tasks)] at hclone
    exact hclone
  · intro h tasks
    rw [wfdResult_eq, wfdResult_eq, simulatedResults_eq_iff]
    exact h (cloneTasks drawn tasks)

/-- The cache-aware results of a test case are always the same. -/
theorem cacheAwareResult_eq (drawn : Nat → Drawn) (s s' : Statics) (tasks : List Node) :
    cacheAwareResult drawn s tasks = cacheAwareResult drawn s' tasks := by
  have hok : ∀ s, ∃ s₁ nodes, wfdTest drawn s tasks = .ok (s₁, nodes) := by
    intro s
    rcases simulateWFD_ok s.wfd (fun _ => 0) (cloneTasks drawn tasks) with ⟨L, nodes, hsimulate⟩
    refine ⟨{ s with wfd := L }, nodes, ?_⟩
    unfold wfdTest
    dsimp only
    rw [show simulateWFDAllocation (cloneTasks drawn tasks) (generateProcessorList cores) s.wfd =
      .ok (L, nodes) from hsimulate]
  rcases hok s with ⟨s₁, nodes, hs⟩
  rcases hok s' with ⟨s₁', nodes', hs'⟩
  unfold cacheAwareResult
  rw [hs, hs']
  exact cacheAwareTest_result_eq drawn s₁ s₁' tasks

/-! ## A history of one test case -/

/-- The loads after one task of 100 units. -/
def loadsAfterTask : Loads :=
  Function.update resetLoads 0 100

theorem cloneTasks_taskOf (drawn : Nat → Drawn) (e : Int32) :
    cloneTasks drawn [taskOf e] = [taskOf e] :=
  rfl

theorem runComparison_taskOf (drawn : Nat → Drawn) :
    ∃ s, runComparison drawn [[taskOf 100]] = .ok s ∧ s.wfd = loadsAfterTask := by
  have hleast : Least resetLoads 0 := by decide
  have hwfd : ∃ nodes, wfdTest drawn .fresh [taskOf 100] =
      .ok ({ Statics.fresh with wfd := loadsAfterTask }, nodes) := by
    refine ⟨[scheduledTask (fun _ => 0) (taskOf 100) 0], ?_⟩
    unfold wfdTest
    dsimp only
    rw [cloneTasks_taskOf, show simulateWFDAllocation [taskOf 100] (generateProcessorList cores)
      Statics.fresh.wfd = simulateWFD resetLoads (fun _ => 0) [taskOf 100] from rfl,
      simulateWFD_cons hleast, allocateStep_next hleast (by decide)]
    rfl
  rcases hwfd with ⟨nodes, hwfd⟩
  have hcache : (simulateCacheAwareAllocation [taskOf 100] (generateProcessorList cores)
      CacheAwareState.resetState).toOption.isSome = true := by decide +kernel
  have htest : ∃ s, runTest drawn .fresh [taskOf 100] = .ok s ∧ s.wfd = loadsAfterTask := by
    unfold runTest
    rw [hwfd]
    unfold cacheAwareTest
    dsimp only
    rw [cloneTasks_taskOf]
    cases hsimulate : simulateCacheAwareAllocation [taskOf 100] (generateProcessorList cores)
        CacheAwareState.resetState with
    | error e =>
        rw [hsimulate] at hcache
        cases hcache
    | ok r => exact ⟨_, rfl, rfl⟩
  rcases htest with ⟨s, hs, hloads⟩
  refine ⟨s, ?_, hloads⟩
  unfold runComparison
  rw [List.foldlM_cons, hs]
  rfl

/-! ## Independence -/

/-- After two histories of test cases, all further ones have the same results if and
only if the histories left the same loads, or if they both left the greatest load
on every processor but the first. -/
theorem testCases_independent_iff (drawn : Nat → Drawn) {history history' : List (List Node)}
    {s s' : Statics} (_ : runComparison drawn history = .ok s)
    (_ : runComparison drawn history' = .ok s') :
    (∀ tasks, wfdResult drawn s tasks = wfdResult drawn s' tasks ∧
      cacheAwareResult drawn s tasks = cacheAwareResult drawn s' tasks) ↔
    s.wfd = s'.wfd ∨ Saturated s.wfd ∧ Saturated s'.wfd := by
  rw [← indistinguishable_iff, ← wfdResult_eq_iff drawn]
  constructor
  · intro h tasks
    exact (h tasks).1
  · intro h tasks
    exact ⟨h tasks, cacheAwareResult_eq drawn s s' tasks⟩

/-- No history and one of one task do not leave the same. -/
theorem testCases_independent_taskOf :
    ∃ s, runComparison (fun _ => ⟨100, 0, [0, 0, 0, 0]⟩) [[taskOf 100]] = .ok s ∧
      ¬∀ tasks, wfdResult (fun _ => ⟨100, 0, [0, 0, 0, 0]⟩) .fresh tasks =
          wfdResult (fun _ => ⟨100, 0, [0, 0, 0, 0]⟩) s tasks ∧
        cacheAwareResult (fun _ => ⟨100, 0, [0, 0, 0, 0]⟩) .fresh tasks =
          cacheAwareResult (fun _ => ⟨100, 0, [0, 0, 0, 0]⟩) s tasks := by
  rcases runComparison_taskOf (fun _ => ⟨100, 0, [0, 0, 0, 0]⟩) with ⟨s, hrun, hwfd⟩
  refine ⟨s, hrun, ?_⟩
  rw [testCases_independent_iff _ (show runComparison _ [] = .ok .fresh from rfl) hrun, hwfd]
  rintro (heq | hsat)
  · exact absurd (congrFun heq 0) (by decide)
  · exact absurd (hsat.1 1 (by decide)) (by decide)

/-- A task of 100 units goes to the first processor in a fresh virtual machine, and
to the second one after a test case of the same task. -/
theorem testCases_dependent :
    ¬∃ drawn, ∀ history history' s s', runComparison drawn history = .ok s →
      runComparison drawn history' = .ok s' → ∀ tasks,
        wfdResult drawn s tasks = wfdResult drawn s' tasks ∧
          cacheAwareResult drawn s tasks = cacheAwareResult drawn s' tasks := by
  rintro ⟨drawn, hindependent⟩
  rcases runComparison_taskOf drawn with ⟨s, hrun, hwfd⟩
  have hsame := (hindependent [] [[taskOf 100]] .fresh s rfl hrun [taskOf 100]).1
  rw [wfdResult_eq, wfdResult_eq, cloneTasks_taskOf, simulatedResults_eq_iff, hwfd] at hsame
  have hfirst : Least Statics.fresh.wfd 0 := by decide
  have hsecond : Least loadsAfterTask 1 := by decide
  have hhead := (List.cons.inj hsame).1
  rw [allocateStep_output hfirst, allocateStep_output hsecond] at hhead
  exact absurd hhead (by decide)

end Simu
end YatCasched
