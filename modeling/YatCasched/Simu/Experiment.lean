import Mathlib.Data.List.Indexes
import YatCasched.Simu.CacheAware
import YatCasched.Simu.Wfd

/-!
# The comparison experiment

{lit}`AlgorithmComparisonExperiment`: each test case clones its tasks twice and
simulates both allocators on the clones.  The loads of {lit}`WFD` and the maps of
{lit}`CacheAware_v2` are static and stay from one test case to the next, but for
the reset before the second simulation.

Main results:

- Theorem {lit}`cloneTasks_expectedET`: clones take the same time.
- Theorem {lit}`simulateAllocation_eq_foldlM`: a simulation is its rounds.
- Definition {lit}`runComparison`: the test cases one after the other.
-/

namespace YatCasched
namespace Simu

open Transducer

/-! ## Clones -/

/-- What the constructor of {lit}`Node` draws from the generator. -/
structure Drawn where
  expectedET : Int64
  sensitivity : ℚ
  weights : List ℚ

/-- The clone of a task. -/
def cloneTask (drawn : Drawn) (node : Node) : Node :=
  let clonedNode := Node.new node.layer node.type node.id node.dagID drawn.expectedET
    drawn.sensitivity drawn.weights
  let clonedNode :=
    { clonedNode with
      expectedET := node.expectedET
      sensitivity := node.sensitivity
      affinity := node.affinity }
  match node.weights with
  | none => clonedNode
  | some weights => { clonedNode with weights := some weights }

/-- {lit}`cloneTasks`.  Every call starts a generator from the same seed, so the
draws depend on the position only. -/
def cloneTasks (drawn : Nat → Drawn) (original : List Node) : List Node :=
  original.mapIdx fun i node => cloneTask (drawn i) node

theorem cloneTask_expectedET (drawn : Drawn) (node : Node) :
    (cloneTask drawn node).expectedET = node.expectedET := by
  unfold cloneTask
  dsimp only
  split
  · rfl
  · rfl

/-- Clones take the same time. -/
theorem cloneTasks_expectedET (drawn : Nat → Drawn) (original : List Node) :
    (cloneTasks drawn original).map Node.expectedET = original.map Node.expectedET := by
  unfold cloneTasks
  apply List.ext_getElem
  · simp
  · intro i _ _
    simp [cloneTask_expectedET]

/-- No clone has its release time set. -/
theorem cloneTask_release (drawn : Drawn) (node : Node) :
    (cloneTask drawn node).release = -1 := by
  unfold cloneTask
  dsimp only
  split
  · rfl
  · rfl

/-- The clone of a task the allocator is meant for is one. -/
theorem Node.Proper.cloneTask {task : Node} (h : task.Proper) (drawn : Drawn) :
    (cloneTask drawn task).Proper := by
  cases hweights : task.weights with
  | none =>
      have hnone := h.hasWeights
      unfold Node.hasWeights at hnone
      rw [hweights] at hnone
      cases hnone
  | some weights =>
      have hclone : (Simu.cloneTask drawn task).weights = task.weights := by
        unfold Simu.cloneTask
        rw [hweights]
      have hsensitivity : (Simu.cloneTask drawn task).sensitivity = task.sensitivity := by
        unfold Simu.cloneTask
        rw [hweights]
      have htime : (Simu.cloneTask drawn task).time = task.time := by
        unfold Node.time
        rw [cloneTask_expectedET]
      constructor
      case time_ge_one =>
        rw [htime]
        exact h.time_ge_one
      case sensitivity_nonneg =>
        rw [hsensitivity]
        exact h.sensitivity_nonneg
      case sensitivity_le_one =>
        rw [hsensitivity]
        exact h.sensitivity_le_one
      case hasWeights =>
        unfold Node.hasWeights
        rw [hclone]
        exact h.hasWeights
      case weight_nonneg =>
        intro i
        unfold Node.weight
        rw [hclone]
        exact h.weight_nonneg i

theorem proper_of_mem_cloneTasks {original : List Node}
    (hproper : ∀ task ∈ original, task.Proper) (drawn : Nat → Drawn) :
    ∀ task ∈ cloneTasks drawn original, task.Proper := by
  intro task htask
  unfold cloneTasks at htask
  rcases List.mem_mapIdx.mp htask with ⟨i, hi, rfl⟩
  exact (hproper _ (List.getElem_mem hi)).cloneTask (drawn i)

/-! ## Simulations -/

/-- The task with the times a simulation gives it. -/
def scheduledTask (busy : ProcId → Int64) (task : Node) (p : ProcId) : Node :=
  { task with
    partition := Int32.ofNat p
    start := busy p
    finishAt := busy p + task.expectedET
    finish := true }

/-- The loop of both simulations, over an allocator that returns an id, its state
and the task with its execution time.  The local array {lit}`processorLoads` has
one entry for each processor of the list. -/
def simulateAllocation {σ : Type} (allocateTask : σ → Node → Except JavaException (Int × σ × Node))
    (size : Nat) (s : σ) (busy : ProcId → Int64) :
    List Node → Except JavaException (σ × List Node)
  | [] => .ok (s, [])
  | task :: tasks =>
      match allocateTask s task with
      | .error e => .error e
      | .ok (allocatedProcessor, s, task) =>
          if allocatedProcessor = -1 then
            match simulateAllocation allocateTask size s busy tasks with
            | .error e => .error e
            | .ok (s, tasks) => .ok (s, task :: tasks)
          else
            let p := allocatedProcessor.toNat
            if p < size then
              match simulateAllocation allocateTask size s
                (Function.update busy p (busy p + task.expectedET)) tasks with
              | .error e => .error e
              | .ok (s, tasks) => .ok (s, scheduledTask busy task p :: tasks)
            else
              .error .arrayIndexOutOfBounds

/-- One round of the loop of both simulations, on the state of the allocator, the
local loads and the tasks so far. -/
def simulateRound {σ : Type} (allocateTask : σ → Node → Except JavaException (Int × σ × Node))
    (size : Nat) (r : σ × (ProcId → Int64) × List Node) (task : Node) :
    Except JavaException (σ × (ProcId → Int64) × List Node) :=
  match allocateTask r.1 task with
  | .error e => .error e
  | .ok (allocatedProcessor, s, task) =>
      if allocatedProcessor = -1 then
        .ok (s, r.2.1, r.2.2 ++ [task])
      else
        let p := allocatedProcessor.toNat
        if p < size then
          .ok (s, Function.update r.2.1 p (r.2.1 p + task.expectedET),
            r.2.2 ++ [scheduledTask r.2.1 task p])
        else
          .error .arrayIndexOutOfBounds

/-- The simulation is the rounds one after the other. -/
theorem simulateAllocation_eq_foldlM {σ : Type}
    (allocateTask : σ → Node → Except JavaException (Int × σ × Node)) (size : Nat) (s : σ)
    (busy : ProcId → Int64) (done tasks : List Node) :
    (simulateAllocation allocateTask size s busy tasks).map (fun r => (r.1, done ++ r.2)) =
      (tasks.foldlM (simulateRound allocateTask size) (s, busy, done)).map
        fun r => (r.1, r.2.2) := by
  induction tasks generalizing s busy done with
  | nil =>
      rw [simulateAllocation, List.foldlM_nil]
      simp [Except.map, pure, Except.pure]
  | cons task tasks ih =>
      rw [simulateAllocation, List.foldlM_cons]
      cases hallocate : allocateTask s task with
      | error e =>
          rw [simulateRound, hallocate]
          rfl
      | ok answer =>
          rcases answer with ⟨id, s₁, task₁⟩
          dsimp only
          by_cases hid : id = -1
          · have hround : simulateRound allocateTask size (s, busy, done) task =
                .ok (s₁, busy, done ++ [task₁]) := by
              rw [simulateRound, hallocate]
              exact if_pos hid
            rw [if_pos hid, hround]
            refine Eq.trans ?_ (ih s₁ busy (done ++ [task₁]))
            cases simulateAllocation allocateTask size s₁ busy tasks with
            | error e => rfl
            | ok r => simp [Except.map]
          · by_cases hp : id.toNat < size
            · have hround : simulateRound allocateTask size (s, busy, done) task =
                  .ok (s₁, Function.update busy id.toNat (busy id.toNat + task₁.expectedET),
                    done ++ [scheduledTask busy task₁ id.toNat]) := by
                rw [simulateRound, hallocate]
                dsimp only
                rw [if_neg hid, if_pos hp]
              rw [if_neg hid, if_pos hp, hround]
              refine Eq.trans ?_ (ih s₁
                (Function.update busy id.toNat (busy id.toNat + task₁.expectedET))
                (done ++ [scheduledTask busy task₁ id.toNat]))
              cases simulateAllocation allocateTask size s₁
                  (Function.update busy id.toNat (busy id.toNat + task₁.expectedET)) tasks with
              | error e => rfl
              | ok r => simp [Except.map]
            · rw [if_neg hid, if_neg hp, simulateRound, hallocate]
              dsimp only
              rw [if_neg hid, if_neg hp]
              rfl

theorem simulateAllocation_of_foldlM {σ : Type}
    {allocateTask : σ → Node → Except JavaException (Int × σ × Node)} {size : Nat} {s : σ}
    {busy : ProcId → Int64} {tasks : List Node} {r : σ × (ProcId → Int64) × List Node}
    (hrun : tasks.foldlM (simulateRound allocateTask size) (s, busy, []) = .ok r) :
    simulateAllocation allocateTask size s busy tasks = .ok (r.1, r.2.2) := by
  have heq := simulateAllocation_eq_foldlM allocateTask size s busy [] tasks
  rw [hrun] at heq
  cases hsimulate : simulateAllocation allocateTask size s busy tasks with
  | error e =>
      rw [hsimulate] at heq
      cases heq
  | ok t =>
      rw [hsimulate] at heq
      exact heq

/-- The call of the allocator in {lit}`simulateWFDAllocation`, which leaves the task alone. -/
def wfdAllocateTask (processors : List ProcId) (processorLoads : WFD.Loads) (task : Node) :
    Except JavaException (Int × WFD.Loads × Node) :=
  let allocated := WFD.allocate processorLoads [task] processors
  .ok (allocated.1, allocated.2, task)

/-- The call of the allocator in {lit}`simulateCacheAwareAllocation`, with the execution
time that replaces that of the task. -/
def cacheAwareAllocateTask (processors : List ProcId) (st : CacheAwareState) (task : Node) :
    Except JavaException (Int × CacheAwareState × Node) :=
  match st.allocate [task] processors with
  | .error e => .error e
  | .ok (allocatedProcessor, st, readyTasks) =>
      let task := readyTasks.headD task
      if allocatedProcessor = -1 then
        .ok (allocatedProcessor, st, task)
      else
        let enhancedET := st.calculateExecutionTime task allocatedProcessor.toNat
        .ok (allocatedProcessor, st, { task with expectedET := enhancedET })

/-- {lit}`simulateWFDAllocation`. -/
def simulateWFDAllocation (tasks : List Node) (processors : List ProcId)
    (processorLoads : WFD.Loads) : Except JavaException (WFD.Loads × List Node) :=
  simulateAllocation (wfdAllocateTask processors) processors.length processorLoads (fun _ => 0)
    tasks

/-- {lit}`simulateCacheAwareAllocation`. -/
def simulateCacheAwareAllocation (tasks : List Node) (processors : List ProcId)
    (st : CacheAwareState) : Except JavaException (CacheAwareState × List Node) :=
  simulateAllocation (cacheAwareAllocateTask processors) processors.length st (fun _ => 0) tasks

/-! ## Test cases -/

/-- {lit}`CORES`. -/
def cores : Nat := 8

/-- The static state of both allocators. -/
structure Statics where
  wfd : WFD.Loads
  cacheAware : CacheAwareState

/-- The static state of a fresh virtual machine. -/
def Statics.fresh : Statics where
  wfd := WFD.resetLoads
  cacheAware := CacheAwareState.resetState

/-- The first simulation of a test case: the state and the tasks. -/
def wfdTest (drawn : Nat → Drawn) (s : Statics) (originalTasks : List Node) :
    Except JavaException (Statics × List Node) :=
  let wfdTasks := cloneTasks drawn originalTasks
  let wfdProcessors := generateProcessorList cores
  match simulateWFDAllocation wfdTasks wfdProcessors s.wfd with
  | .error e => .error e
  | .ok (wfd, wfdTasks) => .ok ({ s with wfd := wfd }, wfdTasks)

/-- The second simulation of a test case, after the reset. -/
def cacheAwareTest (drawn : Nat → Drawn) (s : Statics) (originalTasks : List Node) :
    Except JavaException (Statics × List Node) :=
  let cacheTasks := cloneTasks drawn originalTasks
  let cacheProcessors := generateProcessorList cores
  let s := { s with cacheAware := CacheAwareState.resetState }
  match simulateCacheAwareAllocation cacheTasks cacheProcessors s.cacheAware with
  | .error e => .error e
  | .ok (cacheAware, cacheTasks) => .ok ({ s with cacheAware := cacheAware }, cacheTasks)

/-- A test case: both simulations. -/
def runTest (drawn : Nat → Drawn) (s : Statics) (originalTasks : List Node) :
    Except JavaException Statics :=
  match wfdTest drawn s originalTasks with
  | .error e => .error e
  | .ok (s, _) =>
      match cacheAwareTest drawn s originalTasks with
      | .error e => .error e
      | .ok (s, _) => .ok s

/-- The loops of {lit}`runComparison`, on the task sets they generate. -/
def runComparison (drawn : Nat → Drawn) (tests : List (List Node)) :
    Except JavaException Statics :=
  tests.foldlM (runTest drawn) .fresh

/-! ## Results -/

/-- What is compared of a task. -/
structure TaskResult where
  partition : Int32
  start : Int64
  finishAt : Int64
  expectedET : Int64
deriving DecidableEq

/-- The result of a simulated task. -/
def Node.result (task : Node) : TaskResult where
  partition := task.partition
  start := task.start
  finishAt := task.finishAt
  expectedET := task.expectedET

/-- What the first simulation of a further test case gives its tasks. -/
def wfdResult (drawn : Nat → Drawn) (s : Statics) (originalTasks : List Node) :
    Except JavaException (List TaskResult) :=
  (wfdTest drawn s originalTasks).map fun r => r.2.map Node.result

/-- What the second simulation of a further test case gives its tasks. -/
def cacheAwareResult (drawn : Nat → Drawn) (s : Statics) (originalTasks : List Node) :
    Except JavaException (List TaskResult) :=
  match wfdTest drawn s originalTasks with
  | .error e => .error e
  | .ok (s, _) => (cacheAwareTest drawn s originalTasks).map fun r => r.2.map Node.result

end Simu
end YatCasched
