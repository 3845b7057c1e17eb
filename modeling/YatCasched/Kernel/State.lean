import Mathlib.Algebra.Group.Int.Defs
import Mathlib.Algebra.GroupWithZero.Nat
import Mathlib.Data.Fintype.Card
import Mathlib.Data.List.FinRange
import YatCasched.Lib.CircularList

/-!
# Scheduler state

The parts of {lit}`task_struct`, {lit}`rq` and {lit}`yat_casched_rq` that the
scheduling classes and the core scheduler read and write.  The number of CPUs,
{lit}`NR_CPUS`, is the parameter {lit}`n`; a CPU is an element of
{lit}`Fin n`, so the bounds tests of the code on {lit}`rq->cpu` always hold.

The intrusive lists live in one pointer heap, {lit}`System.links`, whose nodes
are the list heads of the run queues and the {lit}`run_list` members of the
tasks.
-/

namespace YatCasched
namespace Kernel

open CircularList

/-- Tasks are named by their {lit}`pid_t`, a non-negative 32-bit {lit}`int`.
The idle task of a CPU is not named; it is {lit}`none` where a task is
optional. -/
abbrev Pid := Fin 2147483648

/-- The instance behind the literals of task names, the same in every module. -/
instance neZeroPidMax : NeZero 2147483648 :=
  ⟨Nat.succ_ne_zero _⟩

/-- The instance behind the literals of CPUs where there are two. -/
instance neZeroTwoCpus : NeZero 2 :=
  ⟨Nat.succ_ne_zero _⟩

/-! ## Scheduling classes -/

/-- The scheduling classes, in the order of {lit}`SCHED_DATA`. -/
inductive SchedClass
  | stop
  | dl
  | rt
  | fair
  | yatCasched
  | idle
deriving DecidableEq, Repr

/-- Position of a class in the linker section. -/
def SchedClass.address : SchedClass → Nat
  | .stop => 0
  | .dl => 1
  | .rt => 2
  | .fair => 3
  | .yatCasched => 4
  | .idle => 5

/-- {lit}`sched_class_above`: a lower address is a higher class. -/
def schedClassAbove (a b : SchedClass) : Bool :=
  a.address < b.address

/-- The classes in the order {lit}`for_each_class` visits them. -/
def forEachClass : List SchedClass :=
  [.stop, .dl, .rt, .fair, .yatCasched, .idle]

/-! ## Tasks -/

/-- Nodes of the intrusive lists. -/
inductive ListNode (n : Nat)
  /-- {lit}`&cpu_rq(cpu)->yat_casched.tasks`. -/
  | tasks (cpu : Fin n)
  /-- {lit}`&p->yat_casched.run_list`. -/
  | runList (p : Pid)
deriving DecidableEq

/-- {lit}`struct sched_entity`, the fields the cache-aware class uses. -/
structure SchedEntity where
  execStart : UInt64
  sumExecRuntime : UInt64
  prevSumExecRuntime : UInt64
deriving DecidableEq

/-- {lit}`struct sched_yat_casched_entity` without its list node. -/
structure SchedYatCaschedEntity where
  vruntime : UInt64
  slice : UInt64
  lastCpu : Int
deriving DecidableEq

/-- Values of {lit}`p->on_rq`. -/
inductive OnRq
  | off
  | queued
  | migrating
deriving DecidableEq

/-- The values of {lit}`p->__state` that the modelled code tells apart. -/
inductive TaskState
  | running
  | new
  | waking
  | sleeping
deriving DecidableEq

/-- Where a {lit}`cpumask` pointer points. -/
inductive CpumaskPtr (n : Nat)
  /-- {lit}`&p->cpus_mask`. -/
  | cpusMask (p : Pid)
  /-- {lit}`cpumask_of(cpu)`. -/
  | cpumaskOf (cpu : Fin n)
  /-- Any other mask in memory. -/
  | other (address : Nat)
deriving DecidableEq

/-- {lit}`struct set_affinity_pending`, installed in
{lit}`p->migration_pending`.  {lit}`stopPending` names the CPU whose stopper
holds the work while {lit}`stop_pending` is set; the request is complete when it
is uninstalled. -/
structure SetAffinityPending (n : Nat) where
  stopPending : Option (Fin n)
  destCpu : Fin n
deriving DecidableEq

/-- {lit}`struct task_struct`. -/
structure TaskStruct (n : Nat) where
  schedClass : SchedClass
  policy : Int
  prio : Int
  staticPrio : Int
  normalPrio : Int
  rtPriority : Nat
  schedResetOnFork : Bool
  piTopTask : Option Pid
  state : TaskState
  onRq : OnRq
  cpu : Fin n
  wakeCpu : Fin n
  cpuPossibleMask : Finset (Fin n)
  cpusMask : Finset (Fin n)
  cpusPtr : CpumaskPtr n
  userCpusPtr : Option (CpumaskPtr n)
  nrCpusAllowed : Nat
  migrationDisabled : Nat
  migrationPending : Option (SetAffinityPending n)
  pfKthread : Bool
  pfNoSetaffinity : Bool
  kthreadIsPerCpu : Bool
  se : SchedEntity
  yatCasched : SchedYatCaschedEntity

/-! ## Run queues -/

/-- {lit}`struct yat_casched_rq` without its list head and its lock. -/
structure YatCaschedRq (n : Nat) where
  nrRunning : UInt32
  agent : Option Pid
  cacheDecayJiffies : UInt64
  cpuHistory : Fin n → Option Pid

/-- {lit}`struct rq`.  The two lists stand for what the real-time and the fair
class keep queued; {lit}`needResched` is the flag {lit}`resched_curr` sets on
{lit}`rq->curr`. -/
structure Rq (n : Nat) where
  nrRunning : UInt32
  cfsHNrRunning : UInt32
  rtQueue : List Pid
  fairQueue : List Pid
  curr : Option Pid
  clockTask : UInt64
  needResched : Bool
  yatCasched : YatCaschedRq n

/-- The whole scheduler: all tasks, all run queues, all list pointers and the
masks in memory outside of the tasks. -/
structure System (n : Nat) where
  task : Pid → TaskStruct n
  rq : Fin n → Rq n
  links : Links (ListNode n)
  cpumask : Nat → Finset (Fin n)
  cpuOnline : Finset (Fin n)
  cpuActive : Finset (Fin n)
  cpuDying : Finset (Fin n)
  hz : UInt64
  jiffies : UInt64

variable {n : Nat}

/-! ## A state to start from -/

/-- A task as {lit}`init_task` is set up: policy {lit}`SCHED_NORMAL`, nice 0. -/
def initTask [NeZero n] (p : Pid) : TaskStruct n where
  schedClass := .fair
  policy := 0
  prio := 120
  staticPrio := 120
  normalPrio := 120
  rtPriority := 0
  schedResetOnFork := false
  piTopTask := none
  state := .running
  onRq := .off
  cpu := 0
  wakeCpu := 0
  cpuPossibleMask := Finset.univ
  cpusMask := Finset.univ
  cpusPtr := .cpusMask p
  userCpusPtr := none
  nrCpusAllowed := n
  migrationDisabled := 0
  migrationPending := none
  pfKthread := false
  pfNoSetaffinity := false
  kthreadIsPerCpu := false
  se := { execStart := 0, sumExecRuntime := 0, prevSumExecRuntime := 0 }
  yatCasched := { vruntime := 0, slice := 0, lastCpu := -1 }

/-- All CPUs up and idle, and all list nodes pointing to themselves. -/
def bootSystem (n : Nat) [NeZero n] : System n where
  task := initTask
  rq := fun _ =>
    { nrRunning := 0
      cfsHNrRunning := 0
      rtQueue := []
      fairQueue := []
      curr := none
      clockTask := 0
      needResched := false
      yatCasched :=
        { nrRunning := 0
          agent := none
          cacheDecayJiffies := 0
          cpuHistory := fun _ => none } }
  links := { next := id, prev := id }
  cpumask := fun _ => ∅
  cpuOnline := Finset.univ
  cpuActive := Finset.univ
  cpuDying := ∅
  hz := 1000
  jiffies := 0

/-- The same system with every task in the cache-aware class. -/
def yatCaschedBootSystem (n : Nat) [NeZero n] : System n :=
  { bootSystem n with
    task := fun p => { initTask p with schedClass := .yatCasched, policy := 8 } }

namespace System

/-- Assign to fields of one task. -/
def updateTask (k : System n) (p : Pid) (f : TaskStruct n → TaskStruct n) : System n :=
  { k with task := Function.update k.task p (f (k.task p)) }

/-- Assign to fields of one run queue. -/
def updateRq (k : System n) (c : Fin n) (f : Rq n → Rq n) : System n :=
  { k with rq := Function.update k.rq c (f (k.rq c)) }

@[simp]
theorem updateTask_task_self (k : System n) (p : Pid) (f : TaskStruct n → TaskStruct n) :
    (k.updateTask p f).task p = f (k.task p) := by
  simp [updateTask]

@[simp]
theorem updateTask_task_of_ne (k : System n) {p q : Pid} (hqp : q ≠ p)
    (f : TaskStruct n → TaskStruct n) :
    (k.updateTask p f).task q = k.task q := by
  simp [updateTask, hqp]

@[simp]
theorem updateTask_rq (k : System n) (p : Pid) (f : TaskStruct n → TaskStruct n) :
    (k.updateTask p f).rq = k.rq :=
  rfl

@[simp]
theorem updateTask_links (k : System n) (p : Pid) (f : TaskStruct n → TaskStruct n) :
    (k.updateTask p f).links = k.links :=
  rfl

@[simp]
theorem updateRq_rq_self (k : System n) (c : Fin n) (f : Rq n → Rq n) :
    (k.updateRq c f).rq c = f (k.rq c) := by
  simp [updateRq]

@[simp]
theorem updateRq_rq_of_ne (k : System n) {c d : Fin n} (hdc : d ≠ c)
    (f : Rq n → Rq n) : (k.updateRq c f).rq d = k.rq d := by
  simp [updateRq, hdc]

@[simp]
theorem updateRq_task (k : System n) (c : Fin n) (f : Rq n → Rq n) :
    (k.updateRq c f).task = k.task :=
  rfl

@[simp]
theorem updateRq_links (k : System n) (c : Fin n) (f : Rq n → Rq n) :
    (k.updateRq c f).links = k.links :=
  rfl

/-- An assignment that leaves a component of the task alone leaves that
component of every task alone. -/
theorem updateTask_task_apply {β : Type*} (k : System n) (p q : Pid)
    {f : TaskStruct n → TaskStruct n} (g : TaskStruct n → β)
    (hfg : ∀ t, g (f t) = g t) :
    g ((k.updateTask p f).task q) = g (k.task q) := by
  by_cases hqp : q = p
  · subst hqp
    rw [updateTask_task_self, hfg]
  · rw [updateTask_task_of_ne k hqp]

/-- An assignment that leaves a component of the run queue alone leaves that
component of every run queue alone. -/
theorem updateRq_rq_apply {β : Type*} (k : System n) (c d : Fin n)
    {f : Rq n → Rq n} (g : Rq n → β) (hfg : ∀ r, g (f r) = g r) :
    g ((k.updateRq c f).rq d) = g (k.rq d) := by
  by_cases hdc : d = c
  · subst hdc
    rw [updateRq_rq_self, hfg]
  · rw [updateRq_rq_of_ne k hdc]

end System

end Kernel
end YatCasched
