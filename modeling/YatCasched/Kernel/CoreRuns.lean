import YatCasched.Kernel.CoreSteps
import YatCasched.Lib.Trace

/-!
# Runs of the core scheduler

The functions of {lit}`core.c` that move tasks, as steps of one machine: forks, wakeups,
reschedules, ticks, changes of affinity, policy and priority, and the stopper, on all CPUs
in any order.  A run is a trace of steps whose callers keep what they guarantee, from a
machine on which nothing is runnable yet.

Main results:

- Theorem {lit}`refines_step`: every step is matched by events on the life cycle.
- Theorem {lit}`placed_of_reaches`: in every reachable state each task is on at most one
  list, the one its fields name.
-/

namespace YatCasched
namespace Kernel

open CircularList QueueLife

variable {n : Nat}

/-! ## Steps -/

/-- What the steps call that is not part of the repository. -/
structure CoreEnv (n : Nat) where
  wakeup : WakeupEnv n
  picks : ClassPicks
  policies : PolicyPredicates
  stop : Fin n → Option Pid
  distribute : AnyAndDistribute n

/-- One step of one CPU. -/
inductive CoreOp (n : Nat)
  /-- {lit}`sched_fork` by the task the CPU runs. -/
  | fork (c : Fin n) (p : Pid)
  | wakeUpNewTask (p : Pid) (now : UInt64)
  | setCurrentState (c : Fin n) (state : TaskState)
  | tryToWakeUp (thisCpu : Fin n) (p : Pid) (inMask onCpu : Bool) (now : UInt64)
  | schedTtwuPending (c : Fin n) (now : UInt64)
  /-- {lit}`__schedule`. -/
  | schedule (c : Fin n) (now : UInt64) (preempt signalPending : Bool)
  | schedulerTick (c : Fin n) (now : UInt64) (requests : Bool)
  /-- {lit}`__set_cpus_allowed_ptr_locked`, up to where the caller waits. -/
  | setCpusAllowed (current p : Pid) (ctx : AffinityContext n)
  /-- The stopper of a CPU for the request a task has pending. -/
  | pendingStop (c : Fin n) (p : Pid) (now : UInt64)
  /-- {lit}`__schedule` of the stopper. -/
  | scheduleStopper (c : Fin n) (now : UInt64)
  | migrateDisable (c : Fin n)
  | migrateEnable (c : Fin n)
  | schedExec (c : Fin n) (now : UInt64)
  /-- {lit}`__balance_push_cpu_stop`. -/
  | balancePush (c : Fin n) (p : Pid) (now : UInt64)
  | schedSetscheduler (senv : SetschedulerEnv) (p : Pid) (attr : SchedAttr) (user pi : Bool)
  | rtMutexSetprio (p : Pid) (piTask : Option Pid)
  | setUserNice (p : Pid) (nice : Int)
  /-- CPUs come and go. -/
  | setCpuMasks (online active dying : Finset (Fin n))

variable (env : CoreEnv n)

/-- The effect of a step, unless it is {lit}`BUG()`. -/
def CoreOp.step (m : Machine n) : CoreOp n → Option (Machine n)
  | .fork c p => some { m with kernel := forkTask env.policies m.kernel c p }
  | .wakeUpNewTask p now =>
      (Kernel.wakeUpNewTask env.wakeup m.kernel p now).map fun k => { m with kernel := k }
  | .setCurrentState c state =>
      some { m with kernel := Kernel.setCurrentState m.kernel c state }
  | .tryToWakeUp thisCpu p inMask onCpu now =>
      (Kernel.tryToWakeUp env.wakeup m thisCpu p inMask onCpu now).map Prod.fst
  | .schedTtwuPending c now => some (Kernel.schedTtwuPending m c now)
  | .schedule c now preempt signalPending =>
      some { m with kernel := scheduleLocked env.picks m.kernel c now preempt signalPending }
  | .schedulerTick c now requests =>
      some { m with kernel := Kernel.schedulerTick m.kernel c now requests }
  | .setCpusAllowed current p ctx =>
      some { m with
        kernel := (setCpusAllowedPtrLocked env.distribute current m.kernel p ctx).state }
  | .pendingStop c p now => some (Kernel.pendingStop m c p now)
  | .scheduleStopper c now =>
      some { m with kernel := Kernel.scheduleStopper env.picks m.kernel c now }
  | .migrateDisable c => some { m with kernel := Kernel.migrateDisable m.kernel c }
  | .migrateEnable c =>
      some { m with kernel := Kernel.migrateEnable env.distribute m.kernel c }
  | .schedExec c now => some (Kernel.schedExec env.wakeup m c now)
  | .balancePush c p now => balancePushCpuStop env.wakeup m c p now
  | .schedSetscheduler senv p attr user pi =>
      some { m with
        kernel :=
          (Kernel.schedSetscheduler env.policies env.stop senv m.kernel p attr user pi).2 }
  | .rtMutexSetprio p piTask =>
      some { m with kernel := Kernel.rtMutexSetprio m.kernel p piTask }
  | .setUserNice p nice =>
      some { m with kernel := Kernel.setUserNice env.policies m.kernel p nice }
  | .setCpuMasks online active dying =>
      some { m with
        kernel :=
          { m.kernel with cpuOnline := online, cpuActive := active, cpuDying := dying } }

/-- What the callers guarantee: a task that is forked or woken for the first time is on no
run queue and not on its way to one, a running task says only that it runs or that it is
going to sleep, and a CPU that runs its stopper runs no other task. -/
def CoreOp.Legal (m : Machine n) : CoreOp n → Prop
  | .fork _ p => (m.kernel.task p).onRq ≠ .queued ∧ (m.kernel.task p).state ≠ .waking
  | .wakeUpNewTask p _ =>
      (m.kernel.task p).onRq ≠ .queued ∧ (m.kernel.task p).state = .new
  | .setCurrentState _ state => state = .running ∨ state = .sleeping
  | .scheduleStopper c _ => (m.kernel.rq c).curr = none
  | _ => True

/-- The task a CPU runs, if migration is disabled for it. -/
def pinnedCurr (k : System n) (c : Fin n) : Option Pid :=
  (k.rq c).curr.filter (isMigrationDisabled k)

/-- What a step may do to the life cycle. -/
def CoreOp.footprint (m : Machine n) : CoreOp n → Footprint n
  | .fork _ p => { touches := some p }
  | .wakeUpNewTask p _ => { wakes := some p }
  | .setCurrentState _ _ => {}
  | .tryToWakeUp _ p _ _ _ => { wakes := some p }
  | .schedTtwuPending c _ => { flushes := some c }
  | .schedule c _ preempt signalPending =>
      { switches := some c
        picks := true
        blocks :=
          if blocksPrevious m.kernel c preempt signalPending then (m.kernel.rq c).curr else none
        touches := pinnedCurr m.kernel c }
  | .schedulerTick _ _ _ => {}
  | .setCpusAllowed _ p _ => { touches := some p }
  | .pendingStop c p _ => { flushes := some c, switches := some c, touches := some p }
  | .scheduleStopper c _ => { switches := some c, picks := true }
  | .migrateDisable _ => {}
  | .migrateEnable c => { touches := (m.kernel.rq c).curr }
  | .schedExec c _ =>
      { flushes := some c, switches := some c, touches := (m.kernel.rq c).curr }
  | .balancePush c p _ => { flushes := some c, switches := some c, touches := some p }
  | .schedSetscheduler _ p _ _ _ => { touches := some p }
  | .rtMutexSetprio p _ => { touches := some p }
  | .setUserNice p _ => { touches := some p }
  | .setCpuMasks _ _ _ => {}

variable {env} {m m' : Machine n} {s : TaskLife n} {op : CoreOp n}

/-- Every step is matched by legal events in its footprint. -/
theorem refines_step (hpicks : PicksMembers env.picks) (h : Refines m s) (hop : op.Legal m)
    (hstep : op.step env m = some m') : Follows (op.footprint m) s m' := by
  cases op with
  | fork c p =>
      cases hstep
      exact h.forkTask env.policies c rfl hop.1 hop.2
  | wakeUpNewTask p now =>
      rcases Option.map_eq_some_iff.mp hstep with ⟨k, hk, heq⟩
      cases heq
      refine Refines.wakeUpNewTask h rfl hop.1 ?_ hk
      rw [hop.2]
      simp
  | setCurrentState c state =>
      cases hstep
      exact .stay (Refines.setCurrentState h c state)
  | tryToWakeUp thisCpu p inMask onCpu now =>
      rcases Option.map_eq_some_iff.mp hstep with ⟨⟨m₁, success⟩, hout, heq⟩
      cases heq
      exact h.tryToWakeUp rfl hout
  | schedTtwuPending c now =>
      cases hstep
      exact h.schedTtwuPending rfl now
  | schedule c now preempt signalPending =>
      cases hstep
      refine h.scheduleLocked hpicks c now preempt signalPending rfl rfl ?_ ?_
      · intro hblocks
        exact if_pos hblocks
      · intro p hp hdisabled
        show pinnedCurr m.kernel c = some p
        unfold pinnedCurr
        rw [hp, Option.filter_some, if_pos hdisabled]
  | schedulerTick c now requests =>
      cases hstep
      exact .stay (h.congr (.schedulerTick m.kernel c now requests))
  | setCpusAllowed current p ctx =>
      cases hstep
      exact Refines.setCpusAllowedPtrLocked h env.distribute current ctx rfl
  | pendingStop c p now =>
      cases hstep
      exact h.pendingStop rfl rfl rfl now
  | scheduleStopper c now =>
      cases hstep
      exact h.scheduleStopper hpicks rfl rfl now
  | migrateDisable c =>
      cases hstep
      exact .stay (h.congr (.migrateDisable m.kernel c))
  | migrateEnable c =>
      cases hstep
      exact Refines.migrateEnable h env.distribute c rfl
  | schedExec c now =>
      cases hstep
      exact h.schedExec rfl rfl rfl now
  | balancePush c p now => exact h.balancePushCpuStop rfl rfl rfl hstep
  | schedSetscheduler senv p attr user pi =>
      cases hstep
      exact Refines.schedSetscheduler h env.policies env.stop senv attr user pi rfl
  | rtMutexSetprio p piTask =>
      cases hstep
      exact Refines.rtMutexSetprio h piTask rfl
  | setUserNice p nice =>
      cases hstep
      exact Refines.setUserNice h env.policies nice rfl
  | setCpuMasks online active dying =>
      cases hstep
      refine .stay (h.congr ⟨fun _ => rfl, fun _ => rfl, rfl⟩)

/-- A trace of steps is matched by a run of legal events. -/
theorem refines_of_reaches (hpicks : PicksMembers env.picks) (h : Refines m s)
    {ops : List (CoreOp n)} (htrace : Trace.Reaches (CoreOp.step env) CoreOp.Legal m ops m') :
    ∃ s', Refines m' s' := by
  refine htrace.invariant (fun m => ∃ s, Refines m s) ?_ ⟨s, h⟩
  rintro m₁ op m₂ ⟨s₁, h₁⟩ hop hstep
  exact (refines_step hpicks h₁ hop hstep).refined

/-! ## The start -/

/-- Nothing is runnable yet, and all tasks have been forked. -/
structure Idle (k₀ : System n) : Prop extends Quiet k₀ where
  off : ∀ p, (k₀.task p).onRq ≠ .queued
  curr_none : ∀ c, (k₀.rq c).curr = none

/-- The machine after the initialisation of the run queues. -/
def bootMachine (k₀ : System n) : Machine n where
  kernel := initYatCaschedRqs k₀
  wakeList := fun _ => []

/-- A life cycle in which all tasks sleep. -/
def sleepingLife (k₀ : System n) : TaskLife n where
  place := fun _ => .asleep
  cls := fun p => (k₀.task p).schedClass
  queue := fun _ => []
  inbox := fun _ => []
  curr := fun _ => none

theorem Idle.refines {k₀ : System n} (h : Idle k₀) :
    Refines (bootMachine k₀) (sleepingLife k₀) := by
  have hrq : ∀ c, ∃ yat, (initYatCaschedRqs k₀).rq c = { k₀.rq c with yatCasched := yat } :=
    initYatCaschedRqs_rq k₀
  constructor
  case sound =>
    refine ⟨⟨?_, ?_, ?_, ?_⟩, ?_⟩
    · intro p c cls
      simp [sleepingLife]
    · exact fun _ => List.nodup_nil
    · intro p c
      simp [sleepingLife]
    · exact fun _ => List.nodup_nil
    · intro c p hp
      cases hp
  case queues =>
    constructor
    case cls =>
      intro p
      show ((initYatCaschedRqs k₀).task p).schedClass = _
      rw [initYatCaschedRqs_task]
      rfl
    case curr =>
      intro c
      rcases hrq c with ⟨yat, hc⟩
      show ((initYatCaschedRqs k₀).rq c).curr = none
      rw [hc]
      exact h.curr_none c
    case queue =>
      intro c cls hcls
      rcases hrq c with ⟨yat, hc⟩
      show ((initYatCaschedRqs k₀).rq c).queueOf cls = []
      rw [hc]
      rcases hcls with rfl | rfl
      · exact h.rt_empty c
      · exact h.fair_empty c
    case yatQueue => exact represents_initYatCaschedRqs h.forked
    case counted => exact h.toQuiet.counted.counted
    case recorded =>
      intro p c hp
      cases hp
  case places =>
    constructor
    · intro p c
      refine iff_of_false (by simp [sleepingLife]) ?_
      rintro ⟨hqueued, _⟩
      have htask : (bootMachine k₀).kernel.task = k₀.task := initYatCaschedRqs_task k₀
      rw [htask] at hqueued
      exact h.off p hqueued
    · intro p c hp
      cases hp
  case inbox => rfl

/-! ## Safety -/

/-- Every task is on at most one list, the one its fields name; a CPU runs a task from its
own queues; the counters count the queues. -/
structure Placed (m : Machine n) : Prop where
  rt_iff : ∀ p c, p ∈ (m.kernel.rq c).rtQueue ↔
    (m.kernel.task p).schedClass = .rt ∧ (m.kernel.task p).onRq = .queued ∧
      (m.kernel.task p).cpu = c
  fair_iff : ∀ p c, p ∈ (m.kernel.rq c).fairQueue ↔
    (m.kernel.task p).schedClass = .fair ∧ (m.kernel.task p).onRq = .queued ∧
      (m.kernel.task p).cpu = c
  yat_iff : ∀ p c, Queued m.kernel c p ↔
    (m.kernel.task p).schedClass = .yatCasched ∧ (m.kernel.task p).onRq = .queued ∧
      (m.kernel.task p).cpu = c
  waking : ∀ p c, p ∈ m.wakeList c → (m.kernel.task p).state = .waking ∧
    (m.kernel.task p).onRq ≠ .queued ∧ (m.kernel.task p).cpu = c
  nodup : ∀ c, (m.kernel.rq c).rtQueue.Nodup ∧ (m.kernel.rq c).fairQueue.Nodup ∧
    (m.wakeList c).Nodup
  curr : ∀ p c, (m.kernel.rq c).curr = some p → (m.kernel.task p).onRq = .queued ∧
    (m.kernel.task p).cpu = c
  counted : Counted m.kernel

/-- A machine that refines a life cycle has its tasks in their places. -/
theorem Refines.placed (h : Refines m s) : Placed m := by
  have hqueue : ∀ p c cls, p ∈ s.queue (c, cls) ↔
      (m.kernel.task p).schedClass = cls ∧ (m.kernel.task p).onRq = .queued ∧
        (m.kernel.task p).cpu = c := by
    intro p c cls
    rw [h.sound.mem_queue, h.places.queued, h.queues.cls p]
    exact and_comm
  constructor
  case rt_iff =>
    intro p c
    rw [← hqueue, ← h.queues.queue c .rt (Or.inl rfl)]
    rfl
  case fair_iff =>
    intro p c
    rw [← hqueue, ← h.queues.queue c .fair (Or.inr rfl)]
    rfl
  case yat_iff =>
    intro p c
    rw [← hqueue, h.queues.yatQueue.queued_iff]
  case waking =>
    intro p c hp
    rw [← h.inbox, h.sound.mem_inbox] at hp
    have hpending := h.places.pending p c hp
    refine ⟨hpending.1, ?_, hpending.2⟩
    intro hqueued
    have hplace := (h.places.queued p _).mpr ⟨hqueued, rfl⟩
    rw [hp] at hplace
    cases hplace
  case nodup =>
    intro c
    refine ⟨(h.queues.counted c).rt_nodup, (h.queues.counted c).fair_nodup, ?_⟩
    rw [← h.inbox]
    exact h.sound.inbox_nodup c
  case curr => exact fun p c hp => Refines.of_curr (w := m.wakeList) h hp
  case counted => exact h.queues.toCounted

/-- In every state that a run reaches, every task is on at most one list, the one its
fields name. -/
theorem placed_of_reaches (hpicks : PicksMembers env.picks) {k₀ : System n} (hk₀ : Idle k₀)
    {ops : List (CoreOp n)}
    (htrace : Trace.Reaches (CoreOp.step env) CoreOp.Legal (bootMachine k₀) ops m) :
    Placed m := by
  rcases refines_of_reaches hpicks hk₀.refines htrace with ⟨s, hs⟩
  exact hs.placed

/-! ## A run -/

theorem picksMembers_fifoPicks : PicksMembers fifoPicks where
  rt_mem := fun _ _ h => List.mem_of_mem_head? h
  class_mem := fun _ _ h => List.mem_of_mem_head? h

/-- Two CPUs that share no cache. -/
def twoCpus : CoreEnv 2 where
  wakeup :=
    { fallback := oneNode
      otherSelectTaskRq := fun _ _ cpu => cpu
      cpumaskAny := fun _ => none
      ttwuQueueFeature := true
      sdLlcId := fun cpu => (cpu : Nat) }
  picks := fifoPicks
  policies := userPolicies
  stop := fun _ => none
  distribute := .first 2

/-- All tasks sleep.  Task 5 is a real-time task, the others are of the class. -/
def sleepingBoot : System 2 :=
  { yatCaschedBootSystem 2 with
    task := fun p =>
      { (yatCaschedBootSystem 2).task p with
        state := .sleeping
        schedClass := if p = 5 then .rt else .yatCasched } }

theorem idle_sleepingBoot : Idle sleepingBoot where
  forked := quiet_yatCaschedBootSystem.forked
  rt_empty := fun _ => rfl
  fair_empty := fun _ => rfl
  nrRunning_zero := fun _ => rfl
  cfsHNrRunning_zero := fun _ => rfl
  off := fun _ => by simp [sleepingBoot, yatCaschedBootSystem, bootSystem, initTask]
  curr_none := fun _ => rfl

/-- The tasks 5 and 7 are woken up.  When task 5 blocks, CPU 0 switches to task 7, which
says that it goes to sleep. -/
def sevenRuns : List (CoreOp 2) :=
  [.tryToWakeUp 0 5 true false 0, .tryToWakeUp 0 7 true false 0, .schedule 0 0 false false,
    .setCurrentState 0 .sleeping, .schedule 0 0 false false, .setCurrentState 0 .sleeping]

/-- In a run of six steps the tasks stay in their places. -/
theorem placed_sevenRuns :
    ∃ m, Trace.Reaches (CoreOp.step twoCpus) CoreOp.Legal (bootMachine sleepingBoot) sevenRuns
        m ∧ (m.kernel.rq 0).curr = some 7 ∧ Placed m := by
  have htrace : ∃ m, Trace.Reaches (CoreOp.step twoCpus) CoreOp.Legal
      (bootMachine sleepingBoot) sevenRuns m ∧ (m.kernel.rq 0).curr = some 7 := by
    refine ⟨_, .cons trivial rfl (.cons trivial rfl (.cons trivial rfl
      (.cons (Or.inr rfl) rfl (.cons trivial rfl (.cons (Or.inr rfl) rfl (.nil _)))))), ?_⟩
    rfl
  rcases htrace with ⟨m, htrace, hcurr⟩
  exact ⟨m, htrace, hcurr, placed_of_reaches picksMembers_fifoPicks idle_sleepingBoot htrace⟩

end Kernel
end YatCasched
