import YatCasched.Kernel.Fallback
import YatCasched.Kernel.PickNext
import YatCasched.Kernel.Preemption
import YatCasched.Kernel.Priority

/-!
# Wakeups, forks and switches

How {lit}`core.c` brings a task to a run queue and takes it off again: {lit}`sched_fork` and
{lit}`wake_up_new_task`, {lit}`try_to_wake_up` with the wake lists of the CPUs,
{lit}`__schedule`, {lit}`sched_exec` and the work the stopper does for it and for CPU
hotplug.

The hook {lit}`select_task_rq` of the other classes, {lit}`cpumask_any`, the cache domains
and a scheduler feature are not part of the repository and are parameters.  A step that ends
in {lit}`BUG()` has no result.  Load averages, statistics, {lit}`p->saved_state`, which no
function here sets, and the flag {lit}`rq->ttwu_pending`, which none reads, are left out.

A CPU whose {lit}`rq->curr` is none runs its idle task or its stopper.  Which of them is not
kept, so either may be the one that calls {lit}`__schedule` next: the stopper is of the
highest class and never takes the fast path of {lit}`__pick_next_task`.
-/

namespace YatCasched
namespace Kernel

variable {n : Nat}

/-- The scheduler and, for each CPU, the tasks on its wake list. -/
structure Machine (n : Nat) where
  kernel : System n
  wakeList : Fin n → List Pid

/-- What the functions call that is not part of the repository. -/
structure WakeupEnv (n : Nat) where
  fallback : FallbackEnv n
  /-- The hook {lit}`select_task_rq` of the classes other than the cache-aware one. -/
  otherSelectTaskRq : System n → Pid → Fin n → Fin n
  /-- {lit}`cpumask_any`, if there is one. -/
  cpumaskAny : Finset (Fin n) → Option (Fin n)
  /-- {lit}`sched_feat(TTWU_QUEUE)`. -/
  ttwuQueueFeature : Bool
  /-- {lit}`sd_llc_id`. -/
  sdLlcId : Fin n → Int

variable (env : WakeupEnv n)

/-! ## Choosing a CPU -/

/-- {lit}`select_fallback_rq` from the CPU of the task, whose loop has at most three
rounds. -/
def fallbackRq (k : System n) (p : Pid) : Option (System n × Fin n) :=
  match selectFallbackRq env.fallback 3 k (k.task p).cpu p with
  | some (.out destCpu k) => some (k, destCpu)
  | some (.bug _) => none
  | none => none

/-- The CPU {lit}`select_task_rq` asks for first. -/
def preferredCpu (k : System n) (p : Pid) (cpu : Fin n) : System n × Option (Fin n) :=
  if 1 < (k.task p).nrCpusAllowed && !isMigrationDisabled k p then
    if (k.task p).schedClass = .yatCasched then
      ((selectTaskRqYatCasched k p cpu).1, some (selectTaskRqYatCasched k p cpu).2)
    else
      (k, some (env.otherSelectTaskRq k p cpu))
  else
    (k, env.cpumaskAny (k.maskAt (k.task p).cpusPtr))

/-- {lit}`select_task_rq`. -/
def selectTaskRq (k : System n) (p : Pid) (cpu : Fin n) : Option (System n × Fin n) :=
  let r := preferredCpu env k p cpu
  match r.2 with
  | some cpu => if isCpuAllowed r.1 p cpu then some (r.1, cpu) else fallbackRq env r.1 p
  | none => fallbackRq env r.1 p

/-- {lit}`set_task_cpu`, and {lit}`__set_task_cpu`. -/
def setTaskCpu (k : System n) (p : Pid) (newCpu : Fin n) : System n :=
  k.updateTask p fun t => { t with cpu := newCpu, wakeCpu := newCpu }

/-! ## Waking up -/

/-- {lit}`ttwu_do_wakeup`. -/
def ttwuDoWakeup (k : System n) (p : Pid) : System n :=
  k.updateTask p fun t => { t with state := .running }

/-- {lit}`ttwu_do_activate`. -/
def ttwuDoActivate (k : System n) (c : Fin n) (p : Pid) : System n :=
  ttwuDoWakeup (wakeupPreempt (activateTask k c p) c p) p

/-- {lit}`ttwu_runnable`, if it does the wakeup. -/
def ttwuRunnable (k : System n) (p : Pid) (now : UInt64) : Option (System n) :=
  if taskOnRqQueued k p then
    let c := (k.task p).cpu
    let k := if taskCurrent k p then k else wakeupPreempt (updateRqClock k c now) c p
    some (ttwuDoWakeup k p)
  else
    none

/-- {lit}`cpus_share_cache`. -/
def cpusShareCache (thisCpu thatCpu : Fin n) : Bool :=
  thisCpu = thatCpu || env.sdLlcId thisCpu = env.sdLlcId thatCpu

/-- {lit}`ttwu_queue_cond`. -/
def ttwuQueueCond (k : System n) (p : Pid) (cpu thisCpu : Fin n) : Bool :=
  if cpu ∉ k.cpuActive then
    false
  else if cpu ∉ k.maskAt (k.task p).cpusPtr then
    false
  else if !cpusShareCache env thisCpu cpu then
    true
  else if cpu = thisCpu then
    false
  else
    (k.rq cpu).nrRunning = 0

/-- {lit}`__ttwu_queue_wakelist`. -/
def ttwuQueueWakelist (m : Machine n) (p : Pid) (cpu : Fin n) : Machine n :=
  { m with wakeList := Function.update m.wakeList cpu (m.wakeList cpu ++ [p]) }

/-- {lit}`ttwu_queue`. -/
def ttwuQueue (m : Machine n) (p : Pid) (cpu thisCpu : Fin n) (now : UInt64) : Machine n :=
  if env.ttwuQueueFeature && ttwuQueueCond env m.kernel p cpu thisCpu then
    ttwuQueueWakelist m p cpu
  else
    { m with kernel := ttwuDoActivate (updateRqClock m.kernel cpu now) cpu p }

/-- The rest of {lit}`try_to_wake_up`, for a task that has been dequeued.  {lit}`onCpu` is
what it reads of {lit}`p->on_cpu`. -/
def wakeDequeued (m : Machine n) (p : Pid) (thisCpu : Fin n) (onCpu : Bool) (now : UInt64) :
    Option (Machine n) :=
  let k := m.kernel.updateTask p fun t => { t with state := .waking }
  let taskCpu := (k.task p).cpu
  if onCpu && env.ttwuQueueFeature && ttwuQueueCond env k p taskCpu thisCpu then
    some (ttwuQueueWakelist { m with kernel := k } p taskCpu)
  else
    match selectTaskRq env k p (k.task p).wakeCpu with
    | none => none
    | some (k, cpu) =>
        let k := if (k.task p).cpu ≠ cpu then setTaskCpu k p cpu else k
        some (ttwuQueue env { m with kernel := k } p cpu thisCpu now)

/-- {lit}`try_to_wake_up` on a CPU, and whether it succeeds; {lit}`inMask` says whether the
caller's mask of states has the one the task sleeps in. -/
def tryToWakeUp (m : Machine n) (thisCpu : Fin n) (p : Pid) (inMask onCpu : Bool)
    (now : UInt64) : Option (Machine n × Bool) :=
  let stateMatch := (m.kernel.task p).state = .sleeping ∧ inMask = true
  if ¬stateMatch then
    some (m, false)
  else if (m.kernel.rq thisCpu).curr = some p then
    some ({ m with kernel := ttwuDoWakeup m.kernel p }, true)
  else
    match ttwuRunnable m.kernel p now with
    | some k => some ({ m with kernel := k }, true)
    | none => (wakeDequeued env m p thisCpu onCpu now).map fun m => (m, true)

/-- {lit}`sched_ttwu_pending`, for one task of the list. -/
def ttwuPendingRound (c : Fin n) (k : System n) (p : Pid) : System n :=
  ttwuDoActivate (if (k.task p).cpu ≠ c then setTaskCpu k p c else k) c p

/-- {lit}`sched_ttwu_pending`. -/
def schedTtwuPending (m : Machine n) (c : Fin n) (now : UInt64) : Machine n where
  kernel := (m.wakeList c).foldl (ttwuPendingRound c) (updateRqClock m.kernel c now)
  wakeList := Function.update m.wakeList c []

/-! ## New tasks -/

/-- {lit}`sched_fork` and {lit}`sched_cgroup_fork`, by the task a CPU runs. -/
def forkTask (policies : PolicyPredicates) (k : System n) (thisCpu : Fin n) (p : Pid) :
    System n :=
  match (k.rq thisCpu).curr with
  | none => k
  | some current =>
      if (schedFork policies k current p).1 = 0 then
        setTaskCpu (schedFork policies k current p).2 p thisCpu
      else
        k

/-- {lit}`wake_up_new_task`. -/
def wakeUpNewTask (k : System n) (p : Pid) (now : UInt64) : Option (System n) :=
  let k := k.updateTask p fun t => { t with state := .running }
  match selectTaskRq env k p (k.task p).cpu with
  | none => none
  | some (k, cpu) =>
      let k := updateRqClock (setTaskCpu k p cpu) cpu now
      some (wakeupPreempt (activateTask k cpu p) cpu p)

/-! ## Switching -/

/-- The task of a pick, or the idle task. -/
def NextTask.pid? : Option NextTask → Option Pid
  | some (.task p) => some p
  | _ => none

/-- The part of {lit}`__schedule` for a previous task that is not runnable. -/
def blockPrevious (k : System n) (c : Fin n) (preempt signalPending : Bool) : System n :=
  match (k.rq c).curr with
  | none => k
  | some prev =>
      if !preempt && (k.task prev).state ≠ .running then
        if signalPending then
          k.updateTask prev fun t => { t with state := .running }
        else
          deactivateTask k c prev
      else
        k

/-- The context of {lit}`migrate_disable_switch`. -/
def migrateDisableContext (c : Fin n) : AffinityContext n where
  newMask := .cpumaskOf c
  userMask := none
  scaCheck := false
  scaMigrateDisable := true
  scaMigrateEnable := false
  scaUser := false

/-- {lit}`migrate_disable_switch`. -/
def migrateDisableSwitch (k : System n) (c : Fin n) (p : Pid) : System n :=
  if !isMigrationDisabled k p then
    k
  else if (k.task p).cpusPtr ≠ .cpusMask p then
    k
  else
    doSetCpusAllowed k p (migrateDisableContext c)

/-- The part of {lit}`__schedule` for a previous task that is not the next one. -/
def switchFrom (k : System n) (c : Fin n) (prev next : Option Pid) : System n :=
  match prev with
  | none => k
  | some p => if prev = next then k else migrateDisableSwitch k c p

/-- {lit}`__schedule`. -/
def scheduleLocked (picks : ClassPicks) (k : System n) (c : Fin n) (now : UInt64)
    (preempt signalPending : Bool) : System n :=
  let prev := (k.rq c).curr
  let k := blockPrevious (updateRqClock k c now) c preempt signalPending
  let r := pickNextTask picks k c prev
  let next := NextTask.pid? r.2
  switchFrom (contextSwitch r.1 c next) c prev next

/-- {lit}`set_current_state` of the task a CPU runs: it is going to sleep, or it changes its
mind. -/
def setCurrentState (k : System n) (c : Fin n) (state : TaskState) : System n :=
  match (k.rq c).curr with
  | none => k
  | some p => k.updateTask p fun t => { t with state := state }

/-! ## Sections without migration -/

/-- The state a call leaves, also if its caller has to wait. -/
def Outcome.state : Outcome n → System n
  | .returned _ k => k
  | .waiting k => k

/-- The context of {lit}`migrate_enable`. -/
def migrateEnableContext (p : Pid) : AffinityContext n where
  newMask := .cpusMask p
  userMask := none
  scaCheck := false
  scaMigrateDisable := false
  scaMigrateEnable := true
  scaUser := false

/-- {lit}`migrate_disable` by the task a CPU runs. -/
def migrateDisable (k : System n) (c : Fin n) : System n :=
  match (k.rq c).curr with
  | none => k
  | some p => k.updateTask p fun t => { t with migrationDisabled := t.migrationDisabled + 1 }

/-- {lit}`migrate_enable` by the task a CPU runs. -/
def migrateEnable (distribute : AnyAndDistribute n) (k : System n) (c : Fin n) : System n :=
  match (k.rq c).curr with
  | none => k
  | some p =>
      if 1 < (k.task p).migrationDisabled then
        k.updateTask p fun t => { t with migrationDisabled := t.migrationDisabled - 1 }
      else if (k.task p).migrationDisabled = 0 then
        k
      else
        let k :=
          if (k.task p).cpusPtr ≠ .cpusMask p then
            (setCpusAllowedPtrLocked distribute p k p (migrateEnableContext p)).state
          else
            k
        k.updateTask p fun t => { t with migrationDisabled := 0 }

/-! ## The stopper -/

/-- The stopper of a CPU preempts the running task, and empties the wake list as
{lit}`flush_smp_call_function_queue` does. -/
def runStopper (m : Machine n) (c : Fin n) (now : UInt64) : Machine n :=
  schedTtwuPending
    { m with
      kernel := contextSwitch (putPrevTask m.kernel c (m.kernel.rq c).curr) c none } c now

/-- {lit}`__schedule` of a stopper that is done: the classes are walked. -/
def scheduleStopper (picks : ClassPicks) (k : System n) (c : Fin n) (now : UInt64) :
    System n :=
  let r := restart picks (updateRqClock k c now) c none
  contextSwitch r.1 c (NextTask.pid? r.2)

/-- {lit}`migration_cpu_stop` without a pending request. -/
def migrationCpuStopTo (k : System n) (c : Fin n) (p : Pid) (destCpu : Fin n) : System n :=
  if (k.task p).cpu = c then
    if isMigrationDisabled k p then
      k
    else if taskOnRqQueued k p then
      migrateTask k p destCpu
    else
      k.updateTask p fun t => { t with wakeCpu := destCpu }
  else
    k

/-- The CPU {lit}`sched_exec` wants to move its task to, if any. -/
def schedExecDest (k : System n) (thisCpu : Fin n) (p : Pid) : System n × Option (Fin n) :=
  let r :=
    if (k.task p).schedClass = .yatCasched then
      selectTaskRqYatCasched k p (k.task p).cpu
    else
      (k, env.otherSelectTaskRq k p (k.task p).cpu)
  if r.2 = thisCpu ∨ r.2 ∉ r.1.cpuActive then
    (r.1, none)
  else
    (r.1, some r.2)

/-- {lit}`sched_exec` of the task a CPU runs, and the stopper after it. -/
def schedExec (m : Machine n) (c : Fin n) (now : UInt64) : Machine n :=
  match (m.kernel.rq c).curr with
  | none => m
  | some p =>
      let r := schedExecDest env m.kernel c p
      match r.2 with
      | none => { m with kernel := r.1 }
      | some destCpu =>
          let m := runStopper { m with kernel := r.1 } c now
          { m with kernel := migrationCpuStopTo m.kernel c p destCpu }

/-- {lit}`__balance_push_cpu_stop` on a CPU that goes down. -/
def balancePushCpuStop (m : Machine n) (c : Fin n) (p : Pid) (now : UInt64) :
    Option (Machine n) :=
  let m := runStopper m c now
  if (m.kernel.task p).cpu = c ∧ taskOnRqQueued m.kernel p then
    match fallbackRq env m.kernel p with
    | none => none
    | some (k, cpu) => some { m with kernel := migrateTask k p cpu }
  else
    some m

/-- {lit}`migration_cpu_stop` for the request a task has pending. -/
def pendingStop (m : Machine n) (c : Fin n) (p : Pid) (now : UInt64) : Machine n :=
  match (m.kernel.task p).migrationPending with
  | none => m
  | some pending =>
      let m := runStopper m c now
      { m with kernel := migrationCpuStop m.kernel c p pending }

end Kernel
end YatCasched
