import YatCasched.Kernel.Dispatch

/-!
# Affinity changes

{lit}`__set_cpus_allowed_ptr_locked` of {lit}`core.c` and what it calls: the
dequeue / put / hook / enqueue / set sandwich of {lit}`__do_set_cpus_allowed`,
{lit}`affine_move_task` with its pending request, and the stopper callback
{lit}`migration_cpu_stop` that completes the request.

A caller that has to wait is an outcome of its own.  While it waits, the stopper
holding the request runs; no other affinity call, no CPU hotplug and no step of
the task itself is interleaved.  The push balancing of
{lit}`affine_move_task`, the reference count of the request, which only delays
callers that share one, and the freeing of user masks are left out.

Main results:

- Theorem {lit}`onlyAccounting_doSetCpusAllowed`: the sandwich has the effect
  of the hook on the affinity, and no other.
-/

namespace YatCasched
namespace Kernel

open CircularList

variable {n : Nat}

/-! ## Storing a mask -/

/-- {lit}`struct affinity_context`, one field for each {lit}`SCA_` flag. -/
structure AffinityContext (n : Nat) where
  newMask : CpumaskPtr n
  userMask : Option (CpumaskPtr n)
  scaCheck : Bool
  scaMigrateDisable : Bool
  scaMigrateEnable : Bool
  scaUser : Bool

/-- The mask behind a pointer. -/
def System.maskAt (k : System n) : CpumaskPtr n → Finset (Fin n)
  | .cpusMask p => (k.task p).cpusMask
  | .cpumaskOf cpu => {cpu}
  | .other address => k.cpumask address

/-- {lit}`set_cpus_allowed_common`. -/
def setCpusAllowedCommon (k : System n) (p : Pid) (ctx : AffinityContext n) : System n :=
  if ctx.scaMigrateEnable || ctx.scaMigrateDisable then
    k.updateTask p fun t => { t with cpusPtr := ctx.newMask }
  else
    k.updateTask p fun t =>
      { t with
        cpusMask := k.maskAt ctx.newMask
        nrCpusAllowed := (k.maskAt ctx.newMask).card
        userCpusPtr := if ctx.scaUser then ctx.userMask else t.userCpusPtr }

/-- {lit}`p->sched_class->set_cpus_allowed`. -/
def setCpusAllowed (k : System n) (p : Pid) (ctx : AffinityContext n) : System n :=
  if (k.task p).schedClass = .yatCasched then
    setCpusAllowedYatCasched k p ctx.newMask
  else
    setCpusAllowedCommon k p ctx

/-- {lit}`is_migration_disabled`. -/
def isMigrationDisabled (k : System n) (p : Pid) : Bool :=
  (k.task p).migrationDisabled ≠ 0

/-- {lit}`__do_set_cpus_allowed`. -/
def doSetCpusAllowed (k : System n) (p : Pid) (ctx : AffinityContext n) : System n :=
  requeue k p fun k => setCpusAllowed k p ctx

/-! ## Moving a task -/

/-- {lit}`is_cpu_allowed`. -/
def isCpuAllowed (k : System n) (p : Pid) (cpu : Fin n) : Bool :=
  if cpu ∉ k.maskAt (k.task p).cpusPtr then
    false
  else if isMigrationDisabled k p then
    cpu ∈ k.cpuOnline
  else if !(k.task p).pfKthread then
    cpu ∈ k.cpuActive && cpu ∈ (k.task p).cpuPossibleMask
  else if (k.task p).kthreadIsPerCpu then
    cpu ∈ k.cpuOnline
  else if cpu ∈ k.cpuDying then
    false
  else
    cpu ∈ k.cpuOnline

/-- {lit}`move_queued_task`. -/
def moveQueuedTask (k : System n) (p : Pid) (newCpu : Fin n) : System n :=
  let c := (k.task p).cpu
  let k := dequeueTask (k.updateTask p fun t => { t with onRq := .migrating }) c p
  let k := k.updateTask p fun t => { t with cpu := newCpu, wakeCpu := newCpu }
  let k := (enqueueTask k newCpu p).updateTask p fun t => { t with onRq := .queued }
  wakeupPreempt k newCpu p

/-- {lit}`__migrate_task`. -/
def migrateTask (k : System n) (p : Pid) (destCpu : Fin n) : System n :=
  if isCpuAllowed k p destCpu then moveQueuedTask k p destCpu else k

/-- Assign {lit}`p->migration_pending`.  Uninstalling a request completes it. -/
def setMigrationPending (k : System n) (p : Pid) (pending : Option (SetAffinityPending n)) :
    System n :=
  k.updateTask p fun t => { t with migrationPending := pending }

/-- {lit}`migration_cpu_stop` with a pending request, on the given CPU. -/
def migrationCpuStop (k : System n) (cpu : Fin n) (p : Pid)
    (pending : SetAffinityPending n) : System n :=
  if (k.task p).cpu = cpu then
    if isMigrationDisabled k p then
      setMigrationPending k p (some { pending with stopPending := none })
    else
      let k := setMigrationPending k p none
      if (k.task p).cpu ∈ (k.task p).cpusMask then
        k
      else if taskOnRqQueued k p then
        migrateTask k p pending.destCpu
      else
        k.updateTask p fun t => { t with wakeCpu := pending.destCpu }
  else if (k.task p).cpu ∈ k.maskAt (k.task p).cpusPtr then
    setMigrationPending k p none
  else
    -- the task moved: stop its new CPU
    setMigrationPending k p (some { pending with stopPending := some (k.task p).cpu })

/-- The stopper of a CPU preempts the running task and runs the callback. -/
def stopperRun (k : System n) (cpu : Fin n) (p : Pid) (pending : SetAffinityPending n) :
    System n :=
  migrationCpuStop (contextSwitch (putPrevTask k cpu (k.rq cpu).curr) cpu none) cpu p pending

/-! ## The request -/

/-- How far a call gets without the stopper. -/
inductive Outcome (n : Nat)
  | returned (ret : Int) (k : System n)
  /-- In {lit}`wait_for_completion`. -/
  | waiting (k : System n)

/-- The request after {lit}`affine_move_task` has installed or updated it. -/
def installRequest (destCpu : Fin n) :
    Option (SetAffinityPending n) → SetAffinityPending n
  | none => { stopPending := none, destCpu := destCpu }
  | some pending => { pending with destCpu := destCpu }

/-- {lit}`affine_move_task`. -/
def affineMoveTask (k : System n) (p : Pid) (destCpu : Fin n) (ctx : AffinityContext n) :
    Outcome n :=
  if (k.task p).cpu ∈ (k.task p).cpusMask then
    match (k.task p).migrationPending with
    | some { stopPending := none, .. } => .returned 0 (setMigrationPending k p none)
    | _ => .returned 0 k
  else
    let pending :=
      if ctx.scaMigrateEnable then
        (k.task p).migrationPending
      else
        some (installRequest destCpu (k.task p).migrationPending)
    match pending with
    | none => .returned (-22) k
    | some pending =>
        if taskCurrent k p || (k.task p).state = .waking then
          let k := setMigrationPending k p
            (some { pending with
              stopPending := pending.stopPending.or (some (k.task p).cpu) })
          if ctx.scaMigrateEnable then .returned 0 k else .waiting k
        else if isMigrationDisabled k p then
          .waiting (setMigrationPending k p (some pending))
        else
          let k := if taskOnRqQueued k p then moveQueuedTask k p destCpu else k
          .waiting (setMigrationPending k p
            (if pending.stopPending.isNone then none else some pending))

/-- {lit}`cpumask_any_and_distribute`: some CPU of both masks, if there is
one. -/
structure AnyAndDistribute (n : Nat) where
  pick : Finset (Fin n) → Finset (Fin n) → Option (Fin n)
  pick_mem : ∀ a b cpu, pick a b = some cpu → cpu ∈ a ∧ cpu ∈ b
  pick_none : ∀ a b, pick a b = none ↔ Disjoint a b

/-- {lit}`cpu_valid_mask`. -/
def cpuValidMask (k : System n) (p : Pid) : Finset (Fin n) :=
  if (k.task p).pfKthread || isMigrationDisabled k p then k.cpuOnline else k.cpuActive

/-- {lit}`__set_cpus_allowed_ptr_locked`, called by the task {lit}`current`. -/
def setCpusAllowedPtrLocked (distribute : AnyAndDistribute n) (current : Pid) (k : System n)
    (p : Pid) (ctx : AffinityContext n) : Outcome n :=
  let newMask := k.maskAt ctx.newMask
  if !(k.task p).pfKthread && ¬newMask ⊆ (k.task p).cpuPossibleMask then
    .returned (-22) k
  else if ctx.scaCheck && (k.task p).pfNoSetaffinity then
    .returned (-22) k
  else if !ctx.scaMigrateEnable && (k.task p).cpusMask = newMask then
    .returned 0
      (if ctx.scaUser then k.updateTask p fun t => { t with userCpusPtr := ctx.userMask } else k)
  else if !ctx.scaMigrateEnable && p = current && isMigrationDisabled k p &&
      (k.task p).cpu ∉ newMask then
    .returned (-16) k
  else
    match distribute.pick (cpuValidMask k p) newMask with
    | none => .returned (-22) k
    | some destCpu => affineMoveTask (doSetCpusAllowed k p ctx) p destCpu ctx

/-- The call returns: at once, when its request is complete, or after the
stopper that holds the request has run. -/
inductive Returns (p : Pid) : Outcome n → Int → System n → Prop
  | returned (ret : Int) (k : System n) : Returns p (.returned ret k) ret k
  | completed (k : System n) (hdone : (k.task p).migrationPending = none) :
      Returns p (.waiting k) 0 k
  | stopper (k : System n) (pending : SetAffinityPending n) (cpu : Fin n) (ret : Int)
      (k' : System n) (hpending : (k.task p).migrationPending = some pending)
      (hstop : pending.stopPending = some cpu)
      (hrest : Returns p (.waiting (stopperRun k cpu p pending)) ret k') :
      Returns p (.waiting k) ret k'

/-- Masks in memory are not changed by accounting. -/
theorem OnlyAccounting.maskAt {k k' : System n} (h : OnlyAccounting k k')
    (ptr : CpumaskPtr n) : k'.maskAt ptr = k.maskAt ptr := by
  cases ptr with
  | cpusMask p => exact h.apply p (fun t => t.cpusMask) fun _ _ _ => rfl
  | cpumaskOf cpu => rfl
  | other address => exact congrFun h.cpumask address

/-- The hook reads nothing that accounting changes. -/
theorem OnlyAccounting.setCpusAllowed {k k' : System n} (h : OnlyAccounting k k') (p : Pid)
    (ctx : AffinityContext n) :
    OnlyAccounting (setCpusAllowed k p ctx) (setCpusAllowed k' p ctx) := by
  have hclass : (k'.task p).schedClass = (k.task p).schedClass :=
    h.apply p (fun t => t.schedClass) fun _ _ _ => rfl
  unfold Kernel.setCpusAllowed setCpusAllowedCommon
  rw [hclass, h.maskAt]
  split
  · exact h
  · split
    · exact h.updateBoth p fun t se yat => ⟨se, yat, rfl⟩
    · exact h.updateBoth p fun t se yat => ⟨se, yat, rfl⟩

/-- The sandwich has the effect of the hook on the affinity, and no other. -/
theorem onlyAccounting_doSetCpusAllowed (k : System n) (p : Pid) (ctx : AffinityContext n) :
    OnlyAccounting (setCpusAllowed k p ctx) (doSetCpusAllowed k p ctx) := by
  apply onlyAccounting_requeue k p
  intro k' h
  exact h.setCpusAllowed p ctx

end Kernel
end YatCasched
