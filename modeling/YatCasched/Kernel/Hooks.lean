import YatCasched.Kernel.State

/-!
# The hooks of the cache-aware class

The functions of {lit}`yat_casched.c`, one definition each, as state
transformers of the whole scheduler.  {lit}`printk` calls and the history lock
are left out: neither changes the state.

Main results:

- Theorem {lit}`selectTaskRqYatCasched_fst_of_recorded`: choosing a CPU for a
  task with a recorded CPU changes nothing.
- Theorems {lit}`yieldTaskYatCasched_eq` and
  {lit}`setCpusAllowedYatCasched_eq`: the two empty hooks.
-/

namespace YatCasched
namespace Kernel

open CircularList

variable {n : Nat}

/-! ## Initialisation -/

/-- {lit}`init_yat_casched_rq`, for the run queue of one CPU. -/
def initYatCaschedRq (k : System n) (c : Fin n) : System n :=
  { k with links := initListHead k.links (.tasks c) }.updateRq c fun rq =>
    { rq with
      yatCasched :=
        { nrRunning := 0
          agent := none
          cacheDecayJiffies := k.jiffies
          cpuHistory := fun _ => none } }

/-- The part of {lit}`__sched_fork` that concerns this model. -/
def schedForkYatCasched (k : System n) (p : Pid) : System n :=
  { k with links := initListHead k.links (.runList p) }.updateTask p fun t =>
    { t with
      onRq := .off
      migrationPending := none
      se := { execStart := 0, sumExecRuntime := 0, prevSumExecRuntime := 0 }
      yatCasched := { vruntime := 0, slice := 0, lastCpu := -1 } }

/-! ## Accounting -/

/-- {lit}`yat_casched_prio`. -/
def yatCaschedPrio (t : TaskStruct n) : Bool :=
  t.policy = 8

/-- The execution time since {lit}`exec_start`, zero if the clock went back. -/
def deltaExec (now execStart : UInt64) : UInt64 :=
  if (now - execStart).toInt64 < 0 then 0 else now - execStart

/-- {lit}`update_curr_yat_casched`. -/
def updateCurrYatCasched (k : System n) (c : Fin n) : System n :=
  match (k.rq c).curr with
  | none => k
  | some curr =>
      if (k.task curr).schedClass ≠ .yatCasched then
        k
      else
        k.updateTask curr fun t =>
          { t with
            se := { t.se with execStart := (k.rq c).clockTask }
            yatCasched :=
              { t.yatCasched with
                vruntime := t.yatCasched.vruntime
                  + deltaExec (k.rq c).clockTask t.se.execStart } }

/-- {lit}`resched_curr`: ask for a reschedule of the running task. -/
def reschedCurr (k : System n) (c : Fin n) : System n :=
  k.updateRq c fun rq => { rq with needResched := true }

/-- {lit}`YAT_MIN_GRANULARITY`. -/
def yatMinGranularity (k : System n) : UInt64 :=
  1000000000 / k.hz

/-- {lit}`task_tick_yat_casched`. -/
def taskTickYatCasched (k : System n) (c : Fin n) (p : Pid) : System n :=
  let k := updateCurrYatCasched k c
  if yatMinGranularity k ≤
      (k.task p).se.sumExecRuntime - (k.task p).se.prevSumExecRuntime then
    reschedCurr
      (k.updateTask p fun t =>
        { t with se := { t.se with prevSumExecRuntime := t.se.sumExecRuntime } }) c
  else
    k

/-! ## CPU selection -/

/-- The CPUs of a mask in the order of {lit}`for_each_cpu`. -/
def forEachCpu (mask : Finset (Fin n)) : List (Fin n) :=
  (List.finRange n).filter (· ∈ mask)

theorem mem_forEachCpu {mask : Finset (Fin n)} {cpu : Fin n} :
    cpu ∈ forEachCpu mask ↔ cpu ∈ mask := by
  simp [forEachCpu]

/-- Read an {lit}`int` as a CPU number. -/
def cpuOfInt (n : Nat) (cpu : Int) : Option (Fin n) :=
  if h : 0 ≤ cpu ∧ cpu < n then
    some ⟨cpu.toNat, by omega⟩
  else
    none

/-- One round of the search for the least loaded CPU. -/
def lightestCpuStep (k : System n) (best : Nat × Fin n) (cpu : Fin n) : Nat × Fin n :=
  if cpu ∉ k.cpuOnline then
    best
  else if (k.rq cpu).yatCasched.nrRunning.toNat < best.1 then
    ((k.rq cpu).yatCasched.nrRunning.toNat, cpu)
  else
    best

/-- The search for the least loaded CPU, from {lit}`min_load = ULONG_MAX`. -/
def lightestCpu (k : System n) (mask : Finset (Fin n)) (taskCpu : Fin n) : Fin n :=
  ((forEachCpu mask).foldl (lightestCpuStep k) (2 ^ 64 - 1, taskCpu)).2

/-- {lit}`select_task_rq_yat_casched`.  A number below -1, with which the source tests a bit
outside of the masks, goes to the search. -/
def selectTaskRqYatCasched (k : System n) (p : Pid) (taskCpu : Fin n) :
    System n × Fin n :=
  let lastCpu := (k.task p).yatCasched.lastCpu
  if lastCpu = -1 ∨ (n : Int) ≤ lastCpu then
    (k.updateTask p fun t =>
      { t with yatCasched := { t.yatCasched with lastCpu := (taskCpu : Nat) } }, taskCpu)
  else
    match cpuOfInt n lastCpu with
    | some cpu =>
        if cpu ∈ k.cpuOnline ∧ cpu ∈ (k.task p).cpusMask then
          (k, cpu)
        else
          (k, lightestCpu k (k.task p).cpusMask taskCpu)
    | none => (k, lightestCpu k (k.task p).cpusMask taskCpu)

/-! ## Queueing -/

/-- {lit}`enqueue_task_yat_casched`. -/
def enqueueTaskYatCasched (k : System n) (c : Fin n) (p : Pid) : System n :=
  let k :=
    if listEmpty k.links (.runList p) then
      { k with links := initListHead k.links (.runList p) }.updateTask p fun t =>
        { t with yatCasched := { t.yatCasched with vruntime := 0, lastCpu := -1 } }
    else
      k
  { k with links := listAddTail k.links (.runList p) (.tasks c) }.updateRq c fun rq =>
    { rq with
      yatCasched := { rq.yatCasched with nrRunning := rq.yatCasched.nrRunning + 1 } }

/-- {lit}`dequeue_task_yat_casched`. -/
def dequeueTaskYatCasched (k : System n) (c : Fin n) (p : Pid) : System n :=
  if ¬listEmpty k.links (.runList p) then
    { k with links := listDelInit k.links (.runList p) }.updateRq c fun rq =>
      { rq with
        yatCasched := { rq.yatCasched with nrRunning := rq.yatCasched.nrRunning - 1 } }
  else
    k

/-! ## Picking -/

/-- {lit}`container_of`: the task around a list node. -/
def containerOf : ListNode n → Option Pid
  | .runList p => some p
  | .tasks _ => none

/-- The task at the front of the queue, if the counter and the list both say
that there is one. -/
def firstTask (k : System n) (c : Fin n) : Option Pid :=
  if (k.rq c).yatCasched.nrRunning = 0 then
    none
  else if ¬listEmpty k.links (.tasks c) then
    containerOf (listFirstEntry k.links (.tasks c))
  else
    none

/-- {lit}`pick_next_task_yat_casched`. -/
def pickNextTaskYatCasched (k : System n) (c : Fin n) : System n × Option Pid :=
  match firstTask k c with
  | none => (k, none)
  | some p =>
      ((k.updateRq c fun rq =>
          { rq with
            yatCasched :=
              { rq.yatCasched with
                cpuHistory := Function.update rq.yatCasched.cpuHistory c (some p) } }).updateTask p
          fun t => { t with yatCasched := { t.yatCasched with lastCpu := (c : Nat) } },
        some p)

/-- {lit}`pick_task_yat_casched`. -/
def pickTaskYatCasched (k : System n) (c : Fin n) : System n × Option Pid :=
  pickNextTaskYatCasched k c

/-- {lit}`set_next_task_yat_casched`. -/
def setNextTaskYatCasched (k : System n) (c : Fin n) (p : Pid) : System n :=
  k.updateTask p fun t =>
    { t with se := { t.se with execStart := (k.rq c).clockTask } }

/-- {lit}`put_prev_task_yat_casched`. -/
def putPrevTaskYatCasched (k : System n) (c : Fin n) (_p : Pid) : System n :=
  updateCurrYatCasched k c

/-! ## The remaining hooks -/

/-- {lit}`wakeup_preempt_yat_casched`. -/
def wakeupPreemptYatCasched (k : System n) (c : Fin n) (_p : Pid) : System n :=
  reschedCurr k c

/-- {lit}`yield_task_yat_casched`, whose body is a comment. -/
def yieldTaskYatCasched (k : System n) (_c : Fin n) : System n :=
  k

/-- {lit}`set_cpus_allowed_yat_casched`, whose body is a comment. -/
def setCpusAllowedYatCasched (k : System n) (_p : Pid) (_newMask : CpumaskPtr n) : System n :=
  k

/-! ## What each hook leaves alone -/

/-- Choosing a CPU changes no run queue. -/
@[simp]
theorem selectTaskRqYatCasched_rq (k : System n) (p : Pid) (taskCpu : Fin n) :
    (selectTaskRqYatCasched k p taskCpu).1.rq = k.rq := by
  unfold selectTaskRqYatCasched
  dsimp only
  split
  · rfl
  · split
    · split <;> rfl
    · rfl

/-- Choosing a CPU changes no list. -/
@[simp]
theorem selectTaskRqYatCasched_links (k : System n) (p : Pid) (taskCpu : Fin n) :
    (selectTaskRqYatCasched k p taskCpu).1.links = k.links := by
  unfold selectTaskRqYatCasched
  dsimp only
  split
  · rfl
  · split
    · split <;> rfl
    · rfl

/-- Choosing a CPU for a task whose last CPU is recorded changes nothing. -/
theorem selectTaskRqYatCasched_fst_of_recorded (k : System n) (p : Pid) (taskCpu : Fin n)
    {c : Fin n} (hlast : (k.task p).yatCasched.lastCpu = (c : Nat)) :
    (selectTaskRqYatCasched k p taskCpu).1 = k := by
  have hvalid : ¬((k.task p).yatCasched.lastCpu = -1
      ∨ (n : Int) ≤ (k.task p).yatCasched.lastCpu) := by
    rw [hlast]
    omega
  unfold selectTaskRqYatCasched
  simp only [hvalid, if_false]
  split
  · split <;> rfl
  · rfl

/-- A reschedule request changes no queue of the class. -/
@[simp]
theorem reschedCurr_yatCasched (k : System n) (c d : Fin n) :
    ((reschedCurr k c).rq d).yatCasched = (k.rq d).yatCasched :=
  System.updateRq_rq_apply k c d (fun rq => rq.yatCasched) fun _ => rfl

/-- Accounting changes no run queue. -/
@[simp]
theorem updateCurrYatCasched_rq (k : System n) (c : Fin n) :
    (updateCurrYatCasched k c).rq = k.rq := by
  unfold updateCurrYatCasched
  split
  · rfl
  · split <;> rfl

/-- Accounting changes no list. -/
@[simp]
theorem updateCurrYatCasched_links (k : System n) (c : Fin n) :
    (updateCurrYatCasched k c).links = k.links := by
  unfold updateCurrYatCasched
  split
  · rfl
  · split <;> rfl

/-- Accounting records no CPU. -/
@[simp]
theorem updateCurrYatCasched_lastCpu (k : System n) (c : Fin n) (q : Pid) :
    ((updateCurrYatCasched k c).task q).yatCasched.lastCpu
      = (k.task q).yatCasched.lastCpu := by
  unfold updateCurrYatCasched
  split
  · rfl
  · split
    · rfl
    · exact System.updateTask_task_apply k _ q (fun t => t.yatCasched.lastCpu)
        fun _ => rfl

/-! ## Classes -/

/-- An assignment that keeps the class of the task keeps every class. -/
theorem updateTask_schedClass (k : System n) (r p : Pid) (f : TaskStruct n → TaskStruct n)
    (hf : (f (k.task r)).schedClass = (k.task r).schedClass) :
    ((k.updateTask r f).task p).schedClass = (k.task p).schedClass := by
  by_cases hpr : p = r
  · subst hpr
    rw [System.updateTask_task_self, hf]
  · rw [System.updateTask_task_of_ne k hpr]

/-- Accounting moves no task to another class. -/
theorem updateCurrYatCasched_schedClass (k : System n) (c : Fin n) (p : Pid) :
    ((updateCurrYatCasched k c).task p).schedClass = (k.task p).schedClass := by
  unfold updateCurrYatCasched
  split
  · rfl
  · split
    · rfl
    · simp [updateTask_schedClass]

/-- Enqueueing moves no task to another class. -/
theorem enqueueTaskYatCasched_schedClass (k : System n) (c : Fin n) (r p : Pid) :
    ((enqueueTaskYatCasched k c r).task p).schedClass = (k.task p).schedClass := by
  simp only [enqueueTaskYatCasched]
  split
  · simp [updateTask_schedClass]
  · rfl

/-- Dequeueing moves no task to another class. -/
theorem dequeueTaskYatCasched_schedClass (k : System n) (c : Fin n) (r p : Pid) :
    ((dequeueTaskYatCasched k c r).task p).schedClass = (k.task p).schedClass := by
  simp only [dequeueTaskYatCasched]
  split <;> rfl

/-- A pick moves no task to another class. -/
theorem pickNextTaskYatCasched_schedClass (k : System n) (c : Fin n) (p : Pid) :
    ((pickNextTaskYatCasched k c).1.task p).schedClass = (k.task p).schedClass := by
  unfold pickNextTaskYatCasched
  split
  · rfl
  · rw [updateTask_schedClass]
    · rfl
    · rfl

/-- Enqueueing touches only this class's part of the run queues. -/
theorem enqueueTaskYatCasched_rq (k : System n) (c d : Fin n) (p : Pid) :
    ∃ yat, (enqueueTaskYatCasched k c p).rq d = { k.rq d with yatCasched := yat } := by
  by_cases hdc : d = c
  · subst hdc
    simp only [enqueueTaskYatCasched]
    split <;> simp
  · refine ⟨(k.rq d).yatCasched, ?_⟩
    simp only [enqueueTaskYatCasched]
    split <;> simp [hdc]

/-- Dequeueing touches only this class's part of the run queues. -/
theorem dequeueTaskYatCasched_rq (k : System n) (c d : Fin n) (p : Pid) :
    ∃ yat, (dequeueTaskYatCasched k c p).rq d = { k.rq d with yatCasched := yat } := by
  by_cases hdc : d = c
  · subst hdc
    simp only [dequeueTaskYatCasched]
    split
    · simp
    · exact ⟨_, rfl⟩
  · refine ⟨(k.rq d).yatCasched, ?_⟩
    simp only [dequeueTaskYatCasched]
    split
    · simp [hdc]
    · rfl

/-! ## The empty hooks -/

@[simp]
theorem yieldTaskYatCasched_eq (k : System n) (c : Fin n) : yieldTaskYatCasched k c = k :=
  rfl

@[simp]
theorem setCpusAllowedYatCasched_eq (k : System n) (p : Pid) (newMask : CpumaskPtr n) :
    setCpusAllowedYatCasched k p newMask = k :=
  rfl

end Kernel
end YatCasched
