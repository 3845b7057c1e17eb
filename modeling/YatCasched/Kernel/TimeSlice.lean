import YatCasched.Kernel.Preemption
import YatCasched.Kernel.Vruntime

/-!
# Time slices

{lit}`task_tick_yat_casched` asks for a reschedule when {lit}`se.sum_exec_runtime`
has grown by {lit}`YAT_MIN_GRANULARITY`, and {lit}`task_sched_runtime` reads that
field.  {lit}`update_curr_yat_casched` advances {lit}`vruntime` only, so the field
stands still while a task of the class runs.

Main results:

- Theorem {lit}`RunningTask.tickCallsResched_iff`: when a tick asks for a reschedule.
- Theorem {lit}`sliceExpires_iff`: the runs of ticks and reads in which slices expire
  and run times grow.
-/

namespace YatCasched
namespace Kernel

open scoped UInt64.CommRing

variable {n : Nat}

/-! ## Ticks and reads -/

/-- The task of the class runs on the CPU. -/
structure RunningTask (k : System n) (c : Fin n) (p : Pid) : Prop where
  curr : (k.rq c).curr = some p
  schedClass : (k.task p).schedClass = .yatCasched
  onRq : (k.task p).onRq = .queued
  cpu : (k.task p).cpu = c

/-- The hook {lit}`update_curr` of the class of a task.  Only that of the cache-aware
class is modelled. -/
def updateCurrOf (k : System n) (c : Fin n) (p : Pid) : System n :=
  if (k.task p).schedClass = .yatCasched then updateCurrYatCasched k c else k

/-- {lit}`task_sched_runtime`, called when the clock of the CPU reads {lit}`now`. -/
def taskSchedRuntime (k : System n) (p : Pid) (now : UInt64) : System n × UInt64 :=
  let k :=
    if taskCurrent k p && taskOnRqQueued k p then
      updateCurrOf (updateRqClock k (k.task p).cpu now) (k.task p).cpu p
    else
      k
  (k, (k.task p).se.sumExecRuntime)

/-- The tick calls {lit}`resched_curr`: it sets the flag if the flag was clear. -/
def tickCallsResched (k : System n) (c : Fin n) (now : UInt64) : Bool :=
  ((schedulerTick (k.updateRq c fun rq => { rq with needResched := false }) c now
    false).rq c).needResched

/-- A tick, or a read of the run time, at some reading of the clock. -/
inductive SliceOp
  | tick (now : UInt64)
  | read (now : UInt64)

/-- The scheduler with the boundary of the current slice: the time at which the task
was switched in, or of the last tick that asked for a reschedule.  The flag says whether
there has been a tick. -/
structure SliceRun (n : Nat) where
  sys : System n
  boundary : UInt64
  ticked : Bool

/-- The effect of a tick or a read, while the task runs on the CPU. -/
def SliceRun.step (c : Fin n) (p : Pid) (s : SliceRun n) : SliceOp → SliceRun n
  | .tick now =>
      { sys := schedulerTick s.sys c now false
        boundary := if tickCallsResched s.sys c now then now else s.boundary
        ticked := true }
  | .read now => { s with sys := (taskSchedRuntime s.sys p now).1 }

/-- A tick asks for a reschedule if the slice has lasted {lit}`YAT_MIN_GRANULARITY`,
and a read after a tick returns the run time of the start and the time executed since. -/
def SliceRun.Right (c : Fin n) (p : Pid) (runtime start : UInt64) (s : SliceRun n) :
    SliceOp → Prop
  | .tick now =>
      yatMinGranularity s.sys ≤ now - s.boundary → tickCallsResched s.sys c now = true
  | .read now => s.ticked = true → (taskSchedRuntime s.sys p now).2 = runtime + (now - start)

/-- The clock readings of the ticks. -/
def ticks : List SliceOp → List UInt64
  | [] => []
  | .tick now :: ops => now :: ticks ops
  | .read _ :: ops => ticks ops

/-- The clock readings of the reads after a tick, if there has been one or not. -/
def readsAfterTick : Bool → List SliceOp → List UInt64
  | _, [] => []
  | _, .tick _ :: ops => readsAfterTick true ops
  | ticked, .read now :: ops =>
      if ticked then now :: readsAfterTick ticked ops else readsAfterTick ticked ops

/-- What the run times of a task say it has run in its slice. -/
def sliceUsed (k : System n) (p : Pid) : UInt64 :=
  (k.task p).se.sumExecRuntime - (k.task p).se.prevSumExecRuntime

/-- Every tick comes within a granularity of the boundary; if a whole slice is left over
from before, the first tick is covered and is the boundary for the others. -/
def TicksEarly (granularity used boundary : UInt64) : List UInt64 → Prop
  | [] => True
  | now :: rest =>
      if granularity ≤ used then
        granularity = 0 ∨ ∀ later ∈ rest, later - now < granularity
      else
        ∀ later ∈ now :: rest, later - boundary < granularity

/-! ## One tick, one read -/

/-- Accounting keeps the running task. -/
theorem RunningTask.of_onlyAccounting {k k' : System n} {c : Fin n} {p : Pid}
    (h : RunningTask k c p) (hk : OnlyAccounting k k') : RunningTask k' c p where
  curr := (hk.curr c).trans h.curr
  schedClass := (hk.apply p (fun t => t.schedClass) fun _ _ _ => rfl).trans h.schedClass
  onRq := (hk.apply p (fun t => t.onRq) fun _ _ _ => rfl).trans h.onRq
  cpu := (hk.apply p (fun t => t.cpu) fun _ _ _ => rfl).trans h.cpu

/-- Accounting moves the start time and {lit}`vruntime`, no other run time. -/
theorem updateCurrYatCasched_se (k : System n) (c : Fin n) (p : Pid) :
    ∃ start, ((updateCurrYatCasched k c).task p).se =
      { (k.task p).se with execStart := start } := by
  unfold updateCurrYatCasched
  split
  · exact ⟨_, rfl⟩
  · rename_i curr _
    split
    · exact ⟨_, rfl⟩
    · by_cases hp : p = curr
      · subst hp
        exact ⟨(k.rq c).clockTask, by simp⟩
      · exact ⟨(k.task p).se.execStart, by simp [hp]⟩

theorem updateCurrYatCasched_hz (k : System n) (c : Fin n) :
    (updateCurrYatCasched k c).hz = k.hz := by
  unfold updateCurrYatCasched
  split
  · rfl
  · split
    · rfl
    · rfl

theorem yatMinGranularity_updateCurr (k : System n) (c : Fin n) :
    yatMinGranularity (updateCurrYatCasched k c) = yatMinGranularity k := by
  unfold yatMinGranularity
  rw [updateCurrYatCasched_hz]

theorem sliceUsed_updateCurr (k : System n) (c : Fin n) (p : Pid) :
    sliceUsed (updateCurrYatCasched k c) p = sliceUsed k p := by
  rcases updateCurrYatCasched_se k c p with ⟨start, hse⟩
  unfold sliceUsed
  rw [hse]

variable {k : System n} {c : Fin n} {p : Pid}

/-- A tick of the running task is one of the class. -/
theorem RunningTask.schedulerTick_eq (h : RunningTask k c p) (now : UInt64)
    (requests : Bool) :
    schedulerTick k c now requests = taskTickYatCasched (updateRqClock k c now) c p := by
  have hclock := h.of_onlyAccounting (onlyAccounting_updateRqClock k c now)
  unfold schedulerTick
  simp only [hclock.curr, hclock.schedClass, if_true]

/-- The tick hook compares the slice with the granularity. -/
theorem taskTickYatCasched_eq (k : System n) (c : Fin n) (p : Pid) :
    taskTickYatCasched k c p =
      if yatMinGranularity k ≤ sliceUsed k p then
        reschedCurr ((updateCurrYatCasched k c).updateTask p fun t =>
          { t with se := { t.se with prevSumExecRuntime := t.se.sumExecRuntime } }) c
      else
        updateCurrYatCasched k c := by
  rw [← yatMinGranularity_updateCurr k c, ← sliceUsed_updateCurr k c p]
  rfl

/-- A tick asks for a reschedule exactly if the run times say that the slice is used
up. -/
theorem RunningTask.tickCallsResched_iff (h : RunningTask k c p) (now : UInt64) :
    tickCallsResched k c now = true ↔ yatMinGranularity k ≤ sliceUsed k p := by
  have hclear : OnlyAccounting k (k.updateRq c fun rq => { rq with needResched := false }) := by
    apply OnlyAccounting.updateRq
    intro rq
    rfl
  unfold tickCallsResched
  rw [(h.of_onlyAccounting hclear).schedulerTick_eq, taskTickYatCasched_eq]
  split
  · rename_i hused
    exact iff_of_true (by simp [reschedCurr]) hused
  · rename_i hused
    refine iff_of_false ?_ hused
    rw [updateCurrYatCasched_rq]
    simp [updateRqClock]

/-- What a tick leaves of the slice: the boundary moves with a request. -/
theorem RunningTask.sliceUsed_tick (h : RunningTask k c p) (now : UInt64) :
    sliceUsed (schedulerTick k c now false) p =
      if yatMinGranularity k ≤ sliceUsed k p then 0 else sliceUsed k p := by
  have hclock : sliceUsed (updateRqClock k c now) p = sliceUsed k p := rfl
  rw [h.schedulerTick_eq, taskTickYatCasched_eq, hclock]
  show sliceUsed (if yatMinGranularity k ≤ sliceUsed k p then _ else _) p = _
  split
  · simp [sliceUsed, reschedCurr]
  · rw [sliceUsed_updateCurr, hclock]

/-- A tick leaves the run time alone. -/
theorem RunningTask.sumExecRuntime_tick (h : RunningTask k c p) (now : UInt64) :
    ((schedulerTick k c now false).task p).se.sumExecRuntime =
      (k.task p).se.sumExecRuntime := by
  rcases updateCurrYatCasched_se (updateRqClock k c now) c p with ⟨start, hse⟩
  rw [h.schedulerTick_eq, taskTickYatCasched_eq]
  split
  · simp only [reschedCurr, System.updateRq_task, System.updateTask_task_self, hse]
    rfl
  · rw [hse]
    rfl

theorem RunningTask.granularity_tick (h : RunningTask k c p) (now : UInt64) :
    yatMinGranularity (schedulerTick k c now false) = yatMinGranularity k := by
  rw [h.schedulerTick_eq, taskTickYatCasched_eq]
  split
  · exact yatMinGranularity_updateCurr (updateRqClock k c now) c
  · exact yatMinGranularity_updateCurr (updateRqClock k c now) c

/-- A read updates the running task. -/
theorem RunningTask.taskSchedRuntime_fst (h : RunningTask k c p) (now : UInt64) :
    (taskSchedRuntime k p now).1 = updateCurrYatCasched (updateRqClock k c now) c := by
  have hclass := (h.of_onlyAccounting (onlyAccounting_updateRqClock k c now)).schedClass
  unfold taskSchedRuntime updateCurrOf taskCurrent taskOnRqQueued
  simp [h.cpu, h.curr, h.onRq, hclass]

/-- What the run times say while the task runs. -/
structure SliceAt (c : Fin n) (p : Pid) (k : System n) (granularity used runtime : UInt64) :
    Prop where
  running : RunningTask k c p
  granularity : yatMinGranularity k = granularity
  used : sliceUsed k p = used
  runtime : (k.task p).se.sumExecRuntime = runtime

variable {granularity used runtime start : UInt64}

theorem SliceAt.tick (h : SliceAt c p k granularity used runtime) (now : UInt64) :
    SliceAt c p (schedulerTick k c now false) granularity
      (if granularity ≤ used then 0 else used) runtime where
  running := by
    rw [h.running.schedulerTick_eq]
    exact h.running.of_onlyAccounting
      ((onlyAccounting_updateRqClock k c now).trans (onlyAccounting_taskTick _ c p))
  granularity := (h.running.granularity_tick now).trans h.granularity
  used := by rw [h.running.sliceUsed_tick, h.granularity, h.used]
  runtime := (h.running.sumExecRuntime_tick now).trans h.runtime

theorem SliceAt.read (h : SliceAt c p k granularity used runtime) (now : UInt64) :
    SliceAt c p (taskSchedRuntime k p now).1 granularity used runtime := by
  rw [h.running.taskSchedRuntime_fst]
  constructor
  · exact h.running.of_onlyAccounting
      ((onlyAccounting_updateRqClock k c now).trans (onlyAccounting_updateCurr _ c))
  · rw [yatMinGranularity_updateCurr]
    exact h.granularity
  · rw [sliceUsed_updateCurr]
    exact h.used
  · rcases updateCurrYatCasched_se (updateRqClock k c now) c p with ⟨t, hse⟩
    rw [hse]
    exact h.runtime

/-- A read is right exactly if there has been no tick or no time has passed since the
start. -/
theorem SliceAt.read_right_iff {s : SliceRun n} (h : SliceAt c p s.sys granularity used runtime)
    (now : UInt64) : s.Right c p runtime start (.read now) ↔ (s.ticked = true → now = start) := by
  have hread : (taskSchedRuntime s.sys p now).2 = runtime := (h.read now).runtime
  simp only [SliceRun.Right]
  rw [hread, left_eq_add, sub_eq_zero]

/-- So the reads of a run are right if those after a tick are at the start. -/
theorem SliceAt.read_and_iff {s : SliceRun n} (h : SliceAt c p s.sys granularity used runtime)
    (start now : UInt64) (ops : List SliceOp) {P : Prop} :
    (s.Right c p runtime start (.read now) ∧
        (∀ later ∈ readsAfterTick s.ticked ops, later = start) ∧ P) ↔
      (∀ later ∈ readsAfterTick s.ticked (.read now :: ops), later = start) ∧ P := by
  rw [h.read_right_iff, readsAfterTick]
  cases s.ticked with
  | false => simp
  | true => simp [and_assoc]

theorem SliceAt.tickCallsResched_iff (h : SliceAt c p k granularity used runtime)
    (now : UInt64) : tickCallsResched k c now = true ↔ granularity ≤ used := by
  rw [h.running.tickCallsResched_iff, h.granularity, h.used]

/-! ## Runs -/

/-- While the run times say that the slice is not used up, no tick asks for a
reschedule. -/
theorem SliceAt.guarded_of_lt {s : SliceRun n} (h : SliceAt c p s.sys granularity used runtime)
    (hused : ¬granularity ≤ used) (ops : List SliceOp) :
    Run.Guarded (SliceRun.step c p) (SliceRun.Right c p runtime start) s ops ↔
      (∀ now ∈ readsAfterTick s.ticked ops, now = start) ∧
        ∀ now ∈ ticks ops, now - s.boundary < granularity := by
  induction ops generalizing s with
  | nil => simp [ticks, readsAfterTick]
  | cons op ops ih =>
      rw [Run.guarded_cons]
      cases op with
      | tick now =>
          have hno : tickCallsResched s.sys c now = false := by
            rw [Bool.eq_false_iff, ne_eq, h.tickCallsResched_iff]
            exact hused
          have hnext := h.tick now
          rw [if_neg hused] at hnext
          have hright : s.Right c p runtime start (.tick now) ↔
              now - s.boundary < granularity := by
            simp [SliceRun.Right, hno, h.granularity]
          have hboundary : (s.step c p (.tick now)).boundary = s.boundary := by
            simp [SliceRun.step, hno]
          rw [ih hnext, hright, hboundary]
          simp only [List.mem_cons, ticks, forall_eq_or_imp]
          exact and_left_comm
      | read now =>
          rw [ih (h.read now)]
          exact h.read_and_iff start now ops

/-- If the granularity is zero, every tick asks for a reschedule. -/
theorem SliceAt.guarded_of_zero {s : SliceRun n} (h : SliceAt c p s.sys 0 used runtime)
    (ops : List SliceOp) :
    Run.Guarded (SliceRun.step c p) (SliceRun.Right c p runtime start) s ops ↔
      ∀ now ∈ readsAfterTick s.ticked ops, now = start := by
  induction ops generalizing s used with
  | nil => simp [readsAfterTick]
  | cons op ops ih =>
      rw [Run.guarded_cons]
      cases op with
      | tick now =>
          have hyes := (h.tickCallsResched_iff now).mpr (by simp)
          rw [ih (h.tick now)]
          simp only [SliceRun.Right, hyes, implies_true, true_and]
          exact Iff.rfl
      | read now =>
          rw [ih (h.read now)]
          have hreads := h.read_and_iff start now ops (P := True)
          rw [and_true, and_true] at hreads
          exact hreads

/-- The runs of ticks and reads that are right, from any state in which the task
runs. -/
theorem SliceAt.guarded_iff {s : SliceRun n} (h : SliceAt c p s.sys granularity used runtime)
    (ops : List SliceOp) :
    Run.Guarded (SliceRun.step c p) (SliceRun.Right c p runtime start) s ops ↔
      (∀ now ∈ readsAfterTick s.ticked ops, now = start) ∧
        TicksEarly granularity used s.boundary (ticks ops) := by
  by_cases hused : granularity ≤ used
  · induction ops generalizing s with
    | nil => simp [ticks, TicksEarly, readsAfterTick]
    | cons op ops ih =>
        rw [Run.guarded_cons]
        cases op with
        | tick now =>
            have hyes := (h.tickCallsResched_iff now).mpr hused
            have hnext := h.tick now
            rw [if_pos hused] at hnext
            have hright : s.Right c p runtime start (.tick now) := fun _ => hyes
            have hboundary : (s.step c p (.tick now)).boundary = now := by
              simp [SliceRun.step, hyes]
            have hreads : readsAfterTick s.ticked (.tick now :: ops) = readsAfterTick true ops :=
              rfl
            simp only [hright, true_and, ticks, TicksEarly, hused, if_true, hreads]
            by_cases hzero : granularity = 0
            · subst hzero
              rw [SliceAt.guarded_of_zero hnext]
              simp [SliceRun.step]
            · have hlt : ¬granularity ≤ 0 := by
                simpa using hzero
              rw [SliceAt.guarded_of_lt hnext hlt, hboundary, or_iff_right hzero]
              exact Iff.rfl
        | read now =>
            rw [ih (h.read now)]
            exact h.read_and_iff start now ops
  · rw [h.guarded_of_lt hused]
    cases ticks ops with
    | nil => simp [TicksEarly]
    | cons now rest => simp [TicksEarly, hused]

/-- From {lit}`set_next_task` on, slices expire and run times grow in a run of ticks and
reads exactly if every read after a tick comes at the time of the start, and every tick
within a granularity of the boundary. -/
theorem sliceExpires_iff (h : RunningTask k c p) (ops : List SliceOp) :
    Run.Guarded (SliceRun.step c p)
        (SliceRun.Right c p (k.task p).se.sumExecRuntime (k.rq c).clockTask)
        ⟨setNextTaskYatCasched k c p, (k.rq c).clockTask, false⟩ ops ↔
      (∀ now ∈ readsAfterTick false ops, now = (k.rq c).clockTask) ∧
        TicksEarly (yatMinGranularity k) (sliceUsed k p) (k.rq c).clockTask (ticks ops) := by
  have hstart : SliceAt c p (setNextTaskYatCasched k c p) (yatMinGranularity k)
      (sliceUsed k p) (k.task p).se.sumExecRuntime := by
    constructor
    · apply h.of_onlyAccounting
      apply OnlyAccounting.updateTask
      intro t
      exact ⟨_, t.yatCasched, rfl⟩
    · rfl
    · simp [sliceUsed, setNextTaskYatCasched]
    · simp [setNextTaskYatCasched]
  exact SliceAt.guarded_iff
    (s := ⟨setNextTaskYatCasched k c p, (k.rq c).clockTask, false⟩) hstart ops

/-- The task 7 of the class, switched in at time 0. -/
theorem runningTask_bootSystem :
    RunningTask (contextSwitch (activateTask (initYatCaschedRqs (yatCaschedBootSystem 2)) 0 7)
      0 (some 7)) 0 7 := by
  constructor
  · decide
  · decide
  · decide
  · decide

/-- A read at the start, and a tick just before the end of the slice. -/
theorem sliceExpires_shortRun :
    Run.Guarded (SliceRun.step 0 7) (SliceRun.Right 0 7 0 0)
      (⟨setNextTaskYatCasched (contextSwitch
        (activateTask (initYatCaschedRqs (yatCaschedBootSystem 2)) 0 7) 0 (some 7)) 0 7, 0, false⟩ :
          SliceRun 2)
      [.tick 0, .read 0, .tick 999999] := by
  refine (sliceExpires_iff runningTask_bootSystem _).mpr ⟨?_, ?_⟩
  · intro now hnow
    exact List.mem_singleton.mp hnow
  · have hgranularity : yatMinGranularity (contextSwitch
        (activateTask (initYatCaschedRqs (yatCaschedBootSystem 2)) 0 7) 0 (some 7)) = 1000000 := by
      decide
    have hused : sliceUsed (contextSwitch
        (activateTask (initYatCaschedRqs (yatCaschedBootSystem 2)) 0 7) 0 (some 7)) 7 = 0 := by
      decide
    rw [hgranularity, hused]
    simp only [ticks, TicksEarly]
    rw [if_neg (by decide)]
    intro later hlater
    simp only [List.mem_cons, List.not_mem_nil, or_false] at hlater
    rcases hlater with rfl | rfl
    · decide
    · decide

/-- The task runs for more than a slice of a millisecond through two ticks, neither of
which asks for a reschedule, and a read at the first one sees no run time. -/
theorem sliceNeverExpires :
    ¬Run.Guarded (SliceRun.step 0 7) (SliceRun.Right 0 7 0 0)
        (⟨setNextTaskYatCasched (contextSwitch
          (activateTask (initYatCaschedRqs (yatCaschedBootSystem 2)) 0 7) 0 (some 7)) 0 7,
          0, false⟩ : SliceRun 2)
        [.tick 600000, .tick 1200000] ∧
      ¬Run.Guarded (SliceRun.step 0 7) (SliceRun.Right 0 7 0 0)
        (⟨setNextTaskYatCasched (contextSwitch
          (activateTask (initYatCaschedRqs (yatCaschedBootSystem 2)) 0 7) 0 (some 7)) 0 7,
          0, false⟩ : SliceRun 2)
        [.tick 600000, .read 600000] := by
  constructor
  · intro h
    exact absurd (h.2.1 (by decide)) (by decide)
  · intro h
    have hread := h.2.1 rfl
    exact absurd hread (by decide)

end Kernel
end YatCasched
