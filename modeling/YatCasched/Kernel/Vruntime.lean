import Mathlib.Data.UInt
import YatCasched.Lib.Meter
import YatCasched.Kernel.LastCpu

/-!
# Virtual run time

{lit}`p->yat_casched.vruntime` is meant to be the time for which the task has been
{lit}`rq->curr`.  The class measures it through {lit}`se.exec_start`, which
{lit}`update_curr` and {lit}`set_next_task` write.  The plain path of
{lit}`__pick_next_task` calls no {lit}`set_next_task`, and every enqueue resets the
sum.

A history variable keeps the time a task really ran.  Every operation is an event
of a meter, and the runs that charge what was used are those of the meter.

Main results:

- Theorem {lit}`meter_step`: every operation is its event on the meter.
- Theorem {lit}`vruntimeIsCpuTime_step_iff`: the steps that keep the sum exact.
- Theorem {lit}`vruntimeIsCpuTime_throughout_iff`: the runs that do.
-/

namespace YatCasched
namespace Kernel

open CircularList
open scoped UInt64.CommRing

variable {n : Nat}

/-! ## CPU time -/

/-- The scheduler with the time for which each task has been {lit}`rq->curr` in the
class since its fork. -/
structure Metered (n : Nat) where
  sys : System n
  cpuTime : Pid → UInt64

/-- The times after an operation: while the clock of a CPU moves, its running task
uses the CPU. -/
def Metered.cpuTimeAfter (s : Metered n) : YatOp n → Pid → UInt64
  | .schedFork p => Function.update s.cpuTime p 0
  | .updateRqClock c now =>
      match (s.sys.rq c).curr with
      | none => s.cpuTime
      | some p =>
          if (s.sys.task p).schedClass = .yatCasched then
            Function.update s.cpuTime p (s.cpuTime p + (now - (s.sys.rq c).clockTask))
          else
            s.cpuTime
  | _ => s.cpuTime

/-- An operation and its effect on the times. -/
def Metered.step (s : Metered n) (op : YatOp n) : Metered n where
  sys := op.step s.sys
  cpuTime := s.cpuTimeAfter op

/-- The task runs on this CPU, if it runs. -/
def RunsOnlyOn (k : System n) (p : Pid) (c : Fin n) : Prop :=
  ∀ d, (k.rq d).curr = some p → d = c

/-- An {lit}`update_curr` on the run queue of a task of the class makes
{lit}`vruntime` the time the task has run. -/
def VruntimeIsCpuTime (s : Metered n) : Prop :=
  ∀ p c, (s.sys.task p).schedClass = .yatCasched → RunsOnlyOn s.sys p c →
    ((updateCurrYatCasched s.sys c).task p).yatCasched.vruntime = s.cpuTime p

/-- {lit}`put_prev_task` has been called for the task, if it runs and is of the class,
and the clock has not moved since. -/
def HasBeenPut (k : System n) (p : Pid) : Prop :=
  ∀ c, (k.rq c).curr = some p → (k.task p).schedClass = .yatCasched →
    (k.task p).se.execStart = (k.rq c).clockTask

/-- What the callers guarantee: the clocks do not go back, a forked task does not run,
a task runs on the CPU of its queue, and a task that runs is put before it is switched
away from, enqueued again, or set as the next task. -/
def Metered.Legal (s : Metered n) (op : YatOp n) : Prop :=
  op.Legal s.sys ∧
    match op with
    | .schedFork p => ∀ c, (s.sys.rq c).curr ≠ some p
    | .enqueueTask c p | .setNextTask c p => RunsOnlyOn s.sys p c ∧ HasBeenPut s.sys p
    | .schedule c =>
        (∀ prev, (s.sys.rq c).curr = some prev → HasBeenPut s.sys prev) ∧
          ∀ p, HeadTask s.sys c p → RunsOnlyOn s.sys p c
    | .switchTo c next =>
        (∀ prev, (s.sys.rq c).curr = some prev → HasBeenPut s.sys prev) ∧
          ∀ p, next = some p → RunsOnlyOn s.sys p c
    | .updateRqClock c now => (s.sys.rq c).clockTask ≤ now
    | _ => True

/-- The clock of the CPU is not past the start of the task. -/
def StartsNow (k : System n) (c : Fin n) (p : Pid) : Prop :=
  (k.task p).schedClass = .yatCasched → deltaExec (k.rq c).clockTask (k.task p).se.execStart = 0

/-- The steps that charge the time used: a task is enqueued before it has run at all,
a task is switched in when the clock is not past its {lit}`exec_start`, and the clock
moves only while {lit}`exec_start` of the running task is not ahead of it and less than
{lit}`2^63` behind. -/
def Metered.Faithful (s : Metered n) : YatOp n → Prop
  | .enqueueTask _ p => (s.sys.task p).schedClass = .yatCasched → s.cpuTime p = 0
  | .schedule c => ∀ p, HeadTask s.sys c p → StartsNow s.sys c p
  | .switchTo c next => ∀ p, next = some p → StartsNow s.sys c p
  | .updateRqClock c now =>
      ∀ p, (s.sys.rq c).curr = some p → (s.sys.task p).schedClass = .yatCasched →
        now = (s.sys.rq c).clockTask ∨
          (0 ≤ ((s.sys.rq c).clockTask - (s.sys.task p).se.execStart).toInt64 ∧
            0 ≤ (now - (s.sys.task p).se.execStart).toInt64)
  | _ => True

/-! ## The meter of a scheduler -/

/-- The scheduler as a meter of the tasks of the class. -/
def meterOf (k : System n) (cpuTime : Pid → UInt64) : Meter (Fin n) Pid UInt64 where
  clock := fun c => (k.rq c).clockTask
  running := fun c => (k.rq c).curr
  counted := fun p => (k.task p).schedClass = .yatCasched
  start := fun p => (k.task p).se.execStart
  charged := fun p => (k.task p).yatCasched.vruntime
  used := cpuTime

/-- What an operation does to the meter. -/
def YatOp.meterEvent (k : System n) : YatOp n → Meter.Event (Fin n) Pid UInt64
  | .schedFork p => .create p
  | .enqueueTask c p => if listEmpty k.links (.runList p) then .reset c p else .other
  | .schedule c => .switch c (firstTask k c)
  | .switchTo c next => .switch c next
  | .setNextTask c p => .restart c p
  | .putPrevTask c _ => .update c
  | .taskTick c _ => .update c
  | .updateRqClock c now => .tick c now
  | _ => .other

/-- An assignment to a task that keeps its class. -/
theorem meterOf_updateTask (k : System n) (cpuTime : Pid → UInt64) (p : Pid)
    {f : TaskStruct n → TaskStruct n}
    (hf : (f (k.task p)).schedClass = (k.task p).schedClass) :
    meterOf (k.updateTask p f) cpuTime =
      { meterOf k cpuTime with
        start := Function.update (meterOf k cpuTime).start p (f (k.task p)).se.execStart
        charged :=
          Function.update (meterOf k cpuTime).charged p (f (k.task p)).yatCasched.vruntime } := by
  ext q
  · rfl
  · rfl
  · simp [meterOf, updateTask_schedClass k p q f hf]
  · by_cases hqp : q = p
    · subst hqp
      simp [meterOf]
    · simp [meterOf, hqp]
  · by_cases hqp : q = p
    · subst hqp
      simp [meterOf]
    · simp [meterOf, hqp]
  · rfl

/-- An assignment to other fields of a task is not seen. -/
theorem meterOf_updateTask_other (k : System n) (cpuTime : Pid → UInt64) (p : Pid)
    {f : TaskStruct n → TaskStruct n}
    (hclass : (f (k.task p)).schedClass = (k.task p).schedClass)
    (hstart : (f (k.task p)).se.execStart = (k.task p).se.execStart)
    (hvruntime : (f (k.task p)).yatCasched.vruntime = (k.task p).yatCasched.vruntime) :
    meterOf (k.updateTask p f) cpuTime = meterOf k cpuTime := by
  rw [meterOf_updateTask k cpuTime p hclass, hstart, hvruntime]
  ext1
  · rfl
  · rfl
  · rfl
  · exact Function.update_eq_self p (meterOf k cpuTime).start
  · exact Function.update_eq_self p (meterOf k cpuTime).charged
  · rfl

/-- An assignment to other fields of a run queue is not seen. -/
theorem meterOf_updateRq (k : System n) (cpuTime : Pid → UInt64) (c : Fin n) {f : Rq n → Rq n}
    (hcurr : ∀ rq, (f rq).curr = rq.curr) (hclock : ∀ rq, (f rq).clockTask = rq.clockTask) :
    meterOf (k.updateRq c f) cpuTime = meterOf k cpuTime := by
  ext1
  · ext1 d
    exact System.updateRq_rq_apply k c d (fun rq => rq.clockTask) hclock
  · ext1 d
    exact System.updateRq_rq_apply k c d (fun rq => rq.curr) hcurr
  · rfl
  · rfl
  · rfl
  · rfl

/-- The links are not seen. -/
theorem meterOf_links (k : System n) (cpuTime : Pid → UInt64) (links : Links (ListNode n)) :
    meterOf { k with links := links } cpuTime = meterOf k cpuTime :=
  rfl

/-- {lit}`update_curr` is an update of the meter. -/
theorem meterOf_updateCurr (k : System n) (cpuTime : Pid → UInt64) (c : Fin n) :
    meterOf (updateCurrYatCasched k c) cpuTime =
      Meter.update deltaExec (meterOf k cpuTime) c := by
  unfold updateCurrYatCasched Meter.update
  cases hcurr : (k.rq c).curr with
  | none => simp [meterOf, hcurr]
  | some p =>
      by_cases hclass : (k.task p).schedClass = .yatCasched
      · simp only [hclass, ne_eq, not_true_eq_false, if_false]
        rw [meterOf_updateTask]
        · simp [meterOf, hcurr, hclass]
        · rfl
      · simp [meterOf, hcurr, hclass]

/-- A context switch changes the running task only. -/
theorem meterOf_contextSwitch (k : System n) (cpuTime : Pid → UInt64) (c : Fin n)
    (next : Option Pid) :
    meterOf (contextSwitch k c next) cpuTime =
      { meterOf k cpuTime with
        running := Function.update (meterOf k cpuTime).running c next } := by
  ext1
  · ext1 d
    exact System.updateRq_rq_apply k c d (fun rq => rq.clockTask) fun _ => rfl
  · ext1 d
    by_cases hdc : d = c
    · subst hdc
      simp [meterOf, contextSwitch]
    · simp [meterOf, contextSwitch, hdc]
  · rfl
  · rfl
  · rfl
  · rfl

/-- A pick is not seen. -/
theorem meterOf_pickNextTask (k : System n) (cpuTime : Pid → UInt64) (c : Fin n) :
    meterOf (pickNextTaskYatCasched k c).1 cpuTime = meterOf k cpuTime := by
  unfold pickNextTaskYatCasched
  split
  · rfl
  · rw [meterOf_updateTask_other]
    · rw [meterOf_updateRq]
      · exact fun _ => rfl
      · exact fun _ => rfl
    · rfl
    · rfl
    · rfl

/-- Every operation is its event on the meter. -/
theorem meter_step (s : Metered n) (op : YatOp n) :
    meterOf (s.step op).sys (s.step op).cpuTime =
      Meter.step deltaExec (meterOf s.sys s.cpuTime) (op.meterEvent s.sys) := by
  cases op with
  | schedFork p =>
      simp only [Metered.step, YatOp.step, YatOp.meterEvent, schedForkYatCasched]
      rw [meterOf_updateTask]
      · rfl
      · rfl
  | selectTaskRq p taskCpu =>
      simp only [Metered.step, YatOp.step, YatOp.meterEvent, selectTaskRqYatCasched]
      split
      · rw [meterOf_updateTask_other]
        · rfl
        · rfl
        · rfl
        · rfl
      · split
        · split
          · rfl
          · rfl
        · rfl
  | enqueueTask c p =>
      simp only [Metered.step, YatOp.step, YatOp.meterEvent, enqueueTaskYatCasched]
      split
      · rw [meterOf_updateRq, meterOf_links, meterOf_updateTask, meterOf_links]
        · ext1
          · rfl
          · rfl
          · rfl
          · exact Function.update_eq_self p (meterOf s.sys s.cpuTime).start
          · rfl
          · rfl
        · rfl
        · exact fun _ => rfl
        · exact fun _ => rfl
      · rw [meterOf_updateRq]
        · rfl
        · exact fun _ => rfl
        · exact fun _ => rfl
  | dequeueTask c p =>
      simp only [Metered.step, YatOp.step, YatOp.meterEvent, dequeueTaskYatCasched]
      split
      · rw [meterOf_updateRq]
        · rfl
        · exact fun _ => rfl
        · exact fun _ => rfl
      · rfl
  | pickTask c => exact meterOf_pickNextTask s.sys s.cpuTime c
  | schedule c =>
      simp only [Metered.step, YatOp.step, YatOp.meterEvent]
      rw [meterOf_contextSwitch, pickNextTaskYatCasched_snd]
      simp only [Metered.cpuTimeAfter, meterOf_pickNextTask]
      rfl
  | switchTo c next => exact meterOf_contextSwitch s.sys s.cpuTime c next
  | setNextTask c p =>
      simp only [Metered.step, YatOp.step, YatOp.meterEvent, setNextTaskYatCasched]
      rw [meterOf_updateTask]
      · ext1
        · rfl
        · rfl
        · rfl
        · rfl
        · exact Function.update_eq_self p (meterOf s.sys s.cpuTime).charged
        · rfl
      · rfl
  | putPrevTask c p => exact meterOf_updateCurr s.sys s.cpuTime c
  | taskTick c p =>
      refine Eq.trans ?_ (meterOf_updateCurr s.sys s.cpuTime c)
      simp only [Metered.step, YatOp.step, taskTickYatCasched]
      split
      · rw [reschedCurr, meterOf_updateRq, meterOf_updateTask_other]
        · rfl
        · rfl
        · rfl
        · rfl
        · exact fun _ => rfl
        · exact fun _ => rfl
      · rfl
  | yieldTask c => rfl
  | wakeupPreempt c p =>
      simp only [Metered.step, YatOp.step, wakeupPreemptYatCasched, reschedCurr]
      rw [meterOf_updateRq]
      · rfl
      · exact fun _ => rfl
      · exact fun _ => rfl
  | updateRqClock c now =>
      simp only [Metered.step, YatOp.step, YatOp.meterEvent, updateRqClock]
      ext1
      · ext1 d
        by_cases hdc : d = c
        · subst hdc
          simp [meterOf, Meter.step]
        · simp [meterOf, Meter.step, hdc]
      · ext1 d
        exact System.updateRq_rq_apply s.sys c d (fun rq => rq.curr) fun _ => rfl
      · rfl
      · rfl
      · rfl
      · simp only [meterOf, Meter.step, Meter.usedAt, Metered.cpuTimeAfter, decide_eq_true_eq]
        cases (s.sys.rq c).curr with
        | none => rfl
        | some p => rfl

/-! ## Elapsed time -/

@[simp]
theorem deltaExec_self (t : UInt64) : deltaExec t t = 0 := by
  simp [deltaExec]

/-- The elapsed time grows as the clock does exactly if the clock stands still, or the
start is neither ahead of it nor too far behind. -/
theorem deltaExec_add_iff (now clock start : UInt64) :
    deltaExec now start = deltaExec clock start + (now - clock) ↔
      now = clock ∨ (0 ≤ (clock - start).toInt64 ∧ 0 ≤ (now - start).toInt64) := by
  have hsum : now - start = (clock - start) + (now - clock) := by
    rw [add_comm, sub_add_sub_cancel]
  unfold deltaExec
  by_cases hold : (clock - start).toInt64 < 0
  · have hnot : ¬(0 ≤ (clock - start).toInt64 ∧ 0 ≤ (now - start).toInt64) := fun h =>
      Int64.not_le.mpr hold h.1
    rw [if_pos hold, zero_add, or_iff_left hnot]
    by_cases hnew : (now - start).toInt64 < 0
    · rw [if_pos hnew, eq_comm, sub_eq_zero]
    · rw [if_neg hnew]
      constructor
      · intro heq
        rw [hsum, add_eq_right] at heq
        rw [heq] at hold
        exact absurd hold (by decide)
      · rintro rfl
        exact absurd hold hnew
  · rw [if_neg hold]
    by_cases hnew : (now - start).toInt64 < 0
    · have hnot : ¬(0 ≤ (clock - start).toInt64 ∧ 0 ≤ (now - start).toInt64) := fun h =>
        Int64.not_le.mpr hnew h.2
      rw [if_pos hnew, ← hsum, or_iff_left hnot]
      constructor
      · intro heq
        rw [← heq] at hnew
        exact absurd hnew (by decide)
      · rintro rfl
        exact absurd hnew hold
    · rw [if_neg hnew, ← hsum]
      exact iff_of_true rfl (Or.inr ⟨Int64.not_lt.mp hold, Int64.not_lt.mp hnew⟩)

/-! ## Exactness -/

/-- The sum is exact exactly if the charges of the meter are. -/
theorem vruntimeIsCpuTime_iff (s : Metered n) :
    VruntimeIsCpuTime s ↔ Meter.Exact deltaExec (meterOf s.sys s.cpuTime) := by
  unfold VruntimeIsCpuTime Meter.Exact
  refine forall_congr' fun p => forall_congr' fun c => ?_
  rw [← meterOf_updateCurr]
  simp only [meterOf, decide_eq_true_eq]
  exact Iff.rfl

theorem settled_meterOf_iff (s : Metered n) (p : Pid) :
    (meterOf s.sys s.cpuTime).Settled p ↔ HasBeenPut s.sys p := by
  simp [Meter.Settled, HasBeenPut, meterOf]

/-- A legal operation is a legal event. -/
theorem Metered.Legal.meterEvent {s : Metered n} {op : YatOp n} {q : Fin n → List Pid}
    (hq : Represents s.sys q) (hop : s.Legal op) :
    (meterOf s.sys s.cpuTime).Legal (op.meterEvent s.sys) := by
  cases op with
  | schedFork p => exact hop.2
  | enqueueTask c p =>
      simp only [YatOp.meterEvent]
      split
      · exact ⟨hop.2.1, (settled_meterOf_iff s p).mpr hop.2.2⟩
      · trivial
  | setNextTask c p => exact ⟨hop.2.1, (settled_meterOf_iff s p).mpr hop.2.2⟩
  | schedule c =>
      constructor
      · intro prev hprev
        exact (settled_meterOf_iff s prev).mpr (hop.2.1 prev hprev)
      · intro p hp
        exact hop.2.2 p ((hq.headTask_iff c p).mpr hp)
  | switchTo c next =>
      constructor
      · intro prev hprev
        exact (settled_meterOf_iff s prev).mpr (hop.2.1 prev hprev)
      · exact hop.2.2
  | _ => trivial

/-- The faithful operations are the good events. -/
theorem Metered.faithful_iff {s : Metered n} {op : YatOp n} {q : Fin n → List Pid}
    (hq : Represents s.sys q) (hop : s.Legal op) :
    (meterOf s.sys s.cpuTime).Good deltaExec (op.meterEvent s.sys) ↔ s.Faithful op := by
  cases op with
  | enqueueTask c p =>
      have hfree := (hq.legal_iff (.enqueueTask c p)).mp hop.1
      simp only [YatOp.meterEvent, (hq.listEmpty_runList_iff p).mpr hfree, if_true]
      simp [Meter.Good, Metered.Faithful, meterOf]
  | schedule c =>
      simp only [Meter.Good, Metered.Faithful, YatOp.meterEvent, meterOf, hq.headTask_iff,
        decide_eq_true_eq]
      exact Iff.rfl
  | switchTo c next =>
      simp only [Meter.Good, Metered.Faithful, YatOp.meterEvent, meterOf, decide_eq_true_eq]
      exact Iff.rfl
  | updateRqClock c now =>
      simp only [Meter.Good, Metered.Faithful, YatOp.meterEvent, meterOf, decide_eq_true_eq,
        deltaExec_add_iff]
  | _ => exact Iff.rfl

/-- The lists represent queues, and no task runs on two CPUs. -/
def QueuedAndAlone (s : Metered n) : Prop :=
  (∃ q, Represents s.sys q) ∧ (meterOf s.sys s.cpuTime).Alone

/-- Every legal step keeps the invariant. -/
theorem queuedAndAlone_step (s : Metered n) (op : YatOp n) (hs : QueuedAndAlone s)
    (hop : s.Legal op) : QueuedAndAlone (s.step op) := by
  rcases hs with ⟨⟨q, hq⟩, halone⟩
  refine ⟨⟨_, hq.step hop.1⟩, ?_⟩
  rw [meter_step]
  exact Meter.alone_step _ _ halone (hop.meterEvent hq)

/-- A legal step keeps the sum exact exactly if it is one of the faithful steps. -/
theorem vruntimeIsCpuTime_step_iff (s : Metered n) (op : YatOp n) (hs : QueuedAndAlone s)
    (hexact : VruntimeIsCpuTime s) (hop : s.Legal op) :
    VruntimeIsCpuTime (s.step op) ↔ s.Faithful op := by
  rcases hs with ⟨⟨q, hq⟩, halone⟩
  rw [vruntimeIsCpuTime_iff] at hexact ⊢
  rw [meter_step, Meter.exact_step_iff deltaExec_self _ _ halone hexact (hop.meterEvent hq)]
  exact Metered.faithful_iff hq hop

/-- A legal run from idle CPUs and tasks that have not run charges, in every state it
reaches, what the tasks have run exactly if all its steps are faithful. -/
theorem vruntimeIsCpuTime_throughout_iff (k₀ : System n)
    (hforked : ∀ p, Ring k₀.links (.runList p) [] ∧ (k₀.task p).yatCasched.vruntime = 0)
    (hidle : ∀ c, (k₀.rq c).curr = none) (ops : List (YatOp n))
    (hlegal : Run.Guarded Metered.step Metered.Legal
      ⟨initYatCaschedRqs k₀, fun _ => 0⟩ ops) :
    Run.Throughout Metered.step VruntimeIsCpuTime ⟨initYatCaschedRqs k₀, fun _ => 0⟩ ops ↔
      Run.Guarded Metered.step Metered.Faithful ⟨initYatCaschedRqs k₀, fun _ => 0⟩ ops := by
  have hcurr : ∀ c, ((initYatCaschedRqs k₀).rq c).curr = none := by
    intro c
    rcases initYatCaschedRqs_rq k₀ c with ⟨yat, hrq⟩
    rw [hrq]
    exact hidle c
  have hinv : QueuedAndAlone (⟨initYatCaschedRqs k₀, fun _ => 0⟩ : Metered n) := by
    refine ⟨⟨_, represents_initYatCaschedRqs fun p => (hforked p).1⟩, ?_⟩
    intro p c hc
    rw [show (meterOf (initYatCaschedRqs k₀) fun _ => 0).running c = none from hcurr c] at hc
    cases hc
  have hexact : VruntimeIsCpuTime (⟨initYatCaschedRqs k₀, fun _ => 0⟩ : Metered n) := by
    intro p c _ _
    simp only [updateCurrYatCasched, hcurr c, initYatCaschedRqs_task]
    exact (hforked p).2
  exact Run.throughout_iff_guarded queuedAndAlone_step vruntimeIsCpuTime_step_iff hinv hexact
    hlegal

/-- On idle CPUs no task runs elsewhere. -/
theorem runsOnlyOn_of_idle {k : System n} (hidle : ∀ c, (k.rq c).curr = none) (p : Pid)
    (c : Fin n) : RunsOnlyOn k p c := by
  intro d hd
  rw [hidle] at hd
  cases hd

theorem hasBeenPut_of_idle {k : System n} (hidle : ∀ c, (k.rq c).curr = none) (p : Pid) :
    HasBeenPut k p := by
  intro c hc
  rw [hidle] at hc
  cases hc

/-- The task 7 is switched in at time 0, and runs through a tick. -/
theorem vruntimeIsCpuTime_throughout_firstRun :
    Run.Throughout Metered.step VruntimeIsCpuTime
      ⟨initYatCaschedRqs (yatCaschedBootSystem 2), fun _ => 0⟩
      [.enqueueTask 0 7, .schedule 0, .updateRqClock 0 1000, .taskTick 0 7] := by
  have hforked : ∀ p, Ring (yatCaschedBootSystem 2).links (.runList p) [] ∧
      ((yatCaschedBootSystem 2).task p).yatCasched.vruntime = 0 := fun p =>
    ⟨⟨⟨rfl, rfl⟩, by simp⟩, rfl⟩
  have hinit := represents_initYatCaschedRqs fun p => (hforked p).1
  have henqueue := (hinit.legal_iff (.enqueueTask 0 7)).mpr (by decide)
  have hqueued := hinit.step henqueue
  apply (vruntimeIsCpuTime_throughout_iff _ hforked (by decide) _ ?_).mpr
  · refine ⟨fun _ => rfl, fun p hp _ => ?_, fun p hp _ => ?_, trivial, trivial⟩
    · obtain rfl : 7 = p := Option.some.inj ((hqueued.headTask_iff 0 p).mp hp)
      decide
    · obtain rfl : 7 = p := Option.some.inj hp
      exact Or.inr ⟨by decide, by decide⟩
  · refine ⟨⟨henqueue, ?_, ?_⟩, ⟨trivial, fun prev _ => ?_, fun p _ => ?_⟩,
      ⟨trivial, by decide⟩, ⟨trivial, trivial⟩, trivial⟩
    · exact runsOnlyOn_of_idle (by decide) 7 0
    · exact hasBeenPut_of_idle (by decide) 7
    · exact hasBeenPut_of_idle (by decide) prev
    · exact runsOnlyOn_of_idle (by decide) p 0

/-- Legal runs that charge something else: the task 7 waits until it is switched in,
and the task 7 has run and is enqueued again. -/
theorem vruntimeIsCpuTime_not_invariant :
    (Run.Guarded Metered.step Metered.Legal
        ⟨initYatCaschedRqs (yatCaschedBootSystem 2), fun _ => 0⟩
        [.enqueueTask 0 7, .updateRqClock 0 1000, .schedule 0] ∧
      ¬Run.Throughout Metered.step VruntimeIsCpuTime
        ⟨initYatCaschedRqs (yatCaschedBootSystem 2), fun _ => 0⟩
        [.enqueueTask 0 7, .updateRqClock 0 1000, .schedule 0]) ∧
    (Run.Guarded Metered.step Metered.Legal
        ⟨initYatCaschedRqs (yatCaschedBootSystem 2), fun _ => 0⟩
        [.enqueueTask 0 7, .schedule 0, .updateRqClock 0 1000, .dequeueTask 0 7,
          .putPrevTask 0 7, .switchTo 0 none, .enqueueTask 0 7] ∧
      ¬Run.Throughout Metered.step VruntimeIsCpuTime
        ⟨initYatCaschedRqs (yatCaschedBootSystem 2), fun _ => 0⟩
        [.enqueueTask 0 7, .schedule 0, .updateRqClock 0 1000, .dequeueTask 0 7,
          .putPrevTask 0 7, .switchTo 0 none, .enqueueTask 0 7]) := by
  have hinit := represents_initYatCaschedRqs (k := yatCaschedBootSystem 2)
    fun p => ⟨⟨rfl, rfl⟩, by simp⟩
  have henqueue := (hinit.legal_iff (.enqueueTask 0 7)).mpr (by decide)
  have hfirst : ((⟨initYatCaschedRqs (yatCaschedBootSystem 2), fun _ => 0⟩ : Metered 2)).Legal
      (.enqueueTask 0 7) :=
    ⟨henqueue, runsOnlyOn_of_idle (by decide) 7 0, hasBeenPut_of_idle (by decide) 7⟩
  refine ⟨⟨?_, ?_⟩, ⟨?_, ?_⟩⟩
  · refine ⟨hfirst, ⟨trivial, by decide⟩, ⟨trivial, fun prev _ => ?_, fun p _ => ?_⟩, trivial⟩
    · exact hasBeenPut_of_idle (by decide) prev
    · exact runsOnlyOn_of_idle (by decide) p 0
  · intro h
    exact absurd (h.2.2.1 7 0 rfl (by unfold RunsOnlyOn; decide)) (by decide)
  · have hrunning := (hinit.step henqueue).step (show (YatOp.schedule 0).Legal _ from trivial)
    have hclock := hrunning.step (show (YatOp.updateRqClock 0 1000).Legal _ from trivial)
    have hdequeue := (hclock.legal_iff (.dequeueTask 0 7)).mpr (by decide)
    have hput := (hclock.step hdequeue).step
      (show (YatOp.putPrevTask 0 7).Legal _ from trivial)
    have hidle := hput.step (show (YatOp.switchTo 0 none).Legal _ from trivial)
    have hagain := (hidle.legal_iff (.enqueueTask 0 7)).mpr (by decide)
    refine ⟨hfirst, ⟨trivial, fun prev _ => ?_, fun p _ => ?_⟩, ⟨trivial, by decide⟩,
      ⟨hdequeue, trivial⟩, ⟨trivial, trivial⟩, ⟨trivial, fun prev hprev => ?_, ?_⟩,
      ⟨hagain, ?_, ?_⟩, trivial⟩
    · exact hasBeenPut_of_idle (by decide) prev
    · exact runsOnlyOn_of_idle (by decide) p 0
    · obtain rfl : 7 = prev := Option.some.inj hprev
      unfold HasBeenPut
      decide
    · intro p hp
      cases hp
    · exact runsOnlyOn_of_idle (by decide) 7 0
    · exact hasBeenPut_of_idle (by decide) 7
  · intro h
    exact absurd (h.2.2.2.2.2.2.1 7 0 rfl (by unfold RunsOnlyOn; decide)) (by decide)

end Kernel
end YatCasched
