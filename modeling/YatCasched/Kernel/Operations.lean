import YatCasched.Lib.QueueFamily
import YatCasched.Kernel.Dispatch
import YatCasched.Kernel.Queues

/-!
# Operations on the cache-aware run queues

The calls the core scheduler makes into the class, as operations of one
transition system.  Composite calls of {lit}`core.c` are sequences of them:
{lit}`set_user_nice`, {lit}`__do_set_cpus_allowed` and {lit}`sched_move_task`
dequeue and enqueue on one CPU, {lit}`move_queued_task` dequeues on one CPU and
enqueues on another.

Main results:

- Theorem {lit}`Represents.step`: every operation simulates its event on the
  family of queues.
- Theorem {lit}`Represents.run`: so does every run.
-/

namespace YatCasched
namespace Kernel

open CircularList

variable {n : Nat}

/-! ## Operations -/

/-- One call into the class, or one assignment of the core scheduler that the
class reads. -/
inductive YatOp (n : Nat)
  /-- {lit}`__sched_fork` of a new task. -/
  | schedFork (p : Pid)
  /-- {lit}`select_task_rq`. -/
  | selectTaskRq (p : Pid) (taskCpu : Fin n)
  /-- {lit}`enqueue_task`. -/
  | enqueueTask (c : Fin n) (p : Pid)
  /-- {lit}`dequeue_task`. -/
  | dequeueTask (c : Fin n) (p : Pid)
  /-- {lit}`pick_task` on its own, as core-wide selection calls it. -/
  | pickTask (c : Fin n)
  /-- {lit}`pick_next_task` and the switch to the task it returned. -/
  | schedule (c : Fin n)
  /-- {lit}`rq->curr = next` without a pick by this class. -/
  | switchTo (c : Fin n) (next : Option Pid)
  /-- {lit}`set_next_task`. -/
  | setNextTask (c : Fin n) (p : Pid)
  /-- {lit}`put_prev_task`. -/
  | putPrevTask (c : Fin n) (p : Pid)
  /-- {lit}`task_tick`. -/
  | taskTick (c : Fin n) (p : Pid)
  /-- {lit}`yield_task`. -/
  | yieldTask (c : Fin n)
  /-- {lit}`wakeup_preempt`. -/
  | wakeupPreempt (c : Fin n) (p : Pid)
  /-- {lit}`update_rq_clock`. -/
  | updateRqClock (c : Fin n) (now : UInt64)

/-- {lit}`update_rq_clock`, as far as {lit}`rq_clock_task` sees it. -/
def updateRqClock (k : System n) (c : Fin n) (now : UInt64) : System n :=
  k.updateRq c fun rq => { rq with clockTask := now }

/-- The effect of an operation. -/
def YatOp.step (k : System n) : YatOp n → System n
  | .schedFork p => schedForkYatCasched k p
  | .selectTaskRq p taskCpu => (selectTaskRqYatCasched k p taskCpu).1
  | .enqueueTask c p => enqueueTaskYatCasched k c p
  | .dequeueTask c p => dequeueTaskYatCasched k c p
  | .pickTask c => (pickTaskYatCasched k c).1
  | .schedule c =>
      contextSwitch (pickNextTaskYatCasched k c).1 c (pickNextTaskYatCasched k c).2
  | .switchTo c next => contextSwitch k c next
  | .setNextTask c p => setNextTaskYatCasched k c p
  | .putPrevTask c p => putPrevTaskYatCasched k c p
  | .taskTick c p => taskTickYatCasched k c p
  | .yieldTask c => yieldTaskYatCasched k c
  | .wakeupPreempt c p => wakeupPreemptYatCasched k c p
  | .updateRqClock c now => Kernel.updateRqClock k c now

/-- The run queue an operation is called with. -/
def YatOp.cpu? : YatOp n → Option (Fin n)
  | .schedFork _ => none
  | .selectTaskRq _ _ => none
  | .enqueueTask c _ => some c
  | .dequeueTask c _ => some c
  | .pickTask c => some c
  | .schedule c => some c
  | .switchTo c _ => some c
  | .setNextTask c _ => some c
  | .putPrevTask c _ => some c
  | .taskTick c _ => some c
  | .yieldTask c => some c
  | .wakeupPreempt c _ => some c
  | .updateRqClock c _ => some c

/-- What the callers guarantee about the lists: a new task is on no queue, a
task is enqueued only while it is on no queue, and a queued task is dequeued
with the run queue that holds it. -/
def YatOp.Legal (k : System n) : YatOp n → Prop
  | .schedFork p => ∀ c, ¬Queued k c p
  | .enqueueTask _ p => ∀ d, ¬Queued k d p
  | .dequeueTask c p => ∀ d, Queued k d p → d = c
  | _ => True

/-- The same guarantee, read off the represented queues. -/
def YatOp.LegalOn (q : Fin n → List Pid) : YatOp n → Prop
  | .schedFork p => ∀ c, p ∉ q c
  | .enqueueTask _ p => ∀ d, p ∉ q d
  | .dequeueTask c p => ∀ d, p ∈ q d → d = c
  | _ => True

instance (q : Fin n → List Pid) : ∀ op : YatOp n, Decidable (op.LegalOn q)
  | .schedFork p => inferInstanceAs (Decidable (∀ c, p ∉ q c))
  | .enqueueTask _ p => inferInstanceAs (Decidable (∀ d, p ∉ q d))
  | .dequeueTask c p => inferInstanceAs (Decidable (∀ d, p ∈ q d → d = c))
  | .selectTaskRq _ _ | .pickTask _ | .schedule _ | .switchTo _ _ | .setNextTask _ _
  | .putPrevTask _ _ | .taskTick _ _ | .yieldTask _ | .wakeupPreempt _ _
  | .updateRqClock _ _ => isTrue trivial

/-- What an operation does to the queues. -/
def YatOp.event : YatOp n → QueueFamily.Event (Fin n) Pid
  | .enqueueTask c p => .enqueue c p
  | .dequeueTask c p => .dequeue c p
  | _ => .other

/-! ## Simulation -/

/-- The callers' guarantee can be read off the represented queues. -/
theorem Represents.legal_iff {k : System n} {q : Fin n → List Pid}
    (hq : Represents k q) (op : YatOp n) : op.Legal k ↔ op.LegalOn q := by
  cases op <;> simp [YatOp.Legal, YatOp.LegalOn, hq.queued_iff]

/-- A legal operation is a legal event on the queues. -/
theorem YatOp.LegalOn.event {q : Fin n → List Pid} {op : YatOp n} (hop : op.LegalOn q) :
    QueueFamily.Legal q op.event := by
  cases op with
  | enqueueTask c p => exact hop
  | dequeueTask c p => exact hop
  | _ => trivial

/-- A clock update changes no queue of the class. -/
@[simp]
theorem updateRqClock_yatCasched (k : System n) (c d : Fin n) (now : UInt64) :
    ((updateRqClock k c now).rq d).yatCasched = (k.rq d).yatCasched :=
  System.updateRq_rq_apply k c d (fun rq => rq.yatCasched) fun _ => rfl

theorem onlyAccounting_updateRqClock (k : System n) (c : Fin n) (now : UInt64) :
    OnlyAccounting k (updateRqClock k c now) := by
  unfold updateRqClock
  exact .updateRq k c fun _ => rfl

theorem onlyAccounting_pickNextTask (k : System n) (c : Fin n) :
    OnlyAccounting k (pickNextTaskYatCasched k c).1 := by
  unfold pickNextTaskYatCasched
  split
  · exact .refl k
  · rename_i p _
    dsimp only
    refine .trans (.updateRq k c ?_) (.updateTask _ p ?_)
    · intro rq
      rfl
    · intro t
      exact ⟨t.se, _, rfl⟩

theorem onlyAccounting_taskTick (k : System n) (c : Fin n) (p : Pid) :
    OnlyAccounting k (taskTickYatCasched k c p) := by
  have hcurr := onlyAccounting_updateCurr k c
  unfold taskTickYatCasched
  dsimp only
  split
  · refine hcurr.trans (.trans (.updateTask _ p ?_) (onlyAccounting_reschedCurr _ c))
    intro t
    exact ⟨_, t.yatCasched, rfl⟩
  · exact hcurr

/-- A new task changes no queue. -/
theorem Represents.schedFork {k : System n} {q : Fin n → List Pid}
    (hq : Represents k q) {p : Pid} (hp : ∀ c, p ∉ q c) :
    Represents (schedForkYatCasched k p) q :=
  (hq.initListHead_runList hp).congr rfl fun _ => rfl

/-- A tick changes no list. -/
theorem taskTickYatCasched_links (k : System n) (c : Fin n) (p : Pid) :
    (taskTickYatCasched k c p).links = k.links := by
  unfold taskTickYatCasched
  dsimp only
  split
  · simp [reschedCurr]
  · simp

/-- A tick changes no counter. -/
theorem taskTickYatCasched_nrRunning (k : System n) (c d : Fin n) (p : Pid) :
    ((taskTickYatCasched k c p).rq d).yatCasched = (k.rq d).yatCasched := by
  unfold taskTickYatCasched
  dsimp only
  split <;> simp

/-- Every operation simulates its event on the family of queues. -/
theorem Represents.step {k : System n} {q : Fin n → List Pid}
    (hq : Represents k q) {op : YatOp n} (hop : op.Legal k) :
    Represents (op.step k) (QueueFamily.step q op.event) := by
  have hlegal := (hq.legal_iff op).mp hop
  cases op with
  | schedFork p => exact hq.schedFork hlegal
  | selectTaskRq p taskCpu => exact hq.congr (by simp [YatOp.step]) (by simp [YatOp.step])
  | enqueueTask c p => exact hq.enqueue c hlegal
  | dequeueTask c p => exact hq.dequeue_of_holder hlegal
  | pickTask c =>
      exact hq.congr (by simp [YatOp.step, pickTaskYatCasched])
        (by simp [YatOp.step, pickTaskYatCasched])
  | schedule c =>
      exact hq.congr (by simp [YatOp.step]) (by simp [YatOp.step])
  | switchTo c next =>
      exact hq.congr (by simp [YatOp.step]) (by simp [YatOp.step])
  | setNextTask c p => exact hq.congr rfl fun _ => rfl
  | putPrevTask c p =>
      exact hq.congr (by simp [YatOp.step, putPrevTaskYatCasched])
        (by simp [YatOp.step, putPrevTaskYatCasched])
  | taskTick c p =>
      refine hq.congr (taskTickYatCasched_links k c p) fun d => ?_
      simp only [YatOp.step]
      rw [taskTickYatCasched_nrRunning]
  | yieldTask c => exact hq
  | wakeupPreempt c p =>
      exact hq.congr rfl (by simp [YatOp.step, wakeupPreemptYatCasched])
  | updateRqClock c now => exact hq.congr rfl (by simp [YatOp.step])

/-- A run is legal exactly if it is legal on the represented queues. -/
theorem Represents.guarded_iff {k : System n} {q : Fin n → List Pid} (hq : Represents k q)
    (ops : List (YatOp n)) :
    Run.Guarded YatOp.step YatOp.Legal k ops ↔
      Run.Guarded (fun q op => QueueFamily.step q op.event) YatOp.LegalOn q ops := by
  induction ops generalizing k q with
  | nil => simp
  | cons op ops ih =>
      rw [Run.guarded_cons, Run.guarded_cons, hq.legal_iff]
      refine and_congr_right fun hop => ?_
      exact ih (hq.step ((hq.legal_iff op).mpr hop))

/-- A legal run represents the effect of its events. -/
theorem Represents.run {k : System n} {q : Fin n → List Pid} (hq : Represents k q)
    {ops : List (YatOp n)} (hops : Run.Guarded YatOp.step YatOp.Legal k ops) :
    Represents (ops.foldl YatOp.step k)
      ((ops.map YatOp.event).foldl QueueFamily.step q) := by
  induction ops generalizing k q with
  | nil => exact hq
  | cons op ops ih => exact ih (hq.step hops.1) hops.2

/-- The events of a legal run are legal. -/
theorem Represents.guarded_event {k : System n} {q : Fin n → List Pid} (hq : Represents k q)
    {ops : List (YatOp n)} (hops : Run.Guarded YatOp.step YatOp.Legal k ops) :
    Run.Guarded QueueFamily.step QueueFamily.Legal q (ops.map YatOp.event) := by
  induction ops generalizing k q with
  | nil => trivial
  | cons op ops ih =>
      have hop := (hq.legal_iff op).mp hops.1
      exact ⟨hop.event, ih (hq.step hops.1) hops.2⟩

/-- An event leaves the queues of the CPUs it does not name alone. -/
theorem step_event_of_ne (q : Fin n → List Pid) {op : YatOp n} {d : Fin n}
    (hd : op.cpu? ≠ some d) : QueueFamily.step q op.event d = q d := by
  cases op with
  | enqueueTask c p =>
      have hdc : d ≠ c := by
        intro hdc
        exact hd (by simp [YatOp.cpu?, hdc])
      simp [YatOp.event, QueueFamily.step, hdc]
  | dequeueTask c p =>
      have hdc : d ≠ c := by
        intro hdc
        exact hd (by simp [YatOp.cpu?, hdc])
      simp [YatOp.event, QueueFamily.step, hdc]
  | _ => rfl

end Kernel
end YatCasched
