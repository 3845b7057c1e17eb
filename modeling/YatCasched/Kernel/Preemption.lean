import YatCasched.Kernel.Operations

/-!
# Requests for a reschedule

Wakeups, changes of class, ticks and {lit}`__schedule` on one run queue.  A task
that becomes runnable above the running one has to set the flag
{lit}`need_resched`, and so has a running task that leaves its class for a lower
one.

The hooks of the other classes are not part of the repository.  Whether they ask
for a reschedule, and which task they pick, is part of each operation, within what
the core scheduler relies on.

Main results:

- Theorem {lit}`noticed_step_iff`: the steps after which no task is overlooked.
- Theorem {lit}`noticed_throughout_iff`: the runs in which none ever is.
-/

namespace YatCasched
namespace Kernel

open CircularList

variable {n : Nat}

/-! ## The core scheduler -/

/-- {lit}`switched_to_yat_casched`, whose body is a comment. -/
def switchedToYatCasched (k : System n) (_c : Fin n) (_p : Pid) : System n :=
  k

/-- {lit}`prio_changed_yat_casched`, whose body is a comment. -/
def prioChangedYatCasched (k : System n) (_c : Fin n) (_p : Pid) : System n :=
  k

/-- A hook of another class, which may ask for a reschedule. -/
def otherHook (k : System n) (c : Fin n) (requests : Bool) : System n :=
  if requests then reschedCurr k c else k

/-- {lit}`activate_task`. -/
def activateTask (k : System n) (c : Fin n) (p : Pid) : System n :=
  (enqueueTask k c p).updateTask p fun t => { t with onRq := .queued }

/-- {lit}`deactivate_task` of a task that goes to sleep. -/
def deactivateTask (k : System n) (c : Fin n) (p : Pid) : System n :=
  dequeueTask (k.updateTask p fun t => { t with onRq := .off }) c p

/-- {lit}`wakeup_preempt`, with the answer of the other hooks. -/
def wakeupPreemptWith (k : System n) (c : Fin n) (p : Pid) (requests : Bool) : System n :=
  if (k.task p).schedClass = prevClass k (k.rq c).curr then
    if (k.task p).schedClass = .yatCasched then
      wakeupPreemptYatCasched k c p
    else
      otherHook k c requests
  else if schedClassAbove (k.task p).schedClass (prevClass k (k.rq c).curr) then
    reschedCurr k c
  else
    k

/-- {lit}`check_class_changed`.  The cache-aware class has no {lit}`switched_from`,
and that of the fair class asks for nothing. -/
def checkClassChanged (k : System n) (c : Fin n) (p : Pid) (prevClass : SchedClass)
    (requests : Bool) : System n :=
  if prevClass ≠ (k.task p).schedClass then
    if (k.task p).schedClass = .yatCasched then
      switchedToYatCasched k c p
    else
      otherHook k c requests
  else if (k.task p).schedClass = .yatCasched then
    prioChangedYatCasched k c p
  else
    otherHook k c requests

/-- The class of a task reassigned in the order of {lit}`__sched_setscheduler`. -/
def changeClass (k : System n) (c : Fin n) (p : Pid) (cls : SchedClass) (requests : Bool) :
    System n :=
  let prevClass := (k.task p).schedClass
  checkClassChanged
    (requeue k p fun k => k.updateTask p fun t => { t with schedClass := cls }) c p prevClass
    requests

/-- {lit}`scheduler_tick`. -/
def schedulerTick (k : System n) (c : Fin n) (now : UInt64) (requests : Bool) : System n :=
  let k := Kernel.updateRqClock k c now
  match (k.rq c).curr with
  | none => k
  | some curr =>
      if (k.task curr).schedClass = .yatCasched then
        taskTickYatCasched k c curr
      else
        otherHook k c requests

/-- The {lit}`for_each_class` loop, with the tasks the other classes pick. -/
def walkPick (picks : SchedClass → Option Pid) (c : Fin n) :
    List SchedClass → System n → System n × Option Pid
  | [], k => (k, none)
  | .idle :: _, k => (k, none)
  | .yatCasched :: rest, k =>
      match pickNextTaskYatCasched k c with
      | (k, some p) => (k, some p)
      | (k, none) => walkPick picks c rest k
  | cls :: rest, k =>
      match picks cls with
      | some p => (k, some p)
      | none => walkPick picks c rest k

/-- The state in which {lit}`__schedule` picks: a previous task that blocks has been
dequeued. -/
def prepareSchedule (k : System n) (c : Fin n) (now : UInt64) (blocks : Bool) : System n :=
  let k := Kernel.updateRqClock k c now
  match (k.rq c).curr with
  | none => k
  | some prev => if blocks then deactivateTask k c prev else k

/-- {lit}`__schedule` with the pick of the class walk. -/
def schedule (k : System n) (c : Fin n) (now : UInt64) (blocks : Bool)
    (picks : SchedClass → Option Pid) : System n :=
  let prev := (k.rq c).curr
  let k := prepareSchedule k c now blocks
  let r := walkPick picks c forEachClass (putPrevTask k c prev)
  contextSwitch r.1 c r.2

/-! ## Operations -/

/-- The steps on one run queue. -/
inductive ReschedOp
  /-- A woken or new task is activated, and {lit}`wakeup_preempt` called. -/
  | wakeUp (p : Pid) (requests : Bool)
  | changeClass (p : Pid) (cls : SchedClass) (requests : Bool)
  | schedulerTick (now : UInt64) (requests : Bool)
  | schedule (now : UInt64) (blocks : Bool) (picks : SchedClass → Option Pid)

/-- The effect of a step. -/
def ReschedOp.step (c : Fin n) (k : System n) : ReschedOp → System n
  | .wakeUp p requests => wakeupPreemptWith (activateTask k c p) c p requests
  | .changeClass p cls requests => Kernel.changeClass k c p cls requests
  | .schedulerTick now requests => Kernel.schedulerTick k c now requests
  | .schedule now blocks picks => Kernel.schedule k c now blocks picks

/-- The task is queued on the run queue. -/
def OnRunQueue (k : System n) (c : Fin n) (p : Pid) : Prop :=
  (k.task p).onRq = .queued ∧ (k.task p).cpu = c

/-- The other classes pick one of their queued tasks, if there is one. -/
def PicksQueued (k : System n) (c : Fin n) (picks : SchedClass → Option Pid) : Prop :=
  ∀ cls, cls ≠ .yatCasched → cls ≠ .idle → match picks cls with
    | none => ∀ p, OnRunQueue k c p → (k.task p).schedClass ≠ cls
    | some p => OnRunQueue k c p ∧ (k.task p).schedClass = cls

/-- What the callers and the other hooks guarantee: a task that wakes up is not
queued and has been placed on the CPU; classes change between fair and cache-aware,
and {lit}`switched_to_fair` asks for a reschedule if the task is queued and is
running, or is above the running one; the other classes pick from their queues. -/
def ReschedOp.Legal (c : Fin n) (k : System n) : ReschedOp → Prop
  | .wakeUp p _ => (k.task p).onRq ≠ .queued ∧ (k.task p).cpu = c
  | .changeClass p cls requests =>
      (k.task p).cpu = c ∧
        ((k.task p).schedClass = .fair ∨ (k.task p).schedClass = .yatCasched) ∧
        (cls = .fair ∨ cls = .yatCasched) ∧
        (cls = .fair → (k.task p).schedClass = .yatCasched → OnRunQueue k c p →
          ((k.rq c).curr = some p ∨ schedClassAbove .fair (prevClass k (k.rq c).curr)) →
          requests = true)
  | .schedulerTick _ _ => True
  | .schedule now blocks picks => PicksQueued (prepareSchedule k c now blocks) c picks

/-- If a queued task is above the running one, a reschedule is requested. -/
def Noticed (c : Fin n) (k : System n) : Prop :=
  ∀ p, OnRunQueue k c p →
    schedClassAbove (k.task p).schedClass (prevClass k (k.rq c).curr) = true →
    (k.rq c).needResched = true

/-- The running task leaves the fair class while another fair task is queued, and
nobody has asked for a reschedule. -/
def ReschedOp.DemotesCurrent (c : Fin n) (k : System n) : ReschedOp → Prop
  | .changeClass p cls _ =>
      (k.rq c).curr = some p ∧ (k.task p).schedClass = .fair ∧ cls = .yatCasched ∧
        (k.rq c).needResched = false ∧
        ∃ q, q ≠ p ∧ OnRunQueue k c q ∧ (k.task q).schedClass = .fair
  | _ => False

/-! ## Views -/

/-- What matters for requests: which tasks are queued where, their classes, the
running task and the flag. -/
@[ext]
structure RqView (n : Nat) where
  onRq : Pid → OnRq
  cpu : Pid → Fin n
  schedClass : Pid → SchedClass
  curr : Option Pid
  needResched : Bool

/-- The view of a run queue. -/
def rqView (c : Fin n) (k : System n) : RqView n where
  onRq := fun p => (k.task p).onRq
  cpu := fun p => (k.task p).cpu
  schedClass := fun p => (k.task p).schedClass
  curr := (k.rq c).curr
  needResched := (k.rq c).needResched

namespace RqView

/-- The task is queued on the run queue. -/
def OnRunQueue (v : RqView n) (c : Fin n) (p : Pid) : Prop :=
  v.onRq p = .queued ∧ v.cpu p = c

/-- The queued tasks of the class. -/
def QueuedYat (v : RqView n) (c : Fin n) (p : Pid) : Prop :=
  v.OnRunQueue c p ∧ v.schedClass p = .yatCasched

/-- The class of the running task. -/
def currClass (v : RqView n) : SchedClass :=
  match v.curr with
  | none => .idle
  | some p => v.schedClass p

/-- If a queued task is above the running one, a reschedule is requested. -/
def Noticed (v : RqView n) (c : Fin n) : Prop :=
  ∀ p, v.OnRunQueue c p → schedClassAbove (v.schedClass p) v.currClass = true →
    v.needResched = true

/-- A reschedule may be requested. -/
def request (v : RqView n) (b : Bool) : RqView n :=
  { v with needResched := v.needResched || b }

/-- A task becomes queued or dequeued. -/
def setOnRq (v : RqView n) (p : Pid) (onRq : OnRq) : RqView n :=
  { v with onRq := Function.update v.onRq p onRq }

/-- A task moves to a class. -/
def setClass (v : RqView n) (p : Pid) (cls : SchedClass) : RqView n :=
  { v with schedClass := Function.update v.schedClass p cls }

/-- A task is switched in. -/
def switchTo (v : RqView n) (next : Option Pid) : RqView n :=
  { v with curr := next, needResched := false }

end RqView

variable {c : Fin n} {k : System n}

theorem noticed_iff_view : Noticed c k ↔ (rqView c k).Noticed c := by
  unfold Noticed RqView.Noticed RqView.currClass
  cases hcurr : (k.rq c).curr with
  | none => simp [rqView, hcurr, prevClass, OnRunQueue, RqView.OnRunQueue]
  | some p => simp [rqView, hcurr, prevClass, OnRunQueue, RqView.OnRunQueue]

/-- Accounting that does not touch the flag is not seen. -/
theorem rqView_of_onlyAccounting {k' : System n} (h : OnlyAccounting k k')
    (hflag : (k'.rq c).needResched = (k.rq c).needResched) : rqView c k' = rqView c k := by
  ext1
  · ext1 p
    exact h.apply p (fun t => t.onRq) fun _ _ _ => rfl
  · ext1 p
    exact h.apply p (fun t => t.cpu) fun _ _ _ => rfl
  · ext1 p
    exact h.apply p (fun t => t.schedClass) fun _ _ _ => rfl
  · exact h.curr c
  · exact hflag

theorem enqueueTask_needResched (k : System n) (c d : Fin n) (p : Pid) :
    ((enqueueTask k c p).rq d).needResched = (k.rq d).needResched := by
  unfold enqueueTask
  split
  · exact System.updateRq_rq_apply k c d (fun rq => rq.needResched) fun _ => rfl
  · exact System.updateRq_rq_apply k c d (fun rq => rq.needResched) fun _ => rfl
  · rcases enqueueTaskYatCasched_rq k c d p with ⟨yat, hd⟩
    rw [hd]
  · rfl
  · rfl
  · rfl

theorem dequeueTask_needResched (k : System n) (c d : Fin n) (p : Pid) :
    ((dequeueTask k c p).rq d).needResched = (k.rq d).needResched := by
  unfold dequeueTask
  split
  · exact System.updateRq_rq_apply k c d (fun rq => rq.needResched) fun _ => rfl
  · exact System.updateRq_rq_apply k c d (fun rq => rq.needResched) fun _ => rfl
  · rcases dequeueTaskYatCasched_rq k c d p with ⟨yat, hd⟩
    rw [hd]
  · rfl
  · rfl
  · rfl

@[simp]
theorem rqView_enqueueTask (c d : Fin n) (k : System n) (p : Pid) :
    rqView c (enqueueTask k d p) = rqView c k :=
  rqView_of_onlyAccounting (onlyAccounting_enqueueTask k d p) (enqueueTask_needResched k d c p)

@[simp]
theorem rqView_dequeueTask (c d : Fin n) (k : System n) (p : Pid) :
    rqView c (dequeueTask k d p) = rqView c k :=
  rqView_of_onlyAccounting (onlyAccounting_dequeueTask k d p) (dequeueTask_needResched k d c p)

@[simp]
theorem rqView_putPrevTask (c d : Fin n) (k : System n) (prev : Option Pid) :
    rqView c (putPrevTask k d prev) = rqView c k := by
  apply rqView_of_onlyAccounting (onlyAccounting_putPrevTask k d prev)
  rw [putPrevTask_rq]

@[simp]
theorem rqView_setNextTask (c d : Fin n) (k : System n) (p : Pid) :
    rqView c (setNextTask k d p) = rqView c k := by
  apply rqView_of_onlyAccounting (onlyAccounting_setNextTask k d p)
  unfold setNextTask
  split
  · rfl
  · rfl

@[simp]
theorem rqView_updateRqClock (c d : Fin n) (k : System n) (now : UInt64) :
    rqView c (updateRqClock k d now) = rqView c k := by
  apply rqView_of_onlyAccounting (onlyAccounting_updateRqClock k d now)
  unfold updateRqClock
  exact System.updateRq_rq_apply k d c (fun rq => rq.needResched) fun _ => rfl

@[simp]
theorem rqView_pickNextTask (c d : Fin n) (k : System n) :
    rqView c (pickNextTaskYatCasched k d).1 = rqView c k := by
  apply rqView_of_onlyAccounting (onlyAccounting_pickNextTask k d)
  unfold pickNextTaskYatCasched
  split
  · rfl
  · dsimp only
    rw [System.updateTask_rq]
    exact System.updateRq_rq_apply k d c (fun rq => rq.needResched) fun _ => rfl

@[simp]
theorem rqView_updateCurrYatCasched (c d : Fin n) (k : System n) :
    rqView c (updateCurrYatCasched k d) = rqView c k := by
  apply rqView_of_onlyAccounting (onlyAccounting_updateCurr k d)
  rw [updateCurrYatCasched_rq]

@[simp]
theorem rqView_updateTask_se (c : Fin n) (k : System n) (p : Pid)
    (se : TaskStruct n → SchedEntity) :
    rqView c (k.updateTask p fun t => { t with se := se t }) = rqView c k := by
  apply rqView_of_onlyAccounting
  · apply OnlyAccounting.updateTask
    intro t
    exact ⟨se t, t.yatCasched, rfl⟩
  · rfl

/-- A request is seen. -/
@[simp]
theorem rqView_reschedCurr (c : Fin n) (k : System n) :
    rqView c (reschedCurr k c) = (rqView c k).request true := by
  ext1
  · rfl
  · rfl
  · rfl
  · simp [rqView, reschedCurr, RqView.request]
  · simp [rqView, reschedCurr, RqView.request]

@[simp]
theorem RqView.request_false (v : RqView n) : v.request false = v := by
  simp [RqView.request]

@[simp]
theorem rqView_otherHook (c : Fin n) (k : System n) (requests : Bool) :
    rqView c (otherHook k c requests) = (rqView c k).request requests := by
  cases requests with
  | true => exact rqView_reschedCurr c k
  | false => exact (RqView.request_false _).symm

@[simp]
theorem rqView_updateTask_onRq (c : Fin n) (k : System n) (p : Pid) (onRq : OnRq) :
    rqView c (k.updateTask p fun t => { t with onRq := onRq }) = (rqView c k).setOnRq p onRq := by
  ext1
  · ext1 q
    by_cases hqp : q = p
    · subst hqp
      simp [rqView, RqView.setOnRq]
    · simp [rqView, RqView.setOnRq, hqp]
  · ext1 q
    exact System.updateTask_task_apply k p q (fun t => t.cpu) fun _ => rfl
  · ext1 q
    exact System.updateTask_task_apply k p q (fun t => t.schedClass) fun _ => rfl
  · rfl
  · rfl

@[simp]
theorem rqView_updateTask_schedClass (c : Fin n) (k : System n) (p : Pid) (cls : SchedClass) :
    rqView c (k.updateTask p fun t => { t with schedClass := cls }) =
      (rqView c k).setClass p cls := by
  ext1
  · ext1 q
    exact System.updateTask_task_apply k p q (fun t => t.onRq) fun _ => rfl
  · ext1 q
    exact System.updateTask_task_apply k p q (fun t => t.cpu) fun _ => rfl
  · ext1 q
    by_cases hqp : q = p
    · subst hqp
      simp [rqView, RqView.setClass]
    · simp [rqView, RqView.setClass, hqp]
  · rfl
  · rfl

@[simp]
theorem rqView_contextSwitch (c : Fin n) (k : System n) (next : Option Pid) :
    rqView c (contextSwitch k c next) = (rqView c k).switchTo next := by
  ext1
  · rfl
  · rfl
  · rfl
  · simp [rqView, contextSwitch, RqView.switchTo]
  · simp [rqView, contextSwitch, RqView.switchTo]

@[simp]
theorem rqView_activateTask (c : Fin n) (k : System n) (p : Pid) :
    rqView c (activateTask k c p) = (rqView c k).setOnRq p .queued := by
  simp [activateTask]

@[simp]
theorem rqView_deactivateTask (c : Fin n) (k : System n) (p : Pid) :
    rqView c (deactivateTask k c p) = (rqView c k).setOnRq p .off := by
  simp [deactivateTask]

theorem currClass_rqView (c : Fin n) (k : System n) :
    (rqView c k).currClass = prevClass k (k.rq c).curr := by
  unfold RqView.currClass
  cases hcurr : (k.rq c).curr with
  | none => simp [rqView, hcurr, prevClass]
  | some p => simp [rqView, hcurr, prevClass]

/-- A wakeup asks for a reschedule at least if the task is above the running
one. -/
theorem rqView_wakeupPreemptWith (c : Fin n) (k : System n) (p : Pid) (requests : Bool) :
    ∃ b, rqView c (wakeupPreemptWith k c p requests) = (rqView c k).request b ∧
      (schedClassAbove ((rqView c k).schedClass p) (rqView c k).currClass = true → b = true) := by
  rw [currClass_rqView]
  unfold wakeupPreemptWith
  split
  · rename_i hsame
    have hnot : ¬schedClassAbove ((rqView c k).schedClass p) (prevClass k (k.rq c).curr) =
        true := by
      show ¬schedClassAbove (k.task p).schedClass _ = true
      simp [hsame, schedClassAbove]
    split
    · exact ⟨true, rqView_reschedCurr c k, fun _ => rfl⟩
    · exact ⟨requests, rqView_otherHook c k requests, fun habove => absurd habove hnot⟩
  · split
    · exact ⟨true, rqView_reschedCurr c k, fun _ => rfl⟩
    · rename_i hnot
      exact ⟨false, by simp, fun habove => absurd habove hnot⟩

/-- The sequence changes the view as the change does. -/
theorem rqView_requeue_schedClass (c : Fin n) (k : System n) (p : Pid) (cls : SchedClass) :
    rqView c (requeue k p fun k => k.updateTask p fun t => { t with schedClass := cls }) =
      (rqView c k).setClass p cls := by
  unfold requeue
  simp only [apply_ite (rqView c), rqView_setNextTask, rqView_enqueueTask,
    rqView_updateTask_schedClass, rqView_putPrevTask, rqView_dequeueTask, ite_self]

/-- A change of class asks for a reschedule only through the hooks of the other
classes. -/
theorem rqView_changeClass (c : Fin n) (k : System n) (p : Pid) (cls : SchedClass)
    (requests : Bool) :
    rqView c (changeClass k c p cls requests) =
      ((rqView c k).setClass p cls).request (if cls = .yatCasched then false else requests) := by
  have hview := rqView_requeue_schedClass c k p cls
  have hclass : ((requeue k p fun k => k.updateTask p fun t =>
      { t with schedClass := cls }).task p).schedClass = cls := by
    have hp := congrFun (congrArg RqView.schedClass hview) p
    simpa [rqView, RqView.setClass] using hp
  unfold changeClass checkClassChanged switchedToYatCasched prioChangedYatCasched
  dsimp only
  rw [hclass, ← hview]
  by_cases hyat : cls = .yatCasched
  · simp [hyat]
  · simp [hyat]

/-- A tick may ask for a reschedule. -/
theorem rqView_schedulerTick (c : Fin n) (k : System n) (now : UInt64) (requests : Bool) :
    ∃ b, rqView c (schedulerTick k c now requests) = (rqView c k).request b := by
  unfold schedulerTick
  dsimp only
  split
  · exact ⟨false, by simp⟩
  · rename_i curr _
    split
    · unfold taskTickYatCasched
      dsimp only
      split
      · exact ⟨true, by simp⟩
      · exact ⟨false, by simp⟩
    · exact ⟨requests, by simp⟩

/-! ## The lists -/

/-- The lists of the class hold the tasks the relation says. -/
def ListsHold (k : System n) (f : Fin n → Pid → Prop) : Prop :=
  ∃ q, Represents k q ∧ ∀ d p, p ∈ q d ↔ f d p

section ListsHold

variable {k' : System n} {f f' : Fin n → Pid → Prop} {p : Pid}

theorem ListsHold.of_iff (h : ListsHold k f) (hf : ∀ d p, f d p ↔ f' d p) : ListsHold k f' := by
  rcases h with ⟨q, hq, hmem⟩
  refine ⟨q, hq, ?_⟩
  intro d p
  rw [hmem, hf]

theorem ListsHold.congr (h : ListsHold k f) (hlinks : k'.links = k.links)
    (hcount : ∀ d, (k'.rq d).yatCasched.nrRunning = (k.rq d).yatCasched.nrRunning) :
    ListsHold k' f := by
  rcases h with ⟨q, hq, hmem⟩
  exact ⟨q, hq.congr hlinks hcount, hmem⟩

/-- A conditional call. -/
theorem ListsHold.ite (b : Bool) (h : ListsHold k f) (h' : ListsHold k' f) :
    ListsHold (if b then k' else k) f := by
  cases b with
  | true => exact h'
  | false => exact h

/-- Enqueueing adds a task of the class. -/
theorem ListsHold.enqueueTask (h : ListsHold k f) (hp : ∀ d, ¬f d p) (c : Fin n) :
    ListsHold (enqueueTask k c p) fun d r =>
      f d r ∨ ((k.task p).schedClass = .yatCasched ∧ d = c ∧ r = p) := by
  rcases h with ⟨q, hq, hmem⟩
  by_cases hclass : (k.task p).schedClass = .yatCasched
  · have hfree : ∀ d, p ∉ q d := fun d hd => hp d ((hmem d p).mp hd)
    refine ⟨QueueFamily.step q (.enqueue c p), ?_, fun d r => ?_⟩
    · unfold Kernel.enqueueTask
      rw [hclass]
      exact hq.enqueue c hfree
    · rw [QueueFamily.mem_step_enqueue, hmem]
      simp [hclass]
  · refine ⟨q, ?_, fun d r => ?_⟩
    · unfold Kernel.enqueueTask
      split
      · exact hq.congr rfl fun d => System.updateRq_rq_apply k c d
          (fun rq => rq.yatCasched.nrRunning) fun _ => rfl
      · exact hq.congr rfl fun d => System.updateRq_rq_apply k c d
          (fun rq => rq.yatCasched.nrRunning) fun _ => rfl
      · rename_i hyat
        exact absurd hyat hclass
      · exact hq
      · exact hq
      · exact hq
    · simp [hmem, hclass]

/-- Dequeueing removes a task of the class. -/
theorem ListsHold.dequeueTask (h : ListsHold k f) {c : Fin n} (hp : ∀ d, f d p → d = c) :
    ListsHold (dequeueTask k c p) fun d r =>
      f d r ∧ ¬((k.task p).schedClass = .yatCasched ∧ r = p) := by
  rcases h with ⟨q, hq, hmem⟩
  by_cases hclass : (k.task p).schedClass = .yatCasched
  · have hholder : ∀ d, p ∈ q d → d = c := fun d hd => hp d ((hmem d p).mp hd)
    refine ⟨Function.update q c ((q c).erase p), ?_, fun d r => ?_⟩
    · unfold Kernel.dequeueTask
      rw [hclass]
      exact hq.dequeue_of_holder hholder
    · by_cases hdc : d = c
      · rw [hdc, Function.update_self, (hq.tasks c).nodup.mem_erase_iff, hmem]
        simp [hclass, and_comm]
      · rw [Function.update_of_ne hdc, hmem]
        constructor
        · intro hr
          refine ⟨hr, ?_⟩
          rintro ⟨_, rfl⟩
          exact hdc (hp d hr)
        · exact fun hr => hr.1
  · refine ⟨q, ?_, fun d r => ?_⟩
    · unfold Kernel.dequeueTask
      split
      · exact hq.congr rfl fun d => System.updateRq_rq_apply k c d
          (fun rq => rq.yatCasched.nrRunning) fun _ => rfl
      · exact hq.congr rfl fun d => System.updateRq_rq_apply k c d
          (fun rq => rq.yatCasched.nrRunning) fun _ => rfl
      · rename_i hyat
        exact absurd hyat hclass
      · exact hq
      · exact hq
      · exact hq
    · simp [hmem, hclass]

end ListsHold

/-! ## The pick -/

/-- What the walk takes from a class. -/
def classPick (picks : SchedClass → Option Pid) (k : System n) (c : Fin n) :
    SchedClass → Option Pid
  | .yatCasched => firstTask k c
  | .idle => none
  | cls => picks cls

/-- The walk changes the state as a pick of the class does, or not at all. -/
theorem walkPick_fst (picks : SchedClass → Option Pid) (c : Fin n) (classes : List SchedClass)
    (k : System n) :
    (walkPick picks c classes k).1 = k ∨
      (walkPick picks c classes k).1 = (pickNextTaskYatCasched k c).1 := by
  induction classes with
  | nil => exact Or.inl rfl
  | cons cls rest ih =>
      cases cls with
      | idle => exact Or.inl rfl
      | yatCasched =>
          unfold walkPick pickNextTaskYatCasched
          cases hfirst : firstTask k c with
          | none => simpa [pickNextTaskYatCasched, hfirst] using ih
          | some p => exact Or.inr rfl
      | stop | dl | rt | fair =>
          unfold walkPick
          split
          · exact Or.inl rfl
          · exact ih

@[simp]
theorem rqView_walkPick (c : Fin n) (picks : SchedClass → Option Pid)
    (classes : List SchedClass) (k : System n) :
    rqView c (walkPick picks c classes k).1 = rqView c k := by
  rcases walkPick_fst picks c classes k with hwalk | hwalk
  · rw [hwalk]
  · rw [hwalk, rqView_pickNextTask]

/-- The walk takes the first task that a class above the idle class offers. -/
theorem walkPick_snd (picks : SchedClass → Option Pid) (c : Fin n) (k : System n) :
    (walkPick picks c forEachClass k).2 =
      [.stop, .dl, .rt, .fair, .yatCasched].findSome? (classPick picks k c) := by
  simp only [forEachClass, walkPick, pickNextTaskYatCasched, List.findSome?, classPick]
  cases picks .stop with
  | some p => rfl
  | none =>
      cases picks .dl with
      | some p => rfl
      | none =>
          cases picks .rt with
          | some p => rfl
          | none =>
              cases picks .fair with
              | some p => rfl
              | none =>
                  cases firstTask k c with
                  | some p => rfl
                  | none => rfl

/-- The first offer in the order of the classes comes from no lower class than any
other offer. -/
theorem findSome?_offer_top {classes : List SchedClass} {offer : SchedClass → Option Pid}
    (hsorted : classes.Pairwise fun a b => a.address < b.address) {cls : SchedClass}
    (hmem : cls ∈ classes) (hoffer : offer cls ≠ none) :
    ∃ top ∈ classes, ∃ r, offer top = some r ∧ classes.findSome? offer = some r ∧
      ¬schedClassAbove cls top = true := by
  cases hfind : classes.findSome? offer with
  | none => exact absurd (List.findSome?_eq_none_iff.mp hfind cls hmem) hoffer
  | some r =>
      rcases List.findSome?_eq_some_iff.mp hfind with ⟨before, top, after, hsplit, hr, hbefore⟩
      rw [hsplit, List.pairwise_append, List.pairwise_cons] at hsorted
      refine ⟨top, by simp [hsplit], r, hr, rfl, ?_⟩
      rw [hsplit] at hmem
      simp only [schedClassAbove, decide_eq_true_eq]
      rcases List.mem_append.mp hmem with hmem | hmem
      · exact absurd (hbefore cls hmem) hoffer
      · rcases List.mem_cons.mp hmem with heq | hmem
        · rw [heq]
          omega
        · have hlt := hsorted.2.1.1 cls hmem
          omega

/-- Every class above the idle class offers one of its queued tasks, if there is
one. -/
def RqView.Offers (v : RqView n) (c : Fin n) (offer : SchedClass → Option Pid) : Prop :=
  ∀ cls, cls ≠ .idle → match offer cls with
    | none => ∀ p, v.OnRunQueue c p → v.schedClass p ≠ cls
    | some p => v.OnRunQueue c p ∧ v.schedClass p = cls

/-- A class with a queued task offers one. -/
theorem RqView.Offers.ne_none {v : RqView n} {offer : SchedClass → Option Pid}
    (hoffer : v.Offers c offer) {p : Pid} (hp : v.OnRunQueue c p)
    (hidle : v.schedClass p ≠ .idle) : offer (v.schedClass p) ≠ none := by
  intro hnone
  have hnot := hoffer (v.schedClass p) hidle
  rw [hnone] at hnot
  exact hnot p hp rfl

theorem RqView.Offers.of_some {v : RqView n} {offer : SchedClass → Option Pid}
    (hoffer : v.Offers c offer) {cls : SchedClass} (hidle : cls ≠ .idle) {p : Pid}
    (hp : offer cls = some p) : v.OnRunQueue c p ∧ v.schedClass p = cls := by
  have hoffered := hoffer cls hidle
  rw [hp] at hoffered
  exact hoffered

/-- The classes above the idle class. -/
theorem mem_aboveIdle_iff (cls : SchedClass) :
    cls ∈ [SchedClass.stop, .dl, .rt, .fair, .yatCasched] ↔ cls ≠ .idle := by
  cases cls <;> simp

theorem not_schedClassAbove_idle (cls : SchedClass) : schedClassAbove .idle cls = false := by
  cases cls <;> rfl

/-- After a switch to the first offer no queued task is above the running one. -/
theorem RqView.Offers.noticed {v : RqView n} {offer : SchedClass → Option Pid}
    (hoffer : v.Offers c offer) :
    (v.switchTo ([.stop, .dl, .rt, .fair, .yatCasched].findSome? offer)).Noticed c := by
  intro p hp habove
  have hqueued : v.OnRunQueue c p := hp
  have hidle : v.schedClass p ≠ .idle := by
    intro hidle
    simp [RqView.switchTo, hidle, not_schedClassAbove_idle] at habove
  rcases findSome?_offer_top (by simp [SchedClass.address])
    ((mem_aboveIdle_iff _).mpr hidle) (hoffer.ne_none hqueued hidle) with
    ⟨top, htop, r, hr, hfind, hnot⟩
  have hclass := (hoffer.of_some ((mem_aboveIdle_iff top).mp htop) hr).2
  rw [hfind] at habove
  rw [← hclass] at hnot
  exact absurd habove hnot

/-- A task that the walk takes is queued. -/
theorem RqView.Offers.onRunQueue {v : RqView n} {offer : SchedClass → Option Pid}
    (hoffer : v.Offers c offer) {p : Pid}
    (hp : [.stop, .dl, .rt, .fair, .yatCasched].findSome? offer = some p) :
    v.OnRunQueue c p := by
  rcases List.exists_of_findSome?_eq_some hp with ⟨cls, hcls, hp⟩
  exact (hoffer.of_some ((mem_aboveIdle_iff cls).mp hcls) hp).1

/-! ## The invariant -/

/-- The lists hold the queued tasks of the class, and the running task is on its
CPU. -/
structure Consistent (c : Fin n) (k : System n) : Prop where
  lists : ListsHold k (rqView c k).QueuedYat
  curr : ∀ p, (k.rq c).curr = some p → (k.task p).cpu = c

/-- Who is queued after a task has been queued or dequeued. -/
theorem RqView.queuedYat_setOnRq (v : RqView n) (p : Pid) (onRq : OnRq) (d : Fin n) (r : Pid) :
    (v.setOnRq p onRq).QueuedYat d r ↔
      (r ≠ p ∧ v.QueuedYat d r) ∨
        (r = p ∧ onRq = .queued ∧ v.cpu p = d ∧ v.schedClass p = .yatCasched) := by
  by_cases hrp : r = p
  · subst hrp
    simp [RqView.QueuedYat, RqView.OnRunQueue, RqView.setOnRq, and_assoc]
  · simp [RqView.QueuedYat, RqView.OnRunQueue, RqView.setOnRq, hrp]

/-- Who is queued after a change of class. -/
theorem RqView.queuedYat_setClass (v : RqView n) (p : Pid) (cls : SchedClass) (d : Fin n)
    (r : Pid) :
    (v.setClass p cls).QueuedYat d r ↔
      (r ≠ p ∧ v.QueuedYat d r) ∨
        (r = p ∧ v.onRq p = .queued ∧ v.cpu p = d ∧ cls = .yatCasched) := by
  by_cases hrp : r = p
  · subst hrp
    simp [RqView.QueuedYat, RqView.OnRunQueue, RqView.setClass, and_assoc]
  · simp [RqView.QueuedYat, RqView.OnRunQueue, RqView.setClass, hrp]

section Lists

variable {f : Fin n → Pid → Prop}

theorem ListsHold.putPrevTask (h : ListsHold k f) (d : Fin n) (prev : Option Pid) :
    ListsHold (putPrevTask k d prev) f := by
  apply h.congr (putPrevTask_links k d prev)
  intro e
  rw [putPrevTask_rq]

theorem ListsHold.setNextTask (h : ListsHold k f) (d : Fin n) (p : Pid) :
    ListsHold (setNextTask k d p) f := by
  unfold Kernel.setNextTask
  split
  · exact h.congr rfl fun _ => rfl
  · exact h

theorem ListsHold.reschedCurr (h : ListsHold k f) (d : Fin n) :
    ListsHold (reschedCurr k d) f := by
  refine h.congr rfl ?_
  intro e
  rw [reschedCurr_yatCasched]

theorem ListsHold.otherHook (h : ListsHold k f) (d : Fin n) (requests : Bool) :
    ListsHold (otherHook k d requests) f := by
  unfold Kernel.otherHook
  split
  · exact h.reschedCurr d
  · exact h

theorem ListsHold.updateRqClock (h : ListsHold k f) (d : Fin n) (now : UInt64) :
    ListsHold (updateRqClock k d now) f := by
  refine h.congr rfl ?_
  intro e
  rw [updateRqClock_yatCasched]

theorem ListsHold.contextSwitch (h : ListsHold k f) (d : Fin n) (next : Option Pid) :
    ListsHold (contextSwitch k d next) f := by
  refine h.congr rfl ?_
  intro e
  rw [contextSwitch_yatCasched]

theorem ListsHold.walkPick (h : ListsHold k f) (picks : SchedClass → Option Pid) (d : Fin n)
    (classes : List SchedClass) : ListsHold (walkPick picks d classes k).1 f := by
  rcases walkPick_fst picks d classes k with hwalk | hwalk
  · rw [hwalk]
    exact h
  · rw [hwalk]
    exact h.congr (pickNextTaskYatCasched_links k d) (pickNextTaskYatCasched_nrRunning k d)

end Lists

/-- A wakeup adds the task to the lists if it is in the class. -/
theorem ListsHold.activateTask (h : ListsHold k (rqView c k).QueuedYat) {p : Pid}
    (hoff : (k.task p).onRq ≠ .queued) (hcpu : (k.task p).cpu = c) :
    ListsHold (activateTask k c p) (rqView c (activateTask k c p)).QueuedYat := by
  have hfree : ∀ d, ¬(rqView c k).QueuedYat d p := fun d hp => hoff hp.1.1
  have henqueue := h.enqueueTask hfree c
  unfold Kernel.activateTask
  refine .of_iff (henqueue.congr rfl fun _ => rfl) ?_
  intro d r
  rw [rqView_updateTask_onRq, rqView_enqueueTask, RqView.queuedYat_setOnRq]
  by_cases hrp : r = p
  · subst hrp
    simp only [hfree, false_or, and_true, ne_eq, not_true_eq_false, false_and, true_and]
    exact ⟨fun hr => ⟨hcpu.trans hr.2.symm, hr.1⟩, fun hr => ⟨hr.2, hr.1.symm.trans hcpu⟩⟩
  · simp [hrp]

/-- A task that blocks is taken off the lists. -/
theorem ListsHold.deactivateTask (h : ListsHold k (rqView c k).QueuedYat) {p : Pid}
    (hcpu : (k.task p).cpu = c) :
    ListsHold (deactivateTask k c p) (rqView c (deactivateTask k c p)).QueuedYat := by
  have hholder : ∀ d, (rqView c k).QueuedYat d p → d = c := by
    intro d hp
    rw [← hcpu]
    exact hp.1.2.symm
  have hoff : ListsHold (k.updateTask p fun t => { t with onRq := .off })
      (rqView c k).QueuedYat := h.congr rfl fun _ => rfl
  have hdequeue := hoff.dequeueTask hholder
  rw [System.updateTask_task_self] at hdequeue
  refine .of_iff hdequeue ?_
  intro d r
  rw [rqView_deactivateTask, RqView.queuedYat_setOnRq]
  by_cases hrp : r = p
  · subst hrp
    simp [RqView.QueuedYat, rqView]
  · simp [hrp]

/-- Dequeueing a queued task takes it off the lists. -/
theorem listsHold_dequeue_of_queued (h : ListsHold k (rqView c k).QueuedYat) (p : Pid) :
    ListsHold (if taskOnRqQueued k p then dequeueTask k (k.task p).cpu p else k)
      fun d r => r ≠ p ∧ (rqView c k).QueuedYat d r := by
  split
  · refine .of_iff (h.dequeueTask fun d hp => hp.1.2.symm) ?_
    intro d r
    by_cases hrp : r = p
    · subst hrp
      simp [RqView.QueuedYat, rqView]
    · simp [hrp]
  · rename_i hoff
    have hfree : ∀ d, ¬(rqView c k).QueuedYat d p := by
      intro d hp
      exact hoff (decide_eq_true hp.1.1)
    refine h.of_iff ?_
    intro d r
    by_cases hrp : r = p
    · subst hrp
      simp [hfree]
    · simp [hrp]

/-- Enqueueing a task that is on no list puts it on the list of its class. -/
theorem listsHold_enqueue_of_off {f : Fin n → Pid → Prop} {p : Pid}
    (h : ListsHold k fun d r => r ≠ p ∧ f d r) (d : Fin n) (queued : Bool) :
    ListsHold (if queued then enqueueTask k d p else k) fun e r =>
      (r ≠ p ∧ f e r) ∨
        (r = p ∧ queued = true ∧ d = e ∧ (k.task p).schedClass = .yatCasched) := by
  cases queued with
  | true =>
      refine .of_iff (h.enqueueTask (p := p) (by simp) d) ?_
      intro e r
      simp only [true_and]
      exact or_congr_right ⟨fun hr => ⟨hr.2.2, hr.2.1.symm, hr.1⟩,
        fun hr => ⟨hr.2.2, hr.2.1.symm, hr.1⟩⟩
  | false => exact h.of_iff (by simp)

/-- A change of class moves the task between the lists of its classes. -/
theorem listsHold_requeue_schedClass (h : ListsHold k (rqView c k).QueuedYat) (p : Pid)
    (cls : SchedClass) :
    ListsHold (requeue k p fun k => k.updateTask p fun t => { t with schedClass := cls })
      ((rqView c k).setClass p cls).QueuedYat := by
  unfold requeue
  dsimp only
  have hdequeue := listsHold_dequeue_of_queued h p
  have hput := ListsHold.ite (taskCurrent k p) hdequeue
    (hdequeue.putPrevTask (k.task p).cpu (some p))
  have hchange : ListsHold (System.updateTask _ p fun t => { t with schedClass := cls }) _ :=
    hput.congr rfl fun _ => rfl
  have henqueue := listsHold_enqueue_of_off hchange (k.task p).cpu (taskOnRqQueued k p)
  rw [System.updateTask_task_self] at henqueue
  have hiff : ∀ d r, (r ≠ p ∧ (rqView c k).QueuedYat d r) ∨
      (r = p ∧ taskOnRqQueued k p = true ∧ (k.task p).cpu = d ∧ cls = .yatCasched) ↔
        ((rqView c k).setClass p cls).QueuedYat d r := by
    intro d r
    rw [RqView.queuedYat_setClass]
    simp [taskOnRqQueued, rqView]
  have hlists := henqueue.of_iff hiff
  exact ListsHold.ite _ hlists (hlists.setNextTask _ _)

/-- The hooks called after a change of class touch no list. -/
theorem ListsHold.checkClassChanged {f : Fin n → Pid → Prop} (h : ListsHold k f) (d : Fin n)
    (p : Pid) (prevClass : SchedClass) (requests : Bool) :
    ListsHold (checkClassChanged k d p prevClass requests) f := by
  unfold Kernel.checkClassChanged
  split
  · split
    · exact h
    · exact h.otherHook d requests
  · split
    · exact h
    · exact h.otherHook d requests

theorem ListsHold.wakeupPreemptWith {f : Fin n → Pid → Prop} (h : ListsHold k f) (d : Fin n)
    (p : Pid) (requests : Bool) : ListsHold (wakeupPreemptWith k d p requests) f := by
  unfold Kernel.wakeupPreemptWith
  split
  · split
    · exact h.reschedCurr d
    · exact h.otherHook d requests
  · split
    · exact h.reschedCurr d
    · exact h

theorem ListsHold.schedulerTick {f : Fin n → Pid → Prop} (h : ListsHold k f) (d : Fin n)
    (now : UInt64) (requests : Bool) : ListsHold (schedulerTick k d now requests) f := by
  have hclock := h.updateRqClock d now
  unfold Kernel.schedulerTick
  dsimp only
  split
  · exact hclock
  · rename_i curr _
    split
    · refine hclock.congr (taskTickYatCasched_links _ d curr) ?_
      intro e
      rw [taskTickYatCasched_nrRunning]
    · exact hclock.otherHook d requests

/-- In the state in which {lit}`__schedule` picks, the lists hold the queued
tasks. -/
theorem Consistent.prepareSchedule (h : Consistent c k) (now : UInt64) (blocks : Bool) :
    ListsHold (prepareSchedule k c now blocks)
      (rqView c (prepareSchedule k c now blocks)).QueuedYat := by
  have hclock := h.lists.updateRqClock c now
  rw [← rqView_updateRqClock c c k now] at hclock
  unfold Kernel.prepareSchedule
  dsimp only
  split
  · exact hclock
  · rename_i prev hprev
    split
    · apply hclock.deactivateTask
      apply h.curr
      have hcurr := congrArg RqView.curr (rqView_updateRqClock c c k now)
      exact hcurr.symm.trans hprev
    · exact hclock

/-- Putting the previous task back changes no offer. -/
theorem classPick_putPrevTask (picks : SchedClass → Option Pid) (k : System n) (c : Fin n)
    (prev : Option Pid) : classPick picks (putPrevTask k c prev) c = classPick picks k c := by
  ext1 cls
  cases cls with
  | yatCasched => simp [classPick, firstTask, putPrevTask_rq, putPrevTask_links]
  | _ => rfl

/-- {lit}`__schedule` switches to the first offer. -/
theorem rqView_schedule (c : Fin n) (k : System n) (now : UInt64) (blocks : Bool)
    (picks : SchedClass → Option Pid) :
    rqView c (schedule k c now blocks picks) =
      (rqView c (prepareSchedule k c now blocks)).switchTo
        ([.stop, .dl, .rt, .fair, .yatCasched].findSome?
          (classPick picks (prepareSchedule k c now blocks) c)) := by
  unfold schedule
  dsimp only
  rw [rqView_contextSwitch, rqView_walkPick, rqView_putPrevTask, walkPick_snd,
    classPick_putPrevTask]

/-- If the lists hold the queued tasks, every class offers one of its own. -/
theorem ListsHold.offers (h : ListsHold k (rqView c k).QueuedYat)
    {picks : SchedClass → Option Pid} (hpicks : PicksQueued k c picks) :
    (rqView c k).Offers c (classPick picks k c) := by
  intro cls hidle
  cases cls with
  | idle => exact absurd rfl hidle
  | yatCasched =>
      rcases h with ⟨q, hq, hmem⟩
      simp only [classPick, hq.firstTask_eq]
      cases hhead : (q c).head? with
      | none =>
          rw [List.head?_eq_none_iff] at hhead
          intro p hp hclass
          have hin := (hmem c p).mpr ⟨hp, hclass⟩
          simp [hhead] at hin
      | some p => exact (hmem c p).mp (List.mem_of_mem_head? hhead)
  | stop => exact hpicks .stop (by decide) (by decide)
  | dl => exact hpicks .dl (by decide) (by decide)
  | rt => exact hpicks .rt (by decide) (by decide)
  | fair => exact hpicks .fair (by decide) (by decide)

/-- A step without a switch keeps the invariant if it keeps the lists. -/
theorem Consistent.of_sameCurr {k' : System n} (h : Consistent c k)
    (hlists : ListsHold k' (rqView c k').QueuedYat)
    (hcurr : (rqView c k').curr = (rqView c k).curr)
    (hcpu : (rqView c k').cpu = (rqView c k).cpu) : Consistent c k' where
  lists := hlists
  curr := by
    intro p hp
    have hold := h.curr p (hcurr.symm.trans hp)
    exact (congrFun hcpu p).trans hold

/-- Every legal step keeps the invariant. -/
theorem consistent_step (c : Fin n) (k : System n) (op : ReschedOp) (h : Consistent c k)
    (hop : op.Legal c k) : Consistent c (op.step c k) := by
  cases op with
  | wakeUp p requests =>
      have hlists := h.lists.activateTask hop.1 hop.2
      rcases rqView_wakeupPreemptWith c (activateTask k c p) p requests with ⟨b, hview, _⟩
      have hqueued := hlists.wakeupPreemptWith c p requests
      simp only [ReschedOp.step]
      apply h.of_sameCurr
      · rw [hview]
        exact hqueued
      · rw [hview, rqView_activateTask]
        rfl
      · rw [hview, rqView_activateTask]
        rfl
  | changeClass p cls requests =>
      have hview := rqView_changeClass c k p cls requests
      have hqueued := (listsHold_requeue_schedClass h.lists p cls).checkClassChanged c p
        (k.task p).schedClass requests
      simp only [ReschedOp.step]
      apply h.of_sameCurr
      · rw [hview]
        exact hqueued
      · rw [hview]
        rfl
      · rw [hview]
        rfl
  | schedulerTick now requests =>
      rcases rqView_schedulerTick c k now requests with ⟨b, hview⟩
      have hqueued := h.lists.schedulerTick c now requests
      simp only [ReschedOp.step]
      apply h.of_sameCurr
      · rw [hview]
        exact hqueued
      · rw [hview]
        rfl
      · rw [hview]
        rfl
  | schedule now blocks picks =>
      have hview := rqView_schedule c k now blocks picks
      have hprepared := h.prepareSchedule now blocks
      have hoffers := hprepared.offers hop
      simp only [ReschedOp.step]
      constructor
      · rw [hview]
        exact ((hprepared.putPrevTask c _).walkPick picks c forEachClass).contextSwitch c _
      · intro r hr
        have hcurr := congrArg RqView.curr hview
        have hcpu := congrFun (congrArg RqView.cpu hview) r
        have honRq := hoffers.onRunQueue (hcurr.symm.trans hr)
        exact hcpu.trans honRq.2

/-! ## Requests -/

/-- A request keeps a run queue noticed. -/
theorem RqView.Noticed.request {v : RqView n} (h : v.Noticed c) (b : Bool) :
    (v.request b).Noticed c := by
  intro p hp habove
  have hflag := h p hp habove
  simp [RqView.request, hflag]

theorem RqView.noticed_request_true (v : RqView n) : (v.request true).Noticed c := by
  intro p _ _
  simp [RqView.request]

/-- A wakeup that asks for a reschedule when the task is above the running one keeps
the run queue noticed. -/
theorem RqView.Noticed.wakeUp {v : RqView n} (h : v.Noticed c) {p : Pid} {b : Bool}
    (hb : schedClassAbove ((v.setOnRq p .queued).schedClass p)
      (v.setOnRq p .queued).currClass = true → b = true) :
    ((v.setOnRq p .queued).request b).Noticed c := by
  intro r hr habove
  by_cases hrp : r = p
  · subst hrp
    simp [RqView.request, hb habove]
  · have hold : v.OnRunQueue c r := by
      simpa [RqView.OnRunQueue, RqView.request, RqView.setOnRq, hrp] using hr
    have hflag := h r hold habove
    simp [RqView.request, RqView.setOnRq, hflag]

theorem RqView.currClass_of_curr {v : RqView n} {p : Pid} (hcurr : v.curr = some p) :
    v.currClass = v.schedClass p := by
  unfold RqView.currClass
  rw [hcurr]

/-- The class of the running task after a change of class. -/
theorem RqView.currClass_setClass (v : RqView n) (p : Pid) (cls : SchedClass) :
    (v.setClass p cls).currClass = if v.curr = some p then cls else v.currClass := by
  unfold RqView.currClass RqView.setClass
  cases v.curr with
  | none => simp
  | some r =>
      by_cases hrp : r = p
      · simp [hrp]
      · simp [hrp]

theorem RqView.setClass_self {v : RqView n} {p : Pid} {cls : SchedClass}
    (hclass : v.schedClass p = cls) : v.setClass p cls = v := by
  subst hclass
  simp [RqView.setClass]

theorem schedClassAbove_trans {a b c : SchedClass} (hab : schedClassAbove a b = true)
    (hbc : schedClassAbove b c = true) : schedClassAbove a c = true := by
  simp only [schedClassAbove, decide_eq_true_eq] at *
  omega

/-- Just the fair class lies between the classes above the cache-aware one and those
above the fair one. -/
theorem schedClassAbove_yatCasched_iff (cls : SchedClass) :
    schedClassAbove cls .yatCasched = true ↔ schedClassAbove cls .fair = true ∨ cls = .fair := by
  cases cls <;> decide

/-- A task that moves to the fair class is noticed if {lit}`switched_to_fair` asks for
a reschedule. -/
theorem RqView.Noticed.promote {v : RqView n} (h : v.Noticed c) {p : Pid} {requests : Bool}
    (hclass : v.schedClass p = .yatCasched)
    (hrequests : v.OnRunQueue c p →
      v.curr = some p ∨ schedClassAbove .fair v.currClass = true → requests = true) :
    ((v.setClass p .fair).request requests).Noticed c := by
  cases requests with
  | true => exact RqView.noticed_request_true _
  | false =>
      rw [RqView.request_false]
      intro r hr habove
      rw [RqView.currClass_setClass] at habove
      by_cases hrp : r = p
      · subst hrp
        simp only [RqView.setClass, Function.update_self] at habove
        exfalso
        split at habove
        · exact absurd habove (by decide)
        · exact absurd (hrequests hr (Or.inr habove)) (by decide)
      · simp only [RqView.setClass, Function.update_of_ne hrp] at habove
        apply h r hr
        split at habove
        · rename_i hcurr
          rw [RqView.currClass_of_curr hcurr, hclass]
          exact schedClassAbove_trans habove (by decide)
        · exact habove

/-- A fair task that moves to the cache-aware class is noticed unless it is running,
another fair task is queued, and no reschedule has been requested. -/
theorem RqView.Noticed.demote_iff {v : RqView n} (h : v.Noticed c) {p : Pid}
    (hclass : v.schedClass p = .fair) :
    (v.setClass p .yatCasched).Noticed c ↔
      ¬(v.curr = some p ∧ v.needResched = false ∧
        ∃ q, q ≠ p ∧ v.OnRunQueue c q ∧ v.schedClass q = .fair) := by
  constructor
  · rintro hnoticed ⟨hcurr, hflag, q, hqp, hq, hfair⟩
    have habove : schedClassAbove ((v.setClass p .yatCasched).schedClass q)
        (v.setClass p .yatCasched).currClass = true := by
      rw [RqView.currClass_setClass, if_pos hcurr]
      simp only [RqView.setClass, Function.update_of_ne hqp, hfair]
      decide
    have hset := hnoticed q hq habove
    rw [show (v.setClass p .yatCasched).needResched = v.needResched from rfl, hflag] at hset
    cases hset
  · intro hnot r hr habove
    show v.needResched = true
    rw [RqView.currClass_setClass] at habove
    by_cases hrp : r = p
    · subst hrp
      simp only [RqView.setClass, Function.update_self] at habove
      split at habove
      · exact absurd habove (by decide)
      · apply h r hr
        rw [hclass]
        exact schedClassAbove_trans (by decide) habove
    · simp only [RqView.setClass, Function.update_of_ne hrp] at habove
      split at habove
      · rename_i hcurr
        rcases (schedClassAbove_yatCasched_iff _).mp habove with habove | hfair
        · apply h r hr
          rw [RqView.currClass_of_curr hcurr, hclass]
          exact habove
        · by_contra hflag
          exact hnot ⟨hcurr, by simpa using hflag, r, hrp, hr, hfair⟩
      · exact h r hr habove

/-- A change of class keeps the run queue noticed exactly if it does not demote the
running task before another fair one. -/
theorem noticed_changeClass_iff {p : Pid} {cls : SchedClass} {requests : Bool}
    (h : Noticed c k) (hop : (ReschedOp.changeClass p cls requests).Legal c k) :
    Noticed c (changeClass k c p cls requests) ↔
      ¬(ReschedOp.changeClass p cls requests).DemotesCurrent c k := by
  rw [noticed_iff_view] at h
  rw [noticed_iff_view, rqView_changeClass]
  rcases hop with ⟨_, hold, hnew, hrequests⟩
  rcases hnew with rfl | rfl
  · have hnot : ¬(ReschedOp.changeClass p .fair requests).DemotesCurrent c k := by
      rintro ⟨_, _, hyat, _⟩
      cases hyat
    refine iff_of_true ?_ hnot
    rcases hold with hfair | hyat
    · rw [RqView.setClass_self hfair]
      exact h.request _
    · refine h.promote hyat fun hp hbelow => ?_
      rw [currClass_rqView] at hbelow
      exact hrequests rfl hyat hp hbelow
  · rw [if_pos rfl, RqView.request_false]
    rcases hold with hfair | hyat
    · rw [h.demote_iff hfair]
      refine not_congr ⟨?_, ?_⟩
      · rintro ⟨hcurr, hflag, hother⟩
        exact ⟨hcurr, hfair, rfl, hflag, hother⟩
      · rintro ⟨hcurr, _, _, hflag, hother⟩
        exact ⟨hcurr, hflag, hother⟩
    · rw [RqView.setClass_self hyat]
      refine iff_of_true h ?_
      rintro ⟨_, hfair, _⟩
      rw [show (k.task p).schedClass = .yatCasched from hyat] at hfair
      cases hfair

/-- A legal step keeps the run queue noticed exactly if it does not demote the running
task before another fair one. -/
theorem noticed_step_iff (c : Fin n) (k : System n) (op : ReschedOp) (hk : Consistent c k)
    (h : Noticed c k) (hop : op.Legal c k) :
    Noticed c (op.step c k) ↔ ¬op.DemotesCurrent c k := by
  cases op with
  | wakeUp p requests =>
      refine iff_of_true ?_ id
      rw [noticed_iff_view] at *
      rcases rqView_wakeupPreemptWith c (activateTask k c p) p requests with ⟨b, hview, hb⟩
      rw [rqView_activateTask] at hview hb
      simp only [ReschedOp.step]
      rw [hview]
      exact h.wakeUp hb
  | changeClass p cls requests => exact noticed_changeClass_iff h hop
  | schedulerTick now requests =>
      refine iff_of_true ?_ id
      rw [noticed_iff_view] at *
      rcases rqView_schedulerTick c k now requests with ⟨b, hview⟩
      simp only [ReschedOp.step]
      rw [hview]
      exact h.request b
  | schedule now blocks picks =>
      refine iff_of_true ?_ id
      rw [noticed_iff_view]
      simp only [ReschedOp.step]
      rw [rqView_schedule]
      exact ((hk.prepareSchedule now blocks).offers hop).noticed

/-! ## Runs -/

/-- A legal run from an idle run queue leaves no task overlooked in any state it
reaches exactly if none of its steps demotes the running task before another fair
one. -/
theorem noticed_throughout_iff (c : Fin n) (k₀ : System n)
    (hforked : ∀ p, Ring k₀.links (.runList p) [] ∧ (k₀.task p).onRq ≠ .queued)
    (hidle : (k₀.rq c).curr = none) (ops : List ReschedOp)
    (hlegal : Run.Guarded (ReschedOp.step c) (ReschedOp.Legal c) (initYatCaschedRqs k₀) ops) :
    Run.Throughout (ReschedOp.step c) (Noticed c) (initYatCaschedRqs k₀) ops ↔
      Run.Guarded (ReschedOp.step c) (fun k op => ¬op.DemotesCurrent c k)
        (initYatCaschedRqs k₀) ops := by
  have hoff : ∀ d p, ¬(rqView c (initYatCaschedRqs k₀)).OnRunQueue d p := by
    rintro d p ⟨hqueued, _⟩
    simp only [rqView, initYatCaschedRqs_task] at hqueued
    exact (hforked p).2 hqueued
  have hconsistent : Consistent c (initYatCaschedRqs k₀) := by
    constructor
    · refine ⟨fun _ => [], represents_initYatCaschedRqs fun p => (hforked p).1, ?_⟩
      intro d p
      exact iff_of_false List.not_mem_nil fun hp => hoff d p hp.1
    · intro p hp
      rcases initYatCaschedRqs_rq k₀ c with ⟨yat, hrq⟩
      rw [hrq, hidle] at hp
      cases hp
  have hnoticed : Noticed c (initYatCaschedRqs k₀) := by
    intro p hp
    exact absurd hp (hoff c p)
  exact Run.throughout_iff_guarded (consistent_step c) (noticed_step_iff c) hconsistent
    hnoticed hlegal

/-- A pick after a wakeup sees the classes from before. -/
theorem prepareSchedule_wakeUp_schedClass (c : Fin n) (k : System n) (p : Pid)
    (requests : Bool) (now : UInt64) (r : Pid) :
    ((prepareSchedule ((ReschedOp.wakeUp p requests).step c k) c now false).task r).schedClass =
      (k.task r).schedClass := by
  have hprepare : rqView c (prepareSchedule ((ReschedOp.wakeUp p requests).step c k) c now false) =
      rqView c ((ReschedOp.wakeUp p requests).step c k) := by
    unfold prepareSchedule
    dsimp only
    split
    · simp
    · simp
  rcases rqView_wakeupPreemptWith c (activateTask k c p) p requests with ⟨b, hview, _⟩
  rw [rqView_activateTask] at hview
  exact congrFun (congrArg RqView.schedClass (hprepare.trans hview)) r

/-- The task 7 of the class wakes up, runs, and moves to the fair class. -/
theorem noticed_throughout_promotion :
    Run.Throughout (ReschedOp.step 0) (Noticed 0) (initYatCaschedRqs (yatCaschedBootSystem 2))
      [.wakeUp 7 false, .schedule 0 false fun _ => none, .changeClass 7 .fair true] := by
  apply (noticed_throughout_iff 0 _ ?_ rfl _ ?_).mpr
  · refine ⟨id, id, ?_, trivial⟩
    rintro ⟨_, hfair, _⟩
    exact absurd hfair (by decide)
  · intro p
    exact ⟨⟨⟨rfl, rfl⟩, by simp⟩, by simp [yatCaschedBootSystem, initTask]⟩
  · refine ⟨⟨by decide, rfl⟩, ?_, ⟨rfl, Or.inr rfl, Or.inl rfl, fun _ _ _ _ => rfl⟩, trivial⟩
    intro cls hyat _ p _ hclass
    have hclass' := prepareSchedule_wakeUp_schedClass 0
      (initYatCaschedRqs (yatCaschedBootSystem 2)) 7 false 0 p
    rw [initYatCaschedRqs_task] at hclass'
    exact hyat (hclass.symm.trans hclass')

/-- Legal steps that overlook a task: of the fair tasks 7 and 8 the first runs, and
moves to the cache-aware class. -/
theorem overlooked_fairTask :
    Run.Guarded (ReschedOp.step 0) (ReschedOp.Legal 0) (initYatCaschedRqs (bootSystem 2))
        [.wakeUp 7 false, .schedule 0 false fun cls => if cls = .fair then some 7 else none,
          .wakeUp 8 false, .changeClass 7 .yatCasched false] ∧
      ¬Run.Throughout (ReschedOp.step 0) (Noticed 0) (initYatCaschedRqs (bootSystem 2))
        [.wakeUp 7 false, .schedule 0 false fun cls => if cls = .fair then some 7 else none,
          .wakeUp 8 false, .changeClass 7 .yatCasched false] := by
  constructor
  · refine ⟨⟨by decide, rfl⟩, ?_, ⟨by decide, rfl⟩, ⟨rfl, Or.inl rfl, Or.inr rfl, ?_⟩, trivial⟩
    · intro cls _ _
      by_cases hcls : cls = .fair
      · subst hcls
        exact ⟨⟨rfl, rfl⟩, rfl⟩
      · simp only [if_neg hcls]
        intro p _ hclass
        have hfair := prepareSchedule_wakeUp_schedClass 0
          (initYatCaschedRqs (bootSystem 2)) 7 false 0 p
        rw [initYatCaschedRqs_task] at hfair
        exact hcls (hclass.symm.trans hfair)
    · intro hfair
      cases hfair
  · intro h
    exact absurd (h.2.2.2.1 8 ⟨rfl, rfl⟩ rfl) (by decide)

end Kernel
end YatCasched
