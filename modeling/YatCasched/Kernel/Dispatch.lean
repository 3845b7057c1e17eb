import YatCasched.Kernel.Hooks

/-!
# Dispatch to the scheduling classes

The functions of {lit}`core.c` that call the hook of a task's class.  The hooks
of the real-time and the fair class are not part of the repository; they appear
through what the core scheduler relies on, their queues and counters.

Main results:

- Theorems {lit}`onlyAccounting_enqueueTask` to
  {lit}`onlyAccounting_wakeupPreempt`: outside of the queues, the dispatched
  hooks change run times and the data of the cache-aware class only.
- Theorem {lit}`onlyAccounting_requeue`: a change of a task between dequeue and
  enqueue has no other effect than the change.
-/

namespace YatCasched
namespace Kernel

open CircularList

variable {n : Nat}

/-! ## Dispatch -/

/-- {lit}`enqueue_task`: the hook of the task's class.  The real-time and the
fair hook queue the task and count it in {lit}`rq->nr_running`, the fair one
also in {lit}`h_nr_running`. -/
def enqueueTask (k : System n) (c : Fin n) (p : Pid) : System n :=
  match (k.task p).schedClass with
  | .rt =>
      k.updateRq c fun rq =>
        { rq with rtQueue := rq.rtQueue ++ [p], nrRunning := rq.nrRunning + 1 }
  | .fair =>
      k.updateRq c fun rq =>
        { rq with
          fairQueue := rq.fairQueue ++ [p]
          nrRunning := rq.nrRunning + 1
          cfsHNrRunning := rq.cfsHNrRunning + 1 }
  | .yatCasched => enqueueTaskYatCasched k c p
  | .stop | .dl | .idle => k

/-- {lit}`dequeue_task`: the hook of the task's class. -/
def dequeueTask (k : System n) (c : Fin n) (p : Pid) : System n :=
  match (k.task p).schedClass with
  | .rt =>
      k.updateRq c fun rq =>
        { rq with rtQueue := rq.rtQueue.erase p, nrRunning := rq.nrRunning - 1 }
  | .fair =>
      k.updateRq c fun rq =>
        { rq with
          fairQueue := rq.fairQueue.erase p
          nrRunning := rq.nrRunning - 1
          cfsHNrRunning := rq.cfsHNrRunning - 1 }
  | .yatCasched => dequeueTaskYatCasched k c p
  | .stop | .dl | .idle => k

/-- The class of a task that may be the idle task. -/
def prevClass (k : System n) : Option Pid → SchedClass
  | none => .idle
  | some p => (k.task p).schedClass

/-- {lit}`put_prev_task`.  Only the hook of the cache-aware class changes what
is modelled here. -/
def putPrevTask (k : System n) (c : Fin n) : Option Pid → System n
  | none => k
  | some p =>
      if (k.task p).schedClass = .yatCasched then putPrevTaskYatCasched k c p else k

/-- {lit}`set_next_task`.  Only the hook of the cache-aware class changes what
is modelled here. -/
def setNextTask (k : System n) (c : Fin n) (p : Pid) : System n :=
  if (k.task p).schedClass = .yatCasched then setNextTaskYatCasched k c p else k

/-- {lit}`wakeup_preempt`.  The hooks of the other classes can only ask for a
reschedule, which nothing modelled here reads. -/
def wakeupPreempt (k : System n) (c : Fin n) (p : Pid) : System n :=
  if (k.task p).schedClass = prevClass k (k.rq c).curr then
    if (k.task p).schedClass = .yatCasched then wakeupPreemptYatCasched k c p else k
  else if schedClassAbove (k.task p).schedClass (prevClass k (k.rq c).curr) then
    reschedCurr k c
  else
    k

/-- The context switch: the next task becomes {lit}`rq->curr` and the pending
reschedule is cleared. -/
def contextSwitch (k : System n) (c : Fin n) (next : Option Pid) : System n :=
  k.updateRq c fun rq => { rq with curr := next, needResched := false }

/-- A context switch changes no queue of the class. -/
@[simp]
theorem contextSwitch_yatCasched (k : System n) (c d : Fin n) (next : Option Pid) :
    ((contextSwitch k c next).rq d).yatCasched = (k.rq d).yatCasched :=
  System.updateRq_rq_apply k c d (fun rq => rq.yatCasched) fun _ => rfl

@[simp]
theorem contextSwitch_task (k : System n) (c : Fin n) (next : Option Pid) :
    (contextSwitch k c next).task = k.task :=
  rfl

@[simp]
theorem contextSwitch_links (k : System n) (c : Fin n) (next : Option Pid) :
    (contextSwitch k c next).links = k.links :=
  rfl

/-- Putting the previous task back changes no queue. -/
theorem putPrevTask_rq (k : System n) (c : Fin n) (prev : Option Pid) :
    (putPrevTask k c prev).rq = k.rq := by
  unfold putPrevTask
  split
  · rfl
  · split
    · exact updateCurrYatCasched_rq k c
    · rfl

theorem putPrevTask_links (k : System n) (c : Fin n) (prev : Option Pid) :
    (putPrevTask k c prev).links = k.links := by
  unfold putPrevTask
  split
  · rfl
  · split
    · exact updateCurrYatCasched_links k c
    · rfl

/-! ## Changing a task on its run queue -/

/-- {lit}`task_on_rq_queued`. -/
def taskOnRqQueued (k : System n) (p : Pid) : Bool :=
  (k.task p).onRq = .queued

/-- {lit}`task_current`, and {lit}`task_on_cpu`: the task is running. -/
def taskCurrent (k : System n) (p : Pid) : Bool :=
  (k.rq (k.task p).cpu).curr = some p

/-- The sequence in which the core scheduler changes what a class reads of a
task: dequeue, put, change, enqueue, set. -/
def requeue (k : System n) (p : Pid) (change : System n → System n) : System n :=
  let c := (k.task p).cpu
  let queued := taskOnRqQueued k p
  let running := taskCurrent k p
  let k := if queued then dequeueTask k c p else k
  let k := if running then putPrevTask k c (some p) else k
  let k := change k
  let k := if queued then enqueueTask k c p else k
  if running then setNextTask k c p else k

/-! ## Frames -/

/-- The second state differs from the first at most in run times, in the data
of the cache-aware class, in queues and counters, and in requested
reschedules. -/
structure OnlyAccounting (k k' : System n) : Prop where
  task : ∀ p, ∃ se yat, k'.task p = { k.task p with se := se, yatCasched := yat }
  curr : ∀ c, (k'.rq c).curr = (k.rq c).curr
  cpumask : k'.cpumask = k.cpumask
  cpuOnline : k'.cpuOnline = k.cpuOnline
  cpuActive : k'.cpuActive = k.cpuActive
  cpuDying : k'.cpuDying = k.cpuDying

namespace OnlyAccounting

theorem refl (k : System n) : OnlyAccounting k k where
  task := fun p => ⟨(k.task p).se, (k.task p).yatCasched, rfl⟩
  curr := fun _ => rfl
  cpumask := rfl
  cpuOnline := rfl
  cpuActive := rfl
  cpuDying := rfl

theorem trans {k k' k'' : System n} (h : OnlyAccounting k k') (h' : OnlyAccounting k' k'') :
    OnlyAccounting k k'' where
  task := fun p => by
    rcases h.task p with ⟨se, yat, hp⟩
    rcases h'.task p with ⟨se', yat', hp'⟩
    refine ⟨se', yat', ?_⟩
    rw [hp', hp]
  curr := fun c => (h'.curr c).trans (h.curr c)
  cpumask := h'.cpumask.trans h.cpumask
  cpuOnline := h'.cpuOnline.trans h.cpuOnline
  cpuActive := h'.cpuActive.trans h.cpuActive
  cpuDying := h'.cpuDying.trans h.cpuDying

/-- A component that does not depend on run times and class data is the same. -/
theorem apply {β : Type*} {k k' : System n} (h : OnlyAccounting k k') (p : Pid)
    (g : TaskStruct n → β)
    (hg : ∀ t se yat, g { t with se := se, yatCasched := yat } = g t) :
    g (k'.task p) = g (k.task p) := by
  rcases h.task p with ⟨se, yat, hp⟩
  rw [hp, hg]

/-- Assigning to run times and class data. -/
theorem updateTask (k : System n) (r : Pid) {f : TaskStruct n → TaskStruct n}
    (hf : ∀ t, ∃ se yat, f t = { t with se := se, yatCasched := yat }) :
    OnlyAccounting k (k.updateTask r f) where
  task := fun p => by
    by_cases hpr : p = r
    · subst hpr
      rw [System.updateTask_task_self]
      exact hf _
    · rw [System.updateTask_task_of_ne k hpr]
      exact (refl k).task p
  curr := fun _ => rfl
  cpumask := rfl
  cpuOnline := rfl
  cpuActive := rfl
  cpuDying := rfl

/-- Assigning to a run queue, {lit}`rq->curr` apart. -/
theorem updateRq (k : System n) (c : Fin n) {f : Rq n → Rq n}
    (hf : ∀ rq, (f rq).curr = rq.curr) : OnlyAccounting k (k.updateRq c f) where
  task := (refl k).task
  curr := fun d => System.updateRq_rq_apply k c d (fun rq => rq.curr) hf
  cpumask := rfl
  cpuOnline := rfl
  cpuActive := rfl
  cpuDying := rfl

/-- The same assignment to both states. -/
theorem updateBoth {k k' : System n} (h : OnlyAccounting k k') (p : Pid)
    {f f' : TaskStruct n → TaskStruct n}
    (hf : ∀ t se yat, ∃ se' yat',
      f' { t with se := se, yatCasched := yat } = { f t with se := se', yatCasched := yat' }) :
    OnlyAccounting (k.updateTask p f) (k'.updateTask p f') where
  task := fun q => by
    by_cases hqp : q = p
    · subst hqp
      rcases h.task q with ⟨se, yat, hq⟩
      rw [System.updateTask_task_self, System.updateTask_task_self, hq]
      exact hf _ se yat
    · rw [System.updateTask_task_of_ne k hqp, System.updateTask_task_of_ne k' hqp]
      exact h.task q
  curr := h.curr
  cpumask := h.cpumask
  cpuOnline := h.cpuOnline
  cpuActive := h.cpuActive
  cpuDying := h.cpuDying

/-- Relinking the lists. -/
theorem links (k : System n) (links : Links (ListNode n)) :
    OnlyAccounting k { k with links := links } where
  task := (refl k).task
  curr := fun _ => rfl
  cpumask := rfl
  cpuOnline := rfl
  cpuActive := rfl
  cpuDying := rfl

/-- A conditional call of a hook. -/
theorem ite {k k' : System n} (b : Bool) (h : OnlyAccounting k k') :
    OnlyAccounting k (if b then k' else k) := by
  cases b with
  | true => exact h
  | false => exact .refl k

end OnlyAccounting

theorem onlyAccounting_updateCurr (k : System n) (c : Fin n) :
    OnlyAccounting k (updateCurrYatCasched k c) := by
  unfold updateCurrYatCasched
  split
  · exact .refl k
  · split
    · exact .refl k
    · exact .updateTask k _ fun t => ⟨_, _, rfl⟩

theorem onlyAccounting_enqueueTask (k : System n) (c : Fin n) (p : Pid) :
    OnlyAccounting k (enqueueTask k c p) := by
  unfold enqueueTask
  split
  · exact .updateRq k c fun _ => rfl
  · exact .updateRq k c fun _ => rfl
  · simp only [enqueueTaskYatCasched]
    split
    · refine .trans (.trans (.links k _) (.updateTask _ p ?_))
        (.trans (.links _ _) (.updateRq _ c fun _ => rfl))
      exact fun t => ⟨_, _, rfl⟩
    · exact .trans (.links k _) (.updateRq _ c fun _ => rfl)
  · exact .refl k
  · exact .refl k
  · exact .refl k

theorem onlyAccounting_dequeueTask (k : System n) (c : Fin n) (p : Pid) :
    OnlyAccounting k (dequeueTask k c p) := by
  unfold dequeueTask
  split
  · exact .updateRq k c fun _ => rfl
  · exact .updateRq k c fun _ => rfl
  · simp only [dequeueTaskYatCasched]
    split
    · exact .trans (.links k _) (.updateRq _ c fun _ => rfl)
    · exact .refl k
  · exact .refl k
  · exact .refl k
  · exact .refl k

theorem onlyAccounting_putPrevTask (k : System n) (c : Fin n) (prev : Option Pid) :
    OnlyAccounting k (putPrevTask k c prev) := by
  unfold putPrevTask
  split
  · exact .refl k
  · split
    · exact onlyAccounting_updateCurr k c
    · exact .refl k

theorem onlyAccounting_setNextTask (k : System n) (c : Fin n) (p : Pid) :
    OnlyAccounting k (setNextTask k c p) := by
  unfold setNextTask
  split
  · exact .updateTask k p fun t => ⟨_, _, rfl⟩
  · exact .refl k

theorem onlyAccounting_reschedCurr (k : System n) (c : Fin n) :
    OnlyAccounting k (reschedCurr k c) := by
  unfold reschedCurr
  exact .updateRq k c fun _ => rfl

theorem onlyAccounting_wakeupPreempt (k : System n) (c : Fin n) (p : Pid) :
    OnlyAccounting k (wakeupPreempt k c p) := by
  unfold wakeupPreempt
  split
  · split
    · exact onlyAccounting_reschedCurr k c
    · exact .refl k
  · split
    · exact onlyAccounting_reschedCurr k c
    · exact .refl k

/-- The sequence has the effect of the change, and no other, if the change reads
nothing that accounting changes. -/
theorem onlyAccounting_requeue (k : System n) (p : Pid) {change : System n → System n}
    (hchange : ∀ k', OnlyAccounting k k' → OnlyAccounting (change k) (change k')) :
    OnlyAccounting (change k) (requeue k p change) := by
  unfold requeue
  dsimp only
  have hdequeue := OnlyAccounting.ite (taskOnRqQueued k p)
    (onlyAccounting_dequeueTask k (k.task p).cpu p)
  have hput := OnlyAccounting.ite (taskCurrent k p) (onlyAccounting_putPrevTask
    (if taskOnRqQueued k p then dequeueTask k (k.task p).cpu p else k) (k.task p).cpu (some p))
  apply OnlyAccounting.trans (hchange _ (hdequeue.trans hput))
  apply OnlyAccounting.trans (OnlyAccounting.ite (taskOnRqQueued k p)
    (onlyAccounting_enqueueTask _ (k.task p).cpu p))
  exact OnlyAccounting.ite (taskCurrent k p) (onlyAccounting_setNextTask _ (k.task p).cpu p)

end Kernel
end YatCasched
