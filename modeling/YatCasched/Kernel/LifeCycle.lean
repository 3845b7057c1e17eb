import YatCasched.Kernel.Wakeup
import YatCasched.Lib.QueueLife

/-!
# Machines and life cycles

A machine refines a life cycle of tasks if its run queues, lists and counters are the
queues of the life cycle, its wake lists are the inboxes, and {lit}`p->on_rq` and
{lit}`p->cpu` say where every task is.  The classes whose queues are not modelled have
queues in the life cycle only.

Main results:

- Theorem {lit}`QueuesAre.enqueueTask` and {lit}`QueuesAre.dequeueTask`: the hooks do to
  the queues what the life cycle does.
- Theorem {lit}`Refines.updateTask`: which assignments to a task keep the relation.
-/

namespace YatCasched
namespace Kernel

open CircularList QueueLife

variable {n : Nat}

/-- The life cycles of the tasks of a machine. -/
abbrev TaskLife (n : Nat) := Life (Fin n) Pid SchedClass

/-! ## The relation -/

/-- What the class has recorded of a task is out of date, or is the CPU. -/
def RecordedAt (t : TaskStruct n) (c : Fin n) : Prop :=
  t.yatCasched.lastCpu = -1 ∨ t.yatCasched.lastCpu = (c : Nat)

/-- What the real-time and the fair class keep queued. -/
def Rq.queueOf (rq : Rq n) : SchedClass → List Pid
  | .rt => rq.rtQueue
  | .fair => rq.fairQueue
  | _ => []

/-- The run queues hold the queues of the life cycle. -/
structure QueuesAre (k : System n) (s : TaskLife n) : Prop where
  cls : ∀ p, (k.task p).schedClass = s.cls p
  curr : ∀ c, (k.rq c).curr = s.curr c
  queue : ∀ c cls, cls = .rt ∨ cls = .fair → (k.rq c).queueOf cls = s.queue (c, cls)
  yatQueue : Represents k fun c => s.queue (c, .yatCasched)
  counted : ∀ c, CountedRq (fun p => (k.task p).schedClass) (k.rq c)
  recorded : ∀ p c, s.place p = .queued c → s.cls p = .yatCasched → RecordedAt (k.task p) c

/-- The tasks are where the life cycle says. -/
structure PlacesAre (k : System n) (s : TaskLife n) : Prop where
  queued : ∀ p c, s.place p = .queued c ↔ (k.task p).onRq = .queued ∧ (k.task p).cpu = c
  pending : ∀ p c, s.place p = .pending c → (k.task p).state = .waking ∧ (k.task p).cpu = c

/-- The machine refines the life cycle, which is sound. -/
structure Refines (m : Machine n) (s : TaskLife n) : Prop where
  sound : s.Sound
  queues : QueuesAre m.kernel s
  places : PlacesAre m.kernel s
  inbox : s.inbox = m.wakeList

/-! ## Frames -/

/-- What the relation reads of a task. -/
structure LifeTask (n : Nat) where
  onRq : OnRq
  cpu : Fin n
  state : TaskState
  schedClass : SchedClass
  lastCpu : Int

/-- The view of a task. -/
def TaskStruct.life (t : TaskStruct n) : LifeTask n where
  onRq := t.onRq
  cpu := t.cpu
  state := t.state
  schedClass := t.schedClass
  lastCpu := t.yatCasched.lastCpu

/-- What the relation reads of a run queue. -/
structure LifeRq where
  nrRunning : UInt32
  cfsHNrRunning : UInt32
  rtQueue : List Pid
  fairQueue : List Pid
  yatNrRunning : UInt32
  curr : Option Pid

/-- The view of a run queue. -/
def Rq.life (rq : Rq n) : LifeRq where
  nrRunning := rq.nrRunning
  cfsHNrRunning := rq.cfsHNrRunning
  rtQueue := rq.rtQueue
  fairQueue := rq.fairQueue
  yatNrRunning := rq.yatCasched.nrRunning
  curr := rq.curr

/-- The relation does not tell the states apart. -/
structure SameLife (k k' : System n) : Prop where
  task : ∀ p, (k'.task p).life = (k.task p).life
  rq : ∀ c, (k'.rq c).life = (k.rq c).life
  links : k'.links = k.links

namespace SameLife

theorem refl (k : System n) : SameLife k k :=
  ⟨fun _ => rfl, fun _ => rfl, rfl⟩

theorem trans {k k' k'' : System n} (h : SameLife k k') (h' : SameLife k' k'') :
    SameLife k k'' :=
  ⟨fun p => (h'.task p).trans (h.task p), fun c => (h'.rq c).trans (h.rq c),
    h'.links.trans h.links⟩

/-- Assigning to the other fields of a task. -/
theorem updateTask (k : System n) (p : Pid) {f : TaskStruct n → TaskStruct n}
    (hf : ∀ t, (f t).life = t.life) : SameLife k (k.updateTask p f) :=
  ⟨fun q => System.updateTask_task_apply k p q TaskStruct.life hf, fun _ => rfl, rfl⟩

/-- Assigning to the other fields of a run queue. -/
theorem updateRq (k : System n) (c : Fin n) {f : Rq n → Rq n}
    (hf : ∀ rq, (f rq).life = rq.life) : SameLife k (k.updateRq c f) :=
  ⟨fun _ => rfl, fun d => System.updateRq_rq_apply k c d Rq.life hf, rfl⟩

theorem updateRqClock (k : System n) (c : Fin n) (now : UInt64) :
    SameLife k (updateRqClock k c now) :=
  .updateRq k c fun _ => rfl

theorem reschedCurr (k : System n) (c : Fin n) : SameLife k (reschedCurr k c) :=
  .updateRq k c fun _ => rfl

theorem updateCurrYatCasched (k : System n) (c : Fin n) :
    SameLife k (updateCurrYatCasched k c) := by
  unfold Kernel.updateCurrYatCasched
  split
  · exact .refl k
  · split
    · exact .refl k
    · exact .updateTask k _ fun _ => rfl

theorem putPrevTask (k : System n) (c : Fin n) (prev : Option Pid) :
    SameLife k (putPrevTask k c prev) := by
  unfold Kernel.putPrevTask
  split
  · exact .refl k
  · split
    · exact .updateCurrYatCasched k c
    · exact .refl k

theorem setNextTask (k : System n) (c : Fin n) (p : Pid) : SameLife k (setNextTask k c p) := by
  unfold Kernel.setNextTask
  split
  · exact .updateTask k p fun _ => rfl
  · exact .refl k

theorem wakeupPreempt (k : System n) (c : Fin n) (p : Pid) :
    SameLife k (wakeupPreempt k c p) := by
  unfold Kernel.wakeupPreempt
  split
  · split
    · exact .reschedCurr k c
    · exact .refl k
  · split
    · exact .reschedCurr k c
    · exact .refl k

theorem otherHook (k : System n) (c : Fin n) (requests : Bool) :
    SameLife k (otherHook k c requests) := by
  unfold Kernel.otherHook
  split
  · exact .reschedCurr k c
  · exact .refl k

theorem schedulerTick (k : System n) (c : Fin n) (now : UInt64) (requests : Bool) :
    SameLife k (schedulerTick k c now requests) := by
  unfold Kernel.schedulerTick
  dsimp only
  refine .trans (.updateRqClock k c now) ?_
  split
  · exact .refl _
  · split
    · unfold taskTickYatCasched
      dsimp only
      refine .trans (.updateCurrYatCasched _ c) ?_
      split
      · refine .trans (.updateTask _ _ ?_) (.reschedCurr _ c)
        exact fun _ => rfl
      · exact .refl _
    · exact .otherHook _ c requests

/-- A conditional step. -/
theorem ite {k k' : System n} (b : Bool) (h : SameLife k k') :
    SameLife k (if b then k' else k) := by
  cases b with
  | true => exact h
  | false => exact .refl k

end SameLife

variable {k k' : System n} {s : TaskLife n} {p : Pid} {c : Fin n}

theorem QueuesAre.congr (h : QueuesAre k s) (hsame : SameLife k k') : QueuesAre k' s where
  cls := fun p => (congrArg LifeTask.schedClass (hsame.task p)).trans (h.cls p)
  curr := fun c => (congrArg LifeRq.curr (hsame.rq c)).trans (h.curr c)
  queue := fun c cls hcls => by
    rw [← h.queue c cls hcls]
    rcases hcls with rfl | rfl
    · exact congrArg LifeRq.rtQueue (hsame.rq c)
    · exact congrArg LifeRq.fairQueue (hsame.rq c)
  yatQueue := h.yatQueue.congr hsame.links fun c =>
    congrArg LifeRq.yatNrRunning (hsame.rq c)
  counted := fun c => (h.counted c).congr
    (funext fun p => congrArg LifeTask.schedClass (hsame.task p))
    (congrArg LifeRq.rtQueue (hsame.rq c)) (congrArg LifeRq.fairQueue (hsame.rq c))
    (congrArg LifeRq.nrRunning (hsame.rq c)) (congrArg LifeRq.cfsHNrRunning (hsame.rq c))
  recorded := fun p c hp hcls => by
    have hlast : (k'.task p).yatCasched.lastCpu = (k.task p).yatCasched.lastCpu :=
      congrArg LifeTask.lastCpu (hsame.task p)
    unfold RecordedAt
    rw [hlast]
    exact h.recorded p c hp hcls

/-- Only these fields of the tasks matter to their places. -/
theorem PlacesAre.congr (h : PlacesAre k s) {s' : TaskLife n} (hplace : s'.place = s.place)
    (hsame : ∀ p, (k'.task p).onRq = (k.task p).onRq ∧ (k'.task p).cpu = (k.task p).cpu ∧
      (k'.task p).state = (k.task p).state) : PlacesAre k' s' := by
  constructor
  · intro p c
    rcases hsame p with ⟨honRq, hcpu, _⟩
    rw [hplace, honRq, hcpu]
    exact h.queued p c
  · intro p c hp
    rcases hsame p with ⟨_, hcpu, hstate⟩
    rw [hcpu, hstate]
    exact h.pending p c (hplace ▸ hp)

theorem Refines.congr {w : Fin n → List Pid} (h : Refines ⟨k, w⟩ s) (hsame : SameLife k k') :
    Refines ⟨k', w⟩ s where
  sound := h.sound
  queues := h.queues.congr hsame
  places := h.places.congr rfl fun p =>
    ⟨congrArg LifeTask.onRq (hsame.task p), congrArg LifeTask.cpu (hsame.task p),
      congrArg LifeTask.state (hsame.task p)⟩
  inbox := h.inbox

/-! ## Queues -/

theorem enqueueTask_task_of_ne (k : System n) (c : Fin n) {p q : Pid} (hqp : q ≠ p) :
    (enqueueTask k c p).task q = k.task q := by
  unfold enqueueTask
  split
  · rfl
  · rfl
  · simp only [enqueueTaskYatCasched, System.updateRq_task]
    split
    · exact System.updateTask_task_of_ne _ hqp _
    · rfl
  · rfl
  · rfl
  · rfl

theorem dequeueTask_task (k : System n) (c : Fin n) (p : Pid) :
    (dequeueTask k c p).task = k.task := by
  unfold dequeueTask dequeueTaskYatCasched
  split
  · rfl
  · rfl
  · split
    · rfl
    · rfl
  · rfl
  · rfl
  · rfl

/-- The queue of a class after an enqueue. -/
theorem enqueueTask_queueOf (k : System n) (c d : Fin n) (p : Pid) {cls : SchedClass}
    (hcls : cls = .rt ∨ cls = .fair) :
    ((enqueueTask k c p).rq d).queueOf cls =
      if d = c ∧ cls = (k.task p).schedClass then (k.rq d).queueOf cls ++ [p]
      else (k.rq d).queueOf cls := by
  unfold enqueueTask
  by_cases hdc : d = c
  · subst hdc
    cases hclass : (k.task p).schedClass with
    | yatCasched =>
        rcases enqueueTaskYatCasched_rq k d d p with ⟨yat, hd⟩
        rcases hcls with rfl | rfl <;> simp [Rq.queueOf, hd]
    | _ => rcases hcls with rfl | rfl <;> simp [Rq.queueOf]
  · cases hclass : (k.task p).schedClass with
    | yatCasched =>
        rcases enqueueTaskYatCasched_rq k c d p with ⟨yat, hd⟩
        rcases hcls with rfl | rfl <;> simp [Rq.queueOf, hd]
    | _ => simp [hdc]

/-- The queue of a class after a dequeue. -/
theorem dequeueTask_queueOf (k : System n) (c d : Fin n) (p : Pid) {cls : SchedClass}
    (hcls : cls = .rt ∨ cls = .fair) :
    ((dequeueTask k c p).rq d).queueOf cls =
      if d = c ∧ cls = (k.task p).schedClass then ((k.rq d).queueOf cls).erase p
      else (k.rq d).queueOf cls := by
  unfold dequeueTask
  by_cases hdc : d = c
  · subst hdc
    cases hclass : (k.task p).schedClass with
    | yatCasched =>
        rcases dequeueTaskYatCasched_rq k d d p with ⟨yat, hd⟩
        rcases hcls with rfl | rfl <;> simp [Rq.queueOf, hd]
    | _ => rcases hcls with rfl | rfl <;> simp [Rq.queueOf]
  · cases hclass : (k.task p).schedClass with
    | yatCasched =>
        rcases dequeueTaskYatCasched_rq k c d p with ⟨yat, hd⟩
        rcases hcls with rfl | rfl <;> simp [Rq.queueOf, hd]
    | _ => simp [hdc]

/-- The counters of the run queues and the queues of the class. -/
theorem QueuesAre.toCounted (h : QueuesAre k s) : Counted k :=
  ⟨⟨_, h.yatQueue⟩, h.counted⟩

/-- The classes and the current tasks are not changed by accounting. -/
theorem QueuesAre.cls_of_onlyAccounting (h : QueuesAre k s) (honly : OnlyAccounting k k')
    (q : Pid) : (k'.task q).schedClass = s.cls q :=
  (honly.apply q (fun t => t.schedClass) fun _ _ _ => rfl).trans (h.cls q)

/-- The hook of a class whose queue is not modelled. -/
theorem enqueueTask_ghost (k : System n) (c : Fin n) {p : Pid}
    (hrt : (k.task p).schedClass ≠ .rt) (hfair : (k.task p).schedClass ≠ .fair)
    (hyat : (k.task p).schedClass ≠ .yatCasched) : enqueueTask k c p = k := by
  unfold enqueueTask
  split
  · rename_i hclass
    exact (hrt hclass).elim
  · rename_i hclass
    exact (hfair hclass).elim
  · rename_i hclass
    exact (hyat hclass).elim
  · rfl
  · rfl
  · rfl

/-- The hook of a class whose queue is not modelled. -/
theorem dequeueTask_ghost (k : System n) (c : Fin n) {p : Pid}
    (hrt : (k.task p).schedClass ≠ .rt) (hfair : (k.task p).schedClass ≠ .fair)
    (hyat : (k.task p).schedClass ≠ .yatCasched) : dequeueTask k c p = k := by
  unfold dequeueTask
  split
  · rename_i hclass
    exact (hrt hclass).elim
  · rename_i hclass
    exact (hfair hclass).elim
  · rename_i hclass
    exact (hyat hclass).elim
  · rfl
  · rfl
  · rfl

/-- The hook of another class keeps the queues of this one. -/
theorem enqueueTask_represents {q : Fin n → List Pid} (hq : Represents k q) (c : Fin n)
    (hclass : (k.task p).schedClass ≠ .yatCasched) : Represents (enqueueTask k c p) q := by
  apply hq.congr
  · unfold enqueueTask
    split
    · rfl
    · rfl
    · rename_i h
      exact (hclass h).elim
    · rfl
    · rfl
    · rfl
  · intro d
    unfold enqueueTask
    split
    · exact System.updateRq_rq_apply k c d (fun rq => rq.yatCasched.nrRunning) fun _ => rfl
    · exact System.updateRq_rq_apply k c d (fun rq => rq.yatCasched.nrRunning) fun _ => rfl
    · rename_i h
      exact (hclass h).elim
    · rfl
    · rfl
    · rfl

/-- The hook of another class keeps the queues of this one. -/
theorem dequeueTask_represents {q : Fin n → List Pid} (hq : Represents k q) (c : Fin n)
    (hclass : (k.task p).schedClass ≠ .yatCasched) : Represents (dequeueTask k c p) q := by
  apply hq.congr
  · unfold dequeueTask
    split
    · rfl
    · rfl
    · rename_i h
      exact (hclass h).elim
    · rfl
    · rfl
    · rfl
  · intro d
    unfold dequeueTask
    split
    · exact System.updateRq_rq_apply k c d (fun rq => rq.yatCasched.nrRunning) fun _ => rfl
    · exact System.updateRq_rq_apply k c d (fun rq => rq.yatCasched.nrRunning) fun _ => rfl
    · rename_i h
      exact (hclass h).elim
    · rfl
    · rfl
    · rfl

/-- An enqueue of a task that is on no queue forgets its last CPU. -/
theorem enqueueTask_lastCpu {q : Fin n → List Pid} (hq : Represents k q) (c : Fin n)
    (hclass : (k.task p).schedClass = .yatCasched) (hp : ∀ d, p ∉ q d) :
    ((enqueueTask k c p).task p).yatCasched.lastCpu = -1 := by
  have hempty := (hq.listEmpty_runList_iff p).mpr hp
  unfold enqueueTask
  rw [hclass]
  simp [enqueueTaskYatCasched, hempty]

/-- The hook does to the queues what the life cycle does. -/
theorem QueuesAre.enqueueTask (h : QueuesAre k s) (hs : s.Filed)
    (hp : ∀ d, s.place p ≠ .queued d) (c : Fin n) :
    QueuesAre (enqueueTask k c p) (s.enqueue p c) := by
  have honly := onlyAccounting_enqueueTask k c p
  have hfree : ∀ d cls, p ∉ s.queue (d, cls) := by
    intro d cls hmem
    exact hp d ((hs.mem_queue p d cls).mp hmem).1
  constructor
  case cls => exact h.cls_of_onlyAccounting honly
  case curr => exact fun d => (honly.curr d).trans (h.curr d)
  case queue =>
    intro d cls hcls
    rw [enqueueTask_queueOf k c d p hcls, h.queue d cls hcls, h.cls p, enqueue_queue]
  case yatQueue =>
    by_cases hclass : (k.task p).schedClass = .yatCasched
    · have hqueue : (fun d => (s.enqueue p c).queue (d, .yatCasched)) =
          Function.update (fun d => s.queue (d, .yatCasched)) c
            (s.queue (c, .yatCasched) ++ [p]) := by
        ext1 d
        rw [enqueue_queue, ← h.cls p, hclass, Function.update_apply]
        by_cases hdc : d = c
        · subst hdc
          simp
        · simp [hdc]
      rw [hqueue]
      unfold Kernel.enqueueTask
      rw [hclass]
      exact h.yatQueue.enqueue c fun d => hfree d .yatCasched
    · have hqueue : (fun d => (s.enqueue p c).queue (d, .yatCasched)) =
          fun d => s.queue (d, .yatCasched) := by
        ext1 d
        rw [enqueue_queue, ← h.cls p, if_neg]
        exact fun heq => hclass heq.2.symm
      rw [hqueue]
      exact enqueueTask_represents h.yatQueue c hclass
  case counted =>
    by_cases hghost : (k.task p).schedClass ≠ .rt ∧ (k.task p).schedClass ≠ .fair ∧
        (k.task p).schedClass ≠ .yatCasched
    · rw [enqueueTask_ghost k c hghost.1 hghost.2.1 hghost.2.2]
      exact h.counted
    · suffices hlegal : (QueueCall.enqueue c p).Legal k from (h.toCounted.step hlegal).counted
      unfold QueueCall.Legal
      dsimp only
      split
      · intro d
        rw [show (k.rq d).rtQueue = _ from h.queue d .rt (Or.inl rfl)]
        exact hfree d .rt
      · intro d
        rw [show (k.rq d).fairQueue = _ from h.queue d .fair (Or.inr rfl)]
        exact hfree d .fair
      · intro d
        rw [h.yatQueue.queued_iff]
        exact hfree d .yatCasched
      all_goals
        rename_i hclass
        rw [hclass] at hghost
        simp at hghost
  case recorded =>
    intro q d hplace hcls
    by_cases hqp : q = p
    · subst hqp
      exact Or.inl (enqueueTask_lastCpu h.yatQueue c ((h.cls q).trans hcls)
        fun d => hfree d .yatCasched)
    · rw [enqueueTask_task_of_ne k c hqp]
      exact h.recorded q d ((Function.update_of_ne hqp _ _).symm.trans hplace) hcls

/-- So does the hook that takes a task off. -/
theorem QueuesAre.dequeueTask (h : QueuesAre k s) (hs : s.Filed)
    (hp : s.place p = .queued c) : QueuesAre (dequeueTask k c p) (s.dequeue p) := by
  have honly := onlyAccounting_dequeueTask k c p
  have hmem : p ∈ s.queue (c, s.cls p) := (hs.mem_queue p c (s.cls p)).mpr ⟨hp, rfl⟩
  constructor
  case cls =>
    intro q
    rw [dequeue_cls]
    exact h.cls_of_onlyAccounting honly q
  case curr =>
    intro d
    rw [dequeue_curr]
    exact (honly.curr d).trans (h.curr d)
  case queue =>
    intro d cls hcls
    rw [dequeueTask_queueOf k c d p hcls, h.queue d cls hcls, h.cls p, dequeue_queue hp]
  case yatQueue =>
    by_cases hclass : (k.task p).schedClass = .yatCasched
    · have hqueue : (fun d => (s.dequeue p).queue (d, .yatCasched)) =
          Function.update (fun d => s.queue (d, .yatCasched)) c
            ((s.queue (c, .yatCasched)).erase p) := by
        ext1 d
        rw [dequeue_queue hp, ← h.cls p, hclass, Function.update_apply]
        by_cases hdc : d = c
        · subst hdc
          simp
        · simp [hdc]
      rw [hqueue]
      unfold Kernel.dequeueTask
      rw [hclass]
      rw [← h.cls p, hclass] at hmem
      exact h.yatQueue.dequeue hmem
    · have hqueue : (fun d => (s.dequeue p).queue (d, .yatCasched)) =
          fun d => s.queue (d, .yatCasched) := by
        ext1 d
        rw [dequeue_queue hp, ← h.cls p, if_neg]
        exact fun heq => hclass heq.2.symm
      rw [hqueue]
      exact dequeueTask_represents h.yatQueue c hclass
  case counted =>
    by_cases hghost : (k.task p).schedClass ≠ .rt ∧ (k.task p).schedClass ≠ .fair ∧
        (k.task p).schedClass ≠ .yatCasched
    · rw [dequeueTask_ghost k c hghost.1 hghost.2.1 hghost.2.2]
      exact h.counted
    · suffices hlegal : (QueueCall.dequeue c p).Legal k from (h.toCounted.step hlegal).counted
      rw [← h.cls p] at hmem
      unfold QueueCall.Legal
      dsimp only
      split
      · rename_i hclass
        rw [show (k.rq c).rtQueue = _ from h.queue c .rt (Or.inl rfl)]
        rwa [hclass] at hmem
      · rename_i hclass
        rw [show (k.rq c).fairQueue = _ from h.queue c .fair (Or.inr rfl)]
        rwa [hclass] at hmem
      · rename_i hclass
        rw [hclass] at hmem
        intro d hd
        rw [h.yatQueue.queued_iff] at hd
        exact h.yatQueue.disjoint d c p hd hmem
      all_goals
        rename_i hclass
        rw [hclass] at hghost
        simp at hghost
  case recorded =>
    intro q d hplace hcls
    rw [dequeueTask_task]
    have hqp : q ≠ p := by
      rintro rfl
      rw [dequeue_place_self hp] at hplace
      cases hplace
    rw [dequeue_place_of_ne s hqp] at hplace
    rw [dequeue_cls] at hcls
    exact h.recorded q d hplace hcls

/-- An assignment to a task that is on no queue can change its class. -/
theorem QueuesAre.recast (h : QueuesAre k s) (hs : s.Filed)
    (hp : ∀ d, s.place p ≠ .queued d) (f : TaskStruct n → TaskStruct n) :
    QueuesAre (k.updateTask p f) (s.recast p (f (k.task p)).schedClass) := by
  have hfree : ∀ d cls, p ∉ s.queue (d, cls) := by
    intro d cls hmem
    exact hp d ((hs.mem_queue p d cls).mp hmem).1
  constructor
  case cls =>
    intro q
    show _ = Function.update s.cls p _ q
    by_cases hqp : q = p
    · subst hqp
      rw [System.updateTask_task_self, Function.update_self]
    · rw [System.updateTask_task_of_ne k hqp, Function.update_of_ne hqp]
      exact h.cls q
  case curr => exact h.curr
  case queue => exact h.queue
  case yatQueue => exact h.yatQueue.congr rfl fun _ => rfl
  case counted =>
    intro d
    have hne : ∀ {cls : SchedClass}, cls = .rt ∨ cls = .fair →
        ∀ r ∈ (k.rq d).queueOf cls, r ≠ p := by
      rintro cls hcls r hr rfl
      rw [h.queue d cls hcls] at hr
      exact hfree d cls hr
    have hcount := h.counted d
    constructor
    · intro r hr
      rw [System.updateTask_task_of_ne k (hne (Or.inl rfl) r hr)]
      exact hcount.rt_class r hr
    · intro r hr
      rw [System.updateTask_task_of_ne k (hne (Or.inr rfl) r hr)]
      exact hcount.fair_class r hr
    · exact hcount.rt_nodup
    · exact hcount.fair_nodup
    · exact hcount.nrRunning
    · exact hcount.cfsHNrRunning
  case recorded =>
    intro q d hplace hcls
    have hqp : q ≠ p := by
      rintro rfl
      exact hp d hplace
    rw [System.updateTask_task_of_ne k hqp]
    exact h.recorded q d hplace ((Function.update_of_ne hqp _ _).symm.trans hcls)

/-- One that keeps the class keeps the queues, if what it records is right. -/
theorem QueuesAre.updateTask (h : QueuesAre k s) {f : TaskStruct n → TaskStruct n}
    (hcls : (f (k.task p)).schedClass = (k.task p).schedClass)
    (hrecorded : ∀ d, s.place p = .queued d → s.cls p = .yatCasched →
      RecordedAt (f (k.task p)) d) : QueuesAre (k.updateTask p f) s := by
  have hsame : ∀ q, ((k.updateTask p f).task q).schedClass = (k.task q).schedClass :=
    fun q => updateTask_schedClass k p q f hcls
  constructor
  case cls => exact fun q => (hsame q).trans (h.cls q)
  case curr => exact h.curr
  case queue => exact h.queue
  case yatQueue => exact h.yatQueue.congr rfl fun _ => rfl
  case counted => exact fun d => (h.counted d).congr (funext hsame) rfl rfl rfl rfl
  case recorded =>
    intro q d hplace hclass
    by_cases hqp : q = p
    · subst hqp
      rw [System.updateTask_task_self]
      exact hrecorded d hplace hclass
    · rw [System.updateTask_task_of_ne k hqp]
      exact h.recorded q d hplace hclass

/-- An assignment that keeps class and record. -/
theorem QueuesAre.updateTask_of_same (h : QueuesAre k s) {f : TaskStruct n → TaskStruct n}
    (hcls : (f (k.task p)).schedClass = (k.task p).schedClass)
    (hlast : (f (k.task p)).yatCasched.lastCpu = (k.task p).yatCasched.lastCpu) :
    QueuesAre (k.updateTask p f) s := by
  apply h.updateTask hcls
  intro d hplace hclass
  unfold RecordedAt
  rw [hlast]
  exact h.recorded p d hplace hclass

/-- A switch to another task. -/
theorem QueuesAre.contextSwitch (h : QueuesAre k s) (c : Fin n) (next : Option Pid) :
    QueuesAre (contextSwitch k c next) { s with curr := Function.update s.curr c next } := by
  have hrq : ∀ {β : Type} (d : Fin n) (g : Rq n → β),
      (∀ rq, g { rq with curr := next, needResched := false } = g rq) →
      g ((Kernel.contextSwitch k c next).rq d) = g (k.rq d) := by
    intro β d g hg
    exact System.updateRq_rq_apply k c d g hg
  constructor
  case cls => exact h.cls
  case curr =>
    intro d
    by_cases hdc : d = c
    · subst hdc
      simp [Kernel.contextSwitch]
    · rw [show (Kernel.contextSwitch k c next).rq d = k.rq d from
        System.updateRq_rq_of_ne k hdc _]
      exact (h.curr d).trans (Function.update_of_ne hdc _ _).symm
  case queue =>
    intro d cls hcls
    rw [hrq d (fun rq => rq.queueOf cls) fun _ => by rcases hcls with rfl | rfl <;> rfl]
    exact h.queue d cls hcls
  case yatQueue =>
    exact h.yatQueue.congr rfl fun d => hrq d (fun rq => rq.yatCasched.nrRunning) fun _ => rfl
  case counted =>
    intro d
    exact (h.counted d).congr rfl (hrq d Rq.rtQueue fun _ => rfl)
      (hrq d Rq.fairQueue fun _ => rfl) (hrq d Rq.nrRunning fun _ => rfl)
      (hrq d Rq.cfsHNrRunning fun _ => rfl)
  case recorded => exact h.recorded

/-! ## Places -/

/-- One task has moved, the others are where they were. -/
theorem PlacesAre.move (h : PlacesAre k s) {s' : TaskLife n}
    (hother : ∀ q, q ≠ p → s'.place q = s.place q ∧ (k'.task q).onRq = (k.task q).onRq ∧
      (k'.task q).cpu = (k.task q).cpu ∧ (k'.task q).state = (k.task q).state)
    (hqueued : ∀ d, s'.place p = .queued d ↔
      (k'.task p).onRq = .queued ∧ (k'.task p).cpu = d)
    (hpending : ∀ d, s'.place p = .pending d →
      (k'.task p).state = .waking ∧ (k'.task p).cpu = d) : PlacesAre k' s' := by
  constructor
  · intro q d
    by_cases hqp : q = p
    · subst hqp
      exact hqueued d
    · rcases hother q hqp with ⟨hplace, honRq, hcpu, _⟩
      rw [hplace, honRq, hcpu]
      exact h.queued q d
  · intro q d hq
    by_cases hqp : q = p
    · subst hqp
      exact hpending d hq
    · rcases hother q hqp with ⟨hplace, _, hcpu, hstate⟩
      rw [hcpu, hstate]
      exact h.pending q d (hplace ▸ hq)

/-- Accounting moves no task. -/
theorem OnlyAccounting.samePlace (h : OnlyAccounting k k') (q : Pid) :
    (k'.task q).onRq = (k.task q).onRq ∧ (k'.task q).cpu = (k.task q).cpu ∧
      (k'.task q).state = (k.task q).state :=
  ⟨h.apply q (fun t => t.onRq) fun _ _ _ => rfl, h.apply q (fun t => t.cpu) fun _ _ _ => rfl,
    h.apply q (fun t => t.state) fun _ _ _ => rfl⟩

variable {w : Fin n → List Pid}

/-- A runnable task is queued in the life cycle. -/
theorem Refines.place_queued (h : Refines ⟨k, w⟩ s) (hp : (k.task p).onRq = .queued) :
    s.place p = .queued (k.task p).cpu :=
  (h.places.queued p _).mpr ⟨hp, rfl⟩

/-- A task that is not runnable is not. -/
theorem Refines.place_ne_queued (h : Refines ⟨k, w⟩ s) (hp : (k.task p).onRq ≠ .queued)
    (d : Fin n) : s.place p ≠ .queued d := by
  intro hplace
  exact hp ((h.places.queued p d).mp hplace).1

/-- A task that is not waking is not on its way. -/
theorem Refines.place_ne_pending (h : Refines ⟨k, w⟩ s) (hp : (k.task p).state ≠ .waking)
    (d : Fin n) : s.place p ≠ .pending d := by
  intro hplace
  exact hp (h.places.pending p d hplace).1

/-- A task that is neither sleeps. -/
theorem Refines.place_asleep (h : Refines ⟨k, w⟩ s) (hqueued : (k.task p).onRq ≠ .queued)
    (hwaking : (k.task p).state ≠ .waking) : s.place p = .asleep := by
  cases hplace : s.place p with
  | asleep => rfl
  | pending d => exact (h.place_ne_pending hwaking d hplace).elim
  | queued d => exact (h.place_ne_queued hqueued d hplace).elim

/-- The task a CPU runs is runnable there. -/
theorem Refines.of_curr (h : Refines ⟨k, w⟩ s) (hp : (k.rq c).curr = some p) :
    (k.task p).onRq = .queued ∧ (k.task p).cpu = c :=
  (h.places.queued p c).mp (h.sound.curr c p ((h.queues.curr c).symm.trans hp))

/-- A task that does not run on its own CPU runs on none. -/
theorem Refines.not_curr (h : Refines ⟨k, w⟩ s) (hp : taskCurrent k p = false) (d : Fin n) :
    s.curr d ≠ some p := by
  intro hcurr
  have hcurr' : (k.rq d).curr = some p := (h.queues.curr d).trans hcurr
  unfold taskCurrent at hp
  rw [(h.of_curr hcurr').2] at hp
  simp [hcurr'] at hp

/-- Which assignments to a task keep the relation. -/
theorem Refines.updateTask (h : Refines ⟨k, w⟩ s) {f : TaskStruct n → TaskStruct n}
    (hcls : (f (k.task p)).schedClass = (k.task p).schedClass)
    (hqueued : ∀ d, s.place p = .queued d ↔
      (f (k.task p)).onRq = .queued ∧ (f (k.task p)).cpu = d)
    (hpending : ∀ d, s.place p = .pending d →
      (f (k.task p)).state = .waking ∧ (f (k.task p)).cpu = d)
    (hrecorded : ∀ d, s.place p = .queued d → s.cls p = .yatCasched →
      RecordedAt (f (k.task p)) d) : Refines ⟨k.updateTask p f, w⟩ s where
  sound := h.sound
  queues := h.queues.updateTask hcls hrecorded
  places := h.places.move (p := p)
    (fun q hqp => by
      rw [System.updateTask_task_of_ne k hqp]
      exact ⟨rfl, rfl, rfl, rfl⟩)
    (fun d => by
      rw [System.updateTask_task_self]
      exact hqueued d)
    (fun d hp => by
      rw [System.updateTask_task_self]
      exact hpending d hp)
  inbox := h.inbox

/-- A task that is not on its way can change its state. -/
theorem Refines.setState (h : Refines ⟨k, w⟩ s) (hp : ∀ d, s.place p ≠ .pending d)
    (state : TaskState) :
    Refines ⟨k.updateTask p fun t => { t with state := state }, w⟩ s :=
  h.updateTask rfl (h.places.queued p) (fun d hd => (hp d hd).elim) (h.queues.recorded p)

/-- A sleeping task can change in anything but its class. -/
theorem Refines.updateTask_asleep (h : Refines ⟨k, w⟩ s) (hp : s.place p = .asleep)
    {f : TaskStruct n → TaskStruct n}
    (hcls : (f (k.task p)).schedClass = (k.task p).schedClass)
    (honRq : (f (k.task p)).onRq ≠ .queued) : Refines ⟨k.updateTask p f, w⟩ s := by
  apply h.updateTask hcls
  · intro d
    rw [hp]
    exact iff_of_false (by simp) fun hf => honRq hf.1
  · intro d hd
    rw [hp] at hd
    cases hd
  · intro d hd
    rw [hp] at hd
    cases hd

/-! ## Events -/

/-- A task is activated. -/
theorem Refines.activateTask (h : Refines ⟨k, w⟩ s) (hcpu : (k.task p).cpu = c)
    (hp : s.Legal (.activate p c)) :
    Refines ⟨activateTask k c p, fun d => (w d).erase p⟩ (s.step (.activate p c)) := by
  have hnot : ∀ d, s.place p ≠ .queued d := by
    intro d hd
    rcases hp with hp | hp
    · rw [hp] at hd
      cases hd
    · rw [hp] at hd
      cases hd
  have honly := onlyAccounting_enqueueTask k c p
  have hplace : (s.enqueue p c).place p = .queued c := Function.update_self _ _ _
  constructor
  case sound => exact h.sound.step hp
  case queues =>
    show QueuesAre (Kernel.activateTask k c p) (s.enqueue p c)
    unfold Kernel.activateTask
    refine QueuesAre.updateTask_of_same ?_ rfl rfl
    exact h.queues.enqueueTask h.sound.toFiled hnot c
  case places =>
    show PlacesAre _ (s.enqueue p c)
    unfold Kernel.activateTask
    apply h.places.move (p := p)
    · intro q hqp
      rw [System.updateTask_task_of_ne _ hqp]
      exact ⟨Function.update_of_ne hqp _ _, honly.samePlace q⟩
    · intro d
      rw [hplace, System.updateTask_task_self]
      dsimp only
      rw [(honly.samePlace p).2.1, hcpu]
      simp
    · intro d hd
      rw [hplace] at hd
      cases hd
  case inbox =>
    show (fun d => (s.inbox d).erase p) = _
    rw [h.inbox]

/-- A task is put on a wake list. -/
theorem Refines.post (h : Refines ⟨k, w⟩ s) (hp : s.place p = .asleep)
    (hstate : (k.task p).state = .waking) (hcpu : (k.task p).cpu = c) :
    Refines ⟨k, Function.update w c (w c ++ [p])⟩ (s.step (.post p c)) := by
  have hplace : (s.step (.post p c)).place p = .pending c := Function.update_self _ _ _
  have honRq : (k.task p).onRq ≠ .queued := by
    intro honRq
    have hqueued := h.place_queued honRq
    rw [hp] at hqueued
    cases hqueued
  constructor
  case sound => exact h.sound.step hp
  case queues =>
    refine ⟨h.queues.cls, h.queues.curr, h.queues.queue, h.queues.yatQueue,
      h.queues.counted, ?_⟩
    intro q d hq
    refine h.queues.recorded q d ?_
    by_cases hqp : q = p
    · subst hqp
      rw [hplace] at hq
      cases hq
    · exact (Function.update_of_ne hqp _ _).symm.trans hq
  case places =>
    apply h.places.move (p := p)
    · intro q hqp
      exact ⟨Function.update_of_ne hqp _ _, rfl, rfl, rfl⟩
    · intro d
      rw [hplace]
      exact iff_of_false (by simp) fun hqueued => honRq hqueued.1
    · intro d hd
      rw [hplace] at hd
      cases hd
      exact ⟨hstate, hcpu⟩
  case inbox =>
    show Function.update s.inbox c (s.inbox c ++ [p]) = _
    rw [h.inbox]

/-- A CPU switches to another task. -/
theorem Refines.contextSwitch (h : Refines ⟨k, w⟩ s) {next : Option Pid}
    (hnext : s.Legal (.switch c false next)) :
    Refines ⟨contextSwitch k c next, w⟩ (s.step (.switch c false next)) where
  sound := h.sound.step hnext
  queues := h.queues.contextSwitch c next
  places := h.places.congr rfl fun _ => ⟨rfl, rfl, rfl⟩
  inbox := h.inbox

/-- Two assignments to one task. -/
theorem updateTask_updateTask (k : System n) (p : Pid) (f g : TaskStruct n → TaskStruct n) :
    (k.updateTask p f).updateTask p g = k.updateTask p fun t => g (f t) := by
  simp [System.updateTask]

/-- Moving a queued task assigns to its CPU, accounting apart. -/
theorem onlyAccounting_moveQueuedTask (k : System n) (p : Pid) (newCpu : Fin n) :
    OnlyAccounting
      (k.updateTask p fun t => { t with onRq := .queued, cpu := newCpu, wakeCpu := newCpu })
      (moveQueuedTask k p newCpu) := by
  have hmoved : (k.updateTask p fun t =>
        { t with onRq := .queued, cpu := newCpu, wakeCpu := newCpu }) =
      ((k.updateTask p fun t => { t with onRq := .migrating }).updateTask p fun t =>
        { t with cpu := newCpu, wakeCpu := newCpu }).updateTask p fun t =>
          { t with onRq := .queued } := by
    rw [updateTask_updateTask, updateTask_updateTask]
  rw [hmoved]
  unfold moveQueuedTask
  dsimp only
  refine OnlyAccounting.trans (OnlyAccounting.updateBoth ?_ p fun t se yat => ⟨se, yat, rfl⟩)
    (onlyAccounting_wakeupPreempt _ newCpu p)
  refine OnlyAccounting.trans (OnlyAccounting.updateBoth ?_ p fun t se yat => ⟨se, yat, rfl⟩)
    (onlyAccounting_enqueueTask _ newCpu p)
  exact onlyAccounting_dequeueTask _ _ p

/-- A queued task that does not run moves to another CPU. -/
theorem Refines.moveQueuedTask (h : Refines ⟨k, w⟩ s) (hqueued : (k.task p).onRq = .queued)
    (hcurr : taskCurrent k p = false) (newCpu : Fin n) :
    s.Legal (.move p newCpu) ∧
      Refines ⟨moveQueuedTask k p newCpu, w⟩ (s.step (.move p newCpu)) := by
  have hplace := h.place_queued hqueued
  have hlegal : s.Legal (.move p newCpu) := ⟨⟨_, hplace⟩, h.not_curr hcurr⟩
  have hnot := dequeue_place_ne_queued s p
  have hmoved : (s.step (.move p newCpu)).place p = .queued newCpu :=
    Function.update_self _ _ _
  have honly := onlyAccounting_moveQueuedTask k p newCpu
  refine ⟨hlegal, ?_⟩
  constructor
  case sound => exact h.sound.step hlegal
  case queues =>
    unfold Kernel.moveQueuedTask
    dsimp only
    refine QueuesAre.congr ?_ (.wakeupPreempt _ newCpu p)
    refine QueuesAre.updateTask_of_same ?_ rfl rfl
    refine QueuesAre.enqueueTask ?_ (h.sound.toFiled.dequeue p) hnot newCpu
    refine QueuesAre.updateTask_of_same ?_ rfl rfl
    refine QueuesAre.dequeueTask ?_ h.sound.toFiled hplace
    exact h.queues.updateTask_of_same rfl rfl
  case places =>
    apply h.places.move (p := p)
    · intro q hqp
      refine ⟨(Function.update_of_ne hqp _ _).trans (dequeue_place_of_ne s hqp), ?_⟩
      have hsame := honly.samePlace q
      rw [System.updateTask_task_of_ne k hqp] at hsame
      exact hsame
    · intro d
      have hsame := honly.samePlace p
      rw [System.updateTask_task_self] at hsame
      rw [hmoved, hsame.1, hsame.2.1]
      simp
    · intro d hd
      rw [hmoved] at hd
      cases hd
  case inbox =>
    refine (h.sound.toFiled.move_inbox ?_ newCpu).trans h.inbox
    intro d hd
    rw [hplace] at hd
    cases hd

/-- Accounting, an assignment that keeps the place of the task, and accounting again. -/
theorem samePlace_of_updateTask {k₂ k₅ : System n} {f : TaskStruct n → TaskStruct n}
    {cls : SchedClass} (hbefore : OnlyAccounting k k₂)
    (hf : (f (k₂.task p)).life = { (k₂.task p).life with schedClass := cls })
    (hafter : OnlyAccounting (k₂.updateTask p f) k₅) (q : Pid) :
    (k₅.task q).onRq = (k.task q).onRq ∧ (k₅.task q).cpu = (k.task q).cpu ∧
      (k₅.task q).state = (k.task q).state := by
  have hassign : ((k₂.updateTask p f).task q).onRq = (k₂.task q).onRq ∧
      ((k₂.updateTask p f).task q).cpu = (k₂.task q).cpu ∧
      ((k₂.updateTask p f).task q).state = (k₂.task q).state := by
    by_cases hqp : q = p
    · subst hqp
      rw [System.updateTask_task_self]
      exact ⟨congrArg LifeTask.onRq hf, congrArg LifeTask.cpu hf, congrArg LifeTask.state hf⟩
    · rw [System.updateTask_task_of_ne k₂ hqp]
      exact ⟨rfl, rfl, rfl⟩
  have hbefore := hbefore.samePlace q
  have hafter := hafter.samePlace q
  exact ⟨hafter.1.trans (hassign.1.trans hbefore.1),
    hafter.2.1.trans (hassign.2.1.trans hbefore.2.1),
    hafter.2.2.trans (hassign.2.2.trans hbefore.2.2)⟩

/-- A task is changed on its run queue. -/
theorem Refines.requeue (h : Refines ⟨k, w⟩ s) {change : System n → System n}
    {cls : SchedClass}
    (hchange : ∀ k', OnlyAccounting k k' → ∃ f, change k' = k'.updateTask p f ∧
      (f (k'.task p)).life = { (k'.task p).life with schedClass := cls }) :
    Refines ⟨requeue k p change, w⟩ (s.step (.requeue p cls)) := by
  have hfiled := h.sound.toFiled
  have hsound : (s.step (.requeue p cls)).Sound := h.sound.step trivial
  have hinbox : (s.step (.requeue p cls)).inbox = w := (hfiled.requeue_inbox p cls).trans h.inbox
  have hset : ∀ (k' : System n) (b : Bool),
      SameLife k' (if b then setNextTask k' (k.task p).cpu p else k') := fun k' b =>
    .ite b (.setNextTask k' _ p)
  have hplaces : ∀ {k' : System n}, (∀ q, (k'.task q).onRq = (k.task q).onRq ∧
      (k'.task q).cpu = (k.task q).cpu ∧ (k'.task q).state = (k.task q).state) →
      PlacesAre k' (s.step (.requeue p cls)) := fun hsame =>
    h.places.congr (funext fun q => requeue_place s p q cls) hsame
  cases hqueued : taskOnRqQueued k p with
  | true =>
      have honRq : (k.task p).onRq = .queued := of_decide_eq_true hqueued
      have hplace := h.place_queued honRq
      have hnot := dequeue_place_ne_queued s p
      -- the state in which the task is changed
      have hput : SameLife (dequeueTask k (k.task p).cpu p)
          (if taskCurrent k p then putPrevTask (dequeueTask k (k.task p).cpu p)
            (k.task p).cpu (some p) else dequeueTask k (k.task p).cpu p) :=
        .ite _ (.putPrevTask _ _ _)
      have hbefore := (onlyAccounting_dequeueTask k (k.task p).cpu p).trans
        (.ite (taskCurrent k p) (onlyAccounting_putPrevTask _ (k.task p).cpu (some p)))
      rcases hchange _ hbefore with ⟨f, hf, hlife⟩
      have hqueues := ((h.queues.dequeueTask hfiled hplace).congr hput).recast
        (hfiled.dequeue p) hnot f
      rw [show (f _).schedClass = cls from congrArg LifeTask.schedClass hlife] at hqueues
      refine ⟨hsound, ?_, hplaces (samePlace_of_updateTask hbefore hlife ?_), hinbox⟩
      · unfold Kernel.requeue
        rw [hqueued]
        dsimp only
        rw [if_pos rfl, if_pos rfl, hf]
        refine QueuesAre.congr ?_ (hset _ _)
        unfold Life.step
        dsimp only
        rw [hplace]
        exact hqueues.enqueueTask ((hfiled.dequeue p).recast hnot cls) hnot _
      · unfold Kernel.requeue
        rw [hqueued]
        dsimp only
        rw [if_pos rfl, if_pos rfl, hf]
        exact (onlyAccounting_enqueueTask _ (k.task p).cpu p).trans
          (.ite (taskCurrent k p) (onlyAccounting_setNextTask _ (k.task p).cpu p))
  | false =>
      have honRq : (k.task p).onRq ≠ .queued := of_decide_eq_false hqueued
      have hnot := h.place_ne_queued honRq
      have hput : SameLife k
          (if taskCurrent k p then putPrevTask k (k.task p).cpu (some p) else k) :=
        .ite _ (.putPrevTask _ _ _)
      have hbefore := OnlyAccounting.ite (taskCurrent k p)
        (onlyAccounting_putPrevTask k (k.task p).cpu (some p))
      rcases hchange _ hbefore with ⟨f, hf, hlife⟩
      have hqueues := (h.queues.congr hput).recast hfiled hnot f
      rw [show (f _).schedClass = cls from congrArg LifeTask.schedClass hlife] at hqueues
      refine ⟨hsound, ?_, hplaces (samePlace_of_updateTask hbefore hlife ?_), hinbox⟩
      · unfold Kernel.requeue
        rw [hqueued]
        dsimp only
        rw [if_neg Bool.false_ne_true, if_neg Bool.false_ne_true, hf,
          step_requeue_of_not_queued hnot]
        exact hqueues.congr (hset _ _)
      · unfold Kernel.requeue
        rw [hqueued]
        dsimp only
        rw [if_neg Bool.false_ne_true, if_neg Bool.false_ne_true, hf]
        exact .ite (taskCurrent k p) (onlyAccounting_setNextTask _ (k.task p).cpu p)

end Kernel
end YatCasched
