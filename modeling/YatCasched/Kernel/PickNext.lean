import YatCasched.Lib.Run
import YatCasched.Kernel.Dispatch
import YatCasched.Kernel.Queues

/-!
# Picking across the classes

{lit}`__pick_next_task` of {lit}`core.c`: a fast path for run queues that hold
only fair tasks, and the walk over all classes.  The fast path trusts
{lit}`rq->nr_running`, which the hooks of the cache-aware class never touch.

The real-time and the fair class are not part of the repository.  They appear
through their queues and counters, and through the parameter
{lit}`ClassPicks`, whose fields are what the core scheduler relies on.  The fast path
leaves it to {lit}`pick_next_task_fair` to put the previous task, which is left out; it
changes no queue and no counter.

Main results:

- Theorem {lit}`Quiet.counted_run`: the counters of every reachable state.
- Theorem {lit}`fastPath_agrees_iff`: in a reachable state the fast path agrees
  with the walk, and the idle task is not picked over a queued task of the
  class, exactly if the fast path does not meet an empty fair queue beside a
  nonempty queue of the class.
-/

namespace YatCasched
namespace Kernel

open CircularList

variable {n : Nat}

/-! ## Queueing -/

/-- The calls that change the run queues. -/
inductive QueueCall (n : Nat)
  | enqueue (c : Fin n) (p : Pid)
  | dequeue (c : Fin n) (p : Pid)

/-- The effect of a call. -/
def QueueCall.step (k : System n) : QueueCall n → System n
  | .enqueue c p => enqueueTask k c p
  | .dequeue c p => dequeueTask k c p

/-- Tasks of the three classes are enqueued while they are on no queue, and
dequeued from the queue that holds them. -/
def QueueCall.Legal (k : System n) : QueueCall n → Prop
  | .enqueue _ p =>
      match (k.task p).schedClass with
      | .rt => ∀ d, p ∉ (k.rq d).rtQueue
      | .fair => ∀ d, p ∉ (k.rq d).fairQueue
      | .yatCasched => ∀ d, ¬Queued k d p
      | .stop | .dl | .idle => False
  | .dequeue c p =>
      match (k.task p).schedClass with
      | .rt => p ∈ (k.rq c).rtQueue
      | .fair => p ∈ (k.rq c).fairQueue
      | .yatCasched => ∀ d, Queued k d p → d = c
      | .stop | .dl | .idle => False

/-! ## Picking -/

/-- The result of a pick. -/
inductive NextTask
  | idle
  | task (p : Pid)
deriving DecidableEq

/-- The result of {lit}`pick_next_task_fair` when called with a previous task. -/
inductive FairPick
  /-- {lit}`RETRY_TASK`. -/
  | retry
  /-- {lit}`NULL`. -/
  | null
  | task (p : Pid)
deriving DecidableEq

/-- What the real-time and the fair class pick from their queues. -/
structure ClassPicks where
  pickNextTaskRt : List Pid → Option Pid
  pickNextTaskFair : List Pid → Option Pid → FairPick
  classPickFair : List Pid → Option Pid
  /-- The real-time hook returns {lit}`NULL` exactly for an empty queue. -/
  rt_null : ∀ l, pickNextTaskRt l = none ↔ l = []
  /-- {lit}`pick_next_task_fair` returns {lit}`NULL` exactly for an empty queue. -/
  fair_null : ∀ l prev, pickNextTaskFair l prev = .null ↔ l = []
  /-- So does the hook of the class walk. -/
  class_null : ∀ l, classPickFair l = none ↔ l = []
  /-- The hook is {lit}`pick_next_task_fair` without a previous task, and picks
  the same one. -/
  same_task : ∀ l prev p, pickNextTaskFair l prev = .task p → classPickFair l = some p

/-- {lit}`class->pick_next_task`. -/
def classPickNextTask (picks : ClassPicks) (c : Fin n) (k : System n) :
    SchedClass → System n × Option NextTask
  | .stop => (k, none)
  | .dl => (k, none)
  | .rt => (k, (picks.pickNextTaskRt (k.rq c).rtQueue).map .task)
  | .fair => (k, (picks.classPickFair (k.rq c).fairQueue).map .task)
  | .yatCasched =>
      ((pickNextTaskYatCasched k c).1, (pickNextTaskYatCasched k c).2.map .task)
  | .idle => (k, some .idle)

/-- The {lit}`for_each_class` loop. -/
def classWalk (picks : ClassPicks) (c : Fin n) :
    List SchedClass → System n → System n × Option NextTask
  | [], k => (k, none)
  | cls :: rest, k =>
      match classPickNextTask picks c k cls with
      | (k, some next) => (k, some next)
      | (k, none) => classWalk picks c rest k

/-- The code after {lit}`restart`. -/
def restart (picks : ClassPicks) (k : System n) (c : Fin n) (prev : Option Pid) :
    System n × Option NextTask :=
  classWalk picks c forEachClass (putPrevTask k c prev)

/-- The guard of the fast path. -/
def fastPath (k : System n) (c : Fin n) (prev : Option Pid) : Bool :=
  !schedClassAbove (prevClass k prev) .fair &&
    (k.rq c).nrRunning == (k.rq c).cfsHNrRunning

/-- What the fast path returns, unless it restarts. -/
def fastPick (picks : ClassPicks) (k : System n) (c : Fin n) (prev : Option Pid) :
    Option NextTask :=
  match picks.pickNextTaskFair (k.rq c).fairQueue prev with
  | .retry => none
  | .null => some .idle
  | .task p => some (.task p)

/-- {lit}`__pick_next_task`. -/
def pickNextTask (picks : ClassPicks) (k : System n) (c : Fin n) (prev : Option Pid) :
    System n × Option NextTask :=
  if fastPath k c prev then
    match picks.pickNextTaskFair (k.rq c).fairQueue prev with
    | .retry => restart picks k c prev
    | .null => (putPrevTask k c prev, some .idle)
    | .task p => (k, some (.task p))
  else
    restart picks k c prev

/-- The fast path returns what the walk would return, and the idle task is not
picked while a task of the class is queued. -/
structure PickAgrees (picks : ClassPicks) (k : System n) (c : Fin n)
    (prev : Option Pid) : Prop where
  same : fastPath k c prev = true → ∀ next, fastPick picks k c prev = some next →
    (restart picks k c prev).2 = some next
  not_idle : (∃ p, Queued k c p) → (pickNextTask picks k c prev).2 ≠ some .idle

/-! ## Counters -/

/-- The queues of a CPU hold tasks of their class, and the counters count them:
every real-time and fair task in {lit}`nr_running`, every fair one in
{lit}`h_nr_running`. -/
structure CountedRq (cls : Pid → SchedClass) (rq : Rq n) : Prop where
  rt_class : ∀ p ∈ rq.rtQueue, cls p = .rt
  fair_class : ∀ p ∈ rq.fairQueue, cls p = .fair
  rt_nodup : rq.rtQueue.Nodup
  fair_nodup : rq.fairQueue.Nodup
  nrRunning : rq.nrRunning.toNat = rq.rtQueue.length + rq.fairQueue.length
  cfsHNrRunning : rq.cfsHNrRunning.toNat = rq.fairQueue.length

/-- The counters of all CPUs, and the queues of the cache-aware class, which
they do not count. -/
structure Counted (k : System n) : Prop where
  represented : ∃ q, Represents k q
  counted : ∀ c, CountedRq (fun p => (k.task p).schedClass) (k.rq c)

section CountedRq

variable {cls : Pid → SchedClass} {rq : Rq n} {p : Pid}

/-- The two queues of a CPU are short enough to be counted. -/
theorem CountedRq.length_lt (hrq : CountedRq cls rq) :
    rq.rtQueue.length + rq.fairQueue.length < 2 ^ 31 + 1 := by
  have hnodup : (rq.rtQueue ++ rq.fairQueue).Nodup := by
    rw [List.nodup_append]
    refine ⟨hrq.rt_nodup, hrq.fair_nodup, ?_⟩
    intro p hp r hr hpr
    have hclass := hrq.rt_class p hp
    rw [hpr, hrq.fair_class r hr] at hclass
    cases hclass
  have hcard := hnodup.length_le_card
  rw [Fintype.card_fin, List.length_append] at hcard
  omega

/-- The guard of the fast path holds, as far as the counters go, exactly if no
real-time task is queued. -/
theorem CountedRq.nrRunning_eq_iff (hrq : CountedRq cls rq) :
    rq.nrRunning = rq.cfsHNrRunning ↔ rq.rtQueue = [] := by
  rw [← UInt32.toNat_inj, hrq.nrRunning, hrq.cfsHNrRunning, ← List.length_eq_zero_iff]
  omega

/-- Only the queues, the counters and the classes matter. -/
theorem CountedRq.congr {cls' : Pid → SchedClass} {rq' : Rq n} (hrq : CountedRq cls rq)
    (hcls : cls' = cls) (hrt : rq'.rtQueue = rq.rtQueue) (hfair : rq'.fairQueue = rq.fairQueue)
    (hnr : rq'.nrRunning = rq.nrRunning) (hcfs : rq'.cfsHNrRunning = rq.cfsHNrRunning) :
    CountedRq cls' rq' := by
  constructor
  · rw [hcls, hrt]
    exact hrq.rt_class
  · rw [hcls, hfair]
    exact hrq.fair_class
  · rw [hrt]
    exact hrq.rt_nodup
  · rw [hfair]
    exact hrq.fair_nodup
  · rw [hnr, hrt, hfair]
    exact hrq.nrRunning
  · rw [hcfs, hfair]
    exact hrq.cfsHNrRunning

/-- Queueing a real-time task. -/
theorem CountedRq.enqueueRt (hrq : CountedRq cls rq) (hp : cls p = .rt)
    (hnew : p ∉ rq.rtQueue) :
    CountedRq cls
      { rq with rtQueue := rq.rtQueue ++ [p], nrRunning := rq.nrRunning + 1 } := by
  have hlength := hrq.length_lt
  constructor
  · intro r hr
    rcases List.mem_append.mp hr with hr | hr
    · exact hrq.rt_class r hr
    · rw [List.mem_singleton.mp hr, hp]
  · exact hrq.fair_class
  · simpa using hrq.rt_nodup.concat hnew
  · exact hrq.fair_nodup
  · dsimp only
    rw [MachineInt.toNat_add_one (by rw [hrq.nrRunning]; omega), hrq.nrRunning,
      List.length_append, List.length_singleton]
    omega
  · exact hrq.cfsHNrRunning

/-- Dequeueing a real-time task. -/
theorem CountedRq.dequeueRt (hrq : CountedRq cls rq) (hp : p ∈ rq.rtQueue) :
    CountedRq cls
      { rq with rtQueue := rq.rtQueue.erase p, nrRunning := rq.nrRunning - 1 } := by
  have hpos := List.length_pos_of_mem hp
  constructor
  · intro r hr
    exact hrq.rt_class r (List.mem_of_mem_erase hr)
  · exact hrq.fair_class
  · exact hrq.rt_nodup.erase p
  · exact hrq.fair_nodup
  · dsimp only
    rw [MachineInt.toNat_sub_one (by rw [hrq.nrRunning]; omega), hrq.nrRunning,
      List.length_erase_of_mem hp]
    omega
  · exact hrq.cfsHNrRunning

/-- Queueing a fair task. -/
theorem CountedRq.enqueueFair (hrq : CountedRq cls rq) (hp : cls p = .fair)
    (hnew : p ∉ rq.fairQueue) :
    CountedRq cls
      { rq with
        fairQueue := rq.fairQueue ++ [p]
        nrRunning := rq.nrRunning + 1
        cfsHNrRunning := rq.cfsHNrRunning + 1 } := by
  have hlength := hrq.length_lt
  constructor
  · exact hrq.rt_class
  · intro r hr
    rcases List.mem_append.mp hr with hr | hr
    · exact hrq.fair_class r hr
    · rw [List.mem_singleton.mp hr, hp]
  · exact hrq.rt_nodup
  · simpa using hrq.fair_nodup.concat hnew
  · dsimp only
    rw [MachineInt.toNat_add_one (by rw [hrq.nrRunning]; omega), hrq.nrRunning,
      List.length_append, List.length_singleton]
    omega
  · dsimp only
    rw [MachineInt.toNat_add_one (by rw [hrq.cfsHNrRunning]; omega), hrq.cfsHNrRunning,
      List.length_append, List.length_singleton]

/-- Dequeueing a fair task. -/
theorem CountedRq.dequeueFair (hrq : CountedRq cls rq) (hp : p ∈ rq.fairQueue) :
    CountedRq cls
      { rq with
        fairQueue := rq.fairQueue.erase p
        nrRunning := rq.nrRunning - 1
        cfsHNrRunning := rq.cfsHNrRunning - 1 } := by
  have hpos := List.length_pos_of_mem hp
  constructor
  · exact hrq.rt_class
  · intro r hr
    exact hrq.fair_class r (List.mem_of_mem_erase hr)
  · exact hrq.rt_nodup
  · exact hrq.fair_nodup.erase p
  · dsimp only
    rw [MachineInt.toNat_sub_one (by rw [hrq.nrRunning]; omega), hrq.nrRunning,
      List.length_erase_of_mem hp]
    omega
  · dsimp only
    rw [MachineInt.toNat_sub_one (by rw [hrq.cfsHNrRunning]; omega), hrq.cfsHNrRunning,
      List.length_erase_of_mem hp]

end CountedRq

/-! ## Reachable states -/

/-- The hooks of the cache-aware class change no other counter and move no task
to another class. -/
theorem Counted.yatCasched {k k' : System n} {q : Fin n → List Pid} (hk : Counted k)
    (hq : Represents k' q)
    (hcls : ∀ p, (k'.task p).schedClass = (k.task p).schedClass)
    (hrq : ∀ d, ∃ yat, k'.rq d = { k.rq d with yatCasched := yat }) : Counted k' := by
  refine ⟨⟨q, hq⟩, fun d => ?_⟩
  rcases hrq d with ⟨yat, hd⟩
  rw [hd]
  exact (hk.counted d).congr (funext hcls) rfl rfl rfl rfl

/-- An update of one run queue that leaves the cache-aware class alone. -/
theorem Counted.updateRq {k : System n} (hk : Counted k) (c : Fin n) {f : Rq n → Rq n}
    (hyat : (f (k.rq c)).yatCasched = (k.rq c).yatCasched)
    (hcount : CountedRq (fun p => (k.task p).schedClass) (f (k.rq c))) :
    Counted (k.updateRq c f) := by
  rcases hk.represented with ⟨q, hq⟩
  refine ⟨⟨q, hq.congr rfl fun d => ?_⟩, fun d => ?_⟩
  · by_cases hdc : d = c
    · subst hdc
      rw [System.updateRq_rq_self, hyat]
    · rw [System.updateRq_rq_of_ne k hdc]
  · by_cases hdc : d = c
    · subst hdc
      rw [System.updateRq_rq_self]
      exact hcount
    · rw [System.updateRq_rq_of_ne k hdc]
      exact hk.counted d

/-- Every legal call keeps the counters. -/
theorem Counted.step {k : System n} (hk : Counted k) {call : QueueCall n}
    (hcall : call.Legal k) : Counted (call.step k) := by
  rcases hk.represented with ⟨q, hq⟩
  cases call with
  | enqueue c p =>
      simp only [QueueCall.Legal] at hcall
      simp only [QueueCall.step, enqueueTask]
      cases hclass : (k.task p).schedClass with
      | rt =>
          rw [hclass] at hcall
          exact hk.updateRq c rfl ((hk.counted c).enqueueRt hclass (hcall c))
      | fair =>
          rw [hclass] at hcall
          exact hk.updateRq c rfl ((hk.counted c).enqueueFair hclass (hcall c))
      | yatCasched =>
          rw [hclass] at hcall
          have hfree : ∀ d, p ∉ q d := by
            intro d hd
            exact hcall d ((hq.queued_iff d p).mpr hd)
          refine hk.yatCasched (hq.enqueue c hfree) (fun r => ?_) fun d => ?_
          · exact enqueueTaskYatCasched_schedClass k c p r
          · exact enqueueTaskYatCasched_rq k c d p
      | stop => rw [hclass] at hcall; exact hcall.elim
      | dl => rw [hclass] at hcall; exact hcall.elim
      | idle => rw [hclass] at hcall; exact hcall.elim
  | dequeue c p =>
      simp only [QueueCall.Legal] at hcall
      simp only [QueueCall.step, dequeueTask]
      cases hclass : (k.task p).schedClass with
      | rt =>
          rw [hclass] at hcall
          exact hk.updateRq c rfl ((hk.counted c).dequeueRt hcall)
      | fair =>
          rw [hclass] at hcall
          exact hk.updateRq c rfl ((hk.counted c).dequeueFair hcall)
      | yatCasched =>
          rw [hclass] at hcall
          have hholder : ∀ d, p ∈ q d → d = c := by
            intro d hd
            exact hcall d ((hq.queued_iff d p).mpr hd)
          refine hk.yatCasched (hq.dequeue_of_holder hholder) (fun r => ?_) fun d => ?_
          · exact dequeueTaskYatCasched_schedClass k c p r
          · exact dequeueTaskYatCasched_rq k c d p
      | stop => rw [hclass] at hcall; exact hcall.elim
      | dl => rw [hclass] at hcall; exact hcall.elim
      | idle => rw [hclass] at hcall; exact hcall.elim

/-- A system without queued tasks whose tasks are all forked. -/
structure Quiet (k₀ : System n) : Prop where
  forked : ∀ p, Ring k₀.links (.runList p) []
  rt_empty : ∀ c, (k₀.rq c).rtQueue = []
  fair_empty : ∀ c, (k₀.rq c).fairQueue = []
  nrRunning_zero : ∀ c, (k₀.rq c).nrRunning = 0
  cfsHNrRunning_zero : ∀ c, (k₀.rq c).cfsHNrRunning = 0

/-- The counters after the initialisation. -/
theorem Quiet.counted {k₀ : System n} (hk : Quiet k₀) : Counted (initYatCaschedRqs k₀) := by
  refine ⟨⟨_, represents_initYatCaschedRqs hk.forked⟩, fun c => ?_⟩
  rcases initYatCaschedRqs_rq k₀ c with ⟨yat, hc⟩
  rw [hc]
  constructor <;>
    simp [hk.rt_empty, hk.fair_empty, hk.nrRunning_zero, hk.cfsHNrRunning_zero]

/-- The counters of every reachable state. -/
theorem Quiet.counted_run {k₀ : System n} (hk : Quiet k₀) {calls : List (QueueCall n)}
    (hcalls : Run.Guarded QueueCall.step QueueCall.Legal (initYatCaschedRqs k₀) calls) :
    Counted (calls.foldl QueueCall.step (initYatCaschedRqs k₀)) := by
  have hstep : ∀ (k : System n) (call : QueueCall n),
      Counted k → call.Legal k → Counted (call.step k) := fun _ _ hs hcall =>
    hs.step hcall
  exact Run.foldl_invariant hstep hk.counted hcalls

/-! ## The walk -/

/-- The walk returns the real-time pick, else the fair pick, else the first
task of the cache-aware class, else the idle task. -/
theorem restart_snd (picks : ClassPicks) (k : System n) (c : Fin n) (prev : Option Pid) :
    (restart picks k c prev).2 =
      match picks.pickNextTaskRt (k.rq c).rtQueue, picks.classPickFair (k.rq c).fairQueue,
          firstTask k c with
      | some p, _, _ => some (.task p)
      | none, some p, _ => some (.task p)
      | none, none, some p => some (.task p)
      | none, none, none => some .idle := by
  have hfirst : firstTask (putPrevTask k c prev) c = firstTask k c := by
    unfold firstTask
    rw [putPrevTask_rq, putPrevTask_links]
  unfold restart forEachClass
  simp only [classWalk, classPickNextTask]
  cases hrt : picks.pickNextTaskRt (k.rq c).rtQueue with
  | some p => simp [putPrevTask_rq, hrt]
  | none =>
      cases hfair : picks.classPickFair (k.rq c).fairQueue with
      | some p => simp [putPrevTask_rq, hrt, hfair]
      | none => cases hyat : firstTask k c <;> simp [putPrevTask_rq, hrt, hfair, hfirst, hyat]

/-! ## Agreement -/

/-- The fast path finds no fair task beside a queued task of the class. -/
structure Starves (k : System n) (c : Fin n) (prev : Option Pid) : Prop where
  taken : fastPath k c prev = true
  no_fair : (k.rq c).fairQueue = []
  queued : ∃ p, Queued k c p

/-- Behind the guard of the fast path no real-time task is queued. -/
theorem Counted.rtQueue_eq_nil {k : System n} (hk : Counted k) {c : Fin n}
    {prev : Option Pid} (hfast : fastPath k c prev = true) : (k.rq c).rtQueue = [] := by
  simp only [fastPath, Bool.and_eq_true, beq_iff_eq] at hfast
  exact (hk.counted c).nrRunning_eq_iff.mp hfast.2

/-- A task of the class is queued exactly if the class has a first task. -/
theorem Counted.queued_iff {k : System n} (hk : Counted k) (c : Fin n) :
    (∃ p, Queued k c p) ↔ firstTask k c ≠ none := by
  rcases hk.represented with ⟨q, hq⟩
  rw [ne_eq, hq.firstTask_eq_none_iff, ← ne_eq]
  simp only [hq.queued_iff]
  constructor
  · intro h
    rcases h with ⟨p, hp⟩
    exact List.ne_nil_of_mem hp
  · intro hne
    exact List.exists_mem_of_ne_nil (q c) hne

/-- The walk finds a queued task of the class, or one of a higher class. -/
theorem Counted.restart_ne_idle {k : System n} (hk : Counted k) (picks : ClassPicks)
    (c : Fin n) (prev : Option Pid) (hqueued : ∃ p, Queued k c p) :
    (restart picks k c prev).2 ≠ some .idle := by
  rw [hk.queued_iff] at hqueued
  rw [restart_snd]
  cases picks.pickNextTaskRt (k.rq c).rtQueue with
  | some p => simp
  | none =>
      cases picks.classPickFair (k.rq c).fairQueue with
      | some p => simp
      | none =>
          cases hfirst : firstTask k c with
          | some p => simp
          | none => exact absurd hfirst hqueued

/-- Behind the guard, a nonempty fair queue is picked from in the same way by
the fast path and by the walk. -/
theorem Counted.restart_of_fastPick {k : System n} (hk : Counted k) (picks : ClassPicks)
    {c : Fin n} {prev : Option Pid} (hfast : fastPath k c prev = true)
    (hfair : (k.rq c).fairQueue ≠ []) {next : NextTask}
    (hnext : fastPick picks k c prev = some next) :
    (restart picks k c prev).2 = some next := by
  have hrt : picks.pickNextTaskRt (k.rq c).rtQueue = none :=
    (picks.rt_null _).mpr (hk.rtQueue_eq_nil hfast)
  unfold fastPick at hnext
  rw [restart_snd, hrt]
  cases hpick : picks.pickNextTaskFair (k.rq c).fairQueue prev with
  | retry => rw [hpick] at hnext; cases hnext
  | null => exact absurd ((picks.fair_null _ _).mp hpick) hfair
  | task p =>
      rw [hpick] at hnext
      cases hnext
      rw [picks.same_task _ _ _ hpick]

/-- Behind the guard, an empty fair queue makes the fast path return the idle
task. -/
theorem fastPick_of_no_fair (picks : ClassPicks) {k : System n} {c : Fin n}
    (prev : Option Pid) (hfair : (k.rq c).fairQueue = []) :
    picks.pickNextTaskFair (k.rq c).fairQueue prev = .null :=
  (picks.fair_null _ _).mpr hfair

/-- In every reachable state, on every CPU and for every previous task, the
pick agrees with the class walk exactly if the fast path does not meet an empty
fair queue beside a queued task of the class. -/
theorem fastPath_agrees_iff (picks : ClassPicks) (k₀ : System n) (hquiet : Quiet k₀)
    (calls : List (QueueCall n))
    (hcalls : Run.Guarded QueueCall.step QueueCall.Legal (initYatCaschedRqs k₀) calls)
    (c : Fin n) (prev : Option Pid) :
    PickAgrees picks (calls.foldl QueueCall.step (initYatCaschedRqs k₀)) c prev ↔
      ¬Starves (calls.foldl QueueCall.step (initYatCaschedRqs k₀)) c prev := by
  have hk := hquiet.counted_run hcalls
  generalize calls.foldl QueueCall.step (initYatCaschedRqs k₀) = k at hk
  constructor
  · intro hagrees hstarves
    apply hagrees.not_idle hstarves.queued
    simp [pickNextTask, hstarves.taken, fastPick_of_no_fair picks prev hstarves.no_fair]
  · intro hstarves
    constructor
    · intro hfast next hnext
      by_cases hfair : (k.rq c).fairQueue = []
      · have hnone : firstTask k c = none := by
          by_contra hsome
          exact hstarves ⟨hfast, hfair, (hk.queued_iff c).mpr hsome⟩
        have hidle : next = .idle := by
          rw [fastPick, fastPick_of_no_fair picks prev hfair] at hnext
          exact (Option.some.inj hnext).symm
        rw [restart_snd, (picks.rt_null _).mpr (hk.rtQueue_eq_nil hfast),
          (picks.class_null _).mpr hfair, hnone, hidle]
      · exact hk.restart_of_fastPick picks hfast hfair hnext
    · intro hqueued
      unfold pickNextTask
      split
      · rename_i hfast
        split
        · exact hk.restart_ne_idle picks c prev hqueued
        · rename_i hnull
          exact absurd ⟨hfast, (picks.fair_null _ _).mp hnull, hqueued⟩ hstarves
        · simp
      · exact hk.restart_ne_idle picks c prev hqueued

/-- Classes that pick the first task of their queue. -/
def fifoPicks : ClassPicks where
  pickNextTaskRt := List.head?
  pickNextTaskFair := fun l _ =>
    match l with
    | [] => .null
    | p :: _ => .task p
  classPickFair := List.head?
  rt_null := fun l => by simp
  fair_null := fun l _ => by cases l <;> simp
  class_null := fun l => by simp
  same_task := fun l _ p h => by
    cases l with
    | nil => cases h
    | cons r l =>
        cases h
        rfl

/-- The boot system is quiet. -/
theorem quiet_yatCaschedBootSystem : Quiet (yatCaschedBootSystem 2) where
  forked := fun _ => ⟨⟨rfl, rfl⟩, by simp⟩
  rt_empty := fun _ => rfl
  fair_empty := fun _ => rfl
  nrRunning_zero := fun _ => rfl
  cfsHNrRunning_zero := fun _ => rfl

/-- Task 7 of the class, queued on CPU 0. -/
def oneTask : List (QueueCall 2) :=
  [.enqueue 0 7]

/-- Enqueueing the first task is legal. -/
theorem oneTask_legal :
    Run.Guarded QueueCall.step QueueCall.Legal (initYatCaschedRqs (yatCaschedBootSystem 2))
      oneTask := by
  have hrep := represents_initYatCaschedRqs quiet_yatCaschedBootSystem.forked
  refine ⟨?_, trivial⟩
  intro d hd
  rw [hrep.queued_iff] at hd
  cases hd

/-- Task 5 is a fair task, the others are of the class. -/
def fairAndYatBoot : System 2 :=
  { yatCaschedBootSystem 2 with
    task := fun p =>
      { (yatCaschedBootSystem 2).task p with
        schedClass := if p = 5 then .fair else .yatCasched } }

theorem quiet_fairAndYatBoot : Quiet fairAndYatBoot where
  forked := quiet_yatCaschedBootSystem.forked
  rt_empty := fun _ => rfl
  fair_empty := fun _ => rfl
  nrRunning_zero := fun _ => rfl
  cfsHNrRunning_zero := fun _ => rfl

/-- With task 7 of the class and the fair task 5 on CPU 0, the fast path and the walk agree
on task 5. -/
theorem fastPath_agrees_fairFirst :
    PickAgrees fifoPicks
      ([.enqueue 0 7, .enqueue 0 5].foldl QueueCall.step (initYatCaschedRqs fairAndYatBoot))
      0 none := by
  have hlegal : Run.Guarded QueueCall.step QueueCall.Legal (initYatCaschedRqs fairAndYatBoot)
      [.enqueue 0 7, .enqueue 0 5] := by
    refine ⟨?_, ?_, trivial⟩
    · intro d hd
      rw [(represents_initYatCaschedRqs quiet_fairAndYatBoot.forked).queued_iff] at hd
      cases hd
    · show ∀ d, (5 : Pid) ∉ _
      decide
  refine (fastPath_agrees_iff fifoPicks _ quiet_fairAndYatBoot _ hlegal 0 none).mpr ?_
  intro hstarves
  exact absurd hstarves.no_fair (by decide)

/-- With task 7 on CPU 0 and the CPU idle, the fast path returns the idle task,
and the walk would return task 7. -/
theorem fastPath_starves :
    Run.Guarded QueueCall.step QueueCall.Legal (initYatCaschedRqs (yatCaschedBootSystem 2))
        oneTask ∧
      (pickNextTask fifoPicks
        (oneTask.foldl QueueCall.step (initYatCaschedRqs (yatCaschedBootSystem 2)))
        0 none).2 = some .idle ∧
      (restart fifoPicks
        (oneTask.foldl QueueCall.step (initYatCaschedRqs (yatCaschedBootSystem 2)))
        0 none).2 = some (.task 7) ∧
      ¬PickAgrees fifoPicks
        (oneTask.foldl QueueCall.step (initYatCaschedRqs (yatCaschedBootSystem 2)))
        0 none := by
  have hqueued : Queued
      (oneTask.foldl QueueCall.step (initYatCaschedRqs (yatCaschedBootSystem 2))) 0 7 :=
    ⟨[7], ⟨⟨⟨rfl, rfl⟩, rfl, rfl⟩, by decide⟩, by simp⟩
  refine ⟨oneTask_legal, by decide, by decide, ?_⟩
  intro hagrees
  exact hagrees.not_idle ⟨7, hqueued⟩ (by decide)

end Kernel
end YatCasched
