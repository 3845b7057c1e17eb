import YatCasched.Kernel.Operations

/-!
# The CPU history table and the life of a task

{lit}`pick_next_task_yat_casched` stores the picked task in
{lit}`cpu_history[rq->cpu]`.  A task that exits is dequeued, switched away from
and released in {lit}`finish_task_switch`, which calls the hook
{lit}`task_dead` of its class first.  The cache-aware class has no such hook, so
the table keeps the task until the CPU picks another one of the class.

Main results:

- Theorem {lit}`historyLive_step_iff`: the steps after which no entry names a
  released task.
- Theorem {lit}`historyLive_throughout_iff`: the runs in which no entry ever does.
-/

namespace YatCasched
namespace Kernel

open CircularList

variable {n : Nat}

/-! ## Life stages -/

/-- How far the life of a task has got: {lit}`TASK_DEAD` is set in
{lit}`do_task_dead`, the last reference is dropped in {lit}`finish_task_switch`. -/
inductive LifeStage
  | alive
  | dead
  | released
deriving DecidableEq

/-- The scheduler with the life stages of the tasks.  The history variable
{lit}`lastPicked` keeps the task each CPU picked last. -/
structure LifeCycle (n : Nat) where
  sys : System n
  stage : Pid → LifeStage
  lastPicked : Fin n → Option Pid

/-- A call into the class, or a step of an exiting task. -/
inductive LifeOp (n : Nat)
  | sched (op : YatOp n)
  /-- {lit}`do_task_dead`, up to its call of {lit}`__schedule`. -/
  | doTaskDead (c : Fin n)
  /-- The end of {lit}`finish_task_switch`. -/
  | finishTaskSwitch (prev : Pid)

/-- The pick of an operation, and on which CPU. -/
def YatOp.picked (k : System n) : YatOp n → Option (Fin n × Pid)
  | .pickTask c => (firstTask k c).map fun p => (c, p)
  | .schedule c => (firstTask k c).map fun p => (c, p)
  | _ => none

/-- The last picks after an operation. -/
def recordPick (pick : Option (Fin n × Pid)) (old : Fin n → Option Pid) : Fin n → Option Pid :=
  match pick with
  | none => old
  | some (c, p) => Function.update old c (some p)

/-- A new task is alive, also if a released one was named so. -/
def YatOp.stages (stage : Pid → LifeStage) : YatOp n → Pid → LifeStage
  | .schedFork p => Function.update stage p .alive
  | _ => stage

/-- {lit}`do_task_dead`: the running task is in {lit}`TASK_DEAD`. -/
def doTaskDead (s : LifeCycle n) (c : Fin n) : LifeCycle n :=
  match (s.sys.rq c).curr with
  | none => s
  | some p => { s with stage := Function.update s.stage p .dead }

/-- {lit}`finish_task_switch`: a dead task is released.  There is no
{lit}`task_dead` in {lit}`yat_casched_sched_class`. -/
def finishTaskSwitch (s : LifeCycle n) (prev : Pid) : LifeCycle n :=
  if s.stage prev = .dead then
    { s with stage := Function.update s.stage prev .released }
  else
    s

/-- The effect of a step. -/
def LifeCycle.step (s : LifeCycle n) : LifeOp n → LifeCycle n
  | .sched op =>
      { sys := op.step s.sys
        stage := op.stages s.stage
        lastPicked := recordPick (op.picked s.sys) s.lastPicked }
  | .doTaskDead c => Kernel.doTaskDead s c
  | .finishTaskSwitch prev => Kernel.finishTaskSwitch s prev

/-- What the callers guarantee: released tasks are neither enqueued nor switched
in, the running task is the one that dies, and a switch is finished when the
previous task has been dequeued and switched away from, if it is dead. -/
def LifeCycle.Legal (s : LifeCycle n) : LifeOp n → Prop
  | .sched op =>
      op.Legal s.sys ∧
        match op with
        | .enqueueTask _ p | .switchTo _ (some p) => s.stage p ≠ .released
        | _ => True
  | .doTaskDead c => ∃ p, (s.sys.rq c).curr = some p ∧ s.stage p ≠ .released
  | .finishTaskSwitch prev =>
      s.stage prev = .dead →
        (∀ c, ¬Queued s.sys c prev) ∧ ∀ c, (s.sys.rq c).curr ≠ some prev

/-- No entry of the table names a released task, and each CPU has an entry for
itself only. -/
def HistoryLive (s : LifeCycle n) : Prop :=
  (∀ c i p, (s.sys.rq c).yatCasched.cpuHistory i = some p → s.stage p ≠ .released) ∧
    ∀ c i, i ≠ c → (s.sys.rq c).yatCasched.cpuHistory i = none

/-- A task is released only after every CPU that picked it has picked another task
of the class. -/
def LifeCycle.Superseded (s : LifeCycle n) : LifeOp n → Prop
  | .finishTaskSwitch prev => s.stage prev = .dead → ∀ c, s.lastPicked c ≠ some prev
  | _ => True

/-! ## The table -/

/-- The tables of two states agree. -/
theorem cpuHistory_of_updateRq (k : System n) (c d : Fin n) {f : Rq n → Rq n}
    (hf : ∀ rq, (f rq).yatCasched.cpuHistory = rq.yatCasched.cpuHistory) :
    ((k.updateRq c f).rq d).yatCasched.cpuHistory = (k.rq d).yatCasched.cpuHistory :=
  System.updateRq_rq_apply k c d (fun rq => rq.yatCasched.cpuHistory) hf

/-- A pick stores the first task in the entry of the CPU. -/
theorem pickNextTaskYatCasched_cpuHistory (k : System n) (c d : Fin n)
    {last : Fin n → Option Pid}
    (hlast : ∀ d i, (k.rq d).yatCasched.cpuHistory i = if i = d then last d else none)
    (i : Fin n) :
    ((pickNextTaskYatCasched k c).1.rq d).yatCasched.cpuHistory i =
      if i = d then recordPick ((firstTask k c).map fun p => (c, p)) last d else none := by
  unfold pickNextTaskYatCasched
  cases firstTask k c with
  | none => exact hlast d i
  | some p =>
      simp only [System.updateTask_rq, Option.map_some, recordPick]
      by_cases hdc : d = c
      · subst hdc
        by_cases hid : i = d
        · simp [hid]
        · simp [hid, hlast]
      · simp [hdc, hlast]

/-- The table holds the last picks, after every operation. -/
theorem YatOp.step_cpuHistory (k : System n) (op : YatOp n) {last : Fin n → Option Pid}
    (hlast : ∀ d i, (k.rq d).yatCasched.cpuHistory i = if i = d then last d else none)
    (d i : Fin n) :
    ((op.step k).rq d).yatCasched.cpuHistory i =
      if i = d then recordPick (op.picked k) last d else none := by
  cases op with
  | pickTask c => exact pickNextTaskYatCasched_cpuHistory k c d hlast i
  | schedule c =>
      simp only [YatOp.step, contextSwitch_yatCasched]
      exact pickNextTaskYatCasched_cpuHistory k c d hlast i
  | enqueueTask c p =>
      simp only [YatOp.step, YatOp.picked, recordPick, ← hlast d i, enqueueTaskYatCasched]
      split
      · rw [cpuHistory_of_updateRq]
        · rfl
        · exact fun _ => rfl
      · rw [cpuHistory_of_updateRq]
        exact fun _ => rfl
  | dequeueTask c p =>
      simp only [YatOp.step, YatOp.picked, recordPick, ← hlast d i, dequeueTaskYatCasched]
      split
      · rw [cpuHistory_of_updateRq]
        exact fun _ => rfl
      · rfl
  | taskTick c p =>
      simp only [YatOp.step, YatOp.picked, recordPick, taskTickYatCasched_nrRunning]
      exact hlast d i
  | putPrevTask c p =>
      simp only [YatOp.step, YatOp.picked, recordPick, putPrevTaskYatCasched,
        updateCurrYatCasched_rq]
      exact hlast d i
  | selectTaskRq p taskCpu =>
      simp only [YatOp.step, YatOp.picked, recordPick, selectTaskRqYatCasched_rq]
      exact hlast d i
  | wakeupPreempt c p =>
      simp only [YatOp.step, YatOp.picked, recordPick, wakeupPreemptYatCasched,
        reschedCurr_yatCasched]
      exact hlast d i
  | updateRqClock c now =>
      simp only [YatOp.step, YatOp.picked, recordPick, updateRqClock_yatCasched]
      exact hlast d i
  | switchTo c next =>
      simp only [YatOp.step, YatOp.picked, recordPick, contextSwitch_yatCasched]
      exact hlast d i
  | schedFork p => exact hlast d i
  | setNextTask c p => exact hlast d i
  | yieldTask c => exact hlast d i

/-- After the initialisation a table is empty, and initialising others leaves it
empty. -/
theorem foldl_initYatCaschedRq_cpuHistory (cpus : List (Fin n)) (k : System n) (c : Fin n)
    (hc : c ∈ cpus ∨ (k.rq c).yatCasched.cpuHistory = fun _ => none) :
    ((cpus.foldl initYatCaschedRq k).rq c).yatCasched.cpuHistory = fun _ => none := by
  induction cpus generalizing k with
  | nil => simpa using hc
  | cons d cpus ih =>
      rw [List.foldl_cons]
      apply ih
      by_cases hcd : c = d
      · subst hcd
        right
        simp [initYatCaschedRq]
      · rcases hc with hmem | hempty
        · left
          simpa [hcd] using hmem
        · right
          simpa [initYatCaschedRq, hcd] using hempty

theorem initYatCaschedRqs_cpuHistory (k : System n) (c : Fin n) :
    ((initYatCaschedRqs k).rq c).yatCasched.cpuHistory = fun _ => none :=
  foldl_initYatCaschedRq_cpuHistory _ k c (Or.inl (List.mem_finRange c))

/-! ## The invariant -/

/-- The queues hold no released task, and the table holds the last picks. -/
structure HistoryFollows (s : LifeCycle n) : Prop where
  queues : ∃ q, Represents s.sys q ∧ ∀ c p, p ∈ q c → s.stage p ≠ .released
  history : ∀ d i,
    (s.sys.rq d).yatCasched.cpuHistory i = if i = d then s.lastPicked d else none

/-- Under the invariant, only the last picks matter. -/
theorem HistoryFollows.historyLive_iff {s : LifeCycle n} (hs : HistoryFollows s) :
    HistoryLive s ↔ ∀ c p, s.lastPicked c = some p → s.stage p ≠ .released := by
  constructor
  · intro hlive c p hp
    apply hlive.1 c c p
    rw [hs.history, if_pos rfl, hp]
  · intro hlast
    constructor
    · intro c i p hp
      rw [hs.history] at hp
      split at hp
      · exact hlast c p hp
      · cases hp
    · intro c i hic
      rw [hs.history, if_neg hic]

/-- An operation releases no task. -/
theorem YatOp.stages_ne_released {stage : Pid → LifeStage} {p : Pid} (op : YatOp n)
    (hp : stage p ≠ .released) : op.stages stage p ≠ .released := by
  cases op with
  | schedFork r =>
      by_cases hpr : p = r
      · subst hpr
        simp [YatOp.stages]
      · simpa [YatOp.stages, hpr] using hp
  | _ => exact hp

/-- A picked task is queued. -/
theorem Represents.mem_of_picked {k : System n} {q : Fin n → List Pid} (hq : Represents k q)
    {op : YatOp n} {c : Fin n} {p : Pid} (hp : op.picked k = some (c, p)) : p ∈ q c := by
  have hfirst : firstTask k c = some p := by
    cases op with
    | pickTask d | schedule d =>
        simp only [YatOp.picked, Option.map_eq_some_iff, Prod.mk.injEq] at hp
        rcases hp with ⟨r, hr, rfl, rfl⟩
        exact hr
    | _ => cases hp
  rw [hq.firstTask_eq] at hfirst
  exact List.mem_of_mem_head? hfirst

/-- A recorded pick is an old one or the pick of the operation. -/
theorem recordPick_eq_some {pick : Option (Fin n × Pid)} {old : Fin n → Option Pid}
    {c : Fin n} {p : Pid} (hp : recordPick pick old c = some p) :
    old c = some p ∨ pick = some (c, p) := by
  cases pick with
  | none => exact Or.inl hp
  | some pick =>
      rcases pick with ⟨d, r⟩
      simp only [recordPick] at hp
      by_cases hcd : c = d
      · subst hcd
        rw [Function.update_self] at hp
        cases hp
        exact Or.inr rfl
      · rw [Function.update_of_ne hcd] at hp
        exact Or.inl hp

/-- A legal operation queues no released task. -/
theorem HistoryFollows.sched {s : LifeCycle n} (hs : HistoryFollows s) {op : YatOp n}
    (hop : s.Legal (.sched op)) : HistoryFollows (s.step (.sched op)) := by
  constructor
  · rcases hs.queues with ⟨q, hq, hlive⟩
    refine ⟨_, hq.step hop.1, ?_⟩
    intro c p hp
    apply op.stages_ne_released
    cases op with
    | enqueueTask d r =>
        rcases QueueFamily.mem_step_enqueue.mp hp with hold | ⟨_, hpr⟩
        · exact hlive c p hold
        · rw [hpr]
          exact hop.2
    | dequeueTask d r => exact hlive c p (QueueFamily.mem_of_mem_step_dequeue hp)
    | _ => exact hlive c p hp
  · intro d i
    exact op.step_cpuHistory s.sys hs.history d i

/-- The invariant depends on the stages of the queued tasks only. -/
theorem HistoryFollows.of_stage {s : LifeCycle n} (hs : HistoryFollows s)
    {stage : Pid → LifeStage}
    (hstage : ∀ c p, Queued s.sys c p → s.stage p ≠ .released → stage p ≠ .released) :
    HistoryFollows { s with stage := stage } := by
  constructor
  · rcases hs.queues with ⟨q, hq, hlive⟩
    refine ⟨q, hq, ?_⟩
    intro c p hp
    exact hstage c p ((hq.queued_iff c p).mpr hp) (hlive c p hp)
  · exact hs.history

/-- Every legal step keeps the invariant. -/
theorem historyFollows_step (s : LifeCycle n) (op : LifeOp n) (hs : HistoryFollows s)
    (hop : s.Legal op) : HistoryFollows (s.step op) := by
  cases op with
  | sched op => exact hs.sched hop
  | doTaskDead c =>
      rcases hop with ⟨r, hr, _⟩
      simp only [LifeCycle.step, doTaskDead, hr]
      apply hs.of_stage
      intro d p _ hp
      by_cases hpr : p = r
      · subst hpr
        simp
      · rwa [Function.update_of_ne hpr]
  | finishTaskSwitch prev =>
      simp only [LifeCycle.step, finishTaskSwitch]
      split
      · rename_i hdead
        apply hs.of_stage
        intro d p hqueued hp
        have hpr : p ≠ prev := by
          rintro rfl
          exact (hop hdead).1 d hqueued
        rwa [Function.update_of_ne hpr]
      · exact hs

/-! ## Exactness -/

/-- A legal step leaves no entry that names a released task exactly if it releases no
task that some CPU picked last. -/
theorem historyLive_step_iff (s : LifeCycle n) (op : LifeOp n) (hs : HistoryFollows s)
    (hlive : HistoryLive s) (hop : s.Legal op) :
    HistoryLive (s.step op) ↔ s.Superseded op := by
  rw [hs.historyLive_iff] at hlive
  rw [(historyFollows_step s op hs hop).historyLive_iff]
  cases op with
  | sched op =>
      refine iff_of_true ?_ trivial
      intro c p hp
      apply op.stages_ne_released
      rcases recordPick_eq_some hp with hold | hpick
      · exact hlive c p hold
      · rcases hs.queues with ⟨q, hq, hqueued⟩
        exact hqueued c p (hq.mem_of_picked hpick)
  | doTaskDead c =>
      refine iff_of_true ?_ trivial
      rcases hop with ⟨r, hr, _⟩
      simp only [LifeCycle.step, doTaskDead, hr]
      intro d p hp
      by_cases hpr : p = r
      · subst hpr
        simp
      · rw [Function.update_of_ne hpr]
        exact hlive d p hp
  | finishTaskSwitch prev =>
      simp only [LifeCycle.step, finishTaskSwitch, LifeCycle.Superseded]
      split
      · rename_i hdead
        simp only [hdead, true_implies]
        constructor
        · intro h c hc
          exact h c prev hc (Function.update_self _ _ _)
        · intro h c p hp
          have hpr : p ≠ prev := by
            rintro rfl
            exact h c hp
          rw [Function.update_of_ne hpr]
          exact hlive c p hp
      · rename_i hdead
        exact iff_of_true hlive fun h => absurd h hdead

/-- A legal run from initialised run queues leaves, in every state it reaches, no entry
that names a released task exactly if every task is released only after each CPU that
picked it has picked another one. -/
theorem historyLive_throughout_iff (k₀ : System n)
    (hforked : ∀ p, Ring k₀.links (.runList p) []) (ops : List (LifeOp n))
    (hlegal : Run.Guarded LifeCycle.step LifeCycle.Legal
      ⟨initYatCaschedRqs k₀, fun _ => .alive, fun _ => none⟩ ops) :
    Run.Throughout LifeCycle.step HistoryLive
        ⟨initYatCaschedRqs k₀, fun _ => .alive, fun _ => none⟩ ops ↔
      Run.Guarded LifeCycle.step LifeCycle.Superseded
        ⟨initYatCaschedRqs k₀, fun _ => .alive, fun _ => none⟩ ops := by
  have hfollows : HistoryFollows
      (⟨initYatCaschedRqs k₀, fun _ => .alive, fun _ => none⟩ : LifeCycle n) := by
    constructor
    · refine ⟨fun _ => [], represents_initYatCaschedRqs hforked, ?_⟩
      intro c p hp
      cases hp
    · intro d i
      simp only [initYatCaschedRqs_cpuHistory, ite_self]
  have hlive : HistoryLive
      (⟨initYatCaschedRqs k₀, fun _ => .alive, fun _ => none⟩ : LifeCycle n) := by
    rw [hfollows.historyLive_iff]
    intro c p hp
    cases hp
  exact Run.throughout_iff_guarded historyFollows_step historyLive_step_iff hfollows hlive
    hlegal

/-- The task 7 exits while the task 8 of the class is queued behind it. -/
theorem historyLive_throughout_nextPicked :
    Run.Throughout LifeCycle.step HistoryLive
      ⟨initYatCaschedRqs (yatCaschedBootSystem 2), fun _ => .alive, fun _ => none⟩
      [.sched (.enqueueTask 0 7), .sched (.enqueueTask 0 8), .sched (.schedule 0),
        .doTaskDead 0, .sched (.dequeueTask 0 7), .sched (.putPrevTask 0 7),
        .sched (.schedule 0), .finishTaskSwitch 7] := by
  have hforked : ∀ p, Ring (yatCaschedBootSystem 2).links (.runList p) [] := fun p =>
    ⟨⟨rfl, rfl⟩, by simp⟩
  have hinit := represents_initYatCaschedRqs hforked
  have hfirst := (hinit.legal_iff (.enqueueTask 0 7)).mpr (by decide)
  have hqueued := hinit.step hfirst
  have hsecond := (hqueued.legal_iff (.enqueueTask 0 8)).mpr (by decide)
  have hrunning := (hqueued.step hsecond).step (show (YatOp.schedule 0).Legal _ from trivial)
  have hdequeue := (hrunning.legal_iff (.dequeueTask 0 7)).mpr (by decide)
  have hput := (hrunning.step hdequeue).step (show (YatOp.putPrevTask 0 7).Legal _ from trivial)
  have hnext := hput.step (show (YatOp.schedule 0).Legal _ from trivial)
  apply (historyLive_throughout_iff _ hforked _ ?_).mpr
  · exact ⟨trivial, trivial, trivial, trivial, trivial, trivial, trivial, fun _ => by decide,
      trivial⟩
  · refine ⟨⟨hfirst, by decide⟩, ⟨hsecond, by decide⟩, ⟨trivial, trivial⟩,
      ⟨7, by decide, by decide⟩, ⟨hdequeue, trivial⟩, ⟨trivial, trivial⟩, ⟨trivial, trivial⟩,
      fun _ => ⟨?_, by decide⟩, trivial⟩
    intro c hc
    exact absurd ((hnext.queued_iff c 7).mp hc) (by clear hc; revert c; decide)

/-- Legal steps that leave a stale entry: the only task of the class exits, and the
CPU goes idle. -/
theorem cpuHistory_namesReleased :
    Run.Guarded LifeCycle.step LifeCycle.Legal
        ⟨initYatCaschedRqs (yatCaschedBootSystem 2), fun _ => .alive, fun _ => none⟩
        [.sched (.enqueueTask 0 7), .sched (.schedule 0), .doTaskDead 0,
          .sched (.dequeueTask 0 7), .sched (.putPrevTask 0 7), .sched (.switchTo 0 none),
          .finishTaskSwitch 7] ∧
      ¬Run.Throughout LifeCycle.step HistoryLive
        ⟨initYatCaschedRqs (yatCaschedBootSystem 2), fun _ => .alive, fun _ => none⟩
        [.sched (.enqueueTask 0 7), .sched (.schedule 0), .doTaskDead 0,
          .sched (.dequeueTask 0 7), .sched (.putPrevTask 0 7), .sched (.switchTo 0 none),
          .finishTaskSwitch 7] := by
  have hinit := represents_initYatCaschedRqs (k := yatCaschedBootSystem 2)
    fun p => ⟨⟨rfl, rfl⟩, by simp⟩
  have henqueue := (hinit.legal_iff (.enqueueTask 0 7)).mpr (by decide)
  have hrunning := (hinit.step henqueue).step (show (YatOp.schedule 0).Legal _ from trivial)
  have hdequeue := (hrunning.legal_iff (.dequeueTask 0 7)).mpr (by decide)
  have hput := (hrunning.step hdequeue).step (show (YatOp.putPrevTask 0 7).Legal _ from trivial)
  have hidle := hput.step (show (YatOp.switchTo 0 none).Legal _ from trivial)
  constructor
  · refine ⟨⟨henqueue, by decide⟩, ⟨trivial, trivial⟩, ⟨7, by decide, by decide⟩,
      ⟨hdequeue, trivial⟩, ⟨trivial, trivial⟩, ⟨trivial, trivial⟩, fun _ => ⟨?_, by decide⟩,
      trivial⟩
    intro c hc
    exact absurd ((hidle.queued_iff c 7).mp hc) (by clear hc; revert c; decide)
  · intro h
    exact absurd (h.2.2.2.2.2.2.1.1 0 0 7 (by decide)) (by decide)

end Kernel
end YatCasched
