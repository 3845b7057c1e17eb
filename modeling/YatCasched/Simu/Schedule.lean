import Mathlib.Tactic.Ring
import YatCasched.Simu.ExecutionTime
import YatCasched.Simu.Experiment
import YatCasched.Simu.Ledger

/-!
# Schedules

Both simulations place every task behind the last one of its processor.  The
loop is analysed once, for any allocator that answers with a processor of the
list; what it produces is a {lit}`Scheduled` list, and a schedule without
overflow is valid.

Main results:

- Theorem {lit}`simulateAllocation_scheduled`: what the loop produces.
- Theorem {lit}`Scheduled.valid`: without overflow that is a valid schedule.
- Theorem {lit}`simulations_valid`: so both simulations produce valid schedules.
-/

namespace YatCasched
namespace Simu

/-! ## The makespan -/

/-- One round of the first loop of {lit}`calculateMakespan`. -/
def finishTimeRound (processorCount : Nat) (processorFinishTimes : ProcId → ℚ) (task : Node) :
    ProcId → ℚ :=
  if 0 ≤ task.partition.toInt ∧ task.partition.toInt < processorCount then
    Function.update processorFinishTimes task.partition.toInt.toNat
      (max (processorFinishTimes task.partition.toInt.toNat) task.finishAt.toInt)
  else
    processorFinishTimes

/-- {lit}`calculateMakespan`. -/
def calculateMakespan (tasks : List Node) (processorCount : Nat) : ℚ :=
  let processorFinishTimes := tasks.foldl (finishTimeRound processorCount) fun _ => 0
  (List.range processorCount).foldl (fun maxFinishTime p =>
    max maxFinishTime (processorFinishTimes p)) 0

/-! ## Valid schedules -/

/-- The tasks of a processor. -/
def tasksOn (tasks : List Node) (p : ProcId) : List Node :=
  tasks.filter fun task => task.partition.toInt = p

/-- The first interval starts at a time, and each other one where the last one
ended. -/
def GapFree : Int64 → List Node → Prop
  | _, [] => True
  | time, task :: tasks => task.start = time ∧ GapFree task.finishAt tasks

/-- The simulated task is the given one but for the fields a simulation writes,
and does not take longer. -/
structure SimulatedAs (task task' : Node) : Prop where
  same : { task with
      partition := task'.partition
      start := task'.start
      finishAt := task'.finishAt
      finish := task'.finish
      expectedET := task'.expectedET
      actualCacheHitRatio := task'.actualCacheHitRatio
      actualL1L2L3HitRatio := task'.actualL1L2L3HitRatio } = task'
  time_nonneg : 0 ≤ task'.expectedET.toInt
  time_le : task'.expectedET.toInt ≤ task.expectedET.toInt

/-- A valid schedule of the tasks on {lit}`P` processors: all are finished and
placed, each takes its execution time, there are no gaps on any processor, and the
makespan is the latest finishing time. -/
structure ValidSchedule (P : Nat) (tasks tasks' : List Node) : Prop where
  simulated : List.Forall₂ SimulatedAs tasks tasks'
  finished : ∀ task ∈ tasks', task.finish = true
  placed : ∀ task ∈ tasks', 0 ≤ task.partition.toInt ∧ task.partition.toInt < P
  oneProcessor : ∀ task ∈ tasks', ∃! p, p < P ∧ task ∈ tasksOn tasks' p
  duration : ∀ task ∈ tasks', task.finishAt.toInt - task.start.toInt = task.expectedET.toInt
  start_nonneg : ∀ task ∈ tasks', 0 ≤ task.start.toInt
  gapFree : ∀ p, p < P → GapFree 0 (tasksOn tasks' p)
  finishAt_le : ∀ task ∈ tasks', (task.finishAt.toInt : ℚ) ≤ calculateMakespan tasks' P
  finishAt_eq : tasks' ≠ [] → ∃ task ∈ tasks', calculateMakespan tasks' P = task.finishAt.toInt

/-- The time the tasks of a processor take. -/
def timeOn (tasks : List Node) (p : ProcId) : Int :=
  ((tasksOn tasks p).map fun task => task.expectedET.toInt).sum

/-- On no processor do the finishing times leave the range of a {lit}`long`. -/
def NoOverflow (P : Nat) (tasks : List Node) : Prop :=
  ∀ p, p < P → timeOn tasks p < 2 ^ 63

/-! ## What the loop produces -/

/-- The task an allocator returns: the given one but for an execution time that is
not longer, and for its hit ratios. -/
structure Marked (task marked : Node) : Prop where
  same : { task with
      expectedET := marked.expectedET
      actualCacheHitRatio := marked.actualCacheHitRatio
      actualL1L2L3HitRatio := marked.actualL1L2L3HitRatio } = marked
  time_nonneg : 0 ≤ marked.expectedET.toInt
  time_le : marked.expectedET.toInt ≤ task.expectedET.toInt

/-- The allocator answers for every task with one of the processors, and with a time the
task may take. -/
structure Allocates {σ : Type} (allocateTask : σ → Node → Except JavaException (Int × σ × Node))
    (size : Nat) (Inv : σ → Prop) (Ok : Node → Prop) (MayTake : Node → Int64 → Prop) : Prop where
  answer : ∀ s task, Inv s → Ok task → ∃ (p : ProcId) (s' : σ) (marked : Node),
    allocateTask s task = .ok ((p : Int), s', marked) ∧ p < size ∧ Inv s' ∧
      Marked task marked ∧ MayTake task marked.expectedET

/-- The tasks have been placed one after the other, from the times in
{lit}`busy`. -/
inductive Scheduled (size : Nat) : (ProcId → Int64) → List Node → List Node → Prop
  | nil (busy : ProcId → Int64) : Scheduled size busy [] []
  | cons {busy : ProcId → Int64} {task marked : Node} {tasks tasks' : List Node} {p : ProcId}
      (hp : p < size) (hmarked : Marked task marked)
      (hrest : Scheduled size (Function.update busy p (busy p + marked.expectedET)) tasks tasks') :
      Scheduled size busy (task :: tasks) (scheduledTask busy marked p :: tasks')

/-- The tasks take times they may take. -/
def Timed (MayTake : Node → Int64 → Prop) (tasks tasks' : List Node) : Prop :=
  List.Forall₂ (fun task task' => MayTake task task'.expectedET) tasks tasks'

theorem Timed.exists_of_mem {MayTake : Node → Int64 → Prop} {tasks tasks' : List Node} {task : Node}
    (h : Timed MayTake tasks tasks') (htask : task ∈ tasks) :
    ∃ task' ∈ tasks', MayTake task task'.expectedET := by
  induction h with
  | nil => cases htask
  | @cons first first' tasks tasks' htime _ ih =>
      rcases List.mem_cons.mp htask with rfl | htask
      · exact ⟨first', List.mem_cons_self, htime⟩
      · rcases ih htask with ⟨task', htask', htime'⟩
        exact ⟨task', List.mem_cons_of_mem first' htask', htime'⟩

/-- The loop succeeds and schedules all tasks. -/
theorem simulateAllocation_scheduled {σ : Type}
    {allocateTask : σ → Node → Except JavaException (Int × σ × Node)} {size : Nat}
    {Inv : σ → Prop} {Ok : Node → Prop} {MayTake : Node → Int64 → Prop}
    (h : Allocates allocateTask size Inv Ok MayTake)
    {s : σ} (hs : Inv s) (busy : ProcId → Int64) {tasks : List Node}
    (htasks : ∀ task ∈ tasks, Ok task) :
    ∃ s' tasks', simulateAllocation allocateTask size s busy tasks = .ok (s', tasks') ∧
      Inv s' ∧ Scheduled size busy tasks tasks' ∧ Timed MayTake tasks tasks' := by
  induction tasks generalizing s busy with
  | nil => exact ⟨s, [], rfl, hs, .nil busy, .nil⟩
  | cons task tasks ih =>
      rcases h.answer s task hs (htasks task List.mem_cons_self) with
        ⟨p, s₁, marked, hallocate, hp, hs₁, hmarked, htime⟩
      rcases ih hs₁ (Function.update busy p (busy p + marked.expectedET))
        (fun t ht => htasks t (List.mem_cons_of_mem task ht)) with
          ⟨s', tasks', hrest, hs', hscheduled, htimes⟩
      refine ⟨s', scheduledTask busy marked p :: tasks', ?_, hs', ?_, ?_⟩
      · rw [simulateAllocation, hallocate]
        dsimp only
        rw [if_neg (by omega), Int.toNat_natCast, if_pos hp, hrest]
      · exact .cons hp hmarked hscheduled
      · exact .cons htime htimes

/-! ## Schedules are valid -/

variable {size : Nat} {busy : ProcId → Int64} {task marked : Node} {tasks tasks' : List Node}
  {p q : ProcId}

theorem scheduledTask_partition (hp : p < 2 ^ 31) :
    (scheduledTask busy marked p).partition.toInt = p :=
  Int32.toInt_ofNat_of_lt hp

/-- A task counts for its own processor. -/
theorem tasksOn_cons_of_eq (h : task.partition.toInt = p) :
    tasksOn (task :: tasks) p = task :: tasksOn tasks p := by
  unfold tasksOn
  rw [List.filter_cons_of_pos]
  exact decide_eq_true h

/-- It does not count for another one. -/
theorem tasksOn_cons_of_ne (h : task.partition.toInt ≠ p) :
    tasksOn (task :: tasks) p = tasksOn tasks p := by
  unfold tasksOn
  rw [List.filter_cons_of_neg]
  rw [decide_eq_true_eq]
  exact h

theorem tasksOn_scheduledTask_self (hp : p < 2 ^ 31) :
    tasksOn (scheduledTask busy marked p :: tasks) p =
      scheduledTask busy marked p :: tasksOn tasks p :=
  tasksOn_cons_of_eq (scheduledTask_partition hp)

theorem tasksOn_scheduledTask_of_ne (hp : p < 2 ^ 31) (hqp : q ≠ p) :
    tasksOn (scheduledTask busy marked p :: tasks) q = tasksOn tasks q := by
  apply tasksOn_cons_of_ne
  rw [scheduledTask_partition hp]
  exact_mod_cast Ne.symm hqp

theorem tasksOn_append_singleton_self (h : task.partition.toInt = p) :
    tasksOn (tasks ++ [task]) p = tasksOn tasks p ++ [task] := by
  simp [tasksOn, h]

theorem tasksOn_append_singleton_of_ne (h : task.partition.toInt ≠ p) :
    tasksOn (tasks ++ [task]) p = tasksOn tasks p := by
  simp [tasksOn, h]

/-- The time of a processor when one more task is placed. -/
theorem timeOn_append_scheduledTask (hp : p < 2 ^ 31) (q : ProcId) :
    timeOn (tasks ++ [scheduledTask busy task p]) q =
      timeOn tasks q + if q = p then task.expectedET.toInt else 0 := by
  have hon := @scheduledTask_partition busy task p hp
  unfold timeOn
  by_cases hqp : q = p
  · rw [hqp, tasksOn_append_singleton_self hon, if_pos rfl]
    simp [scheduledTask]
  · rw [tasksOn_append_singleton_of_ne, if_neg hqp, add_zero]
    rw [hon]
    exact_mod_cast Ne.symm hqp

/-- The tasks are the given ones. -/
theorem Scheduled.simulated (h : Scheduled size busy tasks tasks') :
    List.Forall₂ SimulatedAs tasks tasks' := by
  induction h with
  | nil => exact .nil
  | cons _ hmarked _ ih =>
      refine .cons ⟨?_, hmarked.time_nonneg, hmarked.time_le⟩ ih
      unfold scheduledTask
      conv_rhs => rw [← hmarked.same]

/-- All tasks are finished, on one of the processors. -/
theorem Scheduled.placed (h : Scheduled size busy tasks tasks') (hsize : size ≤ 2 ^ 31) :
    ∀ task ∈ tasks', task.finish = true ∧ ∃ p, p < size ∧ task.partition.toInt = (p : Int) := by
  induction h with
  | nil =>
      intro task htask
      cases htask
  | @cons busy task marked tasks tasks' p hp _ _ ih =>
      intro t ht
      rcases List.mem_cons.mp ht with rfl | ht
      · exact ⟨rfl, p, hp, scheduledTask_partition (hp.trans_le hsize)⟩
      · exact ih t ht

/-- On every processor the first task starts when the processor is free, and each
other one when the last one ended. -/
theorem Scheduled.gapFree (h : Scheduled size busy tasks tasks') (hsize : size ≤ 2 ^ 31)
    (q : ProcId) : GapFree (busy q) (tasksOn tasks' q) := by
  induction h with
  | nil => trivial
  | @cons busy task marked tasks tasks' p hp _ _ ih =>
      have hp31 := hp.trans_le hsize
      by_cases hqp : q = p
      · subst hqp
        rw [tasksOn_scheduledTask_self hp31]
        rw [Function.update_self] at ih
        exact ⟨rfl, ih⟩
      · rw [tasksOn_scheduledTask_of_ne hp31 hqp]
        rw [Function.update_of_ne hqp] at ih
        exact ih

theorem timeOn_scheduledTask_self (hp : p < 2 ^ 31) :
    timeOn (scheduledTask busy marked p :: tasks) p =
      marked.expectedET.toInt + timeOn tasks p := by
  unfold timeOn
  rw [tasksOn_scheduledTask_self hp, List.map_cons, List.sum_cons]
  rfl

theorem timeOn_scheduledTask_of_ne (hp : p < 2 ^ 31) (hqp : q ≠ p) :
    timeOn (scheduledTask busy marked p :: tasks) q = timeOn tasks q := by
  unfold timeOn
  rw [tasksOn_scheduledTask_of_ne hp hqp]

/-- No processor works a negative time. -/
theorem Scheduled.timeOn_nonneg (h : Scheduled size busy tasks tasks') (q : ProcId) :
    0 ≤ timeOn tasks' q := by
  apply List.sum_nonneg
  intro time htime
  rcases List.mem_map.mp htime with ⟨task, htask, rfl⟩
  rcases List.forall₂_iff_get.mp h.simulated with ⟨hlength, hget⟩
  rcases List.mem_iff_get.mp (List.mem_of_mem_filter htask) with ⟨i, rfl⟩
  exact (hget i.val (by rw [hlength]; exact i.isLt) i.isLt).time_nonneg

/-- As long as the finishing times fit, they are what they should be. -/
theorem Scheduled.duration (h : Scheduled size busy tasks tasks') (hsize : size ≤ 2 ^ 31)
    (hbusy : ∀ p, 0 ≤ (busy p).toInt)
    (hfits : ∀ p, p < size → (busy p).toInt + timeOn tasks' p < 2 ^ 63) :
    ∀ task ∈ tasks', 0 ≤ task.start.toInt ∧ 0 ≤ task.expectedET.toInt ∧
      task.finishAt.toInt = task.start.toInt + task.expectedET.toInt := by
  induction h with
  | nil =>
      intro task htask
      cases htask
  | @cons busy task marked tasks tasks' p hp hmarked hrest ih =>
      have hp31 := hp.trans_le hsize
      have htime := hmarked.time_nonneg
      have hfit := hfits p hp
      rw [timeOn_scheduledTask_self hp31] at hfit
      have hlater := hrest.timeOn_nonneg p
      have hsum : (busy p + marked.expectedET).toInt =
          (busy p).toInt + marked.expectedET.toInt :=
        MachineInt.toInt_add_of_lt (hbusy p) htime (by omega)
      have hfits' : ∀ q, q < size →
          ((Function.update busy p (busy p + marked.expectedET)) q).toInt + timeOn tasks' q <
            2 ^ 63 := by
        intro q hq
        by_cases hqp : q = p
        · rw [hqp, Function.update_self, hsum]
          omega
        · rw [Function.update_of_ne hqp, ← timeOn_scheduledTask_of_ne hp31 hqp]
          exact hfits q hq
      have hbusy' : ∀ q,
          0 ≤ ((Function.update busy p (busy p + marked.expectedET)) q).toInt := by
        intro q
        by_cases hqp : q = p
        · rw [hqp, Function.update_self, hsum]
          exact add_nonneg (hbusy p) htime
        · rw [Function.update_of_ne hqp]
          exact hbusy q
      intro t ht
      rcases List.mem_cons.mp ht with rfl | ht
      · exact ⟨hbusy p, htime, hsum⟩
      · exact ih hbusy' hfits' t ht

/-! ## The makespan of a schedule -/

/-- A running maximum. -/
theorem foldl_max_spec {ι : Type*} (f : ι → ℚ) (l : List ι) (init : ℚ) :
    init ≤ l.foldl (fun m x => max m (f x)) init ∧
      (∀ x ∈ l, f x ≤ l.foldl (fun m x => max m (f x)) init) ∧
      (l.foldl (fun m x => max m (f x)) init = init ∨
        ∃ x ∈ l, l.foldl (fun m x => max m (f x)) init = f x) := by
  induction l using List.reverseRecOn with
  | nil =>
      refine ⟨le_rfl, ?_, Or.inl rfl⟩
      intro x hx
      cases hx
  | append_singleton l a ih =>
      rcases ih with ⟨hinit, hle, hattained⟩
      rw [List.foldl_append, List.foldl_cons, List.foldl_nil]
      refine ⟨hinit.trans (le_max_left _ _), ?_, ?_⟩
      · intro x hx
        rcases List.mem_append.mp hx with hx | hx
        · exact (hle x hx).trans (le_max_left _ _)
        · rw [List.mem_singleton.mp hx]
          exact le_max_right _ _
      · rcases max_choice (l.foldl (fun m x => max m (f x)) init) (f a) with hmax | hmax
        · rw [hmax]
          rcases hattained with heq | ⟨x, hx, heq⟩
          · exact Or.inl heq
          · exact Or.inr ⟨x, List.mem_append_left _ hx, heq⟩
        · rw [hmax]
          exact Or.inr ⟨a, by simp, rfl⟩

/-- The finishing time of a processor is the latest of its tasks. -/
theorem foldl_finishTimeRound (tasks : List Node) {P : Nat} (hp : p < P)
    (processorFinishTimes : ProcId → ℚ) :
    tasks.foldl (finishTimeRound P) processorFinishTimes p =
      (tasksOn tasks p).foldl (fun m task => max m (task.finishAt.toInt : ℚ))
        (processorFinishTimes p) := by
  induction tasks generalizing processorFinishTimes with
  | nil => rfl
  | cons task tasks ih =>
      rw [List.foldl_cons, ih]
      by_cases hon : task.partition.toInt = p
      · have hround : finishTimeRound P processorFinishTimes task p =
            max (processorFinishTimes p) task.finishAt.toInt := by
          unfold finishTimeRound
          rw [hon, if_pos ⟨by omega, by exact_mod_cast hp⟩, Int.toNat_natCast,
            Function.update_self]
        rw [tasksOn_cons_of_eq hon, List.foldl_cons, hround]
      · have hround : finishTimeRound P processorFinishTimes task p =
            processorFinishTimes p := by
          unfold finishTimeRound
          split
          · rename_i hrange
            apply Function.update_of_ne
            intro hpt
            exact hon (by rw [hpt, Int.toNat_of_nonneg hrange.1])
          · rfl
        rw [tasksOn_cons_of_ne hon, hround]

/-- The makespan is at least every finishing time, and it is zero or one of
them. -/
theorem calculateMakespan_spec {tasks : List Node} {P : Nat}
    (hplaced : ∀ task ∈ tasks, ∃ p : ProcId, p < P ∧ task.partition.toInt = (p : Int)) :
    (∀ task ∈ tasks, (task.finishAt.toInt : ℚ) ≤ calculateMakespan tasks P) ∧
      0 ≤ calculateMakespan tasks P ∧
      (calculateMakespan tasks P = 0 ∨
        ∃ task ∈ tasks, calculateMakespan tasks P = task.finishAt.toInt) := by
  have houter := foldl_max_spec (tasks.foldl (finishTimeRound P) fun _ => 0) (List.range P) 0
  have hinner : ∀ p, p < P → tasks.foldl (finishTimeRound P) (fun _ => 0) p =
      (tasksOn tasks p).foldl (fun m task => max m (task.finishAt.toInt : ℚ)) 0 :=
    fun p hp => foldl_finishTimeRound tasks hp fun _ => 0
  refine ⟨?_, houter.1, ?_⟩
  · intro task htask
    rcases hplaced task htask with ⟨p, hp, hon⟩
    have hmem : task ∈ tasksOn tasks p :=
      List.mem_filter.mpr ⟨htask, decide_eq_true hon⟩
    have hle := (foldl_max_spec (fun t : Node => (t.finishAt.toInt : ℚ)) (tasksOn tasks p) 0).2.1
      task hmem
    rw [← hinner p hp] at hle
    exact hle.trans (houter.2.1 p (List.mem_range.mpr hp))
  · rcases houter.2.2 with hzero | ⟨p, hp, heq⟩
    · exact Or.inl hzero
    · rw [hinner p (List.mem_range.mp hp)] at heq
      rcases (foldl_max_spec (fun t : Node => (t.finishAt.toInt : ℚ)) (tasksOn tasks p) 0).2.2
        with hzero | ⟨task, htask, heq'⟩
      · exact Or.inl (heq.trans hzero)
      · exact Or.inr ⟨task, List.mem_of_mem_filter htask, heq.trans heq'⟩

/-- A schedule from free processors is valid, if the finishing times fit. -/
theorem Scheduled.valid {P : Nat} (h : Scheduled P (fun _ => 0) tasks tasks')
    (hP : P ≤ 2 ^ 31) (hfits : NoOverflow P tasks') : ValidSchedule P tasks tasks' := by
  have hplaced := h.placed hP
  have hduration := h.duration hP (fun _ => le_rfl) fun p hp => by
    rw [show ((0 : Int64)).toInt = 0 from rfl, zero_add]
    exact hfits p hp
  have hmakespan := calculateMakespan_spec fun task htask => (hplaced task htask).2
  refine ⟨h.simulated, fun task htask => (hplaced task htask).1, ?_, ?_, ?_,
    fun task htask => (hduration task htask).1, fun p _ => h.gapFree hP p, hmakespan.1, ?_⟩
  · intro task htask
    rcases (hplaced task htask).2 with ⟨p, hp, hon⟩
    rw [hon]
    exact ⟨by omega, by exact_mod_cast hp⟩
  · intro task htask
    rcases (hplaced task htask).2 with ⟨p, hp, hon⟩
    refine ⟨p, ⟨hp, List.mem_filter.mpr ⟨htask, decide_eq_true hon⟩⟩, ?_⟩
    rintro q ⟨_, hmem⟩
    have hq := of_decide_eq_true (List.mem_filter.mp hmem).2
    rw [hon] at hq
    exact_mod_cast hq.symm
  · intro task htask
    rw [(hduration task htask).2.2]
    ring
  · intro hne
    rcases hmakespan.2.2 with hzero | hattained
    · rcases List.exists_mem_of_ne_nil tasks' hne with ⟨task, htask⟩
      refine ⟨task, htask, le_antisymm ?_ (hmakespan.1 task htask)⟩
      rw [hzero, (hduration task htask).2.2]
      exact_mod_cast add_nonneg (hduration task htask).1 (hduration task htask).2.1
    · exact hattained

/-! ## Both simulations -/

theorem generateProcessorList_ne_nil {P : Nat} (hP : 1 ≤ P) : generateProcessorList P ≠ [] := by
  unfold generateProcessorList
  rw [Ne, List.range_eq_nil]
  omega

theorem lt_of_mem_generateProcessorList {P : Nat} (hp : p ∈ generateProcessorList P) : p < P :=
  List.mem_range.mp hp

/-- {lit}`WFD` answers with a processor of the list, and leaves the task alone. -/
theorem allocates_wfd {P : Nat} (hP : 1 ≤ P) :
    Allocates (wfdAllocateTask (generateProcessorList P)) P (fun _ => True)
      (fun task => 0 ≤ task.expectedET.toInt) fun task time => time = task.expectedET where
  answer := by
    intro L task _ htime
    rcases WFD.allocate_mem L task [] (generateProcessorList_ne_nil hP) with ⟨p, hp, hid⟩
    refine ⟨p, (WFD.allocate L [task] (generateProcessorList P)).2, task, ?_,
      lt_of_mem_generateProcessorList hp, trivial, ⟨rfl, htime, le_rfl⟩, rfl⟩
    unfold wfdAllocateTask
    dsimp only
    rw [hid]

/-- {lit}`markedNode` writes the hit ratios only. -/
theorem marked_markedNode (htime : 0 ≤ task.expectedET.toInt) (stats : CacheHitStats)
    (cacheState : CacheState) : Marked task (CacheAwareState.markedNode task stats cacheState) where
  same := rfl
  time_nonneg := htime
  time_le := le_rfl

/-- A marked task with a time that is not longer is a marked task. -/
theorem Marked.reduce {time : Int64} (h : Marked task marked) (hnonneg : 0 ≤ time.toInt)
    (hle : time.toInt ≤ marked.expectedET.toInt) :
    Marked task { marked with expectedET := time } where
  same := by
    conv_rhs => rw [← h.same]
  time_nonneg := hnonneg
  time_le := hle.trans h.time_le

/-- A task takes at least one half of its time, and all of it if it saves nothing. -/
def Node.MayTake (task : Node) (time : Int64) : Prop :=
  task.expectedET.toInt / 2 ≤ time.toInt ∧ (task.SavesNothing → time = task.expectedET)

/-- {lit}`CacheAware_v2` answers with a processor of the list, and the task it
returns takes no longer. -/
theorem allocates_cacheAware {P : Nat} (hP : 1 ≤ P) :
    Allocates (cacheAwareAllocateTask (generateProcessorList P)) P CacheAwareState.SameKeys
      (fun task => 0 ≤ task.expectedET.toInt ∧ 0 ≤ task.sensitivity ∧ task.hasWeights = true)
      Node.MayTake where
  answer := by
    rintro st task hkeys ⟨htime, hsensitivity, hweights⟩
    have hne := generateProcessorList_ne_nil hP
    rcases CacheAwareState.allocate_marked hkeys [] hne hweights with
      ⟨id, st', marked, hallocate, hkeys', hresult⟩
    have hanswer : ∃ p : ProcId, id = (p : Int) ∧ p < P ∧ Marked task marked ∧
        marked.expectedET = task.expectedET := by
      cases hscan : (FirstBest.scan (st.score task) doubleMinValue (generateProcessorList P)).1 with
      | none =>
          rw [hscan] at hresult
          rcases hresult with ⟨hid, _, hmarked⟩
          refine ⟨_, hid, lt_of_mem_generateProcessorList (List.head_mem hne), ?_, ?_⟩
          · rw [hmarked]
            exact ⟨rfl, htime, le_rfl⟩
          · rw [hmarked]
      | some p =>
          rw [hscan] at hresult
          rcases hresult with ⟨hid, _, hmarked⟩
          have hbest := (FirstBest.scan_eq_iff).mp hscan
          refine ⟨p, hid, lt_of_mem_generateProcessorList hbest.mem, ?_, ?_⟩
          · rw [hmarked]
            exact marked_markedNode htime _ _
          · rw [hmarked]
            rfl
    rcases hanswer with ⟨p, rfl, hp, hmarked, hgiven⟩
    have hneeds : marked.sensitivity = task.sensitivity ∧
        (marked.SavesNothing ↔ task.SavesNothing) := by
      rw [← hmarked.same]
      exact ⟨rfl, Iff.rfl⟩
    have hhalf := CacheAwareState.calculateExecutionTime_half st' p hmarked.time_nonneg
      (hneeds.1.symm ▸ hsensitivity)
    refine ⟨p, st', { marked with expectedET := st'.calculateExecutionTime marked p }, ?_, hp,
      hkeys', hmarked.reduce ?_ hhalf.2, ?_, ?_⟩
    · unfold cacheAwareAllocateTask
      rw [hallocate]
      dsimp only
      rw [if_neg (by omega), Int.toNat_natCast, List.headD_cons]
    · have hnonneg := hmarked.time_nonneg
      omega
    · rw [← hgiven]
      exact hhalf.1
    · intro hsaves
      rw [← hgiven]
      exact CacheAwareState.calculateExecutionTime_of_savesNothing st' p hmarked.time_nonneg
        (hneeds.2.mpr hsaves)

theorem Node.Proper.one_le_toInt (h : task.Proper) : 1 ≤ task.expectedET.toInt := by
  have hone := h.time_ge_one
  unfold Node.time at hone
  exact_mod_cast hone

theorem Node.Proper.toInt_nonneg (h : task.Proper) : 0 ≤ task.expectedET.toInt :=
  zero_le_one.trans h.one_le_toInt

/-- The first simulation schedules all tasks for the times they came with, whatever the
loads. -/
theorem simulateWFDAllocation_timed {P : Nat} (hP : 1 ≤ P) (processorLoads : WFD.Loads)
    {tasks : List Node} (htasks : ∀ task ∈ tasks, 0 ≤ task.expectedET.toInt) :
    ∃ processorLoads' tasks',
      simulateWFDAllocation tasks (generateProcessorList P) processorLoads =
        .ok (processorLoads', tasks') ∧
      Scheduled P (fun _ => 0) tasks tasks' ∧
      Timed (fun task time => time = task.expectedET) tasks tasks' := by
  rcases simulateAllocation_scheduled (allocates_wfd hP) (s := processorLoads) trivial (fun _ => 0)
    htasks with ⟨processorLoads', tasks', hrun, _, hscheduled, htimes⟩
  refine ⟨processorLoads', tasks', ?_, hscheduled, htimes⟩
  unfold simulateWFDAllocation
  rw [show (generateProcessorList P).length = P from List.length_range]
  exact hrun

theorem simulateWFDAllocation_scheduled {P : Nat} (hP : 1 ≤ P) (processorLoads : WFD.Loads)
    {tasks : List Node} (htasks : ∀ task ∈ tasks, 0 ≤ task.expectedET.toInt) :
    ∃ processorLoads' tasks',
      simulateWFDAllocation tasks (generateProcessorList P) processorLoads =
        .ok (processorLoads', tasks') ∧
      Scheduled P (fun _ => 0) tasks tasks' := by
  rcases simulateWFDAllocation_timed hP processorLoads htasks with
    ⟨processorLoads', tasks', hrun, hscheduled, _⟩
  exact ⟨processorLoads', tasks', hrun, hscheduled⟩

/-- So does the second one, from every state that earlier calls can leave, for times the
tasks may take. -/
theorem simulateCacheAwareAllocation_timed {P : Nat} (hP : 1 ≤ P) {st : CacheAwareState}
    (hst : st.Reachable) {tasks : List Node} (htasks : ∀ task ∈ tasks, task.Proper) :
    ∃ st' tasks',
      simulateCacheAwareAllocation tasks (generateProcessorList P) st = .ok (st', tasks') ∧
      Scheduled P (fun _ => 0) tasks tasks' ∧ Timed Node.MayTake tasks tasks' := by
  rcases simulateAllocation_scheduled (allocates_cacheAware hP) hst.sameKeys (fun _ => 0)
    (fun task htask => ⟨(htasks task htask).toInt_nonneg, (htasks task htask).sensitivity_nonneg,
      (htasks task htask).hasWeights⟩) with ⟨st', tasks', hrun, _, hscheduled, htimes⟩
  refine ⟨st', tasks', ?_, hscheduled, htimes⟩
  unfold simulateCacheAwareAllocation
  rw [show (generateProcessorList P).length = P from List.length_range]
  exact hrun

theorem simulateCacheAwareAllocation_scheduled {P : Nat} (hP : 1 ≤ P) {st : CacheAwareState}
    (hst : st.Reachable) {tasks : List Node} (htasks : ∀ task ∈ tasks, task.Proper) :
    ∃ st' tasks',
      simulateCacheAwareAllocation tasks (generateProcessorList P) st = .ok (st', tasks') ∧
      Scheduled P (fun _ => 0) tasks tasks' := by
  rcases simulateCacheAwareAllocation_timed hP hst htasks with
    ⟨st', tasks', hrun, hscheduled, _⟩
  exact ⟨st', tasks', hrun, hscheduled⟩

/-- What is true of everything scheduled is true of what either simulation produces. -/
theorem simulations_of_scheduled {P : Nat} (hP : 1 ≤ P) {Q : List Node → List Node → Prop}
    (hQ : ∀ tasks tasks', Scheduled P (fun _ => 0) tasks tasks' → Q tasks tasks') :
    (∀ (processorLoads : WFD.Loads) (tasks : List Node),
        (∀ task ∈ tasks, 0 ≤ task.expectedET.toInt) →
      ∃ processorLoads' tasks',
        simulateWFDAllocation tasks (generateProcessorList P) processorLoads =
          .ok (processorLoads', tasks') ∧ Q tasks tasks') ∧
    ∀ (st : CacheAwareState) (tasks : List Node), st.Reachable → (∀ task ∈ tasks, task.Proper) →
      ∃ st' tasks',
        simulateCacheAwareAllocation tasks (generateProcessorList P) st = .ok (st', tasks') ∧
        Q tasks tasks' := by
  constructor
  · intro processorLoads tasks htasks
    rcases simulateWFDAllocation_scheduled hP processorLoads htasks with
      ⟨processorLoads', tasks', hrun, hscheduled⟩
    exact ⟨processorLoads', tasks', hrun, hQ tasks tasks' hscheduled⟩
  · intro st tasks hst htasks
    rcases simulateCacheAwareAllocation_scheduled hP hst htasks with
      ⟨st', tasks', hrun, hscheduled⟩
    exact ⟨st', tasks', hrun, hQ tasks tasks' hscheduled⟩

/-- Both simulations succeed from any state that earlier calls can leave, and
produce valid schedules as long as the finishing times fit. -/
theorem simulations_valid {P : Nat} (hP : 1 ≤ P) (hint : P < 2 ^ 31) :
    (∀ (processorLoads : WFD.Loads) (tasks : List Node),
        (∀ task ∈ tasks, 1 ≤ task.expectedET.toInt) →
      ∃ processorLoads' tasks',
        simulateWFDAllocation tasks (generateProcessorList P) processorLoads =
          .ok (processorLoads', tasks') ∧
        (NoOverflow P tasks' → ValidSchedule P tasks tasks')) ∧
    ∀ (st : CacheAwareState) (tasks : List Node), st.Reachable → (∀ task ∈ tasks, task.Proper) →
      ∃ st' tasks',
        simulateCacheAwareAllocation tasks (generateProcessorList P) st = .ok (st', tasks') ∧
        (NoOverflow P tasks' → ValidSchedule P tasks tasks') := by
  have hvalid := simulations_of_scheduled hP fun tasks tasks' hscheduled =>
    hscheduled.valid hint.le
  refine ⟨?_, hvalid.2⟩
  intro processorLoads tasks htasks
  exact hvalid.1 processorLoads tasks fun task htask => zero_le_one.trans (htasks task htask)

instance (P : Nat) (tasks : List Node) : Decidable (NoOverflow P tasks) :=
  inferInstanceAs (Decidable (∀ p, p < P → timeOn tasks p < 2 ^ 63))

/-- Three tasks of one unit of time on two processors. -/
theorem simulations_valid_unitTasks :
    (∃ processorLoads' tasks',
      simulateWFDAllocation [unitTask, unitTask, unitTask] (generateProcessorList 2)
        WFD.resetLoads = .ok (processorLoads', tasks') ∧
      ValidSchedule 2 [unitTask, unitTask, unitTask] tasks') ∧
    ∃ st' tasks',
      simulateCacheAwareAllocation [unitTask, unitTask, unitTask] (generateProcessorList 2)
        CacheAwareState.resetState = .ok (st', tasks') ∧
      ValidSchedule 2 [unitTask, unitTask, unitTask] tasks' := by
  have htasks : ∀ task ∈ [unitTask, unitTask, unitTask], task = unitTask := by simp
  have hvalid := simulations_valid one_le_two (by norm_num : (2 : Nat) < 2 ^ 31)
  constructor
  · rcases hvalid.1 WFD.resetLoads [unitTask, unitTask, unitTask]
      (fun task htask => by rw [htasks task htask]; decide) with
        ⟨processorLoads', tasks', hrun, hschedule⟩
    have hfits := Run.of_all_ok (P := fun r => NoOverflow 2 r.2) hrun (by decide +kernel)
    exact ⟨processorLoads', tasks', hrun, hschedule hfits⟩
  · rcases hvalid.2 CacheAwareState.resetState [unitTask, unitTask, unitTask] .resetState
      (fun task htask => by rw [htasks task htask]; exact unitTask_proper) with
        ⟨st', tasks', hrun, hschedule⟩
    have hfits := Run.of_all_ok (P := fun r => NoOverflow 2 r.2) hrun (by decide +kernel)
    exact ⟨st', tasks', hrun, hschedule hfits⟩

end Simu
end YatCasched
