import YatCasched.Kernel.AffinityChange
import YatCasched.Kernel.Placement
import YatCasched.Kernel.Starvation

/-!
# Masks and sections without migration

The hook {lit}`set_cpus_allowed` of the class is empty, and no step moves a task into the
class.  So nothing that happens to a task of the class changes its masks: no request, no
fallback, and no section without migration.  A task of another class that sleeps in such a
section is pinned to its CPU.  One of the class is not.

Main results:

- Theorem {lit}`masksFrozen`: the masks of the class over a run.
- Theorem {lit}`sleepsPinned`: where a task is woken up that sleeps while it must not
  migrate.
-/

namespace YatCasched
namespace Kernel

open CircularList QueueLife

variable {n : Nat} {cenv : CoreEnv n} {k k' : System n} {m m' : Machine n} {s : TaskLife n}
  {p : Pid} {c : Fin n}

/-! ## The masks of the class -/

/-- A task that is of the class in a state that a run reaches has been so all the time, with
the same masks, unless it was forked in between: whatever was requested of it. -/
theorem masksFrozen (hpicks : PicksMembers cenv.picks) {k₀ : System n} (hk₀ : Idle k₀)
    {ops ops' : List (CoreOp n)}
    (hreach : Trace.Reaches (CoreOp.step cenv) CoreOp.Legal (bootMachine k₀) ops m)
    (hrest : Trace.Reaches (CoreOp.step cenv) (fun m op => op.Legal m ∧ ¬op.Forks p) m ops' m')
    (hcls : (m'.kernel.task p).schedClass = .yatCasched) :
    (m'.kernel.task p).masks = (m.kernel.task p).masks := by
  have hend : (∃ s, Refines m' s) ∧ ((m'.kernel.task p).schedClass = .yatCasched →
      (m'.kernel.task p).masks = (m.kernel.task p).masks) := by
    refine hrest.invariant (fun m₁ => (∃ s, Refines m₁ s) ∧
      ((m₁.kernel.task p).schedClass = .yatCasched →
        (m₁.kernel.task p).masks = (m.kernel.task p).masks)) ?_
      ⟨refines_of_reaches hpicks hk₀.refines hreach, fun _ => rfl⟩
    rintro m₁ op m₂ ⟨⟨s, h⟩, hkept⟩ ⟨hop, hforks⟩ hstep
    constructor
    · exact (refines_step hpicks h hop hstep).refined
    · intro hcls₂
      rcases alters_step h hop hstep p with heq | ⟨_, _, hmasks⟩
      · rw [heq] at hcls₂ ⊢
        exact hkept hcls₂
      · have hsame := hmasks hforks hcls₂
        have hcls₁ : (m₁.kernel.task p).schedClass = .yatCasched :=
          (congrArg TaskMasks.schedClass hsame).symm.trans hcls₂
        exact hsame.trans (hkept hcls₁)
  exact hend.2 hcls

/-- Task 7 runs on CPU 0 when task 8 requests that it may run on CPU 1 only.  Its mask stays. -/
theorem sevenKeepsMask :
    ∃ m m', Trace.Reaches (CoreOp.step twoCpus) CoreOp.Legal (bootMachine sleepingBoot)
        sevenRuns m ∧
      Trace.Reaches (CoreOp.step twoCpus) (fun m op => op.Legal m ∧ ¬op.Forks 7) m
        [.setCpusAllowed 8 7 onlyCpuOne] m' ∧
      (m'.kernel.task 7).masks = (m.kernel.task 7).masks := by
  have hrun : ∃ m m', Trace.Reaches (CoreOp.step twoCpus) CoreOp.Legal
        (bootMachine sleepingBoot) sevenRuns m ∧
      Trace.Reaches (CoreOp.step twoCpus) (fun m op => op.Legal m ∧ ¬op.Forks 7) m
        [.setCpusAllowed 8 7 onlyCpuOne] m' ∧
      (m'.kernel.task 7).schedClass = .yatCasched :=
    ⟨_, _, .cons trivial rfl (.cons trivial rfl (.cons trivial rfl
      (.cons (Or.inr rfl) rfl (.cons trivial rfl (.cons (Or.inr rfl) rfl (.nil _)))))),
      .cons ⟨trivial, id⟩ rfl (.nil _), by decide⟩
  rcases hrun with ⟨m, m', hreach, hrest, hcls⟩
  exact ⟨m, m', hreach, hrest,
    masksFrozen picksMembers_fifoPicks idle_sleepingBoot hreach hrest hcls⟩

/-! ## Going to sleep in a section without migration -/

theorem onlyAccounting_classWalk (picks : ClassPicks) (c : Fin n) (classes : List SchedClass)
    (k : System n) : OnlyAccounting k (classWalk picks c classes k).1 := by
  induction classes generalizing k with
  | nil => exact .refl k
  | cons cls rest ih =>
      have hpick : OnlyAccounting k (classPickNextTask picks c k cls).1 := by
        cases cls with
        | yatCasched => exact onlyAccounting_pickNextTask k c
        | _ => exact .refl k
      unfold classWalk
      split
      · rename_i k₁ next heq
        rw [heq] at hpick
        exact hpick
      · rename_i k₁ heq
        rw [heq] at hpick
        exact hpick.trans (ih k₁)

/-- A pick changes accounting only. -/
theorem onlyAccounting_corePick (picks : ClassPicks) (k : System n) (c : Fin n)
    (prev : Option Pid) : OnlyAccounting k (pickNextTask picks k c prev).1 := by
  have hput : OnlyAccounting k (putPrevTask k c prev) := onlyAccounting_putPrevTask k c prev
  have hrestart : OnlyAccounting k (restart picks k c prev).1 :=
    hput.trans (onlyAccounting_classWalk picks c forEachClass _)
  unfold pickNextTask
  split
  · split
    · exact hrestart
    · exact hput
    · exact .refl k
  · exact hrestart

/-- Storing a mask of a task that is neither queued nor running. -/
theorem doSetCpusAllowed_of_off (hoff : (k.task p).onRq ≠ .queued)
    (hcurrent : taskCurrent k p = false) (ctx : AffinityContext n) :
    doSetCpusAllowed k p ctx = setCpusAllowed k p ctx := by
  have hqueued : taskOnRqQueued k p = false := decide_eq_false hoff
  unfold doSetCpusAllowed requeue
  simp only [hqueued, hcurrent, Bool.false_eq_true, if_false]

/-- The switch away from a task that must not migrate stores its CPU as the only one, unless
the task is of the class. -/
theorem migrateDisableSwitch_cpusPtr (hoff : (k.task p).onRq ≠ .queued)
    (hcurrent : taskCurrent k p = false) (hpinned : isMigrationDisabled k p = true)
    (hptr : (k.task p).cpusPtr = .cpusMask p) (c : Fin n) :
    (migrateDisableSwitch k c p).task p =
      { k.task p with
        cpusPtr :=
          if (k.task p).schedClass = .yatCasched then .cpusMask p else .cpumaskOf c } := by
  unfold migrateDisableSwitch
  rw [hpinned, if_neg (by simp), if_neg (not_not.mpr hptr), doSetCpusAllowed_of_off hoff hcurrent]
  unfold setCpusAllowed
  split
  · -- the hook of the class is empty
    rw [← hptr]
    rfl
  · show (k.updateTask p fun t => { t with cpusPtr := .cpumaskOf c }).task p = _
    exact System.updateTask_task_self k p _

/-- A reschedule that blocks the running task ends with the switch away from it. -/
theorem scheduleLocked_eq_switch (picks : ClassPicks) {now : UInt64}
    (hcurr : (k.rq c).curr = some p) (hstate : (k.task p).state = .sleeping)
    (hother : ((scheduleLocked picks k c now false false).rq c).curr ≠ some p) :
    ∃ k₁ se yat, scheduleLocked picks k c now false false = migrateDisableSwitch k₁ c p ∧
      (k₁.rq c).curr ≠ some p ∧
      k₁.task p = { k.task p with onRq := .off, se := se, yatCasched := yat } := by
  have hcurr' : ((updateRqClock k c now).rq c).curr = some p :=
    ((onlyAccounting_updateRqClock k c now).curr c).trans hcurr
  have hblocked : blockPrevious (updateRqClock k c now) c false false =
      deactivateTask (updateRqClock k c now) c p := by
    have hstate' : ((updateRqClock k c now).task p).state = .sleeping := hstate
    simp [blockPrevious, hcurr', hstate']
  have htask : (deactivateTask (updateRqClock k c now) c p).task p =
      { k.task p with onRq := .off } := by
    unfold deactivateTask
    rw [dequeueTask_task, System.updateTask_task_self]
    rfl
  rw [scheduleLocked_curr, hblocked, hcurr] at hother
  rcases (onlyAccounting_corePick picks (deactivateTask (updateRqClock k c now) c p) c
    (some p)).task p with ⟨se, yat, hpick⟩
  rw [htask] at hpick
  have hcontext := contextSwitch_task (pickNextTask picks
    (deactivateTask (updateRqClock k c now) c p) c (some p)).1 c (NextTask.pid? (pickNextTask picks
      (deactivateTask (updateRqClock k c now) c p) c (some p)).2)
  refine ⟨_, se, yat, ?_, ?_, (congrFun hcontext p).trans hpick⟩
  · unfold scheduleLocked switchFrom
    dsimp only
    rw [hcurr, hblocked]
    dsimp only
    rw [if_neg fun heq => hother heq.symm]
  · unfold contextSwitch
    rw [System.updateRq_rq_self]
    exact hother

/-- A task that goes to sleep while it must not migrate. -/
theorem Refines.scheduleLocked_pinned (h : Refines m s) (hpicks : PicksMembers cenv.picks)
    {now : UInt64} (hsleep : CoreOp.step cenv m (.schedule c now false false) = some m')
    (hcurr : (m.kernel.rq c).curr = some p) (hstate : (m.kernel.task p).state = .sleeping)
    (hpinned : isMigrationDisabled m.kernel p = true)
    (hptr : (m.kernel.task p).cpusPtr = .cpusMask p) :
    (m'.kernel.task p).onRq = .off ∧ (m'.kernel.task p).state = .sleeping ∧
      (m'.kernel.task p).cpu = c ∧ isMigrationDisabled m'.kernel p = true ∧
      (m'.kernel.task p).cpusMask = (m.kernel.task p).cpusMask ∧
      (m'.kernel.task p).cpusPtr =
        if (m.kernel.task p).schedClass = .yatCasched then .cpusMask p else .cpumaskOf c := by
  have hplace := Refines.of_curr (w := m.wakeList) h hcurr
  have hlife := h.scheduleLocked_life cenv.picks hcurr hstate now
  have h' : ∃ s', Refines m' s' := by
    have hlegal : CoreOp.Legal m (.schedule c now false false) := trivial
    exact (refines_step hpicks h hlegal hsleep).refined
  cases hsleep
  have honRq : ((Kernel.scheduleLocked cenv.picks m.kernel c now false false).task p).onRq =
      .off := congrArg LifeTask.onRq hlife
  -- the CPU switches to another task
  have hother : ((Kernel.scheduleLocked cenv.picks m.kernel c now false false).rq c).curr ≠
      some p := by
    intro hp
    rcases h' with ⟨s', h'⟩
    have hqueued := (Refines.of_curr (w := m.wakeList) h' hp).1
    rw [honRq] at hqueued
    cases hqueued
  rcases scheduleLocked_eq_switch cenv.picks hcurr hstate hother with
    ⟨k₁, se, yat, hswitch, hcurr₁, htask₁⟩
  have hcurrent : taskCurrent k₁ p = false := by
    unfold taskCurrent
    rw [htask₁]
    dsimp only
    rw [hplace.2]
    exact decide_eq_false hcurr₁
  have hpinned₁ : isMigrationDisabled k₁ p = true := by
    unfold isMigrationDisabled
    rw [htask₁]
    exact hpinned
  have hend := migrateDisableSwitch_cpusPtr (by simp [htask₁]) hcurrent hpinned₁
    (by rw [htask₁]; exact hptr) c
  rw [← hswitch, htask₁] at hend
  refine ⟨honRq, ?_, ?_, ?_, ?_, ?_⟩
  · rw [hend]
    exact hstate
  · rw [hend]
    exact hplace.2
  · unfold isMigrationDisabled
    rw [hend]
    exact hpinned
  · rw [hend]
  · rw [hend]

/-! ## Waking up -/

/-- A task that must not migrate is placed on any CPU of the mask {lit}`cpus_ptr` points
to. -/
theorem selectTaskRq_pinned {env : WakeupEnv n} (hpinned : isMigrationDisabled k p = true)
    (hany : env.cpumaskAny (k.maskAt (k.task p).cpusPtr) = some c)
    (hmem : c ∈ k.maskAt (k.task p).cpusPtr) (honline : c ∈ k.cpuOnline) (cpu : Fin n) :
    selectTaskRq env k p cpu = some (k, c) := by
  have hpreferred : preferredCpu env k p cpu = (k, some c) := by
    unfold preferredCpu
    rw [hpinned, if_neg (by simp), hany]
  have hallowed : isCpuAllowed k p c = true := by
    unfold isCpuAllowed
    rw [if_neg (not_not.mpr hmem), hpinned, if_pos rfl]
    exact decide_eq_true honline
  unfold selectTaskRq
  rw [hpreferred]
  dsimp only
  rw [if_pos hallowed]

/-- The rest of a wakeup of a task that must not migrate.  A task that is still on its CPU may
be left there. -/
theorem wakeDequeued_pinned {env : WakeupEnv n} (hpinned : isMigrationDisabled m.kernel p = true)
    {onCpu : Bool} (honCpu : onCpu = true → (m.kernel.task p).cpu = c)
    (hany : env.cpumaskAny (m.kernel.maskAt (m.kernel.task p).cpusPtr) = some c)
    (hmem : c ∈ m.kernel.maskAt (m.kernel.task p).cpusPtr) (honline : c ∈ m.kernel.cpuOnline)
    (thisCpu : Fin n) (now : UInt64) :
    ∃ m', wakeDequeued env m p thisCpu onCpu now = some m' ∧ (m'.kernel.task p).cpu = c ∧
      ((m'.kernel.task p).onRq = .queued ∨ p ∈ m'.wakeList c) := by
  have hcpu : ((m.kernel.updateTask p fun t => { t with state := .waking }).task p).cpu =
      (m.kernel.task p).cpu :=
    System.updateTask_task_apply m.kernel p p TaskStruct.cpu fun _ => rfl
  have hsame : SameAffinity m.kernel
      (m.kernel.updateTask p fun t => { t with state := .waking }) :=
    .updateTask _ p fun t => ⟨.waking, t.onRq, t.cpu, t.wakeCpu, t.yatCasched, rfl⟩
  unfold wakeDequeued
  dsimp only
  generalize (m.kernel.updateTask p fun t => { t with state := .waking }) = k₁ at hcpu hsame ⊢
  have hselect : selectTaskRq env k₁ p (k₁.task p).wakeCpu = some (k₁, c) := by
    apply selectTaskRq_pinned
    · unfold isMigrationDisabled
      rw [hsame.migrationDisabled]
      exact hpinned
    · rw [hsame.cpusPtr, hsame.maskAt]
      exact hany
    · rw [hsame.cpusPtr, hsame.maskAt]
      exact hmem
    · rw [hsame.cpuOnline]
      exact honline
  by_cases hstays : (onCpu && env.ttwuQueueFeature &&
      ttwuQueueCond env k₁ p (k₁.task p).cpu thisCpu) = true
  · -- the wake list of its own CPU
    rw [if_pos hstays]
    simp only [Bool.and_eq_true] at hstays
    have hhome := hcpu.trans (honCpu hstays.1.1)
    refine ⟨_, rfl, hhome, Or.inr ?_⟩
    unfold ttwuQueueWakelist
    rw [hhome]
    simp
  · rw [if_neg hstays, hselect]
    dsimp only
    have hqueue := ttwuQueue_placed env
      ⟨if (k₁.task p).cpu ≠ c then setTaskCpu k₁ p c else k₁, m.wakeList⟩ p c thisCpu now
    refine ⟨_, rfl, hqueue.2.1.trans ?_, hqueue.2.2⟩
    dsimp only
    split
    · exact congrArg TaskStruct.cpu (System.updateTask_task_self k₁ p _)
    · rename_i hsame
      exact not_not.mp hsame

/-- A task that goes to sleep on a CPU in a section without migration is woken up there,
whatever all other tasks and CPUs have done since, if it is not of the class.  A task of the
class that has left the CPU is woken up on any CPU of its mask, as if it could migrate. -/
theorem sleepsPinned (hpicks : PicksMembers cenv.picks) {k₀ : System n} (hk₀ : Idle k₀)
    {ops ops' : List (CoreOp n)} {m₁ m₂ : Machine n} {now now' : UInt64}
    (hreach : Trace.Reaches (CoreOp.step cenv) CoreOp.Legal (bootMachine k₀) ops m)
    (hcurr : (m.kernel.rq c).curr = some p) (hstate : (m.kernel.task p).state = .sleeping)
    (hpinned : isMigrationDisabled m.kernel p = true)
    (hptr : (m.kernel.task p).cpusPtr = .cpusMask p)
    (hsleep : CoreOp.step cenv m (.schedule c now false false) = some m₁)
    (hrest : Trace.Reaches (CoreOp.step cenv)
      (fun m op => op.Legal m ∧ op.subject ≠ some p) m₁ ops' m₂)
    (hany : ∀ mask : Finset (Fin n), mask.Nonempty →
      ∃ d ∈ mask, cenv.wakeup.cpumaskAny mask = some d) (thisCpu : Fin n) :
    ((m.kernel.task p).schedClass ≠ .yatCasched → c ∈ m₂.kernel.cpuOnline → ∀ onCpu,
      ∃ m₃, tryToWakeUp cenv.wakeup m₂ thisCpu p true onCpu now' = some (m₃, true) ∧
        (m₃.kernel.task p).cpu = c) ∧
    ((m.kernel.task p).schedClass = .yatCasched → ∀ d ∈ (m.kernel.task p).cpusMask,
      cenv.wakeup.cpumaskAny (m.kernel.task p).cpusMask = some d → d ∈ m₂.kernel.cpuOnline →
      ∃ m₃, tryToWakeUp cenv.wakeup m₂ thisCpu p true false now' = some (m₃, true) ∧
        (m₃.kernel.task p).cpu = d) := by
  rcases refines_of_reaches hpicks hk₀.refines hreach with ⟨s, h⟩
  rcases h.scheduleLocked_pinned hpicks hsleep hcurr hstate hpinned hptr with
    ⟨honRq₁, hstate₁, hcpu₁, hpinned₁, hmask₁, hptr₁⟩
  have h₁ : ∃ s₁, Refines m₁ s₁ := by
    have hlegal : CoreOp.Legal m (.schedule c now false false) := trivial
    exact (refines_step hpicks h hlegal hsleep).refined
  -- the task is as it was when it is woken up
  rcases asleep_of_reaches hpicks h₁ (by simp [honRq₁]) (by simp [hstate₁]) hrest with
    ⟨⟨s₂, h₂⟩, htask₂⟩
  have hpinned₂ : isMigrationDisabled m₂.kernel p = true := by
    unfold isMigrationDisabled
    rw [htask₂]
    exact hpinned₁
  have hwake : ∀ d onCpu, (onCpu = true → c = d) →
      cenv.wakeup.cpumaskAny (m₂.kernel.maskAt (m₂.kernel.task p).cpusPtr) = some d →
      d ∈ m₂.kernel.maskAt (m₂.kernel.task p).cpusPtr → d ∈ m₂.kernel.cpuOnline →
      ∃ m₃, tryToWakeUp cenv.wakeup m₂ thisCpu p true onCpu now' = some (m₃, true) ∧
        (m₃.kernel.task p).cpu = d := by
    intro d onCpu hhome hd hmem honline
    have honCpu : onCpu = true → (m₂.kernel.task p).cpu = d := by
      intro h
      rw [htask₂, hcpu₁]
      exact hhome h
    rcases wakeDequeued_pinned hpinned₂ honCpu hd hmem honline thisCpu now' with
      ⟨m₃, hm₃, hcpu, _⟩
    refine ⟨m₃, ?_, hcpu⟩
    rw [h₂.tryToWakeUp_dequeued cenv.wakeup (by rw [htask₂]; exact honRq₁)
      (by rw [htask₂]; exact hstate₁), hm₃]
    rfl
  rw [htask₂, hptr₁] at hwake
  constructor
  · intro hcls honline onCpu
    rw [if_neg hcls] at hwake
    rcases hany {c} (Finset.singleton_nonempty c) with ⟨d, hd, hchosen⟩
    rw [Finset.mem_singleton.mp hd] at hchosen
    exact hwake c onCpu (fun _ => rfl) hchosen (Finset.mem_singleton_self c) honline
  · intro hcls d hd hchosen honline
    have hmask : m₂.kernel.maskAt (.cpusMask p) = (m.kernel.task p).cpusMask := by
      show (m₂.kernel.task p).cpusMask = _
      rw [htask₂]
      exact hmask₁
    rw [if_pos hcls, hmask] at hwake
    exact hwake d false (fun hfalse => absurd hfalse Bool.false_ne_true) hchosen hd honline

/-- Two CPUs, where {lit}`cpumask_any` is the first one. -/
def firstOfTwoCpus : CoreEnv 2 :=
  { twoCpus with
    wakeup :=
      { twoCpus.wakeup with
        cpumaskAny := fun mask => if 0 ∈ mask then some 0 else if 1 ∈ mask then some 1 else none } }

/-- All tasks sleep, and were on CPU 1 before. -/
def sleepingOnOne : System 2 :=
  { sleepingBoot with
    task := fun p => { sleepingBoot.task p with cpu := 1, wakeCpu := 1 } }

theorem idle_sleepingOnOne : Idle sleepingOnOne where
  forked := quiet_yatCaschedBootSystem.forked
  rt_empty := fun _ => rfl
  fair_empty := fun _ => rfl
  nrRunning_zero := fun _ => rfl
  cfsHNrRunning_zero := fun _ => rfl
  off := idle_sleepingBoot.off
  curr_none := fun _ => rfl

/-- Task 7 runs on CPU 1, must not migrate and says that it goes to sleep. -/
def sevenMustStay : List (CoreOp 2) :=
  [.tryToWakeUp 1 5 true false 0, .tryToWakeUp 1 7 true false 0, .schedule 1 0 false false,
    .setCurrentState 1 .sleeping, .schedule 1 0 false false, .migrateDisable 1,
    .setCurrentState 1 .sleeping]

/-- Task 7 is of the class.  It sleeps on CPU 1 in a section without migration, and wakes up
on CPU 0. -/
theorem sevenLeaves :
    ∃ m m₁ m₂ m₃, Trace.Reaches (CoreOp.step firstOfTwoCpus) CoreOp.Legal
        (bootMachine sleepingOnOne) sevenMustStay m ∧
      isMigrationDisabled m.kernel 7 = true ∧ (m.kernel.task 7).cpu = 1 ∧
      CoreOp.step firstOfTwoCpus m (.schedule 1 0 false false) = some m₁ ∧
      Trace.Reaches (CoreOp.step firstOfTwoCpus) (fun m op => op.Legal m ∧ op.subject ≠ some 7) m₁
        [.tryToWakeUp 1 8 true false 0, .schedule 1 0 false false] m₂ ∧
      tryToWakeUp firstOfTwoCpus.wakeup m₂ 1 7 true false 0 = some (m₃, true) ∧
      (m₃.kernel.task 7).cpu = 0 := by
  have hrun : ∃ m m₁ m₂,
      Trace.Reaches (CoreOp.step firstOfTwoCpus) CoreOp.Legal (bootMachine sleepingOnOne)
        sevenMustStay m ∧
      CoreOp.step firstOfTwoCpus m (.schedule 1 0 false false) = some m₁ ∧
      Trace.Reaches (CoreOp.step firstOfTwoCpus) (fun m op => op.Legal m ∧ op.subject ≠ some 7) m₁
        [.tryToWakeUp 1 8 true false 0, .schedule 1 0 false false] m₂ ∧
      (m.kernel.rq 1).curr = some 7 ∧ (m.kernel.task 7).state = .sleeping ∧
      isMigrationDisabled m.kernel 7 = true ∧ (m.kernel.task 7).cpusPtr = .cpusMask 7 ∧
      (m.kernel.task 7).cpu = 1 ∧ (m.kernel.task 7).schedClass = .yatCasched ∧
      (m.kernel.task 7).cpusMask = {0, 1} ∧ 0 ∈ m₂.kernel.cpuOnline := by
    refine ⟨_, _, _, .cons trivial rfl (.cons trivial rfl (.cons trivial rfl
      (.cons (Or.inr rfl) rfl (.cons trivial rfl (.cons trivial rfl
      (.cons (Or.inr rfl) rfl (.nil _))))))), rfl,
      .cons ⟨trivial, by decide⟩ rfl (.cons ⟨trivial, by decide⟩ rfl (.nil _)), rfl, rfl,
      rfl, rfl, rfl, rfl, ?_, ?_⟩
    · decide
    · decide
  rcases hrun with ⟨m, m₁, m₂, hreach, hsleep, hrest, hcurr, hstate, hpinned, hptr, hcpu, hcls,
    hmask, honline⟩
  have hany : ∀ mask : Finset (Fin 2), mask.Nonempty →
      ∃ d ∈ mask, firstOfTwoCpus.wakeup.cpumaskAny mask = some d := by
    rintro mask ⟨d, hd⟩
    by_cases hzero : 0 ∈ mask
    · exact ⟨0, hzero, if_pos hzero⟩
    · have hone : 1 ∈ mask := by
        rcases (by omega : d = 0 ∨ d = 1) with rfl | rfl
        · exact (hzero hd).elim
        · exact hd
      exact ⟨1, hone, (if_neg hzero).trans (if_pos hone)⟩
  rcases (sleepsPinned picksMembers_fifoPicks idle_sleepingOnOne hreach hcurr hstate hpinned hptr
    hsleep hrest hany 1).2 hcls 0 (by rw [hmask]; decide) (by rw [hmask]; rfl) honline with
    ⟨m₃, hwake, hcpu₃⟩
  exact ⟨m, m₁, m₂, m₃, hreach, hpinned, hcpu, hsleep, hrest, hwake, hcpu₃⟩

end Kernel
end YatCasched
