import YatCasched.Kernel.UnusedClass

/-!
# Starvation of the class

The class is below the fair class, and tasks of the class are not counted in
{lit}`nr_running`.  As long as there is no task of a higher class than the fair one, every
reschedule takes the fast path of {lit}`__pick_next_task`, which never asks the class: its
tasks wait for ever, also on a CPU that is otherwise idle.  Only the stopper of a CPU ends
this, because it is of a higher class itself: when it is done, the classes are walked.

{lit}`pick_next_task_fair` returns {lit}`RETRY_TASK` only when a task of a higher class has
appeared.

Main results:

- Theorem {lit}`neverRuns`: while no stopper runs, no CPU runs a task of the class in any
  reachable state.
- Theorem {lit}`scheduleStopper_curr`: what a CPU runs after its stopper.
-/

namespace YatCasched
namespace Kernel

open CircularList QueueLife

variable {n : Nat} {env : CoreEnv n} {m m' : Machine n} {s s' : TaskLife n} {p : Pid}
  {c : Fin n} {F : Footprint n} {k : System n} {picks : ClassPicks}

/-- No task is of a higher class than the fair one. -/
def NoneAbove (k : System n) : Prop :=
  ∀ p, schedClassAbove (k.task p).schedClass .fair = false

/-- The step runs the stopper of a CPU. -/
def CoreOp.RunsStopper (env : WakeupEnv n) (m : Machine n) : CoreOp n → Prop
  | .pendingStop _ _ _ => True
  | .scheduleStopper _ _ => True
  | .schedExec c _ =>
      ∃ p, (m.kernel.rq c).curr = some p ∧ (schedExecDest env m.kernel c p).2 ≠ none
  | .balancePush _ _ _ => True
  | _ => False

/-! ## Which task a CPU runs -/

/-- What events in a footprint do to the running tasks. -/
structure RunsOnly (F : Footprint n) (s s' : TaskLife n) : Prop where
  cls : ∀ p, s'.cls p = .yatCasched → s.cls p = .yatCasched
  stays : ∀ c, F.switches ≠ some c → s'.curr c = s.curr c
  stops : F.picks = false → ∀ c p, s'.curr c = some p → s.curr c = some p

/-- No event lets a CPU run another task, unless it picks one. -/
theorem Follows.runsOnly (h : Follows F s m) (hs : s.Sound) :
    ∃ s', Refines m s' ∧ RunsOnly F s s' := by
  refine h.invariant (fun s' => RunsOnly F s s') ?_ hs
    ⟨fun _ hp => hp, fun _ _ => rfl, fun _ _ _ hp => hp⟩
  intro s₁ e _ hruns he
  have hcls : ∀ p, (s₁.step e).cls p = .yatCasched → s.cls p = .yatCasched := fun p hp =>
    hruns.cls p (cls_of_step he hp)
  cases e with
  | post t i => exact ⟨hcls, hruns.stays, hruns.stops⟩
  | activate t i => exact ⟨hcls, hruns.stays, hruns.stops⟩
  | switch i blocks next =>
      have hblock : (if blocks then s₁.block i else s₁).curr = s₁.curr := by
        split
        · unfold Life.block
          split
          · exact dequeue_curr s₁ _
          · rfl
        · rfl
      refine ⟨hcls, ?_, ?_⟩
      · intro c hc
        have hci : c ≠ i := by
          rintro rfl
          exact hc he.2.1
        refine (Function.update_of_ne hci _ _).trans ?_
        rw [hblock]
        exact hruns.stays c hc
      · intro hpicks c p hp
        have hnext : next = none := he.2.2.2.resolve_right (by simp [hpicks])
        subst hnext
        have hp' : Function.update (if blocks then s₁.block i else s₁).curr i none c = some p := hp
        by_cases hci : c = i
        · rw [hci, Function.update_self] at hp'
          cases hp'
        · rw [Function.update_of_ne hci, hblock] at hp'
          exact hruns.stops hpicks c p hp'
  | requeue t cls =>
      have hcurr : (s₁.step (.requeue t cls)).curr = s₁.curr := by
        unfold Life.step
        dsimp only
        split
        · exact dequeue_curr s₁ t
        · rfl
      refine ⟨hcls, ?_, ?_⟩
      · rw [hcurr]
        exact hruns.stays
      · rw [hcurr]
        exact hruns.stops
  | move t i =>
      have hcurr : (s₁.step (.move t i)).curr = s₁.curr := dequeue_curr s₁ t
      refine ⟨hcls, ?_, ?_⟩
      · rw [hcurr]
        exact hruns.stays
      · rw [hcurr]
        exact hruns.stops

/-! ## The fast path -/

/-- Without tasks of a higher class the guard of the fast path holds. -/
theorem QueuesAre.fastPath (h : QueuesAre k s) (hnone : NoneAbove k) (c : Fin n)
    (prev : Option Pid) : fastPath k c prev = true := by
  have hprev : schedClassAbove (prevClass k prev) .fair = false := by
    cases prev with
    | none => rfl
    | some p => exact hnone p
  have hrt : (k.rq c).rtQueue = [] := by
    rw [List.eq_nil_iff_forall_not_mem]
    intro p hp
    have habove := hnone p
    rw [(h.counted c).rt_class p hp] at habove
    cases habove
  have hcount : (k.rq c).nrRunning = (k.rq c).cfsHNrRunning := by
    apply UInt32.toNat.inj
    rw [(h.counted c).nrRunning, (h.counted c).cfsHNrRunning, hrt]
    simp
  unfold Kernel.fastPath
  rw [hprev, hcount]
  simp

/-- What the fast path picks is a fair task or the idle task. -/
theorem QueuesAre.pick_fair (h : QueuesAre k s) (hnone : NoneAbove k)
    (hpicks : PicksMembers picks) (hretry : ∀ l prev, picks.pickNextTaskFair l prev ≠ .retry)
    (prev : Option Pid) (hp : NextTask.pid? (Kernel.pickNextTask picks k c prev).2 = some p) :
    (k.task p).schedClass = .fair := by
  unfold Kernel.pickNextTask at hp
  rw [if_pos (h.fastPath hnone c prev)] at hp
  split at hp
  · rename_i heq
    exact (hretry _ _ heq).elim
  · cases hp
  · rename_i q heq
    cases hp
    exact (h.counted c).fair_class _ (hpicks.class_mem _ _ (picks.same_task _ _ _ heq))

/-- A reschedule switches to the task it has picked. -/
theorem scheduleLocked_curr (k : System n) (c : Fin n) (now : UInt64)
    (preempt signalPending : Bool) :
    ((scheduleLocked picks k c now preempt signalPending).rq c).curr =
      NextTask.pid? (pickNextTask picks
        (blockPrevious (updateRqClock k c now) c preempt signalPending) c (k.rq c).curr).2 := by
  have hswitch : ∀ (k : System n) (prev next : Option Pid),
      ((switchFrom k c prev next).rq c).curr = (k.rq c).curr := by
    intro k prev next
    unfold switchFrom migrateDisableSwitch
    split
    · rfl
    · split
      · rfl
      · split
        · rfl
        · split
          · rfl
          · exact doSetCpusAllowed_curr k _ _ c
  unfold scheduleLocked
  dsimp only
  rw [hswitch]
  exact congrArg Rq.curr (System.updateRq_rq_self _ c _)

/-- Without tasks of a higher class a reschedule does not switch to a task of the class. -/
theorem Refines.scheduleLocked_fair (h : Refines m s) (hnone : NoneAbove m.kernel)
    (hpicks : PicksMembers picks) (hretry : ∀ l prev, picks.pickNextTaskFair l prev ≠ .retry)
    (now : UInt64) (preempt signalPending : Bool)
    (hp : ((Kernel.scheduleLocked picks m.kernel c now preempt signalPending).rq c).curr =
      some p) :
    s.cls p = .fair := by
  have hblock := ((h.congr (.updateRqClock m.kernel c now)).blockPrevious c preempt
    signalPending).1
  have hcls : (if blocksPrevious (updateRqClock m.kernel c now) c preempt signalPending then
      s.block c else s).cls = s.cls := by
    split
    · unfold Life.block
      split
      · exact dequeue_cls s _
      · rfl
    · rfl
  have hsame : ∀ q, ((Kernel.blockPrevious (updateRqClock m.kernel c now) c preempt
      signalPending).task q).schedClass = s.cls q := fun q =>
    (hblock.cls q).trans (congrFun hcls q)
  have hnone' : NoneAbove (Kernel.blockPrevious (updateRqClock m.kernel c now) c preempt
      signalPending) := by
    intro q
    rw [hsame, ← h.queues.cls]
    exact hnone q
  rw [scheduleLocked_curr] at hp
  exact (hsame p).symm.trans (hblock.pick_fair hnone' hpicks hretry _ hp)

/-! ## Runs -/

/-- Whatever the CPUs do, none of them runs a task of the class in any state that is reached
while there are no tasks of a higher class than the fair one and no stopper runs. -/
theorem neverRuns (hpicks : PicksMembers env.picks)
    (hretry : ∀ l prev, env.picks.pickNextTaskFair l prev ≠ .retry) {k₀ : System n}
    (hk₀ : Idle k₀) {ops : List (CoreOp n)}
    (hreach : Trace.Reaches (CoreOp.step env)
      (fun m op => op.Legal m ∧ NoneAbove m.kernel ∧ ¬op.RunsStopper env.wakeup m)
      (bootMachine k₀) ops m) (c : Fin n) (p : Pid)
    (hp : (m.kernel.rq c).curr = some p) :
    (m.kernel.task p).schedClass ≠ .yatCasched := by
  have hend : ∃ s, Refines m s ∧ ∀ c p, s.curr c = some p → s.cls p ≠ .yatCasched := by
    refine hreach.invariant (fun m => ∃ s, Refines m s ∧
      ∀ c p, s.curr c = some p → s.cls p ≠ .yatCasched) ?_ ⟨_, hk₀.refines, ?_⟩
    · rintro m₁ op m₂ ⟨s, h, hruns⟩ ⟨hop, hnone, hstopper⟩ hstep
      rcases (refines_step hpicks h hop hstep).runsOnly h.sound with ⟨s', h', honly⟩
      refine ⟨s', h', ?_⟩
      intro c p hp hcls
      have hcls₁ := honly.cls p hcls
      have hcurr : s.curr c = some p → False := fun hcurr => hruns c p hcurr hcls₁
      cases op with
      | schedule d now preempt signalPending =>
          by_cases hcd : c = d
          · subst hcd
            rw [← h'.queues.curr c] at hp
            cases hstep
            rw [h.scheduleLocked_fair hnone hpicks hretry now preempt signalPending hp] at hcls₁
            cases hcls₁
          · rw [honly.stays c fun hd => hcd (Option.some.inj hd).symm] at hp
            exact hcurr hp
      | scheduleStopper d now => exact hstopper trivial
      | _ => exact hcurr (honly.stops rfl c p hp)
    · intro c p hp
      cases hp
  rcases hend with ⟨s, h, hruns⟩
  rw [h.queues.cls]
  exact hruns c p ((h.queues.curr c).symm.trans hp)

/-- A CPU without real-time and fair tasks runs the first task of the class after its
stopper. -/
theorem scheduleStopper_curr (k : System n) (c : Fin n) (now : UInt64)
    (hrt : (k.rq c).rtQueue = []) (hfair : (k.rq c).fairQueue = []) :
    ((scheduleStopper picks k c now).rq c).curr = firstTask k c := by
  have hrq : (updateRqClock k c now).rq c = { k.rq c with clockTask := now } :=
    System.updateRq_rq_self k c _
  have hfirst : firstTask (updateRqClock k c now) c = firstTask k c := by
    unfold firstTask
    rw [hrq]
    rfl
  have hnext : NextTask.pid? (restart picks (updateRqClock k c now) c none).2 =
      firstTask k c := by
    rw [restart_snd, hrq, (picks.rt_null _).mpr hrt, (picks.class_null _).mpr hfair, hfirst]
    cases firstTask k c with
    | none => rfl
    | some p => rfl
  unfold scheduleStopper contextSwitch
  dsimp only
  rw [System.updateRq_rq_self]
  exact hnext

/-- Only tasks of the class. -/
def yatBoot : System 2 :=
  { yatCaschedBootSystem 2 with
    task := fun p => { (yatCaschedBootSystem 2).task p with state := .sleeping } }

theorem idle_yatBoot : Idle yatBoot where
  forked := quiet_yatCaschedBootSystem.forked
  rt_empty := fun _ => rfl
  fair_empty := fun _ => rfl
  nrRunning_zero := fun _ => rfl
  cfsHNrRunning_zero := fun _ => rfl
  off := fun _ => by simp [yatBoot, yatCaschedBootSystem, bootSystem, initTask]
  curr_none := fun _ => rfl

/-- Task 7 is queued on CPU 0, which has nothing else to do and stays idle. -/
theorem sevenNeverRuns :
    ∃ m, Trace.Reaches (CoreOp.step twoCpus)
        (fun m op => op.Legal m ∧ NoneAbove m.kernel ∧ ¬op.RunsStopper twoCpus.wakeup m)
        (bootMachine yatBoot) [.tryToWakeUp 0 7 true false 0, .schedule 0 0 false false] m ∧
      (m.kernel.task 7).schedClass = .yatCasched ∧ Queued m.kernel 0 7 ∧
      (m.kernel.rq 0).curr ≠ some 7 := by
  have hrun : ∃ m₁ success m, tryToWakeUp twoCpus.wakeup (bootMachine yatBoot) 0 7 true false 0 =
        some (m₁, success) ∧ (m₁.kernel.task 7).schedClass = .yatCasched ∧
      CoreOp.step twoCpus (bootMachine yatBoot) (.tryToWakeUp 0 7 true false 0) = some m₁ ∧
      CoreOp.step twoCpus m₁ (.schedule 0 0 false false) = some m ∧
      (m.kernel.task 7).schedClass = .yatCasched ∧ TasksAre m.kernel 0 [7] :=
    ⟨_, _, _, rfl, rfl, rfl, rfl, rfl, ⟨⟨rfl, rfl⟩, rfl, rfl⟩, by decide⟩
  rcases hrun with ⟨m₁, success, m, hwake, hcls₁, hstep₁, hstep, hcls, htasks⟩
  have hnone₀ : NoneAbove (bootMachine yatBoot).kernel := fun _ => rfl
  have hnone₁ : NoneAbove m₁.kernel := by
    intro p
    rcases alters_tryToWakeUp (A := fun q => q = 7) rfl hwake p with heq | ⟨rfl, _⟩
    · rw [heq]
      exact hnone₀ p
    · rw [hcls₁]
      rfl
  have hreach : Trace.Reaches (CoreOp.step twoCpus)
      (fun m op => op.Legal m ∧ NoneAbove m.kernel ∧ ¬op.RunsStopper twoCpus.wakeup m)
      (bootMachine yatBoot) [.tryToWakeUp 0 7 true false 0, .schedule 0 0 false false] m :=
    .cons ⟨trivial, hnone₀, id⟩ hstep₁ (.cons ⟨trivial, hnone₁, id⟩ hstep (.nil _))
  refine ⟨m, hreach, hcls, ⟨[7], htasks, List.mem_cons_self⟩, ?_⟩
  intro hcurr
  refine neverRuns picksMembers_fifoPicks ?_ idle_yatBoot hreach 0 7 hcurr hcls
  intro l prev
  cases l with
  | nil => simp [twoCpus, fifoPicks]
  | cons p l => simp [twoCpus, fifoPicks]

end Kernel
end YatCasched
