import YatCasched.Kernel.CpuChoice
import YatCasched.Kernel.NoLostWakeup

/-!
# Where tasks are placed

A wakeup places a task on a CPU on which it may run.  For a task of the cache-aware class
that blocked it is the CPU the class last picked it on, whatever the other tasks and CPUs
have done since, if it may still run there.  While the task runs, {lit}`sched_exec` never
moves it.

Main results:

- Theorem {lit}`tryToWakeUp_allowed`: the CPU of a woken task.
- Theorem {lit}`wakesAtHome`: the CPU of a task of the class that slept through a run.
- Theorem {lit}`schedExec_stays`: an execution only records the CPU.
-/

namespace YatCasched
namespace Kernel

open CircularList QueueLife

variable {n : Nat} {k k' k'' : System n} {p : Pid} {c : Fin n}

/-! ## Affinity -/

/-- The states agree on where tasks may run. -/
structure SameAffinity (k k' : System n) : Prop where
  cpusMask : ∀ q, (k'.task q).cpusMask = (k.task q).cpusMask
  cpusPtr : ∀ q, (k'.task q).cpusPtr = (k.task q).cpusPtr
  cpuPossibleMask : ∀ q, (k'.task q).cpuPossibleMask = (k.task q).cpuPossibleMask
  migrationDisabled : ∀ q, (k'.task q).migrationDisabled = (k.task q).migrationDisabled
  pfKthread : ∀ q, (k'.task q).pfKthread = (k.task q).pfKthread
  kthreadIsPerCpu : ∀ q, (k'.task q).kthreadIsPerCpu = (k.task q).kthreadIsPerCpu
  cpumask : k'.cpumask = k.cpumask
  cpuOnline : k'.cpuOnline = k.cpuOnline
  cpuActive : k'.cpuActive = k.cpuActive
  cpuDying : k'.cpuDying = k.cpuDying

namespace SameAffinity

theorem refl (k : System n) : SameAffinity k k :=
  ⟨fun _ => rfl, fun _ => rfl, fun _ => rfl, fun _ => rfl, fun _ => rfl, fun _ => rfl, rfl,
    rfl, rfl, rfl⟩

theorem trans (h : SameAffinity k k') (h' : SameAffinity k' k'') : SameAffinity k k'' where
  cpusMask := fun q => (h'.cpusMask q).trans (h.cpusMask q)
  cpusPtr := fun q => (h'.cpusPtr q).trans (h.cpusPtr q)
  cpuPossibleMask := fun q => (h'.cpuPossibleMask q).trans (h.cpuPossibleMask q)
  migrationDisabled := fun q => (h'.migrationDisabled q).trans (h.migrationDisabled q)
  pfKthread := fun q => (h'.pfKthread q).trans (h.pfKthread q)
  kthreadIsPerCpu := fun q => (h'.kthreadIsPerCpu q).trans (h.kthreadIsPerCpu q)
  cpumask := h'.cpumask.trans h.cpumask
  cpuOnline := h'.cpuOnline.trans h.cpuOnline
  cpuActive := h'.cpuActive.trans h.cpuActive
  cpuDying := h'.cpuDying.trans h.cpuDying

theorem of_onlyAccounting (h : OnlyAccounting k k') : SameAffinity k k' where
  cpusMask := fun q => h.apply q (fun t => t.cpusMask) fun _ _ _ => rfl
  cpusPtr := fun q => h.apply q (fun t => t.cpusPtr) fun _ _ _ => rfl
  cpuPossibleMask := fun q => h.apply q (fun t => t.cpuPossibleMask) fun _ _ _ => rfl
  migrationDisabled := fun q => h.apply q (fun t => t.migrationDisabled) fun _ _ _ => rfl
  pfKthread := fun q => h.apply q (fun t => t.pfKthread) fun _ _ _ => rfl
  kthreadIsPerCpu := fun q => h.apply q (fun t => t.kthreadIsPerCpu) fun _ _ _ => rfl
  cpumask := h.cpumask
  cpuOnline := h.cpuOnline
  cpuActive := h.cpuActive
  cpuDying := h.cpuDying

/-- Assigning to state, place and record of a task. -/
theorem updateTask (k : System n) (p : Pid) {f : TaskStruct n → TaskStruct n}
    (hf : ∀ t, ∃ state onRq cpu wakeCpu yat,
      f t = { t with
        state := state, onRq := onRq, cpu := cpu, wakeCpu := wakeCpu, yatCasched := yat }) :
    SameAffinity k (k.updateTask p f) := by
  have hsame : ∀ {β : Type} (g : TaskStruct n → β),
      (∀ t state onRq cpu wakeCpu yat,
        g { t with
          state := state, onRq := onRq, cpu := cpu, wakeCpu := wakeCpu, yatCasched := yat } =
          g t) →
      ∀ q, g ((k.updateTask p f).task q) = g (k.task q) := by
    intro β g hg q
    apply System.updateTask_task_apply
    intro t
    rcases hf t with ⟨state, onRq, cpu, wakeCpu, yat, hft⟩
    rw [hft, hg]
  exact ⟨hsame _ fun _ _ _ _ _ _ => rfl, hsame _ fun _ _ _ _ _ _ => rfl,
    hsame _ fun _ _ _ _ _ _ => rfl, hsame _ fun _ _ _ _ _ _ => rfl,
    hsame _ fun _ _ _ _ _ _ => rfl, hsame _ fun _ _ _ _ _ _ => rfl, rfl, rfl, rfl, rfl⟩

theorem maskAt (h : SameAffinity k k') (ptr : CpumaskPtr n) : k'.maskAt ptr = k.maskAt ptr := by
  cases ptr with
  | cpusMask q => exact h.cpusMask q
  | cpumaskOf cpu => rfl
  | other address => exact congrFun h.cpumask address

/-- The states allow the same CPUs. -/
theorem isCpuAllowed (h : SameAffinity k k') (p : Pid) (cpu : Fin n) :
    isCpuAllowed k' p cpu = isCpuAllowed k p cpu := by
  unfold Kernel.isCpuAllowed isMigrationDisabled
  rw [h.cpusPtr, h.maskAt, h.migrationDisabled, h.pfKthread, h.kthreadIsPerCpu,
    h.cpuPossibleMask, h.cpuOnline, h.cpuActive, h.cpuDying]

end SameAffinity

/-! ## The choice of a CPU -/

variable {env : WakeupEnv n} {m m' : Machine n}

/-- The search for a fallback ends with a CPU on which the task may run. -/
theorem fallbackRq_allowed (hout : fallbackRq env k p = some (k', c)) :
    isCpuAllowed k' p c = true := by
  have hloop : ∀ {rounds : Nat} {state : FallbackState} {k : System n},
      fallbackLoop env.fallback p rounds state k = some (.out c k') →
      isCpuAllowed k' p c = true := by
    intro rounds
    induction rounds with
    | zero =>
        intro state k hout
        cases hout
    | succ rounds ih =>
        intro state k hout
        unfold fallbackLoop at hout
        split at hout
        · rename_i result hround
          cases hout
          unfold fallbackRound at hround
          split at hround
          · rename_i hfirst
            cases hround
            exact isCpuAllowed_of_firstAllowed hfirst
          · split at hround
            · split at hround
              · cases hround
              · cases hround
            · cases hround
            · cases hround
        · exact ih hout
  unfold fallbackRq at hout
  split at hout
  · rename_i destCpu k₁ hselect
    cases hout
    unfold selectFallbackRq at hselect
    split at hselect
    · rename_i hnode
      cases hselect
      rcases Option.bind_eq_some_iff.mp hnode with ⟨mask, _, hfirst⟩
      exact isCpuAllowed_of_firstAllowed hfirst
    · exact hloop hselect
  · cases hout
  · cases hout

/-- So does the choice of a CPU. -/
theorem selectTaskRq_allowed {cpu : Fin n} (hout : selectTaskRq env k p cpu = some (k', c)) :
    isCpuAllowed k' p c = true := by
  unfold selectTaskRq at hout
  dsimp only at hout
  split at hout
  · split at hout
    · rename_i hallowed
      cases hout
      exact hallowed
    · exact fallbackRq_allowed hout
  · exact fallbackRq_allowed hout

/-- A task is activated on a CPU. -/
theorem ttwuDoActivate_placed (k : System n) (c : Fin n) (p : Pid) :
    SameAffinity k (ttwuDoActivate k c p) ∧
      ((ttwuDoActivate k c p).task p).cpu = (k.task p).cpu := by
  have hactivate : SameAffinity k (activateTask k c p) :=
    (SameAffinity.of_onlyAccounting (onlyAccounting_enqueueTask k c p)).trans
      (.updateTask _ p fun t => ⟨t.state, .queued, t.cpu, t.wakeCpu, t.yatCasched, rfl⟩)
  unfold ttwuDoActivate ttwuDoWakeup
  constructor
  · refine hactivate.trans (.trans (.of_onlyAccounting (onlyAccounting_wakeupPreempt _ c p)) ?_)
    exact .updateTask _ p fun t => ⟨.running, t.onRq, t.cpu, t.wakeCpu, t.yatCasched, rfl⟩
  · rw [System.updateTask_task_self]
    dsimp only
    rw [wakeupPreempt_task]
    unfold activateTask
    rw [System.updateTask_task_self]
    exact ((onlyAccounting_enqueueTask k c p).samePlace p).2.1

/-- A wakeup queues the task on its CPU, or on the wake list of the CPU. -/
theorem ttwuQueue_placed (env : WakeupEnv n) (m : Machine n) (p : Pid) (cpu thisCpu : Fin n)
    (now : UInt64) :
    SameAffinity m.kernel (ttwuQueue env m p cpu thisCpu now).kernel ∧
      ((ttwuQueue env m p cpu thisCpu now).kernel.task p).cpu = (m.kernel.task p).cpu ∧
      (((ttwuQueue env m p cpu thisCpu now).kernel.task p).onRq = .queued ∨
        p ∈ (ttwuQueue env m p cpu thisCpu now).wakeList cpu) := by
  unfold ttwuQueue
  split
  · exact ⟨.refl _, rfl, Or.inr (mem_ttwuQueueWakelist m p cpu)⟩
  · have hplaced := ttwuDoActivate_placed (updateRqClock m.kernel cpu now) cpu p
    refine ⟨?_, hplaced.2, Or.inl (ttwuDoActivate_queued _ cpu p).1⟩
    exact SameAffinity.trans (.of_onlyAccounting (onlyAccounting_updateRqClock m.kernel cpu now))
      hplaced.1

/-- The rest of a wakeup after the choice of a CPU. -/
theorem wakeDequeued_of_select {thisCpu : Fin n} {onCpu : Bool} {now : UInt64}
    (hout : wakeDequeued env m p thisCpu onCpu now = some m') :
    (onCpu = true ∧ (m'.kernel.task p).cpu = (m.kernel.task p).cpu) ∨
      ∃ k₂ cpu, selectTaskRq env (m.kernel.updateTask p fun t => { t with state := .waking }) p
          (m.kernel.task p).wakeCpu = some (k₂, cpu) ∧
        SameAffinity k₂ m'.kernel ∧ (m'.kernel.task p).cpu = cpu ∧
        ((m'.kernel.task p).onRq = .queued ∨ p ∈ m'.wakeList cpu) := by
  unfold wakeDequeued at hout
  dsimp only at hout
  split at hout
  · rename_i hwakelist
    cases hout
    simp only [Bool.and_eq_true] at hwakelist
    refine Or.inl ⟨hwakelist.1.1, ?_⟩
    show ((m.kernel.updateTask p fun t => { t with state := .waking }).task p).cpu = _
    rw [System.updateTask_task_self]
  · split at hout
    · cases hout
    · rename_i k₂ cpu hselect
      cases hout
      rw [System.updateTask_task_self] at hselect
      have hset : SameAffinity k₂ (if (k₂.task p).cpu ≠ cpu then setTaskCpu k₂ p cpu else k₂) ∧
          ((if (k₂.task p).cpu ≠ cpu then setTaskCpu k₂ p cpu else k₂).task p).cpu = cpu := by
        split
        · constructor
          · exact .updateTask k₂ p fun t => ⟨t.state, t.onRq, cpu, cpu, t.yatCasched, rfl⟩
          · exact congrArg TaskStruct.cpu (System.updateTask_task_self k₂ p _)
        · rename_i hcpu
          exact ⟨.refl k₂, not_not.mp hcpu⟩
      have hqueue := ttwuQueue_placed env
        ⟨if (k₂.task p).cpu ≠ cpu then setTaskCpu k₂ p cpu else k₂, m.wakeList⟩ p cpu thisCpu now
      exact Or.inr ⟨k₂, cpu, hselect, hset.1.trans hqueue.1, hqueue.2.1.trans hset.2,
        hqueue.2.2⟩

/-- A task that was dequeued and is woken up ends on a CPU on which it may run, unless it
was still being switched out: then it may stay on its own. -/
theorem tryToWakeUp_allowed {thisCpu : Fin n} {inMask onCpu : Bool} {now : UInt64}
    (hout : tryToWakeUp env m thisCpu p inMask onCpu now = some (m', true))
    (hcurr : (m.kernel.rq thisCpu).curr ≠ some p) (hoff : (m.kernel.task p).onRq ≠ .queued) :
    (onCpu = true ∧ (m'.kernel.task p).cpu = (m.kernel.task p).cpu) ∨
      isCpuAllowed m'.kernel p (m'.kernel.task p).cpu = true := by
  unfold tryToWakeUp at hout
  dsimp only at hout
  split at hout
  · cases hout
  · have hnone : ttwuRunnable m.kernel p now = none := by
      unfold ttwuRunnable
      rw [if_neg]
      unfold taskOnRqQueued
      simpa using hoff
    rw [hnone] at hout
    rcases Option.map_eq_some_iff.mp hout with ⟨m₁, hm₁, heq⟩
    cases heq
    rcases wakeDequeued_of_select hm₁ with hstay | ⟨k₂, cpu, hselect, hsame, hcpu, _⟩
    · exact Or.inl hstay
    · right
      rw [hcpu, hsame.isCpuAllowed]
      exact selectTaskRq_allowed hselect

/-- CPU 1 wakes up task 8. -/
theorem eightIsAllowed :
    ∃ m, tryToWakeUp twoCpus.wakeup (bootMachine sleepingBoot) 1 8 true false 0 =
        some (m, true) ∧
      isCpuAllowed m.kernel 8 (m.kernel.task 8).cpu = true := by
  have hwake : ∃ m, tryToWakeUp twoCpus.wakeup (bootMachine sleepingBoot) 1 8 true false 0 =
      some (m, true) := ⟨_, rfl⟩
  rcases hwake with ⟨m, hm⟩
  have hallowed := tryToWakeUp_allowed hm (by decide) (by decide)
  exact ⟨m, hm, hallowed.resolve_left fun h => by cases h.1⟩

/-! ## Going to sleep -/

/-- Storing a mask of a task that is not queued. -/
theorem SameLife.doSetCpusAllowed (hoff : (k.task p).onRq ≠ .queued) (ctx : AffinityContext n) :
    SameLife k (doSetCpusAllowed k p ctx) := by
  have hqueued : taskOnRqQueued k p = false := decide_eq_false hoff
  have hset : ∀ k' : System n, SameLife k' (setCpusAllowed k' p ctx) := by
    intro k'
    unfold setCpusAllowed setCpusAllowedCommon
    split
    · exact .refl k'
    · split
      · exact .updateTask k' p fun _ => rfl
      · exact .updateTask k' p fun _ => rfl
  unfold Kernel.doSetCpusAllowed requeue
  simp only [hqueued, Bool.false_eq_true, if_false]
  refine .trans ?_ (.ite (taskCurrent k p) (.setNextTask _ _ p))
  exact .trans (.ite (taskCurrent k p) (.putPrevTask k _ _)) (hset _)

/-- A pick changes no task that is not first on its queue, up to accounting. -/
theorem pickNextTask_life (picks : ClassPicks) (k : System n) (c : Fin n) (prev : Option Pid)
    (hp : firstTask k c ≠ some p) :
    ((pickNextTask picks k c prev).1.task p).life = (k.task p).life := by
  have hput := (SameLife.putPrevTask k c prev).task p
  have hrestart : ((restart picks k c prev).1.task p).life = (k.task p).life := by
    have hwalk : Alters (fun q => q ≠ p) (putPrevTask k c prev) (restart picks k c prev).1 := by
      refine alters_classWalk c forEachClass _ ?_
      rw [firstTask_putPrevTask]
      rintro q hq rfl
      exact hp hq
    rcases hwalk p with heq | ⟨hne, _⟩
    · exact (congrArg TaskStruct.life heq).trans hput
    · exact (hne rfl).elim
  unfold pickNextTask
  split
  · split
    · exact hrestart
    · exact hput
    · rfl
  · exact hrestart

variable {cenv : CoreEnv n} {s : TaskLife n}

/-- A running task that goes to sleep is dequeued, and nothing else of it changes that a
wakeup reads. -/
theorem Refines.scheduleLocked_life (h : Refines m s) (picks : ClassPicks)
    (hcurr : (m.kernel.rq c).curr = some p) (hstate : (m.kernel.task p).state = .sleeping)
    (now : UInt64) :
    ((Kernel.scheduleLocked picks m.kernel c now false false).task p).life =
      { (m.kernel.task p).life with onRq := .off } := by
  have hclock : Refines ⟨updateRqClock m.kernel c now, m.wakeList⟩ s :=
    h.congr (.updateRqClock m.kernel c now)
  have hcurr' : ((updateRqClock m.kernel c now).rq c).curr = some p :=
    (congrArg LifeRq.curr ((SameLife.updateRqClock m.kernel c now).rq c)).trans hcurr
  have hstate' : ((updateRqClock m.kernel c now).task p).state = .sleeping := hstate
  have hblocks : blocksPrevious (updateRqClock m.kernel c now) c false false = true := by
    simp [blocksPrevious, hcurr', hstate']
  have hblocked : Kernel.blockPrevious (updateRqClock m.kernel c now) c false false =
      deactivateTask (updateRqClock m.kernel c now) c p := by
    simp [Kernel.blockPrevious, hcurr', hstate']
  have hfirst : firstTask (deactivateTask (updateRqClock m.kernel c now) c p) c ≠ some p := by
    have hqueues := (hclock.blockPrevious c false false).1
    rw [hblocks, hblocked, if_pos rfl] at hqueues
    intro hp
    rw [hqueues.yatQueue.firstTask_eq] at hp
    have hmem := List.mem_of_mem_head? hp
    rw [(block_filed h.sound.toFiled c).mem_queue] at hmem
    unfold Life.block at hmem
    rw [← hclock.queues.curr c, hcurr'] at hmem
    exact dequeue_place_ne_queued s p c hmem.1
  have hoff : ((deactivateTask (updateRqClock m.kernel c now) c p).task p).life =
      { (m.kernel.task p).life with onRq := .off } := by
    unfold deactivateTask
    rw [dequeueTask_task, System.updateTask_task_self]
    rfl
  have hpick := (pickNextTask_life picks _ c ((updateRqClock m.kernel c now).rq c).curr
    hfirst).trans hoff
  unfold Kernel.scheduleLocked
  dsimp only
  rw [hblocked]
  rw [hcurr', ← hcurr] at hpick
  have hswitch : ∀ (k : System n) (prev next : Option Pid), prev = some p →
      (k.task p).life = { (m.kernel.task p).life with onRq := .off } →
      ((Kernel.switchFrom k c prev next).task p).life =
        { (m.kernel.task p).life with onRq := .off } := by
    rintro k prev next rfl hlife
    unfold Kernel.switchFrom migrateDisableSwitch
    dsimp only
    split
    · exact hlife
    · split
      · exact hlife
      · split
        · exact hlife
        · have hnot : (k.task p).onRq ≠ .queued := by
            have honRq : (k.task p).onRq = .off := congrArg LifeTask.onRq hlife
            rw [honRq]
            simp
          exact ((SameLife.doSetCpusAllowed hnot _).task p).trans hlife
  exact hswitch _ _ _ hcurr hpick

/-- A task that sleeps and has been dequeued is not woken up in place. -/
theorem Refines.tryToWakeUp_dequeued (h : Refines m s) (env : WakeupEnv n)
    (honRq : (m.kernel.task p).onRq = .off) (hstate : (m.kernel.task p).state = .sleeping)
    (thisCpu : Fin n) (onCpu : Bool) (now : UInt64) :
    Kernel.tryToWakeUp env m thisCpu p true onCpu now =
      (Kernel.wakeDequeued env m p thisCpu onCpu now).map fun m => (m, true) := by
  have hnotCurr : (m.kernel.rq thisCpu).curr ≠ some p := by
    intro hp
    have hqueued := (Refines.of_curr (w := m.wakeList) h hp).1
    rw [honRq] at hqueued
    cases hqueued
  have hnotQueued : ttwuRunnable m.kernel p now = none := by
    unfold ttwuRunnable
    rw [if_neg]
    simp [taskOnRqQueued, honRq]
  unfold Kernel.tryToWakeUp
  dsimp only
  rw [if_neg (not_not.mpr ⟨hstate, rfl⟩), if_neg hnotCurr, hnotQueued]

/-- A task that sleeps stays as it is as long as no step is about it. -/
theorem asleep_of_reaches (hpicks : PicksMembers cenv.picks) (h : ∃ s, Refines m s)
    {ops : List (CoreOp n)} (hoff : (m.kernel.task p).onRq ≠ .queued)
    (hstate : (m.kernel.task p).state ≠ .waking)
    (htrace : Trace.Reaches (CoreOp.step cenv)
      (fun m op => op.Legal m ∧ op.subject ≠ some p) m ops m') :
    (∃ s, Refines m' s) ∧ m'.kernel.task p = m.kernel.task p := by
  refine htrace.invariant
    (fun m' => (∃ s, Refines m' s) ∧ m'.kernel.task p = m.kernel.task p) ?_ ⟨h, rfl⟩
  rintro m₁ op m₂ ⟨⟨s₁, h₁⟩, htask⟩ ⟨hop, hsubject⟩ hstep
  constructor
  · exact (refines_step hpicks h₁ hop hstep).refined
  · rcases alters_step h₁ hop hstep p with heq | ⟨hconcerns, _⟩
    · exact heq.trans htask
    · rcases hconcerns with hqueued | ⟨c, hc⟩ | hp
      · exact (hoff (htask ▸ hqueued)).elim
      · exact (hstate (htask ▸ (h₁.placed.waking p c hc).1)).elim
      · exact (hsubject hp).elim

/-! ## Waking up at home -/

/-- Nothing keeps a task from being placed on a CPU: it is allowed on several, may migrate
and may run there. -/
structure MayReturn (k : System n) (p : Pid) (c : Fin n) : Prop where
  several : 1 < (k.task p).nrCpusAllowed
  enabled : isMigrationDisabled k p = false
  mem_cpusMask : c ∈ (k.task p).cpusMask
  online : c ∈ k.cpuOnline
  allowed : isCpuAllowed k p c = true

/-- A wakeup places a task on the CPU the class has recorded for it, if it may. -/
theorem selectTaskRq_home (hcls : (k.task p).schedClass = .yatCasched)
    (hlast : (k.task p).yatCasched.lastCpu = (c : Nat)) (hmay : MayReturn k p c) (cpu : Fin n) :
    selectTaskRq env k p cpu = some (k, c) := by
  have hhome : ReturnsHome k p c :=
    ⟨hlast, mem_candidates.mpr ⟨hmay.mem_cpusMask, hmay.online⟩⟩
  have hpreferred : preferredCpu env k p cpu = (k, some c) := by
    unfold preferredCpu
    rw [if_pos, if_pos hcls, selectTaskRqYatCasched_home hhome]
    simpa [hmay.enabled] using hmay.several
  unfold selectTaskRq
  rw [hpreferred]
  dsimp only
  rw [if_pos hmay.allowed]

/-- The rest of a wakeup of a task that slept on the CPU the class has recorded. -/
theorem wakeDequeued_home (env : WakeupEnv n) (hcls : (m.kernel.task p).schedClass = .yatCasched)
    (hlast : (m.kernel.task p).yatCasched.lastCpu = (c : Nat))
    (hcpu : (m.kernel.task p).cpu = c) (hmay : MayReturn m.kernel p c) (thisCpu : Fin n)
    (onCpu : Bool) (now : UInt64) :
    ∃ m', wakeDequeued env m p thisCpu onCpu now = some m' ∧ (m'.kernel.task p).cpu = c ∧
      ((m'.kernel.task p).onRq = .queued ∨ p ∈ m'.wakeList c) := by
  have hsame : SameAffinity m.kernel
      (m.kernel.updateTask p fun t => { t with state := .waking }) :=
    .updateTask _ p fun t => ⟨.waking, t.onRq, t.cpu, t.wakeCpu, t.yatCasched, rfl⟩
  have htask := System.updateTask_task_self m.kernel p fun t => { t with state := .waking }
  unfold wakeDequeued
  dsimp only
  generalize (m.kernel.updateTask p fun t => { t with state := .waking }) = k₁ at hsame htask ⊢
  have hcpu₁ : (k₁.task p).cpu = c := by
    rw [htask]
    exact hcpu
  have hmay₁ : MayReturn k₁ p c := by
    constructor
    · rw [htask]
      exact hmay.several
    · unfold isMigrationDisabled
      rw [htask]
      exact hmay.enabled
    · rw [hsame.cpusMask]
      exact hmay.mem_cpusMask
    · rw [hsame.cpuOnline]
      exact hmay.online
    · rw [hsame.isCpuAllowed]
      exact hmay.allowed
  split
  · rw [hcpu₁]
    exact ⟨_, rfl, hcpu₁, Or.inr (mem_ttwuQueueWakelist ⟨k₁, m.wakeList⟩ p c)⟩
  · rw [selectTaskRq_home (by rw [htask]; exact hcls) (by rw [htask]; exact hlast) hmay₁]
    dsimp only
    rw [if_neg (not_not.mpr hcpu₁)]
    have hqueue := ttwuQueue_placed env ⟨k₁, m.wakeList⟩ p c thisCpu now
    exact ⟨_, rfl, hqueue.2.1.trans hcpu₁, hqueue.2.2⟩

/-- A task of the class that goes to sleep on a CPU is woken up on this CPU, whatever all
other tasks and CPUs have done since, if nothing keeps it from being placed there. -/
theorem wakesAtHome (hpicks : PicksMembers cenv.picks) {k₀ : System n} (hk₀ : Idle k₀)
    {ops ops' : List (CoreOp n)} {m₁ m₂ : Machine n} {now now' : UInt64}
    (hreach : Trace.Reaches (CoreOp.step cenv) CoreOp.Legal (bootMachine k₀) ops m)
    (hcurr : (m.kernel.rq c).curr = some p)
    (hcls : (m.kernel.task p).schedClass = .yatCasched)
    (hpicked : (m.kernel.task p).yatCasched.lastCpu ≠ -1)
    (hstate : (m.kernel.task p).state = .sleeping)
    (hsleep : CoreOp.step cenv m (.schedule c now false false) = some m₁)
    (hrest : Trace.Reaches (CoreOp.step cenv)
      (fun m op => op.Legal m ∧ op.subject ≠ some p) m₁ ops' m₂)
    (hmay : MayReturn m₂.kernel p c) (thisCpu : Fin n) (onCpu : Bool) :
    ∃ m₃, tryToWakeUp cenv.wakeup m₂ thisCpu p true onCpu now' = some (m₃, true) ∧
      (m₃.kernel.task p).cpu = c ∧
      ((m₃.kernel.task p).onRq = .queued ∨ p ∈ m₃.wakeList c) := by
  rcases refines_of_reaches hpicks hk₀.refines hreach with ⟨s, h⟩
  -- what is recorded of the task when it goes to sleep
  have hplace := Refines.of_curr (w := m.wakeList) h hcurr
  have hlast : (m.kernel.task p).yatCasched.lastCpu = (c : Nat) := by
    have hrecorded := h.queues.recorded p c ((h.places.queued p c).mpr hplace)
      ((h.queues.cls p).symm.trans hcls)
    exact hrecorded.resolve_left hpicked
  have hlife := h.scheduleLocked_life cenv.picks hcurr hstate now
  have h₁ : ∃ s₁, Refines m₁ s₁ := by
    have hlegal : CoreOp.Legal m (.schedule c now false false) := trivial
    exact (refines_step hpicks h hlegal hsleep).refined
  replace hlife : (m₁.kernel.task p).life = { (m.kernel.task p).life with onRq := .off } := by
    cases hsleep
    exact hlife
  -- it is still there when it is woken up
  have honRq₁ : (m₁.kernel.task p).onRq = .off := congrArg LifeTask.onRq hlife
  have hstate₁ : (m₁.kernel.task p).state = .sleeping :=
    (congrArg LifeTask.state hlife).trans hstate
  have hrest' := asleep_of_reaches hpicks h₁ (by simp [honRq₁]) (by simp [hstate₁]) hrest
  have hlife₂ : (m₂.kernel.task p).life = { (m.kernel.task p).life with onRq := .off } :=
    (congrArg TaskStruct.life hrest'.2).trans hlife
  rcases hrest'.1 with ⟨s₂, h₂⟩
  have honRq₂ : (m₂.kernel.task p).onRq = .off := congrArg LifeTask.onRq hlife₂
  have hcpu₂ : (m₂.kernel.task p).cpu = c := (congrArg LifeTask.cpu hlife₂).trans hplace.2
  have hstate₂ : (m₂.kernel.task p).state = .sleeping :=
    (congrArg LifeTask.state hlife₂).trans hstate
  have hcls₂ : (m₂.kernel.task p).schedClass = .yatCasched :=
    (congrArg LifeTask.schedClass hlife₂).trans hcls
  have hlast₂ : (m₂.kernel.task p).yatCasched.lastCpu = (c : Nat) :=
    (congrArg LifeTask.lastCpu hlife₂).trans hlast
  rcases wakeDequeued_home cenv.wakeup hcls₂ hlast₂ hcpu₂ hmay thisCpu onCpu now' with
    ⟨m₃, hm₃, hcpu₃, hplaced⟩
  refine ⟨m₃, ?_, hcpu₃, hplaced⟩
  rw [h₂.tryToWakeUp_dequeued cenv.wakeup honRq₂ hstate₂, hm₃]
  rfl

/-- Task 7 sleeps while CPU 1 wakes up task 8 and runs, and is woken up on CPU 0. -/
theorem sevenWakesAtHome :
    ∃ m m₁ m₂ m₃, Trace.Reaches (CoreOp.step twoCpus) CoreOp.Legal (bootMachine sleepingBoot)
        sevenRuns m ∧
      CoreOp.step twoCpus m (.schedule 0 0 false false) = some m₁ ∧
      Trace.Reaches (CoreOp.step twoCpus) (fun m op => op.Legal m ∧ op.subject ≠ some 7) m₁
        [.tryToWakeUp 1 8 true false 0, .schedule 1 0 false false] m₂ ∧
      tryToWakeUp twoCpus.wakeup m₂ 1 7 true true 0 = some (m₃, true) ∧
      (m₃.kernel.task 7).cpu = 0 ∧
      ((m₃.kernel.task 7).onRq = .queued ∨ 7 ∈ m₃.wakeList 0) := by
  have hrun : ∃ m m₁ m₂,
      Trace.Reaches (CoreOp.step twoCpus) CoreOp.Legal (bootMachine sleepingBoot) sevenRuns m ∧
      CoreOp.step twoCpus m (.schedule 0 0 false false) = some m₁ ∧
      Trace.Reaches (CoreOp.step twoCpus) (fun m op => op.Legal m ∧ op.subject ≠ some 7) m₁
        [.tryToWakeUp 1 8 true false 0, .schedule 1 0 false false] m₂ ∧
      (m.kernel.rq 0).curr = some 7 ∧ (m.kernel.task 7).schedClass = .yatCasched ∧
      (m.kernel.task 7).yatCasched.lastCpu ≠ -1 ∧ (m.kernel.task 7).state = .sleeping ∧
      MayReturn m₂.kernel 7 0 := by
    refine ⟨_, _, _, .cons trivial rfl (.cons trivial rfl (.cons trivial rfl
      (.cons (Or.inr rfl) rfl (.cons trivial rfl (.cons (Or.inr rfl) rfl (.nil _)))))), rfl,
      .cons ⟨trivial, by decide⟩ rfl (.cons ⟨trivial, by decide⟩ rfl (.nil _)), rfl, rfl, ?_, rfl,
      ?_⟩
    · decide
    · constructor
      · decide
      · rfl
      · decide
      · decide
      · decide
  rcases hrun with ⟨m, m₁, m₂, hreach, hsleep, hrest, hcurr, hcls, hpicked, hstate, hmay⟩
  rcases wakesAtHome picksMembers_fifoPicks idle_sleepingBoot hreach hcurr hcls hpicked hstate
    hsleep hrest hmay 1 true with ⟨m₃, hwake, hhome⟩
  exact ⟨m, m₁, m₂, m₃, hreach, hsleep, hrest, hwake, hhome⟩

/-! ## Executing a program -/

/-- The balancing of an execution never moves a task of the class off its CPU, if it may
run there: it records the CPU, and no stopper runs. -/
theorem schedExec_stays (hpicks : PicksMembers cenv.picks) {k₀ : System n} (hk₀ : Idle k₀)
    {ops : List (CoreOp n)}
    (hreach : Trace.Reaches (CoreOp.step cenv) CoreOp.Legal (bootMachine k₀) ops m)
    (hcurr : (m.kernel.rq c).curr = some p)
    (hcls : (m.kernel.task p).schedClass = .yatCasched) (honline : c ∈ m.kernel.cpuOnline)
    (hmask : c ∈ (m.kernel.task p).cpusMask) (now : UInt64) :
    schedExec cenv.wakeup m c now =
      { m with
        kernel := m.kernel.updateTask p fun t =>
          { t with yatCasched := { t.yatCasched with lastCpu := (c : Nat) } } } := by
  rcases refines_of_reaches hpicks hk₀.refines hreach with ⟨s, h⟩
  have hplace := Refines.of_curr (w := m.wakeList) h hcurr
  have hrecorded := h.queues.recorded p c ((h.places.queued p c).mpr hplace)
    ((h.queues.cls p).symm.trans hcls)
  have hdest : selectTaskRqYatCasched m.kernel p c =
      (m.kernel.updateTask p fun t =>
        { t with yatCasched := { t.yatCasched with lastCpu := (c : Nat) } }, c) := by
    rcases hrecorded with hnone | hlast
    · exact selectTaskRqYatCasched_unrecorded (Or.inl hnone) c
    · rw [selectTaskRqYatCasched_home ⟨hlast, mem_candidates.mpr ⟨hmask, honline⟩⟩ c]
      have hsame : (m.kernel.updateTask p fun t =>
          { t with yatCasched := { t.yatCasched with lastCpu := (c : Nat) } }) = m.kernel := by
        unfold System.updateTask
        rw [← hlast, Function.update_eq_self]
      rw [hsame]
  have hexec : schedExecDest cenv.wakeup m.kernel c p =
      ((selectTaskRqYatCasched m.kernel p c).1, none) := by
    unfold schedExecDest
    rw [if_pos hcls, hplace.2]
    dsimp only
    rw [if_pos]
    left
    rw [hdest]
  unfold schedExec
  rw [hcurr]
  dsimp only
  rw [hexec, hdest]

/-- Task 7 runs on CPU 0 and executes a program. -/
theorem sevenExecutes :
    ∃ m, Trace.Reaches (CoreOp.step twoCpus) CoreOp.Legal (bootMachine sleepingBoot) sevenRuns
        m ∧
      schedExec twoCpus.wakeup m 0 0 =
        { m with
          kernel := m.kernel.updateTask 7 fun t =>
            { t with yatCasched := { t.yatCasched with lastCpu := (0 : Nat) } } } := by
  have hrun : ∃ m,
      Trace.Reaches (CoreOp.step twoCpus) CoreOp.Legal (bootMachine sleepingBoot) sevenRuns m ∧
      (m.kernel.rq 0).curr = some 7 ∧ (m.kernel.task 7).schedClass = .yatCasched ∧
      0 ∈ m.kernel.cpuOnline ∧ 0 ∈ (m.kernel.task 7).cpusMask := by
    refine ⟨_, .cons trivial rfl (.cons trivial rfl (.cons trivial rfl
      (.cons (Or.inr rfl) rfl (.cons trivial rfl (.cons (Or.inr rfl) rfl (.nil _)))))), rfl, rfl,
      ?_, ?_⟩
    · decide
    · decide
  rcases hrun with ⟨m, hreach, hcurr, hcls, honline, hmask⟩
  exact ⟨m, hreach, schedExec_stays picksMembers_fifoPicks idle_sleepingBoot hreach hcurr hcls
    honline hmask 0⟩

end Kernel
end YatCasched
