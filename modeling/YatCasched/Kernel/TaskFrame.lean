import YatCasched.Kernel.CoreRuns

/-!
# Which tasks a step changes

A step of the core scheduler changes the task it is about, tasks that are runnable and
tasks on their way to a CPU.  A running state is lost only by a fork into the task and when
the task itself says that it goes to sleep.  A task that is left in the cache-aware class was
in it before, and keeps its masks: the hook of the class that should store them is empty.

Main results:

- Theorem {lit}`alters_step`: the tasks a step changes, and how.
-/

namespace YatCasched
namespace Kernel

open CircularList QueueLife

variable {n : Nat} {A : Pid → Prop} {k k' k'' : System n} {p : Pid} {c : Fin n}

/-- What says where a task may run. -/
structure TaskMasks (n : Nat) where
  schedClass : SchedClass
  cpusMask : Finset (Fin n)
  cpusPtr : CpumaskPtr n
  nrCpusAllowed : Nat

/-- The masks of a task. -/
def TaskStruct.masks (t : TaskStruct n) : TaskMasks n where
  schedClass := t.schedClass
  cpusMask := t.cpusMask
  cpusPtr := t.cpusPtr
  nrCpusAllowed := t.nrCpusAllowed

/-- A task that says it runs still does, and one that is of the class was so with the same
masks. -/
structure TaskKept (t t' : TaskStruct n) : Prop where
  running : t.state = .running → t'.state = .running
  masks : t'.schedClass = .yatCasched → t'.masks = t.masks

theorem TaskKept.of_same {t t' : TaskStruct n} (hstate : t'.state = t.state)
    (hmasks : t'.masks = t.masks) : TaskKept t t' :=
  ⟨fun hrunning => hstate.trans hrunning, fun _ => hmasks⟩

theorem TaskKept.trans {t t' t'' : TaskStruct n} (h : TaskKept t t') (h' : TaskKept t' t'') :
    TaskKept t t'' where
  running := fun hrunning => h'.running (h.running hrunning)
  masks := by
    intro hcls
    have hmasks := h'.masks hcls
    have hcls' : t'.schedClass = .yatCasched :=
      (congrArg TaskMasks.schedClass hmasks).symm.trans hcls
    exact hmasks.trans (h.masks hcls')

/-- The states differ in tasks of a kind only, and keep what a task is kept. -/
def Alters (A : Pid → Prop) (k k' : System n) : Prop :=
  ∀ q, k'.task q = k.task q ∨ (A q ∧ TaskKept (k.task q) (k'.task q))

namespace Alters

theorem of_task_eq (h : k'.task = k.task) : Alters A k k' :=
  fun q => Or.inl (congrFun h q)

theorem refl (A : Pid → Prop) (k : System n) : Alters A k k :=
  of_task_eq rfl

theorem updateRq (A : Pid → Prop) (k : System n) (c : Fin n) (f : Rq n → Rq n) :
    Alters A k (k.updateRq c f) :=
  of_task_eq rfl

theorem updateRqClock (A : Pid → Prop) (k : System n) (c : Fin n) (now : UInt64) :
    Alters A k (updateRqClock k c now) :=
  of_task_eq rfl

theorem contextSwitch (A : Pid → Prop) (k : System n) (c : Fin n) (next : Option Pid) :
    Alters A k (contextSwitch k c next) :=
  of_task_eq rfl

theorem trans (h : Alters A k k') (h' : Alters A k' k'') : Alters A k k'' := by
  intro q
  rcases h q with hq | ⟨hA, hq⟩
  · rcases h' q with hq' | ⟨hA', hq'⟩
    · exact Or.inl (hq'.trans hq)
    · rw [hq] at hq'
      exact Or.inr ⟨hA', hq'⟩
  · rcases h' q with hq' | ⟨_, hq'⟩
    · rw [← hq'] at hq
      exact Or.inr ⟨hA, hq⟩
    · exact Or.inr ⟨hA, hq.trans hq'⟩

/-- An assignment to one task. -/
theorem updateTask (hA : A p) {f : TaskStruct n → TaskStruct n}
    (hf : TaskKept (k.task p) (f (k.task p))) : Alters A k (k.updateTask p f) := by
  intro q
  by_cases hqp : q = p
  · subst hqp
    rw [System.updateTask_task_self]
    exact Or.inr ⟨hA, hf⟩
  · exact Or.inl (System.updateTask_task_of_ne k hqp f)

/-- One that assigns neither to the state nor to the masks. -/
theorem updateTask_of_same (hA : A p) {f : TaskStruct n → TaskStruct n}
    (hf : ∀ t, (f t).state = t.state ∧ (f t).masks = t.masks) :
    Alters A k (k.updateTask p f) :=
  .updateTask hA (.of_same (hf _).1 (hf _).2)

/-- Accounting for tasks of the kind. -/
theorem of_onlyAccounting (honly : OnlyAccounting k k')
    (hother : ∀ q, ¬A q → k'.task q = k.task q) : Alters A k k' := by
  intro q
  by_cases hA : A q
  · have hmasks := honly.apply q TaskStruct.masks fun _ _ _ => rfl
    exact Or.inr ⟨hA, .of_same (honly.samePlace q).2.2 hmasks⟩
  · exact Or.inl (hother q hA)

theorem ite (b : Bool) (h : b = true → Alters A k k') : Alters A k (if b then k' else k) := by
  cases b with
  | true => exact h rfl
  | false => exact .refl A k

end Alters

/-! ## Hooks -/

theorem alters_updateCurrYatCasched (k : System n) (c : Fin n)
    (hA : ∀ q, (k.rq c).curr = some q → A q) : Alters A k (updateCurrYatCasched k c) := by
  unfold updateCurrYatCasched
  split
  · exact .refl A k
  · rename_i q hq
    split
    · exact .refl A k
    · refine .updateTask_of_same (hA q hq) ?_
      exact fun _ => ⟨rfl, rfl⟩

theorem alters_putPrevTask (k : System n) (c : Fin n) (prev : Option Pid)
    (hA : ∀ q, (k.rq c).curr = some q → A q) : Alters A k (putPrevTask k c prev) := by
  unfold putPrevTask
  split
  · exact .refl A k
  · split
    · exact alters_updateCurrYatCasched k c hA
    · exact .refl A k

theorem alters_setNextTask (k : System n) (c : Fin n) (hA : A p) :
    Alters A k (setNextTask k c p) := by
  unfold setNextTask
  split
  · refine .updateTask_of_same hA ?_
    exact fun _ => ⟨rfl, rfl⟩
  · exact .refl A k

theorem alters_schedulerTick (k : System n) (c : Fin n) (now : UInt64) (requests : Bool)
    (hA : ∀ q, (k.rq c).curr = some q → A q) : Alters A k (schedulerTick k c now requests) := by
  have hcurr : ((updateRqClock k c now).rq c).curr = (k.rq c).curr :=
    congrArg LifeRq.curr ((SameLife.updateRqClock k c now).rq c)
  unfold schedulerTick
  dsimp only
  refine .trans (.updateRqClock A k c now) ?_
  split
  · exact .refl A _
  · rename_i q hq
    have hq' : A q := hA q (hcurr ▸ hq)
    split
    · unfold taskTickYatCasched
      dsimp only
      refine .trans (alters_updateCurrYatCasched _ c fun r hr => hA r (hcurr ▸ hr)) ?_
      split
      · show Alters A _ (System.updateTask _ q fun t =>
          { t with se := { t.se with prevSumExecRuntime := t.se.sumExecRuntime } })
        refine .updateTask_of_same hq' ?_
        exact fun _ => ⟨rfl, rfl⟩
      · exact .refl A _
    · refine .of_task_eq ?_
      unfold otherHook
      split
      · rfl
      · rfl

theorem wakeupPreempt_task (k : System n) (c : Fin n) (p : Pid) :
    (wakeupPreempt k c p).task = k.task := by
  unfold wakeupPreempt
  split
  · split
    · rfl
    · rfl
  · split
    · rfl
    · rfl

theorem alters_enqueueTask (k : System n) (c : Fin n) (hA : A p) :
    Alters A k (enqueueTask k c p) :=
  .of_onlyAccounting (onlyAccounting_enqueueTask k c p) fun _ hq =>
    enqueueTask_task_of_ne k c fun hqp => hq (hqp ▸ hA)

theorem alters_dequeueTask (k : System n) (c : Fin n) (p : Pid) :
    Alters A k (dequeueTask k c p) :=
  .of_task_eq (dequeueTask_task k c p)

/-- A change of a task on its run queue. -/
theorem alters_requeue (k : System n) (hA : A p) {change : System n → System n}
    (hchange : ∀ k', Alters A k' (change k')) : Alters A k (requeue k p change) := by
  unfold requeue
  dsimp only
  refine .trans ?_ (.ite (taskCurrent k p) fun _ => alters_setNextTask _ _ hA)
  refine .trans ?_ (.ite (taskOnRqQueued k p) fun _ => alters_enqueueTask _ _ hA)
  refine .trans ?_ (hchange _)
  refine .trans (.ite (taskOnRqQueued k p) fun _ => alters_dequeueTask k (k.task p).cpu p) ?_
  refine .ite (taskCurrent k p) fun hcurrent => ?_
  apply alters_putPrevTask
  intro q hq
  have hsame := (OnlyAccounting.ite (taskOnRqQueued k p)
    (onlyAccounting_dequeueTask k (k.task p).cpu p)).curr (k.task p).cpu
  have hp : (k.rq (k.task p).cpu).curr = some p := of_decide_eq_true hcurrent
  rw [hsame, hp] at hq
  cases hq
  exact hA

/-! ## Affinity -/

theorem alters_setCpusAllowed (k : System n) (ctx : AffinityContext n) (hA : A p) :
    Alters A k (setCpusAllowed k p ctx) := by
  unfold setCpusAllowed setCpusAllowedCommon
  split
  · -- the hook of the class
    exact .refl A k
  · rename_i hcls
    split
    · exact .updateTask hA ⟨fun hrunning => hrunning, fun hyat => (hcls hyat).elim⟩
    · exact .updateTask hA ⟨fun hrunning => hrunning, fun hyat => (hcls hyat).elim⟩

theorem alters_doSetCpusAllowed (k : System n) (ctx : AffinityContext n) (hA : A p) :
    Alters A k (doSetCpusAllowed k p ctx) :=
  alters_requeue k hA fun k' => alters_setCpusAllowed k' ctx hA

theorem alters_setMigrationPending (k : System n) (hA : A p)
    (pending : Option (SetAffinityPending n)) :
    Alters A k (setMigrationPending k p pending) := by
  refine .updateTask_of_same hA ?_
  exact fun _ => ⟨rfl, rfl⟩

theorem alters_moveQueuedTask (k : System n) (newCpu : Fin n) (hA : A p) :
    Alters A k (moveQueuedTask k p newCpu) := by
  unfold moveQueuedTask
  dsimp only
  refine .trans ?_ (.of_task_eq (wakeupPreempt_task _ newCpu p))
  refine .trans ?_ (.updateTask_of_same hA ?_)
  · refine .trans ?_ (alters_enqueueTask _ newCpu hA)
    refine .trans ?_ (.updateTask_of_same hA ?_)
    · refine .trans ?_ (alters_dequeueTask _ _ p)
      refine .updateTask_of_same hA ?_
      exact fun _ => ⟨rfl, rfl⟩
    · exact fun _ => ⟨rfl, rfl⟩
  · exact fun _ => ⟨rfl, rfl⟩

theorem alters_migrateTask (k : System n) (destCpu : Fin n) (hA : A p) :
    Alters A k (migrateTask k p destCpu) := by
  unfold migrateTask
  split
  · exact alters_moveQueuedTask k destCpu hA
  · exact .refl A k

theorem alters_affineMoveTask (k : System n) (destCpu : Fin n) (ctx : AffinityContext n)
    (hA : A p) : Alters A k (affineMoveTask k p destCpu ctx).state := by
  unfold affineMoveTask
  split
  · split
    · exact alters_setMigrationPending k hA none
    · exact .refl A k
  · dsimp only
    split
    · exact .refl A k
    · split
      · split
        · exact alters_setMigrationPending k hA _
        · exact alters_setMigrationPending k hA _
      · split
        · exact alters_setMigrationPending k hA _
        · refine .trans (.ite (taskOnRqQueued k p) fun _ => alters_moveQueuedTask k destCpu hA) ?_
          exact alters_setMigrationPending _ hA _

theorem alters_setCpusAllowedPtrLocked (distribute : AnyAndDistribute n) (current : Pid)
    (k : System n) (ctx : AffinityContext n) (hA : A p) :
    Alters A k (setCpusAllowedPtrLocked distribute current k p ctx).state := by
  unfold setCpusAllowedPtrLocked
  dsimp only
  split
  · exact .refl A k
  · split
    · exact .refl A k
    · split
      · show Alters A k (if ctx.scaUser then _ else k)
        refine .ite ctx.scaUser fun _ => .updateTask_of_same hA ?_
        exact fun _ => ⟨rfl, rfl⟩
      · split
        · exact .refl A k
        · split
          · exact .refl A k
          · exact .trans (alters_doSetCpusAllowed k ctx hA) (alters_affineMoveTask _ _ ctx hA)

theorem alters_migrationCpuStop (k : System n) (c : Fin n) (pending : SetAffinityPending n)
    (hA : A p) : Alters A k (migrationCpuStop k c p pending) := by
  unfold migrationCpuStop
  split
  · split
    · exact alters_setMigrationPending k hA _
    · dsimp only
      refine .trans (alters_setMigrationPending k hA none) ?_
      split
      · exact .refl A _
      · split
        · exact alters_migrateTask _ _ hA
        · refine .updateTask_of_same hA ?_
          exact fun _ => ⟨rfl, rfl⟩
  · split
    · exact alters_setMigrationPending k hA none
    · exact alters_setMigrationPending k hA _

theorem alters_migrationCpuStopTo (k : System n) (c destCpu : Fin n) (hA : A p) :
    Alters A k (migrationCpuStopTo k c p destCpu) := by
  unfold migrationCpuStopTo
  split
  · split
    · exact .refl A k
    · split
      · exact alters_migrateTask k destCpu hA
      · refine .updateTask_of_same hA ?_
        exact fun _ => ⟨rfl, rfl⟩
  · exact .refl A k

theorem alters_migrateEnable (distribute : AnyAndDistribute n) (k : System n) (c : Fin n)
    (hA : ∀ q, (k.rq c).curr = some q → A q) : Alters A k (migrateEnable distribute k c) := by
  unfold migrateEnable
  split
  · exact .refl A k
  · rename_i p hp
    split
    · refine .updateTask_of_same (hA p hp) ?_
      exact fun _ => ⟨rfl, rfl⟩
    · split
      · exact .refl A k
      · dsimp only
        have hset : Alters A k (if (k.task p).cpusPtr ≠ .cpusMask p then
            (setCpusAllowedPtrLocked distribute p k p (migrateEnableContext p)).state
            else k) := by
          split
          · exact alters_setCpusAllowedPtrLocked distribute p k _ (hA p hp)
          · exact .refl A k
        refine hset.trans (.updateTask_of_same (hA p hp) ?_)
        exact fun _ => ⟨rfl, rfl⟩

/-! ## Wakeups -/

theorem alters_ttwuDoWakeup (k : System n) (hA : A p) : Alters A k (ttwuDoWakeup k p) :=
  .updateTask hA ⟨fun _ => rfl, fun _ => rfl⟩

theorem alters_ttwuDoActivate (k : System n) (c : Fin n) (hA : A p) :
    Alters A k (ttwuDoActivate k c p) := by
  unfold ttwuDoActivate activateTask
  refine .trans ?_ (alters_ttwuDoWakeup _ hA)
  refine .trans ?_ (.of_task_eq (wakeupPreempt_task _ c p))
  refine .trans (alters_enqueueTask k c hA) (.updateTask_of_same hA ?_)
  exact fun _ => ⟨rfl, rfl⟩

theorem alters_ttwuPendingRound (k : System n) (c : Fin n) (hA : A p) :
    Alters A k (ttwuPendingRound c k p) := by
  unfold ttwuPendingRound
  refine .trans ?_ (alters_ttwuDoActivate _ c hA)
  split
  · refine .updateTask_of_same hA ?_
    exact fun _ => ⟨rfl, rfl⟩
  · exact .refl A k

theorem alters_foldl_ttwuPendingRound (c : Fin n) {l : List Pid} (hA : ∀ q ∈ l, A q)
    (k : System n) : Alters A k (l.foldl (ttwuPendingRound c) k) := by
  induction l generalizing k with
  | nil => exact .refl A k
  | cons p l ih =>
      rw [List.foldl_cons]
      exact .trans (alters_ttwuPendingRound k c (hA p List.mem_cons_self))
        (ih (fun q hq => hA q (List.mem_cons_of_mem p hq)) _)

theorem alters_schedTtwuPending (m : Machine n) (c : Fin n) (now : UInt64)
    (hA : ∀ q ∈ m.wakeList c, A q) :
    Alters A m.kernel (schedTtwuPending m c now).kernel :=
  .trans (.updateRqClock A m.kernel c now)
    (alters_foldl_ttwuPendingRound c hA _)

theorem alters_runStopper (m : Machine n) (c : Fin n) (now : UInt64)
    (hcurr : ∀ q, (m.kernel.rq c).curr = some q → A q) (hA : ∀ q ∈ m.wakeList c, A q) :
    Alters A m.kernel (runStopper m c now).kernel := by
  refine .trans (alters_putPrevTask m.kernel c (m.kernel.rq c).curr hcurr) ?_
  refine .trans (.contextSwitch A _ c none) ?_
  exact alters_schedTtwuPending ⟨_, m.wakeList⟩ c now hA

theorem alters_selectTaskRqYatCasched (k : System n) (cpu : Fin n) (hA : A p) :
    Alters A k (selectTaskRqYatCasched k p cpu).1 := by
  unfold selectTaskRqYatCasched
  dsimp only
  split
  · dsimp only
    refine .updateTask_of_same hA ?_
    exact fun _ => ⟨rfl, rfl⟩
  · split
    · split
      · exact .refl A k
      · exact .refl A k
    · exact .refl A k

variable {env : WakeupEnv n}

theorem alters_fallbackRq (hA : A p) (hout : fallbackRq env k p = some (k', c)) :
    Alters A k k' :=
  fallbackRq_keeps (P := fun k' => Alters A k k')
    (fun _ _ h => h.trans (alters_doSetCpusAllowed _ _ hA)) (.refl A k) hout

theorem alters_selectTaskRq {cpu : Fin n} (hA : A p)
    (hout : selectTaskRq env k p cpu = some (k', c)) : Alters A k k' :=
  selectTaskRq_keeps (P := fun k' => Alters A k k')
    (fun _ _ h => h.trans (alters_doSetCpusAllowed _ _ hA))
    (fun _ cpu' h => h.trans (alters_selectTaskRqYatCasched _ cpu' hA)) (.refl A k) hout

variable {m m' : Machine n}

theorem alters_setTaskCpu (k : System n) (cpu : Fin n) (hA : A p) :
    Alters A k (setTaskCpu k p cpu) := by
  refine .updateTask_of_same hA ?_
  exact fun _ => ⟨rfl, rfl⟩

theorem alters_ttwuQueue (m : Machine n) (cpu thisCpu : Fin n) (now : UInt64) (hA : A p) :
    Alters A m.kernel (ttwuQueue env m p cpu thisCpu now).kernel := by
  unfold ttwuQueue
  split
  · exact .refl A _
  · exact .trans (.updateRqClock A m.kernel cpu now) (alters_ttwuDoActivate _ cpu hA)

theorem alters_wakeDequeued {thisCpu : Fin n} {onCpu : Bool} {now : UInt64} (hA : A p)
    (hstate : (m.kernel.task p).state ≠ .running)
    (hout : wakeDequeued env m p thisCpu onCpu now = some m') :
    Alters A m.kernel m'.kernel := by
  have hwaking : Alters A m.kernel
      (m.kernel.updateTask p fun t => { t with state := .waking }) :=
    .updateTask hA ⟨fun hrunning => (hstate hrunning).elim, fun _ => rfl⟩
  unfold wakeDequeued at hout
  dsimp only at hout
  generalize m.kernel.updateTask p (fun t => { t with state := .waking }) = k₁
    at hwaking hout
  split at hout
  · cases hout
    exact hwaking
  · split at hout
    · cases hout
    · rename_i k₂ cpu hselect
      cases hout
      refine .trans (hwaking.trans (alters_selectTaskRq hA hselect)) ?_
      refine .trans ?_ (alters_ttwuQueue (p := p) ⟨_, m.wakeList⟩ cpu thisCpu now hA)
      split
      · exact alters_setTaskCpu k₂ cpu hA
      · exact .refl A k₂

theorem alters_tryToWakeUp {thisCpu : Fin n} {inMask onCpu : Bool} {now : UInt64}
    {success : Bool} (hA : A p)
    (hout : tryToWakeUp env m thisCpu p inMask onCpu now = some (m', success)) :
    Alters A m.kernel m'.kernel := by
  unfold tryToWakeUp at hout
  dsimp only at hout
  split at hout
  · cases hout
    exact .refl A _
  · rename_i hmatch
    have hsleeping := (not_not.mp hmatch).1
    split at hout
    · cases hout
      exact alters_ttwuDoWakeup m.kernel hA
    · split at hout
      · rename_i k₁ hrunnable
        cases hout
        unfold ttwuRunnable at hrunnable
        dsimp only at hrunnable
        split at hrunnable
        · cases hrunnable
          refine .trans ?_ (alters_ttwuDoWakeup _ hA)
          apply Alters.of_task_eq
          split
          · rfl
          · exact wakeupPreempt_task _ _ p
        · cases hrunnable
      · rcases Option.map_eq_some_iff.mp hout with ⟨m₁, hm₁, heq⟩
        cases heq
        refine alters_wakeDequeued hA ?_ hm₁
        rw [hsleeping]
        simp

theorem alters_wakeUpNewTask {now : UInt64} (hA : A p)
    (hout : wakeUpNewTask env k p now = some k') : Alters A k k' := by
  unfold wakeUpNewTask at hout
  dsimp only at hout
  split at hout
  · cases hout
  · rename_i k₂ cpu hselect
    cases hout
    refine .trans ?_ (.of_task_eq (wakeupPreempt_task _ cpu p))
    refine .trans ?_ (.updateTask_of_same hA ?_)
    · refine .trans ?_ (alters_enqueueTask _ cpu hA)
      refine .trans ?_ (.of_task_eq (k := setTaskCpu k₂ p cpu) rfl)
      refine .trans ?_ (alters_setTaskCpu k₂ cpu hA)
      exact .trans (.updateTask hA ⟨fun _ => rfl, fun _ => rfl⟩) (alters_selectTaskRq hA hselect)
    · exact fun _ => ⟨rfl, rfl⟩

/-! ## Switching -/

theorem alters_blockPrevious (k : System n) (c : Fin n) (preempt signalPending : Bool)
    (hA : ∀ q, (k.rq c).curr = some q → A q) :
    Alters A k (blockPrevious k c preempt signalPending) := by
  unfold blockPrevious
  split
  · exact .refl A k
  · rename_i prev hprev
    split
    · split
      · exact .updateTask (hA prev hprev) ⟨fun _ => rfl, fun _ => rfl⟩
      · unfold deactivateTask
        refine .trans (.updateTask_of_same (hA prev hprev) ?_) (alters_dequeueTask _ c prev)
        exact fun _ => ⟨rfl, rfl⟩
    · exact .refl A k

variable {picks : ClassPicks}

theorem alters_pickNextTaskYatCasched (k : System n) (c : Fin n)
    (hA : ∀ q, firstTask k c = some q → A q) :
    Alters A k (pickNextTaskYatCasched k c).1 := by
  unfold pickNextTaskYatCasched
  split
  · exact .refl A k
  · rename_i q hq
    dsimp only
    refine .trans (.updateRq A k c _) (.updateTask_of_same (hA q hq) ?_)
    exact fun _ => ⟨rfl, rfl⟩

/-- A class that picks nothing changes nothing. -/
theorem classPickNextTask_of_none {cls : SchedClass}
    (h : classPickNextTask picks c k cls = (k', none)) : k' = k := by
  cases cls with
  | yatCasched =>
      unfold classPickNextTask at h
      rw [pickNextTaskYatCasched_snd] at h
      have hnone : firstTask k c = none := by
        have hmap := congrArg Prod.snd h
        dsimp only at hmap
        simpa using hmap
      have hsame : (pickNextTaskYatCasched k c).1 = k := by
        unfold pickNextTaskYatCasched
        rw [hnone]
      exact (congrArg Prod.fst h).symm.trans hsame
  | idle => cases congrArg Prod.snd h
  | _ => exact (congrArg Prod.fst h).symm

theorem alters_classPickNextTask (k : System n) (c : Fin n) (cls : SchedClass)
    (hA : ∀ q, firstTask k c = some q → A q) :
    Alters A k (classPickNextTask picks c k cls).1 := by
  cases cls with
  | yatCasched => exact alters_pickNextTaskYatCasched k c hA
  | _ => exact .refl A k

theorem alters_classWalk (c : Fin n) (classes : List SchedClass) (k : System n)
    (hA : ∀ q, firstTask k c = some q → A q) :
    Alters A k (classWalk picks c classes k).1 := by
  induction classes generalizing k with
  | nil => exact .refl A k
  | cons cls rest ih =>
      have hpick : Alters A k (classPickNextTask picks c k cls).1 :=
        alters_classPickNextTask k c cls hA
      unfold classWalk
      split
      · rename_i k₁ next heq
        rw [heq] at hpick
        exact hpick
      · rename_i k₁ heq
        rw [classPickNextTask_of_none heq]
        exact ih k hA

theorem firstTask_putPrevTask (k : System n) (c : Fin n) (prev : Option Pid) :
    firstTask (putPrevTask k c prev) c = firstTask k c := by
  unfold firstTask
  rw [putPrevTask_rq, putPrevTask_links]

theorem alters_restart (k : System n) (c : Fin n) (prev : Option Pid)
    (hcurr : ∀ q, (k.rq c).curr = some q → A q)
    (hA : ∀ q, firstTask k c = some q → A q) : Alters A k (restart picks k c prev).1 := by
  refine .trans (alters_putPrevTask k c prev hcurr) (alters_classWalk c forEachClass _ ?_)
  rw [firstTask_putPrevTask]
  exact hA

theorem alters_pickNextTask (k : System n) (c : Fin n) (prev : Option Pid)
    (hcurr : ∀ q, (k.rq c).curr = some q → A q)
    (hA : ∀ q, firstTask k c = some q → A q) :
    Alters A k (pickNextTask picks k c prev).1 := by
  unfold pickNextTask
  split
  · split
    · exact alters_restart k c prev hcurr hA
    · exact alters_putPrevTask k c prev hcurr
    · exact .refl A k
  · exact alters_restart k c prev hcurr hA

theorem alters_switchFrom (k : System n) (c : Fin n) (prev next : Option Pid)
    (hA : ∀ q, prev = some q → A q) : Alters A k (switchFrom k c prev next) := by
  unfold switchFrom
  split
  · exact .refl A k
  · rename_i p
    split
    · exact .refl A k
    · unfold migrateDisableSwitch
      split
      · exact .refl A k
      · split
        · exact .refl A k
        · exact alters_doSetCpusAllowed k _ (hA p rfl)

/-- The current task is not switched by the preparation of a reschedule. -/
theorem blockPrevious_curr (k : System n) (c : Fin n) (preempt signalPending : Bool) :
    ((blockPrevious k c preempt signalPending).rq c).curr = (k.rq c).curr := by
  unfold blockPrevious
  split
  · rfl
  · split
    · split
      · rfl
      · exact (onlyAccounting_dequeueTask _ c _).curr c
    · rfl

variable {s : TaskLife n}

/-- A reschedule changes runnable tasks only. -/
theorem Refines.alters_scheduleLocked (h : Refines m s) (c : Fin n) (now : UInt64)
    (preempt signalPending : Bool) (hA : ∀ q, (m.kernel.task q).onRq = .queued → A q) :
    Alters A m.kernel (Kernel.scheduleLocked picks m.kernel c now preempt signalPending) := by
  have hclock : Refines ⟨updateRqClock m.kernel c now, m.wakeList⟩ s :=
    h.congr (.updateRqClock m.kernel c now)
  have hcurr : ∀ q, ((updateRqClock m.kernel c now).rq c).curr = some q → A q :=
    fun q hq => hA q (hclock.of_curr hq).1
  have hfirst : ∀ q, firstTask
      (Kernel.blockPrevious (updateRqClock m.kernel c now) c preempt signalPending) c = some q →
      A q := by
    intro q hq
    have hblock := hclock.blockPrevious c preempt signalPending
    rw [hblock.1.yatQueue.firstTask_eq] at hq
    have hmem := List.mem_of_mem_head? hq
    have hplace : s.place q = .queued c := by
      split at hmem
      · rw [(block_filed h.sound.toFiled c).mem_queue] at hmem
        by_cases hne : s.curr c = some q
        · exact h.sound.curr c q hne
        · rw [← block_place_of_ne s c hne]
          exact hmem.1
      · exact ((h.sound.mem_queue q c .yatCasched).mp hmem).1
    exact hA q ((h.places.queued q c).mp hplace).1
  unfold Kernel.scheduleLocked
  dsimp only
  refine .trans ?_ (alters_switchFrom _ c _ _ fun q hq => hA q (Refines.of_curr h hq).1)
  refine .trans ?_ (.contextSwitch A _ c _)
  refine .trans ?_ (alters_pickNextTask _ c _ ?_ hfirst)
  · exact .trans (.of_task_eq rfl) (alters_blockPrevious _ c preempt signalPending hcurr)
  · rw [blockPrevious_curr]
    exact hcurr

/-! ## The stopper -/

theorem alters_pendingStop (m : Machine n) (c : Fin n) (now : UInt64)
    (hcurr : ∀ q, (m.kernel.rq c).curr = some q → A q) (hlist : ∀ q ∈ m.wakeList c, A q)
    (hA : A p) : Alters A m.kernel (pendingStop m c p now).kernel := by
  unfold pendingStop
  split
  · exact .refl A _
  · exact .trans (alters_runStopper m c now hcurr hlist)
      (alters_migrationCpuStop _ c _ hA)

/-- The reschedule of the stopper changes runnable tasks only. -/
theorem Refines.alters_scheduleStopper (h : Refines m s) (hcurr : (m.kernel.rq c).curr = none)
    (now : UInt64) (hA : ∀ q, (m.kernel.task q).onRq = .queued → A q) :
    Alters A m.kernel (Kernel.scheduleStopper picks m.kernel c now) := by
  have hclock : Refines ⟨updateRqClock m.kernel c now, m.wakeList⟩ s :=
    h.congr (.updateRqClock m.kernel c now)
  have hnone : ((updateRqClock m.kernel c now).rq c).curr = none :=
    ((onlyAccounting_updateRqClock m.kernel c now).curr c).trans hcurr
  unfold Kernel.scheduleStopper
  dsimp only
  refine .trans ?_ (.contextSwitch A _ c _)
  refine .trans (.of_task_eq rfl) (alters_restart (updateRqClock m.kernel c now) c none ?_ ?_)
  · intro q hq
    rw [hnone] at hq
    cases hq
  · intro q hq
    rw [hclock.queues.yatQueue.firstTask_eq] at hq
    have hplace := ((h.sound.mem_queue q c .yatCasched).mp (List.mem_of_mem_head? hq)).1
    exact hA q ((h.places.queued q c).mp hplace).1

theorem alters_schedExec (m : Machine n) (c : Fin n) (now : UInt64)
    (hcurr : ∀ q, (m.kernel.rq c).curr = some q → A q) (hlist : ∀ q ∈ m.wakeList c, A q) :
    Alters A m.kernel (schedExec env m c now).kernel := by
  unfold schedExec
  split
  · exact .refl A _
  · rename_i p hp
    have hA : A p := hcurr p hp
    have hdest : Alters A m.kernel (schedExecDest env m.kernel c p).1 := by
      unfold schedExecDest
      dsimp only
      by_cases hclass : (m.kernel.task p).schedClass = .yatCasched
      · rw [if_pos hclass]
        split
        · exact alters_selectTaskRqYatCasched m.kernel _ hA
        · exact alters_selectTaskRqYatCasched m.kernel _ hA
      · rw [if_neg hclass]
        split
        · exact .refl A _
        · exact .refl A _
    have hrq : (schedExecDest env m.kernel c p).1.rq = m.kernel.rq := by
      unfold schedExecDest
      dsimp only
      by_cases hclass : (m.kernel.task p).schedClass = .yatCasched
      · rw [if_pos hclass]
        split
        · exact selectTaskRqYatCasched_rq m.kernel p _
        · exact selectTaskRqYatCasched_rq m.kernel p _
      · rw [if_neg hclass]
        split
        · rfl
        · rfl
    dsimp only
    split
    · exact hdest
    · refine .trans (hdest.trans (alters_runStopper ⟨_, m.wakeList⟩ c now ?_ hlist)) ?_
      · rw [hrq]
        exact hcurr
      · exact alters_migrationCpuStopTo _ c _ hA

theorem alters_balancePushCpuStop {now : UInt64}
    (hcurr : ∀ q, (m.kernel.rq c).curr = some q → A q) (hlist : ∀ q ∈ m.wakeList c, A q)
    (hA : A p) (hout : balancePushCpuStop env m c p now = some m') :
    Alters A m.kernel m'.kernel := by
  have hstopped := alters_runStopper m c now hcurr hlist
  unfold balancePushCpuStop at hout
  dsimp only at hout
  split at hout
  · split at hout
    · cases hout
    · rename_i k₂ cpu hfallback
      cases hout
      exact .trans (hstopped.trans (alters_fallbackRq hA hfallback)) (alters_migrateTask _ _ hA)
  · cases hout
    exact hstopped

/-! ## Policies -/

theorem alters_schedSetscheduler (policies : PolicyPredicates) (stop : Fin n → Option Pid)
    (senv : SetschedulerEnv) (k : System n) (attr : SchedAttr) (user pi : Bool) (hA : A p) :
    Alters A k (schedSetscheduler policies stop senv k p attr user pi).2 := by
  unfold schedSetscheduler
  dsimp only
  split
  · exact .refl A k
  · split
    · exact .refl A k
    · split
      · dsimp only
        refine .updateTask_of_same hA ?_
        exact fun _ => ⟨rfl, rfl⟩
      · split
        · exact .refl A k
        · dsimp only
          refine .trans (.updateTask_of_same hA ?_) (alters_requeue _ hA fun k' =>
            .updateTask hA ?_)
          · exact fun _ => ⟨rfl, rfl⟩
          · split
            · exact .of_same rfl rfl
            · refine ⟨fun hrunning => ?_, fun hyat => (classOfPrio_ne_yatCasched _ hyat).elim⟩
              have hlife := setschedulerParams_life policies (k'.task p) attr
              exact (congrArg LifeTask.state hlife).trans hrunning

theorem alters_rtMutexSetprio (k : System n) (piTask : Option Pid) (hA : A p) :
    Alters A k (rtMutexSetprio k p piTask) := by
  unfold rtMutexSetprio
  dsimp only
  split
  · exact .refl A k
  · split
    · refine .updateTask_of_same hA ?_
      exact fun _ => ⟨rfl, rfl⟩
    · refine .trans (.updateTask_of_same hA ?_) (alters_requeue _ hA fun k' =>
        .updateTask hA ⟨fun hrunning => hrunning, ?_⟩)
      · exact fun _ => ⟨rfl, rfl⟩
      · exact fun hyat => (classOfPrio_ne_yatCasched _ hyat).elim

theorem alters_setUserNice (policies : PolicyPredicates) (k : System n) (nice : Int) (hA : A p) :
    Alters A k (setUserNice policies k p nice) := by
  unfold setUserNice
  split
  · exact .refl A k
  · split
    · refine .updateTask_of_same hA ?_
      exact fun _ => ⟨rfl, rfl⟩
    · refine alters_requeue k hA fun k' => .updateTask_of_same hA ?_
      exact fun _ => ⟨rfl, rfl⟩

/-! ## Steps -/

/-- The task a step is about. -/
def CoreOp.subject : CoreOp n → Option Pid
  | .fork _ p => some p
  | .wakeUpNewTask p _ => some p
  | .tryToWakeUp _ p _ _ _ => some p
  | .setCpusAllowed _ p _ => some p
  | .pendingStop _ p _ => some p
  | .balancePush _ p _ => some p
  | .schedSetscheduler _ p _ _ _ => some p
  | .rtMutexSetprio p _ => some p
  | .setUserNice p _ => some p
  | _ => none

/-- The task is runnable, on its way to a CPU, or the one the step is about. -/
def CoreOp.Concerns (m : Machine n) (op : CoreOp n) (q : Pid) : Prop :=
  (m.kernel.task q).onRq = .queued ∨ (∃ c, q ∈ m.wakeList c) ∨ op.subject = some q

/-- The task says that it goes to sleep, or is forked. -/
def CoreOp.StopsRunning (m : Machine n) (q : Pid) : CoreOp n → Prop
  | .fork _ p => p = q
  | .setCurrentState c state => (m.kernel.rq c).curr = some q ∧ state = .sleeping
  | _ => False

/-- The task is forked. -/
def CoreOp.Forks (q : Pid) : CoreOp n → Prop
  | .fork _ p => p = q
  | _ => False

/-- A fork changes the child only. -/
theorem forkTask_task_of_ne (policies : PolicyPredicates) (k : System n) (c : Fin n) {q : Pid}
    (hqp : q ≠ p) : (forkTask policies k c p).task q = k.task q := by
  unfold forkTask
  split
  · rfl
  · split
    · unfold setTaskCpu
      rw [System.updateTask_task_of_ne _ hqp]
      exact (schedFork_spec k _ p).2.1 q hqp
    · rfl

variable {cenv : CoreEnv n} {op : CoreOp n}

/-- A step changes tasks it concerns only.  A task that says it runs still does, unless it
goes to sleep or is forked, and a task of the class keeps its masks, unless it is forked. -/
theorem alters_step (h : Refines m s) (hop : op.Legal m) (hstep : op.step cenv m = some m')
    (q : Pid) :
    m'.kernel.task q = m.kernel.task q ∨
      (op.Concerns m q ∧
        (¬op.StopsRunning m q → (m.kernel.task q).state = .running →
          (m'.kernel.task q).state = .running) ∧
        (¬op.Forks q → (m'.kernel.task q).schedClass = .yatCasched →
          (m'.kernel.task q).masks = (m.kernel.task q).masks)) := by
  have hqueued : ∀ r, (m.kernel.task r).onRq = .queued → op.Concerns m r := fun _ => Or.inl
  have hcurr : ∀ c r, (m.kernel.rq c).curr = some r → op.Concerns m r := fun c r hr =>
    hqueued r (Refines.of_curr h hr).1
  have hlist : ∀ c, ∀ r ∈ m.wakeList c, op.Concerns m r := fun c r hr => Or.inr (Or.inl ⟨c, hr⟩)
  have hsubject : ∀ r, op.subject = some r → op.Concerns m r := fun _ hr => Or.inr (Or.inr hr)
  have hof : Alters (op.Concerns m) m.kernel m'.kernel →
      m'.kernel.task q = m.kernel.task q ∨
        (op.Concerns m q ∧
          (¬op.StopsRunning m q → (m.kernel.task q).state = .running →
            (m'.kernel.task q).state = .running) ∧
          (¬op.Forks q → (m'.kernel.task q).schedClass = .yatCasched →
            (m'.kernel.task q).masks = (m.kernel.task q).masks)) := by
    intro halters
    rcases halters q with heq | ⟨hA, hkept⟩
    · exact Or.inl heq
    · exact Or.inr ⟨hA, fun _ => hkept.running, fun _ => hkept.masks⟩
  cases op with
  | fork c p =>
      cases hstep
      by_cases hqp : q = p
      · exact Or.inr ⟨hsubject q (by rw [hqp]; rfl), fun hnot => (hnot hqp.symm).elim,
          fun hnot => (hnot hqp.symm).elim⟩
      · exact Or.inl (forkTask_task_of_ne cenv.policies m.kernel c hqp)
  | wakeUpNewTask p now =>
      rcases Option.map_eq_some_iff.mp hstep with ⟨k, hk, heq⟩
      cases heq
      exact hof (alters_wakeUpNewTask (hsubject p rfl) hk)
  | setCurrentState c state =>
      cases hstep
      have hcases : ∀ r, (m.kernel.rq c).curr = some r → r ≠ q →
          (setCurrentState m.kernel c state).task q = m.kernel.task q := by
        intro r hr hrq
        unfold setCurrentState
        rw [hr]
        exact System.updateTask_task_of_ne _ (Ne.symm hrq) _
      cases hr : (m.kernel.rq c).curr with
      | none =>
          left
          show (setCurrentState m.kernel c state).task q = _
          unfold setCurrentState
          rw [hr]
      | some r =>
          by_cases hrq : r = q
          · subst hrq
            have htask : (setCurrentState m.kernel c state).task r =
                { m.kernel.task r with state := state } := by
              unfold setCurrentState
              rw [hr]
              exact System.updateTask_task_self _ _ _
            refine Or.inr ⟨hcurr c r hr, fun hnot _ => ?_, fun _ _ => ?_⟩
            · have hrunning : state = .running :=
                hop.resolve_right fun hsleeping => hnot ⟨hr, hsleeping⟩
              exact (congrArg TaskStruct.state htask).trans hrunning
            · have hmasks := congrArg TaskStruct.masks htask
              exact hmasks
          · exact Or.inl (hcases r hr hrq)
  | tryToWakeUp thisCpu p inMask onCpu now =>
      rcases Option.map_eq_some_iff.mp hstep with ⟨⟨m₁, success⟩, hout, heq⟩
      cases heq
      exact hof (alters_tryToWakeUp (hsubject p rfl) hout)
  | schedTtwuPending c now =>
      cases hstep
      exact hof (alters_schedTtwuPending m c now (hlist c))
  | schedule c now preempt signalPending =>
      cases hstep
      exact hof (h.alters_scheduleLocked c now preempt signalPending hqueued)
  | schedulerTick c now requests =>
      cases hstep
      exact hof (alters_schedulerTick m.kernel c now requests (hcurr c))
  | setCpusAllowed current p ctx =>
      cases hstep
      exact hof (alters_setCpusAllowedPtrLocked cenv.distribute current m.kernel ctx
        (hsubject p rfl))
  | pendingStop c p now =>
      cases hstep
      exact hof (alters_pendingStop m c now (hcurr c) (hlist c) (hsubject p rfl))
  | scheduleStopper c now =>
      cases hstep
      exact hof (h.alters_scheduleStopper hop now hqueued)
  | migrateDisable c =>
      cases hstep
      refine hof ?_
      show Alters _ m.kernel (migrateDisable m.kernel c)
      unfold migrateDisable
      split
      · exact .refl _ _
      · rename_i p hp
        refine .updateTask_of_same (hcurr c p hp) ?_
        exact fun _ => ⟨rfl, rfl⟩
  | migrateEnable c =>
      cases hstep
      exact hof (alters_migrateEnable cenv.distribute m.kernel c (hcurr c))
  | schedExec c now =>
      cases hstep
      exact hof (alters_schedExec m c now (hcurr c) (hlist c))
  | balancePush c p now =>
      exact hof (alters_balancePushCpuStop (hcurr c) (hlist c) (hsubject p rfl) hstep)
  | schedSetscheduler senv p attr user pi =>
      cases hstep
      exact hof (alters_schedSetscheduler cenv.policies cenv.stop senv m.kernel attr user pi
        (hsubject p rfl))
  | rtMutexSetprio p piTask =>
      cases hstep
      exact hof (alters_rtMutexSetprio m.kernel piTask (hsubject p rfl))
  | setUserNice p nice =>
      cases hstep
      exact hof (alters_setUserNice cenv.policies m.kernel nice (hsubject p rfl))
  | setCpuMasks online active dying =>
      cases hstep
      exact Or.inl rfl

end Kernel
end YatCasched
