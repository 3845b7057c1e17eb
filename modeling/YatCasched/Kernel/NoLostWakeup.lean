import YatCasched.Kernel.TaskFrame

/-!
# No wakeup is lost

A wakeup races with the task that goes to sleep: the task writes its state and calls
{lit}`__schedule`, which dequeues it unless a wakeup has put it back to running.  Between
the choice of a CPU and the enqueue, the task is on a wake list.

Main results:

- Theorem {lit}`awake_step`: a task that has been woken up stays awake.
- Theorem {lit}`no_lost_wakeup`: so it does over every run in which it does not go to sleep
  again, and the CPU that empties its wake list queues it.
-/

namespace YatCasched
namespace Kernel

open CircularList QueueLife

variable {n : Nat} {env : CoreEnv n} {m m' m₁ m₂ : Machine n} {s : TaskLife n} {p : Pid}
  {c : Fin n} {F : Footprint n} {e : Event (Fin n) Pid SchedClass} {op : CoreOp n}

/-! ## Events -/

/-- What every allowed event keeps, a step keeps. -/
theorem Follows.invariant (Inv : TaskLife n → Prop)
    (hkeep : ∀ s e, s.Sound → Inv s → F.Legal s e → Inv (s.step e)) (hs : s.Sound)
    (hinv : Inv s) (h : Follows F s m) : ∃ s', Refines m s' ∧ Inv s' := by
  rcases h with ⟨es, hes, hrefines⟩
  refine ⟨_, hrefines, ?_⟩
  have hrun : (es.foldl Life.step s).Sound ∧ Inv (es.foldl Life.step s) := by
    have hstep : ∀ s e, s.Sound ∧ Inv s → F.Legal s e → (s.step e).Sound ∧ Inv (s.step e) :=
      fun s e h he => ⟨h.1.step he.1, hkeep s e h.1 h.2 he⟩
    exact Run.foldl_invariant hstep ⟨hs, hinv⟩ hes
  exact hrun.2

/-- A task that is not asleep falls asleep only when it blocks. -/
theorem step_ne_asleep (he : F.Legal s e) (hp : s.place p ≠ .asleep)
    (hblocks : F.blocks ≠ some p) : (s.step e).place p ≠ .asleep := by
  cases e with
  | post t i =>
      have hpt : p ≠ t := by
        rintro rfl
        exact hp he.1
      show Function.update s.place t (.pending i) p ≠ _
      rw [Function.update_of_ne hpt]
      exact hp
  | activate t i =>
      show Function.update s.place t (.queued i) p ≠ _
      by_cases hpt : p = t
      · subst hpt
        rw [Function.update_self]
        simp
      · rw [Function.update_of_ne hpt]
        exact hp
  | switch i blocks next =>
      show (if blocks then s.block i else s).place p ≠ _
      split
      · rename_i htrue
        rw [block_place_of_ne s i fun hcurr => hblocks (he.2.2.1 htrue p hcurr)]
        exact hp
      · exact hp
  | requeue t k =>
      rw [requeue_place]
      exact hp
  | move t i =>
      show Function.update (s.dequeue t).place t (.queued i) p ≠ _
      by_cases hpt : p = t
      · subst hpt
        rw [Function.update_self]
        simp
      · rw [Function.update_of_ne hpt, dequeue_place_of_ne s hpt]
        exact hp

/-- A task on its way to a CPU stays there until the CPU empties its wake list. -/
theorem step_pending (he : F.Legal s e) (hp : s.place p = .pending c)
    (hwakes : F.wakes ≠ some p) (hflushes : F.flushes ≠ some c) :
    (s.step e).place p = .pending c := by
  cases e with
  | post t i =>
      have hpt : p ≠ t := by
        rintro rfl
        have hasleep : s.place p = .asleep := he.1
        rw [hp] at hasleep
        cases hasleep
      exact (Function.update_of_ne hpt _ _).trans hp
  | activate t i =>
      have hpt : p ≠ t := by
        rintro rfl
        have hlegal : s.place p = .asleep ∨ s.place p = .pending i := he.1
        have hallows : F.wakes = some p ∨ F.flushes = some i := he.2
        rw [hp] at hlegal
        rcases hlegal with hasleep | hpending
        · cases hasleep
        · cases hpending
          exact hallows.elim hwakes hflushes
      exact (Function.update_of_ne hpt _ _).trans hp
  | switch i blocks next =>
      show (if blocks then s.block i else s).place p = _
      split
      · unfold Life.block
        split
        · rename_i t _
          by_cases hpt : p = t
          · subst hpt
            rw [dequeue_of_not_queued fun j hj => by
              rw [hp] at hj
              cases hj]
            exact hp
          · rw [dequeue_place_of_ne s hpt]
            exact hp
        · exact hp
      · exact hp
  | requeue t k =>
      rw [requeue_place]
      exact hp
  | move t i =>
      have hpt : p ≠ t := by
        rintro rfl
        rcases he.1.1 with ⟨j, hj⟩
        rw [hp] at hj
        cases hj
      refine (Function.update_of_ne hpt _ _).trans ?_
      rw [dequeue_place_of_ne s hpt]
      exact hp

/-! ## Emptying a wake list -/

theorem ttwuDoWakeup_state (k : System n) (p : Pid) :
    ((ttwuDoWakeup k p).task p).state = .running := by
  unfold ttwuDoWakeup
  rw [System.updateTask_task_self]

theorem ttwuDoWakeup_onRq (k : System n) (p : Pid) :
    ((ttwuDoWakeup k p).task p).onRq = (k.task p).onRq := by
  unfold ttwuDoWakeup
  rw [System.updateTask_task_self]

/-- An activated task is queued and runs. -/
theorem ttwuDoActivate_queued (k : System n) (c : Fin n) (p : Pid) :
    ((ttwuDoActivate k c p).task p).onRq = .queued ∧
      ((ttwuDoActivate k c p).task p).state = .running := by
  unfold ttwuDoActivate
  refine ⟨?_, ttwuDoWakeup_state _ p⟩
  rw [ttwuDoWakeup_onRq, wakeupPreempt_task]
  unfold activateTask
  rw [System.updateTask_task_self]

/-- A task of the list runs after the round that queues it. -/
theorem foldl_ttwuPendingRound_state (c : Fin n) {l : List Pid} (hp : p ∈ l) (k : System n) :
    ((l.foldl (ttwuPendingRound c) k).task p).state = .running := by
  induction l generalizing k with
  | nil => cases hp
  | cons q l ih =>
      rw [List.foldl_cons]
      by_cases hpq : p = q
      · subst hpq
        have hround : ((ttwuPendingRound c k p).task p).state = .running :=
          (ttwuDoActivate_queued _ c p).2
        have hkeeps := alters_foldl_ttwuPendingRound (A := fun _ => True) c (l := l)
          (fun _ _ => trivial) (ttwuPendingRound c k p) p
        rcases hkeeps with heq | ⟨_, hkept⟩
        · rw [heq]
          exact hround
        · exact hkept.running hround
      · exact ih ((List.mem_cons.mp hp).resolve_left hpq) _

/-- A step that takes a task off its wake list leaves it running. -/
theorem state_of_flush (hstep : op.step env m = some m')
    (hflushes : (op.footprint m).flushes = some c) (hp : p ∈ m.wakeList c) :
    m'.wakeList = m.wakeList ∨ (m'.kernel.task p).state = .running := by
  have hstopper : ∀ (k : System n) now,
      ((runStopper ⟨k, m.wakeList⟩ c now).kernel.task p).state = .running := fun k now =>
    foldl_ttwuPendingRound_state c hp _
  have hkeeps : ∀ {k k' : System n}, Alters (fun _ => True) k k' →
      (k.task p).state = .running → (k'.task p).state = .running := by
    intro k k' halters hrunning
    rcases halters p with heq | ⟨_, hkept⟩
    · rw [heq]
      exact hrunning
    · exact hkept.running hrunning
  cases op with
  | schedTtwuPending d now =>
      cases hflushes
      cases hstep
      exact Or.inr (foldl_ttwuPendingRound_state c hp _)
  | pendingStop d q now =>
      cases hflushes
      cases hstep
      unfold pendingStop
      split
      · exact Or.inl rfl
      · exact Or.inr (hkeeps (alters_migrationCpuStop _ c _ trivial)
          (hstopper m.kernel now))
  | schedExec d now =>
      cases hflushes
      cases hstep
      unfold schedExec
      split
      · exact Or.inl rfl
      · dsimp only
        split
        · exact Or.inl rfl
        · exact Or.inr (hkeeps (alters_migrationCpuStopTo _ c _ trivial) (hstopper _ now))
  | balancePush d q now =>
      cases hflushes
      have hout : balancePushCpuStop env.wakeup m c q now = some m' := hstep
      unfold balancePushCpuStop at hout
      dsimp only at hout
      split at hout
      · split at hout
        · cases hout
        · rename_i k₂ cpu hfallback
          cases hout
          have hsearch := hkeeps (alters_fallbackRq trivial hfallback) (hstopper m.kernel now)
          exact Or.inr (hkeeps (alters_migrateTask k₂ cpu trivial) hsearch)
      · cases hout
        exact Or.inr (hstopper m.kernel now)
  | _ => cases hflushes

/-! ## Staying awake -/

/-- The task is runnable and says that it runs, or it is on its way to a CPU. -/
def Awake (m : Machine n) (p : Pid) : Prop :=
  ((m.kernel.task p).onRq = .queued ∧ (m.kernel.task p).state = .running) ∨
    ∃ c, p ∈ m.wakeList c

/-- No step blocks a task that is awake. -/
theorem Awake.blocks_ne (hawake : Awake m p) (h : Refines m s) :
    (op.footprint m).blocks ≠ some p := by
  cases op with
  | schedule c now preempt signalPending =>
      intro hblocks
      have hblocks' : (if blocksPrevious m.kernel c preempt signalPending then
          (m.kernel.rq c).curr else none) = some p := hblocks
      split at hblocks'
      · rename_i htrue
        have hqueued := Refines.of_curr (w := m.wakeList) h hblocks'
        have hrunning : (m.kernel.task p).state = .running := by
          rcases hawake with hawake | ⟨d, hd⟩
          · exact hawake.2
          · exact ((h.placed.waking p d hd).2.1 hqueued.1).elim
        unfold blocksPrevious at htrue
        rw [hblocks'] at htrue
        simp [hrunning] at htrue
      · cases hblocks'
  | _ => exact fun hblocks => by cases hblocks

/-- A task that is awake stays awake, unless it goes to sleep or is forked. -/
theorem awake_step (hpicks : PicksMembers env.picks) (h : Refines m s) (hop : op.Legal m)
    (hstep : op.step env m = some m') (hawake : Awake m p) (hstays : ¬op.StopsRunning m p) :
    Awake m' p := by
  have hfollows := refines_step hpicks h hop hstep
  have hplace : s.place p ≠ .asleep := by
    intro hasleep
    rcases hawake with ⟨hqueued, _⟩ | ⟨c, hc⟩
    · have hqueued' := (h.places.queued p _).mpr ⟨hqueued, rfl⟩
      rw [hasleep] at hqueued'
      cases hqueued'
    · rw [← h.inbox, h.sound.mem_inbox, hasleep] at hc
      cases hc
  rcases hfollows.invariant (fun s => s.place p ≠ .asleep)
    (fun _ _ _ hp he => step_ne_asleep he hp (hawake.blocks_ne h)) h.sound hplace with
    ⟨s', h', hplace'⟩
  cases hcase : s'.place p with
  | asleep => exact (hplace' hcase).elim
  | pending c =>
      refine Or.inr ⟨c, ?_⟩
      rw [← h'.inbox, h'.sound.mem_inbox]
      exact hcase
  | queued c =>
      have hqueued' := ((h'.places.queued p c).mp hcase).1
      refine Or.inl ⟨hqueued', ?_⟩
      rcases hawake with ⟨_, hrunning⟩ | ⟨d, hd⟩
      · rcases alters_step h hop hstep p with heq | ⟨_, hstate, _⟩
        · rw [heq]
          exact hrunning
        · exact hstate hstays hrunning
      · -- the step has taken the task off its wake list
        have hpending : s.place p = .pending d := by
          rw [← h.sound.mem_inbox, h.inbox]
          exact hd
        have hwaking := (h.places.pending p d hpending).1
        have hnot : ∀ c', p ∉ m'.wakeList c' := by
          intro c' hc'
          rw [← h'.inbox, h'.sound.mem_inbox, hcase] at hc'
          cases hc'
        have hwakes : (op.footprint m).wakes ≠ some p := by
          intro hwakes
          cases op with
          | wakeUpNewTask q now =>
              cases hwakes
              rw [hop.2] at hwaking
              cases hwaking
          | tryToWakeUp thisCpu q inMask onCpu now =>
              cases hwakes
              rcases Option.map_eq_some_iff.mp hstep with ⟨⟨m₁, success⟩, hout, heq⟩
              cases heq
              unfold tryToWakeUp at hout
              rw [hwaking] at hout
              simp only [reduceCtorEq, false_and, not_false_eq_true, if_true] at hout
              cases hout
              exact hnot d hd
          | _ => cases hwakes
        by_cases hflushes : (op.footprint m).flushes = some d
        · rcases state_of_flush hstep hflushes hd with hsame | hrunning
          · exact (hnot d (hsame ▸ hd)).elim
          · exact hrunning
        · rcases hfollows.invariant (fun s => s.place p = .pending d)
            (fun _ _ _ hp he => step_pending he hp hwakes hflushes) h.sound hpending with
            ⟨s'', h'', hpending'⟩
          have hmem : p ∈ m'.wakeList d := by
            rw [← h''.inbox, h''.sound.mem_inbox]
            exact hpending'
          exact (hnot d hmem).elim

/-- The task is on the wake list it is put on. -/
theorem mem_ttwuQueueWakelist (m : Machine n) (p : Pid) (cpu : Fin n) :
    p ∈ (ttwuQueueWakelist m p cpu).wakeList cpu := by
  show p ∈ Function.update m.wakeList cpu (m.wakeList cpu ++ [p]) cpu
  rw [Function.update_self]
  exact List.mem_append_right _ List.mem_cons_self

/-- A task that is queued by a wakeup is awake. -/
theorem awake_ttwuQueue (wenv : WakeupEnv n) (m : Machine n) (p : Pid) (cpu thisCpu : Fin n)
    (now : UInt64) : Awake (ttwuQueue wenv m p cpu thisCpu now) p := by
  unfold ttwuQueue
  split
  · exact Or.inr ⟨cpu, mem_ttwuQueueWakelist m p cpu⟩
  · exact Or.inl (ttwuDoActivate_queued _ cpu p)

/-- A wakeup that succeeds leaves the task awake. -/
theorem awake_of_tryToWakeUp (h : Refines m s) {thisCpu : Fin n} {inMask onCpu : Bool}
    {now : UInt64}
    (hout : tryToWakeUp env.wakeup m thisCpu p inMask onCpu now = some (m', true)) :
    Awake m' p := by
  unfold tryToWakeUp at hout
  dsimp only at hout
  split at hout
  · cases hout
  · split at hout
    · rename_i hcurr
      cases hout
      exact Or.inl ⟨(ttwuDoWakeup_onRq _ p).trans (Refines.of_curr h hcurr).1,
        ttwuDoWakeup_state _ p⟩
    · split at hout
      · rename_i k₁ hrunnable
        cases hout
        unfold ttwuRunnable at hrunnable
        dsimp only at hrunnable
        split at hrunnable
        · rename_i hqueued
          cases hrunnable
          refine Or.inl ⟨(ttwuDoWakeup_onRq _ p).trans ?_, ttwuDoWakeup_state _ p⟩
          split
          · exact of_decide_eq_true hqueued
          · rw [wakeupPreempt_task]
            exact of_decide_eq_true hqueued
        · cases hrunnable
      · rcases Option.map_eq_some_iff.mp hout with ⟨m₁, hm₁, heq⟩
        cases heq
        unfold wakeDequeued at hm₁
        dsimp only at hm₁
        split at hm₁
        · cases hm₁
          exact Or.inr ⟨_, mem_ttwuQueueWakelist _ p _⟩
        · split at hm₁
          · cases hm₁
          · rename_i k₂ cpu _
            cases hm₁
            exact awake_ttwuQueue env.wakeup _ p cpu thisCpu now

/-- The CPU that empties its wake list queues the tasks of the list. -/
theorem Refines.queued_of_flush (h : Refines m s) (hp : p ∈ m.wakeList c) (now : UInt64) :
    ((Kernel.schedTtwuPending m c now).kernel.task p).onRq = .queued ∧
      ((Kernel.schedTtwuPending m c now).kernel.task p).cpu = c ∧
      ((Kernel.schedTtwuPending m c now).kernel.task p).state = .running := by
  have hpending : s.place p = .pending c := by
    rw [← h.sound.mem_inbox, h.inbox]
    exact hp
  have hfollows := h.schedTtwuPending (F := { flushes := some c }) (c := c) rfl now
  -- the task moves from the wake list to the run queue of the CPU, and no further
  have hkeep : ∀ s e, Life.Sound s → (s.place p = .pending c ∨ s.place p = .queued c) →
      Footprint.Legal { flushes := some c } s e →
      (s.step e).place p = .pending c ∨ (s.step e).place p = .queued c := by
    rintro s e - hinv ⟨hlegal, hallows⟩
    cases e with
    | post t i => cases hallows
    | activate t i =>
        by_cases hpt : p = t
        · subst hpt
          right
          refine (Function.update_self _ _ _).trans ?_
          have hsent : s.place p = .asleep ∨ s.place p = .pending i := hlegal
          rcases hinv with hinv | hinv
          · rw [hinv] at hsent
            rcases hsent with hsent | hsent
            · cases hsent
            · cases hsent
              rfl
          · rw [hinv] at hsent
            rcases hsent with hsent | hsent
            · cases hsent
            · cases hsent
        · have hsame : (s.step (.activate t i)).place p = s.place p :=
            Function.update_of_ne hpt _ _
          rw [hsame]
          exact hinv
    | switch i blocks next => cases hallows.1
    | requeue t k => cases hallows.1
    | move t i => cases hallows
  rcases hfollows.invariant _ hkeep h.sound (Or.inl hpending) with ⟨s', h', hplace⟩
  have hqueued : s'.place p = .queued c := by
    refine hplace.resolve_left fun hstill => ?_
    rw [← h'.sound.mem_inbox, h'.inbox] at hstill
    have hnil : (Kernel.schedTtwuPending m c now).wakeList c = [] :=
      Function.update_self _ _ _
    rw [hnil] at hstill
    cases hstill
  have htask := (h'.places.queued p c).mp hqueued
  exact ⟨htask.1, htask.2, foldl_ttwuPendingRound_state c hp _⟩

/-- After a wakeup that succeeds, a task is runnable or on its way to a CPU in every state
that any run reaches in which it does not go to sleep again, and the CPU that empties the
wake list queues it. -/
theorem no_lost_wakeup (hpicks : PicksMembers env.picks) {k₀ : System n} (hk₀ : Idle k₀)
    {ops ops' : List (CoreOp n)}
    (hreach : Trace.Reaches (CoreOp.step env) CoreOp.Legal (bootMachine k₀) ops m)
    {thisCpu : Fin n} {inMask onCpu : Bool} {now : UInt64}
    (hwake : tryToWakeUp env.wakeup m thisCpu p inMask onCpu now = some (m₁, true))
    (hrest : Trace.Reaches (CoreOp.step env)
      (fun m op => op.Legal m ∧ ¬op.StopsRunning m p) m₁ ops' m₂) :
    Awake m₂ p ∧ ∀ c now', p ∈ m₂.wakeList c →
      ((schedTtwuPending m₂ c now').kernel.task p).onRq = .queued ∧
        ((schedTtwuPending m₂ c now').kernel.task p).cpu = c ∧
        ((schedTtwuPending m₂ c now').kernel.task p).state = .running := by
  rcases refines_of_reaches hpicks hk₀.refines hreach with ⟨s, hs⟩
  have hawake := awake_of_tryToWakeUp hs hwake
  have hstart : (∃ s, Refines m₁ s) ∧ Awake m₁ p := by
    exact ⟨(hs.tryToWakeUp (F := { wakes := some p }) rfl hwake).refined, hawake⟩
  have hend : (∃ s, Refines m₂ s) ∧ Awake m₂ p := by
    refine hrest.invariant (fun m => (∃ s, Refines m s) ∧ Awake m p) ?_ hstart
    rintro m op m' ⟨⟨s, hs⟩, hawake⟩ ⟨hop, hstays⟩ hstep
    exact ⟨(refines_step hpicks hs hop hstep).refined,
      awake_step hpicks hs hop hstep hawake hstays⟩
  rcases hend with ⟨⟨s₂, h₂⟩, hawake₂⟩
  exact ⟨hawake₂, fun c now' hc => h₂.queued_of_flush hc now'⟩

/-- Task 7 says that it goes to sleep, CPU 1 wakes it up, and the reschedule that follows
does not block it. -/
theorem sevenStaysAwake :
    ∃ m m₁ m₂,
      Trace.Reaches (CoreOp.step twoCpus) CoreOp.Legal (bootMachine sleepingBoot) sevenRuns m ∧
      (m.kernel.task 7).state = .sleeping ∧
      tryToWakeUp twoCpus.wakeup m 1 7 true false 0 = some (m₁, true) ∧
      CoreOp.step twoCpus m₁ (.schedule 0 0 false false) = some m₂ ∧ Awake m₂ 7 := by
  have hrun : ∃ m m₁ m₂,
      Trace.Reaches (CoreOp.step twoCpus) CoreOp.Legal (bootMachine sleepingBoot) sevenRuns m ∧
      (m.kernel.task 7).state = .sleeping ∧
      tryToWakeUp twoCpus.wakeup m 1 7 true false 0 = some (m₁, true) ∧
      CoreOp.step twoCpus m₁ (.schedule 0 0 false false) = some m₂ :=
    ⟨_, _, _, .cons trivial rfl (.cons trivial rfl (.cons trivial rfl
      (.cons (Or.inr rfl) rfl (.cons trivial rfl (.cons (Or.inr rfl) rfl (.nil _)))))), rfl, rfl,
      rfl⟩
  rcases hrun with ⟨m, m₁, m₂, hreach, hstate, hwake, hstep⟩
  have hrest : Trace.Reaches (CoreOp.step twoCpus)
      (fun m op => op.Legal m ∧ ¬op.StopsRunning m 7) m₁ [.schedule 0 0 false false] m₂ :=
    .cons ⟨trivial, id⟩ hstep (.nil _)
  exact ⟨m, m₁, m₂, hreach, hstate, hwake, hstep,
    (no_lost_wakeup picksMembers_fifoPicks idle_sleepingBoot hreach hwake hrest).1⟩

end Kernel
end YatCasched
