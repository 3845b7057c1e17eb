import YatCasched.Kernel.NoLostWakeup

/-!
# Nothing enters the class

No assignment in {lit}`core.c` stores the cache-aware class in a task: forks, changes of
policy and inherited priorities store other classes, and all other functions keep the class.
The tasks of the class are those that had it at the start.

Main results:

- Theorem {lit}`nothingEnters`: the tasks of the class in every reachable state, and what
  follows for the hooks of the class if there are none.
-/

namespace YatCasched
namespace Kernel

open CircularList QueueLife

variable {n : Nat} {env : CoreEnv n} {m : Machine n} {s : TaskLife n} {p : Pid}
  {F : Footprint n} {e : Event (Fin n) Pid SchedClass}

/-- An event in a footprint moves no task to the class. -/
theorem cls_of_step (he : F.Legal s e) (hp : (s.step e).cls p = .yatCasched) :
    s.cls p = .yatCasched := by
  have hrequeue : ∀ t cls, (s.step (.requeue t cls)).cls = Function.update s.cls t cls := by
    intro t cls
    unfold Life.step
    dsimp only
    split
    · show Function.update (s.dequeue t).cls t cls = _
      rw [dequeue_cls]
    · rfl
  cases e with
  | post t i => exact hp
  | activate t i => exact hp
  | switch i blocks next =>
      have hblock : (if blocks then s.block i else s).cls = s.cls := by
        split
        · unfold Life.block
          split
          · exact dequeue_cls s _
          · rfl
        · rfl
      exact (congrFun hblock p).symm.trans hp
  | requeue t cls =>
      rw [hrequeue] at hp
      by_cases hpt : p = t
      · subst hpt
        rw [Function.update_self] at hp
        rcases he.2.2 with hsame | hother
        · rw [← hsame]
          exact hp
        · exact (hother hp).elim
      · rwa [Function.update_of_ne hpt] at hp
  | move t i =>
      have hmove : (s.step (.move t i)).cls = s.cls := dequeue_cls s t
      rwa [hmove] at hp

/-- In every state that a run reaches, a task of the class has been one from the start.  If
there was none, the lists of the class are empty and its pick is never a task. -/
theorem nothingEnters (hpicks : PicksMembers env.picks) {k₀ : System n} (hk₀ : Idle k₀)
    {ops : List (CoreOp n)}
    (hreach : Trace.Reaches (CoreOp.step env) CoreOp.Legal (bootMachine k₀) ops m) :
    (∀ p, (m.kernel.task p).schedClass = .yatCasched →
      (k₀.task p).schedClass = .yatCasched) ∧
    ((∀ p, (k₀.task p).schedClass ≠ .yatCasched) → ∀ c,
      TasksAre m.kernel c [] ∧ (m.kernel.rq c).yatCasched.nrRunning = 0 ∧
        pickNextTaskYatCasched m.kernel c = (m.kernel, none)) := by
  have hend : ∃ s, Refines m s ∧
      ∀ p, s.cls p = .yatCasched → (k₀.task p).schedClass = .yatCasched := by
    refine hreach.invariant (fun m => ∃ s, Refines m s ∧
      ∀ p, s.cls p = .yatCasched → (k₀.task p).schedClass = .yatCasched) ?_
      ⟨_, hk₀.refines, fun _ hp => hp⟩
    rintro m₁ op m₂ ⟨s, h, hcls⟩ hop hstep
    refine (refines_step hpicks h hop hstep).invariant (fun s =>
      ∀ p, s.cls p = .yatCasched → (k₀.task p).schedClass = .yatCasched) ?_ h.sound hcls
    exact fun s e _ hkeeps he p hp => hkeeps p (cls_of_step he hp)
  rcases hend with ⟨s, h, hcls⟩
  constructor
  · intro p hp
    exact hcls p ((h.queues.cls p).symm.trans hp)
  · intro hnone c
    have hqueue : s.queue (c, .yatCasched) = [] := by
      rw [List.eq_nil_iff_forall_not_mem]
      intro p hp
      exact hnone p (hcls p ((h.sound.mem_queue p c .yatCasched).mp hp).2)
    have htasks := h.queues.yatQueue.tasks c
    have hcount := h.queues.yatQueue.counted c
    have hfirst := h.queues.yatQueue.firstTask_eq c
    rw [hqueue] at htasks hcount hfirst
    refine ⟨htasks, UInt32.toNat.inj hcount, ?_⟩
    unfold pickNextTaskYatCasched
    rw [hfirst]
    rfl

/-- All tasks sleep, and none is of the class. -/
def fairBoot : System 2 :=
  { bootSystem 2 with task := fun p => { (bootSystem 2).task p with state := .sleeping } }

theorem idle_fairBoot : Idle fairBoot where
  forked := quiet_yatCaschedBootSystem.forked
  rt_empty := fun _ => rfl
  fair_empty := fun _ => rfl
  nrRunning_zero := fun _ => rfl
  cfsHNrRunning_zero := fun _ => rfl
  off := fun _ => by simp [fairBoot, bootSystem, initTask]
  curr_none := fun _ => rfl

/-- Task 7 is woken up and asks for the policy of the class.  It gets the policy, but the
lists of the class stay empty. -/
theorem sevenDoesNotEnter :
    ∃ m, Trace.Reaches (CoreOp.step twoCpus) CoreOp.Legal (bootMachine fairBoot)
        [.tryToWakeUp 0 7 true false 0,
          .schedSetscheduler privilegedCaller 7 (plainAttr 8 0) true true] m ∧
      (m.kernel.task 7).policy = 8 ∧ (m.kernel.task 7).onRq = .queued ∧
      ∀ c, TasksAre m.kernel c [] := by
  have hrun : ∃ m, Trace.Reaches (CoreOp.step twoCpus) CoreOp.Legal (bootMachine fairBoot)
        [.tryToWakeUp 0 7 true false 0,
          .schedSetscheduler privilegedCaller 7 (plainAttr 8 0) true true] m ∧
      (m.kernel.task 7).policy = 8 ∧ (m.kernel.task 7).onRq = .queued :=
    ⟨_, .cons trivial rfl (.cons trivial rfl (.nil _)), by decide, by decide⟩
  rcases hrun with ⟨m, hreach, hpolicy, hqueued⟩
  refine ⟨m, hreach, hpolicy, hqueued, fun c => ?_⟩
  exact ((nothingEnters picksMembers_fifoPicks idle_fairBoot hreach).2
    (fun p => by simp [fairBoot, bootSystem, initTask]) c).1

end Kernel
end YatCasched
