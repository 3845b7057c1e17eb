import YatCasched.Kernel.NoLostWakeup

/-!
# The order of a queue

The class serves the tasks of a CPU in the order in which they were queued.  Whatever all
CPUs do, nobody gets in front of a queued task that neither blocks nor is taken off its
queue, and the first one is the only one the class picks: neither the ticks nor the
reschedules let another task have its turn.

Main results:

- Theorem {lit}`neverOvertaken`: the order of a queue over a run.
-/

namespace YatCasched
namespace Kernel

open CircularList QueueLife

variable {n : Nat} {env : CoreEnv n} {m m' : Machine n} {s : TaskLife n} {p : Pid} {c : Fin n}
  {F : Footprint n} {op : CoreOp n}

/-- The step may take the task off its queue: the task goes to sleep, or is queued again or
moved. -/
def CoreOp.Displaces (m : Machine n) (p : Pid) (op : CoreOp n) : Prop :=
  (op.footprint m).blocks = some p ∨ (op.footprint m).touches = some p

/-- Nobody overtakes a runnable task in a run of events that do not take it off its
queue. -/
theorem Follows.advances (h : Follows F s m) (hs : s.Sound) (hp : s.place p = .queued c)
    (hblocks : F.blocks ≠ some p) (htouches : F.touches ≠ some p) :
    ∃ s', Refines m s' ∧ Advances p s s' := by
  refine h.invariant (fun s' => Advances p s s') ?_ hs (.refl p s)
  intro s₁ e hs₁ hadvances he
  refine hadvances.trans (hs₁.ahead_step he.1 (hadvances.place.trans hp) ?_)
  intro hremoves
  have hallows := he.2
  cases e with
  | post t i => exact hremoves
  | activate t i => exact hremoves
  | switch i blocks next => exact hblocks (hallows.2.1 hremoves.1 p hremoves.2)
  | requeue t cls =>
      cases hremoves
      exact htouches hallows.1
  | move t i =>
      cases hremoves
      exact htouches hallows

/-- The tasks in front of a task of the class are those in front of it on the list. -/
theorem Refines.ahead_eq (h : Refines m s) {l : List Pid} (hl : TasksAre m.kernel c l)
    (hp : p ∈ l) :
    s.place p = .queued c ∧ s.cls p = .yatCasched ∧ s.ahead p = l.takeWhile (· ≠ p) := by
  have hqueue : l = s.queue (c, .yatCasched) := hl.unique (h.queues.yatQueue.tasks c)
  have hplace : s.place p = .queued c ∧ s.cls p = .yatCasched := by
    rw [hqueue] at hp
    exact (h.sound.mem_queue p c .yatCasched).mp hp
  refine ⟨hplace.1, hplace.2, ?_⟩
  unfold Life.ahead
  rw [hplace.1, hplace.2, hqueue]
  rfl

/-- A member with nobody in front of it comes first. -/
theorem head?_of_takeWhile_eq_nil {l : List Pid} (hp : p ∈ l)
    (hahead : l.takeWhile (· ≠ p) = []) : l.head? = some p := by
  cases l with
  | nil => cases hp
  | cons q l =>
      by_cases hqp : q = p
      · rw [hqp]
        rfl
      · rw [List.takeWhile_cons_of_pos (by simpa using hqp)] at hahead
        cases hahead

/-- In a run whose steps do not take a task of the class off its queue, whatever else they
are, the task stays on its CPU, the tasks in front of it are some of those that were there
at the start, in the same order, and if it was the first one the class picks nobody else. -/
theorem neverOvertaken (hpicks : PicksMembers env.picks) {k₀ : System n} (hk₀ : Idle k₀)
    {ops ops' : List (CoreOp n)}
    (hreach : Trace.Reaches (CoreOp.step env) CoreOp.Legal (bootMachine k₀) ops m)
    {l : List Pid} (hl : TasksAre m.kernel c l) (hp : p ∈ l)
    (hrest : Trace.Reaches (CoreOp.step env)
      (fun m op => op.Legal m ∧ ¬op.Displaces m p) m ops' m') :
    ∃ l', TasksAre m'.kernel c l' ∧ p ∈ l' ∧
      (l'.takeWhile (· ≠ p)).Sublist (l.takeWhile (· ≠ p)) ∧
      (firstTask m.kernel c = some p → (pickNextTaskYatCasched m'.kernel c).2 = some p) := by
  rcases refines_of_reaches hpicks hk₀.refines hreach with ⟨s, h⟩
  rcases h.ahead_eq hl hp with ⟨hplace, hcls, hahead⟩
  have hend : ∃ s', Refines m' s' ∧ Advances p s s' := by
    refine hrest.invariant (fun m => ∃ s', Refines m s' ∧ Advances p s s') ?_
      ⟨s, h, .refl p s⟩
    rintro m₁ op m₂ ⟨s₁, h₁, hadvances⟩ ⟨hop, hstays⟩ hstep
    have hplace₁ := hadvances.place.trans hplace
    rcases (refines_step hpicks h₁ hop hstep).advances h₁.sound hplace₁
      (fun hblocks => hstays (Or.inl hblocks)) (fun htouches => hstays (Or.inr htouches)) with
      ⟨s₂, h₂, hadvances'⟩
    exact ⟨s₂, h₂, hadvances.trans hadvances'⟩
  rcases hend with ⟨s', h', hadvances⟩
  have hl' := h'.queues.yatQueue.tasks c
  have hp' : p ∈ s'.queue (c, .yatCasched) :=
    (h'.sound.mem_queue p c .yatCasched).mpr
      ⟨hadvances.place.trans hplace, hadvances.cls.trans hcls⟩
  have hsublist := hadvances.ahead
  rw [hahead, (h'.ahead_eq hl' hp').2.2] at hsublist
  refine ⟨_, hl', hp', hsublist, ?_⟩
  intro hfirst
  have hhead : l.head? = some p := by
    rw [hl.unique (h.queues.yatQueue.tasks c), ← h.queues.yatQueue.firstTask_eq]
    exact hfirst
  have hnone : l.takeWhile (· ≠ p) = [] := by
    cases l with
    | nil => cases hp
    | cons q l =>
        cases hhead
        exact List.takeWhile_cons_of_neg (by simp)
  rw [hnone, List.sublist_nil] at hsublist
  rw [pickNextTaskYatCasched_snd, h'.queues.yatQueue.firstTask_eq]
  exact head?_of_takeWhile_eq_nil hp' hsublist

/-- Task 7 is first on CPU 0.  Task 8 joins the queue, and after two ticks and a preemption
the class still picks task 7. -/
theorem sevenStaysFirst :
    ∃ m m', Trace.Reaches (CoreOp.step twoCpus) CoreOp.Legal (bootMachine sleepingBoot)
        [.tryToWakeUp 0 5 true false 0, .tryToWakeUp 0 7 true false 0,
          .schedule 0 0 false false] m ∧
      Trace.Reaches (CoreOp.step twoCpus) (fun m op => op.Legal m ∧ ¬op.Displaces m 7) m
        [.tryToWakeUp 0 8 true false 0, .schedulerTick 0 4000000 false,
          .schedulerTick 0 8000000 false, .schedule 0 9000000 true false] m' ∧
      (pickNextTaskYatCasched m'.kernel 0).2 = some 7 := by
  have hrun : ∃ m m', Trace.Reaches (CoreOp.step twoCpus) CoreOp.Legal
        (bootMachine sleepingBoot)
        [.tryToWakeUp 0 5 true false 0, .tryToWakeUp 0 7 true false 0,
          .schedule 0 0 false false] m ∧
      Trace.Reaches (CoreOp.step twoCpus) (fun m op => op.Legal m ∧ ¬op.Displaces m 7) m
        [.tryToWakeUp 0 8 true false 0, .schedulerTick 0 4000000 false,
          .schedulerTick 0 8000000 false, .schedule 0 9000000 true false] m' ∧
      TasksAre m.kernel 0 [7] ∧ firstTask m.kernel 0 = some 7 := by
    refine ⟨_, _, .cons trivial rfl (.cons trivial rfl (.cons trivial rfl (.nil _))),
      .cons ⟨trivial, ?_⟩ rfl (.cons ⟨trivial, ?_⟩ rfl (.cons ⟨trivial, ?_⟩ rfl
        (.cons ⟨trivial, ?_⟩ rfl (.nil _)))), ?_, ?_⟩
    · rintro (h | h) <;> cases h
    · rintro (h | h) <;> cases h
    · rintro (h | h) <;> cases h
    · rintro (h | h) <;> cases h
    · exact ⟨⟨⟨rfl, rfl⟩, rfl, rfl⟩, by decide⟩
    · rfl
  rcases hrun with ⟨m, m', hreach, hrest, hl, hfirst⟩
  rcases neverOvertaken picksMembers_fifoPicks idle_sleepingBoot hreach hl
    List.mem_cons_self hrest with ⟨l', _, _, _, hpick⟩
  exact ⟨m, m', hreach, hrest, hpick hfirst⟩

end Kernel
end YatCasched
