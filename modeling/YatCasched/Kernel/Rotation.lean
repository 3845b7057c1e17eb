import YatCasched.Kernel.Operations

/-!
# Yielding and slice expiry

{lit}`do_sched_yield` calls the yield hook and reschedules; an expired slice
only reschedules.  Rotation means that the picked task is not the one that gave
up the CPU, and that as many steps as there are queued tasks pick each of them
once.

Neither hook moves the running task, and a pick always returns the first one.

Main results:

- Theorem {lit}`picks_eq_replicate`: all picks return the first task.
- Theorem {lit}`not_rotates`: neither yielding nor slice expiry rotates a queue
  of two or more tasks.
-/

namespace YatCasched
namespace Kernel

open CircularList

variable {n : Nat}

/-! ## Steps -/

/-- {lit}`schedule` with the class of the running task: put it back, pick the
next one, switch to it. -/
def expiryStep (c : Fin n) (k : System n) : System n × Option Pid :=
  let k :=
    match (k.rq c).curr with
    | some prev => putPrevTaskYatCasched k c prev
    | none => k
  let picked := pickNextTaskYatCasched k c
  (contextSwitch picked.1 c picked.2, picked.2)

/-- {lit}`do_sched_yield`: the yield hook, then {lit}`schedule`. -/
def yieldStep (c : Fin n) (k : System n) : System n × Option Pid :=
  expiryStep c (yieldTaskYatCasched k c)

/-- The tasks picked by consecutive steps. -/
def picks (step : System n → System n × Option Pid) : Nat → System n → List (Option Pid)
  | 0, _ => []
  | m + 1, k => (step k).2 :: picks step m (step k).1

/-- Giving up the CPU rotates the queue: the picked task is not the one that
was running, and every queued task is picked exactly once in as many steps as
there are tasks. -/
structure Rotates (step : System n → System n × Option Pid) (k : System n)
    (c : Fin n) (l : List Pid) : Prop where
  moves_on : (step k).2 ≠ (k.rq c).curr
  each_once : ∀ p ∈ l, (picks step l.length k).count (some p) = 1

/-! ## Picks -/

/-- The queue of a CPU, counted. -/
structure CountedTasks (k : System n) (c : Fin n) (l : List Pid) : Prop where
  tasks : TasksAre k c l
  counted : (k.rq c).yatCasched.nrRunning.toNat = l.length

/-- Putting the running task back, picking and switching leave the queue as it
is. -/
theorem CountedTasks.expiryStep {k : System n} {c : Fin n} {l : List Pid}
    (hl : CountedTasks k c l) : CountedTasks (expiryStep c k).1 c l := by
  have hlinks : (Kernel.expiryStep c k).1.links = k.links := by
    unfold Kernel.expiryStep
    dsimp only
    split <;> simp [putPrevTaskYatCasched]
  have hcount : ((Kernel.expiryStep c k).1.rq c).yatCasched.nrRunning
      = (k.rq c).yatCasched.nrRunning := by
    unfold Kernel.expiryStep
    dsimp only
    split <;> simp [putPrevTaskYatCasched]
  constructor
  · unfold TasksAre
    rw [hlinks]
    exact hl.tasks
  · rw [hcount]
    exact hl.counted

/-- The task picked by a step is the first one of the queue. -/
theorem CountedTasks.expiryStep_snd {k : System n} {c : Fin n} {l : List Pid}
    (hl : CountedTasks k c l) : (Kernel.expiryStep c k).2 = l.head? := by
  unfold Kernel.expiryStep
  dsimp only
  rw [pickNextTaskYatCasched_snd]
  split
  · refine TasksAre.firstTask_eq ?_ ?_
    · unfold TasksAre
      rw [putPrevTaskYatCasched, updateCurrYatCasched_links]
      exact hl.tasks
    · rw [putPrevTaskYatCasched, updateCurrYatCasched_rq]
      exact hl.counted
  · exact hl.tasks.firstTask_eq hl.counted

/-- All picks of consecutive steps return the first task of the queue. -/
theorem picks_eq_replicate {c : Fin n} {l : List Pid} (m : Nat) :
    ∀ {k : System n}, CountedTasks k c l →
      picks (expiryStep c) m k = List.replicate m l.head? := by
  induction m with
  | zero =>
      intro k _
      rfl
  | succ m ih =>
      intro k hl
      rw [picks, List.replicate_succ, hl.expiryStep_snd, ih hl.expiryStep]

/-- The yield hook does nothing, so a yield is a reschedule. -/
theorem yieldStep_eq (c : Fin n) : yieldStep c = expiryStep c := by
  ext1 k
  unfold yieldStep
  rw [yieldTaskYatCasched_eq]

/-- A queue of two or more tasks is not rotated by reschedules. -/
theorem CountedTasks.not_rotates_expiryStep {k : System n} {c : Fin n} {l : List Pid}
    (hl : CountedTasks k c l) (hlength : 2 ≤ l.length) :
    ¬Rotates (Kernel.expiryStep c) k c l := by
  intro h
  cases l with
  | nil => simp at hlength
  | cons p l =>
      have honce := h.each_once p (by simp)
      rw [picks_eq_replicate _ hl, List.head?_cons, List.count_replicate_self] at honce
      omega

/-- On every run queue with two or more tasks of the class, whichever of them
is running, neither yielding nor slice expiry rotates the queue. -/
theorem not_rotates (k : System n) (c : Fin n) (l : List Pid)
    (htasks : TasksAre k c l)
    (hcounted : (k.rq c).yatCasched.nrRunning.toNat = l.length)
    (hlength : 2 ≤ l.length) :
    ¬Rotates (yieldStep c) k c l ∧ ¬Rotates (expiryStep c) k c l := by
  have hl : CountedTasks k c l := ⟨htasks, hcounted⟩
  rw [yieldStep_eq]
  exact ⟨hl.not_rotates_expiryStep hlength, hl.not_rotates_expiryStep hlength⟩

/-- Tasks 7 and 8 on one CPU, task 7 running. -/
def twoTasks : System 2 :=
  [.enqueueTask 0 7, .enqueueTask 0 8, .schedule 0].foldl YatOp.step
    (initYatCaschedRqs (yatCaschedBootSystem 2))

theorem not_rotates_twoTasks :
    ¬Rotates (yieldStep 0) twoTasks 0 [7, 8] ∧ ¬Rotates (expiryStep 0) twoTasks 0 [7, 8] := by
  refine not_rotates twoTasks 0 [7, 8] ?_ (by decide) (by decide)
  exact ⟨⟨⟨rfl, rfl⟩, ⟨rfl, rfl⟩, rfl, rfl⟩, by decide⟩

/-- Task 7 yields, and its slice expires, twice in a row: it runs on, and task 8
is not picked. -/
theorem twoTasks_runs_on :
    picks (yieldStep 0) 2 twoTasks = [some 7, some 7] ∧
      picks (expiryStep 0) 2 twoTasks = [some 7, some 7] ∧
      ¬Rotates (yieldStep 0) twoTasks 0 [7, 8] ∧
      ¬Rotates (expiryStep 0) twoTasks 0 [7, 8] := by
  refine ⟨by decide, by decide, ?_, ?_⟩
  · intro h
    exact h.moves_on (by decide)
  · intro h
    exact h.moves_on (by decide)

end Kernel
end YatCasched
