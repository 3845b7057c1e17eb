import YatCasched.Kernel.Operations

/-!
# The run queues of all CPUs

Every run of legal operations from freshly initialised run queues keeps the
lists, the counters and the self-links in step.  The proof is the simulation of
{lit}`Operations`: the pointers represent a family of first-in first-out
queues, and the claims about order and membership are facts about that family.

Main results:

- Theorem {lit}`runQueuesExact_run`: the invariant in every reachable state.
-/

namespace YatCasched
namespace Kernel

open CircularList

variable {n : Nat}

/-- After the operations {lit}`ops`, the run queues hold the tasks {lit}`q`:
without duplicates, each task on at most one list, counted exactly, picked from
the right queue, and in the order of the last enqueues. -/
structure RunQueuesExact (k : System n) (ops : List (YatOp n)) (q : Fin n → List Pid) :
    Prop where
  tasks : ∀ c, TasksAre k c (q c)
  nodup : ∀ c, (q c).Nodup
  disjoint : ∀ c d p, p ∈ q c → p ∈ q d → c = d
  counted : ∀ c, (k.rq c).yatCasched.nrRunning.toNat = (q c).length
  pick_none : ∀ c, (pickNextTaskYatCasched k c).2 = none ↔ q c = []
  pick_mem : ∀ c p, (pickNextTaskYatCasched k c).2 = some p → p ∈ q c
  ordered : QueueFamily.Ordered (ops.map YatOp.event) q

/-- The queues after the operations: every task that has been enqueued, at the back of
its queue, and not been dequeued since. -/
def queuedBy (ops : List (YatOp n)) : Fin n → List Pid :=
  (ops.map YatOp.event).foldl QueueFamily.step fun _ => []

/-- The list and the counter of a CPU are the same before and after. -/
def SameRunQueue (k k' : System n) (d : Fin n) : Prop :=
  (k'.rq d).yatCasched.nrRunning = (k.rq d).yatCasched.nrRunning ∧
    ∀ l, TasksAre k' d l ↔ TasksAre k d l

/-- Two states that represent the same queue for a CPU agree on it. -/
theorem Represents.sameRunQueue {k k' : System n} {q q' : Fin n → List Pid}
    (hq : Represents k q) (hq' : Represents k' q') {d : Fin n} (hd : q' d = q d) :
    SameRunQueue k k' d := by
  constructor
  · rw [← UInt32.toNat_inj, hq'.counted, hq.counted, hd]
  · intro l
    constructor
    · intro hl
      rw [hl.unique (hq'.tasks d), hd]
      exact hq.tasks d
    · intro hl
      rw [hl.unique (hq.tasks d), ← hd]
      exact hq'.tasks d

/-- Representation and enqueue order are the whole invariant. -/
theorem Represents.runQueuesExact {k : System n} {q : Fin n → List Pid}
    {ops : List (YatOp n)} (hq : Represents k q)
    (hordered : QueueFamily.Ordered (ops.map YatOp.event) q) :
    RunQueuesExact k ops q where
  tasks := hq.tasks
  nodup := fun c => (hq.tasks c).nodup
  disjoint := hq.disjoint
  counted := hq.counted
  pick_none := fun c => by
    rw [pickNextTaskYatCasched_snd]
    exact hq.firstTask_eq_none_iff c
  pick_mem := fun c p hp => by
    rw [pickNextTaskYatCasched_snd, hq.firstTask_eq] at hp
    exact List.mem_of_mem_head? hp
  ordered := hordered

/-- In every state reached by legal operations from initialised run queues the
run queues hold the tasks that the operations have enqueued and not dequeued since, and a
further operation leaves the list and the counter of every other run queue alone. -/
theorem runQueuesExact_run (k₀ : System n)
    (hforked : ∀ p, Ring k₀.links (.runList p) []) (ops : List (YatOp n))
    (hlegal : Run.Guarded YatOp.step YatOp.Legal (initYatCaschedRqs k₀) ops) :
    RunQueuesExact (ops.foldl YatOp.step (initYatCaschedRqs k₀)) ops (queuedBy ops) ∧
      ∀ op : YatOp n, op.Legal (ops.foldl YatOp.step (initYatCaschedRqs k₀)) →
        ∀ d, op.cpu? ≠ some d →
          SameRunQueue (ops.foldl YatOp.step (initYatCaschedRqs k₀))
            (op.step (ops.foldl YatOp.step (initYatCaschedRqs k₀))) d := by
  have hinit := represents_initYatCaschedRqs hforked
  have hrun := hinit.run hlegal
  have hordered := QueueFamily.ordered_run _ (hinit.guarded_event hlegal)
  constructor
  · exact hrun.runQueuesExact hordered
  · intro op hop d hd
    exact hrun.sameRunQueue (hrun.step hop) (step_event_of_ne _ hd)

/-- Two tasks on two CPUs: enqueue both, run one, migrate it behind the other. -/
theorem runQueuesExact_run_migrate :
    TasksAre
      ([.enqueueTask 0 7, .enqueueTask 1 8, .schedule 0, .dequeueTask 0 7,
        .enqueueTask 1 7, .dequeueTask 0 9].foldl YatOp.step
          (initYatCaschedRqs (bootSystem 2))) 1 [8, 7] := by
  have hforked : ∀ p, Ring (bootSystem 2).links (.runList p) [] := fun p =>
    ⟨⟨rfl, rfl⟩, by simp⟩
  refine (runQueuesExact_run (bootSystem 2) hforked _ ?_).1.tasks 1
  rw [(represents_initYatCaschedRqs hforked).guarded_iff]
  decide

end Kernel
end YatCasched
