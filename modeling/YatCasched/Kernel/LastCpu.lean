import YatCasched.Kernel.RunQueueInvariant

/-!
# The recorded CPU of a task

{lit}`p->yat_casched.last_cpu` is meant to hold the CPU on which the task last
became {lit}`rq->curr`, and -1 until the first time.  A history variable keeps
that CPU beside the scheduler, and every operation is described by the one
write it makes to {lit}`last_cpu` and the one task it switches in.

The field follows the history exactly in the runs that avoid three writes of
the code: the reset of a task that is enqueued again, the guess of
{lit}`select_task_rq` for a task that never ran, and the record of a
{lit}`pick_task` whose task is not switched in.

Main results:

- Theorem {lit}`lastCpuRecords_step_iff`: the steps that keep the record.
- Theorem {lit}`lastCpuRecords_throughout_iff`: the runs that keep it.
-/

namespace YatCasched
namespace Kernel

open CircularList

variable {n : Nat}

/-! ## Writes -/

/-- The value an operation stores in {lit}`last_cpu`, and of which task. -/
def YatOp.lastCpuWrite (k : System n) : YatOp n → Option (Pid × Int)
  | .schedFork p => some (p, -1)
  | .selectTaskRq p taskCpu =>
      if (k.task p).yatCasched.lastCpu = -1 ∨ (n : Int) ≤ (k.task p).yatCasched.lastCpu then
        some (p, (taskCpu : Nat))
      else
        none
  | .enqueueTask _ p => if listEmpty k.links (.runList p) then some (p, -1) else none
  | .pickTask c => (firstTask k c).map fun p => (p, ((c : Nat) : Int))
  | .schedule c => (firstTask k c).map fun p => (p, ((c : Nat) : Int))
  | _ => none

/-- The task an operation makes {lit}`rq->curr` of a CPU. -/
def YatOp.switchedIn (k : System n) : YatOp n → Option (Pid × Fin n)
  | .schedule c => (firstTask k c).map fun p => (p, c)
  | .switchTo c next => next.map fun p => (p, c)
  | _ => none

/-- The value of a component after at most one write. -/
def written {β : Type} (write : Option (Pid × β)) (old : Pid → β) (p : Pid) : β :=
  match write with
  | some (r, value) => if p = r then value else old p
  | none => old p

@[simp]
theorem written_none {β : Type} (old : Pid → β) (p : Pid) : written none old p = old p :=
  rfl

theorem written_none_eq {β : Type} (old : Pid → β) : written none old = old :=
  rfl

@[simp]
theorem written_self {β : Type} (r : Pid) (value : β) (old : Pid → β) :
    written (some (r, value)) old r = value := by
  simp [written]

theorem written_of_ne {β : Type} {p r : Pid} (value : β) (old : Pid → β) (hpr : p ≠ r) :
    written (some (r, value)) old p = old p := by
  simp [written, hpr]

/-- Writing the value a component already has changes nothing. -/
@[simp]
theorem written_same {β : Type} (r p : Pid) (old : Pid → β) :
    written (some (r, old r)) old p = old p := by
  by_cases hpr : p = r
  · subst hpr
    exact written_self _ _ _
  · exact written_of_ne _ _ hpr

/-- The last CPU after an assignment to one task. -/
theorem updateTask_lastCpu (k : System n) (r p : Pid) (f : TaskStruct n → TaskStruct n) :
    ((k.updateTask r f).task p).yatCasched.lastCpu =
      written (some (r, (f (k.task r)).yatCasched.lastCpu))
        (fun q => (k.task q).yatCasched.lastCpu) p := by
  by_cases hpr : p = r
  · subst hpr
    rw [System.updateTask_task_self, written_self]
  · rw [System.updateTask_task_of_ne k hpr, written_of_ne _ _ hpr]

/-- A pick writes the last CPU of the first task. -/
theorem pickNextTaskYatCasched_lastCpu (k : System n) (c : Fin n) (p : Pid) :
    ((pickNextTaskYatCasched k c).1.task p).yatCasched.lastCpu =
      written ((firstTask k c).map fun r => (r, ((c : Nat) : Int)))
        (fun q => (k.task q).yatCasched.lastCpu) p := by
  unfold pickNextTaskYatCasched
  cases firstTask k c with
  | none => rfl
  | some r => simp [updateTask_lastCpu]

/-- Every operation makes exactly the write recorded for it. -/
theorem YatOp.step_lastCpu (k : System n) (op : YatOp n) (p : Pid) :
    ((op.step k).task p).yatCasched.lastCpu =
      written (op.lastCpuWrite k) (fun q => (k.task q).yatCasched.lastCpu) p := by
  cases op with
  | schedFork r =>
      simp [YatOp.step, YatOp.lastCpuWrite, schedForkYatCasched, updateTask_lastCpu]
  | selectTaskRq r taskCpu =>
      simp only [YatOp.step, YatOp.lastCpuWrite, selectTaskRqYatCasched]
      split
      · simp [updateTask_lastCpu]
      · split
        · split <;> rfl
        · rfl
  | enqueueTask c r =>
      simp only [YatOp.step, YatOp.lastCpuWrite, enqueueTaskYatCasched]
      split
      · simp [updateTask_lastCpu]
      · rfl
  | dequeueTask c r =>
      simp only [YatOp.step, YatOp.lastCpuWrite, dequeueTaskYatCasched]
      split <;> rfl
  | pickTask c => exact pickNextTaskYatCasched_lastCpu k c p
  | schedule c => exact pickNextTaskYatCasched_lastCpu k c p
  | switchTo c next => rfl
  | setNextTask c r =>
      simp only [YatOp.step, YatOp.lastCpuWrite, setNextTaskYatCasched, updateTask_lastCpu]
      exact written_same r p fun q => (k.task q).yatCasched.lastCpu
  | putPrevTask c r => exact updateCurrYatCasched_lastCpu k c p
  | taskTick c r =>
      simp only [YatOp.step, YatOp.lastCpuWrite, taskTickYatCasched]
      split
      · simp only [reschedCurr, System.updateRq_task, updateTask_lastCpu,
          updateCurrYatCasched_lastCpu]
        exact written_same r p fun q => (k.task q).yatCasched.lastCpu
      · exact updateCurrYatCasched_lastCpu k c p
  | yieldTask c => rfl
  | wakeupPreempt c r => rfl
  | updateRqClock c now => rfl

/-- An operation writes -1 or the number of a CPU. -/
theorem YatOp.lastCpuWrite_ge {k : System n} {op : YatOp n} {p : Pid} {value : Int}
    (hwrite : op.lastCpuWrite k = some (p, value)) : -1 ≤ value := by
  cases op with
  | schedFork r =>
      cases hwrite
      exact le_rfl
  | selectTaskRq r taskCpu =>
      rcases Option.ite_none_right_eq_some.mp hwrite with ⟨_, hvalue⟩
      cases hvalue
      omega
  | enqueueTask c r =>
      rcases Option.ite_none_right_eq_some.mp hwrite with ⟨_, hvalue⟩
      cases hvalue
      exact le_rfl
  | pickTask c =>
      rcases Option.map_eq_some_iff.mp hwrite with ⟨r, _, hvalue⟩
      cases hvalue
      omega
  | schedule c =>
      rcases Option.map_eq_some_iff.mp hwrite with ⟨r, _, hvalue⟩
      cases hvalue
      omega
  | _ => cases hwrite

/-- In every run {lit}`last_cpu` stays -1 or above. -/
theorem lastCpu_ge_run {k : System n} (hk : ∀ p, -1 ≤ (k.task p).yatCasched.lastCpu)
    (ops : List (YatOp n)) (p : Pid) :
    -1 ≤ ((ops.foldl YatOp.step k).task p).yatCasched.lastCpu := by
  induction ops generalizing k with
  | nil => exact hk p
  | cons op ops ih =>
      apply ih
      intro q
      rw [YatOp.step_lastCpu]
      cases hwrite : op.lastCpuWrite k with
      | none => exact hk q
      | some write =>
          unfold written
          dsimp only
          split
          · exact YatOp.lastCpuWrite_ge hwrite
          · exact hk q

/-- No operation moves a task to another class. -/
theorem YatOp.step_schedClass (k : System n) (op : YatOp n) (p : Pid) :
    ((op.step k).task p).schedClass = (k.task p).schedClass := by
  cases op with
  | schedFork r => simp [YatOp.step, schedForkYatCasched, updateTask_schedClass]
  | selectTaskRq r taskCpu =>
      simp only [YatOp.step, selectTaskRqYatCasched]
      split
      · simp [updateTask_schedClass]
      · split
        · split <;> rfl
        · rfl
  | enqueueTask c r => exact enqueueTaskYatCasched_schedClass k c r p
  | dequeueTask c r => exact dequeueTaskYatCasched_schedClass k c r p
  | pickTask c => exact pickNextTaskYatCasched_schedClass k c p
  | schedule c => exact pickNextTaskYatCasched_schedClass k c p
  | switchTo c next => rfl
  | setNextTask c r => simp [YatOp.step, setNextTaskYatCasched, updateTask_schedClass]
  | putPrevTask c r => exact updateCurrYatCasched_schedClass k c p
  | taskTick c r =>
      simp only [YatOp.step, taskTickYatCasched]
      split
      · simp [reschedCurr, updateTask_schedClass, updateCurrYatCasched_schedClass]
      · exact updateCurrYatCasched_schedClass k c p
  | yieldTask c => rfl
  | wakeupPreempt c r => rfl
  | updateRqClock c now => rfl

/-! ## The history variable -/

/-- The scheduler with the CPU on which each task last became
{lit}`rq->curr` since its fork. -/
structure Traced (n : Nat) where
  sys : System n
  ranOn : Pid → Option (Fin n)

/-- The entry of the history an operation changes. -/
def YatOp.ranOnWrite (k : System n) : YatOp n → Option (Pid × Option (Fin n))
  | .schedFork p => some (p, none)
  | op => (op.switchedIn k).map fun (p, c) => (p, some c)

/-- An operation and its effect on the history. -/
def Traced.step (s : Traced n) (op : YatOp n) : Traced n where
  sys := op.step s.sys
  ranOn := written (op.ranOnWrite s.sys) s.ranOn

/-- {lit}`last_cpu` as the history demands it. -/
def recordOf : Option (Fin n) → Int
  | none => -1
  | some c => (c : Nat)

/-- For every task of the class, {lit}`last_cpu` is -1 exactly when the task
never ran, and otherwise the CPU on which it last ran. -/
def LastCpuRecords (s : Traced n) : Prop :=
  ∀ p, (s.sys.task p).schedClass = .yatCasched →
    (s.sys.task p).yatCasched.lastCpu = recordOf (s.ranOn p)

/-- The first task of a queue. -/
def HeadTask (k : System n) (c : Fin n) (p : Pid) : Prop :=
  ∃ l, TasksAre k c (p :: l)

/-- What the callers guarantee: the hooks of the class get tasks of the class,
the lists are handled as before, and a task of the class is switched in only
from the queue of the CPU. -/
def Traced.Legal (s : Traced n) (op : YatOp n) : Prop :=
  op.Legal s.sys ∧
    match op with
    | .selectTaskRq p _ | .enqueueTask _ p | .dequeueTask _ p =>
        (s.sys.task p).schedClass = .yatCasched
    | .switchTo c (some p) =>
        (s.sys.task p).schedClass = .yatCasched → Queued s.sys c p
    | _ => True

/-- The steps on which the code and the history agree: a task is enqueued only
before its first run, a CPU is chosen only after it, every {lit}`pick_task` that
is not one step with its switch finds an empty queue or a first task that last
ran on the CPU, and a task switched in without its own pick last ran on the
CPU. -/
def Traced.Faithful (s : Traced n) : YatOp n → Prop
  | .enqueueTask _ p => s.ranOn p = none
  | .selectTaskRq p _ => s.ranOn p ≠ none
  | .pickTask c => ∀ p, HeadTask s.sys c p → s.ranOn p = some c
  | .switchTo c (some p) =>
      (s.sys.task p).schedClass = .yatCasched → s.ranOn p = some c
  | _ => True

/-- Only tasks of the class are queued. -/
def QueuesHoldClass (s : Traced n) : Prop :=
  ∃ q, Represents s.sys q ∧ ∀ c p, p ∈ q c → (s.sys.task p).schedClass = .yatCasched

/-- The first task of a represented queue. -/
theorem Represents.headTask_iff {k : System n} {q : Fin n → List Pid} (hq : Represents k q)
    (c : Fin n) (p : Pid) : HeadTask k c p ↔ firstTask k c = some p := by
  rw [hq.firstTask_eq]
  constructor
  · intro h
    rcases h with ⟨l, hl⟩
    rw [(hq.tasks c).unique hl]
    rfl
  · intro h
    rcases List.head?_eq_some_iff.mp h with ⟨l, hl⟩
    exact ⟨l, hl ▸ hq.tasks c⟩

/-- A record determines the history. -/
theorem recordOf_injective : Function.Injective (recordOf (n := n)) := by
  intro a b hab
  cases a with
  | none =>
      cases b with
      | none => rfl
      | some d =>
          simp only [recordOf] at hab
          omega
  | some c =>
      cases b with
      | none =>
          simp only [recordOf] at hab
          omega
      | some d =>
          simp only [recordOf] at hab
          congr 1
          omega

/-- Legal steps queue tasks of the class only. -/
theorem queuesHoldClass_step (s : Traced n) (op : YatOp n) (hs : QueuesHoldClass s)
    (hop : s.Legal op) : QueuesHoldClass (s.step op) := by
  rcases hs with ⟨q, hq, hclass⟩
  refine ⟨_, hq.step hop.1, ?_⟩
  intro c p hp
  simp only [Traced.step]
  rw [YatOp.step_schedClass]
  cases op with
  | enqueueTask d r =>
      rcases QueueFamily.mem_step_enqueue.mp hp with hold | ⟨_, hpr⟩
      · exact hclass c p hold
      · rw [hpr]
        exact hop.2
  | dequeueTask d r => exact hclass c p (QueueFamily.mem_of_mem_step_dequeue hp)
  | _ => exact hclass c p hp

/-! ## Exactness -/

/-- One write to the field and one to the history keep the record exactly if
they agree, for a task of the class. -/
theorem LastCpuRecords.written_iff {s : Traced n} (hs : LastCpuRecords s) (r : Pid)
    (value : Int) (ran : Option (Fin n)) :
    (∀ p, (s.sys.task p).schedClass = .yatCasched →
        written (some (r, value)) (fun q => (s.sys.task q).yatCasched.lastCpu) p =
          recordOf (written (some (r, ran)) s.ranOn p)) ↔
      ((s.sys.task r).schedClass = .yatCasched → value = recordOf ran) := by
  constructor
  · intro h hclass
    simpa using h r hclass
  · intro h p hclass
    by_cases hpr : p = r
    · subst hpr
      simpa using h hclass
    · rw [written_of_ne _ _ hpr, written_of_ne _ _ hpr]
      exact hs p hclass

/-- The record after a step, in terms of the two writes. -/
theorem lastCpuRecords_step (s : Traced n) (op : YatOp n) :
    LastCpuRecords (s.step op) ↔
      ∀ p, (s.sys.task p).schedClass = .yatCasched →
        written (op.lastCpuWrite s.sys) (fun q => (s.sys.task q).yatCasched.lastCpu) p =
          recordOf (written (op.ranOnWrite s.sys) s.ranOn p) := by
  unfold LastCpuRecords
  simp only [Traced.step, YatOp.step_schedClass, YatOp.step_lastCpu]

/-- A step that writes only the field keeps the record exactly if the value is
the one the history has. -/
theorem LastCpuRecords.fieldWrite_iff {s : Traced n} (hs : LastCpuRecords s) {op : YatOp n}
    {r : Pid} {value : Int} (hfield : op.lastCpuWrite s.sys = some (r, value))
    (hran : op.ranOnWrite s.sys = none) (hclass : (s.sys.task r).schedClass = .yatCasched) :
    LastCpuRecords (s.step op) ↔ value = recordOf (s.ranOn r) := by
  rw [lastCpuRecords_step, hfield, hran]
  have hsame := hs.written_iff r value (s.ranOn r)
  simp only [written_same r _ s.ranOn] at hsame
  rw [written_none_eq, hsame]
  simp [hclass]

/-- A step that writes neither keeps the record. -/
theorem LastCpuRecords.noWrite {s : Traced n} (hs : LastCpuRecords s) {op : YatOp n}
    (hfield : op.lastCpuWrite s.sys = none) (hran : op.ranOnWrite s.sys = none) :
    LastCpuRecords (s.step op) := by
  rw [lastCpuRecords_step, hfield, hran]
  exact hs

/-- Choosing a CPU keeps the record exactly if the task has run. -/
theorem LastCpuRecords.selectTaskRq_iff {s : Traced n} (hs : LastCpuRecords s) {r : Pid}
    (hclass : (s.sys.task r).schedClass = .yatCasched) (taskCpu : Fin n) :
    LastCpuRecords (s.step (.selectTaskRq r taskCpu)) ↔
      s.Faithful (.selectTaskRq r taskCpu) := by
  have hrecord := hs r hclass
  cases hran : s.ranOn r with
  | none =>
      rw [hran] at hrecord
      have hfield : (YatOp.selectTaskRq r taskCpu).lastCpuWrite s.sys =
          some (r, ((taskCpu : Nat) : Int)) := by
        simp [YatOp.lastCpuWrite, hrecord, recordOf]
      rw [hs.fieldWrite_iff hfield rfl hclass, hran]
      simp only [recordOf, Traced.Faithful, hran, ne_eq, not_true_eq_false, iff_false]
      omega
  | some c =>
      rw [hran] at hrecord
      have hfield : (YatOp.selectTaskRq r taskCpu).lastCpuWrite s.sys = none := by
        simp only [YatOp.lastCpuWrite, hrecord, recordOf]
        rw [if_neg]
        omega
      exact iff_of_true (hs.noWrite hfield rfl) (by simp [Traced.Faithful, hran])

/-- A pick without a switch keeps the record exactly if the first task, if there is
one, last ran on that CPU. -/
theorem LastCpuRecords.pickTask_iff {s : Traced n} (hs : LastCpuRecords s)
    {q : Fin n → List Pid} (hq : Represents s.sys q)
    (hclass : ∀ c p, p ∈ q c → (s.sys.task p).schedClass = .yatCasched) (c : Fin n) :
    LastCpuRecords (s.step (.pickTask c)) ↔ s.Faithful (.pickTask c) := by
  cases hfirst : firstTask s.sys c with
  | none =>
      have hfield : (YatOp.pickTask c).lastCpuWrite s.sys = none := by
        simp [YatOp.lastCpuWrite, hfirst]
      refine iff_of_true (hs.noWrite hfield rfl) ?_
      intro p hp
      rw [hq.headTask_iff, hfirst] at hp
      cases hp
  | some r =>
      have hmem : r ∈ q c := by
        rw [hq.firstTask_eq] at hfirst
        exact List.mem_of_mem_head? hfirst
      have hfield : (YatOp.pickTask c).lastCpuWrite s.sys = some (r, ((c : Nat) : Int)) := by
        simp [YatOp.lastCpuWrite, hfirst]
      rw [hs.fieldWrite_iff hfield rfl (hclass c r hmem)]
      constructor
      · intro h p hp
        rw [hq.headTask_iff, hfirst] at hp
        cases hp
        have hrecord : recordOf (s.ranOn r) = recordOf (some c) := h.symm
        exact recordOf_injective hrecord
      · intro h
        rw [h r ((hq.headTask_iff c r).mpr hfirst)]
        rfl

/-- A legal step keeps the record exactly if it is one of the faithful steps. -/
theorem lastCpuRecords_step_iff (s : Traced n) (op : YatOp n) (hq : QueuesHoldClass s)
    (hs : LastCpuRecords s) (hop : s.Legal op) :
    LastCpuRecords (s.step op) ↔ s.Faithful op := by
  rcases hq with ⟨q, hq, hclass⟩
  cases op with
  | schedFork r =>
      rw [lastCpuRecords_step]
      refine iff_of_true ?_ trivial
      exact (hs.written_iff r (-1) none).mpr fun _ => rfl
  | selectTaskRq r taskCpu => exact hs.selectTaskRq_iff hop.2 taskCpu
  | enqueueTask c r =>
      have hfree := (hq.legal_iff (.enqueueTask c r)).mp hop.1
      have hfield : (YatOp.enqueueTask c r).lastCpuWrite s.sys = some (r, -1) := by
        simp only [YatOp.lastCpuWrite, (hq.listEmpty_runList_iff r).mpr hfree, if_true]
      rw [hs.fieldWrite_iff hfield rfl hop.2]
      constructor
      · intro h
        exact recordOf_injective h.symm
      · intro h
        simp only [Traced.Faithful] at h
        rw [h]
        rfl
  | pickTask c => exact hs.pickTask_iff hq hclass c
  | schedule c =>
      rw [lastCpuRecords_step]
      refine iff_of_true ?_ trivial
      cases hfirst : firstTask s.sys c with
      | none =>
          simp only [YatOp.lastCpuWrite, YatOp.ranOnWrite, YatOp.switchedIn, hfirst,
            Option.map_none]
          exact hs
      | some r =>
          simp only [YatOp.lastCpuWrite, YatOp.ranOnWrite, YatOp.switchedIn, hfirst,
            Option.map_some]
          exact (hs.written_iff r _ (some c)).mpr fun _ => rfl
  | switchTo c next =>
      cases next with
      | none => exact iff_of_true (hs.noWrite rfl rfl) trivial
      | some r =>
          rw [lastCpuRecords_step]
          have hsame := hs.written_iff r (s.sys.task r).yatCasched.lastCpu (some c)
          simp only [written_same r _ fun q => (s.sys.task q).yatCasched.lastCpu] at hsame
          simp only [YatOp.lastCpuWrite, YatOp.ranOnWrite, YatOp.switchedIn, Option.map_some,
            written_none, hsame, Traced.Faithful]
          refine forall_congr' fun hr => ?_
          rw [hs r hr]
          exact recordOf_injective.eq_iff
  | _ => exact iff_of_true (hs.noWrite rfl rfl) trivial

/-- A legal run from initialised run queues and newly forked tasks keeps the
record in every state it reaches exactly if all its steps are faithful. -/
theorem lastCpuRecords_throughout_iff (k₀ : System n)
    (hforked : ∀ p, Ring k₀.links (.runList p) [] ∧ (k₀.task p).yatCasched.lastCpu = -1)
    (ops : List (YatOp n))
    (hlegal : Run.Guarded Traced.step Traced.Legal
      ⟨initYatCaschedRqs k₀, fun _ => none⟩ ops) :
    Run.Throughout Traced.step LastCpuRecords ⟨initYatCaschedRqs k₀, fun _ => none⟩ ops ↔
      Run.Guarded Traced.step Traced.Faithful ⟨initYatCaschedRqs k₀, fun _ => none⟩ ops := by
  have hqueues : QueuesHoldClass (⟨initYatCaschedRqs k₀, fun _ => none⟩ : Traced n) := by
    refine ⟨fun _ => [], represents_initYatCaschedRqs fun p => (hforked p).1, ?_⟩
    intro c p hp
    cases hp
  have hrecords : LastCpuRecords (⟨initYatCaschedRqs k₀, fun _ => none⟩ : Traced n) := by
    intro p _
    simp only [initYatCaschedRqs_task, recordOf]
    exact (hforked p).2
  exact Run.throughout_iff_guarded queuesHoldClass_step lastCpuRecords_step_iff
    hqueues hrecords hlegal

/-- The task 7 of the class runs once: enqueued, picked, switched in, dequeued. -/
theorem lastCpuRecords_throughout_runOnce :
    Run.Throughout Traced.step LastCpuRecords
      ⟨initYatCaschedRqs (yatCaschedBootSystem 2), fun _ => none⟩
      [.enqueueTask 0 7, .schedule 0, .dequeueTask 0 7] := by
  have hforked : ∀ p, Ring (yatCaschedBootSystem 2).links (.runList p) [] ∧
      ((yatCaschedBootSystem 2).task p).yatCasched.lastCpu = -1 := fun p =>
    ⟨⟨⟨rfl, rfl⟩, by simp⟩, rfl⟩
  have hinit := represents_initYatCaschedRqs fun p => (hforked p).1
  have henqueue := (hinit.legal_iff (.enqueueTask 0 7)).mpr (by decide)
  have hqueued := (hinit.step henqueue).step (show (YatOp.schedule 0).Legal _ from trivial)
  have hdequeue := (hqueued.legal_iff (.dequeueTask 0 7)).mpr (by decide)
  apply (lastCpuRecords_throughout_iff _ hforked _ ?_).mpr
  · exact ⟨rfl, trivial, trivial, trivial⟩
  · exact ⟨⟨henqueue, rfl⟩, ⟨trivial, trivial⟩, ⟨hdequeue, rfl⟩, trivial⟩

/-- Legal runs that lose the record: a running task is dequeued and enqueued
again, a CPU is chosen for a task that never ran, and a {lit}`pick_task` is not
followed by a switch. -/
theorem lastCpuRecords_not_invariant :
    (Run.Guarded Traced.step Traced.Legal
        ⟨initYatCaschedRqs (yatCaschedBootSystem 2), fun _ => none⟩
        [.enqueueTask 0 7, .schedule 0, .dequeueTask 0 7, .enqueueTask 0 7] ∧
      ¬Run.Throughout Traced.step LastCpuRecords
        ⟨initYatCaschedRqs (yatCaschedBootSystem 2), fun _ => none⟩
        [.enqueueTask 0 7, .schedule 0, .dequeueTask 0 7, .enqueueTask 0 7]) ∧
    (Run.Guarded Traced.step Traced.Legal
        ⟨initYatCaschedRqs (yatCaschedBootSystem 2), fun _ => none⟩ [.selectTaskRq 7 1] ∧
      ¬Run.Throughout Traced.step LastCpuRecords
        ⟨initYatCaschedRqs (yatCaschedBootSystem 2), fun _ => none⟩ [.selectTaskRq 7 1]) ∧
    (Run.Guarded Traced.step Traced.Legal
        ⟨initYatCaschedRqs (yatCaschedBootSystem 2), fun _ => none⟩
        [.enqueueTask 1 7, .pickTask 1] ∧
      ¬Run.Throughout Traced.step LastCpuRecords
        ⟨initYatCaschedRqs (yatCaschedBootSystem 2), fun _ => none⟩
        [.enqueueTask 1 7, .pickTask 1]) := by
  have hinit := represents_initYatCaschedRqs (k := yatCaschedBootSystem 2)
    fun p => ⟨⟨rfl, rfl⟩, by simp⟩
  have henqueue : ∀ c, (YatOp.enqueueTask c 7).Legal _ := fun c =>
    (hinit.legal_iff (.enqueueTask c 7)).mpr fun _ => List.not_mem_nil
  have hqueued := (hinit.step (henqueue 0)).step (show (YatOp.schedule 0).Legal _ from trivial)
  have hdequeue := (hqueued.legal_iff (.dequeueTask 0 7)).mpr (by decide)
  have hfree := hqueued.step hdequeue
  have hrequeue := (hfree.legal_iff (.enqueueTask 0 7)).mpr (by decide)
  refine ⟨⟨?_, ?_⟩, ⟨?_, ?_⟩, ⟨?_, ?_⟩⟩
  · exact ⟨⟨henqueue 0, rfl⟩, ⟨trivial, trivial⟩, ⟨hdequeue, rfl⟩, ⟨hrequeue, rfl⟩, trivial⟩
  · intro h
    exact absurd (h.2.2.2.1 7 rfl) (by decide)
  · exact ⟨⟨trivial, rfl⟩, trivial⟩
  · intro h
    exact absurd (h.1 7 rfl) (by decide)
  · exact ⟨⟨henqueue 1, rfl⟩, ⟨trivial, trivial⟩, trivial⟩
  · intro h
    exact absurd (h.2.1 7 rfl) (by decide)

end Kernel
end YatCasched
