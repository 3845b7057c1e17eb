import YatCasched.Lib.MachineInt
import YatCasched.Lib.QueueFamily
import YatCasched.Kernel.Hooks

/-!
# The queues behind the pointers

A specification state assigns to every CPU the list of its queued tasks.  The
relation {lit}`Represents` connects it with the list pointers and the counters
of the scheduler, and one lemma per hook says what the hook does to it.

Main results:

- Theorem {lit}`Represents.enqueue`: enqueueing appends to one queue.
- Theorem {lit}`Represents.dequeue`: dequeueing erases from one queue.
- Theorem {lit}`Represents.firstTask_eq`: the picked task is the first one.
-/

namespace YatCasched
namespace Kernel

open CircularList

variable {n : Nat}

/-! ## Queue contents -/

/-- The nodes of a list of tasks. -/
def runLists (l : List Pid) : List (ListNode n) :=
  l.map ListNode.runList

@[simp]
theorem mem_runLists_runList {l : List Pid} {p : Pid} :
    ListNode.runList p ∈ (runLists l : List (ListNode n)) ↔ p ∈ l := by
  simp [runLists]

@[simp]
theorem mem_runLists_tasks {l : List Pid} {c : Fin n} :
    ListNode.tasks c ∉ (runLists l : List (ListNode n)) := by
  simp [runLists]

/-- A node is among the nodes of {lit}`l` if it is the node of some task of
{lit}`l`. -/
theorem mem_runLists {l : List Pid} {x : ListNode n} :
    x ∈ runLists l ↔ ∃ p ∈ l, x = .runList p := by
  simp [runLists, eq_comm]

/-- The list behind {lit}`&rq->yat_casched.tasks` holds exactly these tasks. -/
def TasksAre (k : System n) (c : Fin n) (l : List Pid) : Prop :=
  Ring k.links (.tasks c) (runLists l)

/-- The task is on the list of the CPU. -/
def Queued (k : System n) (c : Fin n) (p : Pid) : Prop :=
  ∃ l, TasksAre k c l ∧ p ∈ l

/-- The pointers determine the queue. -/
theorem TasksAre.unique {k : System n} {c : Fin n} {l l' : List Pid}
    (hl : TasksAre k c l) (hl' : TasksAre k c l') : l = l' := by
  have hnodes : (runLists l : List (ListNode n)) = runLists l' := Ring.unique hl hl'
  refine List.map_injective_iff.mpr ?_ hnodes
  intro p q hpq
  exact ListNode.runList.inj hpq

/-- A queue holds no task twice. -/
theorem TasksAre.nodup {k : System n} {c : Fin n} {l : List Pid}
    (hl : TasksAre k c l) : l.Nodup :=
  List.Nodup.of_map _ (List.nodup_cons.mp (Ring.nodup hl)).2

/-- There are fewer tasks than an {lit}`unsigned int` can count. -/
theorem TasksAre.length_lt {k : System n} {c : Fin n} {l : List Pid}
    (hl : TasksAre k c l) : l.length < 2 ^ 32 := by
  have hcard := List.Nodup.length_le_card hl.nodup
  rw [Fintype.card_fin] at hcard
  omega

/-! ## The representation relation -/

/-- The list pointers and the counters represent the queues {lit}`q`. -/
structure Represents (k : System n) (q : Fin n → List Pid) : Prop where
  tasks : ∀ c, TasksAre k c (q c)
  unlinked : ∀ p, (∀ c, p ∉ q c) → Ring k.links (.runList p) []
  disjoint : ∀ c d p, p ∈ q c → p ∈ q d → c = d
  counted : ∀ c, (k.rq c).yatCasched.nrRunning.toNat = (q c).length

/-- Being queued is membership in the represented queue. -/
theorem Represents.queued_iff {k : System n} {q : Fin n → List Pid}
    (hq : Represents k q) (c : Fin n) (p : Pid) : Queued k c p ↔ p ∈ q c := by
  constructor
  · intro h
    rcases h with ⟨l, hl, hp⟩
    rwa [hl.unique (hq.tasks c)] at hp
  · intro hp
    exact ⟨q c, hq.tasks c, hp⟩

/-- The represented queues are determined. -/
theorem Represents.unique {k : System n} {q q' : Fin n → List Pid}
    (hq : Represents k q) (hq' : Represents k q') : q = q' := by
  ext1 c
  exact (hq.tasks c).unique (hq'.tasks c)

/-- States with the same links and counters represent the same queues. -/
theorem Represents.congr {k k' : System n} {q : Fin n → List Pid}
    (hq : Represents k q) (hlinks : k'.links = k.links)
    (hcount : ∀ c, (k'.rq c).yatCasched.nrRunning = (k.rq c).yatCasched.nrRunning) :
    Represents k' q := by
  constructor
  · intro c
    unfold TasksAre
    rw [hlinks]
    exact hq.tasks c
  · intro p hp
    rw [hlinks]
    exact hq.unlinked p hp
  · exact hq.disjoint
  · intro c
    rw [hcount]
    exact hq.counted c

/-- The queue of one CPU and that of another have no node in common. -/
theorem Represents.nodes_disjoint {k : System n} {q : Fin n → List Pid}
    (hq : Represents k q) {c d : Fin n} (hdc : d ≠ c) :
    ∀ y ∈ ListNode.tasks d :: runLists (q d), y ∉ ListNode.tasks c :: runLists (q c) := by
  intro y hy hy'
  rcases List.mem_cons.mp hy with rfl | hy
  · simp [hdc] at hy'
  · rcases mem_runLists.mp hy with ⟨p, hp, rfl⟩
    have hpc : p ∈ q c := by simpa using hy'
    exact hdc (hq.disjoint d c p hp hpc)

/-- A queued task does not point to itself; an unqueued one does. -/
theorem Represents.listEmpty_runList_iff {k : System n} {q : Fin n → List Pid}
    (hq : Represents k q) (p : Pid) :
    listEmpty k.links (.runList p) = true ↔ ∀ c, p ∉ q c := by
  constructor
  · intro hempty c hp
    have hne : listEmpty k.links (.runList p) = false :=
      Ring.listEmpty_mem (hq.tasks c) (by simpa using hp)
    rw [hne] at hempty
    cases hempty
  · intro hp
    exact (hq.unlinked p hp).listEmpty_iff.mpr rfl

/-! ## Initial states -/

/-- {lit}`init_yat_casched_rq` on every CPU in turn. -/
def initYatCaschedRqs (k : System n) : System n :=
  (List.finRange n).foldl initYatCaschedRq k

/-- Initialising run queues changes no task. -/
@[simp]
theorem initYatCaschedRqs_task (k : System n) : (initYatCaschedRqs k).task = k.task := by
  unfold initYatCaschedRqs
  induction List.finRange n generalizing k with
  | nil => rfl
  | cons c cpus ih =>
      rw [List.foldl_cons, ih]
      rfl

/-- Initialising run queues changes nothing else in them. -/
theorem initYatCaschedRqs_rq (k : System n) (c : Fin n) :
    ∃ yat, (initYatCaschedRqs k).rq c = { k.rq c with yatCasched := yat } := by
  unfold initYatCaschedRqs
  induction List.finRange n generalizing k with
  | nil => exact ⟨(k.rq c).yatCasched, rfl⟩
  | cons d cpus ih =>
      rw [List.foldl_cons]
      rcases ih (initYatCaschedRq k d) with ⟨yat, hyat⟩
      refine ⟨yat, ?_⟩
      rw [hyat]
      by_cases hcd : c = d
      · subst hcd
        simp [initYatCaschedRq]
      · simp [initYatCaschedRq, hcd]

/-- Initialising run queues keeps an unlinked task unlinked. -/
theorem foldl_initYatCaschedRq_runList (cpus : List (Fin n)) (k : System n) (p : Pid)
    (hp : Ring k.links (.runList p) []) :
    Ring (cpus.foldl initYatCaschedRq k).links (.runList p) [] := by
  induction cpus generalizing k with
  | nil => exact hp
  | cons c cpus ih =>
      rw [List.foldl_cons]
      apply ih
      exact Ring.frame_initListHead hp (by simp)

/-- After the initialisation a run queue is empty, and initialising others
leaves it empty. -/
theorem foldl_initYatCaschedRq_tasks (cpus : List (Fin n)) (k : System n) (c : Fin n)
    (hc : c ∈ cpus ∨
      (TasksAre k c [] ∧ (k.rq c).yatCasched.nrRunning = 0)) :
    TasksAre (cpus.foldl initYatCaschedRq k) c [] ∧
      ((cpus.foldl initYatCaschedRq k).rq c).yatCasched.nrRunning = 0 := by
  induction cpus generalizing k with
  | nil => simpa using hc
  | cons d cpus ih =>
      rw [List.foldl_cons]
      apply ih
      by_cases hcd : c = d
      · right
        subst hcd
        exact ⟨ring_initListHead _ _, by simp [initYatCaschedRq]⟩
      · rcases hc with hmem | ⟨htasks, hzero⟩
        · left
          simpa [hcd] using hmem
        · right
          constructor
          · exact Ring.frame_initListHead htasks (by simp [Ne.symm hcd, runLists])
          · simpa [initYatCaschedRq, hcd] using hzero

/-- The initialised run queues represent the empty queues. -/
theorem represents_initYatCaschedRqs {k : System n}
    (hforked : ∀ p, Ring k.links (.runList p) []) :
    Represents (initYatCaschedRqs k) fun _ => [] := by
  have hinit : ∀ c, TasksAre (initYatCaschedRqs k) c [] ∧
      ((initYatCaschedRqs k).rq c).yatCasched.nrRunning = 0 := fun c =>
    foldl_initYatCaschedRq_tasks _ k c (Or.inl (List.mem_finRange c))
  constructor
  · intro c
    exact (hinit c).1
  · intro p _
    exact foldl_initYatCaschedRq_runList _ k p (hforked p)
  · intro c d p hp
    cases hp
  · intro c
    simp [(hinit c).2]

/-! ## Queueing -/

/-- The links an enqueue starts from: an unqueued task is initialised again. -/
theorem Represents.initListHead_runList {k : System n} {q : Fin n → List Pid}
    (hq : Represents k q) {p : Pid} (hp : ∀ c, p ∉ q c) :
    Represents { k with links := initListHead k.links (.runList p) } q := by
  constructor
  · intro c
    exact Ring.frame_initListHead (hq.tasks c) (by simpa using hp c)
  · intro r hr
    by_cases hrp : r = p
    · subst hrp
      exact ring_initListHead _ _
    · exact Ring.frame_initListHead (hq.unlinked r hr) (by simp [Ne.symm hrp])
  · exact hq.disjoint
  · exact hq.counted

/-- Enqueueing an unqueued task appends it to the queue of the CPU. -/
theorem Represents.enqueue {k : System n} {q : Fin n → List Pid}
    (hq : Represents k q) (c : Fin n) {p : Pid} (hp : ∀ d, p ∉ q d) :
    Represents (enqueueTaskYatCasched k c p) (Function.update q c (q c ++ [p])) := by
  have hempty := (hq.listEmpty_runList_iff p).mpr hp
  have hinit := hq.initListHead_runList hp
  have hpc : ListNode.runList p ∉ ListNode.tasks c :: runLists (q c) := by
    simpa using hp c
  have hring : TasksAre (enqueueTaskYatCasched k c p) c (q c ++ [p]) := by
    have hadd := Ring.addTail (hinit.tasks c) hpc
    simpa [TasksAre, runLists, enqueueTaskYatCasched, hempty] using hadd
  have hlinks : (enqueueTaskYatCasched k c p).links =
      listAddTail (initListHead k.links (.runList p)) (.runList p) (.tasks c) := by
    simp [enqueueTaskYatCasched, hempty]
  constructor
  · intro d
    by_cases hdc : d = c
    · subst hdc
      simpa using hring
    · rw [Function.update_of_ne hdc]
      unfold TasksAre
      rw [hlinks]
      exact Ring.frame_addTail (hinit.tasks c) (hinit.tasks d) (by simpa using hp d)
        (hinit.nodes_disjoint hdc)
  · intro r hr
    have hrp : r ≠ p := by
      intro hrp
      have hnot := hr c
      simp [hrp] at hnot
    have hrq : ∀ d, r ∉ q d := by
      intro d hd
      have hnot := hr d
      by_cases hdc : d = c
      · subst hdc
        simp [hd] at hnot
      · simp [hdc, hd] at hnot
    rw [hlinks]
    refine Ring.frame_addTail (hinit.tasks c) (hinit.unlinked r hrq) (by simp [Ne.symm hrp]) ?_
    intro y hy
    rw [List.mem_singleton.mp hy]
    simpa using hrq c
  · exact QueueFamily.disjoint_step (e := .enqueue c p) hp hq.disjoint
  · intro d
    by_cases hdc : d = c
    · subst hdc
      have hlength := hring.length_lt
      have hcount := hq.counted d
      rw [List.length_append, List.length_singleton, ← hcount] at hlength
      simp only [enqueueTaskYatCasched, hempty, if_true, System.updateRq_rq_self,
        System.updateTask_rq, Function.update_self, List.length_append, List.length_singleton]
      rw [MachineInt.toNat_add_one hlength, hcount]
    · have hcount := hq.counted d
      simpa [enqueueTaskYatCasched, hempty, hdc] using hcount

/-- Dequeueing a task with the run queue that holds it erases it from that
queue. -/
theorem Represents.dequeue {k : System n} {q : Fin n → List Pid}
    (hq : Represents k q) {c : Fin n} {p : Pid} (hp : p ∈ q c) :
    Represents (dequeueTaskYatCasched k c p) (Function.update q c ((q c).erase p)) := by
  have hlinked : listEmpty k.links (.runList p) = false :=
    Ring.listEmpty_mem (hq.tasks c) (by simpa using hp)
  have hpc : ListNode.runList p ∈ (runLists (q c) : List (ListNode n)) := by
    simpa using hp
  have hlinks : (dequeueTaskYatCasched k c p).links =
      listDelInit k.links (.runList p) := by
    simp [dequeueTaskYatCasched, hlinked]
  have hring : TasksAre (dequeueTaskYatCasched k c p) c ((q c).erase p) := by
    have herase : (runLists ((q c).erase p) : List (ListNode n)) =
        (runLists (q c)).erase (.runList p) := by
      unfold runLists
      rw [List.map_erase]
      intro a b hab
      exact ListNode.runList.inj hab
    unfold TasksAre
    rw [hlinks, herase]
    exact Ring.delInit (hq.tasks c) hpc
  constructor
  · intro d
    by_cases hdc : d = c
    · subst hdc
      simpa using hring
    · rw [Function.update_of_ne hdc]
      unfold TasksAre
      rw [hlinks]
      exact Ring.frame_delInit (hq.tasks c) hpc (hq.tasks d) (hq.nodes_disjoint hdc)
  · intro r hr
    rw [hlinks]
    by_cases hrp : r = p
    · subst hrp
      exact ring_listDelInit_self _ _
    · have hrq : ∀ d, r ∉ q d := by
        intro d hd
        apply hr d
        by_cases hdc : d = c
        · subst hdc
          simpa using (List.mem_erase_of_ne hrp).mpr hd
        · rwa [Function.update_of_ne hdc]
      refine Ring.frame_delInit (hq.tasks c) hpc (hq.unlinked r hrq) ?_
      intro y hy
      rw [List.mem_singleton.mp hy]
      simpa using hrq c
  · have hholder : ∀ d, p ∈ q d → d = c := fun d hd => hq.disjoint d c p hd hp
    exact QueueFamily.disjoint_step (e := .dequeue c p) hholder hq.disjoint
  · intro d
    by_cases hdc : d = c
    · subst hdc
      have hcount := hq.counted d
      have hpos : 0 < (k.rq d).yatCasched.nrRunning.toNat := by
        rw [hcount]
        exact List.length_pos_of_mem hp
      simp only [dequeueTaskYatCasched, hlinked, Bool.false_eq_true, not_false_eq_true, if_true,
        System.updateRq_rq_self, Function.update_self, List.length_erase_of_mem hp]
      rw [MachineInt.toNat_sub_one hpos, hcount]
    · have hcount := hq.counted d
      simpa [dequeueTaskYatCasched, hlinked, hdc] using hcount

/-- Dequeueing a task that is on no queue changes nothing. -/
theorem Represents.dequeue_unqueued {k : System n} {q : Fin n → List Pid}
    (hq : Represents k q) (c : Fin n) {p : Pid} (hp : ∀ d, p ∉ q d) :
    dequeueTaskYatCasched k c p = k := by
  unfold dequeueTaskYatCasched
  rw [(hq.listEmpty_runList_iff p).mpr hp]
  simp

/-- Dequeueing with the run queue that holds the task, if any does. -/
theorem Represents.dequeue_of_holder {k : System n} {q : Fin n → List Pid}
    (hq : Represents k q) {c : Fin n} {p : Pid} (hp : ∀ d, p ∈ q d → d = c) :
    Represents (dequeueTaskYatCasched k c p) (Function.update q c ((q c).erase p)) := by
  by_cases hmem : p ∈ q c
  · exact hq.dequeue hmem
  · have hnone : ∀ d, p ∉ q d := by
      intro d hd
      exact hmem (hp d hd ▸ hd)
    rw [hq.dequeue_unqueued c hnone, List.erase_of_not_mem hmem, Function.update_eq_self]
    exact hq

/-! ## Picking -/

/-- The picked task is the first one of a counted queue. -/
theorem TasksAre.firstTask_eq {k : System n} {c : Fin n} {l : List Pid}
    (hl : TasksAre k c l) (hcount : (k.rq c).yatCasched.nrRunning.toNat = l.length) :
    firstTask k c = l.head? := by
  cases l with
  | nil =>
      have hzero : (k.rq c).yatCasched.nrRunning = 0 := by
        rw [← UInt32.toNat_inj, hcount]
        rfl
      simp [firstTask, hzero]
  | cons p l =>
      have hne : (k.rq c).yatCasched.nrRunning ≠ 0 := by
        intro hzero
        rw [hzero] at hcount
        simp at hcount
      have hlinked : ¬listEmpty k.links (.tasks c) = true := by
        intro hempty
        have hnil := (Ring.listEmpty_iff hl).mp hempty
        simp [runLists] at hnil
      have hcons : Ring k.links (.tasks c) (ListNode.runList p :: runLists l) := hl
      have hfirst := hcons.listFirstEntry_eq
      simp [firstTask, hne, hlinked, hfirst, containerOf]

/-- The picked task is the first one of the represented queue. -/
theorem Represents.firstTask_eq {k : System n} {q : Fin n → List Pid}
    (hq : Represents k q) (c : Fin n) : firstTask k c = (q c).head? :=
  (hq.tasks c).firstTask_eq (hq.counted c)

/-- A pick returns nothing exactly if the queue is empty. -/
theorem Represents.firstTask_eq_none_iff {k : System n} {q : Fin n → List Pid}
    (hq : Represents k q) (c : Fin n) : firstTask k c = none ↔ q c = [] := by
  rw [hq.firstTask_eq, List.head?_eq_none_iff]

@[simp]
theorem pickNextTaskYatCasched_snd (k : System n) (c : Fin n) :
    (pickNextTaskYatCasched k c).2 = firstTask k c := by
  unfold pickNextTaskYatCasched
  split <;> rename_i h <;> rw [h]

@[simp]
theorem pickNextTaskYatCasched_links (k : System n) (c : Fin n) :
    (pickNextTaskYatCasched k c).1.links = k.links := by
  unfold pickNextTaskYatCasched
  split <;> rfl

/-- Picking changes no counter. -/
@[simp]
theorem pickNextTaskYatCasched_nrRunning (k : System n) (c d : Fin n) :
    ((pickNextTaskYatCasched k c).1.rq d).yatCasched.nrRunning
      = (k.rq d).yatCasched.nrRunning := by
  unfold pickNextTaskYatCasched
  split
  · rfl
  · rw [System.updateTask_rq]
    exact System.updateRq_rq_apply k c d (fun r => r.yatCasched.nrRunning) fun _ => rfl

end Kernel
end YatCasched
