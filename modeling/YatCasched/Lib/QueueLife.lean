import YatCasched.Lib.QueueFamily

/-!
# Life cycles of tasks

What a scheduler for several processors keeps, whatever its policy: where every task is,
the queues of the runnable tasks by processor and class, the tasks on their way to a
processor, and the task each processor runs.  An event moves one task, or switches one
processor to another task.

Main results:

- Theorem {lit}`Sound.step`: the queues hold exactly the runnable tasks after every legal
  event, if they did before.
- Theorem {lit}`Sound.curr_unique`: no task runs on two processors.
- Theorem {lit}`Sound.ahead_step`: nobody overtakes a task that stays queued.
-/

namespace YatCasched
namespace QueueLife

variable {ι τ κ : Type*}

/-- Where a task is. -/
inductive Place (ι : Type*)
  | asleep
  /-- Woken up, and on its way to a processor. -/
  | pending (i : ι)
  /-- Runnable on a processor. -/
  | queued (i : ι)
deriving DecidableEq

/-- The tasks of a scheduler. -/
structure Life (ι τ κ : Type*) where
  place : τ → Place ι
  cls : τ → κ
  queue : ι × κ → List τ
  inbox : ι → List τ
  curr : ι → Option τ

/-- One event. -/
inductive Event (ι τ κ : Type*)
  /-- A sleeping task is sent to a processor. -/
  | post (t : τ) (i : ι)
  /-- A task becomes runnable on a processor. -/
  | activate (t : τ) (i : ι)
  /-- A processor switches to another task; the one it ran may go to sleep. -/
  | switch (i : ι) (blocks : Bool) (next : Option τ)
  /-- A task leaves its queue, changes its class and joins the queue of its class. -/
  | requeue (t : τ) (k : κ)
  /-- A runnable task moves to another processor. -/
  | move (t : τ) (i : ι)

namespace Life

variable [DecidableEq ι] [DecidableEq τ] [DecidableEq κ]

/-- A runnable task leaves its queue. -/
def dequeue (s : Life ι τ κ) (t : τ) : Life ι τ κ :=
  match s.place t with
  | .queued i =>
      { s with
        place := Function.update s.place t .asleep
        queue := QueueFamily.step s.queue (.dequeue (i, s.cls t) t) }
  | _ => s

/-- A task joins the queue of its class on a processor. -/
def enqueue (s : Life ι τ κ) (t : τ) (i : ι) : Life ι τ κ :=
  { s with
    place := Function.update s.place t (.queued i)
    queue := QueueFamily.step s.queue (.enqueue (i, s.cls t) t)
    inbox := fun j => (s.inbox j).erase t }

/-- A task changes its class. -/
def recast (s : Life ι τ κ) (t : τ) (k : κ) : Life ι τ κ :=
  { s with cls := Function.update s.cls t k }

/-- The task a processor runs leaves its queue. -/
def block (s : Life ι τ κ) (i : ι) : Life ι τ κ :=
  match s.curr i with
  | some t => s.dequeue t
  | none => s

/-- The effect of an event. -/
def step (s : Life ι τ κ) : Event ι τ κ → Life ι τ κ
  | .post t i =>
      { s with
        place := Function.update s.place t (.pending i)
        inbox := Function.update s.inbox i (s.inbox i ++ [t]) }
  | .activate t i => s.enqueue t i
  | .switch i blocks next =>
      let s := if blocks then s.block i else s
      { s with curr := Function.update s.curr i next }
  | .requeue t k =>
      match s.place t with
      | .queued i => ((s.dequeue t).recast t k).enqueue t i
      | _ => s.recast t k
  | .move t i => (s.dequeue t).enqueue t i

/-- What is guaranteed of an event: a task is sent while it sleeps, is activated while it
is not runnable, and where it has been sent to, if it has; a processor switches to a task
that is runnable on it; a task that runs is not moved. -/
def Legal (s : Life ι τ κ) : Event ι τ κ → Prop
  | .post t _ => s.place t = .asleep
  | .activate t i => s.place t = .asleep ∨ s.place t = .pending i
  | .switch i blocks next =>
      ∀ t, next = some t → s.place t = .queued i ∧ (blocks = true → s.curr i ≠ some t)
  | .requeue _ _ => True
  | .move t _ => (∃ i, s.place t = .queued i) ∧ ∀ i, s.curr i ≠ some t

/-- The queues hold exactly the runnable tasks, by processor and class, and the inboxes
the tasks on their way. -/
structure Filed (s : Life ι τ κ) : Prop where
  mem_queue : ∀ t i k, t ∈ s.queue (i, k) ↔ s.place t = .queued i ∧ s.cls t = k
  queue_nodup : ∀ x, (s.queue x).Nodup
  mem_inbox : ∀ t i, t ∈ s.inbox i ↔ s.place t = .pending i
  inbox_nodup : ∀ i, (s.inbox i).Nodup

/-- Besides, every processor runs a task that is runnable on it. -/
structure Sound (s : Life ι τ κ) : Prop extends Filed s where
  curr : ∀ i t, s.curr i = some t → s.place t = .queued i

end Life

open Life

variable [DecidableEq ι] [DecidableEq τ] [DecidableEq κ]
variable {s : Life ι τ κ} {t u : τ} {i : ι} {k : κ} {e : Event ι τ κ}

/-! ## Leaving and joining a queue -/

theorem dequeue_of_queued (h : s.place t = .queued i) :
    s.dequeue t =
      { s with
        place := Function.update s.place t .asleep
        queue := QueueFamily.step s.queue (.dequeue (i, s.cls t) t) } := by
  unfold Life.dequeue
  rw [h]

theorem dequeue_of_not_queued (h : ∀ i, s.place t ≠ .queued i) : s.dequeue t = s := by
  unfold Life.dequeue
  split
  · rename_i i hi
    exact (h i hi).elim
  · rfl

@[simp]
theorem dequeue_cls (s : Life ι τ κ) (t : τ) : (s.dequeue t).cls = s.cls := by
  unfold Life.dequeue
  split
  · rfl
  · rfl

@[simp]
theorem dequeue_curr (s : Life ι τ κ) (t : τ) : (s.dequeue t).curr = s.curr := by
  unfold Life.dequeue
  split
  · rfl
  · rfl

@[simp]
theorem dequeue_inbox (s : Life ι τ κ) (t : τ) : (s.dequeue t).inbox = s.inbox := by
  unfold Life.dequeue
  split
  · rfl
  · rfl

/-- A task off its queue. -/
theorem dequeue_place_of_ne (s : Life ι τ κ) (h : u ≠ t) :
    (s.dequeue t).place u = s.place u := by
  unfold Life.dequeue
  split
  · exact Function.update_of_ne h _ _
  · rfl

theorem dequeue_place_self (h : s.place t = .queued i) : (s.dequeue t).place t = .asleep := by
  rw [dequeue_of_queued h]
  exact Function.update_self _ _ _

/-- The queues after a task has joined one. -/
theorem enqueue_queue (s : Life ι τ κ) (t : τ) (i j : ι) (k : κ) :
    (s.enqueue t i).queue (j, k) =
      if j = i ∧ k = s.cls t then s.queue (j, k) ++ [t] else s.queue (j, k) := by
  show Function.update s.queue (i, s.cls t) (s.queue (i, s.cls t) ++ [t]) (j, k) = _
  split
  · rename_i h
    rw [h.1, h.2, Function.update_self]
  · rename_i h
    apply Function.update_of_ne
    intro hpair
    exact h ⟨congrArg Prod.fst hpair, congrArg Prod.snd hpair⟩

/-- The queues after a runnable task has left its own. -/
theorem dequeue_queue (h : s.place t = .queued i) (j : ι) (k : κ) :
    (s.dequeue t).queue (j, k) =
      if j = i ∧ k = s.cls t then (s.queue (j, k)).erase t else s.queue (j, k) := by
  rw [dequeue_of_queued h]
  show Function.update s.queue (i, s.cls t) ((s.queue (i, s.cls t)).erase t) (j, k) = _
  split
  · rename_i h
    rw [h.1, h.2, Function.update_self]
  · rename_i h
    apply Function.update_of_ne
    intro hpair
    exact h ⟨congrArg Prod.fst hpair, congrArg Prod.snd hpair⟩

/-- A task that is filed under its class stays filed when it leaves its queue. -/
theorem Life.Filed.dequeue (hs : s.Filed) (t : τ) : (s.dequeue t).Filed := by
  by_cases hqueued : ∃ i, s.place t = .queued i
  · rcases hqueued with ⟨i, hi⟩
    have hmem : t ∈ s.queue (i, s.cls t) := (hs.mem_queue t i (s.cls t)).mpr ⟨hi, rfl⟩
    rw [dequeue_of_queued hi]
    constructor
    case mem_queue =>
      intro u j k
      dsimp only [QueueFamily.step]
      by_cases hut : u = t
      · subst hut
        rw [Function.update_self]
        refine iff_of_false ?_ (by simp)
        by_cases hjk : (j, k) = (i, s.cls u)
        · rw [hjk, Function.update_self]
          exact (hs.queue_nodup _).not_mem_erase
        · rw [Function.update_of_ne hjk, hs.mem_queue, hi]
          rintro ⟨hij, hk⟩
          cases hij
          exact hjk (by rw [hk])
      · rw [Function.update_of_ne hut, ← hs.mem_queue]
        by_cases hjk : (j, k) = (i, s.cls t)
        · rw [hjk, Function.update_self]
          exact List.mem_erase_of_ne hut
        · rw [Function.update_of_ne hjk]
    case queue_nodup =>
      intro x
      dsimp only [QueueFamily.step]
      by_cases hx : x = (i, s.cls t)
      · rw [hx, Function.update_self]
        exact (hs.queue_nodup _).erase t
      · rw [Function.update_of_ne hx]
        exact hs.queue_nodup x
    case mem_inbox =>
      intro u j
      by_cases hut : u = t
      · subst hut
        dsimp only
        rw [Function.update_self, hs.mem_inbox, hi]
        simp
      · dsimp only
        rw [Function.update_of_ne hut, hs.mem_inbox]
    case inbox_nodup => exact hs.inbox_nodup
  · rw [dequeue_of_not_queued fun i hi => hqueued ⟨i, hi⟩]
    exact hs

/-- So does one that joins a queue. -/
theorem Life.Filed.enqueue (hs : s.Filed) (h : ∀ j, s.place t ≠ .queued j) (i : ι) :
    (s.enqueue t i).Filed := by
  have hfree : ∀ j k, t ∉ s.queue (j, k) := by
    intro j k hmem
    exact h j ((hs.mem_queue t j k).mp hmem).1
  constructor
  case mem_queue =>
    intro u j k
    unfold Life.enqueue
    dsimp only
    rw [QueueFamily.mem_step_enqueue]
    by_cases hut : u = t
    · subst hut
      rw [Function.update_self]
      simp only [hfree, false_or, and_true, Prod.mk.injEq, Place.queued.injEq]
      constructor
      · rintro ⟨rfl, rfl⟩
        exact ⟨rfl, rfl⟩
      · rintro ⟨rfl, rfl⟩
        exact ⟨rfl, rfl⟩
    · rw [Function.update_of_ne hut, hs.mem_queue]
      simp [hut]
  case queue_nodup =>
    intro x
    unfold Life.enqueue
    dsimp only [QueueFamily.step]
    by_cases hx : x = (i, s.cls t)
    · rw [hx, Function.update_self]
      simpa using (hs.queue_nodup _).concat (hfree i (s.cls t))
    · rw [Function.update_of_ne hx]
      exact hs.queue_nodup x
  case mem_inbox =>
    intro u j
    unfold Life.enqueue
    dsimp only
    by_cases hut : u = t
    · subst hut
      rw [Function.update_self]
      exact iff_of_false (hs.inbox_nodup j).not_mem_erase (by simp)
    · rw [Function.update_of_ne hut, List.mem_erase_of_ne hut, hs.mem_inbox]
  case inbox_nodup =>
    intro j
    exact (hs.inbox_nodup j).erase t

omit [DecidableEq ι] [DecidableEq κ] in
/-- So does one that changes its class off the queues. -/
theorem Life.Filed.recast (hs : s.Filed) (h : ∀ j, s.place t ≠ .queued j) (k : κ) :
    (s.recast t k).Filed := by
  refine ⟨?_, hs.queue_nodup, hs.mem_inbox, hs.inbox_nodup⟩
  intro u j k'
  show u ∈ s.queue (j, k') ↔ s.place u = .queued j ∧ Function.update s.cls t k u = k'
  by_cases hut : u = t
  · subst hut
    rw [hs.mem_queue]
    exact iff_of_false (fun hu => h j hu.1) fun hu => h j hu.1
  · rw [Function.update_of_ne hut, hs.mem_queue]

/-! ## Events -/

/-- A task that has left its queue is on none. -/
theorem dequeue_place_ne_queued (s : Life ι τ κ) (t : τ) (j : ι) :
    (s.dequeue t).place t ≠ .queued j := by
  intro h
  by_cases hqueued : ∃ i, s.place t = .queued i
  · rcases hqueued with ⟨i, hi⟩
    rw [dequeue_place_self hi] at h
    cases h
  · rw [dequeue_of_not_queued fun i hi => hqueued ⟨i, hi⟩] at h
    exact hqueued ⟨j, h⟩

theorem block_filed (hs : s.Filed) (i : ι) : (s.block i).Filed := by
  unfold Life.block
  split
  · exact hs.dequeue _
  · exact hs

/-- Every legal event keeps the tasks filed. -/
theorem Life.Filed.step (hs : s.Filed) (he : s.Legal e) : (s.step e).Filed := by
  cases e with
  | post t i =>
      have hasleep : s.place t = .asleep := he
      constructor
      case mem_queue =>
        intro u j k
        show u ∈ s.queue (j, k) ↔
          Function.update s.place t (.pending i) u = .queued j ∧ s.cls u = k
        by_cases hut : u = t
        · subst hut
          rw [Function.update_self, hs.mem_queue, hasleep]
          simp
        · rw [Function.update_of_ne hut, hs.mem_queue]
      case queue_nodup => exact hs.queue_nodup
      case mem_inbox =>
        intro u j
        show u ∈ Function.update s.inbox i (s.inbox i ++ [t]) j ↔
          Function.update s.place t (.pending i) u = .pending j
        by_cases hut : u = t
        · subst hut
          rw [Function.update_self, Place.pending.injEq]
          by_cases hji : j = i
          · subst hji
            rw [Function.update_self]
            simp
          · rw [Function.update_of_ne hji, hs.mem_inbox, hasleep]
            simp [Ne.symm hji]
        · rw [Function.update_of_ne hut, ← hs.mem_inbox]
          by_cases hji : j = i
          · subst hji
            rw [Function.update_self]
            simp [hut]
          · rw [Function.update_of_ne hji]
      case inbox_nodup =>
        intro j
        show (Function.update s.inbox i (s.inbox i ++ [t]) j).Nodup
        by_cases hji : j = i
        · subst hji
          have hnew : t ∉ s.inbox j := by
            rw [hs.mem_inbox, hasleep]
            simp
          rw [Function.update_self]
          simpa using (hs.inbox_nodup j).concat hnew
        · rw [Function.update_of_ne hji]
          exact hs.inbox_nodup j
  | activate t i =>
      apply hs.enqueue
      intro j hj
      rcases he with he | he
      · rw [he] at hj
        cases hj
      · rw [he] at hj
        cases hj
  | switch i blocks next =>
      have hblock : (if blocks then s.block i else s).Filed := by
        split
        · exact block_filed hs i
        · exact hs
      exact ⟨hblock.mem_queue, hblock.queue_nodup, hblock.mem_inbox, hblock.inbox_nodup⟩
  | requeue t k =>
      unfold Life.step
      dsimp only
      split
      · rename_i i hi
        apply Life.Filed.enqueue
        · exact (hs.dequeue t).recast (dequeue_place_ne_queued s t) k
        · exact dequeue_place_ne_queued s t
      · rename_i hnot
        exact hs.recast (fun j hj => hnot j hj) k
  | move t i => exact (hs.dequeue t).enqueue (dequeue_place_ne_queued s t) i

/-- After the task a processor runs has gone to sleep, the other processors still run
runnable tasks. -/
theorem block_place_of_ne (s : Life ι τ κ) (i : ι) (h : s.curr i ≠ some t) :
    (s.block i).place t = s.place t := by
  unfold Life.block
  split
  · rename_i u hu
    apply dequeue_place_of_ne
    intro htu
    exact h (htu ▸ hu)
  · rfl

@[simp]
theorem block_curr (s : Life ι τ κ) (i : ι) : (s.block i).curr = s.curr := by
  unfold Life.block
  split
  · exact dequeue_curr _ _
  · rfl

omit [DecidableEq ι] [DecidableEq τ] [DecidableEq κ] in
/-- No task runs on two processors. -/
theorem Life.Sound.curr_unique (hs : s.Sound) {j : ι} (hi : s.curr i = some t)
    (hj : s.curr j = some t) : i = j := by
  have hplace := hs.curr i t hi
  rw [hs.curr j t hj] at hplace
  cases hplace
  rfl

/-- A task that is put back into a queue of its processor is runnable there. -/
theorem requeue_place (s : Life ι τ κ) (t u : τ) (k : κ) :
    (s.step (.requeue t k)).place u = s.place u := by
  unfold Life.step
  dsimp only
  split
  · rename_i i hi
    by_cases hut : u = t
    · subst hut
      rw [hi]
      exact Function.update_self _ _ _
    · exact (Function.update_of_ne hut _ _).trans (dequeue_place_of_ne s hut)
  · rfl

/-- A task that is not on its way is taken from no inbox. -/
theorem Life.Filed.enqueue_inbox (hs : s.Filed) (h : ∀ j, s.place t ≠ .pending j) (i : ι) :
    (s.enqueue t i).inbox = s.inbox := by
  ext1 j
  apply List.erase_of_not_mem
  rw [hs.mem_inbox]
  exact h j

/-- A task that has left its queue is not on its way, unless it was. -/
theorem dequeue_place_ne_pending (h : ∀ j, s.place t ≠ .pending j) (j : ι) :
    (s.dequeue t).place t ≠ .pending j := by
  by_cases hqueued : ∃ i, s.place t = .queued i
  · rcases hqueued with ⟨i, hi⟩
    rw [dequeue_place_self hi]
    simp
  · rw [dequeue_of_not_queued fun i hi => hqueued ⟨i, hi⟩]
    exact h j

/-- It is not taken from the inboxes either. -/
theorem Life.Filed.requeue_inbox (hs : s.Filed) (t : τ) (k : κ) :
    (s.step (.requeue t k)).inbox = s.inbox := by
  unfold Life.step
  dsimp only
  split
  · rename_i i hi
    have hfiled : ((s.dequeue t).recast t k).Filed :=
      (hs.dequeue t).recast (dequeue_place_ne_queued s t) k
    rw [hfiled.enqueue_inbox]
    · exact dequeue_inbox s t
    · exact dequeue_place_ne_pending fun j hj => by
        rw [hi] at hj
        cases hj
  · rfl

/-- Nor is one that moves. -/
theorem Life.Filed.move_inbox (hs : s.Filed) (h : ∀ j, s.place t ≠ .pending j) (i : ι) :
    (s.step (.move t i)).inbox = s.inbox :=
  ((hs.dequeue t).enqueue_inbox (dequeue_place_ne_pending h) i).trans (dequeue_inbox s t)

/-- A task that changes its class while it is not runnable. -/
theorem step_requeue_of_not_queued (h : ∀ i, s.place t ≠ .queued i) (k : κ) :
    s.step (.requeue t k) = s.recast t k := by
  unfold Life.step
  dsimp only
  split
  · rename_i i hi
    exact (h i hi).elim
  · rfl

/-- Every legal event keeps the invariant. -/
theorem Life.Sound.step (hs : s.Sound) (he : s.Legal e) : (s.step e).Sound := by
  refine ⟨hs.toFiled.step he, ?_⟩
  intro j u hcurr
  cases e with
  | post t i =>
      have hqueued := hs.curr j u hcurr
      refine (Function.update_of_ne ?_ _ _).trans hqueued
      rintro rfl
      have hasleep : s.place u = .asleep := he
      rw [hasleep] at hqueued
      cases hqueued
  | activate t i =>
      have hqueued := hs.curr j u hcurr
      refine (Function.update_of_ne ?_ _ _).trans hqueued
      rintro rfl
      rcases he with he | he
      · rw [he] at hqueued
        cases hqueued
      · rw [he] at hqueued
        cases hqueued
  | switch i blocks next =>
      have hcurr' : Function.update s.curr i next j = some u := by
        refine Eq.trans ?_ hcurr
        show _ = Function.update (if blocks then s.block i else s).curr i next j
        split
        · rw [block_curr]
        · rfl
      have hother : s.curr i ≠ some u ∨ blocks = false → s.place u = .queued j →
          ((if blocks then s.block i else s).place u) = .queued j := by
        intro hstays hplace
        split
        · rename_i hblocks
          rw [block_place_of_ne s i (hstays.resolve_right (by simp [hblocks])), hplace]
        · exact hplace
      by_cases hji : j = i
      · subst hji
        rw [Function.update_self] at hcurr'
        have hnext := he u hcurr'
        apply hother _ hnext.1
        cases blocks with
        | true => exact Or.inl (hnext.2 rfl)
        | false => exact Or.inr rfl
      · rw [Function.update_of_ne hji] at hcurr'
        apply hother _ (hs.curr j u hcurr')
        exact Or.inl fun hi => hji (hs.curr_unique hcurr' hi)
  | requeue t k =>
      rw [requeue_place]
      apply hs.curr j u
      rw [← hcurr]
      unfold Life.step
      dsimp only
      split
      · exact congrFun (dequeue_curr s t).symm j
      · rfl
  | move t i =>
      have hcurr' : s.curr j = some u := by
        rw [← hcurr]
        exact congrFun (dequeue_curr s t).symm j
      have hut : u ≠ t := by
        rintro rfl
        exact he.2 j hcurr'
      refine (Function.update_of_ne hut _ _).trans ?_
      rw [dequeue_place_of_ne s hut]
      exact hs.curr j u hcurr'

/-- So does every run of legal events. -/
theorem Life.Sound.run (hs : s.Sound) {es : List (Event ι τ κ)}
    (hes : Run.Guarded Life.step Life.Legal s es) : (es.foldl Life.step s).Sound :=
  Run.foldl_invariant (fun _ _ hs he => hs.step he) hs hes

/-! ## Overtaking -/

/-- The tasks in front of a runnable task. -/
def Life.ahead (s : Life ι τ κ) (t : τ) : List τ :=
  match s.place t with
  | .queued i => QueueFamily.ahead s.queue (i, s.cls t) t
  | _ => []

/-- The event takes the task off its queue. -/
def Life.Removes (s : Life ι τ κ) (t : τ) : Event ι τ κ → Prop
  | .post _ _ => False
  | .activate _ _ => False
  | .switch i blocks _ => blocks = true ∧ s.curr i = some t
  | .requeue u _ => u = t
  | .move u _ => u = t

/-- The task is where it was in the queue, or further in front. -/
structure Advances (t : τ) (s s' : Life ι τ κ) : Prop where
  place : s'.place t = s.place t
  cls : s'.cls t = s.cls t
  ahead : (s'.ahead t).Sublist (s.ahead t)

omit [DecidableEq ι] [DecidableEq κ] in
theorem Advances.refl (t : τ) (s : Life ι τ κ) : Advances t s s :=
  ⟨rfl, rfl, List.Sublist.refl _⟩

omit [DecidableEq ι] [DecidableEq κ] in
theorem Advances.trans {s s' s'' : Life ι τ κ} (h : Advances t s s')
    (h' : Advances t s' s'') : Advances t s s'' :=
  ⟨h'.place.trans h.place, h'.cls.trans h.cls, h'.ahead.trans h.ahead⟩

/-- A queue event that does not concern the task lets it advance. -/
theorem Life.Filed.advances_queueEvent (hs : s.Filed) (ht : s.place t = .queued i)
    {s' : Life ι τ κ} {x : QueueFamily.Event (ι × κ) τ} (hx : ¬x.Concerns t)
    (hqueue : s'.queue = QueueFamily.step s.queue x) (hplace : s'.place t = s.place t)
    (hcls : s'.cls t = s.cls t) : Advances t s s' := by
  refine ⟨hplace, hcls, ?_⟩
  unfold Life.ahead
  rw [hplace, ht, hcls, hqueue]
  exact (QueueFamily.ahead_step hx ((hs.mem_queue t i (s.cls t)).mpr ⟨ht, rfl⟩)).2

/-- Another task that leaves its queue. -/
theorem Life.Filed.advances_dequeue (hs : s.Filed) (ht : s.place t = .queued i)
    (hut : u ≠ t) : Advances t s (s.dequeue u) := by
  by_cases hqueued : ∃ j, s.place u = .queued j
  · rcases hqueued with ⟨j, hj⟩
    refine hs.advances_queueEvent ht (x := .dequeue (j, s.cls u) u) hut ?_ ?_ ?_
    · rw [dequeue_of_queued hj]
    · exact dequeue_place_of_ne s (Ne.symm hut)
    · rw [dequeue_cls]
  · rw [dequeue_of_not_queued fun j hj => hqueued ⟨j, hj⟩]
    exact .refl t s

/-- Another task that joins a queue. -/
theorem Life.Filed.advances_enqueue (hs : s.Filed) (ht : s.place t = .queued i)
    (hut : u ≠ t) (j : ι) : Advances t s (s.enqueue u j) :=
  hs.advances_queueEvent ht (x := .enqueue (j, s.cls u) u) hut rfl
    (Function.update_of_ne (Ne.symm hut) _ _) rfl

omit [DecidableEq ι] [DecidableEq κ] in
/-- Another task that changes its class. -/
theorem advances_recast (s : Life ι τ κ) (hut : u ≠ t) (k : κ) :
    Advances t s (s.recast u k) := by
  have hcls : (s.recast u k).cls t = s.cls t := Function.update_of_ne (Ne.symm hut) _ _
  refine ⟨rfl, hcls, ?_⟩
  unfold Life.ahead
  rw [hcls]
  exact List.Sublist.refl _

/-- Nobody overtakes a runnable task that no event takes off its queue: it stays where it
is, and after every legal event the tasks in front of it are some of those that were. -/
theorem Life.Sound.ahead_step (hs : s.Sound) (he : s.Legal e) (ht : s.place t = .queued i)
    (hstays : ¬s.Removes t e) : Advances t s (s.step e) := by
  cases e with
  | post u j =>
      have hasleep : s.place u = .asleep := he
      have htu : t ≠ u := by
        rintro rfl
        rw [hasleep] at ht
        cases ht
      exact hs.advances_queueEvent ht (x := .other) (fun h => h) rfl
        (Function.update_of_ne htu _ _) rfl
  | activate u j =>
      refine hs.advances_enqueue ht ?_ j
      rintro rfl
      rcases he with he | he
      · rw [he] at ht
        cases ht
      · rw [he] at ht
        cases ht
  | switch j blocks next =>
      have hblock : Advances t s (if blocks then s.block j else s) := by
        split
        · rename_i hblocks
          unfold Life.block
          split
          · rename_i u hu
            refine hs.advances_dequeue ht ?_
            rintro rfl
            exact hstays ⟨hblocks, hu⟩
          · exact .refl t s
        · exact .refl t s
      exact ⟨hblock.place, hblock.cls, hblock.ahead⟩
  | requeue u k =>
      have hut : u ≠ t := hstays
      have hcast : Advances t s ((s.dequeue u).recast u k) :=
        (hs.advances_dequeue ht hut).trans (advances_recast _ hut k)
      unfold Life.step
      dsimp only
      split
      · rename_i j _
        have hfiled : ((s.dequeue u).recast u k).Filed :=
          (hs.dequeue u).recast (dequeue_place_ne_queued s u) k
        exact hcast.trans (hfiled.advances_enqueue (hcast.place.trans ht) hut j)
      · exact advances_recast s hut k
  | move u j =>
      have hut : u ≠ t := hstays
      have hleft := hs.advances_dequeue ht hut
      exact hleft.trans ((hs.dequeue u).advances_enqueue (hleft.place.trans ht) hut j)

end QueueLife
end YatCasched
