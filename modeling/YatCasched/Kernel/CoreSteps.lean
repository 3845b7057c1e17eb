import YatCasched.Kernel.LifeCycle
import YatCasched.Kernel.PolicyClass

/-!
# What the core scheduler does to a life cycle

Each function of {lit}`core.c` that moves tasks is matched by events on the life cycle.

Main results:

- Theorem {lit}`Refines.scheduleLocked`: a reschedule is a switch, after which the previous task
  may be queued again.
-/

namespace YatCasched
namespace Kernel

open CircularList QueueLife

variable {n : Nat} {k k' : System n} {w : Fin n → List Pid} {s : TaskLife n} {p : Pid}
  {c : Fin n}

/-! ## Matching by events -/

/-- Which events a function may match. -/
structure Footprint (n : Nat) where
  /-- The task that is woken up. -/
  wakes : Option Pid := none
  /-- The CPU whose wake list is emptied. -/
  flushes : Option (Fin n) := none
  /-- The CPU that switches to another task. -/
  switches : Option (Fin n) := none
  /-- It switches to a task of its queues, not only to the stopper. -/
  picks : Bool := false
  /-- The running task that goes to sleep. -/
  blocks : Option Pid := none
  /-- The task that is taken off its queue and queued again. -/
  touches : Option Pid := none

/-- The event is in the footprint.  No task is moved to the cache-aware class. -/
def Footprint.Allows (F : Footprint n) (s : TaskLife n) :
    Event (Fin n) Pid SchedClass → Prop
  | .post t _ => F.wakes = some t
  | .activate t i => F.wakes = some t ∨ F.flushes = some i
  | .switch i blocks next =>
      F.switches = some i ∧ (blocks = true → ∀ t, s.curr i = some t → F.blocks = some t) ∧
        (next = none ∨ F.picks = true)
  | .requeue t cls => F.touches = some t ∧ (cls = s.cls t ∨ cls ≠ .yatCasched)
  | .move t _ => F.touches = some t

/-- A legal event in the footprint. -/
def Footprint.Legal (F : Footprint n) (s : TaskLife n) (e : Event (Fin n) Pid SchedClass) :
    Prop :=
  s.Legal e ∧ F.Allows s e

/-- Legal events in the footprint lead from the life cycle to one that the machine
refines. -/
def Follows (F : Footprint n) (s : TaskLife n) (m : Machine n) : Prop :=
  ∃ es, Run.Guarded Life.step F.Legal s es ∧ Refines m (es.foldl Life.step s)

variable {F : Footprint n} {m m' : Machine n}

theorem Follows.refined (h : Follows F s m) : ∃ s', Refines m s' := by
  rcases h with ⟨es, _, h⟩
  exact ⟨_, h⟩

theorem Follows.stay (h : Refines m s) : Follows F s m :=
  ⟨[], Run.guarded_nil _ _, h⟩

theorem Follows.event {e : Event (Fin n) Pid SchedClass} (hallows : F.Allows s e)
    (hlegal : s.Legal e) (h : Refines m (s.step e)) : Follows F s m :=
  ⟨[e], ⟨⟨hlegal, hallows⟩, trivial⟩, h⟩

theorem Follows.trans (h : Follows F s m) (h' : ∀ s', Refines m s' → Follows F s' m') :
    Follows F s m' := by
  rcases h with ⟨es, hlegal, hrefines⟩
  rcases h' _ hrefines with ⟨es', hlegal', hrefines'⟩
  refine ⟨es ++ es', Run.guarded_append.mpr ⟨hlegal, hlegal'⟩, ?_⟩
  rw [List.foldl_append]
  exact hrefines'

/-- A step that is not seen. -/
theorem Follows.congr (h : Follows F s ⟨k, w⟩) (hsame : SameLife k k') :
    Follows F s ⟨k', w⟩ :=
  h.trans fun _ hs => .stay (hs.congr hsame)

/-! ## Affinity -/

/-- Storing a mask requeues the task. -/
theorem Refines.doSetCpusAllowed (h : Refines ⟨k, w⟩ s) (p : Pid) (ctx : AffinityContext n) :
    Refines ⟨doSetCpusAllowed k p ctx, w⟩ (s.step (.requeue p (s.cls p))) := by
  apply h.requeue
  intro k' honly
  have hcls : (k'.task p).schedClass = s.cls p := h.queues.cls_of_onlyAccounting honly p
  unfold setCpusAllowed
  split
  · refine ⟨id, ?_, ?_⟩
    · simp [System.updateTask]
    · rw [← hcls]
      rfl
  · unfold setCpusAllowedCommon
    split
    · refine ⟨_, rfl, ?_⟩
      rw [← hcls]
      rfl
    · refine ⟨_, rfl, ?_⟩
      rw [← hcls]
      rfl

/-! ## Picking -/

/-- The classes pick from their queues. -/
structure PicksMembers (picks : ClassPicks) : Prop where
  rt_mem : ∀ l p, picks.pickNextTaskRt l = some p → p ∈ l
  class_mem : ∀ l p, picks.classPickFair l = some p → p ∈ l

variable {picks : ClassPicks}

/-- A state that a walk leaves, and the task it picks on a CPU. -/
structure PickedOn (k : System n) (s : TaskLife n) (c : Fin n) (r : System n × Option NextTask) :
    Prop where
  queues : QueuesAre r.1 s
  accounting : OnlyAccounting k r.1
  picked : ∀ p, r.2 = some (.task p) → s.place p = .queued c

/-- The class picks its first task, and records the CPU. -/
theorem QueuesAre.pickNextTaskYatCasched (h : QueuesAre k s) (hs : s.Filed) (c : Fin n) :
    PickedOn k s c
      ((pickNextTaskYatCasched k c).1, (pickNextTaskYatCasched k c).2.map .task) := by
  have hfirst : ∀ p, firstTask k c = some p → s.place p = .queued c := by
    intro p hp
    rw [h.yatQueue.firstTask_eq] at hp
    exact ((hs.mem_queue p c .yatCasched).mp (List.mem_of_mem_head? hp)).1
  refine ⟨?_, onlyAccounting_pickNextTask k c, ?_⟩
  · unfold Kernel.pickNextTaskYatCasched
    split
    · exact h
    · rename_i p hp
      dsimp only
      refine QueuesAre.updateTask (h.congr (.updateRq k c ?_)) ?_ ?_
      · exact fun _ => rfl
      · rfl
      intro d hd _
      rw [hfirst p hp] at hd
      cases hd
      exact Or.inr rfl
  · intro p hp
    apply hfirst
    rw [pickNextTaskYatCasched_snd] at hp
    cases hpick : firstTask k c with
    | none =>
        rw [hpick] at hp
        cases hp
    | some q =>
        rw [hpick] at hp
        cases hp
        rfl

/-- Each class picks a task that is runnable on the CPU. -/
theorem QueuesAre.classPickNextTask (h : QueuesAre k s) (hs : s.Filed)
    (hpicks : PicksMembers picks) (c : Fin n) (cls : SchedClass) :
    PickedOn k s c (classPickNextTask picks c k cls) := by
  cases cls with
  | rt =>
      refine ⟨h, .refl k, ?_⟩
      intro p hp
      rcases Option.map_eq_some_iff.mp hp with ⟨q, hq, heq⟩
      cases heq
      have hmem := hpicks.rt_mem _ _ hq
      rw [show (k.rq c).rtQueue = _ from h.queue c .rt (Or.inl rfl)] at hmem
      exact ((hs.mem_queue p c .rt).mp hmem).1
  | fair =>
      refine ⟨h, .refl k, ?_⟩
      intro p hp
      rcases Option.map_eq_some_iff.mp hp with ⟨q, hq, heq⟩
      cases heq
      have hmem := hpicks.class_mem _ _ hq
      rw [show (k.rq c).fairQueue = _ from h.queue c .fair (Or.inr rfl)] at hmem
      exact ((hs.mem_queue p c .fair).mp hmem).1
  | yatCasched => exact h.pickNextTaskYatCasched hs c
  | stop => exact ⟨h, .refl k, fun p hp => by cases hp⟩
  | dl => exact ⟨h, .refl k, fun p hp => by cases hp⟩
  | idle => exact ⟨h, .refl k, fun p hp => by cases hp⟩

/-- So does the walk. -/
theorem QueuesAre.classWalk (h : QueuesAre k s) (hs : s.Filed) (hpicks : PicksMembers picks)
    (c : Fin n) (classes : List SchedClass) :
    PickedOn k s c (classWalk picks c classes k) := by
  induction classes generalizing k with
  | nil => exact ⟨h, .refl k, fun p hp => by cases hp⟩
  | cons cls rest ih =>
      have hpick := h.classPickNextTask hs hpicks c cls
      unfold Kernel.classWalk
      split
      · rename_i k₁ next heq
        rw [heq] at hpick
        exact hpick
      · rename_i k₁ heq
        rw [heq] at hpick
        have hrest := ih hpick.queues
        exact ⟨hrest.queues, hpick.accounting.trans hrest.accounting, hrest.picked⟩

/-- So does the walk after the previous task has been put back. -/
theorem QueuesAre.restart (h : QueuesAre k s) (hs : s.Filed) (hpicks : PicksMembers picks)
    (c : Fin n) (prev : Option Pid) : PickedOn k s c (restart picks k c prev) := by
  have hwalk := (h.congr (.putPrevTask k c prev)).classWalk hs hpicks c forEachClass
  exact ⟨hwalk.queues, (onlyAccounting_putPrevTask k c prev).trans hwalk.accounting,
    hwalk.picked⟩

/-- So does the pick. -/
theorem QueuesAre.pickNextTask (h : QueuesAre k s) (hs : s.Filed)
    (hpicks : PicksMembers picks) (c : Fin n) (prev : Option Pid) :
    PickedOn k s c (pickNextTask picks k c prev) := by
  unfold Kernel.pickNextTask
  split
  · split
    · exact h.restart hs hpicks c prev
    · refine ⟨h.congr (.putPrevTask k c prev), onlyAccounting_putPrevTask k c prev, ?_⟩
      intro p hp
      cases hp
    · rename_i q hq
      refine ⟨h, .refl k, ?_⟩
      intro p hp
      cases hp
      have hmem := hpicks.class_mem _ _ (picks.same_task _ _ _ hq)
      rw [show (k.rq c).fairQueue = _ from h.queue c .fair (Or.inr rfl)] at hmem
      exact ((hs.mem_queue q c .fair).mp hmem).1
  · exact h.restart hs hpicks c prev

/-! ## Switching -/

/-- The previous task goes to sleep. -/
def blocksPrevious (k : System n) (c : Fin n) (preempt signalPending : Bool) : Bool :=
  match (k.rq c).curr with
  | none => false
  | some prev => !preempt && (k.task prev).state ≠ .running && !signalPending

/-- A task that does not run any more is dequeued, one that has a signal goes on. -/
theorem Refines.blockPrevious (h : Refines ⟨k, w⟩ s) (c : Fin n)
    (preempt signalPending : Bool) :
    QueuesAre (blockPrevious k c preempt signalPending)
        (if blocksPrevious k c preempt signalPending then s.block c else s) ∧
      PlacesAre (blockPrevious k c preempt signalPending)
        (if blocksPrevious k c preempt signalPending then s.block c else s) := by
  cases hcurr : (k.rq c).curr with
  | none =>
      have hstays : blocksPrevious k c preempt signalPending = false := by
        simp [blocksPrevious, hcurr]
      have hsame : Kernel.blockPrevious k c preempt signalPending = k := by
        simp [Kernel.blockPrevious, hcurr]
      rw [hstays, hsame]
      exact ⟨h.queues, h.places⟩
  | some prev =>
      have hplace : s.place prev = .queued c :=
        h.sound.curr c prev ((h.queues.curr c).symm.trans hcurr)
      by_cases hruns : (!preempt && decide ((k.task prev).state ≠ .running)) = true
      · cases signalPending with
        | true =>
            have hstays : blocksPrevious k c preempt true = false := by
              simp [blocksPrevious, hcurr]
            have hset : Kernel.blockPrevious k c preempt true =
                k.updateTask prev fun t => { t with state := .running } := by
              simp only [Kernel.blockPrevious, hcurr, hruns, if_true]
            have hrefines := h.setState (p := prev) (fun d hd => by
              rw [hplace] at hd
              cases hd) .running
            rw [hstays, hset]
            exact ⟨hrefines.queues, hrefines.places⟩
        | false =>
            have hblocks : blocksPrevious k c preempt false = true := by
              simp only [blocksPrevious, hcurr]
              rw [hruns]
              rfl
            have hoff : Kernel.blockPrevious k c preempt false = deactivateTask k c prev := by
              simp only [Kernel.blockPrevious, hcurr, hruns, if_true, Bool.false_eq_true, if_false]
            have hblock : s.block c = s.dequeue prev := by
              unfold Life.block
              rw [← h.queues.curr c, hcurr]
            rw [hblocks, hoff, if_pos rfl, hblock]
            constructor
            · exact QueuesAre.dequeueTask (h.queues.updateTask_of_same rfl rfl)
                h.sound.toFiled hplace
            · unfold deactivateTask
              apply h.places.move (p := prev)
              · intro q hqp
                rw [dequeueTask_task, System.updateTask_task_of_ne k hqp]
                exact ⟨dequeue_place_of_ne s hqp, rfl, rfl, rfl⟩
              · intro d
                rw [dequeueTask_task, System.updateTask_task_self, dequeue_place_self hplace]
                simp
              · intro d hd
                rw [dequeue_place_self hplace] at hd
                cases hd
      · have hstays : blocksPrevious k c preempt signalPending = false := by
          simp only [blocksPrevious, hcurr]
          rw [Bool.eq_false_iff.mpr hruns]
          rfl
        have hsame : Kernel.blockPrevious k c preempt signalPending = k := by
          simp only [Kernel.blockPrevious, hcurr, if_neg hruns]
        rw [hstays, hsame]
        exact ⟨h.queues, h.places⟩

theorem blockPrevious_migrationDisabled (k : System n) (c : Fin n)
    (preempt signalPending : Bool) (q : Pid) :
    ((blockPrevious k c preempt signalPending).task q).migrationDisabled =
      (k.task q).migrationDisabled := by
  unfold blockPrevious
  split
  · rfl
  · rename_i prev _
    split
    · split
      · exact System.updateTask_task_apply k prev q (fun t => t.migrationDisabled) fun _ => rfl
      · unfold deactivateTask
        rw [dequeueTask_task]
        exact System.updateTask_task_apply k prev q (fun t => t.migrationDisabled) fun _ => rfl
    · rfl

/-- A task that is picked after the previous one has gone to sleep is another one. -/
theorem legal_switch (s : TaskLife n) (blocks : Bool) {next : Option Pid}
    (hnext : ∀ p, next = some p → (if blocks then s.block c else s).place p = .queued c) :
    s.Legal (.switch c blocks next) := by
  intro p hp
  have hplace := hnext p hp
  cases blocks with
  | true =>
      rw [if_pos rfl] at hplace
      have hcurr : s.curr c ≠ some p := by
        intro hcurr
        unfold Life.block at hplace
        rw [hcurr] at hplace
        exact dequeue_place_ne_queued s p c hplace
      rw [block_place_of_ne s c hcurr] at hplace
      exact ⟨hplace, fun _ => hcurr⟩
  | false => exact ⟨hplace, fun hfalse => absurd hfalse Bool.false_ne_true⟩

/-- The switch to a task that has been picked. -/
theorem Refines.switchPicked (h : Refines ⟨k, w⟩ s) (blocks : Bool) {k₁ : System n}
    {r : System n × Option NextTask}
    (hplaces : PlacesAre k₁ (if blocks then s.block c else s))
    (hpick : PickedOn k₁ (if blocks then s.block c else s) c r) :
    s.Legal (.switch c blocks (NextTask.pid? r.2)) ∧
      Refines ⟨Kernel.contextSwitch r.1 c (NextTask.pid? r.2), w⟩
        (s.step (.switch c blocks (NextTask.pid? r.2))) := by
  have hlegal : s.Legal (.switch c blocks (NextTask.pid? r.2)) := by
    apply legal_switch s
    intro p hp
    apply hpick.picked
    unfold NextTask.pid? at hp
    split at hp
    · rename_i q hq
      cases hp
      exact hq
    · cases hp
  refine ⟨hlegal, ?_⟩
  constructor
  case sound => exact h.sound.step hlegal
  case queues => exact hpick.queues.contextSwitch c _
  case places => exact hplaces.congr rfl fun q => hpick.accounting.samePlace q
  case inbox =>
    refine Eq.trans ?_ h.inbox
    show (if blocks then s.block c else s).inbox = s.inbox
    split
    · unfold Life.block
      split
      · exact dequeue_inbox s _
      · rfl
    · rfl

/-- The switch of a reschedule. -/
theorem Refines.scheduleSwitch (h : Refines ⟨k, w⟩ s) (hpicks : PicksMembers picks) (c : Fin n)
    (preempt signalPending : Bool) {blocks : Bool} {r : System n × Option NextTask}
    (hblocks : blocksPrevious k c preempt signalPending = blocks)
    (hr : Kernel.pickNextTask picks (Kernel.blockPrevious k c preempt signalPending) c
      (k.rq c).curr = r) :
    s.Legal (.switch c blocks (NextTask.pid? r.2)) ∧
      Refines ⟨Kernel.contextSwitch r.1 c (NextTask.pid? r.2), w⟩
        (s.step (.switch c blocks (NextTask.pid? r.2))) ∧
      ∀ q, (r.1.task q).migrationDisabled = (k.task q).migrationDisabled := by
  have hblock := h.blockPrevious c preempt signalPending
  rw [hblocks] at hblock
  have hfiled : (if blocks then s.block c else s).Filed := by
    split
    · exact block_filed h.sound.toFiled c
    · exact h.sound.toFiled
  have hpick := hblock.1.pickNextTask hfiled hpicks c (k.rq c).curr
  rw [hr] at hpick
  have hswitch := h.switchPicked blocks hblock.2 hpick
  have hdisabled : ∀ q, (r.1.task q).migrationDisabled = (k.task q).migrationDisabled :=
    fun q => (hpick.accounting.apply q (fun t => t.migrationDisabled) fun _ _ _ => rfl).trans
      (blockPrevious_migrationDisabled k c preempt signalPending q)
  exact ⟨hswitch.1, hswitch.2, hdisabled⟩

/-- The previous task is pinned, if migration is disabled for it. -/
theorem Refines.switchFrom (h : Refines ⟨k, w⟩ s) (c : Fin n) (prev next : Option Pid)
    (hF : ∀ p, prev = some p → isMigrationDisabled k p = true → F.touches = some p) :
    Follows F s ⟨switchFrom k c prev next, w⟩ := by
  unfold Kernel.switchFrom
  split
  · exact .stay h
  · rename_i p
    split
    · exact .stay h
    · unfold migrateDisableSwitch
      split
      · exact .stay h
      · rename_i hdisabled
        split
        · exact .stay h
        · have htouches := hF p rfl (by simpa using hdisabled)
          exact .event (e := .requeue p (s.cls p)) ⟨htouches, Or.inl rfl⟩ trivial
            (h.doSetCpusAllowed p _)

/-- A reschedule. -/
theorem Refines.scheduleLocked (h : Refines ⟨k, w⟩ s) (hpicks : PicksMembers picks)
    (c : Fin n) (now : UInt64) (preempt signalPending : Bool)
    (hswitches : F.switches = some c) (hF : F.picks = true)
    (hblocks : blocksPrevious k c preempt signalPending = true → F.blocks = (k.rq c).curr)
    (htouches : ∀ p, (k.rq c).curr = some p → isMigrationDisabled k p = true →
      F.touches = some p) :
    Follows F s ⟨scheduleLocked picks k c now preempt signalPending, w⟩ := by
  have hcurr : ((updateRqClock k c now).rq c).curr = (k.rq c).curr :=
    congrArg LifeRq.curr ((SameLife.updateRqClock k c now).rq c)
  have hsame : blocksPrevious (updateRqClock k c now) c preempt signalPending =
      blocksPrevious k c preempt signalPending := by
    unfold blocksPrevious
    rw [hcurr]
    rfl
  have hswitch := (h.congr (.updateRqClock k c now)).scheduleSwitch hpicks c preempt
    signalPending hsame rfl
  rw [hcurr] at hswitch
  refine Follows.trans (.event (F := F)
    (e := .switch c (blocksPrevious k c preempt signalPending) _)
    ⟨hswitches, fun hb t ht => (hblocks hb).trans ((h.queues.curr c).trans ht), Or.inr hF⟩
    hswitch.1 hswitch.2.1) ?_
  intro s' hs'
  apply hs'.switchFrom c
  intro p hp hdisabled
  apply htouches p hp
  unfold isMigrationDisabled at hdisabled ⊢
  rw [contextSwitch_task, hswitch.2.2 p] at hdisabled
  exact hdisabled

/-! ## Wakeups -/

/-- A task that is activated is running. -/
theorem Refines.ttwuDoActivate (h : Refines ⟨k, w⟩ s) (hcpu : (k.task p).cpu = c)
    (hp : s.Legal (.activate p c)) :
    Refines ⟨ttwuDoActivate k c p, fun d => (w d).erase p⟩ (s.step (.activate p c)) := by
  have hactive := (h.activateTask hcpu hp).congr (.wakeupPreempt _ c p)
  apply hactive.setState
  intro d hd
  have hplace : (s.step (.activate p c)).place p = .queued c := Function.update_self _ _ _
  rw [hplace] at hd
  cases hd

/-- The wake list of a CPU is emptied. -/
theorem Refines.foldl_ttwuPendingRound (h : Refines ⟨k, w⟩ s) (hF : F.flushes = some c)
    {l : List Pid} (hl : w c = l) :
    Follows F s ⟨l.foldl (ttwuPendingRound c) k, Function.update w c []⟩ := by
  induction l generalizing k w s with
  | nil =>
      have hsame : Function.update w c [] = w := by
        rw [← hl, Function.update_eq_self]
      rw [hsame]
      exact .stay h
  | cons p l ih =>
      have hinbox : p ∈ s.inbox c := by
        rw [show s.inbox = w from h.inbox, hl]
        exact List.mem_cons_self
      have hplace := (h.sound.mem_inbox p c).mp hinbox
      have hcpu := (h.places.pending p c hplace).2
      have hround : ttwuPendingRound c k p = Kernel.ttwuDoActivate k c p := by
        unfold ttwuPendingRound
        rw [if_neg (not_not.mpr hcpu)]
      have hother : ∀ d, d ≠ c → (w d).erase p = w d := by
        intro d hdc
        apply List.erase_of_not_mem
        intro hmem
        rw [show w d = s.inbox d from congrFun h.inbox.symm d] at hmem
        have hplace' := (h.sound.mem_inbox p d).mp hmem
        rw [hplace] at hplace'
        cases hplace'
        exact hdc rfl
      have hself : (w c).erase p = l := by
        rw [hl, List.erase_cons_head]
      have hrest : Function.update (fun d => (w d).erase p) c [] = Function.update w c [] := by
        ext1 d
        by_cases hdc : d = c
        · subst hdc
          rw [Function.update_self, Function.update_self]
        · rw [Function.update_of_ne hdc, Function.update_of_ne hdc, hother d hdc]
      rw [List.foldl_cons, hround, ← hrest]
      have hlegal : s.Legal (.activate p c) := Or.inr hplace
      refine Follows.trans (.event (F := F) (e := .activate p c) (Or.inr hF) hlegal
        (h.ttwuDoActivate hcpu hlegal)) ?_
      intro s' hs'
      exact ih hs' hself

/-- The wake list of a CPU is emptied by the CPU itself. -/
theorem Refines.schedTtwuPending (h : Refines m s) (hF : F.flushes = some c) (now : UInt64) :
    Follows F s (schedTtwuPending m c now) :=
  (h.congr (.updateRqClock m.kernel c now)).foldl_ttwuPendingRound hF rfl

/-- The search for a fallback keeps what storing a mask keeps. -/
theorem fallbackLoop_keeps {env : FallbackEnv n} {P : System n → Prop}
    (hP : ∀ k mask, P k → P (doSetCpusAllowedUser k p mask)) {rounds : Nat}
    {state : FallbackState} (hk : P k)
    (hout : fallbackLoop env p rounds state k = some (.out c k')) : P k' := by
  induction rounds generalizing state k with
  | zero => cases hout
  | succ rounds ih =>
      unfold fallbackLoop at hout
      split at hout
      · rename_i result hround
        cases hout
        unfold fallbackRound at hround
        split at hround
        · cases hround
          exact hk
        · split at hround
          · split at hround
            · cases hround
            · cases hround
          · cases hround
          · cases hround
      · rename_i state' k₁ hround
        refine ih ?_ hout
        unfold fallbackRound at hround
        split at hround
        · cases hround
        · split at hround
          · split at hround
            · cases hround
              exact hP _ _ hk
            · cases hround
              exact hP _ _ hk
          · cases hround
            exact hP _ _ hk
          · cases hround

variable {env : WakeupEnv n}

theorem fallbackRq_keeps {P : System n → Prop}
    (hP : ∀ k mask, P k → P (doSetCpusAllowedUser k p mask)) (hk : P k)
    (hout : fallbackRq env k p = some (k', c)) : P k' := by
  unfold fallbackRq at hout
  split at hout
  · rename_i destCpu k₁ hselect
    cases hout
    unfold selectFallbackRq at hselect
    split at hselect
    · cases hselect
      exact hk
    · exact fallbackLoop_keeps hP hk hselect
  · cases hout
  · cases hout

/-- The choice of a CPU keeps what recording a CPU and storing a mask keep. -/
theorem selectTaskRq_keeps {P : System n → Prop}
    (hP : ∀ k mask, P k → P (doSetCpusAllowedUser k p mask))
    (hselect : ∀ k cpu, P k → P (selectTaskRqYatCasched k p cpu).1) (hk : P k) {cpu : Fin n}
    (hout : selectTaskRq env k p cpu = some (k', c)) : P k' := by
  have hpreferred : P (preferredCpu env k p cpu).1 := by
    unfold preferredCpu
    split
    · split
      · exact hselect k cpu hk
      · exact hk
    · exact hk
  unfold selectTaskRq at hout
  dsimp only at hout
  split at hout
  · split at hout
    · cases hout
      exact hpreferred
    · exact fallbackRq_keeps hP hpreferred hout
  · exact fallbackRq_keeps hP hpreferred hout

/-- Storing a mask for a sleeping task is not seen. -/
theorem Refines.doSetCpusAllowed_asleep (h : Refines ⟨k, w⟩ s) (hp : s.place p = .asleep)
    (ctx : AffinityContext n) : Refines ⟨Kernel.doSetCpusAllowed k p ctx, w⟩ s := by
  have hset := h.doSetCpusAllowed p ctx
  rw [step_requeue_of_not_queued (by simp [hp])] at hset
  unfold Life.recast at hset
  rwa [Function.update_eq_self] at hset

/-- Nor is recording a CPU. -/
theorem Refines.selectTaskRqYatCasched_asleep (h : Refines ⟨k, w⟩ s) (hp : s.place p = .asleep)
    (cpu : Fin n) : Refines ⟨(selectTaskRqYatCasched k p cpu).1, w⟩ s := by
  have honRq : (k.task p).onRq ≠ .queued := by
    intro honRq
    rw [h.place_queued honRq] at hp
    cases hp
  unfold selectTaskRqYatCasched
  dsimp only
  split
  · dsimp only
    refine h.updateTask_asleep hp ?_ ?_
    · rfl
    · exact honRq
  · split
    · split
      · exact h
      · exact h
    · exact h

/-- The choice of a CPU for a sleeping task is not seen. -/
theorem Refines.selectTaskRq_asleep (h : Refines ⟨k, w⟩ s) (hp : s.place p = .asleep)
    {cpu : Fin n} (hout : selectTaskRq env k p cpu = some (k', c)) : Refines ⟨k', w⟩ s :=
  selectTaskRq_keeps (P := fun k => Refines ⟨k, w⟩ s)
    (fun _ _ hk => hk.doSetCpusAllowed_asleep hp _)
    (fun _ cpu hk => hk.selectTaskRqYatCasched_asleep hp cpu) h hout

/-- The choice of a CPU leaves the task where it is. -/
theorem selectTaskRq_apply {β : Type*} {cpu : Fin n}
    (hout : selectTaskRq env k p cpu = some (k', c)) (g : TaskStruct n → β)
    (hmask : ∀ t mask nr user,
      g { t with cpusMask := mask, nrCpusAllowed := nr, userCpusPtr := user } = g t)
    (haccounting : ∀ t se yat, g { t with se := se, yatCasched := yat } = g t) :
    g (k'.task p) = g (k.task p) := by
  refine selectTaskRq_keeps (P := fun k' => g (k'.task p) = g (k.task p)) ?_ ?_ rfl hout
  · intro k₁ mask hk₁
    exact (doSetCpusAllowedUser_apply k₁ p mask g hmask haccounting).trans hk₁
  · intro k₁ cpu' hk₁
    refine Eq.trans ?_ hk₁
    unfold selectTaskRqYatCasched
    dsimp only
    split
    · dsimp only
      rw [System.updateTask_task_self]
      exact haccounting _ _ _
    · split
      · split
        · rfl
        · rfl
      · rfl

/-- A sleeping task is on no wake list. -/
theorem Refines.erase_wakeList (h : Refines ⟨k, w⟩ s) (hp : s.place p = .asleep) :
    (fun d => (w d).erase p) = w := by
  have hinbox : s.inbox = w := h.inbox
  rw [← hinbox]
  ext1 d
  apply List.erase_of_not_mem
  rw [h.sound.mem_inbox, hp]
  simp

/-- The rest of a wakeup, for a task that sleeps. -/
theorem Refines.wakeDequeued (h : Refines m s) (hp : s.place p = .asleep)
    (hF : F.wakes = some p) {thisCpu : Fin n} {onCpu : Bool} {now : UInt64}
    (hout : wakeDequeued env m p thisCpu onCpu now = some m') : Follows F s m' := by
  have honRq : (m.kernel.task p).onRq ≠ .queued := by
    intro honRq
    rw [h.place_queued honRq] at hp
    cases hp
  have hwaking : Refines ⟨m.kernel.updateTask p fun t => { t with state := .waking },
      m.wakeList⟩ s := by
    refine h.updateTask_asleep hp ?_ ?_
    · rfl
    · exact honRq
  have hstate : ((m.kernel.updateTask p fun t => { t with state := .waking }).task p).state =
      .waking := by
    rw [System.updateTask_task_self]
  unfold Kernel.wakeDequeued at hout
  dsimp only at hout
  generalize m.kernel.updateTask p (fun t => { t with state := .waking }) = k₁
    at hwaking hstate hout
  split at hout
  · cases hout
    exact .event (e := .post p _) hF hp (hwaking.post hp hstate rfl)
  · split at hout
    · cases hout
    · rename_i k₂ cpu hselect
      cases hout
      have hselected := hwaking.selectTaskRq_asleep hp hselect
      have hstate' : (k₂.task p).state = .waking :=
        (selectTaskRq_apply hselect (fun t => t.state) (fun _ _ _ _ => rfl)
          fun _ _ _ => rfl).trans hstate
      have honRq' : (k₂.task p).onRq ≠ .queued := by
        intro honRq'
        rw [hselected.place_queued honRq'] at hp
        cases hp
      -- the task has been placed on the CPU
      have hplaced : ∃ k₃, (if (k₂.task p).cpu ≠ cpu then setTaskCpu k₂ p cpu else k₂) = k₃ ∧
          Refines ⟨k₃, m.wakeList⟩ s ∧ (k₃.task p).state = .waking ∧ (k₃.task p).cpu = cpu := by
        refine ⟨_, rfl, ?_⟩
        split
        · refine ⟨hselected.updateTask_asleep hp ?_ ?_, ?_, ?_⟩
          · rfl
          · exact honRq'
          · exact (congrArg TaskStruct.state (System.updateTask_task_self k₂ p _)).trans hstate'
          · exact congrArg TaskStruct.cpu (System.updateTask_task_self k₂ p _)
        · rename_i hcpu
          exact ⟨hselected, hstate', not_not.mp hcpu⟩
      rcases hplaced with ⟨k₃, heq, hrefines, hstate₃, hcpu⟩
      rw [heq]
      unfold ttwuQueue
      split
      · exact .event (e := .post p cpu) hF hp (hrefines.post hp hstate₃ hcpu)
      · have hlegal : s.Legal (.activate p cpu) := Or.inl hp
        have hactive := (hrefines.congr (.updateRqClock k₃ cpu now)).ttwuDoActivate hcpu hlegal
        rw [h.erase_wakeList hp] at hactive
        exact .event (e := .activate p cpu) (Or.inl hF) hlegal hactive

/-- A wakeup. -/
theorem Refines.tryToWakeUp (h : Refines m s) (hF : F.wakes = some p) {thisCpu : Fin n}
    {inMask onCpu : Bool} {now : UInt64} {success : Bool}
    (hout : tryToWakeUp env m thisCpu p inMask onCpu now = some (m', success)) :
    Follows F s m' := by
  unfold Kernel.tryToWakeUp at hout
  dsimp only at hout
  split at hout
  · cases hout
    exact .stay h
  · rename_i hmatch
    have hsleeping := (not_not.mp hmatch).1
    have hpending := h.place_ne_pending (p := p) (by
      rw [hsleeping]
      simp)
    split at hout
    · cases hout
      exact .stay (h.setState hpending _)
    · split at hout
      · rename_i k₁ hrunnable
        cases hout
        unfold ttwuRunnable at hrunnable
        dsimp only at hrunnable
        split at hrunnable
        · cases hrunnable
          refine .stay (Refines.setState (h.congr ?_) hpending _)
          split
          · exact .refl _
          · exact .trans (.updateRqClock _ _ now) (.wakeupPreempt _ _ p)
        · cases hrunnable
      · rename_i hnone
        rcases Option.map_eq_some_iff.mp hout with ⟨m₁, hm₁, heq⟩
        cases heq
        have honRq : (m.kernel.task p).onRq ≠ .queued := by
          intro honRq
          unfold ttwuRunnable taskOnRqQueued at hnone
          rw [honRq] at hnone
          simp at hnone
        have hasleep := h.place_asleep honRq (by
          rw [hsleeping]
          simp)
        exact h.wakeDequeued hasleep hF hm₁

/-- The first wakeup of a new task. -/
theorem Refines.wakeUpNewTask (h : Refines ⟨k, w⟩ s) (hF : F.wakes = some p)
    (honRq : (k.task p).onRq ≠ .queued) (hstate : (k.task p).state ≠ .waking) {now : UInt64}
    (hout : wakeUpNewTask env k p now = some k') : Follows F s ⟨k', w⟩ := by
  have hp := h.place_asleep honRq hstate
  have hrunning : Refines ⟨k.updateTask p fun t => { t with state := .running }, w⟩ s := by
    refine h.updateTask_asleep hp ?_ ?_
    · rfl
    · exact honRq
  unfold Kernel.wakeUpNewTask at hout
  dsimp only at hout
  split at hout
  · cases hout
  · rename_i k₂ cpu hselect
    cases hout
    have hselected := hrunning.selectTaskRq_asleep hp hselect
    have honRq' : (k₂.task p).onRq ≠ .queued := by
      intro honRq'
      rw [hselected.place_queued honRq'] at hp
      cases hp
    have hplaced : Refines ⟨setTaskCpu k₂ p cpu, w⟩ s := by
      refine hselected.updateTask_asleep hp ?_ ?_
      · rfl
      · exact honRq'
    have hcpu : ((setTaskCpu k₂ p cpu).task p).cpu = cpu :=
      congrArg TaskStruct.cpu (System.updateTask_task_self k₂ p _)
    have hlegal : s.Legal (.activate p cpu) := Or.inl hp
    have hactive := ((hplaced.congr (.updateRqClock _ cpu now)).activateTask hcpu hlegal).congr
      (.wakeupPreempt _ cpu p)
    rw [h.erase_wakeList hp] at hactive
    exact .event (e := .activate p cpu) (Or.inl hF) hlegal hactive

/-! ## New tasks -/

/-- The list node of the child has been initialised and the child has been assigned to,
so that it is new and on no run queue. -/
def Forked (k : System n) (p : Pid) (k' : System n) : Prop :=
  ∃ f : TaskStruct n → TaskStruct n,
    k' = { k with links := initListHead k.links (.runList p) }.updateTask p f ∧
      ∀ t, (f t).onRq = .off ∧ (f t).state = .new

theorem Forked.updateTask (h : Forked k p k') {g : TaskStruct n → TaskStruct n}
    (hg : ∀ t, (g t).onRq = t.onRq ∧ (g t).state = t.state) :
    Forked k p (k'.updateTask p g) := by
  rcases h with ⟨f, rfl, hf⟩
  refine ⟨fun t => g (f t), updateTask_updateTask _ p f g, ?_⟩
  intro t
  rw [(hg (f t)).1, (hg (f t)).2]
  exact hf t

theorem resetOnFork_place (policies : PolicyPredicates) (t : TaskStruct n) :
    (resetOnFork policies t).onRq = t.onRq ∧ (resetOnFork policies t).state = t.state := by
  unfold resetOnFork
  dsimp only
  split_ifs
  all_goals exact ⟨rfl, rfl⟩

/-- What a fork does to the child. -/
theorem forked_schedFork (policies : PolicyPredicates) (k : System n) (current p : Pid) :
    Forked k p (schedFork policies k current p).2 := by
  have hcopy : Forked k p
      ((schedForkYatCasched (k.updateTask p fun _ => dupTaskStruct (k.task current) current p)
        p).updateTask p fun t =>
          { t with state := .new, prio := (k.task current).normalPrio }) := by
    have hlinks : ∀ g, schedForkYatCasched (k.updateTask p g) p =
        ({ k with links := initListHead k.links (.runList p) }.updateTask p g).updateTask p
          fun t =>
            { t with
              onRq := .off
              migrationPending := none
              se := { execStart := 0, sumExecRuntime := 0, prevSumExecRuntime := 0 }
              yatCasched := { vruntime := 0, slice := 0, lastCpu := -1 } } := fun _ => rfl
    rw [hlinks, updateTask_updateTask, updateTask_updateTask]
    exact ⟨_, rfl, fun _ => ⟨rfl, rfl⟩⟩
  unfold schedFork
  dsimp only
  generalize ((schedForkYatCasched (k.updateTask p fun _ =>
    dupTaskStruct (k.task current) current p) p).updateTask p fun t =>
      { t with state := .new, prio := (k.task current).normalPrio }) = k₁ at hcopy ⊢
  have hreset : Forked k p
      (if (k₁.task p).schedResetOnFork then k₁.updateTask p (resetOnFork policies) else k₁) := by
    split
    · exact hcopy.updateTask (resetOnFork_place policies)
    · exact hcopy
  generalize (if (k₁.task p).schedResetOnFork then k₁.updateTask p (resetOnFork policies)
    else k₁) = k₂ at hreset ⊢
  split
  · exact hreset
  · split
    · dsimp only
      exact hreset.updateTask fun _ => ⟨rfl, rfl⟩
    · dsimp only
      exact hreset.updateTask fun _ => ⟨rfl, rfl⟩

/-- No priority stands for the class. -/
theorem classOfPrio_ne_yatCasched (prio : Int) : classOfPrio prio ≠ .yatCasched := by
  unfold classOfPrio
  split
  · simp
  · split
    · simp
    · simp

/-- A fork: the child sleeps, with the class its priority stands for. -/
theorem Refines.forkTask (h : Refines ⟨k, w⟩ s) (policies : PolicyPredicates) (c : Fin n)
    (hF : F.touches = some p) (honRq : (k.task p).onRq ≠ .queued)
    (hstate : (k.task p).state ≠ .waking) :
    Follows F s ⟨forkTask policies k c p, w⟩ := by
  have hp := h.place_asleep honRq hstate
  have hnot := h.place_ne_queued honRq
  unfold Kernel.forkTask
  split
  · exact .stay h
  · rename_i current _
    split
    · rename_i hzero
      rcases (forked_schedFork policies k current p).updateTask
        (g := fun t => { t with cpu := c, wakeCpu := c }) (fun _ => ⟨rfl, rfl⟩) with
        ⟨f, hfork, hf⟩
      have hclass : (f (k.task p)).schedClass ≠ .yatCasched := by
        have hchosen := ((schedFork_spec k current p).2.2 hzero).2.2
        have hsame : (f (k.task p)).schedClass =
            ((schedFork policies k current p).2.task p).schedClass := by
          have hplaced := congrArg (fun k' : System n => (k'.task p).schedClass) hfork
          rw [System.updateTask_task_self, System.updateTask_task_self] at hplaced
          exact hplaced.symm
        rw [hsame, hchosen]
        exact classOfPrio_ne_yatCasched _
      unfold setTaskCpu
      rw [hfork]
      have hfree : ∀ d, p ∉ s.queue (d, .yatCasched) := by
        intro d hmem
        exact hnot d ((h.sound.mem_queue p d .yatCasched).mp hmem).1
      have hqueues : QueuesAre { k with links := initListHead k.links (.runList p) } s :=
        ⟨h.queues.cls, h.queues.curr, h.queues.queue,
          h.queues.yatQueue.initListHead_runList hfree, h.queues.counted, h.queues.recorded⟩
      refine .event (e := .requeue p (f (k.task p)).schedClass) ⟨hF, Or.inr hclass⟩ trivial ?_
      rw [step_requeue_of_not_queued hnot]
      constructor
      case sound =>
        rw [← step_requeue_of_not_queued hnot]
        exact h.sound.step trivial
      case queues => exact hqueues.recast h.sound.toFiled hnot _
      case places =>
        apply h.places.move (p := p)
        · intro q hqp
          rw [System.updateTask_task_of_ne _ hqp]
          exact ⟨rfl, rfl, rfl, rfl⟩
        · intro d
          rw [System.updateTask_task_self]
          refine iff_of_false (hnot d) ?_
          rintro ⟨hqueued, _⟩
          rw [show (f (k.task p)).onRq = .off from (hf _).1] at hqueued
          cases hqueued
        · intro d hd
          rw [show (s.recast p _).place p = s.place p from rfl, hp] at hd
          cases hd
      case inbox => exact h.inbox
    · exact .stay h

/-! ## Policies -/

/-- The parameters a call stores are not seen. -/
theorem setschedulerParams_life (policies : PolicyPredicates) (t : TaskStruct n)
    (attr : SchedAttr) : (setschedulerParams policies t attr).life = t.life := by
  unfold setschedulerParams
  dsimp only
  split_ifs
  all_goals rfl

/-- A change of the policy. -/
theorem Refines.schedSetscheduler (h : Refines ⟨k, w⟩ s) (policies : PolicyPredicates)
    (stop : Fin n → Option Pid) (senv : SetschedulerEnv) (attr : SchedAttr) (user pi : Bool)
    (hF : F.touches = some p) :
    Follows F s ⟨(schedSetscheduler policies stop senv k p attr user pi).2, w⟩ := by
  have hreset : SameLife k
      (k.updateTask p fun t =>
        { t with schedResetOnFork := requestedResetOnFork t attr }) :=
    .updateTask k p fun _ => rfl
  unfold Kernel.schedSetscheduler
  dsimp only
  split
  · exact .stay h
  · split
    · exact .stay h
    · split
      · exact .stay (h.congr hreset)
      · split
        · exact .stay h
        · have hk := h.congr hreset
          dsimp only
          generalize (k.updateTask p fun t =>
            { t with schedResetOnFork := requestedResetOnFork t attr }) = k₁ at hk ⊢
          generalize (if pi then _ else _ : Int) = newprio
          refine .event (e := .requeue p
            (if attr.hasFlag schedFlagKeepParams then s.cls p else classOfPrio newprio))
            ⟨hF, ?_⟩ trivial (hk.requeue ?_)
          · split
            · exact Or.inl rfl
            · exact Or.inr (classOfPrio_ne_yatCasched newprio)
          intro k' honly
          refine ⟨_, rfl, ?_⟩
          split
          · rw [← hk.queues.cls_of_onlyAccounting honly p]
            rfl
          · rw [← setschedulerParams_life policies (k'.task p) attr]
            rfl

/-- Priority inheritance. -/
theorem Refines.rtMutexSetprio (h : Refines ⟨k, w⟩ s) (piTask : Option Pid)
    (hF : F.touches = some p) : Follows F s ⟨rtMutexSetprio k p piTask, w⟩ := by
  have hpi : SameLife k (k.updateTask p fun t => { t with piTopTask := piTask }) :=
    .updateTask k p fun _ => rfl
  unfold Kernel.rtMutexSetprio
  dsimp only
  split
  · exact .stay h
  · split
    · exact .stay (h.congr hpi)
    · refine .event (e := .requeue p
        (classOfPrio (rtEffectivePrioOf k piTask (k.task p).normalPrio)))
        ⟨hF, Or.inr (classOfPrio_ne_yatCasched _)⟩ trivial ((h.congr hpi).requeue ?_)
      intro k' _
      exact ⟨_, rfl, rfl⟩

/-- A change of the nice value. -/
theorem Refines.setUserNice (h : Refines ⟨k, w⟩ s) (policies : PolicyPredicates) (nice : Int)
    (hF : F.touches = some p) : Follows F s ⟨setUserNice policies k p nice, w⟩ := by
  unfold Kernel.setUserNice
  split
  · exact .stay h
  · split
    · refine .stay (h.congr (.updateTask k p ?_))
      exact fun _ => rfl
    · refine .event (e := .requeue p (s.cls p)) ⟨hF, Or.inl rfl⟩ trivial (h.requeue ?_)
      intro k' honly
      refine ⟨_, rfl, ?_⟩
      rw [← h.queues.cls_of_onlyAccounting honly p]
      rfl

/-! ## Moving tasks -/

theorem SameLife.setMigrationPending (k : System n) (p : Pid)
    (pending : Option (SetAffinityPending n)) : SameLife k (setMigrationPending k p pending) :=
  .updateTask k p fun _ => rfl

/-- A queued task that does not run moves, if it may. -/
theorem Refines.migrateTask (h : Refines ⟨k, w⟩ s) (hqueued : taskOnRqQueued k p = true)
    (hcurr : taskCurrent k p = false) (destCpu : Fin n) (hF : F.touches = some p) :
    Follows F s ⟨migrateTask k p destCpu, w⟩ := by
  unfold Kernel.migrateTask
  split
  · have hmove := h.moveQueuedTask (of_decide_eq_true hqueued) hcurr destCpu
    exact .event (e := .move p destCpu) hF hmove.1 hmove.2
  · exact .stay h

/-- The stopper runs, and the wake list of its CPU is emptied. -/
theorem Refines.runStopper (h : Refines m s) (hswitches : F.switches = some c)
    (hflushes : F.flushes = some c) (now : UInt64) : Follows F s (runStopper m c now) := by
  have hput := h.congr (.putPrevTask m.kernel c (m.kernel.rq c).curr)
  have hlegal : s.Legal (.switch c false none) := fun _ ht => by cases ht
  refine Follows.trans (.event (F := F) (e := .switch c false none)
    ⟨hswitches, fun hfalse => absurd hfalse Bool.false_ne_true, Or.inl rfl⟩ hlegal
    (hput.contextSwitch hlegal)) ?_
  intro s' hs'
  exact hs'.schedTtwuPending hflushes now

/-- The reschedule of the stopper. -/
theorem Refines.scheduleStopper (h : Refines ⟨k, w⟩ s) (hpicks : PicksMembers picks)
    (hswitches : F.switches = some c) (hF : F.picks = true) (now : UInt64) :
    Follows F s ⟨scheduleStopper picks k c now, w⟩ := by
  have hclock := h.congr (.updateRqClock k c now)
  have hpick := hclock.queues.restart h.sound.toFiled hpicks c none
  have hswitch := hclock.switchPicked false hclock.places hpick
  exact .event (F := F) (e := .switch c false _)
    ⟨hswitches, fun hfalse => absurd hfalse Bool.false_ne_true, Or.inr hF⟩ hswitch.1 hswitch.2

/-- While the stopper runs, no other task does. -/
theorem runStopper_curr (m : Machine n) (c : Fin n) (now : UInt64) :
    ((runStopper m c now).kernel.rq c).curr = none := by
  have hround : ∀ (l : List Pid) (k : System n), (k.rq c).curr = none →
      ((l.foldl (ttwuPendingRound c) k).rq c).curr = none := by
    intro l
    induction l with
    | nil => exact fun _ hk => hk
    | cons p l ih =>
        intro k hk
        apply ih
        unfold ttwuPendingRound ttwuDoActivate ttwuDoWakeup
        rw [System.updateTask_rq, (onlyAccounting_wakeupPreempt _ c p).curr]
        unfold activateTask
        rw [System.updateTask_rq, (onlyAccounting_enqueueTask _ c p).curr]
        split
        · exact hk
        · exact hk
  apply hround
  simp [updateRqClock, contextSwitch]

/-- A task on a CPU that runs nothing does not run. -/
theorem taskCurrent_eq_false (hcpu : (k.task p).cpu = c) (hcurr : (k.rq c).curr = none) :
    taskCurrent k p = false := by
  unfold taskCurrent
  rw [hcpu, hcurr]
  simp

/-- The stopper completes a request. -/
theorem Refines.migrationCpuStop (h : Refines ⟨k, w⟩ s) (hcurr : (k.rq c).curr = none)
    (pending : SetAffinityPending n) (hF : F.touches = some p) :
    Follows F s ⟨migrationCpuStop k c p pending, w⟩ := by
  unfold Kernel.migrationCpuStop
  split
  · rename_i hcpu
    split
    · exact .stay (h.congr (.setMigrationPending k p _))
    · have hdone := h.congr (.setMigrationPending k p none)
      have hcpu' : ((setMigrationPending k p none).task p).cpu = c := by
        rw [← hcpu]
        exact congrArg LifeTask.cpu ((SameLife.setMigrationPending k p none).task p)
      have hnot := taskCurrent_eq_false hcpu' hcurr
      dsimp only
      generalize setMigrationPending k p none = k₁ at hdone hnot ⊢
      split
      · exact .stay hdone
      · split
        · rename_i hqueued
          exact hdone.migrateTask hqueued hnot _ hF
        · refine .stay (hdone.congr (.updateTask k₁ p ?_))
          exact fun _ => rfl
  · split
    · exact .stay (h.congr (.setMigrationPending k p none))
    · exact .stay (h.congr (.setMigrationPending k p _))

/-- The stopper for the request a task has pending. -/
theorem Refines.pendingStop (h : Refines m s) (hswitches : F.switches = some c)
    (hflushes : F.flushes = some c) (hF : F.touches = some p) (now : UInt64) :
    Follows F s (pendingStop m c p now) := by
  unfold Kernel.pendingStop
  split
  · exact .stay h
  · refine Follows.trans (h.runStopper hswitches hflushes now) ?_
    intro s' hs'
    exact hs'.migrationCpuStop (runStopper_curr m c now) _ hF

/-- The stopper for a task that executes a new program. -/
theorem Refines.migrationCpuStopTo (h : Refines ⟨k, w⟩ s) (hcurr : (k.rq c).curr = none)
    (destCpu : Fin n) (hF : F.touches = some p) :
    Follows F s ⟨migrationCpuStopTo k c p destCpu, w⟩ := by
  unfold Kernel.migrationCpuStopTo
  split
  · rename_i hcpu
    split
    · exact .stay h
    · split
      · rename_i hqueued
        exact h.migrateTask hqueued (taskCurrent_eq_false hcpu hcurr) destCpu hF
      · refine .stay (h.congr (.updateTask k p ?_))
        exact fun _ => rfl
  · exact .stay h

/-- The choice of {lit}`sched_exec` records the CPU the task runs on, if any. -/
theorem Refines.schedExecDest (h : Refines ⟨k, w⟩ s) (hp : (k.rq c).curr = some p) :
    Refines ⟨(schedExecDest env k c p).1, w⟩ s := by
  have hplace := h.of_curr hp
  have hselect : Refines ⟨(selectTaskRqYatCasched k p (k.task p).cpu).1, w⟩ s := by
    unfold selectTaskRqYatCasched
    dsimp only
    split
    · dsimp only
      refine h.updateTask ?_ ?_ ?_ ?_
      · rfl
      · exact h.places.queued p
      · exact h.places.pending p
      · intro d hd _
        exact Or.inr (by rw [((h.places.queued p d).mp hd).2])
    · split
      · split
        · exact h
        · exact h
      · exact h
  unfold Kernel.schedExecDest
  dsimp only
  by_cases hclass : (k.task p).schedClass = .yatCasched
  · rw [if_pos hclass]
    split
    · exact hselect
    · exact hselect
  · rw [if_neg hclass]
    split
    · exact h
    · exact h

/-- The execution of a new program. -/
theorem Refines.schedExec (h : Refines m s) (hswitches : F.switches = some c)
    (hflushes : F.flushes = some c) (hF : F.touches = (m.kernel.rq c).curr) (now : UInt64) :
    Follows F s (schedExec env m c now) := by
  unfold Kernel.schedExec
  split
  · exact .stay h
  · rename_i p hp
    rw [hp] at hF
    have hdest : Refines ⟨(Kernel.schedExecDest env m.kernel c p).1, m.wakeList⟩ s :=
      Refines.schedExecDest h hp
    dsimp only
    split
    · exact .stay hdest
    · refine Follows.trans (hdest.runStopper hswitches hflushes now) ?_
      intro s' hs'
      exact hs'.migrationCpuStopTo (runStopper_curr _ c now) _ hF

/-- Storing a mask switches no CPU. -/
theorem doSetCpusAllowed_curr (k : System n) (p : Pid) (ctx : AffinityContext n) (d : Fin n) :
    ((doSetCpusAllowed k p ctx).rq d).curr = (k.rq d).curr := by
  rw [(onlyAccounting_doSetCpusAllowed k p ctx).curr]
  unfold setCpusAllowed setCpusAllowedCommon
  split
  · rfl
  · split
    · rfl
    · rfl

/-- A CPU that goes down pushes a task away. -/
theorem Refines.balancePushCpuStop (h : Refines m s) (hswitches : F.switches = some c)
    (hflushes : F.flushes = some c) (hF : F.touches = some p) {now : UInt64}
    (hout : balancePushCpuStop env m c p now = some m') : Follows F s m' := by
  unfold Kernel.balancePushCpuStop at hout
  dsimp only at hout
  have hstopped := h.runStopper hswitches hflushes now
  have hcurr := runStopper_curr m c now
  generalize Kernel.runStopper m c now = m₁ at hstopped hcurr hout
  split at hout
  · rename_i hp
    split at hout
    · cases hout
    · rename_i k₂ cpu hfallback
      cases hout
      have hsearch : Follows F s ⟨k₂, m₁.wakeList⟩ ∧ (k₂.rq c).curr = none ∧
          (k₂.task p).cpu = c ∧ taskOnRqQueued k₂ p = true := by
        refine fallbackRq_keeps (P := fun k => Follows F s ⟨k, m₁.wakeList⟩ ∧
          (k.rq c).curr = none ∧ (k.task p).cpu = c ∧ taskOnRqQueued k p = true) ?_
          ⟨hstopped, hcurr, hp.1, hp.2⟩ hfallback
        rintro k mask ⟨hfollows, hk, hcpu, hqueued⟩
        refine ⟨hfollows.trans fun s' hs' => .event (e := .requeue p (s'.cls p))
          ⟨hF, Or.inl rfl⟩ trivial (hs'.doSetCpusAllowed p _), ?_, ?_, ?_⟩
        · exact (doSetCpusAllowed_curr k p _ c).trans hk
        · exact (doSetCpusAllowedUser_apply k p mask (fun t => t.cpu) (fun _ _ _ _ => rfl)
            fun _ _ _ => rfl).trans hcpu
        · have honRq := doSetCpusAllowedUser_apply k p mask (fun t => t.onRq)
            (fun _ _ _ _ => rfl) fun _ _ _ => rfl
          unfold taskOnRqQueued at hqueued ⊢
          rw [honRq]
          exact hqueued
      rcases hsearch with ⟨hfollows, hcurr₂, hcpu₂, hqueued₂⟩
      refine hfollows.trans fun s' hs' => ?_
      exact hs'.migrateTask hqueued₂ (taskCurrent_eq_false hcpu₂ hcurr₂) cpu hF
  · cases hout
    exact hstopped

/-- The rest of a change of affinity. -/
theorem Refines.affineMoveTask (h : Refines ⟨k, w⟩ s) (destCpu : Fin n)
    (ctx : AffinityContext n) (hF : F.touches = some p) :
    Follows F s ⟨(affineMoveTask k p destCpu ctx).state, w⟩ := by
  unfold Kernel.affineMoveTask
  split
  · split
    · exact .stay (h.congr (.setMigrationPending k p none))
    · exact .stay h
  · dsimp only
    split
    · exact .stay h
    · split
      · split
        · exact .stay (h.congr (.setMigrationPending k p _))
        · exact .stay (h.congr (.setMigrationPending k p _))
      · rename_i hbusy
        split
        · exact .stay (h.congr (.setMigrationPending k p _))
        · have hcurr : taskCurrent k p = false := by
            simp only [Bool.or_eq_true, not_or, Bool.not_eq_true] at hbusy
            exact hbusy.1
          refine Follows.congr ?_ (.setMigrationPending _ p _)
          split
          · rename_i hqueued
            have hmove := h.moveQueuedTask (of_decide_eq_true hqueued) hcurr destCpu
            exact .event (e := .move p destCpu) hF hmove.1 hmove.2
          · exact .stay h

/-- A change of affinity, up to where its caller waits. -/
theorem Refines.setCpusAllowedPtrLocked (h : Refines ⟨k, w⟩ s)
    (distribute : AnyAndDistribute n) (current : Pid) (ctx : AffinityContext n)
    (hF : F.touches = some p) :
    Follows F s ⟨(setCpusAllowedPtrLocked distribute current k p ctx).state, w⟩ := by
  unfold Kernel.setCpusAllowedPtrLocked
  dsimp only
  split
  · exact .stay h
  · split
    · exact .stay h
    · split
      · refine .stay (h.congr ?_)
        show SameLife k (if ctx.scaUser then _ else k)
        split
        · exact .updateTask k p fun _ => rfl
        · exact .refl k
      · split
        · exact .stay h
        · split
          · exact .stay h
          · refine Follows.trans (.event (F := F) (e := .requeue p (s.cls p)) ⟨hF, Or.inl rfl⟩
              trivial (h.doSetCpusAllowed p ctx)) ?_
            intro s' hs'
            exact hs'.affineMoveTask _ ctx hF

/-- Migration is enabled again. -/
theorem Refines.migrateEnable (h : Refines ⟨k, w⟩ s) (distribute : AnyAndDistribute n)
    (c : Fin n) (hF : F.touches = (k.rq c).curr) :
    Follows F s ⟨migrateEnable distribute k c, w⟩ := by
  unfold Kernel.migrateEnable
  split
  · exact .stay h
  · rename_i p hp
    rw [hp] at hF
    split
    · refine .stay (h.congr (.updateTask k p ?_))
      exact fun _ => rfl
    · split
      · exact .stay h
      · refine Follows.congr (k := if (k.task p).cpusPtr ≠ .cpusMask p then
          (Kernel.setCpusAllowedPtrLocked distribute p k p (migrateEnableContext p)).state
          else k) ?_ (.updateTask _ p fun _ => rfl)
        split
        · exact h.setCpusAllowedPtrLocked distribute p _ hF
        · exact .stay h

/-- Migration is disabled. -/
theorem SameLife.migrateDisable (k : System n) (c : Fin n) : SameLife k (migrateDisable k c) := by
  unfold Kernel.migrateDisable
  split
  · exact .refl k
  · exact .updateTask k _ fun _ => rfl

/-- The running task changes its state. -/
theorem Refines.setCurrentState (h : Refines ⟨k, w⟩ s) (c : Fin n) (state : TaskState) :
    Refines ⟨setCurrentState k c state, w⟩ s := by
  unfold Kernel.setCurrentState
  split
  · exact h
  · rename_i p hp
    apply h.setState
    intro d hd
    rw [h.place_queued (h.of_curr hp).1] at hd
    cases hd

end Kernel
end YatCasched
