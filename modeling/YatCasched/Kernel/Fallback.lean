import YatCasched.Kernel.AffinityChange

/-!
# Fallback placement

{lit}`select_fallback_rq` of {lit}`core.c` looks for a CPU on which a task may run
when those it was given are gone.  Each round that finds none widens the mask of the
task through the hook {lit}`set_cpus_allowed`, first to that of its cpuset and then to
all possible CPUs.  The hook of the cache-aware class is empty.

Node masks, cpusets and the possible CPUs are not part of the repository and are
parameters.

Main results:

- Theorem {lit}`selectFallbackRq_iff`: when a CPU is found within three rounds.
- Theorem {lit}`selectFallbackRq_bug`: what happens otherwise.
-/

namespace YatCasched
namespace Kernel

variable {n : Nat}

/-! ## The search -/

/-- The context of {lit}`do_set_cpus_allowed`. -/
def fallbackContext (newMask : CpumaskPtr n) : AffinityContext n where
  newMask := newMask
  userMask := none
  scaCheck := false
  scaMigrateDisable := false
  scaMigrateEnable := false
  scaUser := true

/-- {lit}`do_set_cpus_allowed`. -/
def doSetCpusAllowedUser (k : System n) (p : Pid) (newMask : CpumaskPtr n) : System n :=
  doSetCpusAllowed k p (fallbackContext newMask)

/-- The code {lit}`select_fallback_rq` calls that is not part of the repository. -/
structure FallbackEnv (n : Nat) where
  /-- The CPUs of the node of a CPU, if it has one. -/
  cpumaskOfNode : Fin n → Option (Finset (Fin n))
  /-- The mask {lit}`cpuset_cpus_allowed_fallback` sets, if it returns true. -/
  cpusetCpusAllowedFallback : System n → Pid → Option (CpumaskPtr n)
  /-- Where {lit}`task_cpu_possible_mask` is in memory. -/
  taskCpuPossibleMask : Pid → Nat

/-- The states of the search. -/
inductive FallbackState
  | cpuset
  | possible
  | fail

/-- The end of the search. -/
inductive FallbackResult (n : Nat)
  | out (destCpu : Fin n) (k : System n)
  /-- {lit}`BUG()`. -/
  | bug (k : System n)

/-- The end of a round. -/
inductive FallbackRound (n : Nat)
  | done (result : FallbackResult n)
  | again (state : FallbackState) (k : System n)

/-- The first allowed CPU of a mask. -/
def firstAllowed (k : System n) (p : Pid) (mask : Finset (Fin n)) : Option (Fin n) :=
  (forEachCpu mask).find? (isCpuAllowed k p)

/-- One round of the loop in {lit}`select_fallback_rq`. -/
def fallbackRound (env : FallbackEnv n) (p : Pid) (state : FallbackState) (k : System n) :
    FallbackRound n :=
  match firstAllowed k p (k.maskAt (k.task p).cpusPtr) with
  | some destCpu => .done (.out destCpu k)
  | none =>
      match state with
      | .cpuset =>
          match env.cpusetCpusAllowedFallback k p with
          | some mask => .again .possible (doSetCpusAllowedUser k p mask)
          | none =>
              .again .fail (doSetCpusAllowedUser k p (.other (env.taskCpuPossibleMask p)))
      | .possible =>
          .again .fail (doSetCpusAllowedUser k p (.other (env.taskCpuPossibleMask p)))
      | .fail => .done (.bug k)

/-- At most so many rounds of the loop. -/
def fallbackLoop (env : FallbackEnv n) (p : Pid) :
    Nat → FallbackState → System n → Option (FallbackResult n)
  | 0, _, _ => none
  | rounds + 1, state, k =>
      match fallbackRound env p state k with
      | .done result => some result
      | .again state k => fallbackLoop env p rounds state k

/-- {lit}`select_fallback_rq`, with at most so many rounds of its loop. -/
def selectFallbackRq (env : FallbackEnv n) (rounds : Nat) (k : System n) (cpu : Fin n)
    (p : Pid) : Option (FallbackResult n) :=
  match (env.cpumaskOfNode cpu).bind (firstAllowed k p) with
  | some destCpu => some (.out destCpu k)
  | none => fallbackLoop env p rounds .cpuset k

/-- The task may run on some CPU. -/
def AnyAllowed (k : System n) (p : Pid) : Prop :=
  ∃ cpu, isCpuAllowed k p cpu = true

/-- What the callers and the code outside of the repository guarantee: the mask in use
is that of the task, migration is enabled, the possible CPUs are where
{lit}`task_cpu_possible_mask` says, one of them is active, and active CPUs are online
and not dying. -/
structure FallbackReady (env : FallbackEnv n) (k : System n) (p : Pid) : Prop where
  cpusPtr : (k.task p).cpusPtr = .cpusMask p
  enabled : isMigrationDisabled k p = false
  mask : k.cpumask (env.taskCpuPossibleMask p) = (k.task p).cpuPossibleMask
  possible : ∃ cpu ∈ (k.task p).cpuPossibleMask, cpu ∈ k.cpuActive
  active : ∀ cpu ∈ k.cpuActive, cpu ∈ k.cpuOnline ∧ cpu ∉ k.cpuDying

/-! ## Rounds -/

/-- An allowed CPU is in the mask in use. -/
theorem mem_of_isCpuAllowed {k : System n} {p : Pid} {cpu : Fin n}
    (h : isCpuAllowed k p cpu = true) : cpu ∈ k.maskAt (k.task p).cpusPtr := by
  unfold isCpuAllowed at h
  by_contra hmem
  simp [hmem] at h

theorem isCpuAllowed_of_firstAllowed {k : System n} {p : Pid} {mask : Finset (Fin n)}
    {cpu : Fin n} (h : firstAllowed k p mask = some cpu) : isCpuAllowed k p cpu = true :=
  List.find?_some h

/-- The search of the mask in use finds a CPU if there is one. -/
theorem firstAllowed_eq_none_iff (k : System n) (p : Pid) :
    firstAllowed k p (k.maskAt (k.task p).cpusPtr) = none ↔ ¬AnyAllowed k p := by
  unfold firstAllowed AnyAllowed
  rw [List.find?_eq_none]
  constructor
  · rintro h ⟨cpu, hcpu⟩
    exact h cpu (mem_forEachCpu.mpr (mem_of_isCpuAllowed hcpu)) hcpu
  · intro h cpu _ hcpu
    exact h ⟨cpu, hcpu⟩

variable {env : FallbackEnv n} {k : System n} {p : Pid}

/-- A round in which some CPU is allowed is the last one. -/
theorem AnyAllowed.fallbackLoop (h : AnyAllowed k p) (rounds : Nat) (state : FallbackState) :
    ∃ cpu, fallbackLoop env p (rounds + 1) state k = some (.out cpu k) ∧
      isCpuAllowed k p cpu = true := by
  cases hfirst : firstAllowed k p (k.maskAt (k.task p).cpusPtr) with
  | none => exact absurd h ((firstAllowed_eq_none_iff k p).mp hfirst)
  | some cpu =>
      refine ⟨cpu, ?_, isCpuAllowed_of_firstAllowed hfirst⟩
      simp [Kernel.fallbackLoop, fallbackRound, hfirst]

/-! ## Widening the mask -/

/-- The hook stores a mask, or nothing. -/
theorem setCpusAllowed_fallback (k : System n) (p : Pid) (newMask : CpumaskPtr n) :
    setCpusAllowed k p (fallbackContext newMask) = k ∨
      setCpusAllowed k p (fallbackContext newMask) =
        k.updateTask p fun t =>
          { t with
            cpusMask := k.maskAt newMask
            nrCpusAllowed := (k.maskAt newMask).card
            userCpusPtr := none } := by
  unfold setCpusAllowed
  split
  · exact Or.inl rfl
  · exact Or.inr rfl

/-- What does not depend on the stored mask, on run times and on class data is the
same. -/
theorem doSetCpusAllowedUser_apply {β : Type*} (k : System n) (p : Pid)
    (newMask : CpumaskPtr n) (g : TaskStruct n → β)
    (hmask : ∀ t mask nr user,
      g { t with cpusMask := mask, nrCpusAllowed := nr, userCpusPtr := user } = g t)
    (haccounting : ∀ t se yat, g { t with se := se, yatCasched := yat } = g t) :
    g ((doSetCpusAllowedUser k p newMask).task p) = g (k.task p) := by
  have honly := onlyAccounting_doSetCpusAllowed k p (fallbackContext newMask)
  refine (honly.apply p g haccounting).trans ?_
  rcases setCpusAllowed_fallback k p newMask with hhook | hhook
  · rw [hhook]
  · rw [hhook, System.updateTask_task_self, hmask]

/-- Nothing but the mask of the task changes. -/
theorem FallbackReady.doSet (h : FallbackReady env k p) (newMask : CpumaskPtr n) :
    FallbackReady env (doSetCpusAllowedUser k p newMask) p := by
  have honly := onlyAccounting_doSetCpusAllowed k p (fallbackContext newMask)
  have hglobal : (doSetCpusAllowedUser k p newMask).cpumask = k.cpumask ∧
      (doSetCpusAllowedUser k p newMask).cpuActive = k.cpuActive ∧
      (doSetCpusAllowedUser k p newMask).cpuOnline = k.cpuOnline ∧
      (doSetCpusAllowedUser k p newMask).cpuDying = k.cpuDying := by
    unfold doSetCpusAllowedUser
    rw [honly.cpumask, honly.cpuActive, honly.cpuOnline, honly.cpuDying]
    rcases setCpusAllowed_fallback k p newMask with hhook | hhook
    · rw [hhook]
      exact ⟨rfl, rfl, rfl, rfl⟩
    · rw [hhook]
      exact ⟨rfl, rfl, rfl, rfl⟩
  rcases hglobal with ⟨hcpumask, hactive, honline, hdying⟩
  have hpossible : ((doSetCpusAllowedUser k p newMask).task p).cpuPossibleMask =
      (k.task p).cpuPossibleMask :=
    doSetCpusAllowedUser_apply k p newMask (fun t => t.cpuPossibleMask) (fun _ _ _ _ => rfl)
      fun _ _ _ => rfl
  constructor
  · exact (doSetCpusAllowedUser_apply k p newMask (fun t => t.cpusPtr) (fun _ _ _ _ => rfl)
      fun _ _ _ => rfl).trans h.cpusPtr
  · have hdisabled := doSetCpusAllowedUser_apply k p newMask (fun t => t.migrationDisabled)
      (fun _ _ _ _ => rfl) fun _ _ _ => rfl
    unfold isMigrationDisabled
    rw [hdisabled]
    exact h.enabled
  · rw [hcpumask, hpossible]
    exact h.mask
  · rw [hpossible, hactive]
    exact h.possible
  · rw [hactive, honline, hdying]
    exact h.active

/-- The class stays the same. -/
theorem doSetCpusAllowedUser_schedClass (k : System n) (p : Pid) (newMask : CpumaskPtr n) :
    ((doSetCpusAllowedUser k p newMask).task p).schedClass = (k.task p).schedClass :=
  doSetCpusAllowedUser_apply k p newMask (fun t => t.schedClass) (fun _ _ _ _ => rfl)
    fun _ _ _ => rfl

/-- A possible CPU that is active can run the task. -/
theorem FallbackReady.canRunOn (h : FallbackReady env k p) {cpu : Fin n}
    (hpossible : cpu ∈ (k.task p).cpuPossibleMask) (hactive : cpu ∈ k.cpuActive) :
    canRunOn k (k.task p) cpu = true := by
  rcases h.active cpu hactive with ⟨honline, hdying⟩
  unfold Kernel.canRunOn
  split
  · simp [hpossible, hactive]
  · split
    · simpa using honline
    · simp [honline]

/-- With the common hook, the possible CPUs become the mask, and one of them is
allowed. -/
theorem FallbackReady.anyAllowed_doSet (h : FallbackReady env k p)
    (hclass : (k.task p).schedClass ≠ .yatCasched) :
    AnyAllowed (doSetCpusAllowedUser k p (.other (env.taskCpuPossibleMask p))) p := by
  have hview := @affinityView_doSetCpusAllowed_common n k p
    (fallbackContext (.other (env.taskCpuPossibleMask p))) hclass rfl rfl
  rw [if_pos h.cpusPtr] at hview
  rcases h.possible with ⟨cpu, hpossible, hactive⟩
  refine ⟨cpu, ?_⟩
  unfold doSetCpusAllowedUser
  have henabled : (affinityView (doSetCpusAllowed k p
      (fallbackContext (.other (env.taskCpuPossibleMask p)))) p).migrationDisabled = false := by
    rw [hview]
    exact h.enabled
  rw [isCpuAllowed_eq _ p cpu henabled, hview]
  have hmem : cpu ∈ k.maskAt (.other (env.taskCpuPossibleMask p)) := by
    show cpu ∈ k.cpumask (env.taskCpuPossibleMask p)
    rw [h.mask]
    exact hpossible
  have hcan : (affinityView k p).canRun cpu = true := h.canRunOn hpossible hactive
  simp [fallbackContext, hmem, hcan]

/-- With the empty hook, the same CPUs are allowed as before. -/
theorem FallbackReady.anyAllowed_doSet_yatCasched_iff (h : FallbackReady env k p)
    (hclass : (k.task p).schedClass = .yatCasched) (newMask : CpumaskPtr n) :
    AnyAllowed (doSetCpusAllowedUser k p newMask) p ↔ AnyAllowed k p := by
  have hview := affinityView_doSetCpusAllowed_yatCasched k p (fallbackContext newMask) hclass
  have henabled : (affinityView (doSetCpusAllowed k p (fallbackContext newMask))
      p).migrationDisabled = false := by
    rw [hview]
    exact h.enabled
  unfold AnyAllowed doSetCpusAllowedUser
  refine exists_congr fun cpu => ?_
  rw [isCpuAllowed_eq _ p cpu henabled, isCpuAllowed_eq k p cpu h.enabled, hview]

/-! ## The search as a whole -/

/-- A round in which no CPU is allowed. -/
theorem fallbackRound_of_not_anyAllowed (h : ¬AnyAllowed k p) (state : FallbackState) :
    fallbackRound env p state k =
      match state with
      | .cpuset =>
          match env.cpusetCpusAllowedFallback k p with
          | some mask => .again .possible (doSetCpusAllowedUser k p mask)
          | none =>
              .again .fail (doSetCpusAllowedUser k p (.other (env.taskCpuPossibleMask p)))
      | .possible =>
          .again .fail (doSetCpusAllowedUser k p (.other (env.taskCpuPossibleMask p)))
      | .fail => .done (.bug k) := by
  unfold fallbackRound
  rw [(firstAllowed_eq_none_iff k p).mpr h]

/-- The search has found an allowed CPU. -/
def Finds (p : Pid) (result : Option (FallbackResult n)) : Prop :=
  ∃ cpu k', result = some (.out cpu k') ∧ isCpuAllowed k' p cpu = true

/-- The search has ended in {lit}`BUG()`. -/
def Panics (result : Option (FallbackResult n)) : Prop :=
  ∃ k', result = some (.bug k')

/-- With the common hook, the loop finds a CPU within three rounds. -/
theorem FallbackReady.fallbackLoop_common (h : FallbackReady env k p)
    (hclass : (k.task p).schedClass ≠ .yatCasched) :
    Finds p (fallbackLoop env p 3 .cpuset k) := by
  by_cases hany : AnyAllowed k p
  · rcases hany.fallbackLoop 2 .cpuset with ⟨cpu, hloop, hcpu⟩
    exact ⟨cpu, k, hloop, hcpu⟩
  · unfold Kernel.fallbackLoop
    rw [fallbackRound_of_not_anyAllowed hany]
    cases env.cpusetCpusAllowedFallback k p with
    | none =>
        rcases (h.anyAllowed_doSet hclass).fallbackLoop 1 .fail with ⟨cpu, hloop, hcpu⟩
        exact ⟨cpu, _, hloop, hcpu⟩
    | some mask =>
        dsimp only
        have hnext := h.doSet mask
        have hclass' : ((doSetCpusAllowedUser k p mask).task p).schedClass ≠ .yatCasched := by
          rw [doSetCpusAllowedUser_schedClass]
          exact hclass
        by_cases hany' : AnyAllowed (doSetCpusAllowedUser k p mask) p
        · rcases hany'.fallbackLoop 1 .possible with ⟨cpu, hloop, hcpu⟩
          exact ⟨cpu, _, hloop, hcpu⟩
        · unfold Kernel.fallbackLoop
          rw [fallbackRound_of_not_anyAllowed hany']
          rcases (hnext.anyAllowed_doSet hclass').fallbackLoop 0 .fail with ⟨cpu, hloop, hcpu⟩
          exact ⟨cpu, _, hloop, hcpu⟩

/-- In the last state, no allowed CPU means {lit}`BUG()`. -/
theorem fallbackLoop_fail (h : ¬AnyAllowed k p) (rounds : Nat) :
    fallbackLoop env p (rounds + 1) .fail k = some (.bug k) := by
  unfold fallbackLoop
  rw [fallbackRound_of_not_anyAllowed h]

/-- With the empty hook, the loop panics if no CPU is allowed at the start. -/
theorem FallbackReady.fallbackLoop_yatCasched (h : FallbackReady env k p)
    (hclass : (k.task p).schedClass = .yatCasched) (hany : ¬AnyAllowed k p) :
    Panics (fallbackLoop env p 3 .cpuset k) := by
  have hpossible : ¬AnyAllowed
      (doSetCpusAllowedUser k p (.other (env.taskCpuPossibleMask p))) p := by
    rw [h.anyAllowed_doSet_yatCasched_iff hclass]
    exact hany
  unfold fallbackLoop
  rw [fallbackRound_of_not_anyAllowed hany]
  cases env.cpusetCpusAllowedFallback k p with
  | none => exact ⟨_, fallbackLoop_fail hpossible 1⟩
  | some mask =>
      dsimp only
      have hnext := h.doSet mask
      have hclass' : ((doSetCpusAllowedUser k p mask).task p).schedClass = .yatCasched := by
        rw [doSetCpusAllowedUser_schedClass]
        exact hclass
      have hany' : ¬AnyAllowed (doSetCpusAllowedUser k p mask) p := by
        rw [h.anyAllowed_doSet_yatCasched_iff hclass]
        exact hany
      unfold fallbackLoop
      rw [fallbackRound_of_not_anyAllowed hany']
      refine ⟨_, fallbackLoop_fail ?_ 0⟩
      rw [hnext.anyAllowed_doSet_yatCasched_iff hclass']
      exact hany'

/-- The search on the node finds allowed CPUs only. -/
theorem selectFallbackRq_cases (env : FallbackEnv n) (rounds : Nat) (k : System n)
    (cpu : Fin n) (p : Pid) :
    (AnyAllowed k p ∧ Finds p (selectFallbackRq env rounds k cpu p)) ∨
      selectFallbackRq env rounds k cpu p = fallbackLoop env p rounds .cpuset k := by
  unfold selectFallbackRq
  cases hnode : (env.cpumaskOfNode cpu).bind (firstAllowed k p) with
  | none => exact Or.inr rfl
  | some destCpu =>
      left
      rcases Option.bind_eq_some_iff.mp hnode with ⟨mask, _, hfirst⟩
      have hallowed := isCpuAllowed_of_firstAllowed hfirst
      exact ⟨⟨destCpu, hallowed⟩, destCpu, k, rfl, hallowed⟩

/-- If no CPU is allowed for a task of the cache-aware class, the search ends in
{lit}`BUG()`. -/
theorem selectFallbackRq_bug (h : FallbackReady env k p)
    (hclass : (k.task p).schedClass = .yatCasched) (hany : ¬AnyAllowed k p) (cpu : Fin n) :
    Panics (selectFallbackRq env 3 k cpu p) := by
  rcases selectFallbackRq_cases env 3 k cpu p with ⟨hallowed, _⟩ | hloop
  · exact absurd hallowed hany
  · rw [hloop]
    exact h.fallbackLoop_yatCasched hclass hany

/-- The search finds an allowed CPU within three rounds exactly if the task is a fair or
a real-time one, or some CPU is allowed to begin with. -/
theorem selectFallbackRq_iff (h : FallbackReady env k p) (cpu : Fin n)
    (hclass : (k.task p).schedClass = .fair ∨ (k.task p).schedClass = .rt ∨
      (k.task p).schedClass = .yatCasched) :
    Finds p (selectFallbackRq env 3 k cpu p) ↔
      (k.task p).schedClass = .fair ∨ (k.task p).schedClass = .rt ∨ AnyAllowed k p := by
  constructor
  · rintro ⟨destCpu, k', hfound, _⟩
    rcases hclass with hfair | hrt | hyat
    · exact Or.inl hfair
    · exact Or.inr (Or.inl hrt)
    · by_contra hnot
      have hany : ¬AnyAllowed k p := fun hany => hnot (Or.inr (Or.inr hany))
      rcases selectFallbackRq_bug h hyat hany cpu with ⟨k'', hbug⟩
      rw [hfound] at hbug
      cases hbug
  · intro hgood
    rcases selectFallbackRq_cases env 3 k cpu p with ⟨_, hfinds⟩ | hloop
    · exact hfinds
    · rw [hloop]
      rcases hgood with hfair | hrt | hany
      · exact h.fallbackLoop_common (by simp [hfair])
      · exact h.fallbackLoop_common (by simp [hrt])
      · rcases hany.fallbackLoop 2 .cpuset with ⟨destCpu, hfound, hallowed⟩
        exact ⟨destCpu, k, hfound, hallowed⟩

/-! ## A CPU that goes away -/

/-- All tasks are confined to CPU 0, which is not active any more. -/
def confinedToGoneCpu (k : System 2) : System 2 :=
  { k with
    task := fun p => { k.task p with cpusMask := {0}, nrCpusAllowed := 1 }
    cpumask := fun _ => {0, 1}
    cpuActive := {1} }

/-- Both CPUs are on one node, and cpusets set no mask. -/
def oneNode : FallbackEnv 2 where
  cpumaskOfNode := fun _ => some {0, 1}
  cpusetCpusAllowedFallback := fun _ _ => none
  taskCpuPossibleMask := fun _ => 0

/-- The fair task 7 gets another CPU. -/
theorem selectFallbackRq_fairTask :
    Finds 7 (selectFallbackRq oneNode 3 (confinedToGoneCpu (bootSystem 2)) 0 7) := by
  refine (selectFallbackRq_iff ?_ 0 (Or.inl rfl)).mpr (Or.inl rfl)
  constructor
  · rfl
  · rfl
  · decide
  · exact ⟨1, by decide, by decide⟩
  · decide

/-- For the task 7 of the cache-aware class the search panics. -/
theorem selectFallbackRq_panics :
    FallbackReady oneNode (confinedToGoneCpu (yatCaschedBootSystem 2)) 7 ∧
      ((confinedToGoneCpu (yatCaschedBootSystem 2)).task 7).schedClass = .yatCasched ∧
      ¬Finds 7 (selectFallbackRq oneNode 3 (confinedToGoneCpu (yatCaschedBootSystem 2)) 0 7) := by
  refine ⟨⟨rfl, rfl, by decide, ⟨1, by decide, by decide⟩, by decide⟩, rfl, ?_⟩
  rintro ⟨destCpu, k', hfound, _⟩
  have hpanics : Panics
      (selectFallbackRq oneNode 3 (confinedToGoneCpu (yatCaschedBootSystem 2)) 0 7) :=
    ⟨_, rfl⟩
  rcases hpanics with ⟨k'', hbug⟩
  rw [hfound] at hbug
  cases hbug

end Kernel
end YatCasched
