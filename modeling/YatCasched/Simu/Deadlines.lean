import YatCasched.Simu.HitAgreement
import YatCasched.Simu.WfdOrder

/-!
# Missed deadlines

{lit}`PerformanceAnalyzer` takes twice the field {lit}`expectedET` of a task for its
deadline.  {lit}`simulateCacheAwareAllocation` overwrites that field with the shortened
time and {lit}`simulateWFDAllocation` leaves it alone, so the same task has two deadlines
if the caches save anything of its time.  A task that ends earlier can then be late for
the shortened one only.

Main results:

- Theorem {lit}`missedDeadlines_le_of_sameTimes`: ending earlier with the same deadlines
  misses no more of them.
- Theorem {lit}`simulateCacheAwareAllocation_shortens`: the tasks that keep their deadline
  are those that save nothing.
- Theorem {lit}`missesNoMore_iff`: so these are the tasks for which ending earlier misses
  no more deadlines.
-/

namespace YatCasched
namespace Simu

/-! ## The metric -/

/-- The deadline of a task, {lit}`task.expectedET * 2`. -/
def Node.deadline (task : Node) : Int64 :=
  task.expectedET * 2

/-- {lit}`calculateMissedDeadlines`.  The counter stays below the length of the list. -/
def calculateMissedDeadlines (tasks : List Node) : Nat :=
  tasks.foldl (fun missedCount task =>
    let deadline := task.deadline
    if task.finishAt > deadline then missedCount + 1 else missedCount) 0

/-- Every task ends no later in the first run than in the second. -/
def EndsEarlier (tasks tasks' : List Node) : Prop :=
  List.Forall₂ (fun task task' => task.finishAt ≤ task'.finishAt) tasks tasks'

instance (tasks tasks' : List Node) : Decidable (EndsEarlier tasks tasks') :=
  inferInstanceAs (Decidable (List.Forall₂ _ tasks tasks'))

/-! ## The counts of two runs -/

variable {original cacheTasks wfdTasks : List Node}

/-- The loop counts the late tasks. -/
theorem calculateMissedDeadlines_eq_countP (tasks : List Node) :
    calculateMissedDeadlines tasks =
      tasks.countP fun task => task.deadline < task.finishAt := by
  induction tasks using List.reverseRecOn with
  | nil => rfl
  | append_singleton tasks task ih =>
      unfold calculateMissedDeadlines at ih ⊢
      rw [List.foldl_append, ih, List.countP_append, List.countP_singleton]
      by_cases hlate : task.deadline < task.finishAt
      · simp [hlate]
      · simp [hlate]

/-- Ending earlier with the same times misses no more deadlines. -/
theorem missedDeadlines_le_of_sameTimes (hearlier : EndsEarlier cacheTasks wfdTasks)
    (htimes : cacheTasks.map Node.expectedET = wfdTasks.map Node.expectedET) :
    calculateMissedDeadlines cacheTasks ≤ calculateMissedDeadlines wfdTasks := by
  rw [calculateMissedDeadlines_eq_countP, calculateMissedDeadlines_eq_countP]
  induction hearlier with
  | nil => exact le_rfl
  | @cons cached fixed cacheTasks wfdTasks hle _ ih =>
      rw [List.map_cons, List.map_cons, List.cons.injEq] at htimes
      rcases htimes with ⟨htime, htimes⟩
      have hdeadline : cached.deadline = fixed.deadline := by
        unfold Node.deadline
        rw [htime]
      have hlate : cached.deadline < cached.finishAt → fixed.deadline < fixed.finishAt := by
        rw [hdeadline, Int64.lt_iff_toInt_lt, Int64.lt_iff_toInt_lt]
        rw [Int64.le_iff_toInt_le] at hle
        omega
      have hrest := ih htimes
      rw [List.countP_cons, List.countP_cons]
      by_cases hcached : cached.deadline < cached.finishAt
      · simpa [hcached, hlate hcached] using hrest
      · simp only [hcached, decide_false]
        exact le_add_right hrest

/-- Without overflow the deadline is twice the time. -/
theorem Node.deadline_toInt {task : Node} (htime : 0 ≤ task.expectedET.toInt)
    (hfits : task.expectedET.toInt * 2 < 2 ^ 63) :
    task.deadline.toInt = task.expectedET.toInt * 2 := by
  unfold Node.deadline
  rw [Int64.toInt_mul, show (2 : Int64).toInt = 2 from rfl]
  apply Int.bmod_eq_of_le
  · omega
  · omega

/-! ## Shortened times -/

open CacheAwareState

/-- Tasks that save nothing keep their times, from any state. -/
theorem Timed.sameTimes {tasks tasks' : List Node} (h : Timed Node.MayTake tasks tasks')
    (hsaves : ∀ task ∈ tasks, task.SavesNothing) :
    tasks'.map Node.expectedET = tasks.map Node.expectedET := by
  induction h with
  | nil => rfl
  | @cons task task' tasks tasks' htime _ ih =>
      rw [List.map_cons, List.map_cons, htime.2 (hsaves task List.mem_cons_self),
        ih fun t ht => hsaves t (List.mem_cons_of_mem task ht)]

/-- A round keeps the time of its task exactly if the task saves nothing. -/
theorem accountedTask_expectedET_eq_iff {st : CacheAwareState} {node : Node} {p : ProcId}
    (hnode : node.Proper) (hcache : (st.cacheState p).UtilizationBounds)
    (hentry : (st.cacheStates p).isSome = true) (busy : ProcId → Int64) :
    (accountedTask busy st node p).expectedET = node.expectedET ↔ node.SavesNothing := by
  rcases Option.isSome_iff_exists.mp hentry with ⟨entry, hst⟩
  have hvalue : st.cacheState p = entry := by
    unfold cacheState
    rw [hst, Option.getD_some]
  have htime : 1 ≤ node.expectedET.toInt := hnode.one_le_toInt
  have hmarked : (markedNode node (st.hitStats p) (st.cacheState p)).Reducible :=
    ⟨hnode.toInt_nonneg, hnode.sensitivity_nonneg, hnode.sensitivity_le_one, hnode.hasWeights,
      hnode.weight_nonneg⟩
  rw [hvalue] at hcache
  exact calculateExecutionTime_eq_expectedET_iff hst hcache hmarked htime

/-- From {lit}`resetState` exactly the tasks that save nothing keep their time. -/
theorem simulateCacheAwareAllocation_shortens {P : Nat} (hP : 1 ≤ P) {tasks : List Node}
    (hproper : ∀ task ∈ tasks, task.Proper) (hlength : tasks.length < 2 ^ 31) :
    ∃ st tasks', simulateCacheAwareAllocation tasks (generateProcessorList P) resetState =
        .ok (st, tasks') ∧
      Scheduled P (fun _ => 0) tasks tasks' ∧
      List.Forall₂ (fun task task' => task'.expectedET = task.expectedET ↔ task.SavesNothing)
        tasks tasks' := by
  rcases simulateCacheAwareAllocation_scheduled hP .resetState hproper with
    ⟨st, tasks', hrun, hscheduled⟩
  rcases cacheAwareRun_forall₂ hP hproper hlength
    (R := fun task task' => task'.expectedET = task.expectedET ↔ task.SavesNothing)
    (fun task htask st log busy p hledger hentry => accountedTask_expectedET_eq_iff
      (hproper task htask) (hledger.utilization p) hentry busy) with ⟨st', tasks'', hsame, htimes⟩
  have hend : (st, tasks') = (st', tasks'') := Except.ok.inj (hrun.symm.trans hsame)
  refine ⟨st, tasks', hrun, hscheduled, ?_⟩
  rw [(Prod.mk.inj hend).2]
  exact htimes

/-- Two tasks on one processor, one after the other. -/
theorem Scheduled.finishAt_pair {first second first' second' : Node}
    (h : Scheduled 1 (fun _ => 0) [first, second] [first', second']) :
    first'.finishAt = first'.expectedET ∧
      second'.finishAt = first'.expectedET + second'.expectedET := by
  cases h with
  | @cons _ _ marked _ _ p hp _ hrest =>
      cases hrest with
      | @cons _ _ marked' _ _ q hq _ _ =>
          rw [Nat.lt_one_iff] at hp hq
          subst hp hq
          simp [scheduledTask]

/-- Of a task and one that takes no longer, the second one is late if it takes less. -/
theorem missed_pair {first second : Node} (hfinish : first.finishAt = first.expectedET ∧
      second.finishAt = first.expectedET + second.expectedET)
    (hnonneg : 0 ≤ second.expectedET.toInt)
    (hle : second.expectedET.toInt ≤ first.expectedET.toInt)
    (hfits : first.expectedET.toInt * 2 < 2 ^ 63) :
    second.finishAt.toInt = first.expectedET.toInt + second.expectedET.toInt ∧
      calculateMissedDeadlines [first, second] =
        if second.expectedET.toInt < first.expectedET.toInt then 1 else 0 := by
  have hsum : second.finishAt.toInt = first.expectedET.toInt + second.expectedET.toInt := by
    rw [hfinish.2]
    exact MachineInt.toInt_add_of_lt (hnonneg.trans hle) hnonneg (by omega)
  have hdeadline := Node.deadline_toInt (hnonneg.trans hle) hfits
  have hdeadline' := Node.deadline_toInt hnonneg (by omega)
  have hintime : ¬first.deadline < first.finishAt := by
    rw [Int64.lt_iff_toInt_lt, hfinish.1, hdeadline]
    omega
  refine ⟨hsum, ?_⟩
  rw [calculateMissedDeadlines_eq_countP, List.countP_cons, List.countP_cons, List.countP_nil]
  have hlate : second.expectedET.toInt * 2 < first.expectedET.toInt + second.expectedET.toInt ↔
      second.expectedET.toInt < first.expectedET.toInt := by omega
  simp [hintime, Int64.lt_iff_toInt_lt, hsum, hdeadline', hlate]

/-! ## Both simulations on clones -/

/-- {lit}`simulateWFDAllocation` leaves the execution times alone. -/
theorem simulateWFDAllocation_sameTimes {P : Nat} (hP : 1 ≤ P) (processorLoads : WFD.Loads)
    (tasks : List Node) :
    ∃ processorLoads' tasks',
      simulateWFDAllocation tasks (generateProcessorList P) processorLoads =
        .ok (processorLoads', tasks') ∧
      tasks'.map Node.expectedET = tasks.map Node.expectedET := by
  rcases wfdRun_ok hP tasks processorLoads (fun _ => 0) [] with
    ⟨processorLoads', busy, tasks', hrun, htimes⟩
  rw [List.nil_append] at hrun
  exact ⟨processorLoads', tasks', simulateAllocation_of_foldlM hrun, htimes⟩

/-- The clone of a task saves nothing if the task does not. -/
theorem Node.Proper.savesNothing_cloneTask {task : Node} (h : task.Proper) (drawn : Drawn) :
    (Simu.cloneTask drawn task).SavesNothing ↔ task.SavesNothing := by
  cases hweights : task.weights with
  | none =>
      have hnone := h.hasWeights
      unfold Node.hasWeights at hnone
      rw [hweights] at hnone
      cases hnone
  | some weights =>
      unfold SavesNothing weight Simu.cloneTask
      rw [hweights]

/-- Both simulations succeed on clones of the tasks, on however many processors and from
whatever states earlier calls can leave, and if every task ends no later in the cache-aware
run, that run misses no more deadlines. -/
def MissesNoMore (original : List Node) : Prop :=
  ∀ (P : Nat), 1 ≤ P → ∀ (drawn : Nat → Drawn) (processorLoads : WFD.Loads)
      (st : CacheAwareState), st.Reachable →
    ∃ processorLoads' wfdTasks st' cacheTasks,
      simulateWFDAllocation (cloneTasks drawn original) (generateProcessorList P)
        processorLoads = .ok (processorLoads', wfdTasks) ∧
      simulateCacheAwareAllocation (cloneTasks drawn original) (generateProcessorList P) st =
        .ok (st', cacheTasks) ∧
      (EndsEarlier cacheTasks wfdTasks →
        calculateMissedDeadlines cacheTasks ≤ calculateMissedDeadlines wfdTasks)

/-- That is so if the caches save nothing of any task. -/
theorem missesNoMore_of_savesNothing (hproper : ∀ task ∈ original, task.Proper)
    (hsaves : ∀ task ∈ original, task.SavesNothing) : MissesNoMore original := by
  intro P hP drawn processorLoads st hst
  have hclones := proper_of_mem_cloneTasks hproper drawn
  rcases simulateWFDAllocation_sameTimes hP processorLoads (cloneTasks drawn original) with
    ⟨processorLoads', wfdTasks, hwfd, hwfdTimes⟩
  rcases simulateCacheAwareAllocation_timed hP hst hclones with
    ⟨st', cacheTasks, hcache, _, htimes⟩
  have hkept : ∀ task ∈ cloneTasks drawn original, task.SavesNothing := by
    intro task htask
    unfold cloneTasks at htask
    rcases List.mem_mapIdx.mp htask with ⟨i, hi, rfl⟩
    have hmem := List.getElem_mem hi
    exact ((hproper _ hmem).savesNothing_cloneTask (drawn i)).mpr (hsaves _ hmem)
  exact ⟨processorLoads', wfdTasks, st', cacheTasks, hwfd, hcache, fun hearlier =>
    missedDeadlines_le_of_sameTimes hearlier ((htimes.sameTimes hkept).trans hwfdTimes.symm)⟩

/-- A proper task is one without its sensitivity. -/
theorem Node.Proper.pair {task : Node} (h : task.Proper) :
    ∀ t ∈ [{ task with sensitivity := 0 }, task], t.Proper := by
  simp only [List.mem_cons, List.not_mem_nil, or_false]
  rintro t (rfl | rfl)
  · exact ⟨h.time_ge_one, le_rfl, zero_le_one, h.hasWeights, h.weight_nonneg⟩
  · exact h

/-- A task that saves something, after the same task without sensitivity, on one processor:
both end no later in the cache-aware run, and the second one misses its deadline there
only. -/
theorem missedDeadlines_of_saving (drawn : Nat → Drawn) (processorLoads : WFD.Loads)
    {task : Node} (hproper : task.Proper) (hsaves : ¬task.SavesNothing)
    (hfits : task.expectedET.toInt * 2 < 2 ^ 63) :
    ∃ processorLoads' wfdTasks st' cacheTasks,
      simulateWFDAllocation (cloneTasks drawn [{ task with sensitivity := 0 }, task])
        (generateProcessorList 1) processorLoads = .ok (processorLoads', wfdTasks) ∧
      simulateCacheAwareAllocation (cloneTasks drawn [{ task with sensitivity := 0 }, task])
        (generateProcessorList 1) resetState = .ok (st', cacheTasks) ∧
      EndsEarlier cacheTasks wfdTasks ∧ calculateMissedDeadlines wfdTasks = 0 ∧
      calculateMissedDeadlines cacheTasks = 1 := by
  have hinsensitive : ({ task with sensitivity := 0 } : Node).Proper :=
    hproper.pair _ List.mem_cons_self
  have hclones := proper_of_mem_cloneTasks hproper.pair drawn
  rcases simulateWFDAllocation_timed le_rfl processorLoads
    (fun t ht => (hclones t ht).toInt_nonneg) with
      ⟨processorLoads', wfdTasks, hwfd, hwfdScheduled, hwfdTimes⟩
  rcases simulateCacheAwareAllocation_shortens le_rfl hclones (by simp [cloneTasks]) with
    ⟨st', cacheTasks, hcache, hcacheScheduled, hcacheTimes⟩
  refine ⟨processorLoads', wfdTasks, st', cacheTasks, hwfd, hcache, ?_⟩
  have hclone : cloneTasks drawn [{ task with sensitivity := 0 }, task] =
      [cloneTask (drawn 0) { task with sensitivity := 0 }, cloneTask (drawn 1) task] := rfl
  rw [hclone] at hwfdScheduled hwfdTimes hcacheScheduled hcacheTimes
  have hpos : 1 ≤ task.expectedET.toInt := hproper.one_le_toInt
  rcases hwfdTimes with _ | ⟨hfirst, _ | ⟨hsecond, ⟨⟩⟩⟩
  rename_i fixed fixed'
  rcases hcacheTimes with _ | ⟨hfirst', _ | ⟨hsecond', ⟨⟩⟩⟩
  rename_i cached cached'
  rw [cloneTask_expectedET] at hfirst hsecond hfirst' hsecond'
  replace hfirst : fixed.expectedET = task.expectedET := hfirst
  have hkept : cached.expectedET = task.expectedET :=
    hfirst'.mpr ((hinsensitive.savesNothing_cloneTask (drawn 0)).mpr (Or.inl rfl))
  have hshortened : 0 ≤ cached'.expectedET.toInt ∧
      cached'.expectedET.toInt < task.expectedET.toInt := by
    rcases hcacheScheduled.simulated with _ | ⟨_, _ | ⟨hsimulated, _⟩⟩
    have hle := hsimulated.time_le
    rw [cloneTask_expectedET] at hle
    refine ⟨hsimulated.time_nonneg, lt_of_le_of_ne hle fun heq => ?_⟩
    rw [Int64.toInt_inj, hsecond', hproper.savesNothing_cloneTask] at heq
    exact hsaves heq
  rcases missed_pair hwfdScheduled.finishAt_pair (by rw [hsecond]; exact hproper.toInt_nonneg)
    (by rw [hfirst, hsecond]) (by rw [hfirst]; exact hfits) with ⟨hend, hmissed⟩
  rcases missed_pair hcacheScheduled.finishAt_pair hshortened.1
    (by rw [hkept]; exact hshortened.2.le) (by rw [hkept]; exact hfits) with ⟨hend', hmissed'⟩
  rw [hfirst, hsecond] at hend hmissed
  rw [hkept] at hend' hmissed'
  refine ⟨?_, hmissed.trans (if_neg (lt_irrefl _)), hmissed'.trans (if_pos hshortened.2)⟩
  refine .cons ?_ (.cons ?_ .nil)
  · rw [hwfdScheduled.finishAt_pair.1, hcacheScheduled.finishAt_pair.1, hfirst, hkept]
    exact Int64.le_refl _
  · rw [Int64.le_iff_toInt_le, hend, hend']
    omega

/-- So ending earlier may miss a deadline there. -/
theorem not_missesNoMore_of_saving {task : Node} (hproper : task.Proper)
    (hsaves : ¬task.SavesNothing) (hfits : task.expectedET.toInt * 2 < 2 ^ 63) :
    ¬MissesNoMore [{ task with sensitivity := 0 }, task] := by
  intro hmisses
  rcases missedDeadlines_of_saving (fun _ => ⟨1, 0, []⟩) WFD.resetLoads hproper hsaves hfits with
    ⟨_, wfdTasks, _, cacheTasks, hwfd, hcache, hearlier, hmissed, hmissed'⟩
  rcases hmisses 1 le_rfl (fun _ => ⟨1, 0, []⟩) WFD.resetLoads resetState .resetState with
    ⟨_, wfdTasks', _, cacheTasks', hwfd', hcache', hle⟩
  rw [hwfd] at hwfd'
  rw [hcache] at hcache'
  rw [← (Prod.mk.inj (Except.ok.inj hwfd')).2, ← (Prod.mk.inj (Except.ok.inj hcache')).2,
    hmissed, hmissed'] at hle
  exact absurd (hle hearlier) (by norm_num)

/-- Ending earlier misses no more deadlines if the caches save nothing of any task.  And if
no doubled time overflows, only then is that so for all lists of these tasks and of the
same tasks without sensitivity. -/
theorem missesNoMore_iff (hproper : ∀ task ∈ original, task.Proper) :
    ((∀ task ∈ original, task.SavesNothing) → MissesNoMore original) ∧
    ((∀ task ∈ original, task.expectedET.toInt * 2 < 2 ^ 63) →
      ((∀ tasks : List Node, (∀ task ∈ tasks, task ∈ original ∨
          ∃ t ∈ original, task = { t with sensitivity := 0 }) → MissesNoMore tasks) ↔
        ∀ task ∈ original, task.SavesNothing)) := by
  refine ⟨missesNoMore_of_savesNothing hproper, ?_⟩
  intro hfits
  constructor
  · intro hmisses task htask
    by_contra hsaves
    have hpair : MissesNoMore [{ task with sensitivity := 0 }, task] := by
      apply hmisses
      simp only [List.mem_cons, List.not_mem_nil, or_false]
      rintro t (rfl | rfl)
      · exact Or.inr ⟨task, htask, rfl⟩
      · exact Or.inl htask
    exact not_missesNoMore_of_saving (hproper task htask) hsaves (hfits task htask) hpair
  · intro hsaves tasks htasks
    apply missesNoMore_of_savesNothing
    · intro task htask
      rcases htasks task htask with hmem | ⟨t, ht, rfl⟩
      · exact hproper task hmem
      · exact (hproper t ht).pair _ List.mem_cons_self
    · intro task htask
      rcases htasks task htask with hmem | ⟨t, ht, rfl⟩
      · exact hsaves task hmem
      · exact Or.inl rfl

/-- Three tasks of one unit of time. -/
theorem missesNoMore_iff_unitTasks : MissesNoMore [unitTask, unitTask, unitTask] := by
  have htasks : ∀ task ∈ [unitTask, unitTask, unitTask], task = unitTask := by simp
  have hproper : ∀ task ∈ [unitTask, unitTask, unitTask], task.Proper := by
    intro task htask
    rw [htasks task htask]
    exact unitTask_proper
  apply (missesNoMore_iff hproper).1
  intro task htask
  rw [htasks task htask]
  exact Or.inr fun i _ => unitTask_weight i

/-- A task of ten units of time, of some sensitivity, that uses all levels of the cache. -/
def tenUnits (sensitivity : ℚ) : Node :=
  Node.new 0 .solo 0 0 10 sensitivity [1, 1, 1, 1]

theorem tenUnits_proper {sensitivity : ℚ} (h0 : 0 ≤ sensitivity) (h1 : sensitivity ≤ 1) :
    (tenUnits sensitivity).Proper where
  time_ge_one := by
    unfold Node.time
    rw [show (tenUnits sensitivity).expectedET.toInt = 10 from rfl]
    norm_num
  sensitivity_nonneg := h0
  sensitivity_le_one := h1
  hasWeights := rfl
  weight_nonneg i := by
    have hweights : (tenUnits sensitivity).weights = some [1, 1, 1, 1] := rfl
    rcases Node.weight_eq_zero_or_mem hweights i with hzero | hmem
    · rw [hzero]
    · rw [show (tenUnits sensitivity).weight i = 1 by simpa using hmem]
      exact zero_le_one

/-- A task that is not sensitive and one that is, on one processor.  The second one ends
five units earlier in the cache-aware run, but its deadline is ten units earlier. -/
theorem missedDeadlines_shortened :
    ∃ processorLoads' wfdTasks st' cacheTasks,
      simulateWFDAllocation (cloneTasks (fun _ => ⟨1, 0, []⟩) [tenUnits 0, tenUnits 1])
        (generateProcessorList 1) WFD.resetLoads = .ok (processorLoads', wfdTasks) ∧
      simulateCacheAwareAllocation (cloneTasks (fun _ => ⟨1, 0, []⟩) [tenUnits 0, tenUnits 1])
        (generateProcessorList 1) CacheAwareState.resetState = .ok (st', cacheTasks) ∧
      EndsEarlier cacheTasks wfdTasks ∧
      calculateMissedDeadlines wfdTasks < calculateMissedDeadlines cacheTasks := by
  have hproper : ∀ task ∈ [tenUnits 0, tenUnits 1], task.Proper := by
    simp only [List.mem_cons, List.not_mem_nil, or_false]
    rintro task (rfl | rfl)
    · exact tenUnits_proper le_rfl zero_le_one
    · exact tenUnits_proper zero_le_one le_rfl
  rcases simulateWFDAllocation_sameTimes le_rfl WFD.resetLoads
    (cloneTasks (fun _ => ⟨1, 0, []⟩) [tenUnits 0, tenUnits 1]) with
      ⟨processorLoads', wfdTasks, hwfd, _⟩
  rcases simulateCacheAwareAllocation_scheduled le_rfl .resetState
    (proper_of_mem_cloneTasks hproper fun _ => ⟨1, 0, []⟩) with ⟨st', cacheTasks, hcache, _⟩
  have hmissed := Run.of_all_ok₂ (P := fun r r' => EndsEarlier r'.2 r.2 ∧
    calculateMissedDeadlines r.2 < calculateMissedDeadlines r'.2) hwfd hcache (by decide +kernel)
  exact ⟨processorLoads', wfdTasks, st', cacheTasks, hwfd, hcache, hmissed⟩

end Simu
end YatCasched
