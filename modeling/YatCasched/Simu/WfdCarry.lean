import YatCasched.Simu.CacheAwareRun
import YatCasched.Simu.ListSchedule

/-!
# Worst fit across test cases

The loads of {lit}`WFD` are static, and {lit}`runComparison` resets them at the very end
only, so a test case starts with the loads of all test cases before it.  Its schedule is
then no list schedule: a processor can be free for long while its load is still the
greatest.  But the loads are balanced before and after it, so a processor gains no more
than another one and two of the longest tasks so far.

Main results:

- Theorem {lit}`Carried.step`: what a task adds to the loads of earlier test cases.
- Theorem {lit}`Carried.makespan_le`: the makespan, from loads that were balanced before.
- Theorem {lit}`wfd_carry`: so the makespan of every test case of an experiment.
-/

namespace YatCasched
namespace Simu

open ListScheduling

/-! ## The loads of one test case -/

/-- The loads are those before the test case and the times of its tasks so far, and stay
balanced. -/
structure Carried {P : Nat} (hP : P ≤ 8) (L : WFD.Loads) (longest : Int) (before : List Node)
    (r : WFD.Loads × (ProcId → Int64) × List Node) : Prop where
  loads : ∀ i : Fin P, (r.1 (i.castLE hP)).toInt = (L (i.castLE hP)).toInt + timeOn r.2.2 i.val
  nonneg : ∀ i : Fin P, 0 ≤ (r.1 (i.castLE hP)).toInt
  sum : ∑ i : Fin P, (r.1 (i.castLE hP)).toInt =
    ∑ i : Fin P, (L (i.castLE hP)).toInt + totalTime before
  balanced : Balanced (fun i : Fin P => (r.1 (i.castLE hP)).toInt)
    (max longest (longestTime before))

variable {P : Nat} {hP : P ≤ 8} {L : WFD.Loads} {longest : Int} {before tasks tasks' : List Node}
  {r : WFD.Loads × (ProcId → Int64) × List Node} {task : Node}

/-- A load fits if all loads together do. -/
theorem Carried.le_sum (h : Carried hP L longest before r) (i : Fin P) :
    (r.1 (i.castLE hP)).toInt ≤ ∑ i : Fin P, (L (i.castLE hP)).toInt + totalTime before := by
  rw [← h.sum]
  exact Finset.single_le_sum (f := fun i : Fin P => (r.1 (i.castLE hP)).toInt)
    (fun j _ => h.nonneg j) (Finset.mem_univ i)

/-- A task adds its time to a least load. -/
theorem Carried.step [NeZero P] (h : Carried hP L longest before r)
    (htime : 0 ≤ task.expectedET.toInt)
    (hfits : ∑ i : Fin P, (L (i.castLE hP)).toInt + totalTime before + task.expectedET.toInt <
      2 ^ 31 - 1) :
    ∃ r', wfdRound P r task = .ok r' ∧ Carried hP L longest (before ++ [task]) r' := by
  rcases r with ⟨processorLoads, busy, done⟩
  have hroom : (processorLoads ((0 : Fin P).castLE hP)).toInt < Int32.maxValue.toInt := by
    have hmax : Int32.maxValue.toInt = 2 ^ 31 - 1 := rfl
    have hle := h.le_sum 0
    dsimp only at hle
    omega
  rcases WFD.allocate_range hP processorLoads task hroom with ⟨i, hleast, hallocate⟩
  have hle := h.le_sum i
  have hnonneg := h.nonneg i
  dsimp only at hle hnonneg
  have hload : ((processorLoads (i.castLE hP)).toInt64 + task.expectedET).toInt32.toInt =
      (processorLoads (i.castLE hP)).toInt + task.expectedET.toInt :=
    MachineInt.toInt_narrow_add hnonneg htime (by omega)
  -- the new loads are those of the list schedule
  have hloads : (fun j : Fin P =>
        (Function.update processorLoads (i.castLE hP)
          ((processorLoads (i.castLE hP)).toInt64 + task.expectedET).toInt32
            (j.castLE hP)).toInt) =
      Function.update (fun j : Fin P => (processorLoads (j.castLE hP)).toInt) i
        ((processorLoads (i.castLE hP)).toInt + task.expectedET.toInt) := by
    ext j
    by_cases hji : j = i
    · rw [hji, Function.update_self, Function.update_self, hload]
    · rw [Function.update_of_ne hji,
        Function.update_of_ne fun heq => hji (Fin.castLE_injective hP heq)]
  have hload' := fun j : Fin P => congrFun hloads j
  refine ⟨(Function.update processorLoads (i.castLE hP)
      ((processorLoads (i.castLE hP)).toInt64 + task.expectedET).toInt32,
    Function.update busy i.val (busy i.val + task.expectedET),
    done ++ [scheduledTask busy task i.val]), ?_, ?_⟩
  · unfold wfdRound simulateRound wfdAllocateTask
    dsimp only
    rw [hallocate]
    dsimp only
    rw [if_neg (by omega), Int.toNat_natCast, if_pos]
    rw [show (generateProcessorList P).length = P from List.length_range]
    exact i.isLt
  · constructor
    case loads =>
      intro j
      have hbefore := h.loads j
      dsimp only at hbefore hload' ⊢
      rw [hload', timeOn_append_scheduledTask (i.isLt.trans_le (hP.trans (by norm_num)))]
      by_cases hji : j = i
      · rw [hji] at hbefore ⊢
        rw [Function.update_self, if_pos rfl, hbefore, add_assoc]
      · rw [Function.update_of_ne hji, if_neg (Fin.val_ne_of_ne hji), add_zero, hbefore]
    case nonneg =>
      intro j
      dsimp only at hload' ⊢
      rw [hload']
      by_cases hji : j = i
      · rw [hji, Function.update_self]
        omega
      · rw [Function.update_of_ne hji]
        exact h.nonneg j
    case sum =>
      dsimp only
      rw [hloads, sum_update_add, h.sum, totalTime_append_singleton, add_assoc]
    case balanced =>
      dsimp only
      rw [hloads, longestTime_append_singleton, ← max_assoc]
      exact h.balanced.assign hleast htime

/-- What a test case adds to the loads of earlier ones. -/
theorem carried_run [NeZero P] (hP : P ≤ 8) {L : WFD.Loads} {longest : Int}
    (hL : ∀ i : Fin P, 0 ≤ (L (i.castLE hP)).toInt)
    (hbalanced : Balanced (fun i : Fin P => (L (i.castLE hP)).toInt) longest)
    (hlongest : 0 ≤ longest) (htimes : ∀ task ∈ tasks, 0 ≤ task.expectedET.toInt)
    (hfits : ∑ i : Fin P, (L (i.castLE hP)).toInt + totalTime tasks < 2 ^ 31 - 1) :
    ∃ r, tasks.foldlM (wfdRound P) (L, (fun _ => 0), []) = .ok r ∧
      Carried hP L longest tasks r := by
  apply Run.exists_foldlM
  · refine ⟨?_, hL, ?_, ?_⟩
    · intro i
      simp [timeOn, tasksOn]
    · simp [totalTime]
    · rw [show longestTime [] = 0 from rfl, max_eq_left hlongest]
      exact hbalanced
  · rintro before task after r rfl hcarried
    have hafter := totalTime_nonneg fun t ht =>
      htimes t (List.mem_append_right before (List.mem_cons_of_mem task ht))
    rw [List.append_cons, totalTime_append, totalTime_append_singleton] at hfits
    exact hcarried.step (htimes task (by simp)) (by omega)

/-! ## The makespan of one test case -/

/-- The makespan is a bound of the times of the processors, if these fit. -/
theorem Scheduled.makespan_le (h : Scheduled P (fun _ => 0) tasks tasks') (hP : P ≤ 2 ^ 31)
    (hfits : NoOverflow P tasks') {bound : ℚ} (hbound : ∀ p, p < P → (timeOn tasks' p : ℚ) ≤ bound)
    (hnonneg : 0 ≤ bound) : calculateMakespan tasks' P ≤ bound := by
  have hplaced := fun task htask => (h.placed hP task htask).2
  have hduration := h.duration_of_noOverflow hP hfits
  rcases (calculateMakespan_spec hplaced).2.2 with hzero | ⟨task, htask, heq⟩
  · rw [hzero]
    exact hnonneg
  · rcases hplaced task htask with ⟨p, hp, hon⟩
    have hmem : task ∈ tasksOn tasks' p := List.mem_filter.mpr ⟨htask, decide_eq_true hon⟩
    have hfinish := ((h.gapFree hP p).bounds fun t ht =>
      (hduration t (List.mem_of_mem_filter ht)).2).2 task hmem
    rw [show ((0 : Int64)).toInt = 0 from rfl, zero_add] at hfinish
    rw [heq]
    exact le_trans (by exact_mod_cast hfinish) (hbound p hp)

/-- The makespan, from loads that were balanced before. -/
theorem Carried.makespan_le [NeZero P] (h : Carried hP L longest tasks r)
    (hscheduled : Scheduled P (fun _ => 0) tasks r.2.2) (hfits : NoOverflow P r.2.2)
    (hbalanced : Balanced (fun i : Fin P => (L (i.castLE hP)).toInt) longest) :
    (P : ℚ) * calculateMakespan r.2.2 P ≤
      totalTime tasks + ((P : ℚ) - 1) * (max longest (longestTime tasks) + longest) := by
  have hpos : (0 : ℚ) < P := by exact_mod_cast Nat.pos_of_neZero P
  have hgain : (fun i : Fin P => (r.1 (i.castLE hP)).toInt - (L (i.castLE hP)).toInt) =
      fun i : Fin P => timeOn r.2.2 i.val := by
    ext i
    rw [h.loads]
    ring
  have hgains := hbalanced.sub h.balanced
  rw [hgain] at hgains
  have hsum : ∑ i : Fin P, timeOn r.2.2 i.val = totalTime tasks := by
    rw [← hgain, Finset.sum_sub_distrib, h.sum]
    ring
  have hmakespan : calculateMakespan r.2.2 P ≤
      (totalTime tasks + ((P : ℚ) - 1) * (max longest (longestTime tasks) + longest)) / P := by
    have hshare : ∀ p, p < P → (timeOn r.2.2 p : ℚ) ≤
        (totalTime tasks + ((P : ℚ) - 1) * (max longest (longestTime tasks) + longest)) / P := by
      intro p hp
      have hle := hgains.card_mul_le ⟨p, hp⟩
      rw [hsum, Fintype.card_fin] at hle
      rw [le_div_iff₀ hpos, mul_comm]
      exact_mod_cast hle
    apply hscheduled.makespan_le (hP.trans (by norm_num)) hfits hshare
    exact le_trans (by exact_mod_cast hscheduled.timeOn_nonneg 0)
      (hshare 0 (Nat.pos_of_neZero P))
  rw [le_div_iff₀ hpos, mul_comm] at hmakespan
  exact hmakespan

/-! ## All test cases -/

/-- The loads {lit}`WFD` has after some test cases. -/
structure CarriedLoads (tests : List (List Node)) (L : WFD.Loads) : Prop where
  nonneg : ∀ i, 0 ≤ (L i).toInt
  sum : ∑ i, (L i).toInt = totalTime tests.flatten
  balanced : Balanced (fun i => (L i).toInt) (longestTime tests.flatten)

theorem carriedLoads_resetLoads : CarriedLoads [] WFD.resetLoads where
  nonneg _ := le_rfl
  sum := by simp [WFD.resetLoads, totalTime]
  balanced := balanced_const (0 : Int)

theorem longestTime_nonneg (tasks : List Node) : 0 ≤ longestTime tasks := by
  induction tasks using List.reverseRecOn with
  | nil => exact le_rfl
  | append_singleton tasks task ih =>
      rw [longestTime_append_singleton]
      exact ih.trans (le_max_left _ _)

theorem longestTime_append (before after : List Node) :
    longestTime (before ++ after) = max (longestTime before) (longestTime after) := by
  induction after using List.reverseRecOn with
  | nil =>
      rw [List.append_nil, show longestTime [] = 0 from rfl, max_eq_left]
      exact longestTime_nonneg before
  | append_singleton after task ih =>
      rw [← List.append_assoc, longestTime_append_singleton, ih, longestTime_append_singleton,
        max_assoc]

/-- Clones take as long together, and the longest of them takes as long. -/
theorem totalTime_cloneTasks (drawn : Nat → Drawn) (original : List Node) :
    totalTime (cloneTasks drawn original) = totalTime original ∧
      longestTime (cloneTasks drawn original) = longestTime original := by
  have htimes := congrArg (List.map Int64.toInt) (cloneTasks_expectedET drawn original)
  rw [List.map_map, List.map_map] at htimes
  constructor
  · exact congrArg List.sum htimes
  · unfold longestTime
    rw [← List.foldl_map (f := fun task : Node => task.expectedET.toInt) (g := max),
      ← List.foldl_map (f := fun task : Node => task.expectedET.toInt) (g := max)]
    exact congrArg (List.foldl max 0) htimes

/-- The first simulation of a test case after others: the loads it leaves, its schedule and
the makespan. -/
theorem CarriedLoads.wfdTest {tests : List (List Node)} {test : List Node} {s : Statics}
    (h : CarriedLoads tests s.wfd) (drawn : Nat → Drawn) (hproper : ∀ task ∈ test, task.Proper)
    (hfits : totalTime (tests.flatten ++ test) < 2 ^ 31 - 1) :
    ∃ L tasks', wfdTest drawn s test = .ok ({ s with wfd := L }, tasks') ∧
      CarriedLoads (tests ++ [test]) L ∧
      Scheduled cores (fun _ => 0) (cloneTasks drawn test) tasks' ∧
      tasks'.map Node.expectedET = (cloneTasks drawn test).map Node.expectedET ∧
      (cores : ℚ) * calculateMakespan tasks' cores ≤ totalTime test +
        ((cores : ℚ) - 1) *
          (longestTime (tests.flatten ++ test) + longestTime tests.flatten) := by
  have hcores : 1 ≤ cores := by decide
  have hclones := totalTime_cloneTasks drawn test
  have htimes : ∀ task ∈ cloneTasks drawn test, 0 ≤ task.expectedET.toInt := fun task htask =>
    (proper_of_mem_cloneTasks hproper drawn task htask).toInt_nonneg
  have hsum : totalTime (tests.flatten ++ test) = totalTime tests.flatten + totalTime test :=
    totalTime_append _ _
  have hbefore : 0 ≤ totalTime tests.flatten := by
    rw [← h.sum]
    exact Finset.sum_nonneg fun i _ => h.nonneg i
  have hfits' : ∑ i, (s.wfd i).toInt + totalTime (cloneTasks drawn test) < 2 ^ 31 - 1 := by
    rw [h.sum, hclones.1, ← hsum]
    exact hfits
  rcases carried_run (le_refl 8) h.nonneg h.balanced (longestTime_nonneg _) htimes hfits' with
    ⟨r, hfold, hcarried⟩
  have hrun : simulateWFDAllocation (cloneTasks drawn test) (generateProcessorList cores) s.wfd =
      .ok (r.1, r.2.2) := simulateAllocation_of_foldlM hfold
  rcases simulateWFDAllocation_scheduled hcores s.wfd htimes with
    ⟨L, tasks', hsame, hscheduled⟩
  have hend : (L, tasks') = (r.1, r.2.2) := Except.ok.inj (hsame.symm.trans hrun)
  rw [(Prod.mk.inj hend).2] at hscheduled
  rcases simulateWFDAllocation_sameTimes hcores s.wfd (cloneTasks drawn test) with
    ⟨L', tasks'', hsame', hkept⟩
  have hend' : (L', tasks'') = (r.1, r.2.2) := Except.ok.inj (hsame'.symm.trans hrun)
  rw [(Prod.mk.inj hend').2] at hkept
  have hroom : NoOverflow cores r.2.2 := by
    apply hscheduled.noOverflow (by decide)
    rw [hclones.1]
    omega
  have hmakespan := hcarried.makespan_le hscheduled hroom h.balanced
  have hlongest : longestTime (tests.flatten ++ test) =
      max (longestTime tests.flatten) (longestTime (cloneTasks drawn test)) := by
    rw [longestTime_append, hclones.2]
  refine ⟨r.1, r.2.2, ?_, ⟨hcarried.nonneg, ?_, ?_⟩, hscheduled, hkept, ?_⟩
  · unfold Simu.wfdTest
    dsimp only
    rw [hrun]
  · rw [List.flatten_append, List.flatten_singleton, hsum, ← h.sum, ← hclones.1]
    exact hcarried.sum
  · rw [List.flatten_append, List.flatten_singleton, hlongest]
    exact hcarried.balanced
  · rw [hclones.1] at hmakespan
    rw [hlongest]
    exact hmakespan

/-- A test case after others. -/
theorem CarriedLoads.runTest {tests : List (List Node)} {test : List Node} {s : Statics}
    (h : CarriedLoads tests s.wfd) (drawn : Nat → Drawn) (hproper : ∀ task ∈ test, task.Proper)
    (hfits : totalTime (tests.flatten ++ test) < 2 ^ 31 - 1) :
    ∃ s', runTest drawn s test = .ok s' ∧ CarriedLoads (tests ++ [test]) s'.wfd := by
  rcases h.wfdTest drawn hproper hfits with ⟨L, tasks', hwfd, hloads, _⟩
  rcases simulateCacheAwareAllocation_scheduled (by decide : 1 ≤ cores)
    CacheAwareState.Reachable.resetState (proper_of_mem_cloneTasks hproper drawn) with
      ⟨st, cacheTasks, hcache, _⟩
  refine ⟨{ wfd := L, cacheAware := st }, ?_, hloads⟩
  unfold Simu.runTest
  rw [hwfd]
  unfold cacheAwareTest
  dsimp only
  rw [hcache]

/-- In an experiment on proper tasks the loads of {lit}`WFD` are never reset between test
cases.  As long as they fit they stay within one longest task of each other, and the
makespan of every test case is at most the mean load and the shares of two longest tasks. -/
theorem wfd_carry (drawn : Nat → Drawn) {tests : List (List Node)}
    (hproper : ∀ test ∈ tests, ∀ task ∈ test, task.Proper)
    (hfits : totalTime tests.flatten < 2 ^ 31 - 1) :
    ∀ before test after, tests = before ++ test :: after →
      ∃ s s' tasks', runComparison drawn before = .ok s ∧
        wfdTest drawn s test = .ok (s', tasks') ∧
        ∑ i, (s.wfd i).toInt = totalTime before.flatten ∧
        (∀ i j, (s.wfd i).toInt - (s.wfd j).toInt ≤ longestTime before.flatten) ∧
        (cores : ℚ) * calculateMakespan tasks' cores ≤ totalTime test +
          ((cores : ℚ) - 1) *
            (longestTime (before.flatten ++ test) + longestTime before.flatten) := by
  rintro before test after rfl
  have hinitial : ∀ tests₁ test₁ after₁, before ++ [test] = tests₁ ++ test₁ :: after₁ →
      totalTime (tests₁.flatten ++ test₁) < 2 ^ 31 - 1 := by
    intro tests₁ test₁ after₁ hsplit
    have hall : before ++ test :: after = tests₁ ++ test₁ :: (after₁ ++ after) := by
      rw [List.append_cons, hsplit, List.append_assoc, List.cons_append]
    rw [hall, List.flatten_append, List.flatten_cons, ← List.append_assoc, totalTime_append]
      at hfits
    have hrest : 0 ≤ totalTime (after₁ ++ after).flatten := by
      apply totalTime_nonneg
      intro task htask
      rcases List.mem_flatten.mp htask with ⟨t, ht, htask⟩
      refine (hproper t ?_ task htask).toInt_nonneg
      rw [hall]
      exact List.mem_append_right _ (List.mem_cons_of_mem _ ht)
    omega
  have hruns : ∃ s, before.foldlM (runTest drawn) .fresh = .ok s ∧ CarriedLoads before s.wfd := by
    apply Run.exists_foldlM
    · exact carriedLoads_resetLoads
    · rintro tests₁ test₁ after₁ s rfl hloads
      exact hloads.runTest drawn (hproper test₁ (by simp))
        (hinitial tests₁ test₁ (after₁ ++ [test]) (by simp))
  rcases hruns with ⟨s, hrun, hloads⟩
  rcases hloads.wfdTest drawn (hproper test (by simp)) (hinitial before test [] rfl) with
    ⟨L, tasks', hwfd, _, _, _, hmakespan⟩
  exact ⟨s, _, tasks', hrun, hwfd, hloads.sum, hloads.balanced, hmakespan⟩

/-- A test case of two unit tasks after one of a single one. -/
theorem wfd_carry_unitTests :
    ∃ s s' tasks',
      runComparison (fun _ => ⟨100, 0, [0, 0, 0, 0]⟩) [[unitTask]] = .ok s ∧
      wfdTest (fun _ => ⟨100, 0, [0, 0, 0, 0]⟩) s [unitTask, unitTask] = .ok (s', tasks') ∧
      8 * calculateMakespan tasks' 8 ≤ 16 := by
  have hproper : ∀ test ∈ [[unitTask], [unitTask, unitTask]], ∀ task ∈ test, task.Proper := by
    intro test htest task htask
    have hunit : task = unitTask := by
      simp only [List.mem_cons, List.not_mem_nil, or_false] at htest
      rcases htest with rfl | rfl
      all_goals simpa using htask
    rw [hunit]
    exact unitTask_proper
  rcases wfd_carry (fun _ => ⟨100, 0, [0, 0, 0, 0]⟩) hproper (by decide) [[unitTask]]
    [unitTask, unitTask] [] rfl with ⟨s, s', tasks', hrun, hwfd, _, _, hmakespan⟩
  refine ⟨s, s', tasks', hrun, hwfd, ?_⟩
  rw [show totalTime [unitTask, unitTask] = 2 from rfl,
    show longestTime ([[unitTask]].flatten ++ [unitTask, unitTask]) = 1 from rfl,
    show longestTime [[unitTask]].flatten = 1 from rfl] at hmakespan
  refine le_trans hmakespan ?_
  norm_num [cores]

end Simu
end YatCasched
