import Mathlib.Data.List.Sort
import YatCasched.Simu.TimeMetrics

/-!
# The order of the tasks

{lit}`WFD` gets one task at a time, so the simulation places the tasks in the order of the
list, and another order may have another makespan.  What is left of independence: the
times decide, not the tasks; where both lists are in decreasing order the makespans are
the same; and no two orders are further apart than the share of the longest task, since
every makespan is at least the mean load.

Main results:

- Theorem {lit}`wfdRun_ok`: the schedule of a prefix does not depend on what follows.
- Theorem {lit}`wfdMakespan_eq_of_times`: tasks with the same times have the same makespan.
- Theorem {lit}`wfd_order`: how the makespan depends on the order.
-/

namespace YatCasched
namespace Simu

/-- The makespan of the first simulation, from {lit}`resetLoads`. -/
def wfdMakespan (P : Nat) (tasks : List Node) : Except JavaException ℚ :=
  (simulateWFDAllocation tasks (generateProcessorList P) WFD.resetLoads).map fun r =>
    calculateMakespan r.2 P

variable {P : Nat} {tasks tasks' : List Node}

/-! ## One task after the other -/

/-- A round places its task on some processor. -/
theorem wfdRound_ok (hP : 1 ≤ P) (r : WFD.Loads × (ProcId → Int64) × List Node) (task : Node) :
    ∃ p : ProcId, (WFD.allocate r.1 [task] (generateProcessorList P)).1 = (p : Int) ∧
      wfdRound P r task = .ok ((WFD.allocate r.1 [task] (generateProcessorList P)).2,
        Function.update r.2.1 p (r.2.1 p + task.expectedET),
        r.2.2 ++ [scheduledTask r.2.1 task p]) := by
  rcases WFD.allocate_mem r.1 task [] (generateProcessorList_ne_nil hP) with ⟨p, hp, hid⟩
  refine ⟨p, hid, ?_⟩
  unfold wfdRound simulateRound wfdAllocateTask
  dsimp only
  rw [hid, if_neg (by omega), Int.toNat_natCast, if_pos]
  rw [show (generateProcessorList P).length = P from List.length_range]
  exact lt_of_mem_generateProcessorList hp

/-- A run adds its tasks to the schedule, with their times. -/
theorem wfdRun_ok (hP : 1 ≤ P) (tasks : List Node) (L : WFD.Loads) (busy : ProcId → Int64)
    (done : List Node) :
    ∃ L' busy' rest, tasks.foldlM (wfdRound P) (L, busy, done) = .ok (L', busy', done ++ rest) ∧
      rest.map Node.expectedET = tasks.map Node.expectedET := by
  induction tasks generalizing L busy done with
  | nil => exact ⟨L, busy, [], by rw [List.append_nil]; rfl, rfl⟩
  | cons task tasks ih =>
      rcases wfdRound_ok hP (L, busy, done) task with ⟨p, _, hround⟩
      rcases ih _ _ (done ++ [scheduledTask busy task p]) with ⟨L', busy', rest, hrun, htimes⟩
      refine ⟨L', busy', scheduledTask busy task p :: rest, ?_, ?_⟩
      · rw [List.foldlM_cons, hround]
        dsimp only [bind, Except.bind]
        rw [hrun, List.append_assoc, List.singleton_append]
      · rw [List.map_cons, List.map_cons, htimes]
        rfl

/-- The schedule of a list begins with the schedule of its first tasks. -/
theorem simulateWFDAllocation_append (hP : 1 ≤ P) (before after : List Node) :
    ∃ L done L' rest,
      simulateWFDAllocation before (generateProcessorList P) WFD.resetLoads = .ok (L, done) ∧
      done.length = before.length ∧
      simulateWFDAllocation (before ++ after) (generateProcessorList P) WFD.resetLoads =
        .ok (L', done ++ rest) := by
  rcases wfdRun_ok hP before WFD.resetLoads (fun _ => 0) [] with ⟨L, busy, done, hdone, htimes⟩
  rw [List.nil_append] at hdone
  rcases wfdRun_ok hP after L busy done with ⟨L', busy', rest, hrest, _⟩
  refine ⟨L, done, L', rest, simulateWFDAllocation_of_foldlM hdone, ?_, ?_⟩
  · have hlength := congrArg List.length htimes
    rwa [List.length_map, List.length_map] at hlength
  · have hrun : (before ++ after).foldlM (wfdRound P) wfdStart =
        .ok (L', busy', done ++ rest) := by
      rw [List.foldlM_append]
      unfold wfdStart
      rw [hdone]
      exact hrest
    exact simulateWFDAllocation_of_foldlM hrun

/-! ## The times decide -/

/-- Two tasks are placed alike. -/
def SamePlace (task task' : Node) : Prop :=
  task.partition = task'.partition ∧ task.finishAt = task'.finishAt

/-- {lit}`WFD` looks at the execution time only. -/
theorem allocate_congr {task task' : Node} (h : task.expectedET = task'.expectedET)
    (L : WFD.Loads) (availableProc : List ProcId) :
    WFD.allocate L [task] availableProc = WFD.allocate L [task'] availableProc := by
  unfold WFD.allocate
  cases availableProc with
  | nil => rfl
  | cons first others =>
      dsimp only
      rw [h]

/-- Tasks with the same times are placed alike. -/
theorem wfdRun_congr (hP : 1 ≤ P)
    (htimes : List.Forall₂ (fun task task' => task.expectedET = task'.expectedET) tasks tasks')
    (L : WFD.Loads) (busy : ProcId → Int64) {done done' : List Node}
    (hdone : List.Forall₂ SamePlace done done') :
    ∃ L₁ busy₁ done₁ done₁',
      tasks.foldlM (wfdRound P) (L, busy, done) = .ok (L₁, busy₁, done₁) ∧
      tasks'.foldlM (wfdRound P) (L, busy, done') = .ok (L₁, busy₁, done₁') ∧
      List.Forall₂ SamePlace done₁ done₁' := by
  induction htimes generalizing L busy done done' with
  | nil => exact ⟨L, busy, done, done', rfl, rfl, hdone⟩
  | @cons task task' tasks tasks' htime _ ih =>
      rcases wfdRound_ok hP (L, busy, done) task with ⟨p, hp, hround⟩
      rcases wfdRound_ok hP (L, busy, done') task' with ⟨p', hp', hround'⟩
      dsimp only at hp hp' hround hround'
      rw [← allocate_congr htime] at hp' hround'
      have hpp : p' = p := Int.natCast_inj.mp (hp'.symm.trans hp)
      rw [hpp, ← htime] at hround'
      have hplace : SamePlace (scheduledTask busy task p) (scheduledTask busy task' p) := by
        refine ⟨rfl, ?_⟩
        unfold scheduledTask
        dsimp only
        rw [htime]
      rcases ih (WFD.allocate L [task] (generateProcessorList P)).2
        (Function.update busy p (busy p + task.expectedET))
        (List.rel_append hdone (.cons hplace .nil)) with
          ⟨L₁, busy₁, done₁, done₁', hrun, hrun', hsame⟩
      refine ⟨L₁, busy₁, done₁, done₁', ?_, ?_, hsame⟩
      · rw [List.foldlM_cons, hround]
        exact hrun
      · rw [List.foldlM_cons, hround']
        exact hrun'

/-- Tasks that are placed alike have the same makespan. -/
theorem calculateMakespan_congr (h : List.Forall₂ SamePlace tasks tasks') (P : Nat) :
    calculateMakespan tasks P = calculateMakespan tasks' P := by
  have hfold : ∀ times : ProcId → ℚ,
      tasks.foldl (finishTimeRound P) times = tasks'.foldl (finishTimeRound P) times := by
    induction h with
    | nil =>
        intro times
        rfl
    | @cons task task' tasks tasks' hplace _ ih =>
        intro times
        have hround : finishTimeRound P times task = finishTimeRound P times task' := by
          unfold finishTimeRound
          rw [hplace.1, hplace.2]
        rw [List.foldl_cons, List.foldl_cons, hround]
        exact ih _
  unfold calculateMakespan
  rw [hfold]

/-- Tasks with the same times have the same makespan. -/
theorem wfdMakespan_eq_of_times (hP : 1 ≤ P)
    (htimes : tasks.map Node.expectedET = tasks'.map Node.expectedET) :
    wfdMakespan P tasks = wfdMakespan P tasks' := by
  have hforall : List.Forall₂ (fun task task' : Node => task.expectedET = task'.expectedET)
      tasks tasks' := by
    rw [← List.forall₂_eq_eq_eq, List.forall₂_map_left_iff, List.forall₂_map_right_iff] at htimes
    exact htimes
  rcases wfdRun_congr hP hforall WFD.resetLoads (fun _ => 0) .nil with
    ⟨L₁, busy₁, done₁, done₁', hrun, hrun', hsame⟩
  unfold wfdMakespan
  rw [simulateWFDAllocation_of_foldlM hrun, simulateWFDAllocation_of_foldlM hrun']
  exact congrArg Except.ok (calculateMakespan_congr hsame P)

/-! ## Permutations -/

/-- The tasks come in decreasing order of their execution times. -/
def Decreasing (tasks : List Node) : Prop :=
  tasks.Pairwise fun task task' => task'.expectedET.toInt ≤ task.expectedET.toInt

/-- Two decreasing orders of the same tasks have the same times. -/
theorem times_eq_of_decreasing (hperm : tasks.Perm tasks') (h : Decreasing tasks)
    (h' : Decreasing tasks') : tasks.map Node.expectedET = tasks'.map Node.expectedET := by
  apply @List.Perm.eq_of_pairwise _ fun a b : Int64 => b.toInt ≤ a.toInt
  · intro a b _ _ hba hab
    exact Int64.toInt_inj.mp (le_antisymm hab hba)
  · exact List.pairwise_map.mpr h
  · exact List.pairwise_map.mpr h'
  · exact hperm.map Node.expectedET

theorem totalTime_perm (hperm : tasks.Perm tasks') : totalTime tasks = totalTime tasks' :=
  (hperm.map _).sum_eq

theorem longestTime_perm (hperm : tasks.Perm tasks') : longestTime tasks = longestTime tasks' := by
  apply hperm.foldl_eq'
  intro task _ task' _ longest
  exact max_right_comm _ _ _

/-- The makespan is at least the mean load, and no more above it than the share of the
longest task. -/
theorem wfdMakespan_bounds [NeZero P] (hP : P ≤ 8)
    (htimes : ∀ task ∈ tasks, 0 ≤ task.expectedET.toInt)
    (hfits : totalTime tasks < 2 ^ 31 - 1) :
    ∃ M, wfdMakespan P tasks = .ok M ∧ (totalTime tasks : ℚ) ≤ P * M ∧
      (P : ℚ) * M ≤ totalTime tasks + ((P : ℚ) - 1) * longestTime tasks := by
  have hP1 : 1 ≤ P := NeZero.one_le
  rcases coupled_run hP tasks htimes hfits with ⟨r, hrun, hcoupled⟩
  rcases wfdRun_ok hP1 tasks WFD.resetLoads (fun _ => 0) [] with ⟨L, busy, rest, hrest, hsame⟩
  rcases simulateWFDAllocation_scheduled hP1 WFD.resetLoads htimes with
    ⟨L', tasks', hsimulate, hscheduled⟩
  have hr : r = (L, busy, rest) := by
    rw [List.nil_append] at hrest
    exact Except.ok.inj (hrun.symm.trans hrest)
  have htasks' : tasks' = r.2.2 := by
    rw [simulateWFDAllocation_of_foldlM hrun] at hsimulate
    exact (Prod.mk.inj (Except.ok.inj hsimulate)).2.symm
  have htotal : totalTime tasks' = totalTime tasks := by
    have hmap : ∀ l : List Node, totalTime l = ((l.map Node.expectedET).map Int64.toInt).sum := by
      intro l
      rw [List.map_map]
      rfl
    rw [hmap, hmap, htasks', hr, hsame]
  have hint : P ≤ 2 ^ 31 := hP.trans (by norm_num)
  have hmean := hscheduled.totalTime_le hint (hscheduled.noOverflow hint (by omega))
  rw [htotal, htasks'] at hmean
  refine ⟨calculateMakespan r.2.2 P, ?_, hmean, hcoupled.card_mul_makespan_le⟩
  unfold wfdMakespan
  rw [simulateWFDAllocation_of_foldlM hrun]
  rfl

/-- Makespans of two orders of the same tasks are no further apart than the share of the
longest task. -/
theorem wfdMakespan_perm [NeZero P] (hP : P ≤ 8) (hperm : tasks.Perm tasks')
    (htimes : ∀ task ∈ tasks, 0 ≤ task.expectedET.toInt)
    (hfits : totalTime tasks < 2 ^ 31 - 1) :
    ∃ M M', wfdMakespan P tasks = .ok M ∧ wfdMakespan P tasks' = .ok M' ∧
      |M - M'| ≤ (1 - 1 / (P : ℚ)) * longestTime tasks := by
  have hpos : (0 : ℚ) < P := by exact_mod_cast Nat.pos_of_neZero P
  rcases wfdMakespan_bounds hP htimes hfits with ⟨M, hM, hlow, hhigh⟩
  rcases wfdMakespan_bounds hP (fun task htask => htimes task (hperm.mem_iff.mpr htask))
    (totalTime_perm hperm ▸ hfits) with ⟨M', hM', hlow', hhigh'⟩
  rw [← totalTime_perm hperm] at hlow' hhigh'
  rw [← longestTime_perm hperm] at hhigh'
  refine ⟨M, M', hM, hM', ?_⟩
  have hshare : (1 - 1 / (P : ℚ)) * longestTime tasks =
      ((P : ℚ) - 1) * longestTime tasks / P := by
    field_simp
  rw [hshare, abs_sub_le_iff, le_div_iff₀ hpos, le_div_iff₀ hpos]
  constructor
  · linarith
  · linarith

/-- How the makespan depends on the order of the tasks: the first tasks are placed without
regard to the later ones; all decreasing orders have the same makespan; and no two orders
of tasks whose loads fit are further apart than the share of the longest task. -/
theorem wfd_order {P : Nat} [NeZero P] (hP : P ≤ 8) (tasks : List Node) :
    (∀ before after, tasks = before ++ after → ∃ L done L' rest,
      simulateWFDAllocation before (generateProcessorList P) WFD.resetLoads = .ok (L, done) ∧
      done.length = before.length ∧
      simulateWFDAllocation tasks (generateProcessorList P) WFD.resetLoads =
        .ok (L', done ++ rest)) ∧
    (∀ tasks₁ tasks₂, tasks.Perm tasks₁ → tasks.Perm tasks₂ → Decreasing tasks₁ →
      Decreasing tasks₂ → wfdMakespan P tasks₁ = wfdMakespan P tasks₂) ∧
    ((∀ task ∈ tasks, 0 ≤ task.expectedET.toInt) → totalTime tasks < 2 ^ 31 - 1 →
      ∀ tasks', tasks.Perm tasks' →
        ∃ M M', wfdMakespan P tasks = .ok M ∧ wfdMakespan P tasks' = .ok M' ∧
          |M - M'| ≤ (1 - 1 / (P : ℚ)) * longestTime tasks) := by
  have hP1 : 1 ≤ P := NeZero.one_le
  refine ⟨?_, ?_, ?_⟩
  · rintro before after rfl
    exact simulateWFDAllocation_append hP1 before after
  · intro tasks₁ tasks₂ hperm₁ hperm₂ h₁ h₂
    exact wfdMakespan_eq_of_times hP1 (times_eq_of_decreasing (hperm₁.symm.trans hperm₂) h₁ h₂)
  · intro htimes hfits tasks' hperm
    exact wfdMakespan_perm hP hperm htimes hfits

/-- Two tasks of one unit of time, and one of two. -/
def shortTasksFirst : List Node :=
  [WFD.taskOf 1, WFD.taskOf 1, WFD.taskOf 2]

/-- The same tasks, the longest one first. -/
def longTaskFirst : List Node :=
  [WFD.taskOf 2, WFD.taskOf 1, WFD.taskOf 1]

theorem shortTasksFirst_perm : shortTasksFirst.Perm longTaskFirst :=
  @List.perm_append_comm _ [WFD.taskOf 1, WFD.taskOf 1] [WFD.taskOf 2]

/-- On two processors their makespans differ by one unit of time at most. -/
theorem wfd_order_shortTasksFirst :
    ∃ M M', wfdMakespan 2 shortTasksFirst = .ok M ∧ wfdMakespan 2 longTaskFirst = .ok M' ∧
      |M - M'| ≤ 1 := by
  rcases (@wfd_order 2 _ (by norm_num) shortTasksFirst).2.2 (by decide) (by decide)
    longTaskFirst shortTasksFirst_perm with ⟨M, M', hM, hM', hshare⟩
  refine ⟨M, M', hM, hM', ?_⟩
  rw [show longestTime shortTasksFirst = 2 from rfl] at hshare
  norm_num at hshare
  exact hshare

/-- And by as much. -/
theorem wfd_dependsOnOrder :
    shortTasksFirst.Perm longTaskFirst ∧ wfdMakespan 2 shortTasksFirst = .ok 3 ∧
      wfdMakespan 2 longTaskFirst = .ok 2 := by
  refine ⟨shortTasksFirst_perm, ?_, ?_⟩
  · decide +kernel
  · decide +kernel

end Simu
end YatCasched
