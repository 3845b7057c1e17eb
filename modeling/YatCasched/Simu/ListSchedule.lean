import Mathlib.Algebra.BigOperators.Fin
import YatCasched.Lib.ListScheduling
import YatCasched.Simu.Schedule

/-!
# Worst-fit allocation as list scheduling

In a simulation that starts from {lit}`resetLoads`, the loads {lit}`WFD` keeps and
the local loads of the simulation agree, so every task goes to a processor that is
free first.

Main results:

- Theorem {lit}`allocate_range`: what a call on the first processors does.
- Theorem {lit}`Coupled.step`: a task keeps both arrays of loads coupled.
- Theorem {lit}`wfd_listScheduling`: the schedule is a list schedule, and its
  makespan is less than twice any other.
-/

namespace YatCasched
namespace Simu

open FirstBest ListScheduling

/-! ## A call on the first processors -/

namespace WFD

variable {P : Nat}

/-- The processors as indices of the array. -/
theorem generateProcessorList_eq_map (hP : P ≤ 8) :
    generateProcessorList P = ((List.finRange P).map (Fin.castLE hP)).map Fin.val := by
  unfold generateProcessorList
  rw [List.map_map, ← List.map_coe_finRange_eq_range]
  rfl

/-- What a call on the first processors does, if one of them is not full: the task
goes to one with the least load, whose load it adds to. -/
theorem allocate_range [NeZero P] (hP : P ≤ 8) (L : Loads) (node : Node)
    (hroom : (L ((0 : Fin P).castLE hP)).toInt < Int32.maxValue.toInt) :
    ∃ i : Fin P, (∀ j : Fin P, (L (i.castLE hP)).toInt ≤ (L (j.castLE hP)).toInt) ∧
      allocate L [node] (generateProcessorList P) = ((i.val : Int),
        Function.update L (i.castLE hP)
          ((L (i.castLE hP)).toInt64 + node.expectedET).toInt32) := by
  rcases foldl_loadRound L ((List.finRange P).map (Fin.castLE hP)) with ⟨load, hfold, _⟩
  rw [← generateProcessorList_eq_map] at hfold
  have hbest := (scan_spec (loadScore L) maxScore ((List.finRange P).map (Fin.castLE hP))).1
  have hmem : ∀ j : Fin P, j.castLE hP ∈ (List.finRange P).map (Fin.castLE hP) := fun j =>
    List.mem_map_of_mem (List.mem_finRange j)
  have hne : generateProcessorList P ≠ [] := generateProcessorList_ne_nil NeZero.one_le
  cases hscan : (scan (loadScore L) maxScore ((List.finRange P).map (Fin.castLE hP))).1 with
  | none =>
      rw [hscan] at hbest
      have hfull := OrderDual.toDual_le_toDual.mp (hbest _ (hmem 0))
      exact absurd hroom (not_lt.mpr hfull)
  | some best =>
      rw [hscan] at hbest hfold
      rcases List.mem_map.mp hbest.mem with ⟨i, _, rfl⟩
      refine ⟨i, ?_, ?_⟩
      · intro j
        exact OrderDual.toDual_le_toDual.mp (hbest.le (hmem j))
      · unfold allocate
        cases hlist : generateProcessorList P with
        | nil => exact absurd hlist hne
        | cons first others =>
            rw [hlist] at hfold
            dsimp only
            rw [hfold]
            rfl

end WFD

/-! ## Coupled loads -/

/-- The sum of the execution times. -/
def totalTime (tasks : List Node) : Int :=
  (tasks.map fun task => task.expectedET.toInt).sum

/-- The longest execution time, 0 of no tasks. -/
def longestTime (tasks : List Node) : Int :=
  tasks.foldl (fun longest task => max longest task.expectedET.toInt) 0

@[simp]
theorem totalTime_append_singleton (tasks : List Node) (task : Node) :
    totalTime (tasks ++ [task]) = totalTime tasks + task.expectedET.toInt := by
  simp [totalTime]

@[simp]
theorem longestTime_append_singleton (tasks : List Node) (task : Node) :
    longestTime (tasks ++ [task]) = max (longestTime tasks) task.expectedET.toInt := by
  simp [longestTime]

theorem totalTime_append (before after : List Node) :
    totalTime (before ++ after) = totalTime before + totalTime after := by
  simp [totalTime]

theorem totalTime_nonneg {tasks : List Node}
    (htimes : ∀ task ∈ tasks, 0 ≤ task.expectedET.toInt) : 0 ≤ totalTime tasks := by
  apply List.sum_nonneg
  intro time htime
  rcases List.mem_map.mp htime with ⟨task, htask, rfl⟩
  exact htimes task htask

/-- One round of {lit}`simulateWFDAllocation`. -/
def wfdRound (P : Nat) :
    WFD.Loads × (ProcId → Int64) × List Node → Node →
      Except JavaException (WFD.Loads × (ProcId → Int64) × List Node) :=
  simulateRound (wfdAllocateTask (generateProcessorList P)) (generateProcessorList P).length

/-- Before the first round. -/
def wfdStart : WFD.Loads × (ProcId → Int64) × List Node :=
  (WFD.resetLoads, fun _ => 0, [])

/-- The allocator and the simulation have the same loads, which are those of a list
schedule of the tasks so far. -/
structure Coupled {P : Nat} (hP : P ≤ 8) (before : List Node)
    (r : WFD.Loads × (ProcId → Int64) × List Node) : Prop where
  agree : ∀ i : Fin P, (r.1 (i.castLE hP)).toInt = (r.2.1 i.val).toInt
  nonneg : ∀ i : Fin P, 0 ≤ (r.2.1 i.val).toInt
  sum : ∑ i : Fin P, (r.2.1 i.val).toInt = totalTime before
  balanced : Balanced (fun i : Fin P => (r.2.1 i.val).toInt) (longestTime before)
  placed : ∀ task ∈ r.2.2, ∃ i : Fin P, task.partition.toInt = (i.val : Int) ∧
    task.finishAt.toInt ≤ (r.2.1 i.val).toInt
  times : ∀ i : Fin P, timeOn r.2.2 i.val = (r.2.1 i.val).toInt

variable {P : Nat} {hP : P ≤ 8} {before : List Node}
  {r : WFD.Loads × (ProcId → Int64) × List Node} {task : Node}

theorem coupled_start (hP : P ≤ 8) : Coupled hP [] wfdStart where
  agree := by
    intro i
    rfl
  nonneg := by
    intro i
    exact le_rfl
  sum := by
    simp [wfdStart, totalTime]
  balanced := balanced_const (0 : Int)
  placed := by
    intro task htask
    cases htask
  times := by
    intro i
    rfl

/-- No load is greater than the sum of the execution times. -/
theorem Coupled.le_totalTime (h : Coupled hP before r) (i : Fin P) :
    (r.2.1 i.val).toInt ≤ totalTime before := by
  rw [← h.sum]
  exact Finset.single_le_sum (f := fun i : Fin P => (r.2.1 i.val).toInt)
    (fun j _ => h.nonneg j) (Finset.mem_univ i)

/-- A task keeps both arrays of loads coupled, as long as the loads fit. -/
theorem Coupled.step [NeZero P] (h : Coupled hP before r) (htime : 0 ≤ task.expectedET.toInt)
    (hfits : totalTime before + task.expectedET.toInt < 2 ^ 31 - 1) :
    ∃ r', wfdRound P r task = .ok r' ∧ Coupled hP (before ++ [task]) r' := by
  rcases r with ⟨processorLoads, busy, done⟩
  have hroom : (processorLoads ((0 : Fin P).castLE hP)).toInt < Int32.maxValue.toInt := by
    have hmax : Int32.maxValue.toInt = 2 ^ 31 - 1 := rfl
    have hle := h.le_totalTime 0
    rw [h.agree 0]
    omega
  rcases WFD.allocate_range hP processorLoads task hroom with ⟨i, hleast, hallocate⟩
  have hle := h.le_totalTime i
  have hnonneg := h.nonneg i
  have hagree := h.agree i
  dsimp only at hle hnonneg hagree
  have hint : i.val < 2 ^ 31 := i.isLt.trans_le (hP.trans (by norm_num))
  have hbusy : (busy i.val + task.expectedET).toInt =
      (busy i.val).toInt + task.expectedET.toInt :=
    MachineInt.toInt_add_of_lt hnonneg htime (by omega)
  have hload : ((processorLoads (i.castLE hP)).toInt64 + task.expectedET).toInt32.toInt =
      (busy i.val).toInt + task.expectedET.toInt := by
    rw [MachineInt.toInt_narrow_add (by omega) htime (by omega), hagree]
  -- the local loads are those of the list schedule
  have hloads : (fun j : Fin P =>
        (Function.update busy i.val (busy i.val + task.expectedET) j.val).toInt) =
      Function.update (fun j : Fin P => (busy j.val).toInt) i
        ((busy i.val).toInt + task.expectedET.toInt) := by
    ext j
    by_cases hji : j = i
    · rw [hji, Function.update_self, Function.update_self, hbusy]
    · rw [Function.update_of_ne hji, Function.update_of_ne (Fin.val_ne_of_ne hji)]
  refine ⟨(Function.update processorLoads (i.castLE hP)
      ((processorLoads (i.castLE hP)).toInt64 + task.expectedET).toInt32,
    Function.update busy i.val (busy i.val + task.expectedET),
    done ++ [scheduledTask busy task i.val]), ?_, ?_⟩
  · unfold wfdRound simulateRound wfdAllocateTask
    dsimp only
    rw [hallocate]
    dsimp only
    rw [if_neg (by omega), Int.toNat_natCast, if_pos]
    rw [show (generateProcessorList P).length = P from List.length_range]
    exact i.isLt
  · constructor
    · intro j
      dsimp only
      by_cases hji : j = i
      · rw [hji, Function.update_self, Function.update_self, hbusy, hload]
      · rw [Function.update_of_ne (fun heq => hji (Fin.castLE_injective hP heq)),
          Function.update_of_ne (Fin.val_ne_of_ne hji)]
        exact h.agree j
    · intro j
      have hj := congrFun hloads j
      dsimp only at hj ⊢
      rw [hj]
      by_cases hji : j = i
      · rw [hji, Function.update_self]
        omega
      · rw [Function.update_of_ne hji]
        exact h.nonneg j
    · dsimp only
      rw [hloads, sum_update_add, totalTime_append_singleton, h.sum]
    · dsimp only
      rw [hloads, longestTime_append_singleton]
      apply h.balanced.assign
      · intro j
        dsimp only
        rw [← hagree, ← h.agree j]
        exact hleast j
      · exact htime
    · intro t ht
      rcases List.mem_append.mp ht with ht | ht
      · rcases h.placed t ht with ⟨j, hj, hfinish⟩
        refine ⟨j, hj, hfinish.trans ?_⟩
        dsimp only
        by_cases hji : j = i
        · rw [hji, Function.update_self, hbusy]
          exact le_add_of_nonneg_right htime
        · rw [Function.update_of_ne (Fin.val_ne_of_ne hji)]
      · rw [List.mem_singleton.mp ht]
        refine ⟨i, scheduledTask_partition hint, ?_⟩
        dsimp only
        rw [Function.update_self]
        exact le_rfl
    · intro j
      have hbefore := h.times j
      dsimp only at hbefore ⊢
      rw [timeOn_append_scheduledTask hint, hbefore]
      by_cases hji : j = i
      · rw [hji, if_pos rfl, Function.update_self, hbusy]
      · rw [if_neg (Fin.val_ne_of_ne hji), add_zero, Function.update_of_ne (Fin.val_ne_of_ne hji)]

/-- So does a whole run. -/
theorem coupled_run [NeZero P] (hP : P ≤ 8) (tasks : List Node)
    (htimes : ∀ task ∈ tasks, 0 ≤ task.expectedET.toInt)
    (hfits : totalTime tasks < 2 ^ 31 - 1) :
    ∃ r, tasks.foldlM (wfdRound P) wfdStart = .ok r ∧ Coupled hP tasks r := by
  apply Run.exists_foldlM (coupled_start hP)
  rintro before task after r rfl hcoupled
  have hafter := totalTime_nonneg fun t ht =>
    htimes t (List.mem_append_right before (List.mem_cons_of_mem task ht))
  rw [List.append_cons, totalTime_append, totalTime_append_singleton] at hfits
  exact hcoupled.step (htimes task (by simp)) (by omega)

/-! ## The makespan -/

/-- The makespan is at most the greatest load. -/
theorem Coupled.makespan_le [NeZero P] (h : Coupled hP before r) {bound : ℚ}
    (hbound : ∀ i : Fin P, ((r.2.1 i.val).toInt : ℚ) ≤ bound) :
    calculateMakespan r.2.2 P ≤ bound := by
  have hspec := calculateMakespan_spec fun task htask => by
    rcases h.placed task htask with ⟨i, hi, _⟩
    exact (⟨i.val, i.isLt, hi⟩ : ∃ p : ProcId, p < P ∧ task.partition.toInt = (p : Int))
  rcases hspec.2.2 with hzero | ⟨task, htask, heq⟩
  · rw [hzero]
    refine le_trans ?_ (hbound 0)
    exact_mod_cast h.nonneg 0
  · rcases h.placed task htask with ⟨i, _, hfinish⟩
    rw [heq]
    refine le_trans ?_ (hbound i)
    exact_mod_cast hfinish

/-- The makespan is at most the mean load and the share of the longest task. -/
theorem Coupled.card_mul_makespan_le [NeZero P] (h : Coupled hP before r) :
    (P : ℚ) * calculateMakespan r.2.2 P ≤
      totalTime before + ((P : ℚ) - 1) * longestTime before := by
  have hpos : (0 : ℚ) < P := by exact_mod_cast Nat.pos_of_neZero P
  have hmakespan : calculateMakespan r.2.2 P ≤
      (totalTime before + ((P : ℚ) - 1) * longestTime before) / P := by
    apply h.makespan_le
    intro i
    have hle := h.balanced.card_mul_le i
    rw [h.sum, Fintype.card_fin] at hle
    rw [le_div_iff₀ hpos, mul_comm]
    exact_mod_cast hle
  rw [le_div_iff₀ hpos, mul_comm] at hmakespan
  exact hmakespan

/-- The execution times by position. -/
def timeOf (tasks : List Node) (k : Fin tasks.length) : Int :=
  (tasks.get k).expectedET.toInt

theorem sum_timeOf (tasks : List Node) : ∑ k, timeOf tasks k = totalTime tasks :=
  Fin.sum_univ_fun_getElem tasks fun task => task.expectedET.toInt

theorem longestTime_le {tasks : List Node} {bound : Int} (hbound : 0 ≤ bound)
    (htasks : ∀ task ∈ tasks, task.expectedET.toInt ≤ bound) : longestTime tasks ≤ bound := by
  induction tasks using List.reverseRecOn with
  | nil => exact hbound
  | append_singleton tasks task ih =>
      rw [longestTime_append_singleton]
      exact max_le (ih fun t ht => htasks t (List.mem_append_left _ ht)) (htasks task (by simp))

/-- The longest task takes no longer than any assignment. -/
theorem longestTime_le_makespan [NeZero P] {tasks : List Node}
    (htimes : ∀ task ∈ tasks, 0 ≤ task.expectedET.toInt)
    (machine : Fin tasks.length → Fin P) :
    longestTime tasks ≤ makespan (timeOf tasks) machine := by
  have hnonneg : ∀ k, 0 ≤ timeOf tasks k := fun k => htimes _ (List.get_mem tasks k)
  apply longestTime_le (makespan_nonneg machine hnonneg)
  intro task htask
  rcases List.mem_iff_get.mp htask with ⟨k, rfl⟩
  exact time_le_makespan machine hnonneg k

/-- The simulation of the tasks is their rounds. -/
theorem simulateWFDAllocation_of_foldlM {tasks : List Node}
    (hrun : tasks.foldlM (wfdRound P) wfdStart = .ok r) :
    simulateWFDAllocation tasks (generateProcessorList P) WFD.resetLoads = .ok (r.1, r.2.2) :=
  simulateAllocation_of_foldlM hrun

/-- The greedy guarantee.  After every task both arrays of loads agree, and no two
loads differ by more than the longest task so far.  In the end the makespan is at
most the mean load and the share of the longest task, so less than twice that of
any other assignment. -/
theorem wfd_listScheduling {P : Nat} [NeZero P] (hP : P ≤ 8) {tasks : List Node}
    (htimes : ∀ task ∈ tasks, 0 ≤ task.expectedET.toInt)
    (hfits : totalTime tasks < 2 ^ 31 - 1) :
    (∀ before after, tasks = before ++ after → ∃ processorLoads busy done,
      before.foldlM (wfdRound P) wfdStart = .ok (processorLoads, busy, done) ∧
      simulateWFDAllocation before (generateProcessorList P) WFD.resetLoads =
        .ok (processorLoads, done) ∧
      (∀ i : Fin P, (processorLoads (i.castLE hP)).toInt = (busy i.val).toInt) ∧
      ∀ i j : Fin P, (busy i.val).toInt - (busy j.val).toInt ≤ longestTime before) ∧
    ∃ processorLoads tasks',
      simulateWFDAllocation tasks (generateProcessorList P) WFD.resetLoads =
        .ok (processorLoads, tasks') ∧
      (P : ℚ) * calculateMakespan tasks' P ≤
        totalTime tasks + ((P : ℚ) - 1) * longestTime tasks ∧
      ∀ machine : Fin tasks.length → Fin P,
        calculateMakespan tasks' P ≤ (2 - 1 / (P : ℚ)) * makespan (timeOf tasks) machine := by
  constructor
  · rintro before after rfl
    rw [totalTime_append] at hfits
    have hafter := totalTime_nonneg fun task htask =>
      htimes task (List.mem_append_right before htask)
    rcases coupled_run hP before (fun task htask => htimes task (List.mem_append_left _ htask))
      (by omega) with ⟨r, hrun, hcoupled⟩
    exact ⟨r.1, r.2.1, r.2.2, hrun, simulateWFDAllocation_of_foldlM hrun, hcoupled.agree,
      hcoupled.balanced⟩
  · rcases coupled_run hP tasks htimes hfits with ⟨r, hrun, hcoupled⟩
    have hpos : (0 : ℚ) < P := by exact_mod_cast Nat.pos_of_neZero P
    refine ⟨r.1, r.2.2, simulateWFDAllocation_of_foldlM hrun, hcoupled.card_mul_makespan_le, ?_⟩
    intro machine
    apply hcoupled.makespan_le
    intro i
    have hle := hcoupled.balanced.card_mul_le_makespan machine
      (hcoupled.sum.trans (sum_timeOf tasks).symm) (longestTime_le_makespan htimes machine) i
    rw [Fintype.card_fin] at hle
    have hle' : (P : ℚ) * (r.2.1 i.val).toInt ≤
        (2 * (P : ℚ) - 1) * makespan (timeOf tasks) machine := by exact_mod_cast hle
    have hfactor : (2 - 1 / (P : ℚ)) * makespan (timeOf tasks) machine =
        (2 * (P : ℚ) - 1) * makespan (timeOf tasks) machine / P := by
      field_simp
    rw [hfactor, le_div_iff₀ hpos, mul_comm]
    exact hle'

/-- Three tasks of one unit of time on two processors take two units. -/
theorem wfd_listScheduling_unitTasks :
    ∃ processorLoads tasks',
      simulateWFDAllocation [unitTask, unitTask, unitTask] (generateProcessorList 2)
        WFD.resetLoads = .ok (processorLoads, tasks') ∧
      2 * calculateMakespan tasks' 2 ≤ 4 := by
  rcases (@wfd_listScheduling 2 _ (by norm_num) [unitTask, unitTask, unitTask]
    (by decide) (by decide)).2 with ⟨processorLoads, tasks', hrun, hmakespan, _⟩
  refine ⟨processorLoads, tasks', hrun, ?_⟩
  rw [show totalTime [unitTask, unitTask, unitTask] = 3 from rfl,
    show longestTime [unitTask, unitTask, unitTask] = 1 from rfl] at hmakespan
  norm_num at hmakespan
  exact hmakespan

end Simu
end YatCasched
