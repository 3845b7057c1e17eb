import Mathlib.Algebra.BigOperators.Ring.Finset
import Mathlib.Algebra.Order.BigOperators.Ring.Finset
import Mathlib.Data.Finset.Lattice.Fold
import Mathlib.Tactic.Linarith

/-!
# List scheduling

Jobs are given to machines one after the other, each to a machine with the least
load.  The loads then never differ by more than the longest job, so the greatest
load is less than twice what any other assignment achieves.

Main results:

- Theorem {lit}`Balanced.assign`: the greedy choice keeps the loads balanced.
- Theorem {lit}`Balanced.sub`: so do the gains of loads that stay balanced.
- Theorem {lit}`Balanced.card_mul_le`: balanced loads are close to their mean.
- Theorem {lit}`Balanced.card_mul_le_makespan`: and to every other assignment.
-/

namespace YatCasched
namespace ListScheduling

variable {ι κ α : Type*} [CommRing α] [LinearOrder α]

/-! ## Balanced loads -/

/-- No two loads differ by more than {lit}`longest`. -/
def Balanced (loads : ι → α) (longest : α) : Prop :=
  ∀ i j, loads i - loads j ≤ longest

variable {loads : ι → α} {longest time : α} {i : ι}

/-- What balanced loads have gained since they were balanced before is balanced. -/
theorem Balanced.sub [IsStrictOrderedRing α] {loads' : ι → α} {longest' : α}
    (h : Balanced loads longest) (h' : Balanced loads' longest') :
    Balanced (fun i => loads' i - loads i) (longest' + longest) := by
  intro i j
  have hbefore := h j i
  have hafter := h' i j
  linarith

/-- Equal loads are balanced. -/
theorem balanced_const (load : α) : Balanced (fun _ : ι => load) 0 := by
  intro i j
  simp

variable [DecidableEq ι] [IsStrictOrderedRing α]

/-- The next job goes to a machine with the least load. -/
theorem Balanced.assign (h : Balanced loads longest) (hleast : ∀ j, loads i ≤ loads j)
    (htime : 0 ≤ time) :
    Balanced (Function.update loads i (loads i + time)) (max longest time) := by
  intro j k
  have hlongest : longest ≤ max longest time := le_max_left longest time
  have htime' : time ≤ max longest time := le_max_right longest time
  by_cases hj : j = i
  · by_cases hk : k = i
    · simp [hj, hk, htime]
    · rw [hj, Function.update_self, Function.update_of_ne hk]
      have hle := hleast k
      linarith
  · by_cases hk : k = i
    · rw [hk, Function.update_self, Function.update_of_ne hj]
      have hle := h j i
      linarith
    · rw [Function.update_of_ne hj, Function.update_of_ne hk]
      exact (h j k).trans hlongest

variable [Fintype ι]

omit [LinearOrder α] [IsStrictOrderedRing α] in
/-- The next job adds its time to the sum of the loads. -/
theorem sum_update_add (loads : ι → α) (i : ι) (time : α) :
    ∑ j, Function.update loads i (loads i + time) j = ∑ j, loads j + time := by
  rw [Finset.sum_update_of_mem (Finset.mem_univ i), ← Finset.add_sum_erase _ _ (Finset.mem_univ i),
    Finset.sdiff_singleton_eq_erase]
  ring

/-- A load is at most the mean and the longest job, but for its own share. -/
theorem Balanced.card_mul_le (h : Balanced loads longest) (i : ι) :
    (Fintype.card ι : α) * loads i ≤
      ∑ j, loads j + ((Fintype.card ι : α) - 1) * longest := by
  have hcard : ((Finset.univ.erase i).card : α) = (Fintype.card ι : α) - 1 := by
    rw [Finset.card_erase_of_mem (Finset.mem_univ i), Finset.card_univ,
      Nat.cast_pred (Fintype.card_pos_iff.mpr ⟨i⟩)]
  have hothers : ∑ _j ∈ Finset.univ.erase i, loads i ≤
      ∑ j ∈ Finset.univ.erase i, (loads j + longest) := by
    apply Finset.sum_le_sum
    intro j _
    have hle := h i j
    linarith
  rw [Finset.sum_add_distrib, Finset.sum_const, Finset.sum_const, nsmul_eq_mul, nsmul_eq_mul,
    hcard] at hothers
  rw [← Finset.add_sum_erase _ _ (Finset.mem_univ i)]
  linarith

/-! ## Assignments -/

section Assignment

variable [Fintype κ]

/-- The time a machine takes for its jobs. -/
def machineTime (time : κ → α) (machine : κ → ι) (i : ι) : α :=
  ∑ k with machine k = i, time k

/-- The time the busiest machine takes. -/
def makespan [Nonempty ι] (time : κ → α) (machine : κ → ι) : α :=
  Finset.univ.sup' Finset.univ_nonempty (machineTime time machine)

variable {times : κ → α} (machine : κ → ι)

omit [IsStrictOrderedRing α] [LinearOrder α] in
theorem sum_machineTime (times : κ → α) :
    ∑ i, machineTime times machine i = ∑ k, times k :=
  Finset.sum_fiberwise Finset.univ machine times

variable [Nonempty ι]

omit [IsStrictOrderedRing α] in
theorem machineTime_le_makespan (times : κ → α) (i : ι) :
    machineTime times machine i ≤ makespan times machine :=
  Finset.le_sup' (machineTime times machine) (Finset.mem_univ i)

/-- No assignment takes less than the mean. -/
theorem sum_le_card_mul_makespan (times : κ → α) :
    ∑ k, times k ≤ (Fintype.card ι : α) * makespan times machine := by
  rw [← sum_machineTime machine, ← nsmul_eq_mul]
  exact Finset.sum_le_card_nsmul _ _ _ fun i _ => machineTime_le_makespan machine times i

/-- No assignment takes less than one of the jobs. -/
theorem time_le_makespan (htimes : ∀ k, 0 ≤ times k) (k : κ) :
    times k ≤ makespan times machine := by
  have hmem : k ∈ Finset.univ.filter fun l => machine l = machine k := by simp
  calc
    times k ≤ machineTime times machine (machine k) :=
      Finset.single_le_sum (fun l _ => htimes l) hmem
    _ ≤ makespan times machine := machineTime_le_makespan machine times (machine k)

theorem makespan_nonneg (htimes : ∀ k, 0 ≤ times k) : 0 ≤ makespan times machine := by
  have hnonneg : 0 ≤ machineTime times machine (Classical.arbitrary ι) :=
    Finset.sum_nonneg fun k _ => htimes k
  exact hnonneg.trans (machineTime_le_makespan machine times _)

/-- Balanced loads of the same jobs are less than twice any makespan. -/
theorem Balanced.card_mul_le_makespan (h : Balanced loads longest)
    (hsum : ∑ i, loads i = ∑ k, times k) (hlongest : longest ≤ makespan times machine) (i : ι) :
    (Fintype.card ι : α) * loads i ≤
      (2 * (Fintype.card ι : α) - 1) * makespan times machine := by
  have hmean := sum_le_card_mul_makespan machine times
  have hcard : (0 : α) ≤ (Fintype.card ι : α) - 1 := by
    rw [sub_nonneg]
    exact_mod_cast (Fintype.card_pos (α := ι))
  have hshare : ((Fintype.card ι : α) - 1) * longest ≤
      ((Fintype.card ι : α) - 1) * makespan times machine :=
    mul_le_mul_of_nonneg_left hlongest hcard
  calc
    (Fintype.card ι : α) * loads i
      ≤ ∑ j, loads j + ((Fintype.card ι : α) - 1) * longest := h.card_mul_le i
    _ ≤ (Fintype.card ι : α) * makespan times machine +
        ((Fintype.card ι : α) - 1) * makespan times machine := by
      rw [hsum]
      exact add_le_add hmean hshare
    _ = (2 * (Fintype.card ι : α) - 1) * makespan times machine := by ring

end Assignment

end ListScheduling
end YatCasched
