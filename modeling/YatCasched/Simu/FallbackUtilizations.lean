import Mathlib.Data.Rat.Cast.Order
import Mathlib.Tactic.Linarith
import Mathlib.Tactic.NormNum
import YatCasched.Simu.UUnifast

/-!
# Fallback utilisations

{lit}`EnhancedTaskGenerator` splits the utilisation itself when {lit}`UUnifastDiscard`
returns null: every task takes a part of what is left, at most 0.8, and the last one takes
the rest.  Nothing compares that rest with the number of cores.

Main results:

- Theorem {lit}`fallbackLoop_spec`: what the loop leaves.
- Theorem {lit}`generateFallbackUtilizations_splits`: the list adds up to the total.
- Theorem {lit}`fallback_honours_iff`: when its entries are in range.
-/

namespace YatCasched
namespace Simu

open Shares UUnifastDiscard

variable {α : Type*} [Field α] [LinearOrder α]

/-! ## The loop -/

/-- The loop of {lit}`generateFallbackUtilizations`, with a number of tasks left, after a
number of draws: what remains, and the list. -/
def fallbackLoop (draws : Draws α) : ℕ → ℕ → α → List α → α × List α
  | 0, _, remaining, utils => (remaining, utils)
  | k + 1, pos, remaining, utils =>
      let maxUtil := min remaining 1
      let util := (draws.nextDouble pos : α) * maxUtil * 0.8
      fallbackLoop draws k (pos + 1) (remaining - util) (utils ++ [util])

/-- {lit}`generateFallbackUtilizations`. -/
def generateFallbackUtilizations (draws : Draws α) (pos taskCount : ℕ) (totalUtil : α) :
    List α :=
  let r := fallbackLoop draws (taskCount - 1) pos totalUtil []
  r.2 ++ [max 0 r.1]

/-- The sum of some draws. -/
def drawnSum (draws : Draws α) (pos k : ℕ) : α :=
  ∑ i ∈ Finset.range k, (draws.nextDouble (pos + i) : α)

/-- What the list of utilisations is for: one for each task, all between 0 and the number
of cores, and together no more than the total. -/
structure Honours (cores taskCount : ℕ) (totalUtil : α) (utils : List α) : Prop where
  length_eq : utils.length = taskCount
  mem_range : ∀ util ∈ utils, 0 ≤ util ∧ util ≤ cores
  sum_le : utils.sum ≤ totalUtil

theorem drawnSum_succ (draws : Draws α) (pos k : ℕ) :
    drawnSum draws pos (k + 1) = draws.nextDouble pos + drawnSum draws (pos + 1) k := by
  unfold drawnSum
  rw [Finset.sum_range_succ', add_comm]
  congr 1
  apply Finset.sum_congr rfl
  intro i _
  rw [show pos + (i + 1) = pos + 1 + i by omega]

variable [IsStrictOrderedRing α] {draws : Draws α} {totalUtil remaining : α} {utils : List α}

/-- What one task takes: no more than 0.8, nor than what remains. -/
theorem fallbackUtil_bounds (draws : Draws α) (pos : ℕ) (h : 0 ≤ remaining) :
    0 ≤ (draws.nextDouble pos : α) * min remaining 1 * 0.8 ∧
      (draws.nextDouble pos : α) * min remaining 1 * 0.8 ≤ 0.8 * draws.nextDouble pos ∧
      (draws.nextDouble pos : α) * min remaining 1 * 0.8 ≤ remaining ∧
      (draws.nextDouble pos : α) * min remaining 1 * 0.8 ≤ 1 := by
  have hdraw : (0 : α) ≤ draws.nextDouble pos := by
    exact_mod_cast draws.nextDouble_nonneg pos
  have hdraw' : (draws.nextDouble pos : α) ≤ 1 := by
    exact_mod_cast (draws.nextDouble_lt_one pos).le
  have hmin : 0 ≤ min remaining 1 := le_min h zero_le_one
  have hproduct : 0 ≤ (draws.nextDouble pos : α) * min remaining 1 := mul_nonneg hdraw hmin
  have hleft : (draws.nextDouble pos : α) * min remaining 1 ≤ draws.nextDouble pos :=
    mul_le_of_le_one_right hdraw (min_le_right _ _)
  have hright : (draws.nextDouble pos : α) * min remaining 1 ≤ min remaining 1 :=
    mul_le_of_le_one_left hmin hdraw'
  have hrest : (draws.nextDouble pos : α) * min remaining 1 ≤ remaining :=
    hright.trans (min_le_left _ _)
  have hone : (draws.nextDouble pos : α) * min remaining 1 ≤ 1 :=
    hright.trans (min_le_right _ _)
  norm_num
  refine ⟨hproduct, ?_, ?_, ?_⟩
  all_goals linarith

/-- What the loop makes of a total: as long as 1 remains every task takes 0.8 of its draw. -/
structure FallbackSpec (draws : Draws α) (k pos : ℕ) (totalUtil remaining : α) (utils : List α)
    (r : α × List α) : Prop where
  splits : Splits totalUtil r.2 r.1
  length_eq : r.2.length = utils.length + k
  le_one : ∀ util ∈ r.2, util ∈ utils ∨ util ≤ 1
  le_remaining : r.1 ≤ remaining
  ge : remaining - 0.8 * drawnSum draws pos k ≤ r.1
  eq_or_le_one : r.1 = remaining - 0.8 * drawnSum draws pos k ∨ r.1 ≤ 1

theorem fallbackLoop_spec (draws : Draws α) (h : Splits totalUtil utils remaining) (k pos : ℕ) :
    FallbackSpec draws k pos totalUtil remaining utils
      (fallbackLoop draws k pos remaining utils) := by
  induction k generalizing pos remaining utils with
  | zero =>
      have hzero : remaining - 0.8 * drawnSum draws pos 0 = remaining := by
        simp [drawnSum]
      exact ⟨h, rfl, fun util hutil => Or.inl hutil, le_rfl, hzero.le, Or.inl hzero.symm⟩
  | succ k ih =>
      rcases fallbackUtil_bounds draws pos h.rest_nonneg with ⟨hnonneg, hdraw, hrest, hone⟩
      have hlater := ih (h.append_singleton hnonneg hrest) (pos + 1)
      rw [fallbackLoop]
      constructor
      case splits => exact hlater.splits
      case length_eq =>
        rw [hlater.length_eq, List.length_append, List.length_singleton]
        omega
      case le_one =>
        intro util hutil
        rcases hlater.le_one util hutil with hutil | hutil
        · rcases List.mem_append.mp hutil with hutil | hutil
          · exact Or.inl hutil
          · rw [List.mem_singleton.mp hutil]
            exact Or.inr hone
        · exact Or.inr hutil
      case le_remaining => exact hlater.le_remaining.trans (sub_le_self _ hnonneg)
      case ge =>
        have hge := hlater.ge
        rw [drawnSum_succ]
        linarith
      case eq_or_le_one =>
        by_cases hle : remaining ≤ 1
        · exact Or.inr ((hlater.le_remaining.trans (sub_le_self _ hnonneg)).trans hle)
        · rcases hlater.eq_or_le_one with heq | hlast
          · left
            rw [heq, drawnSum_succ, min_eq_right (not_le.mp hle).le]
            ring
          · exact Or.inr hlast

/-! ## The list -/

/-- What remains is never negative, so the last task takes just that. -/
theorem generateFallbackUtilizations_eq (h : 0 ≤ totalUtil) (draws : Draws α)
    (pos taskCount : ℕ) :
    generateFallbackUtilizations draws pos taskCount totalUtil =
      (fallbackLoop draws (taskCount - 1) pos totalUtil []).2 ++
        [(fallbackLoop draws (taskCount - 1) pos totalUtil []).1] := by
  have hspec := fallbackLoop_spec draws (splits_nil h) (taskCount - 1) pos
  unfold generateFallbackUtilizations
  dsimp only
  rw [max_eq_right hspec.splits.rest_nonneg]

theorem length_generateFallbackUtilizations (h : 0 ≤ totalUtil) (draws : Draws α) (pos : ℕ)
    {taskCount : ℕ} (hcount : 1 ≤ taskCount) :
    (generateFallbackUtilizations draws pos taskCount totalUtil).length = taskCount := by
  have hspec := fallbackLoop_spec draws (splits_nil h) (taskCount - 1) pos
  rw [generateFallbackUtilizations_eq h, List.length_append, hspec.length_eq, List.length_nil,
    List.length_singleton]
  omega

/-- The list adds up to the total. -/
theorem generateFallbackUtilizations_splits (h : 0 ≤ totalUtil) (draws : Draws α)
    (pos taskCount : ℕ) :
    Splits totalUtil (generateFallbackUtilizations draws pos taskCount totalUtil) 0 := by
  rw [generateFallbackUtilizations_eq h]
  exact (fallbackLoop_spec draws (splits_nil h) (taskCount - 1) pos).splits.append_rest

/-- If the total exceeds the number of cores, the entries are in range exactly if there is
a core, and the rest the draws leave is not too great. -/
theorem honours_iff (h : 0 ≤ totalUtil) (pos : ℕ) {taskCount : ℕ} (hcount : 1 ≤ taskCount)
    {cores : ℕ} (hover : (cores : α) < totalUtil) :
    Honours cores taskCount totalUtil (generateFallbackUtilizations draws pos taskCount totalUtil) ↔
      1 ≤ cores ∧ totalUtil - 0.8 * drawnSum draws pos (taskCount - 1) ≤ cores := by
  have hspec := fallbackLoop_spec draws (splits_nil h) (taskCount - 1) pos
  have hsplits := generateFallbackUtilizations_splits h draws pos taskCount
  have hsum : (generateFallbackUtilizations draws pos taskCount totalUtil).sum = totalUtil := by
    have hadd := hsplits.sum_add_rest
    rwa [add_zero] at hadd
  have hlist := generateFallbackUtilizations_eq h draws pos taskCount
  constructor
  · intro hhonours
    have hlast := (hhonours.mem_range (fallbackLoop draws (taskCount - 1) pos totalUtil []).1
      (by rw [hlist]; simp)).2
    refine ⟨?_, hspec.ge.trans hlast⟩
    by_contra hnone
    have hzero : cores = 0 := by omega
    -- without cores all entries would be zero
    have hnonpos := List.sum_le_card_nsmul
      (generateFallbackUtilizations draws pos taskCount totalUtil) 0 fun util hutil => by
      have hle := (hhonours.mem_range util hutil).2
      rwa [hzero, Nat.cast_zero] at hle
    rw [hsum, nsmul_zero] at hnonpos
    rw [hzero, Nat.cast_zero] at hover
    exact absurd hover (not_lt.mpr hnonpos)
  · rintro ⟨hcores, hrest⟩
    have hcores : (1 : α) ≤ cores := by exact_mod_cast hcores
    refine ⟨length_generateFallbackUtilizations h draws pos hcount, ?_, hsum.le⟩
    intro util hutil
    refine ⟨hsplits.nonneg util hutil, ?_⟩
    rw [hlist] at hutil
    rcases List.mem_append.mp hutil with hutil | hutil
    · rcases hspec.le_one util hutil with hnil | hle
      · cases hnil
      · exact hle.trans hcores
    · rw [List.mem_singleton.mp hutil]
      rcases hspec.eq_or_le_one with heq | hle
      · rw [heq]
        exact hrest
      · exact hle.trans hcores

/-! ## After all attempts have been rejected -/

/-- Attempts are rejected only of a total that exceeds the number of cores. -/
theorem lt_of_getUtils_eq_null (h : 0 ≤ totalUtil) {taskCount : ℕ} (hcount : 1 ≤ taskCount)
    {cores pos : ℕ}
    (hnull : (getUtils draws (.new totalUtil taskCount 1000 cores false) pos).1 = .null) :
    (cores : α) < totalUtil := by
  by_contra hle
  have hcontract := contract_getUtils (u := .new totalUtil taskCount 1000 cores false) h hcount
    draws pos
  have hrejected := hcontract.null_iff.mp hnull 0 (by decide : 0 < 1000)
  exact hrejected (fits_of_total_le h (fun i => ⟨draws.root_nonneg _ _, draws.root_le_one _ _⟩)
    (not_lt.mp hle) _)

/-- When {lit}`getUtils` has returned null, the fallback list honours the contract exactly
if there is a core, and what is left after 0.8 of every draw does not exceed the cores. -/
theorem fallback_honours_iff (draws : Draws α) {totalUtil : α} (hutil : 0 ≤ totalUtil)
    {taskCount : ℕ} (hcount : 1 ≤ taskCount) (cores pos : ℕ)
    (hnull : (getUtils draws (.new totalUtil taskCount 1000 cores false) pos).1 = .null) :
    Honours cores taskCount totalUtil
        (generateFallbackUtilizations draws
          (getUtils draws (.new totalUtil taskCount 1000 cores false) pos).2.2 taskCount
          totalUtil) ↔
      1 ≤ cores ∧
        totalUtil - 0.8 * drawnSum draws
          (getUtils draws (.new totalUtil taskCount 1000 cores false) pos).2.2
          (taskCount - 1) ≤ cores :=
  honours_iff hutil _ hcount (lt_of_getUtils_eq_null hutil hcount hnull)

/-- A generator whose first thousand draws are zeros, and all others 0.9. -/
def lateDraws : Draws ℚ where
  nextDouble i := if i < 1000 then 0 else 0.9
  root i _ := if i < 1000 then 0 else 0.9
  nextInt _ _ := 0
  nextDouble_nonneg i := by
    split
    · exact le_rfl
    · norm_num
  nextDouble_lt_one i := by
    split
    · exact zero_lt_one
    · norm_num
  root_nonneg i _ := by
    split
    · exact le_rfl
    · norm_num
  root_le_one i _ := by
    split
    · exact zero_le_one
    · norm_num
  nextInt_lt _ _ hbound := hbound

/-- After a thousand zeros a utilisation of 1.5 is split well between two tasks on one
core. -/
theorem fallback_honours_iff_lateDraws :
    Honours 1 2 (1.5 : ℚ) (generateFallbackUtilizations lateDraws
      (getUtils lateDraws (.new 1.5 2 1000 1 false) 0).2.2 2 1.5) := by
  have hzeros := getUtils_of_zeros lateDraws (.new 1.5 2 1000 1 false) 0
    (fun j hj => if_pos (by rwa [zero_add])) (by decide)
    (by norm_num [UUnifastDiscard.new])
  rw [fallback_honours_iff lateDraws (by norm_num) one_le_two 1 0 hzeros.1, hzeros.2]
  refine ⟨le_rfl, ?_⟩
  norm_num [drawnSum, lateDraws, UUnifastDiscard.new]

/-- One task gets all of a utilisation of 3 on one core. -/
theorem fallback_exceedsCores :
    (getUtils zeroDraws (.new 3 1 1000 1 false) 0).1 = .null ∧
      ¬Honours 1 1 3 (generateFallbackUtilizations zeroDraws
        (getUtils zeroDraws (.new 3 1 1000 1 false) 0).2.2 1 3) := by
  have hzeros := getUtils_of_zeros zeroDraws (.new 3 1 1000 1 false) 0
    (fun _ _ => rfl) (by decide) (by norm_num [UUnifastDiscard.new])
  refine ⟨hzeros.1, ?_⟩
  intro hhonours
  have hrange := hhonours.mem_range 3 (by
    simp [generateFallbackUtilizations, fallbackLoop])
  norm_num at hrange

end Simu
end YatCasched
