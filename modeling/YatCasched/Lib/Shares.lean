import Mathlib.Algebra.BigOperators.Intervals
import Mathlib.Algebra.Order.BigOperators.Group.List
import Mathlib.Algebra.Order.BigOperators.Ring.Finset
import Mathlib.Algebra.Order.Field.Basic
import Mathlib.Data.List.Find

/-!
# Splitting a total

A total is split share by share: each share is taken from what the ones before it have
left.  If every factor says which part of the rest stays, the shares are differences of
products.

Main results:

- Theorem {lit}`Splits.append_singleton`: taking one more share.
- Theorem {lit}`splits_shares`: the shares a sequence of factors leaves.
- Theorem {lit}`fits_iff`: when no share, nor the rest, exceeds a bound.
-/

namespace YatCasched
namespace Shares

variable {α : Type*} [Field α] [LinearOrder α]

/-! ## Shares and what they leave -/

/-- The shares have been taken from the total, and leave the rest. -/
structure Splits (total : α) (shares : List α) (rest : α) : Prop where
  nonneg : ∀ share ∈ shares, 0 ≤ share
  rest_nonneg : 0 ≤ rest
  sum_add_rest : shares.sum + rest = total

variable {total rest share bound : α} {shares : List α}

theorem splits_nil (h : 0 ≤ total) : Splits total [] total where
  nonneg := by
    intro share hshare
    cases hshare
  rest_nonneg := h
  sum_add_rest := by
    simp

variable [IsStrictOrderedRing α]

/-- Taking one more share. -/
theorem Splits.append_singleton (h : Splits total shares rest) (hshare : 0 ≤ share)
    (hle : share ≤ rest) : Splits total (shares ++ [share]) (rest - share) where
  nonneg := by
    intro x hx
    rcases List.mem_append.mp hx with hx | hx
    · exact h.nonneg x hx
    · rw [List.mem_singleton.mp hx]
      exact hshare
  rest_nonneg := sub_nonneg.mpr hle
  sum_add_rest := by
    rw [List.sum_append, List.sum_singleton, ← h.sum_add_rest]
    ring

/-- Taking all that is left. -/
theorem Splits.append_rest (h : Splits total shares rest) : Splits total (shares ++ [rest]) 0 := by
  simpa using h.append_singleton h.rest_nonneg le_rfl

/-- The shares do not exceed the total, -/
theorem Splits.sum_le (h : Splits total shares rest) : shares.sum ≤ total := by
  rw [← h.sum_add_rest]
  exact le_add_of_nonneg_right h.rest_nonneg

/-- nor does the rest. -/
theorem Splits.rest_le (h : Splits total shares rest) : rest ≤ total := by
  rw [← h.sum_add_rest]
  exact le_add_of_nonneg_left (List.sum_nonneg h.nonneg)

/-! ## Factors -/

/-- What the first factors leave of the total. -/
def leaves (total : α) (factor : ℕ → α) (k : ℕ) : α :=
  total * ∏ i ∈ Finset.range k, factor i

/-- The share that is taken at a factor. -/
def shareAt (total : α) (factor : ℕ → α) (k : ℕ) : α :=
  leaves total factor k - leaves total factor (k + 1)

variable {factor : ℕ → α}

omit [LinearOrder α] [IsStrictOrderedRing α] in
theorem leaves_zero (total : α) (factor : ℕ → α) : leaves total factor 0 = total := by
  simp [leaves]

omit [LinearOrder α] [IsStrictOrderedRing α] in
theorem leaves_succ (total : α) (factor : ℕ → α) (k : ℕ) :
    leaves total factor (k + 1) = leaves total factor k * factor k := by
  unfold leaves
  rw [Finset.prod_range_succ, mul_assoc]

omit [LinearOrder α] [IsStrictOrderedRing α] in
/-- The first factor can be applied to the total. -/
theorem leaves_succ' (total : α) (factor : ℕ → α) (k : ℕ) :
    leaves total factor (k + 1) = leaves (total * factor 0) (fun i => factor (i + 1)) k := by
  unfold leaves
  rw [Finset.prod_range_succ', mul_assoc, mul_comm (factor 0)]

omit [LinearOrder α] [IsStrictOrderedRing α] in
theorem shareAt_succ' (total : α) (factor : ℕ → α) (k : ℕ) :
    shareAt total factor (k + 1) = shareAt (total * factor 0) (fun i => factor (i + 1)) k := by
  unfold shareAt
  rw [leaves_succ', leaves_succ']

omit [LinearOrder α] [IsStrictOrderedRing α] in
theorem shareAt_zero (total : α) (factor : ℕ → α) :
    shareAt total factor 0 = total - total * factor 0 := by
  unfold shareAt
  rw [leaves_succ, leaves_zero]

/-- The shares that factors between 0 and 1 take from a total. -/
theorem splits_shares (htotal : 0 ≤ total) (hfactor : ∀ i, 0 ≤ factor i ∧ factor i ≤ 1) (k : ℕ) :
    Splits total ((List.range k).map (shareAt total factor)) (leaves total factor k) := by
  induction k with
  | zero =>
      rw [leaves_zero]
      exact splits_nil htotal
  | succ k ih =>
      have hnext : leaves total factor (k + 1) =
          leaves total factor k - shareAt total factor k := by
        unfold shareAt
        ring
      have hle : leaves total factor (k + 1) ≤ leaves total factor k := by
        rw [leaves_succ]
        exact mul_le_of_le_one_right ih.rest_nonneg (hfactor k).2
      have hnonneg : 0 ≤ leaves total factor (k + 1) := by
        rw [leaves_succ]
        exact mul_nonneg ih.rest_nonneg (hfactor k).1
      rw [List.range_succ, List.map_append, List.map_singleton, hnext]
      apply ih.append_singleton
      · exact sub_nonneg.mpr hle
      · unfold shareAt
        exact sub_le_self _ hnonneg

/-! ## A bound on the shares -/

/-- No share up to a factor, nor what is left, exceeds the bound. -/
def Fits (total : α) (factor : ℕ → α) (bound : α) (k : ℕ) : Prop :=
  (∀ i, i < k → shareAt total factor i ≤ bound) ∧ leaves total factor k ≤ bound

/-- The first share that exceeds the bound. -/
def firstOver (total : α) (factor : ℕ → α) (bound : α) (k : ℕ) : Option ℕ :=
  (List.range k).find? fun i => decide (bound < shareAt total factor i)

omit [IsStrictOrderedRing α] in
theorem firstOver_eq_none_iff {k : ℕ} :
    firstOver total factor bound k = none ↔ ∀ i, i < k → shareAt total factor i ≤ bound := by
  unfold firstOver
  rw [List.find?_range_eq_none]
  simp

omit [IsStrictOrderedRing α] in
/-- Everything fits if no share exceeds the bound, and the rest does not either. -/
theorem fits_iff {k : ℕ} :
    Fits total factor bound k ↔
      firstOver total factor bound k = none ∧ leaves total factor k ≤ bound := by
  unfold Fits
  rw [firstOver_eq_none_iff]

/-- A total that does not exceed the bound fits, whatever the factors. -/
theorem fits_of_total_le (htotal : 0 ≤ total) (hfactor : ∀ i, 0 ≤ factor i ∧ factor i ≤ 1)
    (hle : total ≤ bound) (k : ℕ) : Fits total factor bound k := by
  have hsplits := splits_shares htotal hfactor k
  refine ⟨?_, hsplits.rest_le.trans hle⟩
  intro i hi
  have hmem : shareAt total factor i ∈ (List.range k).map (shareAt total factor) :=
    List.mem_map.mpr ⟨i, List.mem_range.mpr hi, rfl⟩
  exact ((List.single_le_sum hsplits.nonneg _ hmem).trans hsplits.sum_le).trans hle

omit [IsStrictOrderedRing α] in
/-- The search, one factor at a time. -/
theorem firstOver_succ (total : α) (factor : ℕ → α) (bound : α) (k : ℕ) :
    firstOver total factor bound (k + 1) =
      if bound < shareAt total factor 0 then some 0
      else (firstOver (total * factor 0) (fun i => factor (i + 1)) bound k).map (· + 1) := by
  unfold firstOver
  rw [List.range_succ_eq_map, List.find?_cons, List.find?_map]
  by_cases hover : bound < shareAt total factor 0
  · simp [hover]
  · simp only [hover, decide_false, if_false, Function.comp_def, shareAt_succ']

end Shares
end YatCasched
