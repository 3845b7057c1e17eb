import Mathlib.Algebra.BigOperators.Field
import Mathlib.Algebra.Order.Chebyshev
import Mathlib.Analysis.Real.Sqrt
import Mathlib.Data.Rat.BigOperators
import Mathlib.Order.Interval.Set.Basic
import Mathlib.Tactic.FieldSimp
import Mathlib.Tactic.Linarith

/-!
# Dispersion of shares

Finitely many shares that are not negative have a mean and a variance.  The variance is
at most the square of the mean exactly if the mean square of the shares is at most twice
that, which says that at least half of the shares count.  One minus the standard deviation
in units of the mean is then between 0 and 1.

Main results:

- Theorem {lit}`card_mul_variance`: the variance from the sum and the sum of squares.
- Theorem {lit}`variance_le_iff`: when it is at most the square of the mean.
- Theorem {lit}`Spread.card_le`: then at least half of the shares are not zero.
- Theorem {lit}`spread_of_sub_le`: shares that differ little are spread.
- Theorem {lit}`evenness_mem_Icc_iff`: and the evenness is between 0 and 1.
-/

namespace YatCasched
namespace Dispersion

variable {ι α : Type*} [Field α] [LinearOrder α] [IsStrictOrderedRing α]

/-- The mean of the shares. -/
def mean (s : Finset ι) (x : ι → α) : α :=
  (∑ i ∈ s, x i) / s.card

/-- The mean square of their differences from the mean. -/
def variance (s : Finset ι) (x : ι → α) : α :=
  (∑ i ∈ s, (x i - mean s x) ^ 2) / s.card

/-- The sum is spread over at least half of the shares. -/
def Spread (s : Finset ι) (x : ι → α) : Prop :=
  (s.card : α) * ∑ i ∈ s, x i ^ 2 ≤ 2 * (∑ i ∈ s, x i) ^ 2

variable {s : Finset ι} {x : ι → α}

theorem mean_nonneg (hx : ∀ i ∈ s, 0 ≤ x i) : 0 ≤ mean s x :=
  div_nonneg (Finset.sum_nonneg hx) (Nat.cast_nonneg _)

theorem card_mul_mean (hs : s.Nonempty) : (s.card : α) * mean s x = ∑ i ∈ s, x i := by
  have hcard : (s.card : α) ≠ 0 := Nat.cast_ne_zero.mpr hs.card_ne_zero
  unfold mean
  rw [mul_div_cancel₀ _ hcard]

omit [LinearOrder α] [IsStrictOrderedRing α] in
/-- The differences from any value, squared. -/
theorem sum_sub_sq (s : Finset ι) (x : ι → α) (m : α) :
    ∑ i ∈ s, (x i - m) ^ 2 = ∑ i ∈ s, x i ^ 2 - 2 * m * ∑ i ∈ s, x i + s.card * m ^ 2 := by
  have hterm : ∀ i ∈ s, (x i - m) ^ 2 = x i ^ 2 - 2 * m * x i + m ^ 2 := by
    intro i _
    ring
  rw [Finset.sum_congr rfl hterm, Finset.sum_add_distrib, Finset.sum_sub_distrib,
    ← Finset.mul_sum, Finset.sum_const, nsmul_eq_mul]

/-- The variance from the sum and the sum of squares. -/
theorem card_mul_variance (hs : s.Nonempty) :
    (s.card : α) * variance s x = ∑ i ∈ s, x i ^ 2 - s.card * mean s x ^ 2 := by
  have hcard : (s.card : α) ≠ 0 := Nat.cast_ne_zero.mpr hs.card_ne_zero
  have hsum : (s.card : α) * mean s x = ∑ i ∈ s, x i := card_mul_mean hs
  unfold variance
  rw [mul_div_cancel₀ _ hcard, sum_sub_sq, ← hsum]
  ring

/-- The variance is at most the square of the mean exactly if the sum is spread. -/
theorem variance_le_iff (hs : s.Nonempty) : variance s x ≤ mean s x ^ 2 ↔ Spread s x := by
  have hcard : (0 : α) < s.card := Nat.cast_pos.mpr hs.card_pos
  have hsum : (s.card : α) * mean s x = ∑ i ∈ s, x i := card_mul_mean hs
  unfold Spread
  rw [← hsum, ← mul_le_mul_iff_right₀ hcard, card_mul_variance hs]
  constructor
  · intro h
    have hmul := mul_le_mul_of_nonneg_left (sub_le_iff_le_add.mp h) hcard.le
    calc
      (s.card : α) * ∑ i ∈ s, x i ^ 2
        ≤ s.card * (s.card * mean s x ^ 2 + s.card * mean s x ^ 2) := hmul
      _ = 2 * (s.card * mean s x) ^ 2 := by ring
  · intro h
    apply sub_le_iff_le_add.mpr
    apply le_of_mul_le_mul_left _ hcard
    calc
      (s.card : α) * ∑ i ∈ s, x i ^ 2 ≤ 2 * (s.card * mean s x) ^ 2 := h
      _ = s.card * (s.card * mean s x ^ 2 + s.card * mean s x ^ 2) := by ring

/-- One or two shares are always spread. -/
theorem spread_of_card_le_two (hx : ∀ i ∈ s, 0 ≤ x i) (hcard : s.card ≤ 2) : Spread s x := by
  have hsq : ∑ i ∈ s, x i ^ 2 ≤ (∑ i ∈ s, x i) ^ 2 := Finset.sum_sq_le_sq_sum_of_nonneg hx
  have hcard' : (s.card : α) ≤ 2 := by exact_mod_cast hcard
  exact mul_le_mul hcard' hsq (Finset.sum_nonneg fun i _ => sq_nonneg (x i)) zero_le_two

/-- A spread sum that is not zero has at least half of the shares. -/
theorem Spread.card_le (h : Spread s x) (hsum : ∑ i ∈ s, x i ≠ 0) :
    s.card ≤ 2 * (s.filter fun i => x i ≠ 0).card := by
  have hbusy : ∑ i ∈ s with x i ≠ 0, x i = ∑ i ∈ s, x i := Finset.sum_filter_ne_zero s
  have hbusy' : ∑ i ∈ s with x i ≠ 0, x i ^ 2 ≤ ∑ i ∈ s, x i ^ 2 :=
    Finset.sum_le_sum_of_subset_of_nonneg (Finset.filter_subset _ s) fun i _ _ => sq_nonneg (x i)
  -- few shares that are not zero have a great sum of squares
  have hsq := sq_sum_le_card_mul_sum_sq (s := s.filter fun i => x i ≠ 0) (f := x)
  rw [hbusy] at hsq
  have hpos : 0 < (∑ i ∈ s, x i) ^ 2 := sq_pos_of_ne_zero hsum
  have hchain : (s.card : α) * (∑ i ∈ s, x i) ^ 2 ≤
      (2 * (s.filter fun i => x i ≠ 0).card : α) * (∑ i ∈ s, x i) ^ 2 := by
    calc
      (s.card : α) * (∑ i ∈ s, x i) ^ 2
        ≤ s.card * ((s.filter fun i => x i ≠ 0).card * ∑ i ∈ s, x i ^ 2) := by
          apply mul_le_mul_of_nonneg_left _ (Nat.cast_nonneg _)
          exact hsq.trans (mul_le_mul_of_nonneg_left hbusy' (Nat.cast_nonneg _))
      _ = (s.filter fun i => x i ≠ 0).card * (s.card * ∑ i ∈ s, x i ^ 2) := by ring
      _ ≤ (s.filter fun i => x i ≠ 0).card * (2 * (∑ i ∈ s, x i) ^ 2) :=
          mul_le_mul_of_nonneg_left h (Nat.cast_nonneg _)
      _ = (2 * (s.filter fun i => x i ≠ 0).card : α) * (∑ i ∈ s, x i) ^ 2 := by ring
  exact_mod_cast le_of_mul_le_mul_right hchain hpos

/-- Shares within a range have a small sum of squares. -/
theorem sum_sq_le_of_range {low range : α} (hx : ∀ i ∈ s, low ≤ x i ∧ x i ≤ low + range) :
    ∑ i ∈ s, x i ^ 2 ≤ (2 * low + range) * ∑ i ∈ s, x i - s.card * (low * (low + range)) := by
  have hterm : ∀ i ∈ s, x i ^ 2 ≤ (2 * low + range) * x i - low * (low + range) := by
    intro i hi
    have hprod := mul_nonneg (sub_nonneg.mpr (hx i hi).1) (sub_nonneg.mpr (hx i hi).2)
    linarith
  calc
    ∑ i ∈ s, x i ^ 2 ≤ ∑ i ∈ s, ((2 * low + range) * x i - low * (low + range)) :=
      Finset.sum_le_sum hterm
    _ = (2 * low + range) * ∑ i ∈ s, x i - s.card * (low * (low + range)) := by
      rw [Finset.sum_sub_distrib, ← Finset.mul_sum, Finset.sum_const, nsmul_eq_mul]

/-- Shares are spread if no two differ by more than twice the mean. -/
theorem spread_of_sub_le {range : α} (hx : ∀ i ∈ s, 0 ≤ x i)
    (hsub : ∀ i ∈ s, ∀ j ∈ s, x i - x j ≤ range)
    (hrange : (s.card : α) * range ≤ 2 * ∑ i ∈ s, x i) : Spread s x := by
  rcases s.eq_empty_or_nonempty with rfl | hs
  · simp [Spread]
  · rcases Finset.exists_min_image s x hs with ⟨least, hleast, hmin⟩
    have hsq := sum_sq_le_of_range fun i hi =>
      (⟨hmin i hi, sub_le_iff_le_add'.mp (hsub i hi least hleast)⟩ :
        x least ≤ x i ∧ x i ≤ x least + range)
    have hcard : (0 : α) ≤ s.card := Nat.cast_nonneg _
    have hlow : 0 ≤ (s.card : α) * x least := mul_nonneg hcard (hx least hleast)
    have hmore : 0 ≤ ∑ i ∈ s, x i - s.card * x least := by
      rw [sub_nonneg, ← nsmul_eq_mul]
      exact Finset.card_nsmul_le_sum s x (x least) hmin
    have hshare := mul_le_mul_of_nonneg_right hrange hmore
    unfold Spread
    calc
      (s.card : α) * ∑ i ∈ s, x i ^ 2
        ≤ s.card * ((2 * x least + range) * ∑ i ∈ s, x i -
            s.card * (x least * (x least + range))) := mul_le_mul_of_nonneg_left hsq hcard
      _ = 2 * (s.card * x least) * ∑ i ∈ s, x i - (s.card * x least) ^ 2 +
            s.card * range * (∑ i ∈ s, x i - s.card * x least) := by ring
      _ ≤ 2 * (s.card * x least) * ∑ i ∈ s, x i - (s.card * x least) ^ 2 +
            2 * (∑ i ∈ s, x i) * (∑ i ∈ s, x i - s.card * x least) := by linarith
      _ = 2 * (∑ i ∈ s, x i) ^ 2 - (s.card * x least) ^ 2 := by ring
      _ ≤ 2 * (∑ i ∈ s, x i) ^ 2 := sub_le_self _ (sq_nonneg _)

/-! ## Evenness -/

/-- Rational shares have a rational mean. -/
theorem mean_ratCast (s : Finset ι) (x : ι → ℚ) :
    mean s (fun i => (x i : ℝ)) = ((mean s x : ℚ) : ℝ) := by
  unfold mean
  rw [Rat.cast_div, Rat.cast_sum, Rat.cast_natCast]

/-- And a rational variance. -/
theorem variance_ratCast (s : Finset ι) (x : ι → ℚ) :
    variance s (fun i => (x i : ℝ)) = ((variance s x : ℚ) : ℝ) := by
  unfold variance
  rw [Rat.cast_div, Rat.cast_sum, Rat.cast_natCast, mean_ratCast]
  congr 1
  refine Finset.sum_congr rfl fun i _ => ?_
  rw [Rat.cast_pow, Rat.cast_sub]

/-- One minus the standard deviation in units of the mean, 0 without a mean. -/
noncomputable def evenness (s : Finset ι) (x : ι → ℝ) : ℝ :=
  if 0 < mean s x then 1 - √(variance s x) / mean s x else 0

/-- Shares that are all zero are spread. -/
theorem spread_of_mean_eq_zero (hs : s.Nonempty) (hx : ∀ i ∈ s, 0 ≤ x i) (hmean : mean s x = 0) :
    Spread s x := by
  have hsum : ∑ i ∈ s, x i = 0 := by
    rw [← card_mul_mean hs, hmean, mul_zero]
  have hsq : ∑ i ∈ s, x i ^ 2 ≤ (∑ i ∈ s, x i) ^ 2 := Finset.sum_sq_le_sq_sum_of_nonneg hx
  have hzero : ∑ i ∈ s, x i ^ 2 = 0 := by
    apply le_antisymm _ (Finset.sum_nonneg fun i _ => sq_nonneg (x i))
    rw [hsum] at hsq
    exact hsq.trans_eq (by norm_num)
  unfold Spread
  rw [hsum, hzero]
  norm_num

/-- The evenness is between 0 and 1 exactly if the sum is spread. -/
theorem evenness_mem_Icc_iff {x : ι → ℝ} (hs : s.Nonempty) (hx : ∀ i ∈ s, 0 ≤ x i) :
    evenness s x ∈ Set.Icc 0 1 ↔ Spread s x := by
  unfold evenness
  by_cases hmean : 0 < mean s x
  · have hratio : 0 ≤ √(variance s x) / mean s x := div_nonneg (Real.sqrt_nonneg _) hmean.le
    rw [if_pos hmean, ← variance_le_iff hs, ← Real.sqrt_le_left hmean.le, ← div_le_one hmean,
      Set.mem_Icc]
    constructor
    · rintro ⟨hlow, _⟩
      linarith
    · intro hle
      constructor
      · linarith
      · linarith
  · have hzero : mean s x = 0 := le_antisymm (not_lt.mp hmean) (mean_nonneg hx)
    rw [if_neg hmean]
    exact iff_of_true ⟨le_rfl, zero_le_one⟩ (spread_of_mean_eq_zero hs hx hzero)

end Dispersion
end YatCasched
