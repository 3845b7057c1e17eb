import Mathlib.Algebra.BigOperators.Ring.List
import Mathlib.Algebra.Order.BigOperators.Group.List
import Mathlib.Algebra.Order.Field.Basic

/-!
# Ratios of totals

The quotient of a part and a whole is between two bounds if the part is between
those multiples of the whole, and both conditions can be summed over a list.

Main results:

- Theorem {lit}`ratio_bounds`: the ratio of totals between two multiples.
- Theorem {lit}`ratio_sum_bounds`: a mean is between the bounds of what it is the
  mean of.
-/

namespace YatCasched
namespace Ratio

variable {ι α : Type*} [Field α] [LinearOrder α]

/-- The ratio of a part and the whole, 0 if there is no whole. -/
def ratio (part whole : α) : α :=
  if whole > 0 then part / whole else 0

variable {part whole : ι → α} {a b low high : α} {l : List ι}

theorem ratio_of_pos (hb : 0 < b) : ratio a b = a / b :=
  if_pos hb

variable [IsStrictOrderedRing α]

/-- The ratio of totals between two multiples. -/
theorem ratio_bounds (hb : 0 < b) (hlow : low * b ≤ a) (hhigh : a ≤ high * b) :
    low ≤ ratio a b ∧ ratio a b ≤ high := by
  rw [ratio_of_pos hb]
  exact ⟨(le_div_iff₀ hb).mpr hlow, (div_le_iff₀ hb).mpr hhigh⟩

/-- The ratio of a part that is not greater than the whole. -/
theorem ratio_unit (ha : 0 ≤ a) (hab : a ≤ b) : 0 ≤ ratio a b ∧ ratio a b ≤ 1 := by
  by_cases hb : 0 < b
  · apply ratio_bounds hb
    · simpa using ha
    · simpa using hab
  · unfold ratio
    rw [if_neg hb]
    exact ⟨le_rfl, zero_le_one⟩

/-- Scaling both changes nothing. -/
theorem ratio_mul_left {c : α} (hc : 0 < c) : ratio (c * a) (c * b) = ratio a b := by
  unfold ratio
  by_cases hb : b > 0
  · rw [if_pos hb, if_pos (mul_pos hc hb), mul_div_mul_left _ _ hc.ne']
  · rw [if_neg hb, if_neg (by rwa [gt_iff_lt, mul_pos_iff_of_pos_left hc])]

/-- A bound of every part bounds the sum. -/
theorem mul_sum_le (h : ∀ x ∈ l, low * whole x ≤ part x) :
    low * (l.map whole).sum ≤ (l.map part).sum := by
  rw [← List.sum_map_mul_left]
  exact List.sum_le_sum h

theorem sum_le_mul (h : ∀ x ∈ l, part x ≤ high * whole x) :
    (l.map part).sum ≤ high * (l.map whole).sum := by
  rw [← List.sum_map_mul_left]
  exact List.sum_le_sum h

/-- A mean is between the bounds of what it is the mean of. -/
theorem ratio_sum_bounds (hpos : 0 < (l.map whole).sum)
    (h : ∀ x ∈ l, low * whole x ≤ part x ∧ part x ≤ high * whole x) :
    low ≤ ratio (l.map part).sum (l.map whole).sum ∧
      ratio (l.map part).sum (l.map whole).sum ≤ high :=
  ratio_bounds hpos (mul_sum_le fun x hx => (h x hx).1) (sum_le_mul fun x hx => (h x hx).2)

/-- The ratio of sums of parts, none greater than its whole. -/
theorem ratio_sum_unit (h : ∀ x ∈ l, 0 ≤ part x ∧ part x ≤ whole x) :
    0 ≤ ratio (l.map part).sum (l.map whole).sum ∧
      ratio (l.map part).sum (l.map whole).sum ≤ 1 := by
  apply ratio_unit
  · apply List.sum_nonneg
    intro a ha
    rcases List.mem_map.mp ha with ⟨x, hx, rfl⟩
    exact (h x hx).1
  · exact List.sum_le_sum fun x hx => (h x hx).2

end Ratio
end YatCasched
