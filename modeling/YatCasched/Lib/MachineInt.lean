import Mathlib.Algebra.Group.Int.Defs
import Mathlib.Algebra.Group.Nat.Defs
import Mathlib.Data.Nat.Basic

/-!
# Fixed-width counters

A counter of a fixed width agrees with the natural number it stands for as long
as that number stays in range.

Main results:

- Theorem {lit}`toNat_add_one`: an increment below the bound does not wrap.
- Theorem {lit}`toNat_sub_one`: a decrement above zero does not wrap.
- Theorem {lit}`toInt_add_one`: an increment of a signed counter below the bound
  does not wrap.
-/

namespace YatCasched
namespace MachineInt

/-- An increment below the bound does not wrap. -/
theorem toNat_add_one {a : UInt32} (ha : a.toNat + 1 < 2 ^ 32) :
    (a + 1).toNat = a.toNat + 1 := by
  rw [UInt32.toNat_add, UInt32.toNat_one]
  exact Nat.mod_eq_of_lt ha

/-- A decrement above zero does not wrap. -/
theorem toNat_sub_one {a : UInt32} (ha : 0 < a.toNat) : (a - 1).toNat = a.toNat - 1 := by
  have hle : 1 ≤ a := by
    rw [UInt32.le_iff_toNat_le]
    exact ha
  rw [UInt32.toNat_sub_of_le _ _ hle, UInt32.toNat_one]

/-- An increment of a signed counter below the bound does not wrap. -/
theorem toInt_add_one {a : Int32} (ha : a.toInt + 1 < 2 ^ 31) :
    (a + 1).toInt = a.toInt + 1 := by
  have hlow := a.le_toInt
  rw [Int32.toInt_add, Int32.toInt_one]
  apply Int.bmod_eq_of_le
  · omega
  · omega

/-- An increment of the greatest signed value wraps to the least one. -/
theorem toInt_add_one_wrap {a : Int32} (ha : a.toInt + 1 = 2 ^ 31) :
    (a + 1).toInt = -2 ^ 31 := by
  rw [Int32.toInt_add, Int32.toInt_one, ha]
  rfl

/-- A decrement of a signed counter above the least value does not wrap. -/
theorem toInt_sub_one {a : Int32} (ha : -2 ^ 31 < a.toInt) : (a - 1).toInt = a.toInt - 1 := by
  have hhigh := a.toInt_lt
  rw [Int32.toInt_sub, Int32.toInt_one]
  apply Int.bmod_eq_of_le
  · omega
  · omega

/-- A sum of long counters that are not negative does not wrap below the bound. -/
theorem toInt_add_of_lt {a b : Int64} (ha : 0 ≤ a.toInt) (hb : 0 ≤ b.toInt)
    (hlt : a.toInt + b.toInt < 2 ^ 63) : (a + b).toInt = a.toInt + b.toInt := by
  rw [Int64.toInt_add]
  apply Int.bmod_eq_of_le
  · omega
  · omega

/-- A difference of long counters, the first not negative, does not wrap below the
bound. -/
theorem toInt_sub_of_lt {a b : Int64} (ha : 0 ≤ a.toInt) (hlt : a.toInt - b.toInt < 2 ^ 63) :
    (a - b).toInt = a.toInt - b.toInt := by
  have hhigh := b.toInt_lt
  rw [Int64.toInt_sub]
  apply Int.bmod_eq_of_le
  · omega
  · omega

/-- The greater of two long counters. -/
theorem toInt_max (a b : Int64) : (max a b).toInt = max a.toInt b.toInt := by
  rw [show max a b = if a ≤ b then b else a from rfl, Int.max_def]
  simp only [Int64.le_iff_toInt_le]
  split
  · rfl
  · rfl

/-- The lesser of two long counters. -/
theorem toInt_min (a b : Int64) : (min a b).toInt = min a.toInt b.toInt := by
  rw [show min a b = if a ≤ b then a else b from rfl, Int.min_def]
  simp only [Int64.le_iff_toInt_le]
  split
  · rfl
  · rfl

/-- Bringing an integer into range from above does not increase it. -/
theorem toInt_ofIntClamp_le {n : Int} (hn : -2 ^ 63 ≤ n) : (Int64.ofIntClamp n).toInt ≤ n := by
  have hmin : Int64.minValue.toInt = -2 ^ 63 := rfl
  by_cases hle : n ≤ Int64.maxValue.toInt
  · exact Int.le_of_eq (Int64.toInt_ofIntClamp (by omega) hle)
  · unfold Int64.ofIntClamp
    rw [dif_pos (by omega), dif_neg hle]
    omega

/-- Adding a {lit}`long` to an {lit}`int` and narrowing the sum does not wrap below
the bound of an {lit}`int`. -/
theorem toInt_narrow_add {a : Int32} {b : Int64} (ha : 0 ≤ a.toInt) (hb : 0 ≤ b.toInt)
    (hlt : a.toInt + b.toInt < 2 ^ 31) :
    (a.toInt64 + b).toInt32.toInt = a.toInt + b.toInt := by
  have hsum : (a.toInt64 + b).toInt = a.toInt + b.toInt := by
    rw [toInt_add_of_lt, Int32.toInt_toInt64]
    · rw [Int32.toInt_toInt64]
      exact ha
    · exact hb
    · rw [Int32.toInt_toInt64]
      omega
  rw [Int64.toInt_toInt32, hsum]
  apply Int.bmod_eq_of_le
  · omega
  · omega

end MachineInt
end YatCasched
