import Mathlib.Data.Rat.Floor
import Mathlib.Tactic.Positivity
import YatCasched.Simu.CacheAware

/-!
# Execution times

The cache-aware execution time of a task is at least one half of the time the task came
with and not longer, whatever is in the caches, and all of it if the caches save nothing.

Main results:

- Theorem {lit}`longOfDouble_toInt`: the cast to {lit}`long` cuts off the fraction.
- Theorem {lit}`calculateExecutionTime_half`: the time is reduced by one half at most.
- Theorem {lit}`calculateExecutionTime_of_savesNothing`: when it is not reduced.
-/

namespace YatCasched
namespace Simu

/-- The caches save nothing of the time of a task: it is not sensitive, or has no weight at
any level. -/
def Node.SavesNothing (task : Node) : Prop :=
  task.sensitivity = 0 ∨ ∀ i, i < 3 → task.weight i = 0

instance (task : Node) : Decidable task.SavesNothing :=
  inferInstanceAs (Decidable (_ ∨ ∀ i, i < 3 → _))

namespace CacheAwareState

/-- The cast to {lit}`long` cuts off the fraction. -/
theorem longOfDouble_toInt {x : ℚ} (hx : 0 ≤ x) (hlt : x < 2 ^ 63) :
    (longOfDouble x).toInt = ⌊x⌋ := by
  have hnum : 0 ≤ x.num := Rat.num_nonneg.mpr hx
  have hfloor : x.num.tdiv x.den = ⌊x⌋ := by
    rw [Rat.floor_def', Int.tdiv_eq_ediv_of_nonneg hnum]
  unfold longOfDouble
  rw [hfloor]
  apply Int64.toInt_ofIntClamp
  · have hmin : Int64.minValue.toInt = -2 ^ 63 := rfl
    have hle : 0 ≤ ⌊x⌋ := Int.floor_nonneg.mpr hx
    omega
  · have hmax : Int64.maxValue.toInt = 2 ^ 63 - 1 := rfl
    have hlt' : ⌊x⌋ < 2 ^ 63 := by
      rw [Int.floor_lt]
      exact_mod_cast hlt
    omega

/-- Half of a time, rounded down. -/
theorem toInt_half {a : Int64} (ha : 0 ≤ a.toInt) : (a / 2).toInt = a.toInt / 2 := by
  have hhigh := a.toInt_lt
  rw [Int64.toInt_div, show (2 : Int64).toInt = 2 from rfl, Int.tdiv_eq_ediv_of_nonneg ha]
  apply Int.bmod_eq_of_le
  · omega
  · omega

theorem hitRatio_nonneg (weight utilization factor : ℚ) :
    0 ≤ hitRatio weight utilization factor :=
  le_max_left _ _

/-! ## Savings -/

/-- What the savings of a sensitive task are multiplied by. -/
def sensitivityFactor (sensitivity : ℚ) : ℚ :=
  if sensitivity > 0.8 then 1.15 else if sensitivity > 0.6 then 1.08 else 1

/-- The part of its time a task saves with a cache state. -/
def totalSavings (task : Node) (cacheState : CacheState) : ℚ :=
  min ((hitRatio (task.weight 0) cacheState.l1Utilization 0.8 * task.sensitivity * 0.25 +
    hitRatio (task.weight 1) cacheState.l2Utilization 0.6 * task.sensitivity * 0.15 +
    hitRatio (task.weight 2) cacheState.l3Utilization 0.4 * task.sensitivity * 0.08) *
      sensitivityFactor task.sensitivity) 0.5

/-- A time without its savings, but at least one half of it. -/
def adjustedTime (time : Int64) (savings : ℚ) : Int64 :=
  let adjustedET := longOfDouble ((time.toInt : ℚ) * (1 - savings))
  if adjustedET < time / 2 then time / 2 else adjustedET

theorem calculateExecutionTime_of_none {st : CacheAwareState} {p : ProcId}
    (hst : st.cacheStates p = none) (task : Node) :
    st.calculateExecutionTime task p = task.expectedET := by
  unfold calculateExecutionTime
  rw [hst]

theorem calculateExecutionTime_of_not_hasWeights (st : CacheAwareState) {task : Node}
    (hweights : ¬task.hasWeights = true) (p : ProcId) :
    st.calculateExecutionTime task p = task.expectedET := by
  unfold calculateExecutionTime
  cases st.cacheStates p with
  | none => rfl
  | some cacheState =>
      dsimp only
      rw [if_pos (Bool.not_eq_true' _ |>.mpr (Bool.eq_false_of_not_eq_true hweights))]

/-- The execution time on a processor with an entry. -/
theorem calculateExecutionTime_eq {st : CacheAwareState} {p : ProcId} {cacheState : CacheState}
    (hst : st.cacheStates p = some cacheState) {task : Node} (hweights : task.hasWeights = true) :
    st.calculateExecutionTime task p =
      adjustedTime task.expectedET (totalSavings task cacheState) := by
  have hfactor : ∀ x : ℚ,
      (if task.sensitivity > 0.8 then x * 1.15
        else if task.sensitivity > 0.6 then x * 1.08 else x) =
      x * sensitivityFactor task.sensitivity := by
    intro x
    unfold sensitivityFactor
    split
    · rfl
    · split
      · rfl
      · exact (mul_one x).symm
  unfold calculateExecutionTime
  rw [hst]
  dsimp only
  rw [hweights, if_neg (by decide), hfactor]
  rfl

theorem sensitivityFactor_nonneg (sensitivity : ℚ) : 0 ≤ sensitivityFactor sensitivity := by
  unfold sensitivityFactor
  split
  · norm_num
  · split
    · norm_num
    · exact zero_le_one

/-- The savings of a task are between nothing and one half. -/
theorem totalSavings_bounds {task : Node} (hsensitivity : 0 ≤ task.sensitivity)
    (cacheState : CacheState) :
    0 ≤ totalSavings task cacheState ∧ totalSavings task cacheState ≤ 0.5 := by
  have h1 := hitRatio_nonneg (task.weight 0) cacheState.l1Utilization 0.8
  have h2 := hitRatio_nonneg (task.weight 1) cacheState.l2Utilization 0.6
  have h3 := hitRatio_nonneg (task.weight 2) cacheState.l3Utilization 0.4
  have hfactor := sensitivityFactor_nonneg task.sensitivity
  constructor
  · apply le_min
    · positivity
    · norm_num
  · exact min_le_right _ _

/-- A task that saves nothing has no savings. -/
theorem totalSavings_of_savesNothing {task : Node} (h : task.SavesNothing)
    (cacheState : CacheState) : totalSavings task cacheState = 0 := by
  have hlevel : ∀ i, i < 3 → ∀ utilization factor : ℚ,
      hitRatio (task.weight i) utilization factor * task.sensitivity = 0 := by
    intro i hi utilization factor
    rcases h with hsensitivity | hweights
    · rw [hsensitivity, mul_zero]
    · rw [hweights i hi, hitRatio, zero_mul, max_self, zero_mul]
  unfold totalSavings
  rw [hlevel 0 (by norm_num), hlevel 1 (by norm_num), hlevel 2 (by norm_num)]
  norm_num

/-- Without more than one half saved, the time is what is left, without its fraction. -/
theorem adjustedTime_toInt {time : Int64} {savings : ℚ} (htime : 0 ≤ time.toInt)
    (hsavings : 0 ≤ savings) (hle : savings ≤ 0.5) :
    (adjustedTime time savings).toInt = ⌊(time.toInt : ℚ) * (1 - savings)⌋ := by
  have htime' : (0 : ℚ) ≤ time.toInt := by exact_mod_cast htime
  have hlow : (0 : ℚ) ≤ time.toInt * (1 - savings) := by
    apply mul_nonneg htime'
    linarith
  have hhigh : (time.toInt : ℚ) * (1 - savings) ≤ time.toInt := by
    apply mul_le_of_le_one_right htime'
    linarith
  have hlt : (time.toInt : ℚ) * (1 - savings) < 2 ^ 63 := by
    have hbound : (time.toInt : ℚ) < 2 ^ 63 := by exact_mod_cast time.toInt_lt
    exact hhigh.trans_lt hbound
  -- the lower bound of the code is never needed
  have hhalf : time.toInt / 2 ≤ ⌊(time.toInt : ℚ) * (1 - savings)⌋ := by
    rw [Int.le_floor]
    have hdiv : ((time.toInt / 2 : Int) : ℚ) ≤ time.toInt / 2 := by
      rw [le_div_iff₀ zero_lt_two]
      exact_mod_cast Int.ediv_mul_le time.toInt two_ne_zero
    nlinarith
  unfold adjustedTime
  dsimp only
  rw [if_neg, longOfDouble_toInt hlow hlt]
  rw [Int64.lt_iff_toInt_lt, toInt_half htime, longOfDouble_toInt hlow hlt]
  exact not_lt.mpr hhalf

/-- Saving more takes no longer. -/
theorem adjustedTime_le {time : Int64} {savings savings' : ℚ} (htime : 0 ≤ time.toInt)
    (hsavings : 0 ≤ savings) (hle : savings ≤ savings') (hle' : savings' ≤ 0.5) :
    (adjustedTime time savings').toInt ≤ (adjustedTime time savings).toInt := by
  have htime' : (0 : ℚ) ≤ time.toInt := by exact_mod_cast htime
  rw [adjustedTime_toInt htime hsavings (hle.trans hle'),
    adjustedTime_toInt htime (hsavings.trans hle) hle']
  apply Int.floor_le_floor
  apply mul_le_mul_of_nonneg_left _ htime'
  linarith

/-- Saving nothing takes the whole time. -/
theorem adjustedTime_zero {time : Int64} (htime : 0 ≤ time.toInt) :
    adjustedTime time 0 = time := by
  apply Int64.toInt_inj.mp
  rw [adjustedTime_toInt htime le_rfl (by norm_num), sub_zero, mul_one, Int.floor_intCast]

/-- Saving anything takes less than a time that is not zero. -/
theorem adjustedTime_lt {time : Int64} {savings : ℚ} (htime : 0 < time.toInt)
    (hsavings : 0 < savings) (hle : savings ≤ 0.5) :
    (adjustedTime time savings).toInt < time.toInt := by
  have htime' : (0 : ℚ) < time.toInt := by exact_mod_cast htime
  rw [adjustedTime_toInt htime.le hsavings.le hle, Int.floor_lt]
  apply mul_lt_of_lt_one_right htime'
  linarith

/-- At least one half of the time is taken, and at most all of it. -/
theorem adjustedTime_bounds {time : Int64} {savings : ℚ} (htime : 0 ≤ time.toInt)
    (hsavings : 0 ≤ savings) (hle : savings ≤ 0.5) :
    time.toInt / 2 ≤ (adjustedTime time savings).toInt ∧
      (adjustedTime time savings).toInt ≤ time.toInt := by
  constructor
  · unfold adjustedTime
    dsimp only
    split
    · rw [toInt_half htime]
    · rename_i hge
      rw [Int64.lt_iff_toInt_lt, toInt_half htime] at hge
      exact not_lt.mp hge
  · have hle := adjustedTime_le htime le_rfl hsavings hle
    rw [adjustedTime_zero htime] at hle
    exact hle

/-- At least one half of the execution time is left. -/
theorem calculateExecutionTime_half (st : CacheAwareState) {task : Node} (p : ProcId)
    (htime : 0 ≤ task.expectedET.toInt) (hsensitivity : 0 ≤ task.sensitivity) :
    task.expectedET.toInt / 2 ≤ (st.calculateExecutionTime task p).toInt ∧
      (st.calculateExecutionTime task p).toInt ≤ task.expectedET.toInt := by
  have hwhole : task.expectedET.toInt / 2 ≤ task.expectedET.toInt := by omega
  cases hst : st.cacheStates p with
  | none =>
      rw [calculateExecutionTime_of_none hst]
      exact ⟨hwhole, le_rfl⟩
  | some cacheState =>
      by_cases hweights : task.hasWeights = true
      · have hsavings := totalSavings_bounds hsensitivity cacheState
        rw [calculateExecutionTime_eq hst hweights]
        exact adjustedTime_bounds htime hsavings.1 hsavings.2
      · rw [calculateExecutionTime_of_not_hasWeights st hweights]
        exact ⟨hwhole, le_rfl⟩

/-- All of the execution time is left to a task that saves nothing. -/
theorem calculateExecutionTime_of_savesNothing (st : CacheAwareState) {task : Node} (p : ProcId)
    (htime : 0 ≤ task.expectedET.toInt) (h : task.SavesNothing) :
    st.calculateExecutionTime task p = task.expectedET := by
  cases hst : st.cacheStates p with
  | none => exact calculateExecutionTime_of_none hst task
  | some cacheState =>
      by_cases hweights : task.hasWeights = true
      · rw [calculateExecutionTime_eq hst hweights, totalSavings_of_savesNothing h,
          adjustedTime_zero htime]
      · exact calculateExecutionTime_of_not_hasWeights st hweights p

end CacheAwareState
end Simu
end YatCasched
