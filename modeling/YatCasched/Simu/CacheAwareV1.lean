import YatCasched.Lib.FirstBest
import YatCasched.Simu.Schedule

/-!
# The first cache-aware allocator

{lit}`CacheAware_v1` scores every available processor and takes the best one.  The weights
of the caches and the sensitivity of a task add the same to all scores, and the load of a
processor is not known to it: the choice rests on the id of the processor and on its
distance to the one the task prefers.

Main results:

- Theorem {lit}`score_add_penalty`: a score is a constant of the task less a penalty.
- Theorem {lit}`allocate_leastPenalty`: the first processor of least penalty is chosen.
- Theorem {lit}`allocate_allAvailable`: which one that is if all are available.
-/

namespace YatCasched
namespace Simu
namespace CacheAwareV1

open FirstBest

/-! ## The allocator -/

/-- {lit}`calculateAffinityScore`. -/
def calculateAffinityScore (node : Node) (processorId : ProcId) : ℚ :=
  if node.affinity ≠ -1 then
    let distance := absInt (node.affinity - Int32.ofNat processorId)
    max 0 (1 - distance.toInt * 0.1)
  else
    0.5

/-- {lit}`calculateLoadBalanceScore`. -/
def calculateLoadBalanceScore (processorId : ProcId) : ℚ :=
  1 - (processorId % 4 : ℕ) * 0.1

/-- {lit}`calculateCacheHierarchyScore`: the cluster of the processor is computed and not
used. -/
def calculateCacheHierarchyScore (node : Node) (_processorId : ProcId) : ℚ :=
  if node.hasWeights then node.weight 0 * 0.6 + node.weight 1 * 0.4 else 0.5

/-- {lit}`calculateCacheAwareScore`. -/
def calculateCacheAwareScore (node : Node) (processorId : ProcId) : ℚ :=
  let cacheSensitivityWeight := node.sensitivity * 0.4
  let affinityWeight := calculateAffinityScore node processorId * 0.3
  let loadBalanceWeight := calculateLoadBalanceScore processorId * 0.2
  let cacheHierarchyWeight := calculateCacheHierarchyScore node processorId * 0.1
  cacheSensitivityWeight + affinityWeight + loadBalanceWeight + cacheHierarchyWeight

/-- {lit}`allocate`. -/
def allocate (readyNodes : List Node) (availableProc : List ProcId) : Int :=
  match readyNodes, availableProc with
  | [], _ => -1
  | _, [] => -1
  | nodeToAllocate :: _, first :: _ =>
      match (scan (calculateCacheAwareScore nodeToAllocate) doubleMinValue availableProc).1 with
      | none => first
      | some bestProcessor => bestProcessor

/-! ## The penalty of a processor -/

/-- A task that prefers no processor, or one that can exist. -/
def Prefers (node : Node) : Prop :=
  node.affinity = -1 ∨ 0 ≤ node.affinity.toInt

/-- What a processor loses against the best one there could be, in hundredths. -/
def penalty (node : Node) (p : ℕ) : ℤ :=
  (if node.affinity = -1 then 0 else 3 * min 10 |node.affinity.toInt - p|) + 2 * (p % 4 : ℕ)

/-- The score of a task on a processor that loses nothing. -/
def topScore (node : Node) : ℚ :=
  node.sensitivity * 0.4 + (if node.affinity = -1 then 0.15 else 0.3) + 0.2 +
    calculateCacheHierarchyScore node 0 * 0.1

variable {node : Node} {p q : ℕ} {availableProc : List ProcId}

theorem penalty_nonneg (node : Node) (p : ℕ) : 0 ≤ penalty node p := by
  unfold penalty
  split
  · omega
  · have hdistance := abs_nonneg (node.affinity.toInt - (p : ℤ))
    omega

/-- The next processor after a group of four is better than the last one of the group: it
is at most one unit farther away. -/
theorem penalty_succ_lt (hlast : p % 4 = 3) : penalty node (p + 1) < penalty node p := by
  unfold penalty
  split
  · omega
  · have hfarther : |node.affinity.toInt - ((p + 1 : ℕ) : ℤ)| ≤
        |node.affinity.toInt - p| + 1 := by
      have habove := le_abs_self (node.affinity.toInt - (p : ℤ))
      have hbelow := neg_abs_le (node.affinity.toInt - (p : ℤ))
      rw [abs_le]
      omega
    omega

/-- The distance of two ids does not overflow. -/
theorem toInt_absInt_sub {a : Int32} (ha : 0 ≤ a.toInt) (hp : p < 2 ^ 31) :
    (absInt (a - Int32.ofNat p)).toInt = |a.toInt - p| := by
  have hlt := a.toInt_lt
  have hp' : (Int32.ofNat p).toInt = p := Int32.toInt_ofNat_of_lt hp
  have hsub : (a - Int32.ofNat p).toInt = a.toInt - p := by
    rw [Int32.toInt_sub, hp', Int.bmod_eq_of_le]
    all_goals omega
  unfold absInt
  split
  · rename_i hneg
    have hneg' : (a - Int32.ofNat p).toInt < 0 := Int32.lt_iff_toInt_lt.mp hneg
    rw [hsub] at hneg'
    rw [Int32.toInt_neg, hsub, Int.bmod_eq_of_le, abs_of_neg hneg']
    all_goals omega
  · rename_i hnonneg
    have hnonneg' : 0 ≤ (a - Int32.ofNat p).toInt := by
      rw [← not_lt]
      exact fun hneg => hnonneg (Int32.lt_iff_toInt_lt.mpr hneg)
    rw [hsub] at hnonneg' ⊢
    rw [abs_of_nonneg hnonneg']

/-- The distance counts up to ten. -/
theorem max_distance (d : ℤ) : max 0 (1 - (d : ℚ) * 0.1) = 1 - ((min 10 d : ℤ) : ℚ) * 0.1 := by
  rcases le_total d 10 with hle | hle
  · have hle' : (d : ℚ) ≤ 10 := by exact_mod_cast hle
    rw [min_eq_right hle, max_eq_right]
    linarith
  · have hle' : (10 : ℚ) ≤ d := by exact_mod_cast hle
    rw [min_eq_left hle, max_eq_left]
    · norm_num
    · linarith

/-- A score is a constant of the task less the penalty of the processor. -/
theorem score_add_penalty (hprefers : Prefers node) (hp : p < 2 ^ 31) :
    calculateCacheAwareScore node p + (penalty node p : ℚ) / 100 = topScore node := by
  have hhierarchy : calculateCacheHierarchyScore node p = calculateCacheHierarchyScore node 0 :=
    rfl
  unfold calculateCacheAwareScore calculateAffinityScore calculateLoadBalanceScore penalty topScore
  dsimp only
  rw [hhierarchy]
  by_cases hnone : node.affinity = -1
  · rw [if_neg (not_not.mpr hnone), if_pos hnone, if_pos hnone]
    simp only [Int.cast_add, Int.cast_mul, Int.cast_zero, Int.cast_ofNat, Int.cast_natCast]
    ring
  · rw [if_pos hnone, if_neg hnone, if_neg hnone,
      toInt_absInt_sub (hprefers.resolve_left hnone) hp, max_distance]
    simp only [Int.cast_add, Int.cast_mul, Int.cast_ofNat, Int.cast_natCast]
    ring

/-- The better score has the smaller penalty. -/
theorem score_lt_iff (hprefers : Prefers node) (hp : p < 2 ^ 31) (hq : q < 2 ^ 31) :
    calculateCacheAwareScore node p < calculateCacheAwareScore node q ↔
      penalty node q < penalty node p := by
  have hscore := (score_add_penalty hprefers hp).trans (score_add_penalty hprefers hq).symm
  rw [← Int.cast_lt (R := ℚ)]
  constructor
  · intro hlt
    linarith
  · intro hlt
    linarith

/-- Every score of a proper task beats the sentinel. -/
theorem doubleMinValue_lt_calculateCacheAwareScore (hproper : node.Proper) (p : ℕ) :
    doubleMinValue < calculateCacheAwareScore node p := by
  have haffinity : 0 ≤ calculateAffinityScore node p := by
    unfold calculateAffinityScore
    split
    · exact le_max_left _ _
    · norm_num
  have hload : 0.7 ≤ calculateLoadBalanceScore p := by
    have hrest : ((p % 4 : ℕ) : ℚ) ≤ 3 := by exact_mod_cast (by omega : p % 4 ≤ 3)
    unfold calculateLoadBalanceScore
    linarith
  have hhierarchy : 0 ≤ calculateCacheHierarchyScore node p := by
    have hweight := hproper.weight_nonneg 0
    have hweight' := hproper.weight_nonneg 1
    unfold calculateCacheHierarchyScore
    split
    · positivity
    · norm_num
  have hsensitivity := hproper.sensitivity_nonneg
  have hsentinel := doubleMinValue_lt
  unfold calculateCacheAwareScore
  dsimp only
  linarith

/-! ## The choice -/

/-- A proper task is given to the first processor with the greatest score. -/
theorem allocate_isFirstBest (hproper : node.Proper) (rest : List Node)
    (havailable : availableProc ≠ []) :
    ∃ p : ℕ, allocate (node :: rest) availableProc = p ∧
      IsFirstBest (calculateCacheAwareScore node) doubleMinValue availableProc (some p) := by
  have hbest := (scan_spec (calculateCacheAwareScore node) doubleMinValue availableProc).1
  cases availableProc with
  | nil => exact absurd rfl havailable
  | cons first others =>
      rcases hbest.exists_of_lt List.mem_cons_self
        (doubleMinValue_lt_calculateCacheAwareScore hproper first) with ⟨p, hscan⟩
      rw [hscan] at hbest
      refine ⟨p, ?_, hbest⟩
      unfold allocate
      dsimp only
      rw [hscan]

/-- No available processor has a smaller penalty than the first best one. -/
theorem penalty_le_of_isFirstBest (hprefers : Prefers node) (hids : ∀ q ∈ availableProc, q < 2 ^ 31)
    (hbest : IsFirstBest (calculateCacheAwareScore node) doubleMinValue availableProc (some p))
    (hq : q ∈ availableProc) : penalty node p ≤ penalty node q := by
  rw [← not_lt, ← score_lt_iff hprefers (hids p hbest.mem) (hids q hq), not_lt]
  exact hbest.le hq

/-- A processor before the first best one has a greater penalty. -/
theorem lt_penalty_of_isFirstBest (hprefers : Prefers node)
    (hids : ∀ q ∈ availableProc, q < 2 ^ 31)
    (hbest : IsFirstBest (calculateCacheAwareScore node) doubleMinValue availableProc (some p)) :
    ∃ before after, availableProc = before ++ p :: after ∧
      ∀ q ∈ before, penalty node p < penalty node q := by
  rcases hbest.2 with ⟨before, after, rfl, hbefore, _⟩
  refine ⟨before, after, rfl, fun q hq => ?_⟩
  have hq31 := hids q (List.mem_append_left _ hq)
  exact (score_lt_iff hprefers hq31 (hids p hbest.mem)).mp (hbefore q hq)

/-- A proper task is given to the first available processor of least penalty, whatever its
weights and its sensitivity.  That is never the last one of a group of four if the next is
available. -/
theorem allocate_leastPenalty (hproper : node.Proper) (hprefers : Prefers node)
    (rest : List Node) (havailable : availableProc ≠ [])
    (hids : ∀ q ∈ availableProc, q < 2 ^ 31) :
    ∃ p ∈ availableProc, allocate (node :: rest) availableProc = p ∧
      (∀ q ∈ availableProc, penalty node p ≤ penalty node q) ∧
      (∃ before after, availableProc = before ++ p :: after ∧
        ∀ q ∈ before, penalty node p < penalty node q) ∧
      (p % 4 = 3 → p + 1 ∉ availableProc) := by
  rcases allocate_isFirstBest hproper rest havailable with ⟨p, hallocate, hbest⟩
  refine ⟨p, hbest.mem, hallocate, fun q => penalty_le_of_isFirstBest hprefers hids hbest,
    lt_penalty_of_isFirstBest hprefers hids hbest, ?_⟩
  intro hlast hnext
  exact absurd (penalty_succ_lt hlast)
    (not_lt.mpr (penalty_le_of_isFirstBest hprefers hids hbest hnext))

/-- A task that prefers processor 3 is given to processor 4 of eight. -/
theorem allocate_leastPenalty_three :
    ∃ p ∈ List.range 8, allocate [{ unitTask with affinity := 3 }] (List.range 8) = p ∧
      penalty { unitTask with affinity := 3 } p ≤ 3 := by
  have hproper : ({ unitTask with affinity := 3 } : Node).Proper :=
    { unitTask_proper with }
  have hids : ∀ q ∈ List.range 8, q < 2 ^ 31 :=
    fun q hq => (List.mem_range.mp hq).trans (by norm_num)
  rcases allocate_leastPenalty hproper (Or.inr (by decide)) [] (by decide) hids with
    ⟨p, hmem, hallocate, hle, _⟩
  exact ⟨p, hmem, hallocate, hle 4 (by decide)⟩

/-- If all processors are available, a task is given to the one it prefers or, from the
last one of a group of four, to the next; without a preference to the first one. -/
theorem allocate_allAvailable {P : ℕ} (hP : 0 < P) (hP' : P ≤ 2 ^ 31) (hproper : node.Proper)
    (rest : List Node) :
    (node.affinity = -1 → allocate (node :: rest) (generateProcessorList P) = 0) ∧
      ∀ a < P, node.affinity = Int32.ofNat a →
        allocate (node :: rest) (generateProcessorList P) =
          (if a % 4 = 3 ∧ a + 1 < P then a + 1 else a : ℕ) := by
  have hrange : generateProcessorList P = List.range P := rfl
  rw [hrange]
  have hne : List.range P ≠ [] := by
    rw [Ne, List.range_eq_nil]
    omega
  have hids : ∀ q ∈ List.range P, q < 2 ^ 31 := fun q hq => (List.mem_range.mp hq).trans_le hP'
  rcases allocate_isFirstBest hproper rest hne with ⟨p, hallocate, hbest⟩
  rw [hallocate]
  constructor
  · intro hnone
    have hfirst : ¬0 < p := by
      intro hlater
      have hlt := hbest.lt_of_lt List.pairwise_lt_range (List.mem_range.mpr hP) hlater
      rw [score_lt_iff (Or.inl hnone) (by norm_num) (hids p hbest.mem)] at hlt
      have hzero : penalty node 0 = 0 := by simp [penalty, hnone]
      rw [hzero] at hlt
      exact absurd (penalty_nonneg node p) (not_le.mpr hlt)
    rw [Nat.eq_zero_of_not_pos hfirst]
    rfl
  · intro a ha haffinity
    have hhome : node.affinity.toInt = a := by
      rw [haffinity]
      exact Int32.toInt_ofNat_of_lt (ha.trans_le hP')
    have hsome : node.affinity ≠ -1 := by
      intro hnone
      rw [hnone] at hhome
      have hminus : (-1 : Int32).toInt = -1 := rfl
      omega
    have hle : ∀ q < P, penalty node p ≤ penalty node q := fun q hq =>
      penalty_le_of_isFirstBest (Or.inr (by omega)) hids hbest (List.mem_range.mpr hq)
    simp only [penalty, if_neg hsome, hhome, Int.abs_eq_natAbs] at hle
    split
    · -- the next processor loses three hundredths, this one six
      rename_i hnext
      have hnear := hle (a + 1) hnext.2
      omega
    · rename_i hlast
      have hp := List.mem_range.mp hbest.mem
      have hself := hle a ha
      omega

/-- A task that prefers processor 3 of four. -/
theorem allocate_allAvailable_three :
    allocate [{ unitTask with affinity := 3 }] (generateProcessorList 4) = 3 := by
  have hproper : ({ unitTask with affinity := 3 } : Node).Proper :=
    { unitTask_proper with }
  exact (allocate_allAvailable (by decide) (by decide) hproper []).2 3 (by decide) rfl

end CacheAwareV1
end Simu
end YatCasched
