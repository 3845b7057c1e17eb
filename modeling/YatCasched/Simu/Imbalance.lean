import Mathlib.Algebra.Order.Archimedean.Basic
import Mathlib.Algebra.Order.BigOperators.Group.Finset
import YatCasched.Simu.ArgMax

/-!
# The load imbalance has no bound

The load term of the score is a ratio, so it cannot tell large loads apart, and
it is worth at most 0.3.  A processor that got one long sensitive task is not
chosen again for tasks that are short and not sensitive: the others are better
however long they have been running.

Main results:

- Theorem {lit}`Starved.assign`: a light task does not go to the starved
  processor.
- Theorem {lit}`run_starved`: nor do any number of them.
- Theorem {lit}`imbalanceBounded_iff`: only a single processor is balanced.
-/

namespace YatCasched
namespace Simu

open CacheAwareState FirstBest

/-! ## Bounded imbalance -/

/-- A task of at most {lit}`E` units of time, of any affinity. -/
structure Node.Sized (E : ℚ) (node : Node) : Prop where
  time_ge_one : 1 ≤ node.time
  time_le : node.time ≤ E
  sensitivity_nonneg : 0 ≤ node.sensitivity
  sensitivity_le_one : node.sensitivity ≤ 1
  weight_nonneg : ∀ i, 0 ≤ node.weight i

/-- A call on such a task and the given processors. -/
def AllocateCall.Sized (E : ℚ) (availableProc : List ProcId) (call : AllocateCall) : Prop :=
  call.availableProc = availableProc ∧
    ∃ node rest, call.readyNodes = node :: rest ∧ node.Sized E

/-- Some multiple of the longest execution time bounds the differences of loads in
all runs on these processors. -/
def ImbalanceBounded (availableProc : List ProcId) : Prop :=
  ∃ K : ℚ, ∀ E : ℚ, 1 ≤ E → ∀ calls : List AllocateCall,
    (∀ call ∈ calls, call.Sized E availableProc) → ∀ st log, run calls = .ok (st, log) →
      ∀ p ∈ availableProc, ∀ q ∈ availableProc, st.load p - st.load q ≤ K * E

/-! ## Light tasks -/

/-- A cache state that tasks without sensitivity leave: nothing is used. -/
structure CacheState.Blank (cacheState : CacheState) : Prop where
  l1Utilization : cacheState.l1Utilization = 0
  l2Utilization : cacheState.l2Utilization = 0
  l3Utilization : cacheState.l3Utilization = 0
  avgTaskSensitivity : cacheState.avgTaskSensitivity = 0

theorem CacheState.blank_new : CacheState.Blank .new where
  l1Utilization := rfl
  l2Utilization := rfl
  l3Utilization := rfl
  avgTaskSensitivity := rfl

/-- A task without sensitivity leaves nothing used. -/
theorem CacheState.Blank.afterTask {cacheState : CacheState} (h : cacheState.Blank) :
    (cacheState.afterTask unitTask).Blank := by
  have hsensitivity : unitTask.sensitivity = 0 := rfl
  have havg := afterTask_avgTaskSensitivity cacheState unitTask
  rw [h.avgTaskSensitivity, hsensitivity, zero_mul, zero_add, zero_div] at havg
  refine ⟨?_, ?_, ?_, havg⟩
  · unfold CacheState.afterTask
    rw [if_pos unitTask_proper.hasWeights]
    dsimp only
    rw [h.l1Utilization, hsensitivity]
    norm_num
  · unfold CacheState.afterTask
    rw [if_pos unitTask_proper.hasWeights]
    dsimp only
    rw [h.l2Utilization, hsensitivity]
    norm_num
  · unfold CacheState.afterTask
    rw [if_pos unitTask_proper.hasWeights]
    dsimp only
    rw [h.l3Utilization, hsensitivity]
    norm_num

/-- Where only light tasks ran, a light task scores above 0.212, whatever the load. -/
theorem CacheState.Blank.score_gt {cacheState : CacheState} (h : cacheState.Blank) (p : ProcId)
    {load : ℚ} (hload : 0 ≤ load) : 0.212 < cacheAwareScore unitTask p cacheState load := by
  have haffinity : calculateCacheAffinityScore unitTask p cacheState = 1 := by
    unfold calculateCacheAffinityScore
    rw [h.avgTaskSensitivity, if_pos (by decide), if_neg (lt_irrefl 0), if_neg (by decide)]
    norm_num
  have hquality : 0.27 ≤ calculateCacheQualityScore cacheState := by
    apply calculateCacheQualityScore_ge
    constructor
    · exact h.l1Utilization.ge
    · rw [h.l1Utilization]
      norm_num
    · exact h.l2Utilization.ge
    · rw [h.l2Utilization]
      norm_num
    · exact h.l3Utilization.ge
    · rw [h.l3Utilization]
      norm_num
  have hinterference : calculateCacheInterferenceScore unitTask cacheState ≤ 0.3 := by
    unfold calculateCacheInterferenceScore
    dsimp only
    rw [h.avgTaskSensitivity, show unitTask.sensitivity = 0 from rfl, sub_zero, abs_zero,
      zero_mul, add_zero]
    exact min_le_right _ _
  unfold cacheAwareScore
  dsimp only
  rw [calculateCacheBenefitScore_eq_zero unitTask_proper.hasWeights rfl, haffinity]
  linarith [calculateLoadBalanceScore_pos hload
    (zero_lt_one.trans_le unitTask_proper.time_ge_one)]

/-! ## The starved processor -/

/-- A long sensitive task. -/
def heavyTask : Node :=
  { sensitiveTask with expectedET := 8 }

theorem heavyTask_time : heavyTask.time = 8 := by
  unfold Node.time
  rw [show heavyTask.expectedET.toInt = 8 from rfl]
  norm_num

theorem heavyTask_proper : heavyTask.Proper where
  time_ge_one := by
    rw [heavyTask_time]
    norm_num
  sensitivity_nonneg := sensitiveTask_proper.sensitivity_nonneg
  sensitivity_le_one := sensitiveTask_proper.sensitivity_le_one
  hasWeights := sensitiveTask_proper.hasWeights
  weight_nonneg := sensitiveTask_proper.weight_nonneg

/-- The cache state of a processor that got the heavy task only. -/
def heavyState : CacheState where
  l1Utilization := 0
  l2Utilization := 0
  l3Utilization := 0
  recentTaskCount := 1
  avgTaskSensitivity := 1

theorem heavyState_eq : CacheState.new.afterTask heavyTask = heavyState := by
  have hsensitivity : heavyTask.sensitivity = 1 := rfl
  have hweight : heavyTask.weight 0 = 0 ∧ heavyTask.weight 1 = 0 ∧ heavyTask.weight 2 = 0 :=
    ⟨rfl, rfl, rfl⟩
  have hcount : ((0 : Int32) + 1).toInt = 1 := rfl
  unfold CacheState.afterTask heavyState CacheState.new
  rw [if_pos heavyTask_proper.hasWeights]
  dsimp only
  rw [hsensitivity, hweight.1, hweight.2.1, hweight.2.2, hcount]
  norm_num

/-- There a light task scores below 0.201. -/
theorem heavyState_score_lt (p : ProcId) : cacheAwareScore unitTask p heavyState 8 < 0.201 := by
  have hload : calculateLoadBalanceScore 8 unitTask.time = 1 / 9 := by
    rw [unitTask_time]
    unfold calculateLoadBalanceScore
    norm_num
  have haffinity : calculateCacheAffinityScore unitTask p heavyState = 1 / 2 := by
    unfold calculateCacheAffinityScore
    rw [if_pos (by decide), if_pos (by decide), if_neg (by decide),
      show unitTask.sensitivity = 0 from rfl, show heavyState.avgTaskSensitivity = 1 from rfl]
    norm_num
  have hquality : calculateCacheQualityScore heavyState = 0.77 := by
    unfold calculateCacheQualityScore heavyState
    dsimp only
    rw [if_pos (by decide)]
    norm_num
  have hinterference : calculateCacheInterferenceScore unitTask heavyState = 0.2 := by
    unfold calculateCacheInterferenceScore
    dsimp only
    rw [show unitTask.sensitivity = 0 from rfl, show heavyState.avgTaskSensitivity = 1 from rfl,
      show heavyState.recentTaskCount.toInt = 1 from rfl]
    norm_num
  unfold cacheAwareScore
  dsimp only
  rw [calculateCacheBenefitScore_eq_zero unitTask_proper.hasWeights rfl, hload, haffinity,
    hquality, hinterference]
  norm_num

/-- Processor {lit}`b` got the heavy task, and the other ones all of the {lit}`n`
light tasks since. -/
structure Starved (st : CacheAwareState) (b : ProcId) (availableProc : List ProcId)
    (n : Nat) : Prop where
  keys : SameKeys st
  load : st.load b = 8
  cacheState : st.cacheState b = heavyState
  others_load : ∀ p, p ≠ b → 0 ≤ st.load p
  others_blank : ∀ p, p ≠ b → (st.cacheState p).Blank
  total : ∑ p ∈ availableProc.toFinset.erase b, st.load p = n

variable {st st' : CacheAwareState} {b : ProcId} {availableProc : List ProcId} {n : Nat}

/-- The starved processor has the lowest score. -/
theorem Starved.score_lt (h : Starved st b availableProc n) {p : ProcId} (hp : p ≠ b) :
    st.score unitTask b < st.score unitTask p := by
  rw [score_eq h.keys, score_eq h.keys, h.load, h.cacheState]
  linarith [heavyState_score_lt b, (h.others_blank p hp).score_gt p (h.others_load p hp)]

/-- So a light task goes to another one. -/
theorem Starved.assign (h : Starved st b availableProc n) {q : ProcId}
    (hq : q ∈ availableProc) (hqb : q ≠ b) (rest : List Node) :
    ∃ (p : ProcId) (st' : CacheAwareState) (readyNodes : List Node),
      st.allocate (unitTask :: rest) availableProc = .ok ((p : Int), st', readyNodes) ∧
      Starved st' b availableProc (n + 1) := by
  have hscore : doubleMinValue < st.score unitTask q := by
    rw [score_eq h.keys]
    have hgt := (h.others_blank q hqb).score_gt q (h.others_load q hqb)
    exact doubleMinValue_lt.trans ((by norm_num : (0.0045 : ℚ) < 0.212).trans hgt)
  rcases allocate_spec h.keys rest (List.ne_nil_of_mem hq) unitTask_proper.hasWeights with
    ⟨id, st', readyNodes, hallocate, hkeys', hspec⟩
  have hbest := (scan_spec (st.score unitTask) doubleMinValue availableProc).1
  cases hscan : (scan (st.score unitTask) doubleMinValue availableProc).1 with
  | none =>
      rw [hscan] at hbest
      exact absurd hscore (not_lt.mpr (hbest q hq))
  | some p =>
      rw [hscan] at hbest hspec
      rcases hspec with ⟨rfl, hassigned⟩
      have hpb : p ≠ b := by
        rintro rfl
        exact absurd (hbest.le hq) (not_le.mpr (h.score_lt hqb))
      refine ⟨p, st', readyNodes, hallocate, hkeys', ?_, ?_, ?_, ?_, ?_⟩
      · rw [hassigned.load, if_neg hpb.symm, h.load]
      · rw [hassigned.cacheState, if_neg hpb.symm, h.cacheState]
      · intro r hr
        rw [hassigned.load]
        split
        · exact add_nonneg (h.others_load r hr) (by rw [unitTask_time]; exact zero_le_one)
        · exact h.others_load r hr
      · intro r hr
        rw [hassigned.cacheState]
        split
        · exact (h.others_blank r hr).afterTask
        · exact h.others_blank r hr
      · have hmem : p ∈ availableProc.toFinset.erase b :=
          Finset.mem_erase.mpr ⟨hpb, List.mem_toFinset.mpr hbest.mem⟩
        have hload : ∀ r, st'.load r = st.load r + if r = p then 1 else 0 := by
          intro r
          rw [hassigned.load, unitTask_time]
          split
          · rfl
          · rw [add_zero]
        rw [Finset.sum_congr rfl fun r _ => hload r, Finset.sum_add_distrib, h.total,
          Finset.sum_ite_eq', if_pos hmem]
        push_cast
        rfl

/-! ## Runs that starve a processor -/

/-- A task without affinity scores the same wherever the state is the same. -/
theorem cacheAwareScore_of_noAffinity {node : Node} (hnode : node.affinity = -1) (p q : ProcId)
    (cacheState : CacheState) (load : ℚ) :
    cacheAwareScore node p cacheState load = cacheAwareScore node q cacheState load := by
  have haffinity : calculateCacheAffinityScore node p cacheState =
      calculateCacheAffinityScore node q cacheState := by
    unfold calculateCacheAffinityScore
    rw [if_neg (not_not.mpr hnode), if_neg (not_not.mpr hnode)]
  unfold cacheAwareScore
  rw [haffinity]

/-- The heavy task goes to the head of the list. -/
theorem starved_resetState (b : ProcId) (others : List ProcId) :
    ∃ (st' : CacheAwareState) (readyNodes : List Node),
      resetState.allocate [heavyTask] (b :: others) = .ok ((b : Int), st', readyNodes) ∧
      Starved st' b (b :: others) 0 := by
  have hscore : ∀ p, resetState.score heavyTask p = cacheAwareScore heavyTask b .new 0 := by
    intro p
    rw [score_eq sameKeys_resetState]
    exact cacheAwareScore_of_noAffinity rfl p b .new 0
  have hmean : CacheState.MeanBounds .new := ⟨le_rfl, zero_le_one⟩
  have hbest : (scan (resetState.score heavyTask) doubleMinValue (b :: others)).1 = some b := by
    apply scan_eq_iff.mpr
    refine ⟨?_, [], others, rfl, ?_, ?_⟩
    · rw [hscore]
      exact doubleMinValue_lt_score heavyTask_proper b CacheState.utilizationBounds_new hmean
        le_rfl
    · intro p hp
      cases hp
    · intro p _
      rw [hscore, hscore]
  rcases allocate_spec sameKeys_resetState [] (List.cons_ne_nil b others)
    heavyTask_proper.hasWeights with ⟨id, st', readyNodes, hallocate, hkeys', hspec⟩
  rw [hbest] at hspec
  rcases hspec with ⟨rfl, hassigned⟩
  refine ⟨st', readyNodes, hallocate, hkeys', ?_, ?_, ?_, ?_, ?_⟩
  · rw [hassigned.load, if_pos rfl, heavyTask_time, show resetState.load b = 0 from rfl, zero_add]
  · rw [hassigned.cacheState, if_pos rfl]
    exact heavyState_eq
  · intro p hp
    rw [hassigned.load, if_neg hp]
    exact le_rfl
  · intro p hp
    rw [hassigned.cacheState, if_neg hp]
    exact CacheState.blank_new
  · rw [Nat.cast_zero]
    apply Finset.sum_eq_zero
    intro p hp
    rw [hassigned.load, if_neg (Finset.mem_erase.mp hp).1]
    rfl

/-- One heavy task and any number of light ones starve the head of the list. -/
theorem run_starved {others : List ProcId} {q : ProcId} (hq : q ∈ b :: others) (hqb : q ≠ b)
    (n : Nat) :
    ∃ st log, run (⟨[heavyTask], b :: others⟩ :: List.replicate n (unitCall (b :: others))) =
      .ok (st, log) ∧ Starved st b (b :: others) n := by
  induction n with
  | zero =>
      rcases starved_resetState b others with ⟨st, readyNodes, hallocate, hstarved⟩
      refine ⟨st, [(⟨[heavyTask], b :: others⟩, (b : Int))], ?_, hstarved⟩
      exact run_append_of_allocate (show run [] = .ok (resetState, []) from rfl) hallocate
  | succ n ih =>
      rcases ih with ⟨st, log, hrun, hstarved⟩
      rcases hstarved.assign hq hqb [] with ⟨p, st', readyNodes, hallocate, hstarved'⟩
      refine ⟨st', log ++ [(unitCall (b :: others), (p : Int))], ?_, hstarved'⟩
      rw [List.replicate_succ', ← List.cons_append]
      exact run_append_of_allocate hrun hallocate

theorem Node.Proper.sized {node : Node} (h : node.Proper) {E : ℚ} (hE : node.time ≤ E) :
    node.Sized E where
  time_ge_one := h.time_ge_one
  time_le := hE
  sensitivity_nonneg := h.sensitivity_nonneg
  sensitivity_le_one := h.sensitivity_le_one
  weight_nonneg := h.weight_nonneg

/-- All of these tasks take at most 8 units of time. -/
theorem sized_of_mem_starving {others : List ProcId} {call : AllocateCall}
    (hcall : call ∈ (⟨[heavyTask], b :: others⟩ : AllocateCall) ::
      List.replicate n (unitCall (b :: others))) : call.Sized 8 (b :: others) := by
  rcases List.mem_cons.mp hcall with rfl | hcall
  · exact ⟨rfl, heavyTask, [], rfl, heavyTask_proper.sized heavyTask_time.le⟩
  · rw [List.eq_of_mem_replicate hcall]
    refine ⟨rfl, unitTask, [], rfl, unitTask_proper.sized ?_⟩
    rw [unitTask_time]
    norm_num

/-- The light tasks pile up on the other processors. -/
theorem not_imbalanceBounded {p q : ProcId} (hp : p ∈ availableProc) (hq : q ∈ availableProc)
    (hpq : p ≠ q) : ¬ImbalanceBounded availableProc := by
  rintro ⟨K, hbound⟩
  cases availableProc with
  | nil => cases hp
  | cons b others =>
      have hother : ∃ r ∈ b :: others, r ≠ b := by
        by_cases hpb : p = b
        · exact ⟨q, hq, fun hqb => hpq (hpb.trans hqb.symm)⟩
        · exact ⟨p, hp, hpb⟩
      rcases hother with ⟨r, hr, hrb⟩
      let others' := (b :: others).toFinset.erase b
      rcases exists_nat_gt ((others'.card : ℚ) * (K * 8 + 8)) with ⟨n, hn⟩
      rcases run_starved hr hrb n with ⟨st, log, hrun, hstarved⟩
      have hload : ∀ x ∈ others', st.load x ≤ K * 8 + 8 := by
        intro x hx
        have hdiff := hbound 8 (by norm_num) _ (fun call => sized_of_mem_starving) st log hrun x
          (List.mem_toFinset.mp (Finset.mem_of_mem_erase hx)) b List.mem_cons_self
        rw [hstarved.load] at hdiff
        linarith
      have hsum := Finset.sum_le_card_nsmul others' st.load (K * 8 + 8) hload
      rw [hstarved.total, nsmul_eq_mul] at hsum
      exact absurd hsum (not_le.mpr hn)

/-- The differences of loads are bounded by a multiple of the longest execution
time if and only if there is no second processor.  The runs that exceed a bound
beyond about 2^29 give some processor 2^32 tasks; there {lit}`recentTaskCount` is 0
again, and the quotient 0 / 0, which is 0 here, is NaN in the source. -/
theorem imbalanceBounded_iff (availableProc : List ProcId) :
    ImbalanceBounded availableProc ↔
      ∀ p ∈ availableProc, ∀ q ∈ availableProc, p = q := by
  constructor
  · intro hbounded p hp q hq
    by_contra hpq
    exact not_imbalanceBounded hp hq hpq hbounded
  · intro hsingle
    refine ⟨0, ?_⟩
    intro E _ calls _ st log _ p hp q hq
    rw [hsingle p hp q hq, sub_self, zero_mul]

/-- Two processors do not stay balanced. -/
theorem imbalance_unbounded : ¬ImbalanceBounded [0, 1] :=
  not_imbalanceBounded List.mem_cons_self (List.mem_cons_of_mem 0 List.mem_cons_self) zero_ne_one

end Simu
end YatCasched
