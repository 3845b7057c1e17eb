import YatCasched.Simu.Ledger

/-!
# The allocator chooses the best processor

In every state a run of proper calls reaches, the first processor with the
greatest score is chosen, and no other is changed.  Two things can spoil this: a
task that is not proper earlier in the run, and a counter that has wrapped.

Main results:

- Theorem {lit}`allocate_argmax`: a call chooses the first best processor.
- Theorem {lit}`argmax_lost`: why its two conditions are there.
-/

namespace YatCasched
namespace Simu

open CacheAwareState FirstBest

/-- What a call on a task does when it chooses the best processor: every score
beats the sentinel, the loop ends with the first processor of the list that has
the greatest score, and that processor is returned and updated, alone. -/
def AllocatesBest (st : CacheAwareState) (node : Node) (rest : List Node)
    (availableProc : List ProcId) : Prop :=
  (∀ p ∈ availableProc, doubleMinValue < st.score node p) ∧
    ∃ (p : ProcId) (st' : CacheAwareState) (readyNodes : List Node),
      st.allocate (node :: rest) availableProc = .ok ((p : Int), st', readyNodes) ∧
      (availableProc.foldl (scoreRound node) (st, none, doubleMinValue)).2.1 = some p ∧
      (∃ before after, availableProc = before ++ p :: after ∧
        (∀ q ∈ before, st.score node q < st.score node p) ∧
        ∀ q ∈ after, st.score node q ≤ st.score node p) ∧
      Assigned st st' p node

/-- When every score beats the sentinel, a first best processor is chosen. -/
theorem exists_assigned_of_score {st : CacheAwareState} (hkeys : SameKeys st) {node : Node}
    (hweights : node.hasWeights = true) (rest : List Node) {availableProc : List ProcId}
    (havailable : availableProc ≠ [])
    (hscore : ∀ p ∈ availableProc, doubleMinValue < st.score node p) :
    ∃ (p : ProcId) (st' : CacheAwareState) (readyNodes : List Node),
      st.allocate (node :: rest) availableProc = .ok ((p : Int), st', readyNodes) ∧
      IsFirstBest (st.score node) doubleMinValue availableProc (some p) ∧
      SameKeys st' ∧ Assigned st st' p node := by
  rcases allocate_spec hkeys rest havailable hweights with
    ⟨id, st', readyNodes, hallocate, hkeys', hspec⟩
  have hbest := (scan_spec (st.score node) doubleMinValue availableProc).1
  cases hscan : (scan (st.score node) doubleMinValue availableProc).1 with
  | none =>
      rw [hscan] at hbest
      rcases List.exists_mem_of_ne_nil availableProc havailable with ⟨p, hp⟩
      exact absurd (hscore p hp) (not_lt.mpr (hbest p hp))
  | some p =>
      rw [hscan] at hbest hspec
      rcases hspec with ⟨rfl, hassigned⟩
      exact ⟨p, st', readyNodes, hallocate, hbest, hkeys', hassigned⟩

theorem allocatesBest_of_score {st : CacheAwareState} (hkeys : SameKeys st) {node : Node}
    (hweights : node.hasWeights = true) (rest : List Node) {availableProc : List ProcId}
    (havailable : availableProc ≠ [])
    (hscore : ∀ p ∈ availableProc, doubleMinValue < st.score node p) :
    AllocatesBest st node rest availableProc := by
  rcases exists_assigned_of_score hkeys hweights rest havailable hscore with
    ⟨p, st', readyNodes, hallocate, hbest, _, hassigned⟩
  refine ⟨hscore, p, st', readyNodes, hallocate, ?_, hbest.2, hassigned⟩
  rcases foldl_scoreRound hkeys node availableProc with ⟨st₁, hfold, _, _⟩
  rw [hfold]
  exact scan_eq_iff.mpr hbest

/-- A call on a proper task chooses the first best processor in every state that
calls on proper tasks reach, as long as no processor has been given 2^31 tasks. -/
theorem allocate_argmax (history : List AllocateCall)
    (hhistory : ∀ call ∈ history, call.Harmless) {node : Node} (hnode : node.Proper)
    (rest : List Node) {availableProc : List ProcId} (havailable : availableProc ≠ []) :
    ∃ st log, run history = .ok (st, log) ∧ log.map Prod.fst = history ∧
      (CountersInRange log → AllocatesBest st node rest availableProc) := by
  rcases run_ledger history hhistory with ⟨st, log, hrun, hlog, hkeys, hledger⟩
  refine ⟨st, log, hrun, hlog, ?_⟩
  intro hrange
  apply allocatesBest_of_score hkeys hnode.hasWeights rest havailable
  intro p _
  exact (hledger hrange).doubleMinValue_lt_score hkeys hnode p

/-- After one call, the task goes to the processor that has no load. -/
theorem allocate_argmax_secondCall :
    ∃ st log, run [unitCall [0, 1]] = .ok (st, log) ∧ AllocatesBest st unitTask [] [0, 1] := by
  rcases allocate_argmax [unitCall [0, 1]] (by simp [AllocateCall.Harmless, unitCall_proper])
    unitTask_proper [] (List.cons_ne_nil 0 [1]) with ⟨st, log, hrun, hlog, hbest⟩
  have hlength : log.length = 1 := by
    rw [← List.length_map Prod.fst, hlog]
    rfl
  exact ⟨st, log, hrun, hbest (countersInRange_of_length (by omega))⟩

/-! ## After a counter has wrapped -/

/-- A task that suffers from every cache miss. -/
def sensitiveTask : Node :=
  { unitTask with sensitivity := 1 }

theorem sensitiveTask_proper : sensitiveTask.Proper where
  time_ge_one := unitTask_proper.time_ge_one
  sensitivity_nonneg := zero_le_one
  sensitivity_le_one := le_rfl
  hasWeights := unitTask_proper.hasWeights
  weight_nonneg := unitTask_proper.weight_nonneg

/-- The state after 2^31 tasks without sensitivity and {lit}`j` sensitive ones on
one processor: the sum of the sensitivities is right, the number of tasks is 2^32
too small. -/
structure Wrapped (st : CacheAwareState) (j : Nat) : Prop where
  keys : SameKeys st
  recent : (st.cacheState 0).recentTaskCount.toInt = -2 ^ 31 + (j : Int)
  sum : (st.cacheState 0).avgTaskSensitivity * (-2 ^ 31 + j) = j
  load_nonneg : 0 ≤ st.load 0

/-- One more sensitive task. -/
theorem Wrapped.assign {st st' : CacheAwareState} {j : Nat} (h : Wrapped st j)
    (hj : j + 1 < 2 ^ 31) (hkeys : SameKeys st') (hassigned : Assigned st st' 0 sensitiveTask) :
    Wrapped st' (j + 1) := by
  have hnext : ((st.cacheState 0).recentTaskCount + 1).toInt = -2 ^ 31 + (j + 1 : Int) := by
    rw [MachineInt.toInt_add_one (by rw [h.recent]; omega), h.recent]
    ring
  have hne : (-2 ^ 31 + ((j + 1 : Nat) : ℚ)) ≠ 0 := by
    have hlt : ((j + 1 : Nat) : ℚ) < 2 ^ 31 := by exact_mod_cast hj
    linarith
  refine ⟨hkeys, ?_, ?_, ?_⟩
  · rw [hassigned.cacheState, if_pos rfl, CacheState.afterTask_recentTaskCount, hnext]
    push_cast
    rfl
  · have hden : ((((st.cacheState 0).recentTaskCount + 1).toInt : Int) : ℚ) =
        -2 ^ 31 + ((j + 1 : Nat) : ℚ) := by
      rw [hnext]
      push_cast
      rfl
    have hcount : (((st.cacheState 0).recentTaskCount.toInt : Int) : ℚ) = -2 ^ 31 + (j : ℚ) := by
      rw [h.recent]
      push_cast
      rfl
    rw [hassigned.cacheState, if_pos rfl, CacheState.afterTask_avgTaskSensitivity, hden, hcount,
      div_mul_cancel₀ _ hne, h.sum]
    push_cast
    rfl
  · rw [hassigned.load, if_pos rfl]
    exact add_nonneg h.load_nonneg (zero_le_one.trans sensitiveTask_proper.time_ge_one)

/-- A thousand tasks before the count is zero again, the mean is below -2 million,
and the difference to it outweighs everything. -/
theorem Wrapped.score_neg {st : CacheAwareState} (h : Wrapped st (2 ^ 31 - 1000)) :
    st.score unitTask 0 < 0 := by
  have hrecent : (((st.cacheState 0).recentTaskCount.toInt : Int) : ℚ) = -1000 := by
    rw [h.recent]
    norm_num
  have hmean : (st.cacheState 0).avgTaskSensitivity ≤ -2000000 := by
    have hsum := h.sum
    norm_num at hsum
    linarith
  have hinterference :
      300000 - 50 ≤ calculateCacheInterferenceScore unitTask (st.cacheState 0) := by
    unfold calculateCacheInterferenceScore
    rw [hrecent]
    dsimp only
    have hdifference : 2000000 ≤
        |unitTask.sensitivity - (st.cacheState 0).avgTaskSensitivity| := by
      rw [show unitTask.sensitivity = 0 from rfl]
      apply le_abs.mpr
      left
      linarith
    have hcount : (-50 : ℚ) ≤ min (-1000 * 0.05) 0.3 := by norm_num
    linarith
  rw [score_eq h.keys]
  unfold cacheAwareScore
  dsimp only
  rw [calculateCacheBenefitScore_eq_zero unitTask_proper.hasWeights rfl]
  linarith [calculateLoadBalanceScore_le_one h.load_nonneg
      (zero_le_one.trans unitTask_proper.time_ge_one),
    calculateCacheAffinityScore_le_one unitTask 0 (st.cacheState 0),
    calculateCacheQualityScore_le_one (st.cacheState 0)]

/-- If calls on proper tasks always chose the best processor, the counter of a
single processor could be driven there. -/
theorem run_wrapped (hbest : ∀ history : List AllocateCall, (∀ call ∈ history, call.Proper) →
      ∀ st log, run history = .ok (st, log) → ∀ node : Node, node.Proper →
        ∀ rest availableProc, availableProc ≠ [] → AllocatesBest st node rest availableProc)
    {j : Nat} (hj : j < 2 ^ 31) :
    ∃ history : List AllocateCall, (∀ call ∈ history, call.Proper) ∧
      ∃ st log, run history = .ok (st, log) ∧ Wrapped st j := by
  induction j with
  | zero =>
      rcases run_wrap with ⟨st, log, hrun, hkeys, _, _, hrecent, hmean, hload⟩
      refine ⟨List.replicate (2 ^ 31) (unitCall [0]), ?_, st, log, hrun, hkeys, ?_, ?_, hload⟩
      · intro call hcall
        rw [List.eq_of_mem_replicate hcall]
        exact unitCall_proper (List.cons_ne_nil 0 [])
      · rw [hrecent]
        rfl
      · rw [hmean, zero_mul]
        rfl
  | succ j ih =>
      rcases ih (by omega) with ⟨history, hproper, st, log, hrun, hwrapped⟩
      have hscore := (hbest history hproper st log hrun sensitiveTask sensitiveTask_proper []
        [0] (List.cons_ne_nil 0 [])).1
      rcases exists_assigned_of_score hwrapped.keys sensitiveTask_proper.hasWeights []
        (List.cons_ne_nil 0 []) hscore with
          ⟨p, st', readyNodes, hallocate, hfirst, hkeys', hassigned⟩
      have hp0 : p = 0 := List.mem_singleton.mp hfirst.mem
      subst hp0
      refine ⟨history ++ [⟨[sensitiveTask], [0]⟩], ?_, st',
        log ++ [(⟨[sensitiveTask], [0]⟩, ((0 : ProcId) : Int))], ?_,
        hwrapped.assign hj hkeys' hassigned⟩
      · intro call hcall
        rcases List.mem_append.mp hcall with hcall | hcall
        · exact hproper call hcall
        · rw [List.mem_singleton.mp hcall]
          exact ⟨sensitiveTask, [], rfl, sensitiveTask_proper, List.cons_ne_nil 0 []⟩
      · exact run_append_of_allocate hrun hallocate

/-- A call on a proper task does not always choose the best processor: not after
every run of calls on proper tasks, for a counter may have wrapped; and not after
every short run, for the tasks in it may have been of any kind. -/
theorem argmax_lost :
    (¬∀ history : List AllocateCall, (∀ call ∈ history, call.Proper) →
      ∀ st log, run history = .ok (st, log) → ∀ node : Node, node.Proper →
        ∀ rest availableProc, availableProc ≠ [] → AllocatesBest st node rest availableProc) ∧
    ¬∀ history st log, run history = .ok (st, log) → CountersInRange log →
      ∀ node : Node, node.Proper →
        ∀ rest availableProc, availableProc ≠ [] → AllocatesBest st node rest availableProc := by
  constructor
  · intro hbest
    rcases run_wrapped hbest (by norm_num : 2 ^ 31 - 1000 < 2 ^ 31) with
      ⟨history, hproper, st, log, hrun, hwrapped⟩
    have hscore := (hbest history hproper st log hrun unitTask unitTask_proper [] [0]
      (List.cons_ne_nil 0 [])).1 0 List.mem_cons_self
    exact absurd (hscore.trans hwrapped.score_neg) (not_lt.mpr doubleMinValue_pos.le)
  · intro hbest
    have hlost : (run [⟨[{ unitTask with sensitivity := 70 }], [0]⟩]).toOption.map
        (fun s => (s.2.length, ([0].foldl (scoreRound unitTask)
          (s.1, none, doubleMinValue)).2.1)) = some (1, none) := by
      decide +kernel
    cases hrun : run [⟨[{ unitTask with sensitivity := 70 }], [0]⟩] with
    | error e =>
        rw [hrun] at hlost
        cases hlost
    | ok s =>
        rw [hrun] at hlost
        rcases Prod.mk.inj (Option.some.inj hlost) with ⟨hlength, hnone⟩
        rcases hbest _ s.1 s.2 hrun (countersInRange_of_length (by omega)) unitTask
          unitTask_proper [] [0] (List.cons_ne_nil 0 []) with
            ⟨_, p, st', readyNodes, _, hsome, _⟩
        rw [hnone] at hsome
        cases hsome

end Simu
end YatCasched
