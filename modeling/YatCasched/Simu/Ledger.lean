import Mathlib.Algebra.BigOperators.Group.Finset.Piecewise
import Mathlib.Algebra.BigOperators.Ring.Finset
import Mathlib.Algebra.Order.BigOperators.Group.List
import YatCasched.Lib.MachineInt
import YatCasched.Lib.Run
import YatCasched.Simu.Allocate
import YatCasched.Simu.Score

/-!
# The ledger of the cache-aware allocator

A run of calls is recorded in a log of the calls and the ids they returned.  The
state the allocator keeps for each processor is exactly what the log says of it,
as long as no {lit}`int` counter has wrapped.

Main results:

- Theorem {lit}`AllocateCall.Harmless.step`: a call keeps the ledger exact.
- Theorem {lit}`run_ledger`: so does a run.
- Theorem {lit}`ledger_exact`: the ledger of a run of proper calls.
- Theorem {lit}`counters_wrap`: what happens at the 2^31st task.
-/

namespace YatCasched
namespace Simu

open CacheAwareState FirstBest

/-! ## Runs -/

/-- One call of {lit}`allocate`. -/
structure AllocateCall where
  readyNodes : List Node
  availableProc : List ProcId

/-- The calls so far, each with the id it returned. -/
abbrev Log := List (AllocateCall × Int)

/-- One call of a run. -/
def AllocateCall.step (s : CacheAwareState × Log) (call : AllocateCall) :
    Except JavaException (CacheAwareState × Log) :=
  match s.1.allocate call.readyNodes call.availableProc with
  | .error e => .error e
  | .ok (id, st, _) => .ok (st, s.2 ++ [(call, id)])

/-- A run from {lit}`resetState`. -/
def run (calls : List AllocateCall) : Except JavaException (CacheAwareState × Log) :=
  calls.foldlM AllocateCall.step (resetState, [])

/-- The tasks for which a processor was returned, in order. -/
def assigned (log : Log) (p : ProcId) : List Node :=
  log.filterMap fun entry => if entry.2 = (p : Int) then entry.1.readyNodes.head? else none

/-- A call with a proper first task and a processor to choose. -/
def AllocateCall.Proper (call : AllocateCall) : Prop :=
  ∃ node rest, call.readyNodes = node :: rest ∧ node.Proper ∧ call.availableProc ≠ []

/-- A proper call, or one that returns at once. -/
def AllocateCall.Harmless (call : AllocateCall) : Prop :=
  call.readyNodes = [] ∨ call.availableProc = [] ∨ call.Proper

/-- The arithmetic mean, 0 of no numbers. -/
def mean (l : List ℚ) : ℚ :=
  l.sum / l.length

/-- What the allocator keeps for each processor is what the log says. -/
structure Ledger (st : CacheAwareState) (log : Log) : Prop where
  load : ∀ p, st.load p = ((assigned log p).map Node.time).sum
  count : ∀ p, (st.count p).toInt = (assigned log p).length
  recent : ∀ p, (st.cacheState p).recentTaskCount.toInt = (assigned log p).length
  mean : ∀ p, (st.cacheState p).avgTaskSensitivity =
    mean ((assigned log p).map Node.sensitivity)
  utilization : ∀ p, (st.cacheState p).UtilizationBounds
  proper : ∀ p, ∀ node ∈ assigned log p, node.Proper
  placed : ∀ entry ∈ log, entry.1.Proper → ∃ p ∈ entry.1.availableProc, entry.2 = (p : Int)

/-- No counter has wrapped. -/
def CountersInRange (log : Log) : Prop :=
  ∀ p, (assigned log p).length < 2 ^ 31

/-! ## Logs -/

theorem assigned_append_singleton (log : Log) (call : AllocateCall) (id : Int) (p : ProcId) :
    assigned (log ++ [(call, id)]) p =
      assigned log p ++ if id = (p : Int) then call.readyNodes.head?.toList else [] := by
  unfold assigned
  rw [List.filterMap_append]
  split
  · rename_i hid
    cases hhead : call.readyNodes.head? with
    | none => simp [hid, hhead]
    | some node => simp [hid, hhead]
  · rename_i hid
    simp [hid]

/-- A log in range was in range before. -/
theorem CountersInRange.of_append {log : Log} {entry : AllocateCall × Int}
    (h : CountersInRange (log ++ [entry])) : CountersInRange log := by
  intro p
  have hp := h p
  rw [assigned_append_singleton, List.length_append] at hp
  omega

/-- A short log is in range. -/
theorem countersInRange_of_length {log : Log} (h : log.length < 2 ^ 31) :
    CountersInRange log := by
  intro p
  have hle : (assigned log p).length ≤ log.length := List.length_filterMap_le _ log
  omega

/-- Every entry with a processor is counted at one processor. -/
theorem sum_assigned_length (S : Finset ProcId) (log : Log)
    (hplaced : ∀ entry ∈ log, entry.1.readyNodes ≠ [] ∧ ∃ p ∈ S, entry.2 = (p : Int)) :
    ∑ p ∈ S, (assigned log p).length = log.length := by
  induction log using List.reverseRecOn with
  | nil => simp [assigned]
  | append_singleton log entry ih =>
      rcases hplaced entry (by simp) with ⟨hready, p, hp, hid⟩
      have hlog := ih fun e he => hplaced e (List.mem_append_left _ he)
      have hhead : entry.1.readyNodes.head?.toList.length = 1 := by
        rcases List.exists_cons_of_ne_nil hready with ⟨node, rest, hnode⟩
        rw [hnode]
        rfl
      have hentry : ∀ q, (assigned (log ++ [entry]) q).length =
          (assigned log q).length + if p = q then 1 else 0 := by
        intro q
        rw [assigned_append_singleton, List.length_append, hid]
        by_cases hpq : p = q
        · rw [if_pos hpq, if_pos (by rw [hpq]), hhead]
        · rw [if_neg hpq, if_neg (by exact_mod_cast hpq)]
          rfl
      rw [List.length_append, ← hlog, Finset.sum_congr rfl fun q _ => hentry q,
        Finset.sum_add_distrib, Finset.sum_ite_eq, if_pos hp]
      rfl

/-! ## Means -/

@[simp]
theorem mean_nil : mean [] = 0 := by
  simp [mean]

/-- The mean of numbers between 0 and 1 is between 0 and 1. -/
theorem mean_bounds {l : List ℚ} (h : ∀ x ∈ l, 0 ≤ x ∧ x ≤ 1) : 0 ≤ mean l ∧ mean l ≤ 1 := by
  unfold mean
  have hlength : (0 : ℚ) ≤ l.length := by positivity
  have hlow : 0 ≤ l.sum := List.sum_nonneg fun x hx => (h x hx).1
  have hhigh : l.sum ≤ l.length := by
    have hle := List.sum_le_card_nsmul l 1 fun x hx => (h x hx).2
    simpa using hle
  constructor
  · exact div_nonneg hlow hlength
  · exact div_le_one_of_le₀ hhigh hlength

/-- The incremental update of a mean. -/
theorem mean_append_singleton (l : List ℚ) (x : ℚ) :
    mean (l ++ [x]) = (mean l * l.length + x) / (l.length + 1) := by
  unfold mean
  rw [List.sum_append, List.sum_singleton, List.length_append, List.length_singleton]
  push_cast
  by_cases hl : (l.length : ℚ) = 0
  · have hnil : l = [] := by
      apply List.length_eq_zero_iff.mp
      exact_mod_cast hl
    rw [hnil]
    simp
  · rw [div_mul_cancel₀ _ hl]

/-! ## A call keeps the ledger -/

variable {st : CacheAwareState} {log : Log}

theorem ledger_resetState : Ledger resetState [] where
  load := fun _ => rfl
  count := fun _ => rfl
  recent := fun _ => rfl
  mean := fun _ => mean_nil.symm
  utilization := fun _ => CacheState.utilizationBounds_new
  proper := by
    intro p node hnode
    cases hnode
  placed := by
    intro entry hentry
    cases hentry

/-- The loads are not negative. -/
theorem Ledger.load_nonneg (h : Ledger st log) (p : ProcId) : 0 ≤ st.load p := by
  rw [h.load]
  apply List.sum_nonneg
  intro x hx
  rcases List.mem_map.mp hx with ⟨node, hnode, rfl⟩
  exact zero_le_one.trans (h.proper p node hnode).time_ge_one

/-- The mean sensitivities are between 0 and 1. -/
theorem Ledger.meanBounds (h : Ledger st log) (p : ProcId) :
    (st.cacheState p).MeanBounds := by
  have hbounds : ∀ x ∈ (assigned log p).map Node.sensitivity, 0 ≤ x ∧ x ≤ 1 := by
    intro x hx
    rcases List.mem_map.mp hx with ⟨node, hnode, rfl⟩
    exact ⟨(h.proper p node hnode).sensitivity_nonneg, (h.proper p node hnode).sensitivity_le_one⟩
  constructor
  · rw [h.mean]
    exact (mean_bounds hbounds).1
  · rw [h.mean]
    exact (mean_bounds hbounds).2

/-- Every score of a proper task beats the sentinel. -/
theorem Ledger.doubleMinValue_lt_score (h : Ledger st log) (hkeys : SameKeys st) {node : Node}
    (hnode : node.Proper) (p : ProcId) : doubleMinValue < st.score node p := by
  rw [score_eq hkeys]
  exact Simu.doubleMinValue_lt_score hnode p (h.utilization p) (h.meanBounds p) (h.load_nonneg p)

/-- So the scan finds a processor. -/
theorem Ledger.scan_isSome (h : Ledger st log) (hkeys : SameKeys st) {node : Node}
    (hnode : node.Proper) {availableProc : List ProcId} (havailable : availableProc ≠ []) :
    ∃ p ∈ availableProc, (scan (st.score node) doubleMinValue availableProc).1 = some p := by
  have hspec := (scan_spec (st.score node) doubleMinValue availableProc).1
  cases hbest : (scan (st.score node) doubleMinValue availableProc).1 with
  | none =>
      rw [hbest] at hspec
      rcases List.exists_mem_of_ne_nil availableProc havailable with ⟨p, hp⟩
      exact absurd (h.doubleMinValue_lt_score hkeys hnode p) (not_lt.mpr (hspec p hp))
  | some p =>
      rw [hbest] at hspec
      exact ⟨p, hspec.mem, rfl⟩

/-- A task given to a processor is entered in the ledger. -/
theorem Ledger.assign (h : Ledger st log) {st' : CacheAwareState} {p : ProcId}
    {call : AllocateCall} {node : Node} {rest : List Node}
    (hready : call.readyNodes = node :: rest) (hnode : node.Proper)
    (hp : p ∈ call.availableProc) (hassigned : Assigned st st' p node)
    (hrange : CountersInRange (log ++ [(call, (p : Int))])) :
    Ledger st' (log ++ [(call, (p : Int))]) := by
  have hlog : ∀ q, assigned (log ++ [(call, (p : Int))]) q =
      assigned log q ++ if q = p then [node] else [] := by
    intro q
    rw [assigned_append_singleton, hready]
    by_cases hqp : q = p
    · rw [if_pos hqp, if_pos (by rw [hqp])]
      rfl
    · rw [if_neg hqp, if_neg (by exact_mod_cast Ne.symm hqp)]
  have hbound : (assigned log p).length + 1 < 2 ^ 31 := by
    have hp' := hrange p
    rw [hlog, if_pos rfl, List.length_append] at hp'
    exact hp'
  constructor
  · intro q
    rw [hassigned.load, hlog]
    split
    · rw [h.load, List.map_append, List.sum_append, List.map_singleton, List.sum_singleton]
    · rw [h.load, List.append_nil]
  · intro q
    rw [hassigned.count, hlog]
    split
    · rename_i hqp
      subst hqp
      rw [MachineInt.toInt_add_one (by rw [h.count]; exact_mod_cast hbound), h.count,
        List.length_append]
      rfl
    · rw [h.count, List.append_nil]
  · intro q
    rw [hassigned.cacheState, hlog]
    split
    · rename_i hqp
      subst hqp
      rw [CacheState.afterTask_recentTaskCount,
        MachineInt.toInt_add_one (by rw [h.recent]; exact_mod_cast hbound), h.recent,
        List.length_append]
      rfl
    · rw [h.recent, List.append_nil]
  · intro q
    rw [hassigned.cacheState, hlog]
    split
    · rename_i hqp
      subst hqp
      rw [CacheState.afterTask_avgTaskSensitivity,
        MachineInt.toInt_add_one (by rw [h.recent]; exact_mod_cast hbound), h.recent, h.mean,
        List.map_append, List.map_singleton, mean_append_singleton, List.length_map]
      push_cast
      rfl
    · rw [h.mean, List.append_nil]
  · intro q
    rw [hassigned.cacheState]
    split
    · exact (h.utilization q).afterTask hnode
    · exact h.utilization q
  · intro q other hother
    rw [hlog] at hother
    rcases List.mem_append.mp hother with hother | hother
    · exact h.proper q other hother
    · split at hother
      · rw [List.mem_singleton.mp hother]
        exact hnode
      · cases hother
  · intro entry hentry hproper
    rcases List.mem_append.mp hentry with hentry | hentry
    · exact h.placed entry hentry hproper
    · rw [List.mem_singleton.mp hentry]
      exact ⟨p, hp, rfl⟩

/-- A call that is not about any processor leaves the ledger alone. -/
theorem Ledger.skip (h : Ledger st log) {call : AllocateCall} (hcall : ¬call.Proper) :
    Ledger st (log ++ [(call, -1)]) := by
  have hlog : ∀ q, assigned (log ++ [(call, -1)]) q = assigned log q := by
    intro q
    rw [assigned_append_singleton, if_neg (by omega), List.append_nil]
  constructor
  · intro q
    rw [hlog, h.load]
  · intro q
    rw [hlog, h.count]
  · intro q
    rw [hlog, h.recent]
  · intro q
    rw [hlog, h.mean]
  · exact h.utilization
  · intro q
    rw [hlog]
    exact h.proper q
  · intro entry hentry hproper
    rcases List.mem_append.mp hentry with hentry | hentry
    · exact h.placed entry hentry hproper
    · rw [List.mem_singleton.mp hentry] at hproper
      exact absurd hproper hcall

/-- A harmless call succeeds, and keeps the ledger exact as long as no counter
wraps. -/
theorem AllocateCall.Harmless.step {call : AllocateCall} (hcall : call.Harmless)
    (hkeys : SameKeys st) (log : Log) :
    ∃ st' id, AllocateCall.step (st, log) call = .ok (st', log ++ [(call, id)]) ∧
      SameKeys st' ∧
      (Ledger st log → CountersInRange (log ++ [(call, id)]) →
        Ledger st' (log ++ [(call, id)])) := by
  unfold AllocateCall.step
  dsimp only
  by_cases hproper : call.Proper
  · rcases hproper with ⟨node, rest, hready, hnode, havailable⟩
    rw [hready]
    rcases allocate_spec hkeys rest havailable hnode.hasWeights with
      ⟨id, st', readyNodes, hallocate, hkeys', hspec⟩
    rw [hallocate]
    refine ⟨st', id, rfl, hkeys', ?_⟩
    intro hledger hrange
    rcases hledger.scan_isSome hkeys hnode havailable with ⟨p, hp, hbest⟩
    rw [hbest] at hspec
    rcases hspec with ⟨rfl, hassigned⟩
    exact hledger.assign hready hnode hp hassigned hrange
  · have hreturn : st.allocate call.readyNodes call.availableProc =
        .ok (-1, st, call.readyNodes) := by
      rcases hcall with hready | havailable | hcall
      · rw [hready]
        rfl
      · rw [havailable]
        cases call.readyNodes with
        | nil => rfl
        | cons node rest => rfl
      · exact absurd hcall hproper
    rw [hreturn]
    exact ⟨st, -1, rfl, hkeys, fun hledger _ => hledger.skip hproper⟩

/-! ## Runs keep the ledger -/

/-- A run goes on with a call that succeeds. -/
theorem run_append_of_allocate {calls : List AllocateCall} {call : AllocateCall} {id : Int}
    {st' : CacheAwareState} {readyNodes : List Node} (hrun : run calls = .ok (st, log))
    (hallocate : st.allocate call.readyNodes call.availableProc = .ok (id, st', readyNodes)) :
    run (calls ++ [call]) = .ok (st', log ++ [(call, id)]) := by
  apply Run.foldlM_append_singleton hrun
  unfold AllocateCall.step
  dsimp only
  rw [hallocate]

/-- A run of harmless calls succeeds, and its ledger is exact as long as no counter
wraps. -/
theorem run_ledger (calls : List AllocateCall) (hcalls : ∀ call ∈ calls, call.Harmless) :
    ∃ st log, run calls = .ok (st, log) ∧ log.map Prod.fst = calls ∧ SameKeys st ∧
      (CountersInRange log → Ledger st log) := by
  have hrun : ∃ s, run calls = .ok s ∧ s.2.map Prod.fst = calls ∧ SameKeys s.1 ∧
      (CountersInRange s.2 → Ledger s.1 s.2) := by
    apply Run.exists_foldlM ⟨rfl, sameKeys_resetState, fun _ => ledger_resetState⟩
    rintro before call after ⟨st, log⟩ rfl ⟨hlog, hkeys, hledger⟩
    rcases (hcalls call (by simp)).step hkeys log with ⟨st', id, hstep, hkeys', hkeep⟩
    refine ⟨(st', log ++ [(call, id)]), hstep, ?_, hkeys', ?_⟩
    · rw [List.map_append, hlog]
      rfl
    · intro hrange
      exact hkeep (hledger hrange.of_append) hrange
  rcases hrun with ⟨⟨st, log⟩, hrun, hlog⟩
  exact ⟨st, log, hrun, hlog⟩

/-- Every proper call is counted at a processor it could choose. -/
theorem Ledger.sum_count (h : Ledger st log) (hproper : ∀ entry ∈ log, entry.1.Proper)
    (S : Finset ProcId) (hS : ∀ entry ∈ log, ∀ p ∈ entry.1.availableProc, p ∈ S) :
    ∑ p ∈ S, (st.count p).toInt = log.length := by
  have hplaced : ∀ entry ∈ log, entry.1.readyNodes ≠ [] ∧ ∃ p ∈ S, entry.2 = (p : Int) := by
    intro entry hentry
    constructor
    · rcases hproper entry hentry with ⟨node, rest, hready, _⟩
      rw [hready]
      exact List.cons_ne_nil node rest
    · rcases h.placed entry hentry (hproper entry hentry) with ⟨p, hp, hid⟩
      exact ⟨p, hS entry hentry p hp, hid⟩
  calc
    ∑ p ∈ S, (st.count p).toInt = ∑ p ∈ S, ((assigned log p).length : Int) :=
      Finset.sum_congr rfl fun p _ => h.count p
    _ = (∑ p ∈ S, (assigned log p).length : Nat) := (Nat.cast_sum S _).symm
    _ = log.length := by rw [sum_assigned_length S log hplaced]

/-- The ledger of a run of proper calls.  As long as no processor has been given
2^31 tasks, its load is the sum of the execution times of its tasks, both of its
counters are their number, its mean sensitivity is the mean of theirs, and its
utilisations are within their caps; and every call is counted once. -/
theorem ledger_exact (calls : List AllocateCall) (hcalls : ∀ call ∈ calls, call.Proper) :
    ∃ st log, run calls = .ok (st, log) ∧ log.map Prod.fst = calls ∧
      (CountersInRange log →
        (∀ p, st.load p = ((assigned log p).map Node.time).sum ∧
          (st.count p).toInt = (assigned log p).length ∧
          (st.cacheState p).recentTaskCount.toInt = (assigned log p).length ∧
          (st.cacheState p).avgTaskSensitivity =
            mean ((assigned log p).map Node.sensitivity) ∧
          (st.cacheState p).UtilizationBounds) ∧
        ∀ S : Finset ProcId, (∀ call ∈ calls, ∀ p ∈ call.availableProc, p ∈ S) →
          ∑ p ∈ S, (st.count p).toInt = calls.length) := by
  rcases run_ledger calls fun call hcall => Or.inr (Or.inr (hcalls call hcall)) with
    ⟨st, log, hrun, hlog, _, hledger⟩
  refine ⟨st, log, hrun, hlog, ?_⟩
  intro hrange
  have h := hledger hrange
  constructor
  · intro p
    exact ⟨h.load p, h.count p, h.recent p, h.mean p, h.utilization p⟩
  · intro S hS
    have hmem : ∀ entry ∈ log, entry.1 ∈ calls := by
      intro entry hentry
      rw [← hlog]
      exact List.mem_map_of_mem hentry
    rw [h.sum_count (fun entry hentry => hcalls _ (hmem entry hentry)) S
      fun entry hentry => hS _ (hmem entry hentry), ← hlog, List.length_map]

/-! ## Concrete runs -/

/-- A task of one unit of time, without preferences. -/
def unitTask : Node :=
  Node.new 0 .solo 0 0 1 0 [0, 0, 0, 0]

theorem unitTask_time : unitTask.time = 1 := by
  unfold Node.time
  rw [show unitTask.expectedET.toInt = 1 from rfl]
  norm_num

theorem unitTask_weight (i : Nat) : unitTask.weight i = 0 := by
  have hweights : unitTask.weights = some [0, 0, 0, 0] := rfl
  rcases Node.weight_eq_zero_or_mem hweights i with hzero | hmem
  · exact hzero
  · simpa using hmem

theorem unitTask_proper : unitTask.Proper where
  time_ge_one := unitTask_time.ge
  sensitivity_nonneg := le_rfl
  sensitivity_le_one := zero_le_one
  hasWeights := rfl
  weight_nonneg := fun i => (unitTask_weight i).ge

/-- The task is given to one of two processors. -/
def unitCall (availableProc : List ProcId) : AllocateCall where
  readyNodes := [unitTask]
  availableProc := availableProc

theorem unitCall_proper {availableProc : List ProcId} (h : availableProc ≠ []) :
    (unitCall availableProc).Proper :=
  ⟨unitTask, [], rfl, unitTask_proper, h⟩

/-- Two calls on two processors are counted as two tasks. -/
theorem ledger_exact_twoCalls :
    ∃ st log, run [unitCall [0, 1], unitCall [0, 1]] = .ok (st, log) ∧
      (st.count 0).toInt + (st.count 1).toInt = 2 := by
  rcases ledger_exact [unitCall [0, 1], unitCall [0, 1]]
    (by simp [unitCall_proper]) with ⟨st, log, hrun, hlog, hexact⟩
  have hlength : log.length = 2 := by
    rw [← List.length_map Prod.fst, hlog]
    rfl
  have hsum := (hexact (countersInRange_of_length (by omega))).2 {0, 1}
    (by simp [unitCall])
  refine ⟨st, log, hrun, ?_⟩
  simpa using hsum

/-- Nothing is assigned but first tasks of calls. -/
theorem mem_assigned {log : Log} {p : ProcId} {node : Node} (h : node ∈ assigned log p) :
    ∃ entry ∈ log, entry.1.readyNodes.head? = some node := by
  unfold assigned at h
  rcases List.mem_filterMap.mp h with ⟨entry, hentry, hnode⟩
  split at hnode
  · exact ⟨entry, hentry, hnode⟩
  · cases hnode

/-- Fewer than 2^31 tasks on a single processor are counted. -/
theorem run_replicate {m : Nat} (hm : m < 2 ^ 31) :
    ∃ st log, run (List.replicate m (unitCall [0])) = .ok (st, log) ∧ SameKeys st ∧
      Ledger st log ∧ (assigned log 0).length = m ∧
      (st.cacheState 0).avgTaskSensitivity = 0 := by
  have hcalls : ∀ call ∈ List.replicate m (unitCall [0]), call = unitCall [0] := fun call hcall =>
    List.eq_of_mem_replicate hcall
  have hproper : ∀ call ∈ List.replicate m (unitCall [0]), call.Proper := by
    intro call hcall
    rw [hcalls call hcall]
    exact unitCall_proper (by simp)
  rcases run_ledger _ fun call hcall => Or.inr (Or.inr (hproper call hcall)) with
    ⟨st, log, hrun, hlog, hkeys, hledger⟩
  have hmem : ∀ entry ∈ log, entry.1 ∈ List.replicate m (unitCall [0]) := by
    intro entry hentry
    rw [← hlog]
    exact List.mem_map_of_mem hentry
  have hlength : log.length = m := by
    rw [← List.length_map Prod.fst, hlog, List.length_replicate]
  have h := hledger (countersInRange_of_length (by omega))
  refine ⟨st, log, hrun, hkeys, h, ?_, ?_⟩
  · have hplaced : ∀ entry ∈ log, entry.1.readyNodes ≠ [] ∧
        ∃ p ∈ ({0} : Finset ProcId), entry.2 = (p : Int) := by
      intro entry hentry
      rcases h.placed entry hentry (hproper _ (hmem entry hentry)) with ⟨p, hp, hid⟩
      rw [hcalls _ (hmem entry hentry)] at hp ⊢
      exact ⟨List.cons_ne_nil _ _, p, by simpa [unitCall] using hp, hid⟩
    have hsum := sum_assigned_length {0} log hplaced
    rw [Finset.sum_singleton, hlength] at hsum
    exact hsum
  · have hzero : ∀ x ∈ (assigned log 0).map Node.sensitivity, x = 0 := by
      intro x hx
      rcases List.mem_map.mp hx with ⟨node, hnode, rfl⟩
      rcases mem_assigned hnode with ⟨entry, hentry, hhead⟩
      rw [hcalls _ (hmem entry hentry)] at hhead
      rw [← Option.some.inj hhead]
      rfl
    rw [h.mean]
    unfold mean
    rw [List.sum_eq_zero hzero, zero_div]

/-- The 2^31st task on a single processor. -/
theorem run_wrap :
    ∃ st log, run (List.replicate (2 ^ 31) (unitCall [0])) = .ok (st, log) ∧ SameKeys st ∧
      (assigned log 0).length = 2 ^ 31 ∧ (st.count 0).toInt = -2 ^ 31 ∧
      (st.cacheState 0).recentTaskCount.toInt = -2 ^ 31 ∧
      (st.cacheState 0).avgTaskSensitivity = 0 ∧ 0 ≤ st.load 0 := by
  rcases @run_replicate (2 ^ 31 - 1) (by norm_num) with
    ⟨st, log, hrun, hkeys, h, hlength, hmean⟩
  rcases allocate_spec hkeys [] (List.cons_ne_nil 0 []) unitTask_proper.hasWeights with
    ⟨id, st', readyNodes, hallocate, hkeys', hspec⟩
  rcases h.scan_isSome hkeys unitTask_proper (List.cons_ne_nil 0 []) with ⟨p, hp, hbest⟩
  rw [hbest] at hspec
  rcases hspec with ⟨rfl, hassigned⟩
  have hp0 : p = 0 := List.mem_singleton.mp hp
  subst hp0
  refine ⟨st', log ++ [(unitCall [0], 0)], ?_, hkeys', ?_, ?_, ?_, ?_, ?_⟩
  · rw [show (2 ^ 31 : Nat) = 2 ^ 31 - 1 + 1 by norm_num, List.replicate_succ']
    exact run_append_of_allocate hrun hallocate
  · rw [assigned_append_singleton, List.length_append, hlength]
    rfl
  · rw [hassigned.count, if_pos rfl, MachineInt.toInt_add_one_wrap]
    rw [h.count, hlength]
    norm_num
  · rw [hassigned.cacheState, if_pos rfl, CacheState.afterTask_recentTaskCount,
      MachineInt.toInt_add_one_wrap]
    rw [h.recent, hlength]
    norm_num
  · rw [hassigned.cacheState, if_pos rfl, CacheState.afterTask_avgTaskSensitivity, hmean,
      show unitTask.sensitivity = 0 from rfl, zero_mul, zero_add, zero_div]
  · rw [hassigned.load, if_pos rfl]
    exact add_nonneg (h.load_nonneg 0) (zero_le_one.trans unitTask_proper.time_ge_one)

/-- The 2^31st task on one processor turns both of its counters negative. -/
theorem counters_wrap :
    ∃ st log, run (List.replicate (2 ^ 31) (unitCall [0])) = .ok (st, log) ∧
      (assigned log 0).length = 2 ^ 31 ∧ (st.count 0).toInt = -2 ^ 31 ∧
      (st.cacheState 0).recentTaskCount.toInt = -2 ^ 31 := by
  rcases run_wrap with ⟨st, log, hrun, _, hlength, hcount, hrecent, _, _⟩
  exact ⟨st, log, hrun, hlength, hcount, hrecent⟩

end Simu
end YatCasched
