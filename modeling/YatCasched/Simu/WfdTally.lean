import Mathlib.Data.Finset.Dedup
import Mathlib.Data.Finset.Max
import YatCasched.Lib.Run
import YatCasched.Simu.Wfd

/-!
# The least-loaded processor

The documentation of {lit}`WFD` says that each task goes to the available processor with
the least load.  A tally beside the array keeps the exact sum of the execution times of
the tasks each processor was given.  The array agrees with the tally as long as a sum
fits an {lit}`int`, but it has no entry for the processors from 8 on, which the search
passes over.

Main results:

- Theorem {lit}`allocate_choice`: what a call on any processors does.
- Theorem {lit}`Tally.Exact.step`: the loads that fit are exact.
- Theorem {lit}`Tally.Exact.leastAssigned_iff`: when a call chooses a processor with the
  least sum.
-/

namespace YatCasched
namespace Simu
namespace WFD

open FirstBest

/-! ## A call on any processors -/

/-- The index of a processor in the array, if it has one. -/
def index? (procId : ProcId) : Option (Fin 8) :=
  if h : procId < 8 then some ⟨procId, h⟩ else none

theorem index?_eq_some_iff {procId : ProcId} {i : Fin 8} :
    index? procId = some i ↔ i.val = procId := by
  unfold index?
  split
  · rw [Option.some_inj, Fin.ext_iff]
    exact eq_comm
  · rename_i hge
    refine iff_of_false (by simp) ?_
    intro hi
    exact hge (hi ▸ i.isLt)

theorem mem_filterMap_index? {availableProc : List ProcId} {i : Fin 8} :
    i ∈ availableProc.filterMap index? ↔ i.val ∈ availableProc := by
  simp [List.mem_filterMap, index?_eq_some_iff]

/-- The loop passes over the processors that have no entry. -/
theorem foldl_loadRound_filterMap (L : Loads) (availableProc : List ProcId)
    (best : Option (Fin 8) × Int32) :
    availableProc.foldl (loadRound L) best =
      ((availableProc.filterMap index?).map Fin.val).foldl (loadRound L) best := by
  induction availableProc generalizing best with
  | nil => rfl
  | cons procId availableProc ih =>
      cases hindex : index? procId with
      | none =>
          have hskip : loadRound L best procId = best := by
            unfold index? at hindex
            split at hindex
            · cases hindex
            · rename_i hge
              exact dif_neg hge
          rw [List.filterMap_cons_none hindex, List.foldl_cons, hskip]
          exact ih best
      | some i =>
          rw [List.filterMap_cons_some hindex, List.foldl_cons, List.map_cons, List.foldl_cons,
            index?_eq_some_iff.mp hindex]
          exact ih (loadRound L best procId)

/-- What a call on any processors does: the task goes to one with the least load among
those that have an entry which is not full, and without any to the first processor. -/
theorem allocate_choice (L : Loads) (node : Node) (rest : List Node) {availableProc : List ProcId}
    (hne : availableProc ≠ []) :
    ((∀ i : Fin 8, i.val ∈ availableProc → L i = Int32.maxValue) ∧
        allocate L (node :: rest) availableProc =
          (((availableProc.head hne : ProcId) : Int), L)) ∨
      ∃ i : Fin 8, i.val ∈ availableProc ∧ L i ≠ Int32.maxValue ∧
        (∀ j : Fin 8, j.val ∈ availableProc → (L i).toInt ≤ (L j).toInt) ∧
        allocate L (node :: rest) availableProc = ((i.val : Int),
          Function.update L i ((L i).toInt64 + node.expectedET).toInt32) := by
  rcases foldl_loadRound L (availableProc.filterMap index?) with ⟨load, hfold, _⟩
  have hbest := (scan_spec (loadScore L) maxScore (availableProc.filterMap index?)).1
  rw [← foldl_loadRound_filterMap] at hfold
  cases hscan : (scan (loadScore L) maxScore (availableProc.filterMap index?)).1 with
  | none =>
      rw [hscan] at hbest hfold
      refine .inl ⟨?_, ?_⟩
      · intro i hi
        exact eq_maxValue (OrderDual.toDual_le_toDual.mp (hbest i (mem_filterMap_index?.mpr hi)))
      · cases availableProc with
        | nil => exact absurd rfl hne
        | cons first others =>
            unfold allocate
            dsimp only
            rw [hfold]
            rfl
  | some i =>
      rw [hscan] at hbest hfold
      refine .inr ⟨i, mem_filterMap_index?.mp hbest.mem, ?_, ?_, ?_⟩
      · intro hmax
        have hlt := OrderDual.toDual_lt_toDual.mp hbest.1
        rw [hmax] at hlt
        exact absurd hlt (lt_irrefl _)
      · intro j hj
        exact OrderDual.toDual_le_toDual.mp (hbest.le (mem_filterMap_index?.mpr hj))
      · cases availableProc with
        | nil => exact absurd rfl hne
        | cons first others =>
            unfold allocate
            dsimp only
            rw [hfold]

/-! ## The tally -/

/-- A call of {lit}`allocate` with some task. -/
structure Call where
  task : Node
  others : List Node
  availableProc : List ProcId

/-- The array of loads, and for every processor the exact sum of the execution times of
the tasks it was given. -/
structure Tally where
  processorLoads : Loads
  assigned : ProcId → Int

/-- The answer to a call. -/
def Tally.answer (s : Tally) (call : Call) : Int × Loads :=
  allocate s.processorLoads (call.task :: call.others) call.availableProc

/-- A call, and its task added to the sum of the processor that was returned. -/
def Tally.step (s : Tally) (call : Call) : Tally where
  processorLoads := (s.answer call).2
  assigned p :=
    if (s.answer call).1 = (p : Int) then s.assigned p + call.task.expectedET.toInt
    else s.assigned p

/-- After {lit}`resetLoads`. -/
def Tally.start : Tally where
  processorLoads := resetLoads
  assigned _ := 0

/-- No execution time is negative, and there is a processor. -/
structure Call.Proper (call : Call) : Prop where
  time_nonneg : 0 ≤ call.task.expectedET.toInt
  availableProc_ne_nil : call.availableProc ≠ []

/-- The sums are not negative, and those that fit an {lit}`int` are the loads. -/
structure Tally.Exact (s : Tally) : Prop where
  nonneg : ∀ p, 0 ≤ s.assigned p
  load_eq : ∀ i : Fin 8, s.assigned i.val ≤ 2 ^ 31 - 1 →
    (s.processorLoads i).toInt = s.assigned i.val

theorem Tally.exact_start : Tally.start.Exact where
  nonneg _ := le_rfl
  load_eq _ _ := rfl

variable {s : Tally} {call : Call}

/-- A sum that is too great stays so. -/
theorem Tally.assigned_le_step (h : call.Proper) (p : ProcId) :
    s.assigned p ≤ (s.step call).assigned p := by
  have htime := h.time_nonneg
  unfold Tally.step
  dsimp only
  split
  · omega
  · exact le_rfl

/-- A call keeps the loads that fit exact. -/
theorem Tally.Exact.step (h : s.Exact) (hcall : call.Proper) : (s.step call).Exact := by
  have htime := hcall.time_nonneg
  constructor
  case nonneg =>
    intro p
    exact (h.nonneg p).trans (Tally.assigned_le_step hcall p)
  case load_eq =>
    intro i hfits
    have hload := h.load_eq i ((Tally.assigned_le_step hcall i.val).trans hfits)
    have hnonneg := h.nonneg i.val
    rcases allocate_choice s.processorLoads call.task call.others hcall.availableProc_ne_nil with
      ⟨hfull, hanswer⟩ | ⟨best, _, _, _, hanswer⟩
    · have hfirst := List.head_mem hcall.availableProc_ne_nil
      simp only [Tally.step, Tally.answer, hanswer] at hfits ⊢
      split at hfits
      · rename_i hi
        -- the first processor is full, so its sum can only grow by nothing
        have hmem : i.val ∈ call.availableProc := by
          rw [← Int.natCast_inj.mp hi]
          exact hfirst
        have hmax : (s.processorLoads i).toInt = 2 ^ 31 - 1 := by
          rw [hfull i hmem]
          rfl
        rw [if_pos hi]
        omega
      · rename_i hi
        rw [if_neg hi]
        exact hload
    · simp only [Tally.step, Tally.answer, hanswer] at hfits ⊢
      by_cases hi : i = best
      · subst hi
        rw [if_pos rfl] at hfits ⊢
        rw [Function.update_self, MachineInt.toInt_narrow_add (by omega) htime (by omega), hload]
      · have hval : ¬((best.val : Int) = (i.val : Int)) := by
          intro heq
          exact hi (Fin.ext (Int.natCast_inj.mp heq).symm)
        rw [if_neg hval, Function.update_of_ne hi]
        exact hload

/-! ## The choice -/

/-- An available processor with the least sum. -/
def Tally.LeastSum (s : Tally) (call : Call) (p : ProcId) : Prop :=
  p ∈ call.availableProc ∧ ∀ q ∈ call.availableProc, s.assigned p ≤ s.assigned q

/-- The call returns an available processor with the least sum. -/
def Tally.LeastAssigned (s : Tally) (call : Call) : Prop :=
  ∃ p : ProcId, (s.answer call).1 = (p : Int) ∧ s.LeastSum call p

/-- No sum of an available processor that has an entry is above
{lit}`Integer.MAX_VALUE`. -/
def Tally.InRange (s : Tally) (call : Call) : Prop :=
  ∀ p ∈ call.availableProc, p < 8 → s.assigned p ≤ 2 ^ 31 - 1

/-- The processor has an entry that the search can choose. -/
def Tally.Seen (s : Tally) (p : ProcId) : Prop :=
  p < 8 ∧ s.assigned p < 2 ^ 31 - 1

/-- An available processor with the least sum can be chosen; or none of them can, and the
first one has the least sum. -/
def Tally.SeesLeast (s : Tally) (call : Call) : Prop :=
  (∃ p, s.Seen p ∧ s.LeastSum call p) ∨
    (∀ p ∈ call.availableProc, ¬s.Seen p) ∧
      ∀ first, call.availableProc.head? = some first → s.LeastSum call first

/-- Where the sums are in range, the load of an available processor is its sum. -/
theorem Tally.Exact.load_available (h : s.Exact) (hrange : s.InRange call) {i : Fin 8}
    (hi : i.val ∈ call.availableProc) : (s.processorLoads i).toInt = s.assigned i.val :=
  h.load_eq i (hrange i.val hi i.isLt)

/-- If all entries are full, the search sees no available processor. -/
theorem Tally.Exact.not_seen (h : s.Exact) (hrange : s.InRange call)
    (hfull : ∀ i : Fin 8, i.val ∈ call.availableProc → s.processorLoads i = Int32.maxValue)
    {p : ProcId} (hp : p ∈ call.availableProc) : ¬s.Seen p := by
  rintro ⟨hp8, hlt⟩
  have hmax : Int32.maxValue.toInt = 2 ^ 31 - 1 := rfl
  have hload := h.load_available hrange (i := ⟨p, hp8⟩) hp
  rw [hfull ⟨p, hp8⟩ hp, hmax] at hload
  dsimp only at hload
  omega

/-- An available processor whose entry is not full is seen. -/
theorem Tally.Exact.seen (h : s.Exact) (hrange : s.InRange call) {i : Fin 8}
    (hi : i.val ∈ call.availableProc) (hroom : s.processorLoads i ≠ Int32.maxValue) :
    s.Seen i.val := by
  refine ⟨i.isLt, lt_of_le_of_ne (hrange i.val hi i.isLt) ?_⟩
  intro heq
  apply hroom
  apply Int32.toInt_inj.mp
  rw [h.load_available hrange hi, heq]
  rfl

/-- Where the sums are in range, the choice is right exactly if the search sees a
processor with the least sum. -/
theorem Tally.Exact.leastAssigned_iff (h : s.Exact) (hcall : call.Proper)
    (hrange : s.InRange call) : s.LeastAssigned call ↔ s.SeesLeast call := by
  rcases allocate_choice s.processorLoads call.task call.others hcall.availableProc_ne_nil with
    ⟨hfull, hanswer⟩ | ⟨best, hbest, hroom, hleast, hanswer⟩
  · have hunseen : ∀ p ∈ call.availableProc, ¬s.Seen p := fun p hp =>
      h.not_seen hrange hfull hp
    have hhead : call.availableProc.head? =
        some (call.availableProc.head hcall.availableProc_ne_nil) :=
      List.head?_eq_some_head hcall.availableProc_ne_nil
    constructor
    · rintro ⟨p, hp, hsum⟩
      refine .inr ⟨hunseen, fun first hfirst => ?_⟩
      rw [Tally.answer, hanswer] at hp
      have hpfirst : first = p := by
        rw [hhead] at hfirst
        rw [← Option.some.inj hfirst]
        exact Int.natCast_inj.mp hp
      rw [hpfirst]
      exact hsum
    · rintro (⟨p, hseen, hsum⟩ | ⟨_, hfirst⟩)
      · exact absurd hseen (hunseen p hsum.1)
      · refine ⟨_, ?_, hfirst _ hhead⟩
        rw [Tally.answer, hanswer]
  · have hanswered : (s.answer call).1 = (best.val : Int) := by
      rw [Tally.answer, hanswer]
    have hload := h.load_available hrange hbest
    have hseen := h.seen hrange hbest hroom
    constructor
    · rintro ⟨p, hp, hsum⟩
      have hpbest : p = best.val := by
        rw [hanswered] at hp
        exact (Int.natCast_inj.mp hp).symm
      rw [hpbest] at hsum
      exact .inl ⟨best.val, hseen, hsum⟩
    · rintro (⟨p, hp, hsum⟩ | ⟨hunseen, _⟩)
      · refine ⟨best.val, hanswered, hbest, fun q hq => ?_⟩
        have hle := hleast ⟨p, hp.1⟩ hsum.1
        rw [hload, h.load_available hrange (i := ⟨p, hp.1⟩) hsum.1] at hle
        exact hle.trans (hsum.2 q hq)
      · exact absurd hseen (hunseen best.val hbest)

/-- In a run from {lit}`resetLoads` each call whose sums are in range chooses a processor
with the least sum exactly if the search sees one; so a run of such calls that all see
one always chooses a processor with the least sum. -/
theorem leastAssigned_throughout (calls : List Call) (hcalls : ∀ call ∈ calls, call.Proper) :
    (Run.Guarded Tally.step (fun s call => s.InRange call ∧ s.SeesLeast call) Tally.start calls →
      Run.Guarded Tally.step Tally.LeastAssigned Tally.start calls) ∧
    Run.Guarded Tally.step
      (fun s call => s.InRange call → (s.LeastAssigned call ↔ s.SeesLeast call))
      Tally.start calls := by
  have hproper : Run.Guarded Tally.step (fun _ call => call.Proper) Tally.start calls :=
    Run.guarded_of_forall_mem hcalls Tally.start
  constructor
  · intro hsees
    apply Run.guarded_of_invariant _ _ Tally.exact_start (Run.guarded_and.mpr ⟨hproper, hsees⟩)
    · intro s call hs hcall
      exact hs.step hcall.1
    · intro s call hs hcall
      exact (hs.leastAssigned_iff hcall.1 hcall.2.1).mpr hcall.2.2
  · apply Run.guarded_of_invariant _ _ Tally.exact_start hproper
    · intro s call hs hcall
      exact hs.step hcall
    · intro s call hs hcall hrange
      exact hs.leastAssigned_iff hcall hrange

/-- Where all available processors have an entry and the sums are in range, the search
sees a processor with the least sum. -/
theorem Tally.seesLeast_of_lt_eight (hne : call.availableProc ≠ [])
    (hlt : ∀ p ∈ call.availableProc, p < 8) (hrange : s.InRange call) : s.SeesLeast call := by
  rcases call.availableProc.toFinset.exists_min_image s.assigned
    (List.toFinset_nonempty_iff _ |>.mpr hne) with ⟨p, hp, hmin⟩
  have hleast : s.LeastSum call p :=
    ⟨List.mem_toFinset.mp hp, fun q hq => hmin q (List.mem_toFinset.mpr hq)⟩
  by_cases hseen : s.Seen p
  · exact .inl ⟨p, hseen, hleast⟩
  · -- the least sum fills an entry, so all sums are that great
    have hp8 := hlt p hleast.1
    have hfull : ∀ q ∈ call.availableProc, s.assigned q = 2 ^ 31 - 1 := by
      intro q hq
      have hle := hrange q hq (hlt q hq)
      have hge := hleast.2 q hq
      have hpfull : ¬s.assigned p < 2 ^ 31 - 1 := fun hroom => hseen ⟨hp8, hroom⟩
      omega
    refine .inr ⟨?_, ?_⟩
    · rintro q hq ⟨_, hroom⟩
      exact absurd (hfull q hq) hroom.ne
    · intro first hfirst
      have hmem := List.mem_of_mem_head? hfirst
      refine ⟨hmem, fun q hq => ?_⟩
      rw [hfull first hmem, hfull q hq]

/-- A call with a task of one unit of time. -/
def unitCall (availableProc : List ProcId) : Call where
  task := taskOf 1
  others := []
  availableProc := availableProc

/-- Two units of time on two processors. -/
theorem leastAssigned_throughout_unitCalls :
    Run.Guarded Tally.step Tally.LeastAssigned Tally.start [unitCall [0, 1], unitCall [0, 1]] := by
  have hproper : ∀ call ∈ [unitCall [0, 1], unitCall [0, 1]], call.Proper := by
    intro call hcall
    have hunit : call = unitCall [0, 1] := by simpa using hcall
    rw [hunit]
    exact ⟨by decide, by decide⟩
  have hsees : ∀ s : Tally, s.InRange (unitCall [0, 1]) → s.SeesLeast (unitCall [0, 1]) :=
    fun s => Tally.seesLeast_of_lt_eight (by decide) (by decide)
  have hfirst : Tally.start.InRange (unitCall [0, 1]) := by
    unfold Tally.InRange
    decide
  have hsecond : (Tally.start.step (unitCall [0, 1])).InRange (unitCall [0, 1]) := by
    unfold Tally.InRange
    decide
  exact (leastAssigned_throughout _ hproper).1
    ⟨⟨hfirst, hsees _ hfirst⟩, ⟨hsecond, hsees _ hsecond⟩, trivial⟩

/-- A call with a task of 2147483648 units of time. -/
def longCall (availableProc : List ProcId) : Call where
  task := Node.new 0 .solo 0 0 2147483648 0 [0, 0, 0, 0]
  others := []
  availableProc := availableProc

/-- The second call goes to processor 0 again: once because processor 8 has no entry, and
once because the load of processor 0 has become negative. -/
theorem leastAssigned_lost :
    ¬Run.Guarded Tally.step Tally.LeastAssigned Tally.start [unitCall [0, 8], unitCall [0, 8]] ∧
      ¬Run.Guarded Tally.step Tally.LeastAssigned Tally.start
        [longCall [0, 1], unitCall [0, 1]] := by
  constructor
  · rintro ⟨_, ⟨p, hp, hleast⟩, _⟩
    have hp0 : (0 : Int) = p := hp
    have hle := hleast.2 8 (by decide)
    rw [← Int.natCast_inj.mp hp0] at hle
    exact absurd hle (by decide)
  · rintro ⟨_, ⟨p, hp, hleast⟩, _⟩
    have hp0 : (0 : Int) = p := hp
    have hle := hleast.2 1 (by decide)
    rw [← Int.natCast_inj.mp hp0] at hle
    exact absurd hle (by decide)

end WFD
end Simu
end YatCasched
