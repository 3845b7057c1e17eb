import Mathlib.Algebra.GroupWithZero.Nat
import Mathlib.Data.Fintype.Card
import Mathlib.Data.List.FinRange
import Mathlib.Logic.Function.Basic
import Mathlib.Order.OrderDual
import YatCasched.Lib.FirstBest
import YatCasched.Lib.MachineInt
import YatCasched.Lib.Transducer
import YatCasched.Simu.Node

/-!
# Worst-fit allocation

{lit}`WFD`: the task goes to the first processor with the least load.  The loads
are {lit}`int`s in a static array of eight; adding an execution time narrows the
sum.

Main results:

- Theorem {lit}`allocate_of_least`: what a call on all processors does.
- Theorem {lit}`indistinguishable_iff`: which arrays of loads later tasks can tell
  apart.
-/

namespace YatCasched
namespace Simu

/-- {lit}`generateProcessorList`. -/
def generateProcessorList (cores : Nat) : List ProcId :=
  List.range cores

namespace WFD

open FirstBest Transducer

/-! ## The algorithm -/

/-- {lit}`processorLoads`. -/
abbrev Loads := Fin 8 → Int32

/-- The instance behind the literals of its indices, the same in every module. -/
instance neZeroLoads : NeZero 8 :=
  ⟨Nat.succ_ne_zero _⟩

/-- {lit}`resetLoads`; also the initial array. -/
def resetLoads : Loads :=
  fun _ => 0

/-- One round of the loop of {lit}`allocate`, on the best processor and the least
load. -/
def loadRound (processorLoads : Loads) (best : Option (Fin 8) × Int32) (procId : ProcId) :
    Option (Fin 8) × Int32 :=
  if h : procId < 8 then
    if processorLoads ⟨procId, h⟩ < best.2 then
      (some ⟨procId, h⟩, processorLoads ⟨procId, h⟩)
    else
      best
  else
    best

/-- {lit}`allocate`: the returned id and the loads. -/
def allocate (processorLoads : Loads) (readyNodes : List Node) (availableProc : List ProcId) :
    Int × Loads :=
  match readyNodes, availableProc with
  | [], _ => (-1, processorLoads)
  | _, [] => (-1, processorLoads)
  | nodeToAllocate :: _, first :: _ =>
      match availableProc.foldl (loadRound processorLoads) (none, Int32.maxValue) with
      | (none, _) => (first, processorLoads)
      | (some best, _) =>
          (best.val, Function.update processorLoads best
            ((processorLoads best).toInt64 + nodeToAllocate.expectedET).toInt32)

/-! ## The least load -/

/-- The processor is the first one with the least load. -/
def Least (L : Loads) (i : Fin 8) : Prop :=
  (∀ j, j < i → (L i).toInt < (L j).toInt) ∧ ∀ j, i < j → (L i).toInt ≤ (L j).toInt

instance (L : Loads) (i : Fin 8) : Decidable (Least L i) :=
  inferInstanceAs (Decidable (_ ∧ _))

variable {L L' : Loads} {i j : Fin 8}

theorem Least.le (h : Least L i) (j : Fin 8) : (L i).toInt ≤ (L j).toInt := by
  rcases lt_trichotomy j i with hj | rfl | hj
  · exact (h.1 j hj).le
  · exact le_rfl
  · exact h.2 j hj

/-- There is only one. -/
theorem Least.unique (h : Least L i) (h' : Least L j) : i = j := by
  rcases lt_trichotomy i j with hij | hij | hij
  · exact absurd (h'.1 i hij) (not_lt.mpr (h.le j))
  · exact hij
  · exact absurd (h.1 j hij) (not_lt.mpr (h'.le i))

theorem toInt_le_maxValue (x : Int32) : x.toInt ≤ Int32.maxValue.toInt := by
  have hlt := x.toInt_lt
  have hmax : Int32.maxValue.toInt = 2 ^ 31 - 1 := rfl
  omega

theorem eq_maxValue {x : Int32} (h : Int32.maxValue.toInt ≤ x.toInt) : x = Int32.maxValue :=
  Int32.toInt_inj.mp (le_antisymm (toInt_le_maxValue x) h)

/-- Less load is a better score. -/
def loadScore (L : Loads) (i : Fin 8) : Intᵒᵈ :=
  OrderDual.toDual (L i).toInt

/-- The score to beat. -/
def maxScore : Intᵒᵈ :=
  OrderDual.toDual Int32.maxValue.toInt

theorem loadRound_val (L : Loads) (best : Option (Fin 8) × Int32) (i : Fin 8) :
    loadRound L best i.val = if L i < best.2 then (some i, L i) else best := by
  unfold loadRound
  rw [dif_pos i.isLt]

/-- The loop is a scan for the least load. -/
theorem foldl_loadRound (L : Loads) (l : List (Fin 8)) :
    ∃ load : Int32, (l.map Fin.val).foldl (loadRound L) (none, Int32.maxValue) =
        ((scan (loadScore L) maxScore l).1, load) ∧
      (scan (loadScore L) maxScore l).2 = OrderDual.toDual load.toInt := by
  induction l using List.reverseRecOn with
  | nil => exact ⟨Int32.maxValue, rfl, rfl⟩
  | append_singleton l i ih =>
      rcases ih with ⟨load, hfold, hload⟩
      rw [List.map_append, List.foldl_append, hfold, scan_append_singleton, List.map_singleton,
        List.foldl_cons, List.foldl_nil, loadRound_val]
      unfold FirstBest.step
      rw [hload]
      dsimp only
      by_cases hlt : L i < load
      · have hscore : OrderDual.toDual load.toInt < loadScore L i :=
          OrderDual.toDual_lt_toDual.mpr (Int32.lt_iff_toInt_lt.mp hlt)
        rw [if_pos hlt, if_pos hscore]
        exact ⟨L i, rfl, rfl⟩
      · have hscore : ¬OrderDual.toDual load.toInt < loadScore L i := fun h =>
          hlt (Int32.lt_iff_toInt_lt.mpr (OrderDual.toDual_lt_toDual.mp h))
        rw [if_neg hlt, if_neg hscore]
        exact ⟨load, rfl, hload⟩

/-- The chosen processor is in the list. -/
theorem foldl_loadRound_mem (L : Loads) (l : List ProcId) {i : Fin 8}
    (hi : (l.foldl (loadRound L) (none, Int32.maxValue)).1 = some i) : i.val ∈ l := by
  induction l using List.reverseRecOn with
  | nil => cases hi
  | append_singleton l p ih =>
      rw [List.foldl_append, List.foldl_cons, List.foldl_nil, loadRound] at hi
      split at hi
      · split at hi
        · rw [← Option.some.inj hi]
          simp
        · exact List.mem_append_left _ (ih hi)
      · exact List.mem_append_left _ (ih hi)

/-- Some processor of the list is returned. -/
theorem allocate_mem (L : Loads) (node : Node) (rest : List Node) {availableProc : List ProcId}
    (havailable : availableProc ≠ []) :
    ∃ p ∈ availableProc, (allocate L (node :: rest) availableProc).1 = (p : Int) := by
  cases availableProc with
  | nil => exact absurd rfl havailable
  | cons first others =>
      unfold allocate
      dsimp only
      split
      · exact ⟨first, List.mem_cons_self, rfl⟩
      · rename_i best _ hfold
        refine ⟨best.val, ?_, rfl⟩
        apply foldl_loadRound_mem L
        rw [hfold]

theorem generateProcessorList_eight :
    generateProcessorList 8 = (List.finRange 8).map Fin.val := by
  decide

/-- The first best of all processors is the first with the least load. -/
theorem least_of_isFirstBest
    (h : IsFirstBest (loadScore L) maxScore (List.finRange 8) (some i)) : Least L i := by
  rcases h.2 with ⟨before, after, hl, hbefore, hafter⟩
  have hsorted := List.pairwise_lt_finRange 8
  rw [hl, List.pairwise_append, List.pairwise_cons] at hsorted
  have hmem : ∀ j, j ∈ before ∨ j = i ∨ j ∈ after := by
    intro j
    have hj := List.mem_finRange j
    rw [hl, List.mem_append, List.mem_cons] at hj
    exact hj
  constructor
  · intro j hji
    rcases hmem j with hj | rfl | hj
    · exact OrderDual.toDual_lt_toDual.mp (hbefore j hj)
    · exact absurd hji (lt_irrefl j)
    · exact absurd hji (not_lt.mpr (hsorted.2.1.1 j hj).le)
  · intro j hij
    rcases hmem j with hj | rfl | hj
    · exact absurd hij (not_lt.mpr (hsorted.2.2 j hj i List.mem_cons_self).le)
    · exact absurd hij (lt_irrefl j)
    · exact OrderDual.toDual_le_toDual.mp (hafter j hj)

/-- What a call on all processors does: the task goes to the first one with the
least load, whose load it adds to unless there is none to choose. -/
theorem allocate_spec (L : Loads) (node : Node) :
    ∃ i, Least L i ∧ allocate L [node] (generateProcessorList 8) = ((i.val : Int),
      if L i = Int32.maxValue then L
      else Function.update L i (L i + node.expectedET.toInt32)) := by
  rcases foldl_loadRound L (List.finRange 8) with ⟨load, hfold, _⟩
  rw [← generateProcessorList_eight] at hfold
  have hbest := (scan_spec (loadScore L) maxScore (List.finRange 8)).1
  unfold allocate
  rw [show generateProcessorList 8 = 0 :: [1, 2, 3, 4, 5, 6, 7] from rfl] at hfold ⊢
  dsimp only
  rw [hfold]
  cases hscan : (scan (loadScore L) maxScore (List.finRange 8)).1 with
  | none =>
      rw [hscan] at hbest
      have hmax : ∀ i, L i = Int32.maxValue := by
        intro i
        exact eq_maxValue (OrderDual.toDual_le_toDual.mp (hbest i (List.mem_finRange i)))
      refine ⟨0, ⟨?_, ?_⟩, ?_⟩
      · intro j hj
        exact absurd hj (Fin.not_lt_zero j)
      · intro j _
        rw [hmax 0, hmax j]
      · rw [if_pos (hmax 0)]
        rfl
  | some i =>
      rw [hscan] at hbest
      have hne : L i ≠ Int32.maxValue := by
        intro hmax
        have hlt := OrderDual.toDual_lt_toDual.mp hbest.1
        rw [hmax] at hlt
        exact absurd hlt (lt_irrefl _)
      refine ⟨i, least_of_isFirstBest hbest, ?_⟩
      dsimp only
      rw [if_neg hne, Int64.toInt32_add, Int32.toInt32_toInt64]

theorem allocate_of_least (h : Least L i) (node : Node) :
    allocate L [node] (generateProcessorList 8) = ((i.val : Int),
      if L i = Int32.maxValue then L
      else Function.update L i (L i + node.expectedET.toInt32)) := by
  rcases allocate_spec L node with ⟨j, hj, hallocate⟩
  rw [h.unique hj]
  exact hallocate

/-! ## What later tasks can tell apart -/

/-- A task given to one of all processors. -/
def allocateStep (L : Loads) (node : Node) : Int × Loads :=
  allocate L [node] (generateProcessorList 8)

/-- Every processor but the first has the greatest load there is. -/
def Saturated (L : Loads) : Prop :=
  ∀ i, i ≠ 0 → L i = Int32.maxValue

/-- A task of any execution time that fits an {lit}`int`. -/
def taskOf (e : Int32) : Node :=
  Node.new 0 .solo 0 0 e.toInt64 0 [0, 0, 0, 0]

theorem allocateStep_output (h : Least L i) (node : Node) :
    (allocateStep L node).1 = (i.val : Int) := by
  unfold allocateStep
  rw [allocate_of_least h]

theorem allocateStep_next (h : Least L i) (hne : L i ≠ Int32.maxValue) (e : Int32) :
    (allocateStep L (taskOf e)).2 = Function.update L i (L i + e) := by
  unfold allocateStep
  rw [allocate_of_least h]
  dsimp only
  rw [if_neg hne, show (taskOf e).expectedET = e.toInt64 from rfl, Int32.toInt32_toInt64]

/-- Indistinguishable loads are least at the same processor. -/
theorem least_of_indistinguishable (h : Indistinguishable allocateStep L L') (hi : Least L i) :
    Least L' i := by
  rcases allocate_spec L' (taskOf 0) with ⟨j, hj, _⟩
  have houtput := h.output (taskOf 0)
  rw [allocateStep_output hi, allocateStep_output hj] at houtput
  have hij : i = j := Fin.ext (by exact_mod_cast houtput)
  rw [hij]
  exact hj

/-- They stay indistinguishable when the least load changes. -/
theorem indistinguishable_update (h : Indistinguishable allocateStep L L') (hi : Least L i)
    (hne : L i ≠ Int32.maxValue) (hne' : L' i ≠ Int32.maxValue) (e : Int32) :
    Indistinguishable allocateStep (Function.update L i (L i + e))
      (Function.update L' i (L' i + e)) := by
  have hnext := h.next (taskOf e)
  rw [allocateStep_next hi hne, allocateStep_next (least_of_indistinguishable h hi) hne'] at hnext
  exact hnext

/-! ### Saturated loads -/

theorem Saturated.least (h : Saturated L) : Least L 0 := by
  constructor
  · intro j hj
    exact absurd hj (Fin.not_lt_zero j)
  · intro j hj
    rw [h j hj.ne']
    exact toInt_le_maxValue (L 0)

theorem Saturated.next (h : Saturated L) (node : Node) :
    Saturated (allocateStep L node).2 := by
  unfold allocateStep
  rw [allocate_of_least h.least]
  dsimp only
  split
  · exact h
  · intro i hi
    rw [Function.update_of_ne hi]
    exact h i hi

/-- All saturated loads answer 0 for ever. -/
theorem Saturated.indistinguishable (h : Saturated L) (h' : Saturated L') :
    Indistinguishable allocateStep L L' := by
  refine @indistinguishable_of_bisimulation _ _ _ allocateStep L L'
    (fun L L' => Saturated L ∧ Saturated L') ?_ ?_ ⟨h, h'⟩
  · intro L L' hsat node
    rw [allocateStep_output hsat.1.least, allocateStep_output hsat.2.least]
  · intro L L' hsat node
    exact ⟨hsat.1.next node, hsat.2.next node⟩

/-- Another load is greatest too, if the least one is. -/
theorem Least.saturated (h : Least L i) (hmax : L i = Int32.maxValue) : Saturated L := by
  intro j _
  apply eq_maxValue
  rw [← hmax]
  exact h.le j

/-- Only saturated loads are like saturated ones. -/
theorem saturated_of_indistinguishable (h : Indistinguishable allocateStep L L')
    (hsat : Saturated L') : Saturated L := by
  intro j hj
  by_contra hne
  rcases allocate_spec L (taskOf 0) with ⟨i, hi, _⟩
  have hi0 : i = 0 := (least_of_indistinguishable h hi).unique hsat.least
  subst hi0
  have hne0 : L 0 ≠ Int32.maxValue := fun hmax => hne (hi.saturated hmax j hj)
  -- fill the first processor: then the least load is elsewhere
  have hnext := h.next (taskOf (Int32.maxValue - L 0))
  rw [allocateStep_next hi hne0] at hnext
  have hfull : L 0 + (Int32.maxValue - L 0) = Int32.maxValue := by grind
  rw [hfull] at hnext
  have hleast := least_of_indistinguishable hnext.symm
    (hsat.next (taskOf (Int32.maxValue - L 0))).least
  have hle := hleast.le j
  rw [Function.update_self, Function.update_of_ne hj] at hle
  exact hne (eq_maxValue hle)

/-! ### Loads that are not saturated -/

/-- A processor whose load becomes {lit}`x` is the first with the least one. -/
theorem least_update_iff (x : Int32) : Least (Function.update L i x) i ↔
    (∀ j, j < i → x.toInt < (L j).toInt) ∧ ∀ j, i < j → x.toInt ≤ (L j).toInt := by
  unfold Least
  rw [Function.update_self]
  constructor
  · rintro ⟨hbefore, hafter⟩
    constructor
    · intro j hj
      have hlt := hbefore j hj
      rw [Function.update_of_ne hj.ne] at hlt
      exact hlt
    · intro j hj
      have hle := hafter j hj
      rw [Function.update_of_ne hj.ne'] at hle
      exact hle
  · rintro ⟨hbefore, hafter⟩
    constructor
    · intro j hj
      rw [Function.update_of_ne hj.ne]
      exact hbefore j hj
    · intro j hj
      rw [Function.update_of_ne hj.ne']
      exact hafter j hj

/-- Less load keeps a processor the first with the least one. -/
theorem least_update_of_le {x y : Int32} (h : Least (Function.update L i x) i)
    (hle : y.toInt ≤ x.toInt) : Least (Function.update L i y) i := by
  rw [least_update_iff] at h ⊢
  constructor
  · intro j hj
    exact hle.trans_lt (h.1 j hj)
  · intro j hj
    exact hle.trans (h.2 j hj)

/-- A processor with the greatest load is the first with the least one only if the
loads are saturated. -/
theorem saturated_of_least_update_maxValue
    (h : Least (Function.update L i Int32.maxValue) i) : Saturated L := by
  have hi0 : i = 0 := by
    by_contra hi
    have hlt := h.1 0 (Fin.pos_iff_ne_zero.mpr hi)
    rw [Function.update_self] at hlt
    exact absurd hlt (not_lt.mpr (toInt_le_maxValue _))
  subst hi0
  intro j hj
  have hle := h.le j
  rw [Function.update_self, Function.update_of_ne hj] at hle
  exact eq_maxValue hle

/-- The least loads are the same.  The loads that keep the processor the least
loaded are an initial segment of all {lit}`int`s, in both cases; adding the same
to both cannot move one segment onto the other. -/
theorem eq_of_indistinguishable_of_least (h : Indistinguishable allocateStep L L')
    (hi : Least L i) (hsat : ¬Saturated L) (hsat' : ¬Saturated L') : L i = L' i := by
  by_contra hne
  have hi' := least_of_indistinguishable h hi
  have hmax : L i ≠ Int32.maxValue := fun hmax => hsat (hi.saturated hmax)
  have hmax' : L' i ≠ Int32.maxValue := fun hmax => hsat' (hi'.saturated hmax)
  have hmin : (Int32.minValue).toInt = -2 ^ 31 := rfl
  -- where the second processor has the least of all loads, the first has more
  have hlow : Least (Function.update L' i Int32.minValue) i := by
    rw [← Function.update_eq_self i L'] at hi'
    apply least_update_of_le hi'
    have hle := (L' i).le_toInt
    omega
  have hlow' : L' i + (Int32.minValue - L' i) = Int32.minValue := by grind
  have hshift := indistinguishable_update h hi hmax hmax' (Int32.minValue - L' i)
  rw [hlow'] at hshift
  have hlow₁ := least_of_indistinguishable hshift.symm hlow
  have habove : -2 ^ 31 < (L i + (Int32.minValue - L' i)).toInt := by
    have hle := (L i + (Int32.minValue - L' i)).le_toInt
    have hne' : (L i + (Int32.minValue - L' i)).toInt ≠ (Int32.minValue).toInt := by
      intro heq
      apply hne
      have heq' := Int32.toInt_inj.mp heq
      grind
    omega
  -- one less keeps the first processor, but wraps around in the second
  have hwrap := indistinguishable_update h hi hmax hmax' (Int32.minValue - L' i - 1)
  have hwrap' : L' i + (Int32.minValue - L' i - 1) = Int32.maxValue := by
    have hpred : Int32.minValue - 1 = Int32.maxValue := rfl
    grind
  have hpred : L i + (Int32.minValue - L' i - 1) = L i + (Int32.minValue - L' i) - 1 := by grind
  rw [hwrap', hpred] at hwrap
  have hleast : Least (Function.update L i (L i + (Int32.minValue - L' i) - 1)) i := by
    apply least_update_of_le hlow₁
    rw [MachineInt.toInt_sub_one habove]
    omega
  exact hsat' (saturated_of_least_update_maxValue (least_of_indistinguishable hwrap hleast))

/-- So both can be set to the same load. -/
theorem indistinguishable_set (h : Indistinguishable allocateStep L L') (hi : Least L i)
    (hsat : ¬Saturated L) (hsat' : ¬Saturated L') (x : Int32) :
    Indistinguishable allocateStep (Function.update L i x) (Function.update L' i x) := by
  have heq := eq_of_indistinguishable_of_least h hi hsat hsat'
  have hmax : L i ≠ Int32.maxValue := fun hmax => hsat (hi.saturated hmax)
  have hset := indistinguishable_update h hi hmax (by rw [← heq]; exact hmax) (x - L i)
  have hx : L i + (x - L i) = x := by grind
  rw [← heq, hx] at hset
  exact hset

/-- With only two loads that are not the greatest, the second is the least below
the first. -/
theorem least_update_iff_lt (hi : i ≠ 0) (hsat : Saturated (Function.update L i Int32.maxValue))
    (x : Int32) : Least (Function.update L i x) i ↔ x.toInt < (L 0).toInt := by
  have hmax : ∀ j, j ≠ 0 → j ≠ i → L j = Int32.maxValue := by
    intro j hj0 hji
    have hj := hsat j hj0
    rw [Function.update_of_ne hji] at hj
    exact hj
  rw [least_update_iff]
  constructor
  · intro h
    exact h.1 0 (Fin.pos_iff_ne_zero.mpr hi)
  · intro hlt
    constructor
    · intro j hj
      by_cases hj0 : j = 0
      · rw [hj0]
        exact hlt
      · rw [hmax j hj0 hj.ne]
        exact hlt.trans_le (toInt_le_maxValue _)
    · intro j hj
      rw [hmax j (Fin.pos_iff_ne_zero.mp ((Fin.zero_le i).trans_lt hj)) hj.ne']
      exact toInt_le_maxValue x

/-- Then the first loads are the same, too. -/
theorem first_eq_of_indistinguishable (h : Indistinguishable allocateStep L L')
    (hi : Least L i) (hi0 : i ≠ 0) (hsat : ¬Saturated L) (hsat' : ¬Saturated L')
    (hfull : Saturated (Function.update L i Int32.maxValue))
    (hfull' : Saturated (Function.update L' i Int32.maxValue)) : L 0 = L' 0 := by
  have hiff : ∀ x : Int32, x.toInt < (L 0).toInt ↔ x.toInt < (L' 0).toInt := by
    intro x
    have hset := indistinguishable_set h hi hsat hsat' x
    rw [← least_update_iff_lt hi0 hfull, ← least_update_iff_lt hi0 hfull']
    exact ⟨least_of_indistinguishable hset, least_of_indistinguishable hset.symm⟩
  apply Int32.toInt_inj.mp
  apply le_antisymm
  · exact not_lt.mp fun hlt => absurd ((hiff (L' 0)).mp hlt) (lt_irrefl _)
  · exact not_lt.mp fun hlt => absurd ((hiff (L 0)).mpr hlt) (lt_irrefl _)

/-- The processors that can still be chosen. -/
def openProcessors (L : Loads) : Finset (Fin 8) :=
  Finset.univ.filter fun i => L i ≠ Int32.maxValue

/-- A full processor is not open. -/
theorem openProcessors_update (hne : L i ≠ Int32.maxValue) :
    (openProcessors (Function.update L i Int32.maxValue)).card < (openProcessors L).card := by
  apply Finset.card_lt_card
  refine Finset.ssubset_iff_subset_ne.mpr ⟨?_, ?_⟩
  · intro j hj
    rw [openProcessors, Finset.mem_filter] at hj ⊢
    refine ⟨hj.1, ?_⟩
    by_cases hji : j = i
    · rw [hji]
      exact hne
    · rw [← Function.update_of_ne hji Int32.maxValue L]
      exact hj.2
  · intro heq
    have hi : i ∈ openProcessors L := Finset.mem_filter.mpr ⟨Finset.mem_univ i, hne⟩
    rw [← heq, openProcessors, Finset.mem_filter, Function.update_self] at hi
    exact hi.2 rfl

/-- Loads that are not saturated are all seen: the least one is, and filling its
processor shows the next. -/
theorem eq_of_indistinguishable {n : Nat} (hn : (openProcessors L).card ≤ n)
    (h : Indistinguishable allocateStep L L') (hsat : ¬Saturated L) (hsat' : ¬Saturated L') :
    L = L' := by
  induction n generalizing L L' with
  | zero =>
      apply absurd _ hsat
      intro j _
      by_contra hne
      have hj : j ∈ openProcessors L := Finset.mem_filter.mpr ⟨Finset.mem_univ j, hne⟩
      rw [Finset.card_eq_zero.mp (Nat.le_zero.mp hn)] at hj
      exact Finset.notMem_empty j hj
  | succ n ih =>
      rcases allocate_spec L (taskOf 0) with ⟨i, hi, _⟩
      have heq := eq_of_indistinguishable_of_least h hi hsat hsat'
      have hfill := indistinguishable_set h hi hsat hsat' Int32.maxValue
      have hother : ∀ j, j ≠ i →
          Function.update L i Int32.maxValue j = Function.update L' i Int32.maxValue j →
            L j = L' j := by
        intro j hji hj
        rw [Function.update_of_ne hji, Function.update_of_ne hji] at hj
        exact hj
      by_cases hfull : Saturated (Function.update L i Int32.maxValue)
      · have hfull' := saturated_of_indistinguishable hfill.symm hfull
        have hi0 : i ≠ 0 := by
          rintro rfl
          apply hsat
          intro j hj
          have hmax := hfull j hj
          rw [Function.update_of_ne hj] at hmax
          exact hmax
        funext j
        by_cases hji : j = i
        · rw [hji]
          exact heq
        · by_cases hj0 : j = 0
          · rw [hj0]
            exact first_eq_of_indistinguishable h hi hi0 hsat hsat' hfull hfull'
          · apply hother j hji
            rw [hfull j hj0, hfull' j hj0]
      · have hfull' : ¬Saturated (Function.update L' i Int32.maxValue) := fun hfull' =>
          hfull (saturated_of_indistinguishable hfill hfull')
        have hcard := openProcessors_update fun hmax => hsat (hi.saturated hmax)
        have hrest := ih (by omega) hfill hfull hfull'
        funext j
        by_cases hji : j = i
        · rw [hji]
          exact heq
        · exact hother j hji (congrFun hrest j)

/-- Later tasks tell any two arrays of loads apart, unless both are saturated. -/
theorem indistinguishable_iff :
    Indistinguishable allocateStep L L' ↔ L = L' ∨ Saturated L ∧ Saturated L' := by
  constructor
  · intro h
    by_cases hsat : Saturated L
    · exact Or.inr ⟨hsat, saturated_of_indistinguishable h.symm hsat⟩
    · left
      exact eq_of_indistinguishable le_rfl h hsat fun hsat' =>
        hsat (saturated_of_indistinguishable h hsat')
  · rintro (rfl | ⟨hsat, hsat'⟩)
    · exact .refl allocateStep L
    · exact hsat.indistinguishable hsat'

end WFD
end Simu
end YatCasched
