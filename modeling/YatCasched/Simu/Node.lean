import Mathlib.Data.Rat.Defs

/-!
# Tasks of the simulation

The fields of {lit}`Node` that the allocation algorithms, the simulators and
{lit}`cloneTasks` read and write.  A {lit}`long` is an {lit}`Int64`, an
{lit}`int` an {lit}`Int32`, and a {lit}`double` the rational it stands for:
rounding, infinities and {lit}`NaN` are not modelled.  The links between tasks
and the recency profile are left out.
-/

namespace YatCasched
namespace Simu

/-- Processors are the non-negative ids; -1 stands for no processor. -/
abbrev ProcId := Nat

/-- {lit}`Node.NodeType`. -/
inductive NodeType
  | source
  | sink
  | normal
  | solo
deriving DecidableEq

/-- {lit}`Node`.  The array {lit}`weights` may be null. -/
structure Node where
  id : Int32
  dagID : Int32
  type : NodeType
  layer : Int32
  expectedET : Int64
  release : Int64
  start : Int64
  finishAt : Int64
  finish : Bool
  partition : Int32
  affinity : Int32
  weights : Option (List ℚ)
  sensitivity : ℚ
  actualCacheHitRatio : ℚ
  actualL1L2L3HitRatio : ℚ × ℚ × ℚ

/-- What the virtual machine throws. -/
inductive JavaException
  | nullPointer
  | arrayIndexOutOfBounds
  | indexOutOfBounds
  | negativeArraySize
  | arithmetic
deriving DecidableEq

/-- {lit}`node.weights != null && node.weights.length >= 4`. -/
def Node.hasWeights (node : Node) : Bool :=
  match node.weights with
  | none => false
  | some weights => 4 ≤ weights.length

/-- {lit}`node.weights[i]`, for an index inside the array. -/
def Node.weight (node : Node) (i : Nat) : ℚ :=
  match node.weights with
  | none => 0
  | some weights => weights.getD i 0

/-- A weight is one of the list, or past its end. -/
theorem Node.weight_eq_zero_or_mem {node : Node} {weights : List ℚ}
    (h : node.weights = some weights) (i : Nat) :
    node.weight i = 0 ∨ node.weight i ∈ weights := by
  unfold Node.weight
  rw [h]
  dsimp only
  rw [List.getD_eq_getElem?_getD]
  cases hget : weights[i]? with
  | none => exact Or.inl rfl
  | some x => exact Or.inr (List.mem_of_getElem? hget)

/-- The execution time as a {lit}`double`. -/
def Node.time (node : Node) : ℚ :=
  node.expectedET.toInt

/-- A new node as the constructor leaves it; the execution time, the sensitivity
and the weights it draws are given. -/
def Node.new (layer : Int32) (type : NodeType) (id dagID : Int32) (drawnET : Int64)
    (drawnSensitivity : ℚ) (drawnWeights : List ℚ) : Node where
  id := id
  dagID := dagID
  type := type
  layer := layer
  expectedET := drawnET
  release := -1
  start := -1
  finishAt := -1
  finish := false
  partition := -1
  affinity := -1
  weights := some drawnWeights
  sensitivity := drawnSensitivity
  actualCacheHitRatio := 0
  actualL1L2L3HitRatio := (0, 0, 0)

/-- A task the cache-aware allocator is meant for: at least one unit of time, a
sensitivity between 0 and 1, and at least four weights, none negative. -/
structure Node.Proper (node : Node) : Prop where
  time_ge_one : 1 ≤ node.time
  sensitivity_nonneg : 0 ≤ node.sensitivity
  sensitivity_le_one : node.sensitivity ≤ 1
  hasWeights : node.hasWeights = true
  weight_nonneg : ∀ i, 0 ≤ node.weight i

end Simu
end YatCasched
