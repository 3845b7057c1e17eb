import Mathlib.Algebra.Group.Nat.Defs
import Mathlib.Data.List.Nodup
import Mathlib.Data.List.Range

/-!
# Blocks of equal size

The first numbers cut into blocks of the same size.  A number is in the block its
quotient names, at the place its remainder names.

Main results:

- Theorem {lit}`mem_block_iff`: which block a number is in.
- Theorem {lit}`count_block`: it is there once.
- Theorem {lit}`find?_block`: a search through the blocks finds the quotient.
- Theorem {lit}`set_map_eq`: what one assignment does to a list that is filled place by
  place.
-/

namespace YatCasched
namespace Blocks

variable {size count : Nat}

/-- The block with a given number. -/
def block (size k : Nat) : List Nat :=
  List.range' (k * size) size

/-- The first blocks. -/
def blocks (size count : Nat) : List (List Nat) :=
  (List.range count).map (block size)

@[simp]
theorem length_block (size k : Nat) : (block size k).length = size :=
  List.length_range'

@[simp]
theorem length_blocks (size count : Nat) : (blocks size count).length = count := by
  simp [blocks]

@[simp]
theorem getElem_blocks {k : Nat} (hk : k < (blocks size count).length) :
    (blocks size count)[k] = block size k := by
  simp [blocks]

/-- The place of a number in its block. -/
@[simp]
theorem getElem_block {k i : Nat} (hi : i < (block size k).length) :
    (block size k)[i] = k * size + i := by
  simp [block]

theorem nodup_block (size k : Nat) : (block size k).Nodup :=
  List.nodup_range'

/-- A number is in the block its quotient names. -/
theorem mem_block_iff (hsize : 0 < size) {c k : Nat} : c ∈ block size k ↔ c / size = k := by
  unfold block
  rw [List.mem_range'_1, Nat.div_eq_iff hsize]
  omega

/-- It is there once. -/
theorem count_block (hsize : 0 < size) (c k : Nat) :
    (block size k).count c = if c / size = k then 1 else 0 := by
  rw [(nodup_block size k).count]
  simp only [mem_block_iff hsize]

/-- A number of the first blocks is in one of them. -/
theorem div_lt_of_lt_mul {c : Nat} (hc : c < count * size) : c / size < count :=
  Nat.div_lt_of_lt_mul (by rwa [Nat.mul_comm])

/-- A search through the blocks finds the quotient, for the numbers in them. -/
theorem find?_block (hsize : 0 < size) (c : Nat) :
    (List.range count).find? (fun k => decide (c ∈ block size k)) =
      if c < count * size then some (c / size) else none := by
  split
  · rename_i hc
    rw [List.find?_range_eq_some]
    refine ⟨decide_eq_true ((mem_block_iff hsize).mpr rfl),
      List.mem_range.mpr (div_lt_of_lt_mul hc), ?_⟩
    intro k hk
    have hne : c ∉ block size k := fun hmem => hk.ne' ((mem_block_iff hsize).mp hmem)
    simp [hne]
  · rename_i hc
    rw [List.find?_range_eq_none]
    intro k hk
    have hne : c ∉ block size k := by
      intro hmem
      apply hc
      rw [← Nat.div_lt_iff_lt_mul hsize, (mem_block_iff hsize).mp hmem]
      exact hk
    simp [hne]

/-- Where one place is assigned, and nothing changes at the others, the list of values
goes over into that of the new ones. -/
theorem set_map_eq {α β : Type*} {l : List α} {f g : α → β} {i : Nat} (hi : i < l.length)
    (hother : ∀ j (hj : j < l.length), j ≠ i → g l[j] = f l[j]) :
    (l.map f).set i (g l[i]) = l.map g := by
  apply List.ext_getElem
  · simp
  · intro j hj _
    rw [List.getElem_set, List.getElem_map, List.getElem_map]
    by_cases hij : i = j
    · subst hij
      rw [if_pos rfl]
    · rw [if_neg hij]
      exact (hother j (by simpa using hj) (Ne.symm hij)).symm

end Blocks
end YatCasched
