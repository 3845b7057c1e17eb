import Mathlib.Data.List.Count
import Mathlib.Data.List.Find
import Mathlib.Data.List.GetD
import YatCasched.Lib.Blocks
import YatCasched.Lib.Run
import YatCasched.Simu.Node

/-!
# The cache hierarchy

The constructor of {lit}`CacheHierarchy` allocates the clusters of the second level in
one loop and fills them in another one, through quotient and remainder.
{lit}`getLevel2ClusterID` searches them.  An {lit}`int` is an {lit}`Int`: no value here
exceeds the number of cores.  The checks of the constructor only print, so they are left
out.

Main results:

- Theorem {lit}`new_eq`: what the constructor builds.
- Theorem {lit}`getLevel2ClusterID_eq`: what the search finds.
- Theorem {lit}`new_clustered`: the clusters are a partition of the cores.
-/

namespace YatCasched
namespace Simu

open Blocks

/-! ## Arrays -/

/-- {lit}`new int[length]`. -/
def newArray (length : Int) : Except JavaException (List Int) :=
  if length < 0 then .error .negativeArraySize else .ok (List.replicate length.toNat 0)

/-- {lit}`array[index]`. -/
def load (array : List Int) (index : Int) : Except JavaException Int :=
  if h : 0 ≤ index ∧ index.toNat < array.length then
    .ok (array.get ⟨index.toNat, h.2⟩)
  else
    .error .arrayIndexOutOfBounds

/-- {lit}`array[index] = value`. -/
def store (array : List Int) (index value : Int) : Except JavaException (List Int) :=
  if 0 ≤ index ∧ index.toNat < array.length then
    .ok (array.set index.toNat value)
  else
    .error .arrayIndexOutOfBounds

/-- {lit}`list.get(index)`. -/
def getArray (list : List (List Int)) (index : Int) : Except JavaException (List Int) :=
  if h : 0 ≤ index ∧ index.toNat < list.length then
    .ok (list.get ⟨index.toNat, h.2⟩)
  else
    .error .indexOutOfBounds

/-- {lit}`a / b`. -/
def quotient (a b : Int) : Except JavaException Int :=
  if b = 0 then .error .arithmetic else .ok (a.tdiv b)

/-- {lit}`a % b`. -/
def remainder (a b : Int) : Except JavaException Int :=
  if b = 0 then .error .arithmetic else .ok (a.tmod b)

/-! ## The constructor and the search -/

/-- {lit}`CacheHierarchy`. -/
structure CacheHierarchy where
  coreNum : Int
  cacheLevel : Int
  level2ClusterNum : Int
  level2ClusterSize : Int
  level1 : List (List Int)
  level2 : List (List Int)
  level3 : List (List Int)

/-- What the second loop of the constructor fills. -/
structure Filling where
  level1 : List (List Int)
  level2 : List (List Int)
  perLevel3 : List Int

/-- One round of the first loop of the constructor. -/
def addCluster (level2ClusterSize : Int) (level2 : List (List Int)) (_ : Nat) :
    Except JavaException (List (List Int)) := do
  let perLevel2 ← newArray level2ClusterSize
  return level2 ++ [perLevel2]

/-- One round of the second loop.  The array of a cluster is changed in place. -/
def addCore (level2ClusterSize : Int) (filling : Filling) (i : Nat) :
    Except JavaException Filling := do
  let perLevel1 ← newArray 1
  let perLevel1 ← store perLevel1 0 i
  let clusterID ← quotient i level2ClusterSize
  let cluster ← getArray filling.level2 clusterID
  let column ← remainder i level2ClusterSize
  let cluster ← store cluster column i
  let perLevel3 ← store filling.perLevel3 i i
  return {
    level1 := filling.level1 ++ [perLevel1]
    level2 := filling.level2.set clusterID.toNat cluster
    perLevel3 := perLevel3 }

/-- The constructor. -/
def CacheHierarchy.new (coreNum cacheLevel level2ClusterSize : Int) :
    Except JavaException CacheHierarchy := do
  -- the test for clusters of equal size divides before anything is built
  let _ ← remainder coreNum level2ClusterSize
  let level2ClusterNum ← quotient coreNum level2ClusterSize
  let level2 ← (List.range level2ClusterNum.toNat).foldlM (addCluster level2ClusterSize) []
  let perLevel3 ← newArray coreNum
  let filling ← (List.range coreNum.toNat).foldlM (addCore level2ClusterSize)
    ⟨[], level2, perLevel3⟩
  return {
    coreNum := coreNum
    cacheLevel := cacheLevel
    level2ClusterNum := level2ClusterNum
    level2ClusterSize := level2ClusterSize
    level1 := filling.level1
    level2 := filling.level2
    level3 := [filling.perLevel3] }

/-- The inner loop of {lit}`getLevel2ClusterID`: whether it returns. -/
def searchCluster (cores : List Int) (core : Int) : Except JavaException Bool :=
  (List.range cores.length).anyM fun k : Nat => do
    let other ← load cores k
    return decide (other = core)

/-- {lit}`getLevel2ClusterID`. -/
def CacheHierarchy.getLevel2ClusterID (h : CacheHierarchy) (core : Int) :
    Except JavaException Int := do
  let found ← (List.range h.level2.length).findM? fun i : Nat => do
    let cores ← getArray h.level2 i
    searchCluster cores core
  match found with
  | some i => return i
  | none => return -1

/-- The clusters of a hierarchy of {lit}`coreNum` cores are a partition of the cores into
sets of {lit}`size`, and the search finds the cluster of a core and nothing else. -/
structure CacheHierarchy.Clustered (h : CacheHierarchy) (coreNum size : Nat) : Prop where
  level2ClusterNum_eq : h.level2ClusterNum = (coreNum / size : Nat)
  length_level2 : h.level2.length = coreNum / size
  length_cluster : ∀ cluster ∈ h.level2, cluster.length = size
  cores_only : ∀ cluster ∈ h.level2, ∀ core ∈ cluster, 0 ≤ core ∧ core < coreNum
  count_eq : ∀ core, core < coreNum → ∃ i, i < h.level2.length ∧
    ∀ j (hj : j < h.level2.length), h.level2[j].count (core : Int) = if j = i then 1 else 0
  level1_eq : h.level1 = (List.range coreNum).map fun core : Nat => [(core : Int)]
  level3_eq : h.level3 = [(List.range coreNum).map fun core : Nat => (core : Int)]
  clusterID_eq : ∀ core : Nat, core < coreNum →
    h.getLevel2ClusterID core = .ok (core / size : Nat)
  clusterID_other : ∀ core : Int, core < 0 ∨ (coreNum : Int) ≤ core →
    h.getLevel2ClusterID core = .ok (-1)
  clusterID_eq_iff : ∀ core core' : Nat, core < coreNum → core' < coreNum →
    (h.getLevel2ClusterID core = h.getLevel2ClusterID core' ↔
      ∃ cluster ∈ h.level2, (core : Int) ∈ cluster ∧ (core' : Int) ∈ cluster)

/-! ## What the constructor builds -/

variable {size count coreNum : Nat}

/-- The entry of a core after the rounds before {lit}`n`: arrays start with zeros. -/
def entryBefore (n core : Nat) : Int :=
  if core < n then core else 0

/-- What has been filled before the round {lit}`n`. -/
def fillingBefore (size count n : Nat) : Filling where
  level1 := (List.range n).map fun core : Nat => [(core : Int)]
  level2 := (blocks size count).map fun cluster => cluster.map (entryBefore n)
  perLevel3 := (List.range (count * size)).map (entryBefore n)

theorem newArray_natCast (n : Nat) : newArray n = .ok (List.replicate n 0) := by
  unfold newArray
  rw [if_neg (by omega), Int.toNat_natCast]

theorem store_natCast {array : List Int} {i : Nat} (hi : i < array.length) (value : Int) :
    store array i value = .ok (array.set i value) := by
  unfold store
  rw [Int.toNat_natCast, if_pos ⟨by omega, hi⟩]

theorem load_natCast {array : List Int} {i : Nat} (hi : i < array.length) :
    load array i = .ok array[i] := by
  unfold load
  simp only [Int.toNat_natCast]
  rw [dif_pos ⟨by omega, hi⟩]
  rfl

theorem getArray_natCast {list : List (List Int)} {i : Nat} (hi : i < list.length) :
    getArray list i = .ok list[i] := by
  unfold getArray
  simp only [Int.toNat_natCast]
  rw [dif_pos ⟨by omega, hi⟩]
  rfl

theorem quotient_natCast (hsize : 0 < size) (a : Nat) :
    quotient a size = .ok (a / size : Nat) := by
  unfold quotient
  rw [if_neg (by omega), Int.ofNat_tdiv]

theorem remainder_natCast (hsize : 0 < size) (a : Nat) :
    remainder a size = .ok (a % size : Nat) := by
  unfold remainder
  rw [if_neg (by omega), Int.ofNat_tmod]

/-- The round of a core changes its own entry. -/
theorem entryBefore_succ_of_ne {n core : Nat} (hne : core ≠ n) :
    entryBefore (n + 1) core = entryBefore n core := by
  unfold entryBefore
  by_cases hlt : core < n
  · rw [if_pos hlt, if_pos (by omega)]
  · rw [if_neg hlt, if_neg (by omega)]

theorem entryBefore_succ_self (n : Nat) : entryBefore (n + 1) n = n :=
  if_pos (Nat.lt_succ_self n)

/-- Storing a core at its place. -/
theorem set_entryBefore {l : List Nat} (hnodup : l.Nodup) {i n : Nat} (hi : i < l.length)
    (hn : l[i] = n) : (l.map (entryBefore n)).set i n = l.map (entryBefore (n + 1)) := by
  have hset := set_map_eq (f := entryBefore n) (g := entryBefore (n + 1)) hi fun j hj hji => by
    apply entryBefore_succ_of_ne
    intro heq
    exact hji ((hnodup.getElem_inj_iff).mp (heq.trans hn.symm))
  rwa [hn, entryBefore_succ_self] at hset

/-- The first loop builds clusters of zeros. -/
theorem foldlM_addCluster (size count : Nat) :
    (List.range count).foldlM (addCluster size) [] =
      .ok ((blocks size count).map fun cluster => cluster.map (entryBefore 0)) := by
  have hzeros : ∀ k, (block size k).map (entryBefore 0) = List.replicate size 0 := by
    intro k
    apply List.ext_getElem
    · simp
    · intro i _ _
      simp [entryBefore]
  apply Run.foldlM_range fun n => (blocks size n).map fun cluster => cluster.map (entryBefore 0)
  intro n _
  unfold addCluster
  rw [newArray_natCast]
  simp [blocks, List.range_succ, hzeros]

/-- A round of the second loop puts its core everywhere. -/
theorem addCore_fillingBefore (hsize : 0 < size) {n : Nat} (hn : n < count * size) :
    addCore size (fillingBefore size count n) n = .ok (fillingBefore size count (n + 1)) := by
  have hcluster : n / size < ((blocks size count).map fun cluster =>
      cluster.map (entryBefore n)).length := by
    simp [div_lt_of_lt_mul hn]
  have hcolumn : n % size < (block size (n / size)).length := by
    simp [Nat.mod_lt n hsize]
  have hplace : (block size (n / size))[n % size] = n := by
    rw [getElem_block]
    exact Nat.div_add_mod' n size
  have hget : getArray (fillingBefore size count n).level2 (n / size : Nat) =
      .ok ((block size (n / size)).map (entryBefore n)) := by
    unfold fillingBefore
    rw [getArray_natCast hcluster]
    simp
  have hstore : store ((block size (n / size)).map (entryBefore n)) (n % size : Nat) n =
      .ok ((block size (n / size)).map (entryBefore (n + 1))) := by
    rw [store_natCast (by simpa using hcolumn), set_entryBefore (nodup_block size _) hcolumn hplace]
  have hstore₃ : store (fillingBefore size count n).perLevel3 n n =
      .ok (fillingBefore size count (n + 1)).perLevel3 := by
    unfold fillingBefore
    rw [store_natCast (by simpa using hn),
      set_entryBefore List.nodup_range (by simpa using hn) (by simp)]
  have hlevel2 : (fillingBefore size count n).level2.set (n / size)
      ((block size (n / size)).map (entryBefore (n + 1))) =
        (fillingBefore size count (n + 1)).level2 := by
    have hset := set_map_eq (l := blocks size count) (i := n / size)
      (f := fun cluster => cluster.map (entryBefore n))
      (g := fun cluster => cluster.map (entryBefore (n + 1)))
      (by simpa using hcluster) fun j hj hji => by
        rw [getElem_blocks]
        apply List.map_congr_left
        intro core hcore
        apply entryBefore_succ_of_ne
        rintro rfl
        exact hji ((mem_block_iff hsize).mp hcore).symm
    rw [getElem_blocks] at hset
    exact hset
  have hlevel1 : (fillingBefore size count n).level1 ++ [[(n : Int)]] =
      (fillingBefore size count (n + 1)).level1 := by
    simp [fillingBefore, List.range_succ]
  have hnew : newArray 1 = .ok [0] := rfl
  have hstore₁ : store [0] 0 n = .ok [(n : Int)] := rfl
  unfold addCore
  simp only [hnew, hstore₁, quotient_natCast hsize, hget, remainder_natCast hsize, hstore, hstore₃,
    bind, Except.bind, pure, Except.pure, Int.toNat_natCast, hlevel2, hlevel1]

/-- After all rounds every entry is its core. -/
theorem entryBefore_of_lt {n core : Nat} (hlt : core < n) : entryBefore n core = core :=
  if_pos hlt

/-- What the constructor builds for {lit}`count` clusters. -/
theorem new_eq (hsize : 0 < size) (count : Nat) (cacheLevel : Int) :
    CacheHierarchy.new (count * size : Nat) cacheLevel size = .ok {
      coreNum := (count * size : Nat)
      cacheLevel := cacheLevel
      level2ClusterNum := count
      level2ClusterSize := size
      level1 := (List.range (count * size)).map fun core : Nat => [(core : Int)]
      level2 := (blocks size count).map fun cluster => cluster.map fun core : Nat => (core : Int)
      level3 := [(List.range (count * size)).map fun core : Nat => (core : Int)] } := by
  have hstart : Filling.mk [] ((blocks size count).map fun cluster => cluster.map (entryBefore 0))
      (List.replicate (count * size) 0) = fillingBefore size count 0 := by
    have hzeros : (List.range (count * size)).map (entryBefore 0) =
        List.replicate (count * size) 0 := by
      apply List.ext_getElem
      · simp
      · intro i _ _
        simp [entryBefore]
    simp [fillingBefore, hzeros]
  have hfill : (List.range (count * size)).foldlM (addCore size) (fillingBefore size count 0) =
      .ok (fillingBefore size count (count * size)) :=
    Run.foldlM_range (fillingBefore size count) (count * size)
      fun n hn => addCore_fillingBefore hsize hn
  have hlevel2 : (fillingBefore size count (count * size)).level2 =
      (blocks size count).map fun cluster => cluster.map fun core : Nat => (core : Int) := by
    apply List.map_congr_left
    intro cluster hcluster
    rcases List.mem_map.mp hcluster with ⟨k, hk, rfl⟩
    apply List.map_congr_left
    intro core hcore
    apply entryBefore_of_lt
    rw [← Nat.div_lt_iff_lt_mul hsize, (mem_block_iff hsize).mp hcore]
    exact List.mem_range.mp hk
  have hlevel3 : (fillingBefore size count (count * size)).perLevel3 =
      (List.range (count * size)).map fun core : Nat => (core : Int) :=
    List.map_congr_left fun core hcore => entryBefore_of_lt (List.mem_range.mp hcore)
  unfold CacheHierarchy.new
  simp only [remainder_natCast hsize, quotient_natCast hsize, Nat.mul_div_cancel count hsize,
    newArray_natCast, Int.toNat_natCast, foldlM_addCluster, bind, Except.bind, hstart, hfill,
    pure, Except.pure, hlevel2, hlevel3]
  rfl

/-! ## The search -/

/-- The inner loop looks for the core in its cluster. -/
theorem searchCluster_eq (cores : List Int) (core : Int) :
    searchCluster cores core = .ok (decide (core ∈ cores)) := by
  have hany : ((List.range cores.length).any fun k => decide (cores[k]? = some core)) =
      decide (core ∈ cores) := by
    rw [Bool.eq_iff_iff, List.any_eq_true, decide_eq_true_eq, List.mem_iff_getElem?]
    constructor
    · rintro ⟨k, _, hk⟩
      exact ⟨k, of_decide_eq_true hk⟩
    · rintro ⟨k, hk⟩
      exact ⟨k, List.mem_range.mpr (List.getElem?_eq_some_iff.mp hk).1, decide_eq_true hk⟩
  unfold searchCluster
  rw [← hany]
  apply Run.anyM_eq_ok
  intro k hk
  have hk := List.mem_range.mp hk
  rw [load_natCast hk]
  simp [hk, bind, Except.bind, pure, Except.pure]

/-- The search finds the first cluster with the core. -/
theorem getLevel2ClusterID_eq (h : CacheHierarchy) (core : Int) :
    h.getLevel2ClusterID core =
      .ok (((List.range h.level2.length).find? fun i =>
        decide (core ∈ h.level2.getD i [])).elim (-1) fun i : Nat => (i : Int)) := by
  have htest : (List.range h.level2.length).findM? (fun i : Nat => do
        let cores ← getArray h.level2 i
        searchCluster cores core) =
      .ok ((List.range h.level2.length).find? fun i => decide (core ∈ h.level2.getD i [])) := by
    apply Run.findM?_eq_ok
    intro i hi
    have hi := List.mem_range.mp hi
    rw [getArray_natCast hi, List.getD_eq_getElem _ _ hi]
    exact searchCluster_eq _ core
  unfold CacheHierarchy.getLevel2ClusterID
  rw [htest]
  cases (List.range h.level2.length).find? fun i => decide (core ∈ h.level2.getD i []) with
  | none => rfl
  | some i => rfl

theorem natCast_injective : Function.Injective fun core : Nat => (core : Int) := by
  intro core core' heq
  exact Int.ofNat.inj heq

section Clusters

variable {h : CacheHierarchy}
  (hlevel2 : h.level2 = (blocks size count).map fun cluster => cluster.map fun core : Nat =>
    (core : Int))

include hlevel2

/-- The clusters are the blocks. -/
theorem getElem_level2 {i : Nat} (hi : i < h.level2.length) :
    h.level2[i] = (block size i).map fun core : Nat => (core : Int) := by
  simp [hlevel2]

theorem length_level2 : h.level2.length = count := by
  simp [hlevel2]

/-- A number is in the cluster its quotient names. -/
theorem mem_getElem_level2 (hsize : 0 < size) {i : Nat} (hi : i < h.level2.length) (core : Nat) :
    (core : Int) ∈ h.level2[i] ↔ core / size = i := by
  rw [getElem_level2 hlevel2 hi, ← mem_block_iff hsize]
  exact List.mem_map_of_injective natCast_injective

/-- The cluster the search finds. -/
theorem getLevel2ClusterID_natCast (hsize : 0 < size) (core : Nat) :
    h.getLevel2ClusterID core =
      .ok (if core < count * size then (core / size : Nat) else -1) := by
  have hfind : ((List.range h.level2.length).find? fun i =>
      decide ((core : Int) ∈ h.level2.getD i [])) =
        (List.range count).find? fun i => decide (core ∈ block size i) := by
    rw [length_level2 hlevel2]
    apply List.find?_congr
    intro i hi
    have hi : i < h.level2.length := by
      rw [length_level2 hlevel2]
      exact List.mem_range.mp hi
    rw [List.getD_eq_getElem _ _ hi]
    simp only [mem_getElem_level2 hlevel2 hsize hi, mem_block_iff hsize]
  rw [getLevel2ClusterID_eq, hfind, find?_block hsize]
  split
  · rfl
  · rfl

/-- A negative number is in no cluster. -/
theorem getLevel2ClusterID_of_neg {core : Int} (hneg : core < 0) :
    h.getLevel2ClusterID core = .ok (-1) := by
  have hfind : ((List.range h.level2.length).find? fun i =>
      decide (core ∈ h.level2.getD i [])) = none := by
    rw [List.find?_range_eq_none]
    intro i hi
    rw [List.getD_eq_getElem _ _ hi, getElem_level2 hlevel2 hi]
    simp only [List.mem_map, not_exists, Bool.not_eq_true', decide_eq_false_iff_not]
    rintro other ⟨_, rfl⟩
    omega
  rw [getLevel2ClusterID_eq, hfind]
  rfl

/-- The clusters are a partition of the cores. -/
theorem clustered_of_level2 (hsize : 0 < size) (hnum : h.level2ClusterNum = count)
    (hlevel1 : h.level1 = (List.range (count * size)).map fun core : Nat => [(core : Int)])
    (hlevel3 : h.level3 = [(List.range (count * size)).map fun core : Nat => (core : Int)]) :
    h.Clustered (count * size) size := by
  have hdiv : count * size / size = count := Nat.mul_div_cancel count hsize
  have hlength := length_level2 hlevel2
  have hlt : ∀ core, core < count * size → core / size < h.level2.length := by
    intro core hcore
    rw [hlength]
    exact div_lt_of_lt_mul hcore
  have hID := getLevel2ClusterID_natCast hlevel2 hsize
  constructor
  case level2ClusterNum_eq =>
    rw [hnum, hdiv]
  case length_level2 =>
    rw [hlength, hdiv]
  case length_cluster =>
    intro cluster hcluster
    rcases List.mem_iff_getElem.mp hcluster with ⟨i, hi, rfl⟩
    rw [getElem_level2 hlevel2 hi]
    simp
  case cores_only =>
    intro cluster hcluster core hcore
    rcases List.mem_iff_getElem.mp hcluster with ⟨i, hi, rfl⟩
    rw [getElem_level2 hlevel2 hi] at hcore
    rcases List.mem_map.mp hcore with ⟨c, hc, rfl⟩
    have hcount : c < count * size := by
      rw [← Nat.div_lt_iff_lt_mul hsize, (mem_block_iff hsize).mp hc, ← hlength]
      exact hi
    exact ⟨Int.natCast_nonneg c, by exact_mod_cast hcount⟩
  case count_eq =>
    intro core hcore
    refine ⟨core / size, hlt core hcore, ?_⟩
    intro j hj
    rw [getElem_level2 hlevel2 hj, List.count_map_of_injective _ _ natCast_injective,
      count_block hsize]
    simp only [eq_comm]
  case level1_eq => exact hlevel1
  case level3_eq => exact hlevel3
  case clusterID_eq =>
    intro core hcore
    rw [hID, if_pos hcore]
  case clusterID_other =>
    rintro core (hneg | hge)
    · exact getLevel2ClusterID_of_neg hlevel2 hneg
    · have hcore : (core.toNat : Int) = core := Int.toNat_of_nonneg (by omega)
      rw [← hcore, hID, if_neg (by omega)]
  case clusterID_eq_iff =>
    intro core core' hcore hcore'
    rw [hID, hID, if_pos hcore, if_pos hcore']
    constructor
    · intro heq
      have hsame : core / size = core' / size := by
        exact_mod_cast Except.ok.inj heq
      have hi := hlt core hcore
      refine ⟨h.level2[core / size], List.getElem_mem hi, ?_, ?_⟩
      · rw [mem_getElem_level2 hlevel2 hsize]
      · rw [mem_getElem_level2 hlevel2 hsize, hsame]
    · rintro ⟨cluster, hcluster, hmem, hmem'⟩
      rcases List.mem_iff_getElem.mp hcluster with ⟨i, hi, rfl⟩
      rw [(mem_getElem_level2 hlevel2 hsize hi core).mp hmem,
        (mem_getElem_level2 hlevel2 hsize hi core').mp hmem']

end Clusters

/-- The constructor succeeds for every number of cores that is a multiple of the size of
the clusters, and builds a partition of the cores. -/
theorem new_clustered {coreNum size : Nat} (hsize : 1 ≤ size) (hdvd : size ∣ coreNum)
    (cacheLevel : Int) :
    ∃ h, CacheHierarchy.new coreNum cacheLevel size = .ok h ∧ h.Clustered coreNum size := by
  rcases hdvd with ⟨count, rfl⟩
  rw [Nat.mul_comm size count]
  exact ⟨_, new_eq hsize count cacheLevel, clustered_of_level2 rfl hsize rfl rfl rfl⟩

/-- Six cores in clusters of two. -/
theorem new_clustered_sixCores :
    ∃ h, CacheHierarchy.new 6 3 2 = .ok h ∧ h.Clustered 6 2 :=
  new_clustered (by decide) (by decide) 3

end Simu
end YatCasched
