import YatCasched.Lib.Ratio
import YatCasched.Simu.Ledger

/-!
# Hit statistics

What {lit}`CacheAware_v2` reports about its hits: the statistics of the processors,
the hit ratios it writes into the tasks, and the ratios computed from both.  Every
hit is an access, so all of them are ratios; but a task enters the statistics
twice.

Main results:

- Theorem {lit}`HitsSound.mark`: a call keeps hits and ratios in their bounds.
- Theorem {lit}`hitRatios_bounded`: every reported ratio is between 0 and 1.
- Theorem {lit}`run_countedTwice`: every call of a run counts its task twice.
-/

namespace YatCasched
namespace Simu

open CacheAwareState FirstBest Ratio

/-! ## Reports -/

/-- The accesses at all levels. -/
def CacheHitStats.totalAccesses (stats : CacheHitStats) : ℚ :=
  stats.totalL1Accesses + stats.totalL2Accesses + stats.totalL3Accesses

/-- The hits at all levels. -/
def CacheHitStats.totalHits (stats : CacheHitStats) : ℚ :=
  stats.totalL1Hits + stats.totalL2Hits + stats.totalL3Hits

/-- {lit}`cacheHitStats.values()`, for the keys of the map in its order. -/
def cacheHitStatsValues (st : CacheAwareState) (keys : List ProcId) : List CacheHitStats :=
  keys.filterMap st.cacheHitStats

/-- {lit}`calculateOverallCacheHitRatio`, on the values of the map. -/
def calculateOverallCacheHitRatio (values : List CacheHitStats) : ℚ :=
  let totalAccesses := (values.map CacheHitStats.totalAccesses).sum
  let totalHits := (values.map CacheHitStats.totalHits).sum
  ratio totalHits totalAccesses

/-- {lit}`task.weights != null && task.weights.length >= 3`. -/
def Node.hasLevelWeights (node : Node) : Bool :=
  match node.weights with
  | none => false
  | some weights => 3 ≤ weights.length

/-- {lit}`task.weights[0] + task.weights[1] + task.weights[2]`. -/
def Node.levelWeight (node : Node) : ℚ :=
  node.weight 0 + node.weight 1 + node.weight 2

/-- {lit}`calculateCacheHitRatioFromTasks`. -/
def calculateCacheHitRatioFromTasks (tasks : List Node) : ℚ :=
  let counted := tasks.filter Node.hasLevelWeights
  let totalWeightedHitRatio :=
    (counted.map fun task => task.actualCacheHitRatio * task.levelWeight).sum
  let totalWeight := (counted.map Node.levelWeight).sum
  ratio totalWeightedHitRatio totalWeight

/-- {lit}`getDetailedCacheHitReport`, on the values of the map. -/
def getDetailedCacheHitReport (values : List CacheHitStats) : List (String × ℚ) :=
  [("L1_Hit_Ratio", ratio (values.map CacheHitStats.totalL1Hits).sum
      (values.map CacheHitStats.totalL1Accesses).sum),
    ("L2_Hit_Ratio", ratio (values.map CacheHitStats.totalL2Hits).sum
      (values.map CacheHitStats.totalL2Accesses).sum),
    ("L3_Hit_Ratio", ratio (values.map CacheHitStats.totalL3Hits).sum
      (values.map CacheHitStats.totalL3Accesses).sum),
    ("Overall_Hit_Ratio", calculateOverallCacheHitRatio values)]

/-! ## Keys -/

/-- The keys of the map of hit statistics, in some order. -/
structure IsKeys (st : CacheAwareState) (keys : List ProcId) : Prop where
  nodup : keys.Nodup
  mem_iff : ∀ p, p ∈ keys ↔ (st.cacheHitStats p).isSome = true

/-- Every value of the map belongs to a processor. -/
theorem mem_cacheHitStatsValues {st : CacheAwareState} {keys : List ProcId}
    {stats : CacheHitStats} (h : stats ∈ cacheHitStatsValues st keys) :
    ∃ p, stats = st.hitStats p := by
  rcases List.mem_filterMap.mp h with ⟨p, _, hp⟩
  refine ⟨p, ?_⟩
  unfold hitStats
  rw [hp]
  rfl

/-- The loop over the processors makes no statistics. -/
theorem foldl_scoreRound_cacheHitStats (st : CacheAwareState) (node : Node) (l : List ProcId)
    (best : Option ProcId × ℚ) :
    (l.foldl (scoreRound node) (st, best)).1.cacheHitStats = st.cacheHitStats := by
  have hinit : ∀ (st : CacheAwareState) p,
      (st.initProcessor p).cacheHitStats = st.cacheHitStats := by
    intro st p
    unfold initProcessor
    split
    · rfl
    · rfl
  induction l generalizing st best with
  | nil => rfl
  | cons p l ih =>
      rw [List.foldl_cons]
      unfold scoreRound calculateCacheAwareScore
      dsimp only
      split
      · rw [← hinit st p]
        exact ih (st.initProcessor p) (some p, _)
      · rw [← hinit st p]
        exact ih (st.initProcessor p) best

theorem updateProcessorState_cacheHitStats {st st' : CacheAwareState} {p : ProcId} {node : Node}
    (hupdate : st.updateProcessorState p node = .ok st') :
    ∃ stats, st'.cacheHitStats = Function.update st.cacheHitStats p (some stats) := by
  unfold updateProcessorState updateCacheHitStats at hupdate
  split at hupdate
  · cases hupdate
  · split at hupdate
    · cases hupdate
    · rw [← Except.ok.inj hupdate]
      exact ⟨_, rfl⟩

theorem recordTaskCacheHitRatio_cacheHitStats (st : CacheAwareState) (p : ProcId) (node : Node) :
    ∃ stats, (st.recordTaskCacheHitRatio p node).1.cacheHitStats =
      Function.update st.cacheHitStats p (some stats) := by
  unfold recordTaskCacheHitRatio
  dsimp only
  split
  · exact ⟨_, rfl⟩
  · exact ⟨_, Function.update_idem _ _ _⟩

/-- A call makes the statistics of at most one processor. -/
theorem allocate_cacheHitStats {st st' : CacheAwareState} {readyNodes readyNodes' : List Node}
    {availableProc : List ProcId} {id : Int}
    (hallocate : st.allocate readyNodes availableProc = .ok (id, st', readyNodes')) :
    st'.cacheHitStats = st.cacheHitStats ∨
      ∃ p stats, st'.cacheHitStats = Function.update st.cacheHitStats p (some stats) := by
  unfold CacheAwareState.allocate at hallocate
  split at hallocate
  · left
    rw [← (Prod.mk.inj (Prod.mk.inj (Except.ok.inj hallocate)).2).1]
  · left
    rw [← (Prod.mk.inj (Prod.mk.inj (Except.ok.inj hallocate)).2).1]
  · rename_i node rest first others
    have hsame := foldl_scoreRound_cacheHitStats st node (first :: others) (none, doubleMinValue)
    split at hallocate
    · rename_i st₁ _ hfold
      left
      rw [← (Prod.mk.inj (Prod.mk.inj (Except.ok.inj hallocate)).2).1, ← hsame, hfold]
    · rename_i st₁ p _ hfold
      right
      rw [hfold] at hsame
      split at hallocate
      · cases hallocate
      · rename_i st₂ hupdate
        rcases updateProcessorState_cacheHitStats hupdate with ⟨stats, hstats⟩
        rcases recordTaskCacheHitRatio_cacheHitStats st₂ p node with ⟨stats', hstats'⟩
        refine ⟨p, stats', ?_⟩
        rw [← (Prod.mk.inj (Prod.mk.inj (Except.ok.inj hallocate)).2).1]
        dsimp only at hsame ⊢
        rw [hstats', hstats, hsame, Function.update_idem]

/-- In a reachable state the map has finitely many keys. -/
theorem CacheAwareState.Reachable.exists_keys {st : CacheAwareState} (h : st.Reachable) :
    ∃ keys, IsKeys st keys := by
  induction h with
  | resetState => exact ⟨[], List.nodup_nil, by simp [CacheAwareState.resetState]⟩
  | @allocate st st' readyNodes readyNodes' availableProc id _ hallocate ih =>
      rcases ih with ⟨keys, hkeys⟩
      rcases allocate_cacheHitStats hallocate with hsame | ⟨p, stats, hupdate⟩
      · exact ⟨keys, hkeys.nodup, by rw [hsame]; exact hkeys.mem_iff⟩
      · refine ⟨keys.insert p, hkeys.nodup.insert, ?_⟩
        intro q
        rw [hupdate, List.mem_insert_iff, hkeys.mem_iff]
        by_cases hqp : q = p
        · simp [hqp]
        · simp [hqp]

/-! ## Hits are accesses -/

/-- No level has more hits than accesses. -/
structure CacheHitStats.HitsBounded (stats : CacheHitStats) : Prop where
  l1_nonneg : 0 ≤ stats.totalL1Hits
  l1_le : stats.totalL1Hits ≤ stats.totalL1Accesses
  l2_nonneg : 0 ≤ stats.totalL2Hits
  l2_le : stats.totalL2Hits ≤ stats.totalL2Accesses
  l3_nonneg : 0 ≤ stats.totalL3Hits
  l3_le : stats.totalL3Hits ≤ stats.totalL3Accesses

/-- The hit ratios a task carries are between 0 and 1. -/
structure Node.Rated (node : Node) : Prop where
  actual_nonneg : 0 ≤ node.actualCacheHitRatio
  actual_le : node.actualCacheHitRatio ≤ 1
  l1_nonneg : 0 ≤ node.actualL1L2L3HitRatio.1
  l1_le : node.actualL1L2L3HitRatio.1 ≤ 1
  l2_nonneg : 0 ≤ node.actualL1L2L3HitRatio.2.1
  l2_le : node.actualL1L2L3HitRatio.2.1 ≤ 1
  l3_nonneg : 0 ≤ node.actualL1L2L3HitRatio.2.2
  l3_le : node.actualL1L2L3HitRatio.2.2 ≤ 1

/-- A proper task with weights of at most 1. -/
structure Node.Weighted (node : Node) : Prop extends node.Proper where
  weight_le_one : ∀ i, node.weight i ≤ 1

/-- A new task carries no hit ratios yet. -/
theorem Node.rated_new (layer : Int32) (type : NodeType) (id dagID : Int32) (drawnET : Int64)
    (drawnSensitivity : ℚ) (drawnWeights : List ℚ) :
    (Node.new layer type id dagID drawnET drawnSensitivity drawnWeights).Rated := by
  constructor <;> simp [Node.new]

/-- The hits of a task at one level. -/
theorem levelHits_bounds {weight utilization factor : ℚ} (hweight : 0 ≤ weight)
    (hutilization : 0 ≤ utilization * factor) (hle : utilization * factor ≤ 1) :
    0 ≤ weight * (1 - utilization * factor) ∧ weight * (1 - utilization * factor) ≤ weight := by
  constructor
  · apply mul_nonneg hweight
    linarith
  · apply mul_le_of_le_one_right hweight
    linarith

theorem hitRatio_eq {weight utilization factor : ℚ} (hweight : 0 ≤ weight)
    (hutilization : 0 ≤ utilization * factor) (hle : utilization * factor ≤ 1) :
    hitRatio weight utilization factor = weight * (1 - utilization * factor) :=
  max_eq_right (levelHits_bounds hweight hutilization hle).1

variable {cacheState : CacheState} {stats : CacheHitStats} {node : Node}

/-- The share of a cache level that is taken from the hits. -/
structure CacheState.Discounts (cacheState : CacheState) : Prop where
  l1_nonneg : 0 ≤ cacheState.l1Utilization * 0.8
  l1_le : cacheState.l1Utilization * 0.8 ≤ 1
  l2_nonneg : 0 ≤ cacheState.l2Utilization * 0.6
  l2_le : cacheState.l2Utilization * 0.6 ≤ 1
  l3_nonneg : 0 ≤ cacheState.l3Utilization * 0.4
  l3_le : cacheState.l3Utilization * 0.4 ≤ 1

theorem CacheState.UtilizationBounds.discounts (h : cacheState.UtilizationBounds) :
    cacheState.Discounts := by
  rcases h with ⟨h1, h1', h2, h2', h3, h3'⟩
  constructor <;> linarith

/-- The first update enters no more hits than accesses. -/
theorem CacheHitStats.HitsBounded.afterUpdate (h : stats.HitsBounded)
    (hcache : cacheState.Discounts) (hweight : ∀ i, 0 ≤ node.weight i) :
    (stats.afterUpdate node cacheState).HitsBounded := by
  have h1 := levelHits_bounds (hweight 0) hcache.l1_nonneg hcache.l1_le
  have h2 := levelHits_bounds (hweight 1) hcache.l2_nonneg hcache.l2_le
  have h3 := levelHits_bounds (hweight 2) hcache.l3_nonneg hcache.l3_le
  exact
    { l1_nonneg := add_nonneg h.l1_nonneg h1.1
      l1_le := add_le_add h.l1_le h1.2
      l2_nonneg := add_nonneg h.l2_nonneg h2.1
      l2_le := add_le_add h.l2_le h2.2
      l3_nonneg := add_nonneg h.l3_nonneg h3.1
      l3_le := add_le_add h.l3_le h3.2 }

/-- The hit ratio of a task at one level. -/
theorem hitRatio_unit {weight utilization factor : ℚ} (hweight : 0 ≤ weight)
    (hweight' : weight ≤ 1) (hutilization : 0 ≤ utilization * factor)
    (hle : utilization * factor ≤ 1) :
    0 ≤ hitRatio weight utilization factor ∧ hitRatio weight utilization factor ≤ 1 := by
  have hbounds := levelHits_bounds hweight hutilization hle
  rw [hitRatio_eq hweight hutilization hle]
  exact ⟨hbounds.1, hbounds.2.trans hweight'⟩

/-- So does the second one, whose hits are quadratic in the weights. -/
theorem CacheHitStats.HitsBounded.afterRecord (h : stats.HitsBounded)
    (hcache : cacheState.Discounts) (hnode : node.Weighted) :
    (stats.afterRecord node cacheState).HitsBounded := by
  have haccess : ∀ i, 0 ≤ node.weight i * node.sensitivity := fun i =>
    mul_nonneg (hnode.weight_nonneg i) hnode.sensitivity_nonneg
  have hratio := fun i => @hitRatio_unit (node.weight i)
  have h1 := hratio 0 (hnode.weight_nonneg 0) (hnode.weight_le_one 0) hcache.l1_nonneg hcache.l1_le
  have h2 := hratio 1 (hnode.weight_nonneg 1) (hnode.weight_le_one 1) hcache.l2_nonneg hcache.l2_le
  have h3 := hratio 2 (hnode.weight_nonneg 2) (hnode.weight_le_one 2) hcache.l3_nonneg hcache.l3_le
  exact
    { l1_nonneg := add_nonneg h.l1_nonneg (mul_nonneg (haccess 0) h1.1)
      l1_le := add_le_add h.l1_le (mul_le_of_le_one_right (haccess 0) h1.2)
      l2_nonneg := add_nonneg h.l2_nonneg (mul_nonneg (haccess 1) h2.1)
      l2_le := add_le_add h.l2_le (mul_le_of_le_one_right (haccess 1) h2.2)
      l3_nonneg := add_nonneg h.l3_nonneg (mul_nonneg (haccess 2) h3.1)
      l3_le := add_le_add h.l3_le (mul_le_of_le_one_right (haccess 2) h3.2) }

theorem CacheHitStats.HitsBounded.total (h : stats.HitsBounded) :
    0 ≤ stats.totalHits ∧ stats.totalHits ≤ stats.totalAccesses := by
  rcases h with ⟨h1, h1', h2, h2', h3, h3'⟩
  unfold totalHits totalAccesses
  constructor
  · linarith
  · linarith

theorem CacheHitStats.hitsBounded_new : CacheHitStats.HitsBounded .new := by
  constructor <;> simp [CacheHitStats.new]

/-- A marked task carries ratios. -/
theorem rated_markedNode (hnode : node.Weighted) (hcache : cacheState.Discounts)
    (hstats : stats.HitsBounded) : (markedNode node stats cacheState).Rated := by
  have hratio := fun i => @hitRatio_unit (node.weight i)
  have h1 := hratio 0 (hnode.weight_nonneg 0) (hnode.weight_le_one 0) hcache.l1_nonneg hcache.l1_le
  have h2 := hratio 1 (hnode.weight_nonneg 1) (hnode.weight_le_one 1) hcache.l2_nonneg hcache.l2_le
  have h3 := hratio 2 (hnode.weight_nonneg 2) (hnode.weight_le_one 2) hcache.l3_nonneg hcache.l3_le
  have hactual := ratio_unit hstats.total.1 hstats.total.2
  exact ⟨hactual.1, hactual.2, h1.1, h1.2, h2.1, h2.2, h3.1, h3.2⟩

/-! ## Reports are ratios -/

theorem calculateOverallCacheHitRatio_unit {values : List CacheHitStats}
    (h : ∀ stats ∈ values, stats.HitsBounded) :
    0 ≤ calculateOverallCacheHitRatio values ∧ calculateOverallCacheHitRatio values ≤ 1 :=
  ratio_sum_unit fun stats hstats => (h stats hstats).total

theorem getDetailedCacheHitReport_unit {values : List CacheHitStats}
    (h : ∀ stats ∈ values, stats.HitsBounded) :
    ∀ entry ∈ getDetailedCacheHitReport values, 0 ≤ entry.2 ∧ entry.2 ≤ 1 := by
  intro entry hentry
  simp only [getDetailedCacheHitReport, List.mem_cons, List.not_mem_nil, or_false] at hentry
  rcases hentry with rfl | rfl | rfl | rfl
  · exact ratio_sum_unit fun stats hstats => ⟨(h stats hstats).l1_nonneg, (h stats hstats).l1_le⟩
  · exact ratio_sum_unit fun stats hstats => ⟨(h stats hstats).l2_nonneg, (h stats hstats).l2_le⟩
  · exact ratio_sum_unit fun stats hstats => ⟨(h stats hstats).l3_nonneg, (h stats hstats).l3_le⟩
  · exact calculateOverallCacheHitRatio_unit h

theorem calculateCacheHitRatioFromTasks_unit {tasks : List Node}
    (hrated : ∀ task ∈ tasks, task.Rated)
    (hweight : ∀ task ∈ tasks, ∀ i, 0 ≤ task.weight i) :
    0 ≤ calculateCacheHitRatioFromTasks tasks ∧ calculateCacheHitRatioFromTasks tasks ≤ 1 := by
  apply ratio_sum_unit
  intro task htask
  have hmem := List.mem_of_mem_filter htask
  have hlevel : 0 ≤ task.levelWeight :=
    add_nonneg (add_nonneg (hweight task hmem 0) (hweight task hmem 1)) (hweight task hmem 2)
  constructor
  · exact mul_nonneg (hrated task hmem).actual_nonneg hlevel
  · exact mul_le_of_le_one_left hlevel (hrated task hmem).actual_le

/-! ## Runs -/

/-- One call, on the state and on the tasks of the calls so far as they left
them. -/
def AllocateCall.mark (s : CacheAwareState × List Node) (call : AllocateCall) :
    Except JavaException (CacheAwareState × List Node) :=
  match s.1.allocate call.readyNodes call.availableProc with
  | .error e => .error e
  | .ok (_, st, readyNodes) => .ok (st, s.2 ++ readyNodes)

/-- A run from {lit}`resetState`. -/
def markedRun (calls : List AllocateCall) : Except JavaException (CacheAwareState × List Node) :=
  calls.foldlM AllocateCall.mark (resetState, [])

/-- All statistics are of hits, and all tasks carry ratios. -/
structure HitsSound (s : CacheAwareState × List Node) : Prop where
  reachable : s.1.Reachable
  utilization : ∀ p, (s.1.cacheState p).UtilizationBounds
  hits : ∀ p, (s.1.hitStats p).HitsBounded
  rated : ∀ task ∈ s.2, task.Rated
  weight_nonneg : ∀ task ∈ s.2, ∀ i, 0 ≤ task.weight i

variable {s : CacheAwareState × List Node} {call : AllocateCall}

theorem hitsSound_resetState : HitsSound (resetState, []) where
  reachable := .resetState
  utilization := fun _ => CacheState.utilizationBounds_new
  hits := fun _ => CacheHitStats.hitsBounded_new
  rated := by simp
  weight_nonneg := by simp

/-- New tasks with ratios do not change the statistics. -/
theorem HitsSound.append (h : HitsSound s) {tasks : List Node}
    (hrated : ∀ task ∈ tasks, task.Rated) (hweight : ∀ task ∈ tasks, ∀ i, 0 ≤ task.weight i) :
    HitsSound (s.1, s.2 ++ tasks) where
  reachable := h.reachable
  utilization := h.utilization
  hits := h.hits
  rated := by
    intro task htask
    rcases List.mem_append.mp htask with htask | htask
    · exact h.rated task htask
    · exact hrated task htask
  weight_nonneg := by
    intro task htask
    rcases List.mem_append.mp htask with htask | htask
    · exact h.weight_nonneg task htask
    · exact hweight task htask

/-- A task that enters the statistics of a processor. -/
theorem HitsSound.assigned (h : HitsSound s) {st' : CacheAwareState} (hreachable : st'.Reachable)
    {p : ProcId} (hnode : node.Weighted) (hassigned : Assigned s.1 st' p node) :
    HitsSound (st', s.2) where
  reachable := hreachable
  utilization := by
    intro q
    rw [hassigned.cacheState]
    split
    · exact (h.utilization q).afterTask hnode.toProper
    · exact h.utilization q
  hits := by
    intro q
    rw [hassigned.hitStats]
    split
    · have hcache := ((h.utilization q).afterTask hnode.toProper).discounts
      exact ((h.hits q).afterUpdate hcache hnode.weight_nonneg).afterRecord hcache hnode
    · exact h.hits q
  rated := h.rated
  weight_nonneg := h.weight_nonneg

/-- A call keeps all of it. -/
theorem HitsSound.mark (h : HitsSound s) (hweighted : ∀ node ∈ call.readyNodes, node.Weighted)
    (hrated : ∀ node ∈ call.readyNodes, node.Rated) :
    ∃ s', call.mark s = .ok s' ∧ HitsSound s' := by
  rcases call with ⟨readyNodes, availableProc⟩
  have hweight : ∀ node ∈ readyNodes, ∀ i, 0 ≤ node.weight i := fun node hnode =>
    (hweighted node hnode).weight_nonneg
  have hidle : s.1.allocate readyNodes availableProc = .ok (-1, s.1, readyNodes) →
      ∃ s', AllocateCall.mark s ⟨readyNodes, availableProc⟩ = .ok s' ∧ HitsSound s' := by
    intro hallocate
    refine ⟨(s.1, s.2 ++ readyNodes), ?_, h.append hrated hweight⟩
    unfold AllocateCall.mark
    rw [hallocate]
  cases readyNodes with
  | nil => exact hidle rfl
  | cons node rest =>
      by_cases havailable : availableProc = []
      · apply hidle
        rw [havailable]
        rfl
      · have hnode := hweighted node List.mem_cons_self
        rcases allocate_marked h.reachable.sameKeys rest havailable hnode.hasWeights with
          ⟨id, st', marked, hallocate, _, hresult⟩
        refine ⟨(st', s.2 ++ marked :: rest), ?_, ?_⟩
        · unfold AllocateCall.mark
          rw [hallocate]
        · have hreachable : st'.Reachable := h.reachable.allocate hallocate
          have hrest : ∀ task ∈ rest, task.Rated := fun task htask =>
            hrated task (List.mem_cons_of_mem node htask)
          -- the state and the first task, with or without a choice
          have hstate : HitsSound (st', s.2) ∧ marked.Rated ∧ ∀ i, 0 ≤ marked.weight i := by
            cases hscan : (scan (s.1.score node) doubleMinValue availableProc).1 with
            | none =>
                rw [hscan] at hresult
                rcases hresult with ⟨_, hvalues, rfl⟩
                refine ⟨⟨hreachable, ?_, ?_, h.rated, h.weight_nonneg⟩,
                  hrated marked List.mem_cons_self, hnode.weight_nonneg⟩
                · intro q
                  dsimp only
                  rw [hvalues.cacheState]
                  exact h.utilization q
                · intro q
                  dsimp only
                  rw [hvalues.hitStats]
                  exact h.hits q
            | some p =>
                rw [hscan] at hresult
                rcases hresult with ⟨_, hassigned, rfl⟩
                have hsound := h.assigned hreachable hnode hassigned
                exact ⟨hsound, rated_markedNode hnode (hsound.utilization p).discounts
                  (hsound.hits p), hnode.weight_nonneg⟩
          apply hstate.1.append
          · intro task htask
            rcases List.mem_cons.mp htask with rfl | htask
            · exact hstate.2.1
            · exact hrest task htask
          · intro task htask
            rcases List.mem_cons.mp htask with rfl | htask
            · exact hstate.2.2
            · exact hweight task (List.mem_cons_of_mem node htask)

/-- So does a run. -/
theorem markedRun_sound (calls : List AllocateCall)
    (hweighted : ∀ call ∈ calls, ∀ node ∈ call.readyNodes, node.Weighted)
    (hrated : ∀ call ∈ calls, ∀ node ∈ call.readyNodes, node.Rated) :
    ∃ s, markedRun calls = .ok s ∧ HitsSound s := by
  apply Run.exists_foldlM
  · exact hitsSound_resetState
  · rintro before call after s rfl hsound
    exact hsound.mark (hweighted call (by simp)) (hrated call (by simp))

/-- Every reported hit ratio is a ratio: in every run of calls on proper tasks with
weights between 0 and 1, the hits of a level are not more than its accesses, and
the ratios of the tasks, of the reports and over any of the tasks are between 0
and 1. -/
theorem hitRatios_bounded (calls : List AllocateCall)
    (hweighted : ∀ call ∈ calls, ∀ node ∈ call.readyNodes, node.Weighted)
    (hrated : ∀ call ∈ calls, ∀ node ∈ call.readyNodes, node.Rated) :
    ∃ st tasks, markedRun calls = .ok (st, tasks) ∧
      (∀ p, (st.hitStats p).HitsBounded) ∧ (∀ task ∈ tasks, task.Rated) ∧
      (∃ keys, IsKeys st keys) ∧
      (∀ keys, IsKeys st keys →
        (0 ≤ calculateOverallCacheHitRatio (cacheHitStatsValues st keys) ∧
          calculateOverallCacheHitRatio (cacheHitStatsValues st keys) ≤ 1) ∧
        ∀ entry ∈ getDetailedCacheHitReport (cacheHitStatsValues st keys),
          0 ≤ entry.2 ∧ entry.2 ≤ 1) ∧
      ∀ l, (∀ task ∈ l, task ∈ tasks) →
        0 ≤ calculateCacheHitRatioFromTasks l ∧ calculateCacheHitRatioFromTasks l ≤ 1 := by
  rcases markedRun_sound calls hweighted hrated with ⟨⟨st, tasks⟩, hrun, hsound⟩
  refine ⟨st, tasks, hrun, hsound.hits, hsound.rated, hsound.reachable.exists_keys, ?_, ?_⟩
  · intro keys _
    have hvalues : ∀ stats ∈ cacheHitStatsValues st keys, stats.HitsBounded := by
      intro stats hstats
      rcases mem_cacheHitStatsValues hstats with ⟨p, rfl⟩
      exact hsound.hits p
    exact ⟨calculateOverallCacheHitRatio_unit hvalues, getDetailedCacheHitReport_unit hvalues⟩
  · intro l hl
    exact calculateCacheHitRatioFromTasks_unit (fun task htask => hsound.rated task (hl task htask))
      fun task htask => hsound.weight_nonneg task (hl task htask)

theorem unitTask_weighted : unitTask.Weighted where
  toProper := unitTask_proper
  weight_le_one := by
    intro i
    rw [unitTask_weight]
    exact zero_le_one

/-- The reports after two calls. -/
theorem hitRatios_bounded_twoCalls :
    ∃ st tasks, markedRun [unitCall [0, 1], unitCall [0, 1]] = .ok (st, tasks) ∧
      0 ≤ calculateCacheHitRatioFromTasks tasks ∧ calculateCacheHitRatioFromTasks tasks ≤ 1 := by
  have htasks : ∀ call ∈ [unitCall [0, 1], unitCall [0, 1]], ∀ node ∈ call.readyNodes,
      node = unitTask := by simp [unitCall]
  rcases hitRatios_bounded [unitCall [0, 1], unitCall [0, 1]]
    (fun call hcall node hnode => by
      rw [htasks call hcall node hnode]
      exact unitTask_weighted)
    (fun call hcall node hnode => by
      rw [htasks call hcall node hnode]
      exact Node.rated_new _ _ _ _ _ _ _) with ⟨st, tasks, hrun, _, _, _, _, hall⟩
  exact ⟨st, tasks, hrun, hall tasks fun task htask => htask⟩

/-! ## Tasks are entered twice -/

/-- One contribution of the task to each number of accesses, at one of the two
scales. -/
def SingleContribution (stats stats' : CacheHitStats) (node : Node) : Prop :=
  ∃ scale, (scale = 1 ∨ scale = node.sensitivity) ∧
    stats'.totalL1Accesses = stats.totalL1Accesses + node.weight 0 * scale ∧
    stats'.totalL2Accesses = stats.totalL2Accesses + node.weight 1 * scale ∧
    stats'.totalL3Accesses = stats.totalL3Accesses + node.weight 2 * scale

/-- After the last one of the calls every task so far has entered the statistics
once. -/
structure EnteredOnce (before : List AllocateCall) (call : AllocateCall)
    (st st' : CacheAwareState) (id : Int) : Prop where
  totals : ∀ p, (st'.hitStats p).totalTasks = st'.count p
  sum : ∀ S : Finset ProcId, (∀ c ∈ before ++ [call], ∀ p ∈ c.availableProc, p ∈ S) →
    ∑ p ∈ S, (st'.hitStats p).totalTasks.toInt = before.length + 1
  single : ∀ (p : ProcId) (node : Node), id = (p : Int) → call.readyNodes.head? = some node →
    SingleContribution (st.hitStats p) (st'.hitStats p) node

/-- A call on a task with weights that has a processor to choose. -/
def AllocateCall.Chooses (call : AllocateCall) : Prop :=
  ∃ node rest, call.readyNodes = node :: rest ∧ node.hasWeights = true ∧ call.availableProc ≠ []

/-- Every task that was given to a processor has been counted twice. -/
def CountedTwice (st : CacheAwareState) : Prop :=
  ∀ p, (st.hitStats p).totalTasks = st.count p + st.count p

/-- A call counts its task twice. -/
theorem CountedTwice.step {st : CacheAwareState} (h : CountedTwice st) (hkeys : SameKeys st)
    (log : Log) (hcall : call.Chooses) :
    ∃ st' id, AllocateCall.step (st, log) call = .ok (st', log ++ [(call, id)]) ∧
      SameKeys st' ∧ CountedTwice st' := by
  rcases hcall with ⟨node, rest, hready, hweights, havailable⟩
  rcases allocate_spec hkeys rest havailable hweights with
    ⟨id, st', readyNodes, hallocate, hkeys', hspec⟩
  refine ⟨st', id, ?_, hkeys', ?_⟩
  · unfold AllocateCall.step
    dsimp only
    rw [hready, hallocate]
  · intro q
    cases hscan : (scan (st.score node) doubleMinValue call.availableProc).1 with
    | none =>
        rw [hscan] at hspec
        rw [hspec.2.hitStats, hspec.2.count]
        exact h q
    | some p =>
        rw [hscan] at hspec
        rw [hspec.2.hitStats, hspec.2.count]
        split
        · show (st.hitStats q).totalTasks + 1 + 1 = _
          rw [h q]
          grind
        · exact h q

/-- So does every call of a run. -/
theorem run_countedTwice (calls : List AllocateCall) (hcalls : ∀ call ∈ calls, call.Chooses) :
    ∃ st log, run calls = .ok (st, log) ∧ SameKeys st ∧ CountedTwice st := by
  have hrun : ∃ s, run calls = .ok s ∧ SameKeys s.1 ∧ CountedTwice s.1 := by
    apply Run.exists_foldlM ⟨sameKeys_resetState, fun _ => rfl⟩
    rintro before call after ⟨st, log⟩ rfl ⟨hkeys, htwice⟩
    rcases htwice.step hkeys log (hcalls call (by simp)) with ⟨st', id, hstep, hkeys', htwice'⟩
    exact ⟨(st', log ++ [(call, id)]), hstep, hkeys', htwice'⟩
  rcases hrun with ⟨⟨st, log⟩, hrun, hkeys, htwice⟩
  exact ⟨st, log, hrun, hkeys, htwice⟩

/-- Twice a number is that number only if it is 0, and then no task is counted. -/
theorem CountedTwice.notOnce {st st' : CacheAwareState} (h : CountedTwice st')
    (before : List AllocateCall) (id : Int) : ¬EnteredOnce before call st st' id := by
  intro honce
  have hzero : ∀ p, (st'.hitStats p).totalTasks = 0 := by
    intro p
    have htotal := honce.totals p
    rw [h p] at htotal
    have hcount : st'.count p = 0 := by grind
    rw [h p, hcount]
    rfl
  have hsum := honce.sum ((before ++ [call]).flatMap AllocateCall.availableProc).toFinset
    (by
      intro c hc p hp
      exact List.mem_toFinset.mpr (List.mem_flatMap.mpr ⟨c, hc, hp⟩))
  rw [Finset.sum_congr rfl fun p _ => by rw [hzero p]] at hsum
  simp at hsum
  omega

/-- No call enters its task once: in no run of calls on tasks with weights, and
after no call of it, does every task so far count once. -/
theorem not_enteredOnce (before : List AllocateCall) (call : AllocateCall)
    (hcalls : ∀ c ∈ before ++ [call], c.Chooses) :
    ∃ st log st' id, run before = .ok (st, log) ∧
      run (before ++ [call]) = .ok (st', log ++ [(call, id)]) ∧
      ¬EnteredOnce before call st st' id := by
  rcases run_countedTwice before (fun c hc => hcalls c (List.mem_append_left _ hc)) with
    ⟨st, log, hrun, hkeys, htwice⟩
  rcases htwice.step hkeys log (hcalls call (by simp)) with ⟨st', id, hstep, _, htwice'⟩
  exact ⟨st, log, st', id, hrun, Run.foldlM_append_singleton hrun hstep,
    htwice'.notOnce before id⟩

theorem not_enteredOnce_unitCall :
    ∃ st log st' id, run [] = .ok (st, log) ∧
      run ([] ++ [unitCall [0]]) = .ok (st', log ++ [(unitCall [0], id)]) ∧
      ¬EnteredOnce [] (unitCall [0]) st st' id := by
  apply not_enteredOnce
  intro c hc
  rw [List.mem_singleton.mp hc]
  exact ⟨unitTask, [], rfl, unitTask_proper.hasWeights, List.cons_ne_nil 0 []⟩

/-- A task of one unit of time and sensitivity one half that uses every level. -/
def halfTask : Node :=
  Node.new 0 .solo 0 0 1 (1 / 2) [1, 1, 1, 1]

theorem halfTask_weight (i : Nat) : 0 ≤ halfTask.weight i ∧ halfTask.weight i ≤ 1 := by
  have hweights : halfTask.weights = some [1, 1, 1, 1] := rfl
  rcases Node.weight_eq_zero_or_mem hweights i with hzero | hmem
  · rw [hzero]
    exact ⟨le_rfl, zero_le_one⟩
  · have hone : halfTask.weight i = 1 := by simpa using hmem
    rw [hone]
    exact ⟨zero_le_one, le_rfl⟩

/-- Given to the only processor it counts as two tasks, and its accesses on both
scales. -/
theorem halfTask_enteredTwice :
    ∃ st log, run [⟨[halfTask], [0]⟩] = .ok (st, log) ∧ st.count 0 = 1 ∧
      (st.hitStats 0).totalTasks = 2 ∧ (st.hitStats 0).totalL1Accesses = 1 + 1 / 2 ∧
      ¬EnteredOnce [] ⟨[halfTask], [0]⟩ resetState st 0 := by
  have hvalues : ((run [⟨[halfTask], [0]⟩]).toOption.any fun r =>
      decide (r.1.count 0 = 1 ∧ (r.1.hitStats 0).totalTasks = 2 ∧
        (r.1.hitStats 0).totalL1Accesses = 1 + 1 / 2)) = true := by
    decide +kernel
  cases hrun : run [⟨[halfTask], [0]⟩] with
  | error e =>
      rw [hrun] at hvalues
      cases hvalues
  | ok r =>
      rw [hrun] at hvalues
      rcases of_decide_eq_true hvalues with ⟨hcount, htotal, haccesses⟩
      refine ⟨r.1, r.2, rfl, hcount, htotal, haccesses, ?_⟩
      intro honce
      have heq := honce.totals 0
      rw [hcount, htotal] at heq
      exact absurd heq (by decide)

end Simu
end YatCasched
