import YatCasched.Lib.FirstBest
import YatCasched.Simu.CacheAware

/-!
# One allocation

The loop of {lit}`allocate` makes entries for processors it has not seen, but
such an entry says what the missing one stands for.  Seen through the values of
the entries, the loop is a scan for the first best score, and only the chosen
processor changes.

Main results:

- Theorem {lit}`foldl_scoreRound`: the loop is a scan.
- Theorem {lit}`allocate_spec`: what a call does.
-/

namespace YatCasched
namespace Simu
namespace CacheAwareState

open FirstBest

variable {st st' : CacheAwareState} {node : Node} {p q : ProcId}

/-! ## Entries -/

/-- Both states have the same values. -/
structure SameValues (st st' : CacheAwareState) : Prop where
  load : ∀ p, st'.load p = st.load p
  cacheState : ∀ p, st'.cacheState p = st.cacheState p
  count : ∀ p, st'.count p = st.count p
  hitStats : ∀ p, st'.hitStats p = st.hitStats p

namespace SameValues

theorem refl (st : CacheAwareState) : SameValues st st where
  load := fun _ => rfl
  cacheState := fun _ => rfl
  count := fun _ => rfl
  hitStats := fun _ => rfl

theorem trans {st'' : CacheAwareState} (h : SameValues st st') (h' : SameValues st' st'') :
    SameValues st st'' where
  load := fun p => (h'.load p).trans (h.load p)
  cacheState := fun p => (h'.cacheState p).trans (h.cacheState p)
  count := fun p => (h'.count p).trans (h.count p)
  hitStats := fun p => (h'.hitStats p).trans (h.hitStats p)

end SameValues

/-- The first three maps have the same keys. -/
def SameKeys (st : CacheAwareState) : Prop :=
  ∀ p, (st.processorLoads p).isSome = (st.cacheStates p).isSome ∧
    (st.taskCount p).isSome = (st.cacheStates p).isSome

theorem sameKeys_resetState : SameKeys resetState := by
  intro p
  exact ⟨rfl, rfl⟩

/-- A value after a write to a map. -/
theorem getD_update {β : Type*} (m : ProcId → Option β) (p q : ProcId) (b d : β) :
    (Function.update m p (some b) q).getD d = if q = p then b else (m q).getD d := by
  by_cases hqp : q = p
  · subst hqp
    simp
  · simp [hqp]

/-- A missing entry stands for what a new one says. -/
theorem sameValues_initProcessor (hkeys : SameKeys st) (p : ProcId) :
    SameValues st (st.initProcessor p) := by
  unfold initProcessor
  split
  · rename_i hnone
    have hcache : st.cacheStates p = none := Option.isNone_iff_eq_none.mp hnone
    have hload : st.processorLoads p = none := by
      apply Option.not_isSome_iff_eq_none.mp
      rw [(hkeys p).1, hcache]
      exact Bool.false_ne_true
    have hcount : st.taskCount p = none := by
      apply Option.not_isSome_iff_eq_none.mp
      rw [(hkeys p).2, hcache]
      exact Bool.false_ne_true
    constructor
    · intro q
      unfold load
      rw [getD_update]
      split
      · rename_i hqp
        rw [hqp, hload]
        rfl
      · rfl
    · intro q
      unfold cacheState
      rw [getD_update]
      split
      · rename_i hqp
        rw [hqp, hcache]
        rfl
      · rfl
    · intro q
      unfold count
      rw [getD_update]
      split
      · rename_i hqp
        rw [hqp, hcount]
        rfl
      · rfl
    · exact fun _ => rfl
  · exact .refl st

/-- New entries are made in all three maps. -/
theorem SameKeys.initProcessor (hkeys : SameKeys st) (p : ProcId) :
    SameKeys (st.initProcessor p) := by
  unfold CacheAwareState.initProcessor
  split
  · intro q
    by_cases hqp : q = p
    · subst hqp
      simp
    · simp [hqp, hkeys q]
  · exact hkeys

/-! ## The loop -/

/-- The score of a processor in a state. -/
def score (st : CacheAwareState) (node : Node) (p : ProcId) : ℚ :=
  (st.calculateCacheAwareScore node p).2

/-- The score depends on the values only. -/
theorem score_eq (hkeys : SameKeys st) (node : Node) (p : ProcId) :
    st.score node p = cacheAwareScore node p (st.cacheState p) (st.load p) := by
  have hvalues := sameValues_initProcessor hkeys p
  unfold score calculateCacheAwareScore
  dsimp only
  rw [hvalues.cacheState, hvalues.load]

theorem SameValues.score (hkeys : SameKeys st) (hkeys' : SameKeys st')
    (h : SameValues st st') (node : Node) (p : ProcId) : st'.score node p = st.score node p := by
  rw [score_eq hkeys, score_eq hkeys', h.cacheState, h.load]

/-- The loop is a scan for the first best score. -/
theorem foldl_scoreRound (hkeys : SameKeys st) (node : Node) (l : List ProcId) :
    ∃ st', l.foldl (scoreRound node) (st, none, doubleMinValue) =
        (st', scan (st.score node) doubleMinValue l) ∧
      SameValues st st' ∧ SameKeys st' := by
  induction l using List.reverseRecOn with
  | nil => exact ⟨st, rfl, .refl st, hkeys⟩
  | append_singleton l p ih =>
      rcases ih with ⟨st₁, hfold, hvalues, hkeys₁⟩
      refine ⟨st₁.initProcessor p, ?_, hvalues.trans (sameValues_initProcessor hkeys₁ p),
        hkeys₁.initProcessor p⟩
      have hscore : (st₁.calculateCacheAwareScore node p).2 = st.score node p :=
        hvalues.score hkeys hkeys₁ node p
      rw [List.foldl_append, hfold, scan_append_singleton]
      unfold FirstBest.step
      rw [List.foldl_cons, List.foldl_nil]
      unfold scoreRound
      dsimp only
      rw [hscore]
      split
      · rfl
      · rfl

/-! ## Updates -/

/-- The values after a task has been given to a processor: only that processor's
change. -/
structure Assigned (st st' : CacheAwareState) (p : ProcId) (node : Node) : Prop where
  load : ∀ q, st'.load q = if q = p then st.load q + node.time else st.load q
  count : ∀ q, st'.count q = if q = p then st.count q + 1 else st.count q
  cacheState : ∀ q, st'.cacheState q =
    if q = p then (st.cacheState q).afterTask node else st.cacheState q
  hitStats : ∀ q, st'.hitStats q =
    if q = p then
      ((st.hitStats q).afterUpdate node ((st.cacheState q).afterTask node)).afterRecord node
        ((st.cacheState q).afterTask node)
    else
      st.hitStats q

/-- Only values matter for what is assigned. -/
theorem Assigned.of_sameValues {st₁ : CacheAwareState} (hvalues : SameValues st st₁)
    (h : Assigned st₁ st' p node) : Assigned st st' p node where
  load := fun q => by rw [h.load, hvalues.load]
  count := fun q => by rw [h.count, hvalues.count]
  cacheState := fun q => by rw [h.cacheState, hvalues.cacheState]
  hitStats := fun q => by rw [h.hitStats, hvalues.hitStats, hvalues.cacheState]

/-- The statistics after a task with weights has been recorded. -/
theorem recordTaskCacheHitRatio_fst (st : CacheAwareState) (p : ProcId)
    (hweights : node.hasWeights = true) :
    (st.recordTaskCacheHitRatio p node).1 =
      { st with
        cacheHitStats := Function.update st.cacheHitStats p
          (some ((st.hitStats p).afterRecord node (st.cacheState p))) } := by
  unfold recordTaskCacheHitRatio
  dsimp only
  rw [hweights, if_neg (by decide), Function.update_idem]
  rfl

/-- The first update, for a task with weights. -/
theorem updateProcessorState_ok (st : CacheAwareState) (p : ProcId)
    (hweights : node.hasWeights = true) :
    st.updateProcessorState p node = .ok
      { processorLoads := Function.update st.processorLoads p (some (st.load p + node.time))
        taskCount := Function.update st.taskCount p (some (st.count p + 1))
        cacheStates := Function.update st.cacheStates p
          (some ((st.cacheState p).afterTask node))
        cacheHitStats := Function.update st.cacheHitStats p
          (some ((st.hitStats p).afterUpdate node ((st.cacheState p).afterTask node))) } := by
  unfold updateProcessorState updateCacheHitStats
  cases hnode : node.weights with
  | none =>
      unfold Node.hasWeights at hweights
      rw [hnode] at hweights
      cases hweights
  | some weights =>
      have hlength : ¬weights.length < 3 := by
        unfold Node.hasWeights at hweights
        rw [hnode] at hweights
        dsimp only at hweights
        rw [decide_eq_true_eq] at hweights
        omega
      dsimp only
      rw [if_neg hlength]
      unfold hitStats cacheState
      dsimp only
      rw [Function.update_self]
      rfl

/-- Both updates of a task with weights. -/
theorem assigned_update (hkeys : SameKeys st) (p : ProcId)
    (hweights : node.hasWeights = true) :
    ∃ st₁, st.updateProcessorState p node = .ok st₁ ∧
      Assigned st (st₁.recordTaskCacheHitRatio p node).1 p node ∧
      SameKeys (st₁.recordTaskCacheHitRatio p node).1 := by
  refine ⟨_, updateProcessorState_ok st p hweights, ?_, ?_⟩
  · rw [recordTaskCacheHitRatio_fst _ p hweights]
    have hvalue : ∀ {β : Type} (m : ProcId → Option β) (d : β) (f : β → β) (q : ProcId),
        (Function.update m p (some (f ((m p).getD d))) q).getD d =
          if q = p then f ((m q).getD d) else (m q).getD d := by
      intro β m d f q
      rw [getD_update]
      split
      · rename_i hqp
        rw [hqp]
      · rfl
    constructor
    · exact hvalue st.processorLoads 0 fun load => load + node.time
    · exact hvalue st.taskCount 0 fun count => count + 1
    · exact hvalue st.cacheStates .new fun cacheState => cacheState.afterTask node
    · intro q
      unfold hitStats cacheState
      dsimp only
      rw [getD_update, Function.update_self, Function.update_self]
      split
      · rename_i hqp
        rw [hqp]
        rfl
      · rename_i hqp
        rw [Function.update_of_ne hqp]
  · rw [recordTaskCacheHitRatio_fst _ p hweights]
    intro q
    by_cases hqp : q = p
    · subst hqp
      simp
    · simp [hqp, hkeys q]

/-- Any update keeps the keys together. -/
theorem SameKeys.updateProcessorState {st₁ : CacheAwareState} (hkeys : SameKeys st) (p : ProcId)
    (hupdate : st.updateProcessorState p node = .ok st₁) : SameKeys st₁ := by
  unfold CacheAwareState.updateProcessorState updateCacheHitStats at hupdate
  split at hupdate
  · cases hupdate
  · split at hupdate
    · cases hupdate
    · rw [← Except.ok.inj hupdate]
      intro q
      by_cases hqp : q = p
      · subst hqp
        simp
      · simp [hqp, hkeys q]

theorem SameKeys.recordTaskCacheHitRatio (hkeys : SameKeys st) (p : ProcId) (node : Node) :
    SameKeys (st.recordTaskCacheHitRatio p node).1 := by
  unfold CacheAwareState.recordTaskCacheHitRatio
  dsimp only
  split
  · exact hkeys
  · exact hkeys

/-! ## A call -/

/-- The task with the hit ratios {lit}`recordTaskCacheHitRatio` gives it. -/
def markedNode (node : Node) (stats : CacheHitStats) (cacheState : CacheState) : Node :=
  let totalAccesses := stats.totalL1Accesses + stats.totalL2Accesses + stats.totalL3Accesses
  let totalHits := stats.totalL1Hits + stats.totalL2Hits + stats.totalL3Hits
  { node with
    actualCacheHitRatio := if totalAccesses > 0 then totalHits / totalAccesses else 0
    actualL1L2L3HitRatio :=
      (hitRatio (node.weight 0) cacheState.l1Utilization 0.8,
        hitRatio (node.weight 1) cacheState.l2Utilization 0.6,
        hitRatio (node.weight 2) cacheState.l3Utilization 0.4) }

/-- A task with weights is marked with what its processor keeps afterwards. -/
theorem recordTaskCacheHitRatio_snd (st : CacheAwareState) (p : ProcId)
    (hweights : node.hasWeights = true) :
    (st.recordTaskCacheHitRatio p node).2 =
      markedNode node ((st.recordTaskCacheHitRatio p node).1.hitStats p)
        ((st.recordTaskCacheHitRatio p node).1.cacheState p) := by
  rw [recordTaskCacheHitRatio_fst st p hweights]
  unfold recordTaskCacheHitRatio
  dsimp only
  rw [hweights, if_neg (by decide)]
  unfold hitStats markedNode
  dsimp only
  rw [Function.update_self]
  rfl

/-- What a call does to the first task: it is marked if a processor was chosen. -/
theorem allocate_marked (hkeys : SameKeys st) (rest : List Node) {availableProc : List ProcId}
    (havailable : availableProc ≠ []) (hweights : node.hasWeights = true) :
    ∃ id st' marked, st.allocate (node :: rest) availableProc =
        .ok (id, st', marked :: rest) ∧
      SameKeys st' ∧
      match (scan (st.score node) doubleMinValue availableProc).1 with
      | none => id = (availableProc.head havailable : Int) ∧ SameValues st st' ∧ marked = node
      | some p => id = (p : Int) ∧ Assigned st st' p node ∧
          marked = markedNode node (st'.hitStats p) (st'.cacheState p) := by
  rcases foldl_scoreRound hkeys node availableProc with ⟨st₁, hfold, hvalues, hkeys₁⟩
  cases availableProc with
  | nil => exact absurd rfl havailable
  | cons first others =>
      unfold allocate
      dsimp only
      rw [hfold]
      cases hbest : (scan (st.score node) doubleMinValue (first :: others)).1 with
      | none =>
          rw [show scan (st.score node) doubleMinValue (first :: others) =
            (none, (scan (st.score node) doubleMinValue (first :: others)).2) from
              Prod.ext hbest rfl]
          exact ⟨_, _, _, rfl, hkeys₁, rfl, hvalues, rfl⟩
      | some p =>
          rw [show scan (st.score node) doubleMinValue (first :: others) =
            (some p, (scan (st.score node) doubleMinValue (first :: others)).2) from
              Prod.ext hbest rfl]
          rcases assigned_update hkeys₁ p hweights with
            ⟨st₂, hupdate, hassigned, hkeys₂⟩
          dsimp only
          rw [hupdate]
          exact ⟨_, _, _, rfl, hkeys₂, rfl, hassigned.of_sameValues hvalues,
            recordTaskCacheHitRatio_snd st₂ p hweights⟩

/-- What a call on a task with weights does: it scans the scores, and gives the
task to the first best processor, if there is one. -/
theorem allocate_spec (hkeys : SameKeys st) (rest : List Node) {availableProc : List ProcId}
    (havailable : availableProc ≠ []) (hweights : node.hasWeights = true) :
    ∃ id st' readyNodes, st.allocate (node :: rest) availableProc = .ok (id, st', readyNodes) ∧
      SameKeys st' ∧
      match (scan (st.score node) doubleMinValue availableProc).1 with
      | none => id = (availableProc.head havailable : Int) ∧ SameValues st st'
      | some p => id = (p : Int) ∧ Assigned st st' p node := by
  rcases allocate_marked hkeys rest havailable hweights with
    ⟨id, st', marked, hok, hkeys', hspec⟩
  refine ⟨id, st', marked :: rest, hok, hkeys', ?_⟩
  cases hbest : (scan (st.score node) doubleMinValue availableProc).1 with
  | none =>
      rw [hbest] at hspec
      exact ⟨hspec.1, hspec.2.1⟩
  | some p =>
      rw [hbest] at hspec
      exact ⟨hspec.1, hspec.2.1⟩

/-- Every call that succeeds keeps the keys together. -/
theorem SameKeys.allocate (hkeys : SameKeys st) {readyNodes readyNodes' : List Node}
    {availableProc : List ProcId} {id : Int}
    (hallocate : st.allocate readyNodes availableProc = .ok (id, st', readyNodes')) :
    SameKeys st' := by
  cases readyNodes with
  | nil =>
      rw [← (Prod.mk.inj (Prod.mk.inj (Except.ok.inj hallocate)).2).1]
      exact hkeys
  | cons node rest =>
      cases availableProc with
      | nil =>
          rw [← (Prod.mk.inj (Prod.mk.inj (Except.ok.inj hallocate)).2).1]
          exact hkeys
      | cons first others =>
          rcases foldl_scoreRound hkeys node (first :: others) with ⟨st₁, hfold, _, hkeys₁⟩
          unfold CacheAwareState.allocate at hallocate
          dsimp only at hallocate
          rw [hfold] at hallocate
          split at hallocate
          · rename_i st₂ _ heq
            rw [← (Prod.mk.inj (Prod.mk.inj (Except.ok.inj hallocate)).2).1,
              ← (Prod.mk.inj heq).1]
            exact hkeys₁
          · rename_i st₂ p _ heq
            rw [(Prod.mk.inj heq).1] at hkeys₁
            split at hallocate
            · cases hallocate
            · rename_i st₃ hupdate
              rw [← (Prod.mk.inj (Prod.mk.inj (Except.ok.inj hallocate)).2).1]
              exact (hkeys₁.updateProcessorState p hupdate).recordTaskCacheHitRatio p node

/-- The states that calls reach from {lit}`resetState`. -/
inductive Reachable : CacheAwareState → Prop
  | resetState : Reachable resetState
  | allocate {st st' : CacheAwareState} {readyNodes readyNodes' : List Node}
      {availableProc : List ProcId} {id : Int} (hst : Reachable st)
      (hallocate : st.allocate readyNodes availableProc = .ok (id, st', readyNodes')) :
      Reachable st'

theorem Reachable.sameKeys (h : Reachable st) : SameKeys st := by
  induction h with
  | resetState => exact sameKeys_resetState
  | allocate _ hallocate ih => exact ih.allocate hallocate

end CacheAwareState
end Simu
end YatCasched
