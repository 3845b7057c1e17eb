import YatCasched.Lib.Throwing
import YatCasched.Simu.Frame
import YatCasched.Simu.Score

/-!
# Calls that throw

{lit}`updateCacheHitStats` reads three weights without a check, after the load, the count
and the cache state of the chosen processor have been changed.  Here the methods of
{lit}`CacheAware_v2` keep what they wrote before they throw, in the order of the code.
How scores are computed and compared is left open, so that a {lit}`double` may also be
infinite or {lit}`NaN`.

Main results:

- Theorem {lit}`allocate_of_not_readable`: what a call leaves when it throws.
- Theorem {lit}`allocate_rationals`: with rational scores it is the allocator of the other
  modules.
- Theorem {lit}`allocate_returns_iff_settled`: when a call returns, and when it leaves the
  maps as they are if it throws.
-/

namespace YatCasched
namespace Simu

open CacheAwareState (SameKeys SameValues sameKeys_resetState sameValues_initProcessor
  initProcessor_cacheStates foldl_initProcessor_cacheStates)
open Throwing

/-- There are three weights to read. -/
def Node.Readable (node : Node) : Prop :=
  ∃ weights, node.weights = some weights ∧ 3 ≤ weights.length

/-- Of the tasks that fail the other checks, those with three weights have enough here. -/
theorem Node.readable_iff {node : Node} (hweights : ¬node.hasWeights = true) :
    node.Readable ↔ ∃ weights, node.weights = some weights ∧ weights.length = 3 := by
  constructor
  · rintro ⟨weights, hsome, hlength⟩
    refine ⟨weights, hsome, ?_⟩
    unfold Node.hasWeights at hweights
    rw [hsome] at hweights
    simp at hweights
    omega
  · rintro ⟨weights, hsome, hlength⟩
    exact ⟨weights, hsome, hlength.ge⟩

/-- A static method: what it wrote before it throws stays written. -/
abbrev Method := EStateM JavaException CacheAwareState

/-- How scores are computed and compared. -/
structure Doubles (δ : Type) where
  score : Node → ProcId → CacheState → ℚ → δ
  minValue : δ
  gt : δ → δ → Bool

/-- The scores of the other modules. -/
def Doubles.rationals : Doubles ℚ where
  score := cacheAwareScore
  minValue := doubleMinValue
  gt x y := decide (x > y)

@[simp]
theorem Doubles.rationals_minValue : Doubles.rationals.minValue = doubleMinValue :=
  rfl

namespace Method

/-! ## The methods -/

/-- A value that {lit}`get` finds in a map; a missing one is null. -/
def found {β : Type} (entry : Option β) : Method β :=
  match entry with
  | none => throw .nullPointer
  | some value => pure value

/-- {lit}`task.weights[i]`. -/
def weightAt (task : Node) (i : Nat) : Method ℚ :=
  match task.weights with
  | none => throw .nullPointer
  | some weights =>
      match weights[i]? with
      | none => throw .arrayIndexOutOfBounds
      | some weight => pure weight

/-- A write to the statistics of a processor, which makes a missing entry. -/
def updateStats (p : ProcId) (f : CacheHitStats → CacheHitStats) : Method Unit :=
  modify fun st =>
    { st with cacheHitStats := Function.update st.cacheHitStats p (some (f (st.hitStats p))) }

/-- {lit}`updateCacheHitStats`. -/
def updateCacheHitStats (task : Node) (p : ProcId) : Method Unit := do
  updateStats p id
  let weight0 ← weightAt task 0
  updateStats p fun stats => { stats with totalL1Accesses := stats.totalL1Accesses + weight0 }
  let weight1 ← weightAt task 1
  updateStats p fun stats => { stats with totalL2Accesses := stats.totalL2Accesses + weight1 }
  let weight2 ← weightAt task 2
  updateStats p fun stats => { stats with totalL3Accesses := stats.totalL3Accesses + weight2 }
  let cacheState ← found ((← get).cacheStates p)
  updateStats p fun stats =>
    { stats with
      totalL1Hits := stats.totalL1Hits + weight0 * (1 - cacheState.l1Utilization * 0.8)
      totalL2Hits := stats.totalL2Hits + weight1 * (1 - cacheState.l2Utilization * 0.6)
      totalL3Hits := stats.totalL3Hits + weight2 * (1 - cacheState.l3Utilization * 0.4)
      totalTasks := stats.totalTasks + 1 }

/-- {lit}`updateProcessorState`. -/
def updateProcessorState (p : ProcId) (task : Node) : Method Unit := do
  let currentLoad ← found ((← get).processorLoads p)
  let currentTaskCount ← found ((← get).taskCount p)
  modify fun st =>
    { st with
      processorLoads := Function.update st.processorLoads p (some (currentLoad + task.time))
      taskCount := Function.update st.taskCount p (some (currentTaskCount + 1)) }
  let cacheState ← found ((← get).cacheStates p)
  modify fun st =>
    { st with
      cacheStates := Function.update st.cacheStates p (some (cacheState.afterTask task)) }
  updateCacheHitStats task p

/-- {lit}`recordTaskCacheHitRatio`, which checks the weights and does not throw. -/
def recordTaskCacheHitRatio (p : ProcId) (task : Node) : Method Node :=
  modifyGet fun st =>
    ((st.recordTaskCacheHitRatio p task).2, (st.recordTaskCacheHitRatio p task).1)

variable {δ : Type}

/-- {lit}`calculateCacheAwareScore`. -/
def calculateCacheAwareScore (doubles : Doubles δ) (node : Node) (p : ProcId) : Method δ := do
  modify fun st => st.initProcessor p
  let cacheState ← found ((← get).cacheStates p)
  let currentLoad ← found ((← get).processorLoads p)
  return doubles.score node p cacheState currentLoad

/-- One round of the loop of {lit}`allocate`, on the best processor and the best score. -/
def scoreRound (doubles : Doubles δ) (node : Node) (best : Option ProcId × δ) (p : ProcId) :
    Method (Option ProcId × δ) := do
  let score ← calculateCacheAwareScore doubles node p
  if doubles.gt score best.2 then
    return (some p, score)
  else
    return best

/-- {lit}`allocate`: the returned id and the ready nodes, of which the first is marked. -/
def allocate (doubles : Doubles δ) (readyNodes : List Node) (availableProc : List ProcId) :
    Method (Int × List Node) :=
  match readyNodes, availableProc with
  | [], _ => pure (-1, readyNodes)
  | _, [] => pure (-1, readyNodes)
  | node :: rest, first :: _ => do
      let best ← availableProc.foldlM (scoreRound doubles node) (none, doubles.minValue)
      match best.1 with
      | none => return (first, readyNodes)
      | some p =>
          updateProcessorState p node
          let marked ← recordTaskCacheHitRatio p node
          return (p, marked :: rest)

/-- The states that calls leave, whether they return or throw. -/
inductive Reached (doubles : Doubles δ) : CacheAwareState → Prop
  | resetState : Reached doubles .resetState
  | returned {st st' : CacheAwareState} {readyNodes : List Node} {availableProc : List ProcId}
      {answer : Int × List Node} (hst : Reached doubles st)
      (hrun : (allocate doubles readyNodes availableProc).run st = .ok answer st') :
      Reached doubles st'
  | threw {st st' : CacheAwareState} {readyNodes : List Node} {availableProc : List ProcId}
      {e : JavaException} (hst : Reached doubles st)
      (hrun : (allocate doubles readyNodes availableProc).run st = .error e st') :
      Reached doubles st'

/-! ## Updates -/

variable {st st' : CacheAwareState} {node task : Node} {p : ProcId}

/-- Three weights are read without an exception. -/
theorem updateCacheHitStats_ok {cacheState : CacheState} (hreadable : task.Readable)
    (hentry : st.cacheStates p = some cacheState) :
    (updateCacheHitStats task p).run st = .ok () { st with
      cacheHitStats := Function.update st.cacheHitStats p
        (some ((st.hitStats p).afterUpdate task cacheState)) } := by
  rcases hreadable with ⟨weights, hweights, hlength⟩
  rcases weights with _ | ⟨weight0, _ | ⟨weight1, _ | ⟨weight2, others⟩⟩⟩
  · simp at hlength
  · simp at hlength
  · simp at hlength
  · unfold updateCacheHitStats updateStats weightAt
    simp [hweights, hentry, found, CacheAwareState.hitStats, CacheHitStats.afterUpdate,
      Node.weight]

/-- Fewer are not, and then only the statistics have changed. -/
theorem updateCacheHitStats_error (st : CacheAwareState) (p : ProcId)
    (hreadable : ¬task.Readable) :
    ∃ e stats, st.updateCacheHitStats task p = .error e ∧
      (updateCacheHitStats task p).run st = .error e { st with cacheHitStats := stats } := by
  unfold CacheAwareState.updateCacheHitStats updateCacheHitStats weightAt
  cases hweights : task.weights with
  | none => exact ⟨.nullPointer, _, rfl, rfl⟩
  | some weights =>
      rcases weights with _ | ⟨weight0, _ | ⟨weight1, _ | ⟨weight2, others⟩⟩⟩
      · exact ⟨.arrayIndexOutOfBounds, _, rfl, rfl⟩
      · exact ⟨.arrayIndexOutOfBounds, _, rfl, rfl⟩
      · exact ⟨.arrayIndexOutOfBounds, _, rfl, rfl⟩
      · exact absurd ⟨_, hweights, by simp⟩ hreadable

/-- The state in which {lit}`updateProcessorState` calls {lit}`updateCacheHitStats`. -/
def charged (st : CacheAwareState) (p : ProcId) (task : Node) : CacheAwareState :=
  { st with
    processorLoads := Function.update st.processorLoads p (some (st.load p + task.time))
    taskCount := Function.update st.taskCount p (some (st.count p + 1))
    cacheStates := Function.update st.cacheStates p
      (some ((st.cacheState p).afterTask task)) }

theorem updateProcessorState_run (hkeys : SameKeys st) (hentry : (st.cacheStates p).isSome) :
    (updateProcessorState p task).run st =
      (updateCacheHitStats task p).run (charged st p task) := by
  rcases Option.isSome_iff_exists.mp hentry with ⟨cacheState, hcache⟩
  rcases Option.isSome_iff_exists.mp ((hkeys p).1.trans hentry) with ⟨load, hload⟩
  rcases Option.isSome_iff_exists.mp ((hkeys p).2.trans hentry) with ⟨count, hcount⟩
  unfold updateProcessorState charged CacheAwareState.load CacheAwareState.count
    CacheAwareState.cacheState
  simp [hcache, hload, hcount, found]

theorem sameKeys_charged (hkeys : SameKeys st) : SameKeys (charged st p task) := by
  intro q
  by_cases hqp : q = p
  · subst hqp
    simp [charged]
  · simp [charged, hqp, hkeys q]

/-- With three weights to read the update is that of the other modules. -/
theorem updateProcessorState_ok (hkeys : SameKeys st) (hentry : (st.cacheStates p).isSome)
    (hreadable : task.Readable) :
    ∃ st', st.updateProcessorState p task = .ok st' ∧
      (updateProcessorState p task).run st = .ok () st' := by
  have hcache : (charged st p task).cacheStates p = some ((st.cacheState p).afterTask task) :=
    Function.update_self _ _ _
  refine ⟨_, ?_, (updateProcessorState_run hkeys hentry).trans
    (updateCacheHitStats_ok hreadable hcache)⟩
  have hvalue : (charged st p task).cacheState p = (st.cacheState p).afterTask task := by
    unfold CacheAwareState.cacheState
    rw [hcache]
    rfl
  rcases hreadable with ⟨weights, hweights, hlength⟩
  calc
    st.updateProcessorState p task = (charged st p task).updateCacheHitStats task p := rfl
    _ = _ := by
      unfold CacheAwareState.updateCacheHitStats
      rw [hweights]
      dsimp only
      rw [if_neg (not_lt.mpr hlength), hvalue]

/-- Without them it throws, and has counted the task by then. -/
theorem updateProcessorState_error (hkeys : SameKeys st) (hentry : (st.cacheStates p).isSome)
    (hreadable : ¬task.Readable) :
    ∃ e st', st.updateProcessorState p task = .error e ∧
      (updateProcessorState p task).run st = .error e st' ∧
      st'.count p = st.count p + 1 ∧ SameKeys st' := by
  rcases updateCacheHitStats_error (charged st p task) p hreadable with
    ⟨e, stats, herror, hrun⟩
  refine ⟨e, _, herror, (updateProcessorState_run hkeys hentry).trans hrun, ?_,
    sameKeys_charged hkeys⟩
  simp [CacheAwareState.count, charged]

/-! ## The loop -/

variable {δ : Type} {doubles : Doubles δ}

/-- One round of the loop as far as the best processor is concerned. -/
def better (doubles : Doubles δ) (score : ProcId → δ) (best : Option ProcId × δ) (p : ProcId) :
    Option ProcId × δ :=
  if doubles.gt (score p) best.2 then (some p, score p) else best

/-- The score of a processor in a state. -/
def score (doubles : Doubles δ) (st : CacheAwareState) (node : Node) (p : ProcId) : δ :=
  doubles.score node p (st.cacheState p) (st.load p)

theorem calculateCacheAwareScore_run (hkeys : SameKeys st) (node : Node) (p : ProcId) :
    (calculateCacheAwareScore doubles node p).run st =
      .ok (score doubles st node p) (st.initProcessor p) := by
  have hvalues := sameValues_initProcessor hkeys p
  have hentry : (st.initProcessor p).cacheStates p = some (st.cacheState p) := by
    rw [initProcessor_cacheStates, if_pos rfl]
  have hsome : ((st.initProcessor p).processorLoads p).isSome := by
    rw [(hkeys.initProcessor p p).1, hentry]
    rfl
  rcases Option.isSome_iff_exists.mp hsome with ⟨load, hload⟩
  have hvalue : load = st.load p := by
    rw [← hvalues.load p]
    unfold CacheAwareState.load
    rw [hload]
    rfl
  unfold calculateCacheAwareScore score
  simp [hentry, hload, hvalue, found]

/-- The loop returns, and looks at every processor. -/
theorem foldlM_scoreRound (hkeys : SameKeys st) (node : Node) (l : List ProcId)
    (best : Option ProcId × δ) :
    (l.foldlM (scoreRound doubles node) best).run st =
      .ok (l.foldl (better doubles (score doubles st node)) best)
        (l.foldl CacheAwareState.initProcessor st) := by
  have hround : ∀ st₁ best p, SameKeys st₁ ∧ SameValues st st₁ →
      (scoreRound doubles node best p).run st₁ =
        .ok (better doubles (score doubles st node) best p) (st₁.initProcessor p) := by
    rintro st₁ best p ⟨hkeys₁, hvalues⟩
    have hscore : score doubles st₁ node p = score doubles st node p := by
      unfold score
      rw [hvalues.cacheState, hvalues.load]
    unfold scoreRound better
    rw [run_bind_of_ok (calculateCacheAwareScore_run hkeys₁ node p), hscore]
    split
    · rfl
    · rfl
  apply run_foldlM _ hround l best ⟨hkeys, .refl st⟩
  rintro st₁ p ⟨hkeys₁, hvalues⟩
  exact ⟨hkeys₁.initProcessor p, hvalues.trans (sameValues_initProcessor hkeys₁ p)⟩

variable {l : List ProcId} {best : Option ProcId × δ} {scoreOf : ProcId → δ}

/-- The best processor is one of the list. -/
theorem foldl_better_mem (h : (l.foldl (better doubles scoreOf) best).1 = some p) :
    p ∈ l ∨ best.1 = some p := by
  induction l generalizing best with
  | nil => exact Or.inr h
  | cons q l ih =>
      rw [List.foldl_cons] at h
      rcases ih h with hmem | hbest
      · exact Or.inl (List.mem_cons_of_mem q hmem)
      · unfold better at hbest
        split at hbest
        · rw [Option.some.inj hbest]
          exact Or.inl List.mem_cons_self
        · exact Or.inr hbest

/-- There is none exactly if no score beats the first best score. -/
theorem foldl_better_eq_none :
    (l.foldl (better doubles scoreOf) best).1 = none ↔
      best.1 = none ∧ ∀ p ∈ l, doubles.gt (scoreOf p) best.2 = false := by
  induction l generalizing best with
  | nil => simp
  | cons q l ih =>
      rw [List.foldl_cons, ih]
      unfold better
      by_cases hgt : doubles.gt (scoreOf q) best.2 = true
      · simp [hgt]
      · simp [hgt]

/-! ## A call -/

/-- The processor a call chooses, if it chooses one. -/
def chosen (doubles : Doubles δ) (st : CacheAwareState) (node : Node) (l : List ProcId) :
    Option ProcId :=
  (l.foldl (better doubles (score doubles st node)) (none, doubles.minValue)).1

theorem chosen_mem (h : chosen doubles st node l = some p) : p ∈ l := by
  rcases foldl_better_mem h with hmem | hnone
  · exact hmem
  · cases hnone

/-- The state after the loop. -/
def looked (st : CacheAwareState) (l : List ProcId) : CacheAwareState :=
  l.foldl CacheAwareState.initProcessor st

theorem looked_spec (hkeys : SameKeys st) (l : List ProcId) :
    SameKeys (looked st l) ∧ SameValues st (looked st l) := by
  unfold looked
  induction l using List.reverseRecOn with
  | nil => exact ⟨hkeys, .refl st⟩
  | append_singleton l p ih =>
      rw [List.foldl_append]
      exact ⟨ih.1.initProcessor p, ih.2.trans (sameValues_initProcessor ih.1 p)⟩

theorem looked_isSome (st : CacheAwareState) (hp : p ∈ l) :
    ((looked st l).cacheStates p).isSome := by
  unfold looked
  rw [foldl_initProcessor_cacheStates, if_pos hp]
  rfl

variable {rest : List Node} {availableProc : List ProcId}

/-- If no score beats {lit}`Double.MIN_VALUE`, the first processor is returned and the
task is given to none. -/
theorem allocate_of_none (hkeys : SameKeys st) (havailable : availableProc ≠ [])
    (h : chosen doubles st node availableProc = none) :
    (allocate doubles (node :: rest) availableProc).run st =
      .ok (availableProc.head havailable, node :: rest) (looked st availableProc) := by
  cases availableProc with
  | nil => exact absurd rfl havailable
  | cons first others =>
      unfold allocate
      dsimp only
      rw [run_bind_of_ok (foldlM_scoreRound hkeys node (first :: others) _)]
      unfold chosen at h
      rw [h]
      rfl

/-- If a processor is chosen, both updates follow the loop. -/
theorem allocate_of_some (hkeys : SameKeys st)
    (h : chosen doubles st node availableProc = some p) :
    (allocate doubles (node :: rest) availableProc).run st =
      (updateProcessorState p node >>= fun _ => do
        let marked ← recordTaskCacheHitRatio p node
        return ((p : Int), marked :: rest)).run (looked st availableProc) := by
  cases availableProc with
  | nil => cases h
  | cons first others =>
      unfold allocate
      dsimp only
      rw [run_bind_of_ok (foldlM_scoreRound hkeys node (first :: others) _)]
      unfold chosen at h
      rw [h]
      rfl

/-- With three weights to read the call returns the chosen processor. -/
theorem allocate_of_readable (hkeys : SameKeys st)
    (h : chosen doubles st node availableProc = some p) (hreadable : node.Readable) :
    ∃ st₁, (looked st availableProc).updateProcessorState p node = .ok st₁ ∧
      (allocate doubles (node :: rest) availableProc).run st =
        .ok (p, (st₁.recordTaskCacheHitRatio p node).2 :: rest)
          (st₁.recordTaskCacheHitRatio p node).1 := by
  have hentry := looked_isSome st (chosen_mem h)
  rcases updateProcessorState_ok (looked_spec hkeys availableProc).1 hentry hreadable with
    ⟨st₁, hok, hrun⟩
  refine ⟨st₁, hok, ?_⟩
  rw [allocate_of_some hkeys h, run_bind_of_ok hrun]
  rfl

/-- Without them it throws, and the chosen processor has one task more. -/
theorem allocate_of_not_readable (hkeys : SameKeys st)
    (h : chosen doubles st node availableProc = some p) (hreadable : ¬node.Readable) :
    ∃ e st', (looked st availableProc).updateProcessorState p node = .error e ∧
      (allocate doubles (node :: rest) availableProc).run st = .error e st' ∧
      st'.count p = st.count p + 1 ∧ SameKeys st' := by
  have hlooked := looked_spec hkeys availableProc
  rcases updateProcessorState_error hlooked.1 (looked_isSome st (chosen_mem h)) hreadable with
    ⟨e, st', herror, hrun, hcount, hkeys'⟩
  refine ⟨e, st', herror, ?_, ?_, hkeys'⟩
  · rw [allocate_of_some hkeys h, run_bind_of_error hrun]
  · rw [hcount, hlooked.2.count]

/-- A call on two empty lists, or one, does nothing. -/
theorem allocate_of_empty {readyNodes : List Node} (h : readyNodes = [] ∨ availableProc = []) :
    (allocate doubles readyNodes availableProc).run st = .ok (-1, readyNodes) st := by
  rcases h with rfl | rfl
  · rfl
  · cases readyNodes with
    | nil => rfl
    | cons node rest => rfl

/-- What a call leaves, it leaves with the keys together. -/
theorem allocate_sameKeys (doubles : Doubles δ) (hkeys : SameKeys st) (readyNodes : List Node)
    (availableProc : List ProcId) :
    match (allocate doubles readyNodes availableProc).run st with
    | .ok _ st' => SameKeys st'
    | .error _ st' => SameKeys st' := by
  by_cases hempty : readyNodes = [] ∨ availableProc = []
  · rw [allocate_of_empty hempty]
    exact hkeys
  · rw [not_or] at hempty
    have hlooked := looked_spec hkeys availableProc
    cases readyNodes with
    | nil => exact absurd rfl hempty.1
    | cons node rest =>
        cases hchosen : chosen doubles st node availableProc with
        | none =>
            rw [allocate_of_none hkeys hempty.2 hchosen]
            exact hlooked.1
        | some p =>
            by_cases hreadable : node.Readable
            · rcases allocate_of_readable hkeys hchosen hreadable with ⟨st₁, hok, hrun⟩
              rw [hrun]
              exact (hlooked.1.updateProcessorState p hok).recordTaskCacheHitRatio p node
            · rcases allocate_of_not_readable hkeys hchosen hreadable with
                ⟨e, st', _, hrun, _, hkeys'⟩
              rw [hrun]
              exact hkeys'

theorem Reached.sameKeys (h : Reached doubles st) : SameKeys st := by
  induction h with
  | resetState => exact sameKeys_resetState
  | @returned st st' readyNodes availableProc _ _ hrun ih =>
      have hleft := allocate_sameKeys doubles ih readyNodes availableProc
      rw [hrun] at hleft
      exact hleft
  | @threw st st' readyNodes availableProc _ _ hrun ih =>
      have hleft := allocate_sameKeys doubles ih readyNodes availableProc
      rw [hrun] at hleft
      exact hleft

/-! ## Rational scores -/

/-- With rational scores the loop is the scan of the other modules. -/
theorem scan_rationals (hkeys : SameKeys st) (node : Node) (l : List ProcId) :
    FirstBest.scan (st.score node) doubleMinValue l =
      l.foldl (better .rationals (score .rationals st node))
        (none, Doubles.rationals.minValue) := by
  have hstep : FirstBest.step (st.score node) = better .rationals (score .rationals st node) := by
    funext best p
    unfold FirstBest.step better score Doubles.rationals
    rw [CacheAwareState.score_eq hkeys]
    simp
  unfold FirstBest.scan
  rw [hstep, Doubles.rationals_minValue]

/-- So the loop leaves the same state and finds the same processor. -/
theorem foldl_scoreRound_rationals (hkeys : SameKeys st) {best : Option ProcId}
    (h : chosen .rationals st node l = best) :
    ∃ bestScore, l.foldl (CacheAwareState.scoreRound node) (st, none, doubleMinValue) =
      (looked st l, best, bestScore) := by
  rcases CacheAwareState.foldl_scoreRound hkeys node l with ⟨st₁, hfold, _, _⟩
  have hlooked := CacheAwareState.foldl_scoreRound_fst st node l (none, doubleMinValue)
  rw [hfold] at hlooked ⊢
  refine ⟨(FirstBest.scan (st.score node) doubleMinValue l).2, Prod.ext hlooked ?_⟩
  refine Prod.ext ?_ rfl
  rw [← h, scan_rationals hkeys]
  unfold chosen
  rfl

/-- With rational scores a call returns what it returns in the other modules, and leaves
the same state; it throws the same exceptions. -/
theorem allocate_rationals (hkeys : SameKeys st) (readyNodes : List Node)
    (availableProc : List ProcId) :
    match st.allocate readyNodes availableProc with
    | .ok (id, st', readyNodes') =>
        (allocate .rationals readyNodes availableProc).run st = .ok (id, readyNodes') st'
    | .error e =>
        ∃ st', (allocate .rationals readyNodes availableProc).run st = .error e st' := by
  cases readyNodes with
  | nil => rfl
  | cons node rest =>
      cases availableProc with
      | nil => rfl
      | cons first others =>
          unfold CacheAwareState.allocate
          dsimp only
          cases hchosen : chosen .rationals st node (first :: others) with
          | none =>
              rcases foldl_scoreRound_rationals hkeys hchosen with ⟨_, hloop⟩
              rw [hloop]
              exact allocate_of_none hkeys (List.cons_ne_nil first others) hchosen
          | some p =>
              rcases foldl_scoreRound_rationals hkeys hchosen with ⟨_, hloop⟩
              rw [hloop]
              dsimp only
              by_cases hreadable : node.Readable
              · rcases allocate_of_readable hkeys hchosen hreadable with ⟨st₁, hok, hrun⟩
                rw [hok]
                exact hrun
              · rcases allocate_of_not_readable hkeys hchosen hreadable with
                  ⟨e, st', herror, hrun, _, _⟩
                rw [herror]
                exact ⟨st', hrun⟩

/-! ## Atomicity -/

/-- There are three weights to read, or no available processor has a score that beats
{lit}`Double.MIN_VALUE`. -/
def Settled (doubles : Doubles δ) (st : CacheAwareState) (node : Node)
    (availableProc : List ProcId) : Prop :=
  node.Readable ∨
    ∀ p ∈ availableProc, doubles.gt (score doubles st node p) doubles.minValue = false

theorem settled_iff_chosen : Settled doubles st node availableProc ↔
    node.Readable ∨ chosen doubles st node availableProc = none := by
  unfold Settled chosen
  rw [foldl_better_eq_none]
  simp

/-- The id of an answer is one of the available processors. -/
def Answers (availableProc : List ProcId) (answer : Int × List Node) : Prop :=
  ∃ p ∈ availableProc, answer.1 = (p : Int)

/-- A settled call returns one of the available processors. -/
theorem returns_of_settled (hkeys : SameKeys st) (havailable : availableProc ≠ [])
    (h : Settled doubles st node availableProc) :
    Returns (allocate doubles (node :: rest) availableProc) st (Answers availableProc) := by
  cases hchosen : chosen doubles st node availableProc with
  | none =>
      exact ⟨_, _, allocate_of_none hkeys havailable hchosen, _,
        List.head_mem havailable, rfl⟩
  | some p =>
      rcases settled_iff_chosen.mp h with hreadable | hnone
      · rcases allocate_of_readable hkeys hchosen hreadable with ⟨st₁, _, hrun⟩
        exact ⟨_, _, hrun, p, chosen_mem hchosen, rfl⟩
      · rw [hchosen] at hnone
        cases hnone

/-- Any other throws, after a change. -/
theorem throws_of_not_settled (hkeys : SameKeys st) (rest : List Node)
    (h : ¬Settled doubles st node availableProc) :
    ∃ e st', (allocate doubles (node :: rest) availableProc).run st = .error e st' ∧
      st' ≠ st := by
  rw [settled_iff_chosen, not_or] at h
  rcases Option.ne_none_iff_exists'.mp h.2 with ⟨p, hchosen⟩
  rcases allocate_of_not_readable hkeys hchosen h.1 with ⟨e, st', _, hrun, hcount, _⟩
  refine ⟨e, st', hrun, ?_⟩
  rintro rfl
  simp at hcount

/-- The score of an ordinary task without weights beats {lit}`Double.MIN_VALUE`. -/
theorem doubleMinValue_lt_score_of_not_hasWeights (hweights : ¬node.hasWeights = true)
    (htime : 0 < node.time) (hnonneg : 0 ≤ node.sensitivity) (hle : node.sensitivity ≤ 1)
    (hload : 0 ≤ st.load p) (hmean : (st.cacheState p).MeanBounds) :
    doubleMinValue < score .rationals st node p := by
  have hbenefit : calculateCacheBenefitScore node (st.cacheState p) = 0.5 := by
    unfold calculateCacheBenefitScore
    simp [hweights]
  have hquality : 0 ≤ calculateCacheQualityScore (st.cacheState p) := by
    unfold calculateCacheQualityScore
    exact le_max_left _ _
  have hload := calculateLoadBalanceScore_pos hload htime
  have haffinity := calculateCacheAffinityScore_nonneg hnonneg hle p hmean
  have hinterference := calculateCacheInterferenceScore_le hnonneg hle hmean
  unfold score Doubles.rationals cacheAwareScore
  dsimp only
  rw [hbenefit]
  linarith [doubleMinValue_lt]

/-- So a call on such a task is settled only if it has three weights. -/
theorem settled_rationals_iff (hweights : ¬node.hasWeights = true) (htime : 0 < node.time)
    (hnonneg : 0 ≤ node.sensitivity) (hle : node.sensitivity ≤ 1)
    (hp : p ∈ availableProc) (hload : 0 ≤ st.load p) (hmean : (st.cacheState p).MeanBounds) :
    Settled .rationals st node availableProc ↔
      ∃ weights, node.weights = some weights ∧ weights.length = 3 := by
  rw [← Node.readable_iff hweights]
  constructor
  · rintro (hreadable | hscores)
    · exact hreadable
    · have hgt := doubleMinValue_lt_score_of_not_hasWeights hweights htime hnonneg hle hload hmean
      have hbeats : decide (score .rationals st node p > doubleMinValue) = false := hscores p hp
      exact absurd hgt (of_decide_eq_false hbeats)
  · exact Or.inl

/-- In every state that calls leave, throwing calls included: a call on a task and some
available processors returns one of these exactly if it is settled, and a call leaves the
maps as they are whenever it throws exactly if it is settled for its first task. -/
theorem allocate_returns_iff_settled (hst : Reached doubles st) :
    (∀ (node : Node) (rest : List Node) (availableProc : List ProcId), availableProc ≠ [] →
      (Returns (allocate doubles (node :: rest) availableProc) st (Answers availableProc) ↔
        Settled doubles st node availableProc)) ∧
      ∀ (readyNodes : List Node) (availableProc : List ProcId),
        Atomic (allocate doubles readyNodes availableProc) st ↔
          ∀ node ∈ readyNodes.head?, Settled doubles st node availableProc := by
  have hkeys := hst.sameKeys
  constructor
  · intro node rest availableProc havailable
    refine ⟨?_, returns_of_settled hkeys havailable⟩
    intro hreturns
    by_contra hsettled
    rcases throws_of_not_settled hkeys rest hsettled with ⟨e, st', hrun, _⟩
    exact not_returns_of_error hrun hreturns
  · intro readyNodes availableProc
    constructor
    · intro hatomic node hnode
      rcases List.head?_eq_some_iff.mp hnode with ⟨rest, rfl⟩
      by_contra hsettled
      rcases throws_of_not_settled hkeys rest hsettled with ⟨e, st', hrun, hne⟩
      exact not_atomic_of_error hrun hne hatomic
    · intro hsettled
      by_cases hempty : readyNodes = [] ∨ availableProc = []
      · have hreturns : Returns (allocate doubles readyNodes availableProc) st fun _ => True :=
          ⟨_, _, allocate_of_empty hempty, trivial⟩
        exact hreturns.atomic
      · rw [not_or] at hempty
        cases readyNodes with
        | nil => exact absurd rfl hempty.1
        | cons node rest =>
            exact (returns_of_settled hkeys hempty.2 (hsettled node rfl)).atomic

/-- A task of one unit of time with the given weights. -/
def weighedTask (weights : Option (List ℚ)) : Node :=
  { unitTask with weights := weights }

/-- With three weights, one less than what the other methods ask for, the first call
returns the only processor. -/
theorem allocate_returns_threeWeights :
    Returns (allocate .rationals [weighedTask (some [1, 1, 1])] [0])
      .resetState (Answers [0]) := by
  have hst : Reached .rationals .resetState := .resetState
  apply ((allocate_returns_iff_settled hst).1 (weighedTask (some [1, 1, 1])) [] [0]
    (List.cons_ne_nil _ _)).mpr
  exact Or.inl ⟨[1, 1, 1], rfl, le_rfl⟩

/-- Without weights it throws, and the processor has got the task all the same. -/
theorem allocate_throws_noWeights : Reached .rationals .resetState ∧
    (weighedTask none).weights = none ∧
    (∃ st', (allocate .rationals [weighedTask none] [0]).run .resetState =
      .error .nullPointer st' ∧ st'.count 0 = 1 ∧ st'.load 0 = 1) ∧
    ¬Returns (allocate .rationals [weighedTask none] [0]) .resetState (Answers [0]) ∧
    ¬Atomic (allocate .rationals [weighedTask none] [0]) .resetState := by
  have hvalues : (match (allocate .rationals [weighedTask none] [0]).run .resetState with
      | .ok _ _ => false
      | .error e st' => decide (e = .nullPointer ∧ st'.count 0 = 1 ∧ st'.load 0 = 1)) = true := by
    decide +kernel
  cases hrun : (allocate .rationals [weighedTask none] [0]).run .resetState with
  | ok answer st' =>
      rw [hrun] at hvalues
      cases hvalues
  | error e st' =>
      rw [hrun] at hvalues
      rcases of_decide_eq_true hvalues with ⟨rfl, hcount, hload⟩
      have hne : st' ≠ .resetState := by
        rintro rfl
        exact absurd hcount (by decide)
      exact ⟨.resetState, rfl, ⟨st', rfl, hcount, hload⟩, not_returns_of_error hrun,
        not_atomic_of_error hrun hne⟩

end Method
end Simu
end YatCasched
