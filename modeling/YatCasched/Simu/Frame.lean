import YatCasched.Simu.TimeReduction

/-!
# What a call leaves alone

A call of {lit}`CacheAware_v2.allocate` changes the values of the processor it returns
only.  It makes entries for the other processors it looks at, though.  A new entry says
what the missing one stands for, but {lit}`calculateExecutionTime` returns the expected
time where there is no entry, and so can tell the difference.

Main results:

- Theorem {lit}`allocate_cacheStates`: the entries a call leaves.
- Theorem {lit}`allocate_frame`: what a call leaves alone.
-/

namespace YatCasched
namespace Simu
namespace CacheAwareState

open FirstBest

variable {st st' : CacheAwareState} {node : Node} {p q : ProcId}

/-! ## Entries -/

/-- Looking at a processor makes an entry for it. -/
theorem initProcessor_cacheStates (st : CacheAwareState) (p q : ProcId) :
    (st.initProcessor p).cacheStates q =
      if q = p then some (st.cacheState q) else st.cacheStates q := by
  unfold initProcessor cacheState
  by_cases hqp : q = p
  · subst hqp
    rw [if_pos rfl]
    cases hentry : st.cacheStates q with
    | none => simp
    | some cacheState => simp [hentry]
  · rw [if_neg hqp]
    split
    · exact Function.update_of_ne hqp _ _
    · rfl

/-- Looking at the processors of a list makes an entry for every one of them. -/
theorem foldl_initProcessor_cacheStates (st : CacheAwareState) (l : List ProcId) (q : ProcId) :
    (l.foldl initProcessor st).cacheStates q =
      if q ∈ l then some (st.cacheState q) else st.cacheStates q := by
  induction l generalizing st with
  | nil => simp
  | cons p l ih =>
      have hvalue : (st.initProcessor p).cacheState q = st.cacheState q := by
        unfold cacheState
        rw [initProcessor_cacheStates]
        split
        · rfl
        · rfl
      rw [List.foldl_cons, ih, hvalue, initProcessor_cacheStates]
      by_cases hql : q ∈ l
      · rw [if_pos hql, if_pos (List.mem_cons_of_mem p hql)]
      · rw [if_neg hql]
        simp [hql]

/-- That is all the loop does to the state. -/
theorem foldl_scoreRound_fst (st : CacheAwareState) (node : Node) (l : List ProcId)
    (best : Option ProcId × ℚ) :
    (l.foldl (scoreRound node) (st, best)).1 = l.foldl initProcessor st := by
  induction l generalizing st best with
  | nil => rfl
  | cons p l ih =>
      have hround : ∃ best', scoreRound node (st, best) p = (st.initProcessor p, best') := by
        unfold scoreRound
        dsimp only
        split
        · exact ⟨_, rfl⟩
        · exact ⟨_, rfl⟩
      rcases hround with ⟨best', hround⟩
      rw [List.foldl_cons, hround, ih, List.foldl_cons]

/-- An update changes the entry of its processor only. -/
theorem updateProcessorState_cacheStates {st₁ : CacheAwareState}
    (h : st.updateProcessorState p node = .ok st₁) (hqp : q ≠ p) :
    st₁.cacheStates q = st.cacheStates q := by
  unfold updateProcessorState updateCacheHitStats at h
  split at h
  · cases h
  · split at h
    · cases h
    · rw [← Except.ok.inj h]
      exact Function.update_of_ne hqp _ _

/-- That processor has an entry afterwards. -/
theorem updateProcessorState_entry {st₁ : CacheAwareState}
    (h : st.updateProcessorState p node = .ok st₁) : (st₁.cacheStates p).isSome = true := by
  unfold updateProcessorState updateCacheHitStats at h
  split at h
  · cases h
  · split at h
    · cases h
    · rw [← Except.ok.inj h]
      dsimp only
      rw [Function.update_self]
      rfl

/-- Recording a hit ratio changes no entry. -/
theorem recordTaskCacheHitRatio_cacheStates (st : CacheAwareState) (p : ProcId) (node : Node) :
    (st.recordTaskCacheHitRatio p node).1.cacheStates = st.cacheStates := by
  unfold recordTaskCacheHitRatio
  dsimp only
  split
  · rfl
  · rfl

/-- The entries a call leaves: one for every processor it looked at, and the old ones. -/
theorem allocate_cacheStates {rest readyNodes' : List Node} {availableProc : List ProcId}
    {id : Int} (h : st.allocate (node :: rest) availableProc = .ok (id, st', readyNodes'))
    (hq : (q : Int) ≠ id) :
    st'.cacheStates q =
      if q ∈ availableProc then some (st.cacheState q) else st.cacheStates q := by
  cases availableProc with
  | nil =>
      rw [← (Prod.mk.inj (Prod.mk.inj (Except.ok.inj h)).2).1]
      simp
  | cons first others =>
      have hentries := foldl_initProcessor_cacheStates st (first :: others) q
      rw [← foldl_scoreRound_fst st node (first :: others) (none, doubleMinValue)] at hentries
      unfold allocate at h
      dsimp only at h
      split at h
      · rename_i st₁ _ hfold
        rw [hfold] at hentries
        rw [← (Prod.mk.inj (Prod.mk.inj (Except.ok.inj h)).2).1]
        exact hentries
      · rename_i st₁ p _ hfold
        rw [hfold] at hentries
        split at h
        · cases h
        · rename_i st₂ hupdate
          have hanswer := Prod.mk.inj (Except.ok.inj h)
          have hqp : q ≠ p := by
            intro hqp
            exact hq (by rw [hqp]; exact hanswer.1)
          rw [← (Prod.mk.inj hanswer.2).1, recordTaskCacheHitRatio_cacheStates,
            updateProcessorState_cacheStates hupdate hqp]
          exact hentries

/-- Every processor the call looked at has an entry afterwards. -/
theorem allocate_entry {rest readyNodes' : List Node} {availableProc : List ProcId} {id : Int}
    (h : st.allocate (node :: rest) availableProc = .ok (id, st', readyNodes'))
    (hq : q ∈ availableProc) : (st'.cacheStates q).isSome = true := by
  by_cases hid : (q : Int) = id
  · cases availableProc with
    | nil => cases hq
    | cons first others =>
        have hentries := foldl_initProcessor_cacheStates st (first :: others) q
        rw [← foldl_scoreRound_fst st node (first :: others) (none, doubleMinValue),
          if_pos hq] at hentries
        unfold allocate at h
        dsimp only at h
        split at h
        · rename_i st₁ _ hfold
          rw [hfold] at hentries
          rw [← (Prod.mk.inj (Prod.mk.inj (Except.ok.inj h)).2).1, hentries]
          rfl
        · rename_i st₁ p _ hfold
          split at h
          · cases h
          · rename_i st₂ hupdate
            have hanswer := Prod.mk.inj (Except.ok.inj h)
            have hqp : q = p := by
              rw [← hanswer.1] at hid
              exact_mod_cast hid
            rw [← (Prod.mk.inj hanswer.2).1, recordTaskCacheHitRatio_cacheStates, hqp]
            exact updateProcessorState_entry hupdate
  · rw [allocate_cacheStates h hid, if_pos hq]
    rfl

/-! ## Values -/

/-- Nothing that calls read of a processor differs, execution times apart. -/
structure SameAt (st st' : CacheAwareState) (q : ProcId) : Prop where
  score : ∀ task, st'.score task q = st.score task q
  load : st'.load q = st.load q
  count : st'.count q = st.count q
  cacheState : st'.cacheState q = st.cacheState q
  hitStats : st'.hitStats q = st.hitStats q

/-- Scores are the same when the values are. -/
theorem sameAt_of_values (hkeys : SameKeys st) (hkeys' : SameKeys st')
    (hload : st'.load q = st.load q) (hcount : st'.count q = st.count q)
    (hcache : st'.cacheState q = st.cacheState q) (hstats : st'.hitStats q = st.hitStats q) :
    SameAt st st' q where
  score task := by rw [score_eq hkeys, score_eq hkeys', hload, hcache]
  load := hload
  count := hcount
  cacheState := hcache
  hitStats := hstats

theorem SameValues.sameAt (hkeys : SameKeys st) (hkeys' : SameKeys st')
    (hvalues : SameValues st st') (q : ProcId) : SameAt st st' q :=
  sameAt_of_values hkeys hkeys' (hvalues.load q) (hvalues.count q) (hvalues.cacheState q)
    (hvalues.hitStats q)

theorem Assigned.sameAt (hkeys : SameKeys st) (hkeys' : SameKeys st')
    (hassigned : Assigned st st' p node) (hqp : q ≠ p) : SameAt st st' q := by
  apply sameAt_of_values hkeys hkeys'
  · rw [hassigned.load, if_neg hqp]
  · rw [hassigned.count, if_neg hqp]
  · rw [hassigned.cacheState, if_neg hqp]
  · rw [hassigned.hitStats, if_neg hqp]

/-- A call changes nothing of the processors it does not return. -/
theorem allocate_sameAt (hkeys : SameKeys st) (hweights : node.hasWeights = true)
    {rest readyNodes' : List Node} {availableProc : List ProcId} {id : Int}
    (h : st.allocate (node :: rest) availableProc = .ok (id, st', readyNodes'))
    (hq : (q : Int) ≠ id) : SameAt st st' q := by
  have hkeys' := hkeys.allocate h
  by_cases havailable : availableProc = []
  · subst havailable
    rw [← (Prod.mk.inj (Prod.mk.inj (Except.ok.inj h)).2).1]
    exact (SameValues.refl st).sameAt hkeys hkeys q
  · rcases allocate_spec hkeys rest havailable hweights with
      ⟨id₁, st₁, readyNodes₁, hok, _, hspec⟩
    rw [hok] at h
    have hanswer := Prod.mk.inj (Except.ok.inj h)
    rw [hanswer.1, (Prod.mk.inj hanswer.2).1] at hspec
    cases hbest : (scan (st.score node) doubleMinValue availableProc).1 with
    | none =>
        rw [hbest] at hspec
        exact hspec.2.sameAt hkeys hkeys' q
    | some p =>
        rw [hbest] at hspec
        apply hspec.2.sameAt hkeys hkeys'
        intro hqp
        exact hq (by rw [hqp, hspec.1])

/-! ## Execution times -/

/-- The execution time depends on the entry only. -/
theorem calculateExecutionTime_congr (h : st'.cacheStates q = st.cacheStates q) (task : Node) :
    st'.calculateExecutionTime task q = st.calculateExecutionTime task q := by
  unfold calculateExecutionTime
  rw [h]

/-- A new entry shortens some tasks. -/
theorem calculateExecutionTime_initProcessor_ne (hst : st.cacheStates q = none) :
    (st.initProcessor q).calculateExecutionTime (timedTask 0.5) q ≠
      st.calculateExecutionTime (timedTask 0.5) q := by
  have hentry : (st.initProcessor q).cacheStates q = some .new := by
    rw [initProcessor_cacheStates, if_pos rfl]
    unfold cacheState
    rw [hst]
    rfl
  have hsavings : totalSavings (timedTask 0.5) .new = 0.24 := by
    unfold totalSavings sensitivityFactor hitRatio
    norm_num [timedTask, halfTask, Node.weight, Node.new, CacheState.new]
  have hshorter : (adjustedTime 20 0.24).toInt = 15 := by
    rw [adjustedTime_toInt (by decide) (by norm_num) (by norm_num),
      show (20 : Int64).toInt = 20 from rfl]
    norm_num [Int.floor_eq_iff]
  intro heq
  rw [calculateExecutionTime_of_none hst, calculateExecutionTime_eq hentry rfl, hsavings] at heq
  rw [show (timedTask 0.5).expectedET = 20 from rfl] at heq
  rw [heq] at hshorter
  exact absurd hshorter (by decide)

/-- Where a call leaves an entry for every processor it looked at, execution times stay
the same exactly if it made no new one. -/
theorem calculateExecutionTime_eq_iff {l : List ProcId}
    (hentries : st'.cacheStates q = if q ∈ l then some (st.cacheState q) else st.cacheStates q) :
    (∀ task, st'.calculateExecutionTime task q = st.calculateExecutionTime task q) ↔
      q ∉ l ∨ (st.cacheStates q).isSome := by
  constructor
  · intro htimes
    by_cases hlooked : q ∈ l
    · right
      by_contra hnone
      have hst := Option.not_isSome_iff_eq_none.mp hnone
      apply calculateExecutionTime_initProcessor_ne hst
      rw [← htimes]
      apply calculateExecutionTime_congr
      rw [initProcessor_cacheStates, if_pos rfl, hentries, if_pos hlooked]
    · exact Or.inl hlooked
  · rintro (hlooked | hsome) task
    · apply calculateExecutionTime_congr
      rw [hentries, if_neg hlooked]
    · apply calculateExecutionTime_congr
      rcases Option.isSome_iff_exists.mp hsome with ⟨entry, hentry⟩
      rw [hentries]
      unfold cacheState
      rw [hentry]
      exact ite_self _

/-! ## A call -/

/-- A call leaves the scores, the load, the counts and the statistics of every other
processor alone, whether or not it was looked at.  Execution times there stay the same
unless the call makes the first entry; they are then those of a new cache state. -/
theorem allocate_frame (hst : st.Reachable) {readyNodes readyNodes' : List Node}
    {availableProc : List ProcId} {id : Int} (hproper : ∀ node ∈ readyNodes, node.Proper)
    (h : st.allocate readyNodes availableProc = .ok (id, st', readyNodes'))
    (hq : (q : Int) ≠ id) :
    SameAt st st' q ∧
      ((∀ task, st'.calculateExecutionTime task q = st.calculateExecutionTime task q) ↔
        (readyNodes = [] ∨ q ∉ availableProc ∨ (st.cacheStates q).isSome)) ∧
      (readyNodes ≠ [] → q ∈ availableProc → ∀ task, st'.calculateExecutionTime task q =
        (st.initProcessor q).calculateExecutionTime task q) := by
  have hkeys := hst.sameKeys
  cases readyNodes with
  | nil =>
      have hsame : st = st' := (Prod.mk.inj (Prod.mk.inj (Except.ok.inj h)).2).1
      subst hsame
      exact ⟨(SameValues.refl st).sameAt hkeys hkeys q,
        ⟨fun _ => Or.inl rfl, fun _ _ => rfl⟩, fun hne => absurd rfl hne⟩
  | cons node rest =>
      have hweights := (hproper node List.mem_cons_self).hasWeights
      have hentries := allocate_cacheStates h hq
      refine ⟨allocate_sameAt hkeys hweights h hq, ?_, ?_⟩
      · rw [calculateExecutionTime_eq_iff hentries]
        simp
      · intro _ hlooked task
        apply calculateExecutionTime_congr
        rw [initProcessor_cacheStates, if_pos rfl, hentries, if_pos hlooked]

/-- A first task among two processors goes to the first of them. -/
theorem allocate_unitTask : ∃ st' readyNodes',
    resetState.allocate [unitTask] [0, 1] = .ok (0, st', readyNodes') := by
  have hid : ((resetState.allocate [unitTask] [0, 1]).toOption.any fun r =>
      decide (r.1 = 0)) = true := by
    decide +kernel
  cases h : resetState.allocate [unitTask] [0, 1] with
  | error e =>
      rw [h] at hid
      cases hid
  | ok r =>
      rw [h] at hid
      exact ⟨r.2.1, r.2.2, congrArg Except.ok (Prod.ext (of_decide_eq_true hid) rfl)⟩

/-- The second of two new processors gets a new entry, and nothing else. -/
theorem allocate_frame_unitTask : ∃ st' readyNodes',
    resetState.allocate [unitTask] [0, 1] = .ok (0, st', readyNodes') ∧
      SameAt resetState st' 1 ∧ ∀ task, st'.calculateExecutionTime task 1 =
        (resetState.initProcessor 1).calculateExecutionTime task 1 := by
  rcases allocate_unitTask with ⟨st', readyNodes', h⟩
  have hproper : ∀ node ∈ [unitTask], node.Proper := by
    intro node hnode
    rw [List.mem_singleton.mp hnode]
    exact unitTask_proper
  have hq : ((1 : ProcId) : Int) ≠ 0 := by decide
  have hframe := allocate_frame Reachable.resetState hproper h hq
  exact ⟨st', readyNodes', h, hframe.1, hframe.2.2 (List.cons_ne_nil _ _) (by decide)⟩

/-- A task of twenty units takes all of its time on the second processor before that call,
and less after it. -/
theorem allocate_changesTime : resetState.Reachable ∧ (∀ node ∈ [unitTask], node.Proper) ∧
    ∃ st' readyNodes', resetState.allocate [unitTask] [0, 1] = .ok (0, st', readyNodes') ∧
      resetState.calculateExecutionTime (timedTask 0.5) 1 = 20 ∧
      st'.calculateExecutionTime (timedTask 0.5) 1 ≠ 20 := by
  rcases allocate_unitTask with ⟨st', readyNodes', h⟩
  have hbefore : resetState.calculateExecutionTime (timedTask 0.5) 1 = 20 :=
    calculateExecutionTime_of_none rfl _
  refine ⟨Reachable.resetState, ?_, st', readyNodes', h, hbefore, ?_⟩
  · intro node hnode
    rw [List.mem_singleton.mp hnode]
    exact unitTask_proper
  · have hentries : st'.cacheStates 1 = (resetState.initProcessor 1).cacheStates 1 := by
      rw [allocate_cacheStates h (by decide : ((1 : ProcId) : Int) ≠ 0), if_pos (by decide),
        initProcessor_cacheStates, if_pos rfl]
    rw [calculateExecutionTime_congr hentries, ← hbefore]
    exact calculateExecutionTime_initProcessor_ne rfl

end CacheAwareState
end Simu
end YatCasched
