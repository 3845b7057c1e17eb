import YatCasched.Simu.Frame
import YatCasched.Simu.HitStats
import YatCasched.Simu.Schedule

/-!
# Two overall hit ratios

A task enters the statistics of its processor with hits and accesses of its own.
The overall ratio is that of all own hits and accesses; the ratio computed from the
tasks is a mean of what each processor had reached with each of its tasks.  Both
are means of the tasks' own ratios, and differ in the weights.

Main results:

- Theorem {lit}`Accounted.round`: what a round enters.
- Theorem {lit}`Accounted.overall_eq`: the overall ratio, from the tasks.
- Theorem {lit}`hitRatios_agree`: how close the two ratios are, and when they agree.
-/

namespace YatCasched
namespace Simu

open CacheAwareState FirstBest Ratio

/-! ## What a task enters -/

/-- The accesses a task enters. -/
def Node.ownAccesses (task : Node) : ℚ :=
  task.levelWeight + task.levelWeight * task.sensitivity

/-- The hits a task enters, by the ratios it carries afterwards. -/
def Node.ownHits (task : Node) : ℚ :=
  let l1 := task.actualL1L2L3HitRatio.1
  let l2 := task.actualL1L2L3HitRatio.2.1
  let l3 := task.actualL1L2L3HitRatio.2.2
  (l1 + task.weight 0 * task.sensitivity * l1) + (l2 + task.weight 1 * task.sensitivity * l2) +
    (l3 + task.weight 2 * task.sensitivity * l3)

/-- The hit ratio of what a task enters. -/
def Node.ownHitRatio (task : Node) : ℚ :=
  ratio task.ownHits task.ownAccesses

/-- A task with weights between 0 and 1 that uses some cache level. -/
structure Node.UsesCache (node : Node) : Prop extends node.Weighted where
  used : node.weight 0 ≠ 0 ∨ node.weight 1 ≠ 0 ∨ node.weight 2 ≠ 0

variable {st st' : CacheAwareState} {node marked task : Node} {p q : ProcId}
  {done tasks : List Node}

theorem Node.UsesCache.levelWeight_pos (h : node.UsesCache) : 0 < node.levelWeight := by
  have h0 := h.weight_nonneg 0
  have h1 := h.weight_nonneg 1
  have h2 := h.weight_nonneg 2
  unfold levelWeight
  rcases h.used with hused | hused | hused
  · have hpos := lt_of_le_of_ne h0 hused.symm
    linarith
  · have hpos := lt_of_le_of_ne h1 hused.symm
    linarith
  · have hpos := lt_of_le_of_ne h2 hused.symm
    linarith

/-- The accesses of a task are those of its weights, scaled. -/
theorem Node.ownAccesses_eq (task : Node) :
    task.ownAccesses = (1 + task.sensitivity) * task.levelWeight := by
  unfold ownAccesses
  ring

/-- The statistics of the chosen processor grow by what the task enters. -/
theorem CacheAwareState.Assigned.accesses (h : Assigned st st' p node) :
    (st'.hitStats p).totalAccesses = (st.hitStats p).totalAccesses + node.ownAccesses := by
  rw [h.hitStats, if_pos rfl]
  unfold CacheHitStats.totalAccesses CacheHitStats.afterRecord CacheHitStats.afterUpdate
    Node.ownAccesses Node.levelWeight
  dsimp only
  ring

theorem CacheAwareState.Assigned.hits (h : Assigned st st' p node)
    (hweight : ∀ i, 0 ≤ node.weight i)
    (hcache : (st'.cacheState p).Discounts) :
    (st'.hitStats p).totalHits = (st.hitStats p).totalHits +
      (markedNode node (st'.hitStats p) (st'.cacheState p)).ownHits := by
  have hown : (markedNode node (st'.hitStats p) (st'.cacheState p)).ownHits =
      (hitRatio (node.weight 0) (st'.cacheState p).l1Utilization 0.8 +
        node.weight 0 * node.sensitivity *
          hitRatio (node.weight 0) (st'.cacheState p).l1Utilization 0.8) +
      (hitRatio (node.weight 1) (st'.cacheState p).l2Utilization 0.6 +
        node.weight 1 * node.sensitivity *
          hitRatio (node.weight 1) (st'.cacheState p).l2Utilization 0.6) +
      (hitRatio (node.weight 2) (st'.cacheState p).l3Utilization 0.4 +
        node.weight 2 * node.sensitivity *
          hitRatio (node.weight 2) (st'.cacheState p).l3Utilization 0.4) := rfl
  rw [hown, h.hitStats, if_pos rfl]
  have hcacheState : (st.cacheState p).afterTask node = st'.cacheState p := by
    rw [h.cacheState, if_pos rfl]
  rw [hcacheState]
  unfold CacheHitStats.totalHits CacheHitStats.afterRecord CacheHitStats.afterUpdate
  dsimp only
  rw [hitRatio_eq (hweight 0) hcache.l1_nonneg hcache.l1_le,
    hitRatio_eq (hweight 1) hcache.l2_nonneg hcache.l2_le,
    hitRatio_eq (hweight 2) hcache.l3_nonneg hcache.l3_le]
  ring

/-! ## Sums over processors -/

/-- What is summed over the processors is summed over the tasks. -/
theorem sum_tasksOn (f : Node → ℚ) (S : Finset ProcId)
    (hplaced : ∀ task ∈ done, ∃ p ∈ S, task.partition.toInt = (p : Int)) :
    ∑ p ∈ S, ((tasksOn done p).map f).sum = (done.map f).sum := by
  induction done using List.reverseRecOn with
  | nil => simp [tasksOn]
  | append_singleton done task ih =>
      rcases hplaced task (by simp) with ⟨p, hp, hon⟩
      have hrest := ih fun t ht => hplaced t (List.mem_append_left _ ht)
      have hterm : ∀ q ∈ S, ((tasksOn (done ++ [task]) q).map f).sum =
          ((tasksOn done q).map f).sum + if p = q then f task else 0 := by
        intro q _
        by_cases hpq : p = q
        · rw [if_pos hpq, tasksOn_append_singleton_self (by rw [hon, hpq])]
          simp
        · rw [if_neg hpq, tasksOn_append_singleton_of_ne (by rw [hon]; exact_mod_cast hpq)]
          simp
      rw [Finset.sum_congr rfl hterm, Finset.sum_add_distrib, hrest, Finset.sum_ite_eq,
        if_pos hp]
      simp

/-- What is summed over the values of the map is summed over the processors. -/
theorem sum_cacheHitStatsValues {keys : List ProcId} (hkeys : IsKeys st keys)
    {f : CacheHitStats → ℚ} (hzero : f .new = 0) {S : Finset ProcId}
    (hS : ∀ p, p ∈ keys → p ∈ S) :
    ((cacheHitStatsValues st keys).map f).sum = ∑ p ∈ S, f (st.hitStats p) := by
  have hvalues : ∀ l : List ProcId, (∀ p ∈ l, (st.cacheHitStats p).isSome = true) →
      l.filterMap st.cacheHitStats = l.map st.hitStats := by
    intro l hl
    induction l with
    | nil => rfl
    | cons p l ih =>
        have hp := hl p List.mem_cons_self
        rcases Option.isSome_iff_exists.mp hp with ⟨stats, hstats⟩
        rw [List.filterMap_cons_some hstats, List.map_cons,
          ih fun q hq => hl q (List.mem_cons_of_mem p hq)]
        unfold hitStats
        rw [hstats]
        rfl
  unfold cacheHitStatsValues
  rw [hvalues keys fun p hp => (hkeys.mem_iff p).mp hp, List.map_map, ← List.sum_toFinset _
    hkeys.nodup]
  apply Finset.sum_subset
  · intro p hp
    exact hS p (List.mem_toFinset.mp hp)
  · intro p _ hp
    have hnone : st.cacheHitStats p = none := by
      rw [← Option.not_isSome_iff_eq_none, ← hkeys.mem_iff, ← List.mem_toFinset]
      exact hp
    show f (st.hitStats p) = 0
    unfold hitStats
    rw [hnone]
    exact hzero

/-! ## Accounts -/

/-- The own hits and accesses of tasks are those of the ratio. -/
def hitRatioOf (tasks : List Node) : ℚ :=
  ratio (tasks.map Node.ownHits).sum (tasks.map Node.ownAccesses).sum

/-- The statistics are the sums of what the tasks so far have entered, and every task
carries the ratio its processor had reached with it. -/
structure Accounted (P : Nat) (st : CacheAwareState) (done : List Node) : Prop where
  reachable : st.Reachable
  ledger : ∃ log, Ledger st log ∧ log.length = done.length
  accesses : ∀ p, (st.hitStats p).totalAccesses = ((tasksOn done p).map Node.ownAccesses).sum
  hits : ∀ p, (st.hitStats p).totalHits = ((tasksOn done p).map Node.ownHits).sum
  placed : ∀ task ∈ done, ∃ p : ProcId, p < P ∧ task.partition.toInt = (p : Int)
  used : ∀ task ∈ done, 0 ≤ task.sensitivity ∧ 0 < task.levelWeight ∧
    task.hasLevelWeights = true
  running : ∀ before task after (p : ProcId), done = before ++ task :: after →
    task.partition.toInt = (p : Int) →
    task.actualCacheHitRatio = hitRatioOf (tasksOn (before ++ [task]) p)

theorem accounted_resetState (P : Nat) : Accounted P resetState [] where
  reachable := .resetState
  ledger := ⟨[], ledger_resetState, rfl⟩
  accesses := by
    intro p
    simp [tasksOn, hitStats, CacheAwareState.resetState, CacheHitStats.new,
      CacheHitStats.totalAccesses]
  hits := by
    intro p
    simp [tasksOn, hitStats, CacheAwareState.resetState, CacheHitStats.new,
      CacheHitStats.totalHits]
  placed := by simp
  used := by simp
  running := by simp

/-- Four weights are three weights. -/
theorem Node.hasLevelWeights_of_hasWeights (h : node.hasWeights = true) :
    node.hasLevelWeights = true := by
  unfold hasWeights at h
  unfold hasLevelWeights
  cases hweights : node.weights with
  | none =>
      rw [hweights] at h
      cases h
  | some weights =>
      rw [hweights] at h
      simp at h ⊢
      omega

/-- One round of {lit}`simulateCacheAwareAllocation`. -/
def cacheAwareRound (P : Nat) :
    CacheAwareState × (ProcId → Int64) × List Node → Node →
      Except JavaException (CacheAwareState × (ProcId → Int64) × List Node) :=
  simulateRound (cacheAwareAllocateTask (generateProcessorList P)) (generateProcessorList P).length

/-- The task a round leaves. -/
def accountedTask (busy : ProcId → Int64) (st : CacheAwareState) (node : Node) (p : ProcId) :
    Node :=
  let marked := markedNode node (st.hitStats p) (st.cacheState p)
  scheduledTask busy { marked with expectedET := st.calculateExecutionTime marked p } p

/-- The processor a round chooses, and what it leaves. -/
theorem cacheAwareRound_spec {P : Nat} (hP : 1 ≤ P) (hst : st.Reachable) {log : Log}
    (hledger : Ledger st log) (hlog : log.length + 1 < 2 ^ 31) (hnode : node.Proper)
    (busy : ProcId → Int64) (done : List Node) :
    ∃ p st', p < P ∧ Assigned st st' p node ∧ (st'.cacheStates p).isSome = true ∧
      st'.Reachable ∧ (∃ log', Ledger st' log' ∧ log'.length = log.length + 1) ∧
      cacheAwareRound P (st, busy, done) node = .ok (st',
        Function.update busy p (busy p + (accountedTask busy st' node p).expectedET),
        done ++ [accountedTask busy st' node p]) := by
  have hne := generateProcessorList_ne_nil hP
  rcases allocate_marked hst.sameKeys [] hne hnode.hasWeights with
    ⟨id, st', marked, hallocate, _, hresult⟩
  rcases hledger.scan_isSome hst.sameKeys hnode hne with ⟨p, hp, hscan⟩
  rw [hscan] at hresult
  rcases hresult with ⟨rfl, hassigned, hmarked⟩
  have hpP := lt_of_mem_generateProcessorList hp
  refine ⟨p, st', hpP, hassigned, allocate_entry hallocate hp, hst.allocate hallocate, ?_, ?_⟩
  · refine ⟨_, @Ledger.assign st log hledger st' p ⟨[node], generateProcessorList P⟩ node [] rfl
      hnode hp hassigned (countersInRange_of_length ?_), ?_⟩
    · simpa using hlog
    · simp
  · unfold cacheAwareRound simulateRound cacheAwareAllocateTask
    dsimp only
    rw [hallocate]
    dsimp only
    rw [if_neg (by omega), Int.toNat_natCast, List.headD_cons]
    dsimp only
    rw [if_neg (by omega), Int.toNat_natCast, if_pos]
    · rw [hmarked]
      rfl
    · rw [show (generateProcessorList P).length = P from List.length_range]
      exact hpP

/-- A run from {lit}`resetState` on few enough tasks: what every round does to its task is
done to all of them. -/
theorem cacheAwareRun_forall₂ {P : Nat} (hP : 1 ≤ P) (htasks : ∀ task ∈ tasks, task.Proper)
    (hlength : tasks.length < 2 ^ 31) {R : Node → Node → Prop}
    (hround : ∀ node ∈ tasks, ∀ st log busy p, Ledger st log → (st.cacheStates p).isSome = true →
      R node (accountedTask busy st node p)) :
    ∃ st tasks', simulateCacheAwareAllocation tasks (generateProcessorList P) resetState =
        .ok (st, tasks') ∧ List.Forall₂ R tasks tasks' := by
  have hrounds : ∃ r,
      tasks.foldlM (cacheAwareRound P) (resetState, (fun _ => 0), []) = .ok r ∧
        (r.1.Reachable ∧ ∃ log, Ledger r.1 log ∧ log.length = r.2.2.length) ∧
          List.Forall₂ R tasks r.2.2 := by
    apply Run.exists_foldlM
    · exact ⟨⟨.resetState, [], ledger_resetState, rfl⟩, .nil⟩
    · rintro before task after ⟨st, busy, done⟩ rfl ⟨⟨hst, log, hledger, hlog⟩, hdone⟩
      dsimp only at hst hledger hlog hdone
      have hroom : log.length + 1 < 2 ^ 31 := by
        have hsame := hdone.length_eq
        simp only [List.length_append, List.length_cons] at hlength
        omega
      rcases cacheAwareRound_spec hP hst hledger hroom (htasks task (by simp)) busy done with
        ⟨p, st', _, _, hentry, hst', ⟨log', hledger', hlog'⟩, hok⟩
      refine ⟨_, hok, ⟨hst', log', hledger', ?_⟩, ?_⟩
      · simp [hlog', hlog]
      · exact List.rel_append hdone
          (.cons (hround task (by simp) st' log' busy p hledger' hentry) .nil)
  rcases hrounds with ⟨r, hfold, _, hdone⟩
  exact ⟨r.1, r.2.2, simulateAllocation_of_foldlM hfold, hdone⟩

/-- What a round enters. -/
theorem Accounted.round {P : Nat} (hP : 1 ≤ P) (hint : P < 2 ^ 31) (h : Accounted P st done)
    (hlength : done.length + 1 < 2 ^ 31) (hnode : node.UsesCache) (busy : ProcId → Int64) :
    ∃ st' busy' task, cacheAwareRound P (st, busy, done) node = .ok (st', busy', done ++ [task]) ∧
      Accounted P st' (done ++ [task]) := by
  rcases h.ledger with ⟨log, hledger, hlog⟩
  rcases cacheAwareRound_spec hP h.reachable hledger (by omega) hnode.toProper busy done with
    ⟨p, st', hp, hassigned, _, hst', ⟨log', hledger', hlog'⟩, hround⟩
  have hcache : (st'.cacheState p).Discounts := (hledger'.utilization p).discounts
  have hon : (accountedTask busy st' node p).partition.toInt = (p : Int) :=
    scheduledTask_partition (hp.trans hint)
  -- the task has entered what it carries
  have haccesses : (st'.hitStats p).totalAccesses =
      (st.hitStats p).totalAccesses + (accountedTask busy st' node p).ownAccesses :=
    hassigned.accesses
  have hhits : (st'.hitStats p).totalHits =
      (st.hitStats p).totalHits + (accountedTask busy st' node p).ownHits :=
    hassigned.hits hnode.weight_nonneg hcache
  have hother : ∀ q, q ≠ p → st'.hitStats q = st.hitStats q := by
    intro q hqp
    rw [hassigned.hitStats, if_neg hqp]
  have hnotOn : ∀ q, q ≠ p → (accountedTask busy st' node p).partition.toInt ≠ (q : Int) := by
    intro q hqp
    rw [hon]
    exact_mod_cast Ne.symm hqp
  have haccounted : Accounted P st' (done ++ [accountedTask busy st' node p]) := by
    have hsumAccesses : ∀ q, (st'.hitStats q).totalAccesses =
        ((tasksOn (done ++ [accountedTask busy st' node p]) q).map Node.ownAccesses).sum := by
      intro q
      by_cases hqp : q = p
      · rw [hqp, tasksOn_append_singleton_self hon, haccesses, h.accesses]
        simp
      · rw [tasksOn_append_singleton_of_ne (hnotOn q hqp), hother q hqp, h.accesses]
    have hsumHits : ∀ q, (st'.hitStats q).totalHits =
        ((tasksOn (done ++ [accountedTask busy st' node p]) q).map Node.ownHits).sum := by
      intro q
      by_cases hqp : q = p
      · rw [hqp, tasksOn_append_singleton_self hon, hhits, h.hits]
        simp
      · rw [tasksOn_append_singleton_of_ne (hnotOn q hqp), hother q hqp, h.hits]
    refine ⟨hst', ⟨log', hledger', ?_⟩, hsumAccesses, hsumHits, ?_, ?_, ?_⟩
    · rw [hlog', hlog]
      simp
    · intro task htask
      rcases List.mem_append.mp htask with htask | htask
      · exact h.placed task htask
      · rw [List.mem_singleton.mp htask]
        exact ⟨p, hp, hon⟩
    · intro task htask
      rcases List.mem_append.mp htask with htask | htask
      · exact h.used task htask
      · rw [List.mem_singleton.mp htask]
        exact ⟨hnode.sensitivity_nonneg, hnode.levelWeight_pos,
          Node.hasLevelWeights_of_hasWeights hnode.hasWeights⟩
    · intro before task after q hsplit htask
      rcases List.eq_nil_or_concat after with rfl | ⟨after', last, rfl⟩
      · rcases List.append_inj' hsplit rfl with ⟨rfl, hlast⟩
        rw [List.singleton_inj] at hlast
        subst hlast
        have hqp : q = p := by
          rw [hon] at htask
          exact_mod_cast htask.symm
        unfold hitRatioOf
        rw [hqp, ← hsumAccesses, ← hsumHits]
        rfl
      · have hsplit' : done ++ [accountedTask busy st' node p] =
            (before ++ task :: after') ++ [last] := by
          rw [hsplit]
          simp
        exact h.running before task after' q (List.append_inj' hsplit' rfl).1 htask
  exact ⟨st', _, _, hround, haccounted⟩

/-- What a simulation enters. -/
theorem simulate_accounted {P : Nat} (hP : 1 ≤ P) (hint : P < 2 ^ 31)
    (htasks : ∀ task ∈ tasks, task.UsesCache) (hlength : tasks.length < 2 ^ 31) :
    ∃ st tasks', simulateCacheAwareAllocation tasks (generateProcessorList P) resetState =
        .ok (st, tasks') ∧ Accounted P st tasks' := by
  have hrounds : ∃ r,
      tasks.foldlM (cacheAwareRound P) (resetState, (fun _ => 0), []) = .ok r ∧
        r.2.2.length = tasks.length ∧ Accounted P r.1 r.2.2 := by
    apply Run.exists_foldlM ⟨rfl, accounted_resetState P⟩
    rintro before task after ⟨st, busy, done⟩ rfl ⟨hdone, haccounted⟩
    dsimp only at hdone haccounted
    have hroom : done.length + 1 < 2 ^ 31 := by
      simp only [List.length_append, List.length_cons] at hlength
      omega
    rcases haccounted.round hP hint hroom (htasks task (by simp)) busy with
      ⟨st', busy', task', hround, haccounted'⟩
    exact ⟨(st', busy', done ++ [task']), hround, by simp [hdone], haccounted'⟩
  rcases hrounds with ⟨⟨st, busy, done⟩, hrun, _, haccounted⟩
  exact ⟨st, done, simulateAllocation_of_foldlM hrun, haccounted⟩

/-! ## Both ratios are means -/

section Means

variable {P : Nat} {keys : List ProcId}

/-- The overall ratio, from the tasks. -/
theorem Accounted.overall_eq (h : Accounted P st done) (hkeys : IsKeys st keys) :
    calculateOverallCacheHitRatio (cacheHitStatsValues st keys) = hitRatioOf done := by
  have hplaced : ∀ task ∈ done, ∃ p ∈ keys.toFinset ∪ Finset.range P,
      task.partition.toInt = (p : Int) := by
    intro task htask
    rcases h.placed task htask with ⟨p, hp, hon⟩
    exact ⟨p, Finset.mem_union_right _ (Finset.mem_range.mpr hp), hon⟩
  have hall : ∀ p, p ∈ keys → p ∈ keys.toFinset ∪ Finset.range P := by
    intro p hp
    exact Finset.mem_union_left _ (List.mem_toFinset.mpr hp)
  have haccesses : CacheHitStats.totalAccesses .new = 0 := by
    simp [CacheHitStats.totalAccesses, CacheHitStats.new]
  have hhits : CacheHitStats.totalHits .new = 0 := by
    simp [CacheHitStats.totalHits, CacheHitStats.new]
  unfold calculateOverallCacheHitRatio hitRatioOf
  dsimp only
  rw [sum_cacheHitStatsValues hkeys haccesses hall, sum_cacheHitStatsValues hkeys hhits hall,
    Finset.sum_congr rfl fun p _ => h.accesses p, Finset.sum_congr rfl fun p _ => h.hits p,
    sum_tasksOn _ _ hplaced, sum_tasksOn _ _ hplaced]

/-- The ratio from the tasks: all of them count. -/
theorem Accounted.fromTasks_eq (h : Accounted P st done) :
    calculateCacheHitRatioFromTasks done =
      ratio (done.map fun task => task.actualCacheHitRatio * task.levelWeight).sum
        (done.map Node.levelWeight).sum := by
  unfold calculateCacheHitRatioFromTasks
  rw [List.filter_eq_self.mpr fun task htask => (h.used task htask).2.2]

theorem Accounted.ownAccesses_pos (h : Accounted P st done) {task : Node} (htask : task ∈ done) :
    0 < task.ownAccesses := by
  rcases h.used task htask with ⟨hsensitivity, hlevel, _⟩
  rw [Node.ownAccesses_eq]
  apply mul_pos _ hlevel
  linarith

/-- Bounds of own ratios, without the division. -/
theorem Accounted.ownHits_bounds (h : Accounted P st done) {low high : ℚ} {task : Node}
    (htask : task ∈ done) (hlow : low ≤ task.ownHitRatio) (hhigh : task.ownHitRatio ≤ high) :
    low * task.ownAccesses ≤ task.ownHits ∧ task.ownHits ≤ high * task.ownAccesses := by
  have hpos := h.ownAccesses_pos htask
  unfold Node.ownHitRatio at hlow hhigh
  rw [ratio_of_pos hpos] at hlow hhigh
  exact ⟨(le_div_iff₀ hpos).mp hlow, (div_le_iff₀ hpos).mp hhigh⟩

/-- Tasks with own ratios between two bounds have a ratio between them. -/
theorem Accounted.hitRatioOf_bounds (h : Accounted P st done) {low high : ℚ} {l : List Node}
    (hl : ∀ task ∈ l, task ∈ done) (hne : l ≠ [])
    (hbounds : ∀ task ∈ l, low ≤ task.ownHitRatio ∧ task.ownHitRatio ≤ high) :
    low ≤ hitRatioOf l ∧ hitRatioOf l ≤ high := by
  apply ratio_sum_bounds
  · apply List.sum_pos
    · intro x hx
      rcases List.mem_map.mp hx with ⟨task, htask, rfl⟩
      exact h.ownAccesses_pos (hl task htask)
    · simpa using hne
  · intro task htask
    exact h.ownHits_bounds (hl task htask) (hbounds task htask).1 (hbounds task htask).2

/-- What a task carries is a ratio of tasks on its processor. -/
theorem Accounted.actual_bounds (h : Accounted P st done) {low high : ℚ} {task : Node}
    (htask : task ∈ done)
    (hbounds : ∀ t ∈ done, t.partition = task.partition →
      low ≤ t.ownHitRatio ∧ t.ownHitRatio ≤ high) :
    low ≤ task.actualCacheHitRatio ∧ task.actualCacheHitRatio ≤ high := by
  rcases List.append_of_mem htask with ⟨before, after, hsplit⟩
  rcases h.placed task htask with ⟨p, _, hon⟩
  rw [h.running before task after p hsplit hon]
  have hmem : ∀ t ∈ tasksOn (before ++ [task]) p, t ∈ done ∧ t.partition = task.partition := by
    intro t ht
    rcases List.mem_filter.mp ht with ⟨ht, hpartition⟩
    have hpartition' := of_decide_eq_true hpartition
    refine ⟨?_, Int32.toInt_inj.mp (hpartition'.trans hon.symm)⟩
    rw [hsplit]
    rcases List.mem_append.mp ht with ht | ht
    · exact List.mem_append_left _ ht
    · rw [List.mem_singleton.mp ht]
      simp
  apply h.hitRatioOf_bounds (fun t ht => (hmem t ht).1)
  · rw [tasksOn_append_singleton_self hon]
    simp
  · intro t ht
    exact hbounds t (hmem t ht).1 (hmem t ht).2

/-- Both ratios are between the bounds of the own ratios. -/
theorem Accounted.ratios_bounds (h : Accounted P st done) (hkeys : IsKeys st keys)
    {low high : ℚ} (hne : done ≠ [])
    (hbounds : ∀ task ∈ done, low ≤ task.ownHitRatio ∧ task.ownHitRatio ≤ high) :
    (low ≤ calculateOverallCacheHitRatio (cacheHitStatsValues st keys) ∧
      calculateOverallCacheHitRatio (cacheHitStatsValues st keys) ≤ high) ∧
    low ≤ calculateCacheHitRatioFromTasks done ∧
      calculateCacheHitRatioFromTasks done ≤ high := by
  constructor
  · rw [h.overall_eq hkeys]
    exact h.hitRatioOf_bounds (fun task htask => htask) hne hbounds
  · rw [h.fromTasks_eq]
    apply ratio_sum_bounds
    · apply List.sum_pos
      · intro x hx
        rcases List.mem_map.mp hx with ⟨task, htask, rfl⟩
        exact (h.used task htask).2.1
      · simpa using hne
    · intro task htask
      have hlevel := (h.used task htask).2.1.le
      have hactual := h.actual_bounds htask fun t ht _ => hbounds t ht
      exact ⟨mul_le_mul_of_nonneg_right hactual.1 hlevel,
        mul_le_mul_of_nonneg_right hactual.2 hlevel⟩

/-- With one sensitivity, and one own ratio on each processor, both weigh the same
ratios in the same way. -/
theorem Accounted.ratios_eq (h : Accounted P st done) (hkeys : IsKeys st keys)
    (hsensitivity : ∀ task ∈ done, ∀ t ∈ done, task.sensitivity = t.sensitivity)
    (hratio : ∀ task ∈ done, ∀ t ∈ done, task.partition = t.partition →
      task.ownHitRatio = t.ownHitRatio) :
    calculateCacheHitRatioFromTasks done =
      calculateOverallCacheHitRatio (cacheHitStatsValues st keys) := by
  cases hdone : done with
  | nil =>
      rw [← hdone, h.overall_eq hkeys, h.fromTasks_eq, hdone]
      rfl
  | cons first others =>
      have hfirst : first ∈ done := by
        rw [hdone]
        exact List.mem_cons_self
      have hpos : 0 < 1 + first.sensitivity := by
        have hnonneg := (h.used first hfirst).1
        linarith
      rw [← hdone, h.overall_eq hkeys, h.fromTasks_eq]
      -- own hits and accesses are the weighted ratios and the weights, scaled
      have hhits : done.map Node.ownHits = done.map fun task =>
          (1 + first.sensitivity) * (task.actualCacheHitRatio * task.levelWeight) := by
        apply List.map_congr_left
        intro task htask
        have hactual := h.actual_bounds htask fun t ht hpartition =>
          ⟨(hratio task htask t ht hpartition.symm).le, (hratio t ht task htask hpartition).le⟩
        have heq : task.actualCacheHitRatio = task.ownHitRatio :=
          le_antisymm hactual.2 hactual.1
        have hown := h.ownAccesses_pos htask
        rw [heq, hsensitivity first hfirst task htask]
        unfold Node.ownHitRatio
        rw [ratio_of_pos hown, Node.ownAccesses_eq] at *
        have hscale : (1 + task.sensitivity) ≠ 0 := left_ne_zero_of_mul hown.ne'
        have hlevel : task.levelWeight ≠ 0 := right_ne_zero_of_mul hown.ne'
        field_simp
      have haccesses : done.map Node.ownAccesses = done.map fun task =>
          (1 + first.sensitivity) * task.levelWeight := by
        apply List.map_congr_left
        intro task htask
        rw [Node.ownAccesses_eq, hsensitivity first hfirst task htask]
      unfold hitRatioOf
      rw [hhits, haccesses, List.sum_map_mul_left, List.sum_map_mul_left,
        ratio_mul_left hpos]

end Means

/-- The overall ratio is that of what all tasks have entered, and a task carries that
of the tasks of its processor up to itself.  So both overall ratios are between the
least and the greatest own ratio of a task, and they are the same if all tasks have
the same sensitivity and no processor has two tasks with different own ratios. -/
theorem hitRatios_agree {P : Nat} (hP : 1 ≤ P) (hint : P < 2 ^ 31)
    (htasks : ∀ task ∈ tasks, task.UsesCache) (hlength : tasks.length < 2 ^ 31) :
    ∃ st tasks', simulateCacheAwareAllocation tasks (generateProcessorList P) resetState =
        .ok (st, tasks') ∧ (∃ keys, IsKeys st keys) ∧
      ∀ keys, IsKeys st keys →
        calculateOverallCacheHitRatio (cacheHitStatsValues st keys) = hitRatioOf tasks' ∧
        (∀ before task after (p : ProcId), tasks' = before ++ task :: after →
          task.partition.toInt = (p : Int) →
          task.actualCacheHitRatio = hitRatioOf (tasksOn (before ++ [task]) p)) ∧
        (∀ low high, tasks' ≠ [] →
          (∀ task ∈ tasks', low ≤ task.ownHitRatio ∧ task.ownHitRatio ≤ high) →
          (low ≤ calculateOverallCacheHitRatio (cacheHitStatsValues st keys) ∧
            calculateOverallCacheHitRatio (cacheHitStatsValues st keys) ≤ high) ∧
          low ≤ calculateCacheHitRatioFromTasks tasks' ∧
            calculateCacheHitRatioFromTasks tasks' ≤ high) ∧
        ((∀ task ∈ tasks', ∀ t ∈ tasks', task.sensitivity = t.sensitivity) →
          (∀ task ∈ tasks', ∀ t ∈ tasks', task.partition = t.partition →
            task.ownHitRatio = t.ownHitRatio) →
          calculateCacheHitRatioFromTasks tasks' =
            calculateOverallCacheHitRatio (cacheHitStatsValues st keys)) := by
  rcases simulate_accounted hP hint htasks hlength with ⟨st, tasks', hrun, haccounted⟩
  refine ⟨st, tasks', hrun, haccounted.reachable.exists_keys, ?_⟩
  intro keys hkeys
  exact ⟨haccounted.overall_eq hkeys, haccounted.running,
    fun low high => haccounted.ratios_bounds hkeys, haccounted.ratios_eq hkeys⟩

theorem halfTask_usesCache : halfTask.UsesCache where
  time_ge_one := by
    have htime : halfTask.time = 1 := by
      unfold Node.time
      rw [show halfTask.expectedET.toInt = 1 from rfl]
      norm_num
    exact htime.ge
  sensitivity_nonneg := by norm_num [halfTask, Node.new]
  sensitivity_le_one := by norm_num [halfTask, Node.new]
  hasWeights := rfl
  weight_nonneg := fun i => (halfTask_weight i).1
  weight_le_one := fun i => (halfTask_weight i).2
  used := Or.inl (by norm_num [Node.weight, halfTask, Node.new])

/-- One task has one ratio. -/
theorem hitRatios_agree_oneTask :
    ∃ st tasks', simulateCacheAwareAllocation [halfTask] (generateProcessorList 1) resetState =
        .ok (st, tasks') ∧ ∃ keys, IsKeys st keys ∧
      calculateCacheHitRatioFromTasks tasks' =
        calculateOverallCacheHitRatio (cacheHitStatsValues st keys) := by
  rcases hitRatios_agree le_rfl (by norm_num : (1 : Nat) < 2 ^ 31)
    (by simp [halfTask_usesCache] : ∀ task ∈ [halfTask], task.UsesCache) (by simp) with
    ⟨st, tasks', hrun, ⟨keys, hkeys⟩, hall⟩
  have hlength := Run.of_all_ok (P := fun r => r.2.length = 1) hrun (by decide +kernel)
  rcases List.length_eq_one_iff.mp hlength with ⟨task, rfl⟩
  refine ⟨st, [task], hrun, keys, hkeys, (hall keys hkeys).2.2.2 ?_ ?_⟩
  · simp
  · simp

/-- Two of the same task on one processor have different ratios: the second finds
less of its cache. -/
theorem halfTasks_disagree :
    ∃ st tasks', simulateCacheAwareAllocation [halfTask, halfTask] (generateProcessorList 1)
        resetState = .ok (st, tasks') ∧ (∃ keys, IsKeys st keys) ∧
      ∀ keys, IsKeys st keys →
        calculateCacheHitRatioFromTasks tasks' ≠
          calculateOverallCacheHitRatio (cacheHitStatsValues st keys) := by
  have htasks : ∀ task ∈ [halfTask, halfTask], task.UsesCache := by simp [halfTask_usesCache]
  rcases simulate_accounted le_rfl (by norm_num : (1 : Nat) < 2 ^ 31) htasks (by simp) with
    ⟨st, tasks', hrun, haccounted⟩
  refine ⟨st, tasks', hrun, haccounted.reachable.exists_keys, ?_⟩
  intro keys hkeys
  rw [haccounted.overall_eq hkeys]
  exact Run.of_all_ok (P := fun r => calculateCacheHitRatioFromTasks r.2 ≠ hitRatioOf r.2) hrun
    (by decide +kernel)

end Simu
end YatCasched
