import YatCasched.Kernel.Priority
import YatCasched.Lib.Run

/-!
# Policy and class

A task's class must be the one its priority and its policy stand for.  The
functions that write the class choose it from the priority alone and never
choose the cache-aware class, so they keep the agreement exactly as long as no
task with the cache-aware policy gets a class from a normal priority.

Main results:

- Theorem {lit}`policyAgrees_step_iff`: which operations keep the agreement.
- Theorem {lit}`policyAgrees_throughout_iff`: which runs do.
-/

namespace YatCasched
namespace Kernel

variable {n : Nat}

/-! ## The agreement -/

/-- The class is the one the priority and the policy stand for. -/
def AgreesWithPolicy (t : TaskStruct n) : Prop :=
  t.schedClass =
    if dlPrio t.prio then .dl
    else if rtPrio t.prio then .rt
    else if yatCaschedPrio t then .yatCasched
    else .fair

/-- The same for every task but the stop tasks. -/
def PolicyAgrees (stop : Fin n → Option Pid) (k : System n) : Prop :=
  ∀ p, (∀ c, stop c ≠ some p) → AgreesWithPolicy (k.task p)

/-- The agreement depends on the class, the policy and the priority. -/
theorem AgreesWithPolicy.congr {t t' : TaskStruct n} (hclass : t'.schedClass = t.schedClass)
    (hpolicy : t'.policy = t.policy) (hprio : t'.prio = t.prio) :
    AgreesWithPolicy t' ↔ AgreesWithPolicy t := by
  unfold AgreesWithPolicy yatCaschedPrio
  rw [hclass, hpolicy, hprio]

/-- Normal priorities are all the same to it. -/
theorem AgreesWithPolicy.congr_normal {t t' : TaskStruct n}
    (hclass : t'.schedClass = t.schedClass) (hpolicy : t'.policy = t.policy)
    (ht : rtPrio t.prio = false) (ht' : rtPrio t'.prio = false) :
    AgreesWithPolicy t' ↔ AgreesWithPolicy t := by
  unfold AgreesWithPolicy yatCaschedPrio
  rw [hclass, hpolicy, ht, ht', dlPrio_of_not_rtPrio ht, dlPrio_of_not_rtPrio ht']

/-- A class chosen from the priority alone is right unless the policy is the
cache-aware one and the priority a normal one. -/
theorem agreesWithPolicy_of_classOfPrio {t : TaskStruct n}
    (ht : t.schedClass = classOfPrio t.prio) :
    AgreesWithPolicy t ↔ (t.policy = 8 → rtPrio t.prio = true) := by
  unfold AgreesWithPolicy yatCaschedPrio
  rw [ht]
  cases hrt : rtPrio t.prio with
  | true =>
      unfold classOfPrio
      rw [hrt]
      simp
  | false =>
      rw [classOfPrio_of_not_rtPrio hrt, dlPrio_of_not_rtPrio hrt]
      by_cases hpolicy : t.policy = 8
      · simp [hpolicy]
      · simp [hpolicy]

/-! ## Operations -/

/-- The four entry points that write policy, priority or class. -/
inductive PolicyOp
  /-- {lit}`sched_fork` of the task {lit}`p` by {lit}`current`. -/
  | schedFork (current p : Pid)
  /-- {lit}`__sched_setscheduler`. -/
  | schedSetscheduler (env : SetschedulerEnv) (p : Pid) (attr : SchedAttr) (user pi : Bool)
  /-- {lit}`rt_mutex_setprio`: a boost or a deboost. -/
  | rtMutexSetprio (p : Pid) (piTask : Option Pid)
  /-- {lit}`set_user_nice`. -/
  | setUserNice (p : Pid) (nice : Int)

variable (policies : PolicyPredicates) (stop : Fin n → Option Pid)

/-- The effect of an operation.  The copy of a fork that fails is freed. -/
def PolicyOp.step (k : System n) : PolicyOp → System n
  | .schedFork current p =>
      if (Kernel.schedFork policies k current p).1 = 0 then
        (Kernel.schedFork policies k current p).2
      else
        k
  | .schedSetscheduler env p attr user pi =>
      (Kernel.schedSetscheduler policies stop env k p attr user pi).2
  | .rtMutexSetprio p piTask => Kernel.rtMutexSetprio k p piTask
  | .setUserNice p nice => Kernel.setUserNice policies k p nice

/-- The call changes the policy parameters and the class. -/
def setschedulerApplies (env : SetschedulerEnv) (k : System n) (p : Pid) (attr : SchedAttr)
    (user : Bool) : Prop :=
  setschedulerCheck policies env (k.task p) attr user = 0 ∧
    stop (k.task p).cpu ≠ some p ∧
    nothingToChange policies env (k.task p) attr = false ∧
    setschedulerAdmission policies env (k.task p) attr user = 0 ∧
    attr.hasFlag schedFlagKeepParams = false

/-- No task with the cache-aware policy gets its class from a normal priority:
it is not forked unless the child gets a real-time priority, its parent's own or, if it is
reset, a static one for which {lit}`PRIO_TO_NICE` wraps; the policy is not set, or set
again, unless a waiter boosts the task or the nice value is out of range; and the task is
not boosted or deboosted to another normal priority. -/
def PolicyOp.KeepsClass (k : System n) : PolicyOp → Prop
  | .schedFork current p =>
      (∀ c, stop c ≠ some p) → (k.task current).policy = 8 →
        if (k.task current).schedResetOnFork then
          0 ≤ prioToNice (k.task current).staticPrio ∧ rtPrio (k.task current).staticPrio = true
        else
          rtPrio (k.task current).normalPrio = true
  | .schedSetscheduler env p attr user pi =>
      (∀ c, stop c ≠ some p) → setschedulerApplies policies stop env k p attr user →
        (attr.schedPolicy = 8 ∨ (attr.schedPolicy = -1 ∧ (k.task p).policy = 8)) →
        attr.schedNice.toInt < -20 ∨ 2 ^ 31 - 120 ≤ attr.schedNice.toInt ∨
          (pi = true ∧ ∃ donor, (k.task p).piTopTask = some donor ∧
            rtPrio (k.task donor).prio = true)
  | .rtMutexSetprio p piTask =>
      (∀ c, stop c ≠ some p) → (k.task p).policy = 8 →
        rtEffectivePrioOf k piTask (k.task p).normalPrio = (k.task p).prio ∨
          rtPrio (rtEffectivePrioOf k piTask (k.task p).normalPrio) = true
  | .setUserNice _ _ => True

/-! ## What an operation keeps -/

variable {policies stop} {k : System n}

/-- An operation on one task keeps the agreement if that task keeps it. -/
theorem PolicyAgrees.iff_of_task (hk : PolicyAgrees stop k) {k' : System n} (p : Pid)
    (hother : ∀ q, q ≠ p → (AgreesWithPolicy (k'.task q) ↔ AgreesWithPolicy (k.task q))) :
    PolicyAgrees stop k' ↔ ((∀ c, stop c ≠ some p) → AgreesWithPolicy (k'.task p)) := by
  constructor
  · intro h
    exact h p
  · intro h q hq
    by_cases hqp : q = p
    · subst hqp
      exact h hq
    · exact (hother q hqp).mpr (hk q hq)

/-- An operation that changes nothing the agreement depends on. -/
theorem PolicyAgrees.of_same (hk : PolicyAgrees stop k) {k' : System n}
    (hsame : ∀ q, AgreesWithPolicy (k'.task q) ↔ AgreesWithPolicy (k.task q)) :
    PolicyAgrees stop k' := by
  intro q hq
  exact (hsame q).mpr (hk q hq)

/-- An assignment to the task. -/
theorem agreesWithPolicy_updateTask_of_ne {p q : Pid} (hqp : q ≠ p)
    (f : TaskStruct n → TaskStruct n) :
    AgreesWithPolicy ((k.updateTask p f).task q) ↔ AgreesWithPolicy (k.task q) := by
  rw [System.updateTask_task_of_ne k hqp]

/-- An assignment to the task on its run queue. -/
theorem agreesWithPolicy_requeue (p q : Pid) {f : TaskStruct n → TaskStruct n}
    (hf : ∀ t se yat, ∃ se' yat',
      f { t with se := se, yatCasched := yat } = { f t with se := se', yatCasched := yat' }) :
    AgreesWithPolicy ((requeue k p fun k => k.updateTask p f).task q) ↔
      AgreesWithPolicy ((k.updateTask p f).task q) := by
  apply AgreesWithPolicy.congr
  · exact requeue_updateTask_apply k p q (fun t => t.schedClass) (fun _ _ _ => rfl) hf
  · exact requeue_updateTask_apply k p q (fun t => t.policy) (fun _ _ _ => rfl) hf
  · exact requeue_updateTask_apply k p q (fun t => t.prio) (fun _ _ _ => rfl) hf

/-- A task changed on its run queue decides whether the agreement is kept. -/
theorem PolicyAgrees.requeue_iff (hk : PolicyAgrees stop k) (p : Pid)
    {f : TaskStruct n → TaskStruct n}
    (hf : ∀ t se yat, ∃ se' yat',
      f { t with se := se, yatCasched := yat } = { f t with se := se', yatCasched := yat' }) :
    PolicyAgrees stop (requeue k p fun k => k.updateTask p f) ↔
      ((∀ c, stop c ≠ some p) → AgreesWithPolicy (f (k.task p))) := by
  rw [hk.iff_of_task p]
  · rw [agreesWithPolicy_requeue p p hf, System.updateTask_task_self]
  · intro q hqp
    rw [agreesWithPolicy_requeue p q hf, agreesWithPolicy_updateTask_of_ne hqp]

/-- A change of the nice value keeps the agreement. -/
theorem policyAgrees_setUserNice (hk : PolicyAgrees stop k) (p : Pid) (nice : Int) :
    PolicyAgrees stop (setUserNice policies k p nice) := by
  unfold setUserNice
  split
  · exact hk
  · rename_i hnice
    split
    · apply hk.of_same
      intro q
      apply AgreesWithPolicy.congr
      all_goals exact System.updateTask_task_apply k p q _ fun _ => rfl
    · rename_i hpolicy
      rw [hk.requeue_iff p fun _ se yat => ⟨se, yat, rfl⟩]
      intro hp
      have hagrees := hk p hp
      simp only [Bool.or_eq_true, decide_eq_true_eq, not_or, not_lt] at hnice
      simp only [Bool.or_eq_true, not_or, Bool.not_eq_true] at hpolicy
      have hstatic : niceToPrio nice = nice + 120 :=
        niceToPrio_eq (by omega) (by omega)
      have hprio := @effectivePrio_snd n policies
        { k.task p with staticPrio := niceToPrio nice } hpolicy.1 hpolicy.2
        (by dsimp only; omega) (by dsimp only; omega)
      cases hrt : rtPrio (k.task p).prio with
      | true =>
          dsimp only at hprio
          rw [hrt, if_pos rfl] at hprio
          refine (AgreesWithPolicy.congr ?_ ?_ ?_).mpr hagrees
          · rfl
          · rfl
          · exact hprio
      | false =>
          dsimp only at hprio
          rw [hrt, if_neg Bool.false_ne_true] at hprio
          refine (AgreesWithPolicy.congr_normal ?_ ?_ hrt ?_).mpr hagrees
          · rfl
          · rfl
          · dsimp only
            rw [hprio]
            exact rtPrio_niceToPrio hnice.1.2 hnice.2

/-- What {lit}`sched_fork` makes of the copy, up to the choice of the class. -/
def forkedTask (policies : PolicyPredicates) (parent : TaskStruct n) : TaskStruct n :=
  let t := { parent with prio := parent.normalPrio }
  if parent.schedResetOnFork then resetOnFork policies t else t

/-- Policy and priority of a reset depend on the policy and the static priority
only. -/
theorem resetOnFork_congr {t t' : TaskStruct n} (hpolicy : t'.policy = t.policy)
    (hstatic : t'.staticPrio = t.staticPrio) :
    (resetOnFork policies t').policy = (resetOnFork policies t).policy ∧
      (resetOnFork policies t').prio = (resetOnFork policies t).prio := by
  unfold resetOnFork
  dsimp only
  rw [hpolicy, hstatic]
  split_ifs
  · exact ⟨rfl, rfl⟩
  · exact ⟨rfl, rfl⟩
  · exact ⟨hpolicy, hstatic⟩

/-- A fork succeeds unless the child would have a deadline priority; the class of
the child is chosen from its priority, and no other task changes. -/
theorem schedFork_spec (k : System n) (current p : Pid) :
    ((schedFork policies k current p).1 = 0 ↔
        dlPrio (forkedTask policies (k.task current)).prio = false) ∧
      (∀ q, q ≠ p → (schedFork policies k current p).2.task q = k.task q) ∧
      ((schedFork policies k current p).1 = 0 →
        ((schedFork policies k current p).2.task p).policy =
            (forkedTask policies (k.task current)).policy ∧
          ((schedFork policies k current p).2.task p).prio =
            (forkedTask policies (k.task current)).prio ∧
          ((schedFork policies k current p).2.task p).schedClass =
            classOfPrio (forkedTask policies (k.task current)).prio) := by
  -- the state before the class is chosen
  have hcopy : ∃ k₁, (∀ q, q ≠ p → k₁.task q = k.task q) ∧
      (k₁.task p).policy = (forkedTask policies (k.task current)).policy ∧
      (k₁.task p).prio = (forkedTask policies (k.task current)).prio ∧
      schedFork policies k current p =
        if dlPrio (k₁.task p).prio then
          (-11, k₁)
        else if rtPrio (k₁.task p).prio then
          (0, k₁.updateTask p fun t => { t with schedClass := .rt })
        else
          (0, k₁.updateTask p fun t => { t with schedClass := .fair }) := by
    refine ⟨_, ?_, ?_, ?_, rfl⟩
    · intro q hqp
      split
      all_goals simp [schedForkYatCasched, hqp]
    · unfold forkedTask
      cases hreset : (k.task current).schedResetOnFork with
      | true =>
          simp only [schedForkYatCasched, dupTaskStruct, System.updateTask_task_self, hreset,
            if_true]
          refine (resetOnFork_congr ?_ ?_).1
          · rfl
          · rfl
      | false =>
          simp [schedForkYatCasched, dupTaskStruct, hreset]
    · unfold forkedTask
      cases hreset : (k.task current).schedResetOnFork with
      | true =>
          simp only [schedForkYatCasched, dupTaskStruct, System.updateTask_task_self, hreset,
            if_true]
          refine (resetOnFork_congr ?_ ?_).2
          · rfl
          · rfl
      | false =>
          simp [schedForkYatCasched, dupTaskStruct, hreset]
  rcases hcopy with ⟨k₁, hother, hpolicy, hprio, hfork⟩
  rw [hfork, ← hpolicy, ← hprio]
  unfold classOfPrio
  cases hdl : dlPrio (k₁.task p).prio with
  | true =>
      refine ⟨by simp, hother, ?_⟩
      intro h
      cases h
  | false =>
      rw [if_neg Bool.false_ne_true]
      cases hrt : rtPrio (k₁.task p).prio with
      | true =>
          rw [if_pos rfl]
          refine ⟨by simp, ?_, by simp⟩
          intro q hqp
          dsimp only
          rw [System.updateTask_task_of_ne k₁ hqp, hother q hqp]
      | false =>
          rw [if_neg Bool.false_ne_true]
          refine ⟨by simp, ?_, by simp⟩
          intro q hqp
          dsimp only
          rw [System.updateTask_task_of_ne k₁ hqp, hother q hqp]

/-- A child has the cache-aware policy exactly if its parent has. -/
theorem forkedTask_policy_iff (parent : TaskStruct n) :
    (forkedTask policies parent).policy = 8 ↔ parent.policy = 8 := by
  unfold forkedTask
  cases parent.schedResetOnFork with
  | true =>
      by_cases hpolicy : parent.policy = 8
      · apply iff_of_true _ hpolicy
        exact (resetOnFork_yatCasched (by exact hpolicy)).1
      · apply iff_of_false _ hpolicy
        exact resetOnFork_policy_ne (by exact hpolicy)
  | false => rfl

/-- When the child of a task with the cache-aware policy gets a real-time priority. -/
theorem rtPrio_forkedTask_iff {parent : TaskStruct n} (hpolicy : parent.policy = 8) :
    rtPrio (forkedTask policies parent).prio = true ↔
      if parent.schedResetOnFork then
        0 ≤ prioToNice parent.staticPrio ∧ rtPrio parent.staticPrio = true
      else
        rtPrio parent.normalPrio = true := by
  unfold forkedTask
  dsimp only
  split
  · exact (@resetOnFork_yatCasched n policies
      { parent with prio := parent.normalPrio } hpolicy).2
  · exact Iff.rfl

/-- A fork keeps the agreement exactly if the child of a task with the
cache-aware policy gets a real-time priority. -/
theorem policyAgrees_schedFork_iff (hk : PolicyAgrees stop k) (current p : Pid) :
    PolicyAgrees stop (PolicyOp.step policies stop k (.schedFork current p)) ↔
      PolicyOp.KeepsClass policies stop k (.schedFork current p) := by
  have hspec := @schedFork_spec n policies k current p
  unfold PolicyOp.step PolicyOp.KeepsClass
  dsimp only
  by_cases hret : (schedFork policies k current p).1 = 0
  · rw [if_pos hret, hk.iff_of_task p fun q hqp => by rw [hspec.2.1 q hqp]]
    rcases hspec.2.2 hret with ⟨hchild, hprio, hclass⟩
    rw [← hprio] at hclass
    rw [agreesWithPolicy_of_classOfPrio hclass, hchild, hprio, forkedTask_policy_iff]
    apply forall_congr'
    intro _
    apply forall_congr'
    intro hpolicy
    exact rtPrio_forkedTask_iff hpolicy
  · rw [if_neg hret]
    apply iff_of_true hk
    intro _ hpolicy
    rw [← @rtPrio_forkedTask_iff n policies _ hpolicy]
    by_contra hrt
    rw [Bool.not_eq_true] at hrt
    exact hret (hspec.1.mpr (dlPrio_of_not_rtPrio hrt))

/-- A boost or a deboost keeps the agreement exactly if it does not move a task
with the cache-aware policy to another normal priority. -/
theorem policyAgrees_rtMutexSetprio_iff (hk : PolicyAgrees stop k) (p : Pid)
    (piTask : Option Pid) :
    PolicyAgrees stop (PolicyOp.step policies stop k (.rtMutexSetprio p piTask)) ↔
      PolicyOp.KeepsClass policies stop k (.rtMutexSetprio p piTask) := by
  unfold PolicyOp.step PolicyOp.KeepsClass Kernel.rtMutexSetprio
  dsimp only
  generalize hprio : rtEffectivePrioOf k piTask (k.task p).normalPrio = prio
  have hmark : PolicyAgrees stop (k.updateTask p fun t => { t with piTopTask := piTask }) := by
    apply hk.of_same
    intro q
    apply AgreesWithPolicy.congr
    all_goals exact System.updateTask_task_apply k p q _ fun _ => rfl
  have hchange : PolicyAgrees stop
      (requeue (k.updateTask p fun t => { t with piTopTask := piTask }) p fun k =>
        k.updateTask p fun t => setschedulerPrio t prio) ↔
      ((∀ c, stop c ≠ some p) → (k.task p).policy = 8 → rtPrio prio = true) := by
    rw [hmark.requeue_iff p fun _ se yat => ⟨se, yat, rfl⟩, System.updateTask_task_self,
      agreesWithPolicy_of_classOfPrio rfl]
    rfl
  by_cases hsame : prio = (k.task p).prio ∧ dlPrio prio = false
  · -- nothing to do for the class
    have hkeeps : (∀ c, stop c ≠ some p) → (k.task p).policy = 8 →
        prio = (k.task p).prio ∨ rtPrio prio = true := fun _ _ => Or.inl hsame.1
    split
    · exact iff_of_true hk hkeeps
    · rw [if_pos (by simpa using hsame)]
      exact iff_of_true hmark hkeeps
  · rw [if_neg (by simp only [Bool.and_eq_true, decide_eq_true_eq, Bool.not_eq_true']; tauto),
      if_neg (by simpa using hsame), hchange]
    apply forall_congr'
    intro _
    apply forall_congr'
    intro _
    constructor
    · exact Or.inr
    · intro h
      rcases h with h | h
      · by_contra hrt
        rw [Bool.not_eq_true] at hrt
        exact hsame ⟨h, dlPrio_of_not_rtPrio hrt⟩
      · exact h

/-- Inheritance gives a real-time priority exactly if the donor or the task itself
has one. -/
theorem rtPrio_rtEffectivePrioOf (k : System n) (piTask : Option Pid) (prio : Int) :
    rtPrio (rtEffectivePrioOf k piTask prio) = true ↔
      rtPrio prio = true ∨ ∃ donor, piTask = some donor ∧ rtPrio (k.task donor).prio = true := by
  cases piTask with
  | none => simp [rtEffectivePrioOf]
  | some donor => simp [rtEffectivePrioOf, rtPrio]

/-- New parameters and a new priority keep the agreement exactly if the priority
is a real-time one or the policy is not the cache-aware one. -/
theorem policyAgrees_setParams_iff (hk : PolicyAgrees stop k) (p : Pid) (attr : SchedAttr)
    (newprio : Int) :
    PolicyAgrees stop (requeue k p fun k => k.updateTask p fun t =>
        if attr.hasFlag schedFlagKeepParams then t
        else setschedulerPrio (setschedulerParams policies t attr) newprio) ↔
      ((∀ c, stop c ≠ some p) → attr.hasFlag schedFlagKeepParams = false →
        (attr.schedPolicy = 8 ∨ (attr.schedPolicy = -1 ∧ (k.task p).policy = 8)) →
          rtPrio newprio = true) := by
  rw [hk.requeue_iff p]
  · apply forall_congr'
    intro hp
    cases hkeep : attr.hasFlag schedFlagKeepParams with
    | true =>
        apply iff_of_true (hk p hp)
        intro h
        cases h
    | false =>
        have hpolicy : (setschedulerParams policies (k.task p) attr).policy = 8 ↔
            attr.schedPolicy = 8 ∨ (attr.schedPolicy = -1 ∧ (k.task p).policy = 8) := by
          rw [setschedulerParams_policy]
          split
          · rename_i hown
            rw [hown]
            simp
          · rename_i hown
            simp [hown]
        rw [if_neg Bool.false_ne_true, agreesWithPolicy_of_classOfPrio rfl, ← hpolicy]
        simp [setschedulerPrio]
  · intro t se yat
    split
    · exact ⟨se, yat, rfl⟩
    · rw [setschedulerParams_frame]
      exact ⟨se, yat, rfl⟩

/-- The priority a call gives a task with the cache-aware policy. -/
theorem rtPrio_newprio_iff (k : System n) (p : Pid) {attr : SchedAttr} (pi : Bool)
    (hpolicy : requestedPolicy (k.task p) attr = 8) (f : TaskStruct n → Bool) :
    rtPrio (if pi then
        rtEffectivePrio (k.updateTask p fun t => { t with schedResetOnFork := f t }) p
          (normalPrioOf policies (requestedPolicy (k.task p) attr) attr.schedPriority
            attr.schedNice.toInt)
      else
        normalPrioOf policies (requestedPolicy (k.task p) attr) attr.schedPriority
          attr.schedNice.toInt) = true ↔
      attr.schedNice.toInt < -20 ∨ 2 ^ 31 - 120 ≤ attr.schedNice.toInt ∨
        (pi = true ∧ ∃ donor, (k.task p).piTopTask = some donor ∧
          rtPrio (k.task donor).prio = true) := by
  have hnormal : rtPrio (normalPrioOf policies 8 attr.schedPriority attr.schedNice.toInt) =
      true ↔ attr.schedNice.toInt < -20 ∨ 2 ^ 31 - 120 ≤ attr.schedNice.toInt := by
    unfold normalPrioOf
    rw [policies.dlPolicy_yatCasched, policies.rtPolicy_yatCasched, if_neg Bool.false_ne_true,
      if_neg Bool.false_ne_true]
    exact rtPrio_niceToPrio_iff attr.schedNice
  rw [hpolicy]
  cases pi with
  | false => simp [hnormal]
  | true =>
      have hdonor : ∀ donor, ((k.updateTask p fun t =>
          { t with schedResetOnFork := f t }).task donor).prio = (k.task donor).prio := fun donor =>
        System.updateTask_task_apply k p donor (fun t => t.prio) fun _ => rfl
      rw [if_pos rfl, rtEffectivePrio, rtPrio_rtEffectivePrioOf, hnormal,
        System.updateTask_task_self]
      simp [hdonor, or_assoc]

/-- A call keeps the agreement exactly if it does not give a task with the
cache-aware policy a class from a normal priority. -/
theorem policyAgrees_schedSetscheduler_iff (hk : PolicyAgrees stop k) (env : SetschedulerEnv)
    (p : Pid) (attr : SchedAttr) (user pi : Bool) :
    PolicyAgrees stop (PolicyOp.step policies stop k (.schedSetscheduler env p attr user pi)) ↔
      PolicyOp.KeepsClass policies stop k (.schedSetscheduler env p attr user pi) := by
  have hmark : ∀ f : TaskStruct n → Bool, PolicyAgrees stop
      (k.updateTask p fun t => { t with schedResetOnFork := f t }) := by
    intro f
    apply hk.of_same
    intro q
    apply AgreesWithPolicy.congr
    all_goals exact System.updateTask_task_apply k p q _ fun _ => rfl
  unfold PolicyOp.step PolicyOp.KeepsClass Kernel.schedSetscheduler setschedulerApplies
  dsimp only
  split
  · rename_i hcheck
    apply iff_of_true hk
    intro _ happlies
    exact absurd happlies.1 hcheck
  · rename_i hcheck
    rw [not_not] at hcheck
    split
    · rename_i hstop
      apply iff_of_true hk
      intro _ happlies
      exact absurd hstop happlies.2.1
    · rename_i hstop
      split
      · rename_i hnothing
        dsimp only
        apply iff_of_true (hmark _)
        intro _ happlies
        rw [happlies.2.2.1] at hnothing
        cases hnothing
      · rename_i hnothing
        rw [Bool.not_eq_true] at hnothing
        split
        · rename_i hadmission
          apply iff_of_true hk
          intro _ happlies
          exact absurd happlies.2.2.2.1 hadmission
        · rename_i hadmission
          rw [not_not] at hadmission
          dsimp only
          rw [policyAgrees_setParams_iff (hmark _), System.updateTask_task_self]
          simp only [hcheck, hnothing, hadmission, ne_eq, hstop, not_false_eq_true, true_and]
          apply forall_congr'
          intro _
          apply forall_congr'
          intro _
          apply forall_congr'
          intro hpolicy
          apply rtPrio_newprio_iff
          unfold requestedPolicy
          rcases hpolicy with hpolicy | ⟨hown, hpolicy⟩
          · rw [hpolicy]
            rfl
          · rw [hown]
            exact hpolicy

/-- Which operations keep the agreement. -/
theorem policyAgrees_step_iff (hk : PolicyAgrees stop k) (op : PolicyOp) :
    PolicyAgrees stop (op.step policies stop k) ↔ op.KeepsClass policies stop k := by
  cases op with
  | schedFork current p => exact policyAgrees_schedFork_iff hk current p
  | schedSetscheduler env p attr user pi =>
      exact policyAgrees_schedSetscheduler_iff hk env p attr user pi
  | rtMutexSetprio p piTask => exact policyAgrees_rtMutexSetprio_iff hk p piTask
  | setUserNice p nice => exact iff_of_true (policyAgrees_setUserNice hk p nice) trivial

/-! ## Runs -/

/-- From a state where policies and classes agree, they agree after every step of
a run exactly if no step gives a task with the cache-aware policy a class from a
normal priority. -/
theorem policyAgrees_throughout_iff (policies : PolicyPredicates) (stop : Fin n → Option Pid)
    (k : System n) (hk : PolicyAgrees stop k) (ops : List PolicyOp) :
    Run.Throughout (PolicyOp.step policies stop) (PolicyAgrees stop) k ops ↔
      Run.Guarded (PolicyOp.step policies stop) (PolicyOp.KeepsClass policies stop) k ops := by
  apply @Run.throughout_iff_guarded _ _ (PolicyOp.step policies stop) (fun _ _ => True)
    (PolicyOp.KeepsClass policies stop) (fun _ => True)
  · intro _ _ _ _
    trivial
  · intro k op _ hk _
    exact policyAgrees_step_iff hk op
  · trivial
  · exact hk
  · apply Run.guarded_of_forall
    intro _ _
    trivial

/-- Policies as in the user interface, with {lit}`SCHED_YAT_CASCHED` added to the
valid ones. -/
def userPolicies : PolicyPredicates where
  validPolicy := fun policy => policy ∈ [0, 1, 2, 3, 5, 6, 8]
  fairPolicy := fun policy => policy ∈ [0, 3]
  rtPolicy := fun policy => policy ∈ [1, 2]
  dlPolicy := fun policy => policy = 6
  idlePolicy := fun policy => policy = 5
  validPolicy_yatCasched := rfl
  rtPolicy_yatCasched := rfl
  dlPolicy_yatCasched := rfl

/-- A caller with {lit}`CAP_SYS_NICE` that no other check refuses. -/
def privilegedCaller : SetschedulerEnv where
  rlimitNice := 0
  rlimitRtprio := 0
  checkSameOwner := true
  capable := true
  checkparamDl := true
  dlParamChanged := false
  securityTaskSetscheduler := 0
  uclampValidate := 0
  rtGroupWithoutRuntime := false
  dlNotAdmitted := false
  schedDlOverflow := false

/-- A policy and its real-time priority, nice 0, without flags. -/
def plainAttr (policy : Int) (priority : Nat) : SchedAttr where
  schedPolicy := policy
  schedFlags := 0
  schedNice := 0
  schedPriority := priority

/-- Policies and classes agree at boot. -/
theorem policyAgrees_bootSystem (stop : Fin 2 → Option Pid) :
    PolicyAgrees stop (bootSystem 2) := by
  intro p _
  rfl

/-- Task 7 becomes a real-time task, forks task 8 and is made a normal task
again. -/
theorem policyAgrees_throughout_realtime :
    Run.Throughout (PolicyOp.step userPolicies fun _ => none) (PolicyAgrees fun _ => none)
      (bootSystem 2)
      [.schedSetscheduler privilegedCaller 7 (plainAttr 1 50) true true, .schedFork 7 8,
        .schedSetscheduler privilegedCaller 7 (plainAttr 0 0) true true] := by
  apply (policyAgrees_throughout_iff userPolicies _ _ (policyAgrees_bootSystem _) _).mpr
  refine ⟨?_, ?_, ?_, trivial⟩
  · intro _ _ h
    exact absurd h (by decide)
  · intro _ h
    exact absurd h (by decide)
  · intro _ _ h
    exact absurd h (by decide)

/-- Task 7 asks for the cache-aware policy: the call returns 0 and the policy is
stored, but the class is the fair one. -/
theorem policyAgrees_lost :
    (schedSetscheduler userPolicies (fun _ => none) privilegedCaller (bootSystem 2) 7
        (plainAttr 8 0) true true).1 = 0 ∧
      ((schedSetscheduler userPolicies (fun _ => none) privilegedCaller (bootSystem 2) 7
        (plainAttr 8 0) true true).2.task 7).policy = 8 ∧
      ((schedSetscheduler userPolicies (fun _ => none) privilegedCaller (bootSystem 2) 7
        (plainAttr 8 0) true true).2.task 7).schedClass = .fair ∧
      ¬Run.Throughout (PolicyOp.step userPolicies fun _ => none) (PolicyAgrees fun _ => none)
        (bootSystem 2) [.schedSetscheduler privilegedCaller 7 (plainAttr 8 0) true true] := by
  refine ⟨by decide, by decide, by decide, ?_⟩
  intro h
  have hagrees : AgreesWithPolicy ((PolicyOp.step userPolicies (fun _ => none) (bootSystem 2)
      (.schedSetscheduler privilegedCaller 7 (plainAttr 8 0) true true)).task 7) := by
    apply h.1
    intro _ hstop
    cases hstop
  unfold AgreesWithPolicy at hagrees
  revert hagrees
  decide

end Kernel
end YatCasched
