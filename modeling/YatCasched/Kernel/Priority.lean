import YatCasched.Kernel.Dispatch

/-!
# Policies, priorities and classes

The functions of {lit}`core.c` that write a task's policy, its priorities and
its scheduling class: {lit}`sched_fork`, {lit}`__sched_setscheduler`,
{lit}`rt_mutex_setprio` and {lit}`set_user_nice`.

The predicates on policies come from a header outside of the repository and are
a parameter; so are the run queues' stop tasks and, for one call of
{lit}`__sched_setscheduler`, the answers of the functions it asks.  The idle
tasks are not named, so the branch for them is never taken.  Load weights,
utilisation clamps, deadline parameters and the hooks
{lit}`check_class_changed` calls, which for the cache-aware class are empty, are
left out; {lit}`rt_mutex_adjust_pi` is a call of {lit}`rt_mutex_setprio` that
follows.

Main results:

- Theorem {lit}`requeue_updateTask_apply`: what an assignment to a task on its
  run queue does.
- Theorem {lit}`resetOnFork_yatCasched`: what a reset does to the child of a task
  with the cache-aware policy.
-/

namespace YatCasched
namespace Kernel

open CircularList

variable {n : Nat}

/-! ## Priorities -/

/-- {lit}`dl_prio`: below {lit}`MAX_DL_PRIO`. -/
def dlPrio (prio : Int) : Bool :=
  prio < 0

/-- {lit}`rt_prio`: below {lit}`MAX_RT_PRIO`. -/
def rtPrio (prio : Int) : Bool :=
  prio < 100

/-- {lit}`NICE_TO_PRIO`, a sum of two {lit}`int`. -/
def niceToPrio (nice : Int) : Int :=
  (nice + 120).bmod (2 ^ 32)

/-- {lit}`PRIO_TO_NICE`, a difference of two {lit}`int`. -/
def prioToNice (prio : Int) : Int :=
  (prio - 120).bmod (2 ^ 32)

/-- {lit}`task_nice`. -/
def taskNice (t : TaskStruct n) : Int :=
  prioToNice t.staticPrio

/-- The predicates on policy numbers.  {lit}`SCHED_YAT_CASCHED`, 8, is a valid
policy and neither a real-time nor a deadline policy. -/
structure PolicyPredicates where
  validPolicy : Int → Bool
  fairPolicy : Int → Bool
  rtPolicy : Int → Bool
  dlPolicy : Int → Bool
  idlePolicy : Int → Bool
  validPolicy_yatCasched : validPolicy 8 = true
  rtPolicy_yatCasched : rtPolicy 8 = false
  dlPolicy_yatCasched : dlPolicy 8 = false

variable (policies : PolicyPredicates)

/-- {lit}`__normal_prio`. -/
def normalPrioOf (policy : Int) (rtPriority : Nat) (nice : Int) : Int :=
  if policies.dlPolicy policy then
    -1
  else if policies.rtPolicy policy then
    100 - 1 - rtPriority
  else
    niceToPrio nice

/-- {lit}`normal_prio`. -/
def normalPrio (t : TaskStruct n) : Int :=
  normalPrioOf policies t.policy t.rtPriority (prioToNice t.staticPrio)

/-- {lit}`effective_prio`: stores the normal priority and returns the effective
one. -/
def effectivePrio (t : TaskStruct n) : TaskStruct n × Int :=
  let t := { t with normalPrio := normalPrio policies t }
  (t, if !rtPrio t.prio then t.normalPrio else t.prio)

/-- The class {lit}`__setscheduler_prio` and {lit}`sched_fork` choose. -/
def classOfPrio (prio : Int) : SchedClass :=
  if dlPrio prio then .dl else if rtPrio prio then .rt else .fair

/-- {lit}`__setscheduler_prio`. -/
def setschedulerPrio (t : TaskStruct n) (prio : Int) : TaskStruct n :=
  { t with schedClass := classOfPrio prio, prio := prio }

/-! ## Fork -/

/-- The branch of {lit}`sched_fork` for {lit}`sched_reset_on_fork`. -/
def resetOnFork (t : TaskStruct n) : TaskStruct n :=
  let t :=
    if policies.dlPolicy t.policy || policies.rtPolicy t.policy then
      { t with policy := 0, staticPrio := niceToPrio 0, rtPriority := 0 }
    else if prioToNice t.staticPrio < 0 then
      { t with staticPrio := niceToPrio 0 }
    else
      t
  { t with prio := t.staticPrio, normalPrio := t.staticPrio, schedResetOnFork := false }

/-- The copy of the task {lit}`current` that {lit}`sched_fork` is called for.  It is made
outside of the repository: no other task has boosted it, and it has its own mask where
{lit}`current` has. -/
def dupTaskStruct (parent : TaskStruct n) (current p : Pid) : TaskStruct n :=
  { parent with
    piTopTask := none
    cpusPtr := if parent.cpusPtr = .cpusMask current then .cpusMask p else parent.cpusPtr }

/-- {lit}`sched_fork` by the task {lit}`current`. -/
def schedFork (k : System n) (current p : Pid) : Int × System n :=
  let parent := k.task current
  let k := schedForkYatCasched (k.updateTask p fun _ => dupTaskStruct parent current p) p
  let k := k.updateTask p fun t => { t with state := .new, prio := parent.normalPrio }
  let k := if (k.task p).schedResetOnFork then k.updateTask p (resetOnFork policies) else k
  if dlPrio (k.task p).prio then
    (-11, k)
  else if rtPrio (k.task p).prio then
    (0, k.updateTask p fun t => { t with schedClass := .rt })
  else
    (0, k.updateTask p fun t => { t with schedClass := .fair })

/-! ## Priority inheritance and nice values -/

/-- {lit}`__rt_effective_prio`. -/
def rtEffectivePrioOf (k : System n) (piTask : Option Pid) (prio : Int) : Int :=
  match piTask with
  | none => prio
  | some donor => min prio (k.task donor).prio

/-- {lit}`rt_effective_prio`. -/
def rtEffectivePrio (k : System n) (p : Pid) (prio : Int) : Int :=
  rtEffectivePrioOf k (k.task p).piTopTask prio

/-- {lit}`rt_mutex_setprio`. -/
def rtMutexSetprio (k : System n) (p : Pid) (piTask : Option Pid) : System n :=
  let prio := rtEffectivePrioOf k piTask (k.task p).normalPrio
  if (k.task p).piTopTask = piTask && prio = (k.task p).prio && !dlPrio prio then
    k
  else
    let k := k.updateTask p fun t => { t with piTopTask := piTask }
    if prio = (k.task p).prio && !dlPrio prio then
      k
    else
      requeue k p fun k => k.updateTask p fun t => setschedulerPrio t prio

/-- {lit}`set_user_nice`. -/
def setUserNice (k : System n) (p : Pid) (nice : Int) : System n :=
  if taskNice (k.task p) = nice || nice < -20 || nice > 19 then
    k
  else if policies.dlPolicy (k.task p).policy || policies.rtPolicy (k.task p).policy then
    k.updateTask p fun t => { t with staticPrio := niceToPrio nice }
  else
    requeue k p fun k => k.updateTask p fun t =>
      let t := { t with staticPrio := niceToPrio nice }
      { (effectivePrio policies t).1 with prio := (effectivePrio policies t).2 }

/-! ## Changing the policy -/

/-- {lit}`struct sched_attr`, as far as it is read here. -/
structure SchedAttr where
  schedPolicy : Int
  schedFlags : UInt64
  /-- A {lit}`__s32`. -/
  schedNice : Int32
  schedPriority : Nat

/-- {lit}`SCHED_FLAG_RESET_ON_FORK`. -/
def schedFlagResetOnFork : UInt64 := 0x01

/-- {lit}`SCHED_FLAG_KEEP_PARAMS`. -/
def schedFlagKeepParams : UInt64 := 0x10

/-- {lit}`SCHED_FLAG_UTIL_CLAMP`. -/
def schedFlagUtilClamp : UInt64 := 0x60

/-- {lit}`SCHED_FLAG_ALL`. -/
def schedFlagAll : UInt64 := 0x7f

/-- {lit}`SCHED_FLAG_SUGOV`. -/
def schedFlagSugov : UInt64 := 0x10000000

/-- Some of the flags are set. -/
def SchedAttr.hasFlag (attr : SchedAttr) (flags : UInt64) : Bool :=
  attr.schedFlags &&& flags ≠ 0

/-- What a call learns from code outside of the model: limits and credentials of
the caller, and the checks of other subsystems. -/
structure SetschedulerEnv where
  rlimitNice : Nat
  rlimitRtprio : Nat
  checkSameOwner : Bool
  capable : Bool
  checkparamDl : Bool
  dlParamChanged : Bool
  securityTaskSetscheduler : Int
  uclampValidate : Int
  /-- {lit}`CONFIG_RT_GROUP_SCHED`: the task's group has no runtime. -/
  rtGroupWithoutRuntime : Bool
  /-- The affinity or the bandwidth rules a deadline task out. -/
  dlNotAdmitted : Bool
  schedDlOverflow : Bool

/-- {lit}`is_nice_reduction`; the comparison is one of unsigned longs. -/
def isNiceReduction (env : SetschedulerEnv) (nice : Int) : Bool :=
  (20 - nice) % 2 ^ 64 ≤ (env.rlimitNice : Int)

/-- The request needs {lit}`CAP_SYS_NICE`. -/
def setschedulerNeedsPrivilege (env : SetschedulerEnv) (t : TaskStruct n) (attr : SchedAttr)
    (policy : Int) (resetOnFork : Bool) : Bool :=
  (policies.fairPolicy policy && attr.schedNice.toInt < taskNice t &&
      !isNiceReduction env attr.schedNice.toInt) ||
    (policies.rtPolicy policy && ((policy ≠ t.policy && env.rlimitRtprio = 0) ||
      (attr.schedPriority > t.rtPriority && attr.schedPriority > env.rlimitRtprio))) ||
    policies.dlPolicy policy ||
    (policies.idlePolicy t.policy && !policies.idlePolicy policy &&
      !isNiceReduction env (taskNice t)) ||
    !env.checkSameOwner ||
    (t.schedResetOnFork && !resetOnFork)

/-- {lit}`user_check_sched_setscheduler`. -/
def userCheckSchedSetscheduler (env : SetschedulerEnv) (t : TaskStruct n) (attr : SchedAttr)
    (policy : Int) (resetOnFork : Bool) : Int :=
  if setschedulerNeedsPrivilege policies env t attr policy resetOnFork && !env.capable then
    -1
  else
    0

/-- {lit}`__setscheduler_params`. -/
def setschedulerParams (t : TaskStruct n) (attr : SchedAttr) : TaskStruct n :=
  let policy := if attr.schedPolicy = -1 then t.policy else attr.schedPolicy
  let t := { t with policy := policy }
  let t :=
    if !policies.dlPolicy policy && policies.fairPolicy policy then
      { t with staticPrio := niceToPrio attr.schedNice.toInt }
    else
      t
  let t := { t with rtPriority := attr.schedPriority }
  { t with normalPrio := normalPrio policies t }

/-- The policy a call asks for; a negative one stands for the task's own. -/
def requestedPolicy (t : TaskStruct n) (attr : SchedAttr) : Int :=
  if attr.schedPolicy < 0 then t.policy else attr.schedPolicy

/-- The value a call asks for in {lit}`sched_reset_on_fork`. -/
def requestedResetOnFork (t : TaskStruct n) (attr : SchedAttr) : Bool :=
  if attr.schedPolicy < 0 then t.schedResetOnFork else attr.hasFlag schedFlagResetOnFork

/-- The checks of {lit}`__sched_setscheduler` before the run queue is locked:
zero, or the error. -/
def setschedulerCheck (env : SetschedulerEnv) (t : TaskStruct n) (attr : SchedAttr)
    (user : Bool) : Int :=
  let policy := requestedPolicy t attr
  if 0 ≤ attr.schedPolicy && !policies.validPolicy policy then
    -22
  else if attr.hasFlag (~~~(schedFlagAll ||| schedFlagSugov)) then
    -22
  else if attr.schedPriority > 100 - 1 then
    -22
  else if (policies.dlPolicy policy && !env.checkparamDl) ||
      (policies.rtPolicy policy ≠ (attr.schedPriority ≠ 0 : Bool)) then
    -22
  else if user && userCheckSchedSetscheduler policies env t attr policy
      (requestedResetOnFork t attr) ≠ 0 then
    userCheckSchedSetscheduler policies env t attr policy (requestedResetOnFork t attr)
  else if user && attr.hasFlag schedFlagSugov then
    -22
  else if user && env.securityTaskSetscheduler ≠ 0 then
    env.securityTaskSetscheduler
  else if attr.hasFlag schedFlagUtilClamp then
    env.uclampValidate
  else
    0

/-- The call asks for what the task has already. -/
def nothingToChange (env : SetschedulerEnv) (t : TaskStruct n) (attr : SchedAttr) : Bool :=
  let policy := requestedPolicy t attr
  policy = t.policy &&
    !((policies.fairPolicy policy && attr.schedNice.toInt ≠ taskNice t) ||
      (policies.rtPolicy policy && attr.schedPriority ≠ t.rtPriority) ||
      (policies.dlPolicy policy && env.dlParamChanged) ||
      attr.hasFlag schedFlagUtilClamp)

/-- The checks before a change: zero, or the error. -/
def setschedulerAdmission (env : SetschedulerEnv) (t : TaskStruct n) (attr : SchedAttr)
    (user : Bool) : Int :=
  let policy := requestedPolicy t attr
  if user && policies.rtPolicy policy && env.rtGroupWithoutRuntime then
    -1
  else if user && policies.dlPolicy policy && !attr.hasFlag schedFlagSugov &&
      env.dlNotAdmitted then
    -1
  else if (policies.dlPolicy policy || dlPrio t.prio) && env.schedDlOverflow then
    -16
  else
    0

/-- {lit}`__sched_setscheduler`. -/
def schedSetscheduler (stop : Fin n → Option Pid) (env : SetschedulerEnv) (k : System n)
    (p : Pid) (attr : SchedAttr) (user pi : Bool) : Int × System n :=
  let t := k.task p
  if setschedulerCheck policies env t attr user ≠ 0 then
    (setschedulerCheck policies env t attr user, k)
  else if stop t.cpu = some p then
    (-22, k)
  else if nothingToChange policies env t attr then
    (0, k.updateTask p fun t => { t with schedResetOnFork := requestedResetOnFork t attr })
  else if setschedulerAdmission policies env t attr user ≠ 0 then
    (setschedulerAdmission policies env t attr user, k)
  else
    let k := k.updateTask p fun t => { t with schedResetOnFork := requestedResetOnFork t attr }
    let newprio :=
      normalPrioOf policies (requestedPolicy t attr) attr.schedPriority attr.schedNice.toInt
    let newprio := if pi then rtEffectivePrio k p newprio else newprio
    (0, requeue k p fun k => k.updateTask p fun t =>
      if attr.hasFlag schedFlagKeepParams then
        t
      else
        setschedulerPrio (setschedulerParams policies t attr) newprio)

/-! ## What the functions do to policy, priority and class -/

variable {policies}

/-- A deadline priority is also a real-time one. -/
theorem dlPrio_of_not_rtPrio {prio : Int} (h : rtPrio prio = false) : dlPrio prio = false := by
  unfold rtPrio at h
  unfold dlPrio
  rw [decide_eq_false_iff_not] at h ⊢
  omega

/-- A normal priority stands for the fair class. -/
theorem classOfPrio_of_not_rtPrio {prio : Int} (h : rtPrio prio = false) :
    classOfPrio prio = .fair := by
  unfold classOfPrio
  rw [dlPrio_of_not_rtPrio h, h]
  rfl

/-- The sum of a nice value and 120, if it is an {lit}`int`. -/
theorem niceToPrio_eq {nice : Int} (hlow : -2 ^ 31 ≤ nice + 120) (hhigh : nice + 120 < 2 ^ 31) :
    niceToPrio nice = nice + 120 := by
  apply Int.bmod_eq_of_le
  · omega
  · omega

theorem prioToNice_eq {prio : Int} (hlow : -2 ^ 31 ≤ prio - 120) (hhigh : prio - 120 < 2 ^ 31) :
    prioToNice prio = prio - 120 := by
  apply Int.bmod_eq_of_le
  · omega
  · omega

/-- A nice value has a real-time priority exactly if it is below -20, or so large that the
sum wraps. -/
theorem rtPrio_niceToPrio_iff (nice : Int32) :
    rtPrio (niceToPrio nice.toInt) = true ↔
      nice.toInt < -20 ∨ 2 ^ 31 - 120 ≤ nice.toInt := by
  have hlow := nice.le_toInt
  have hhigh := nice.toInt_lt
  unfold rtPrio niceToPrio
  rw [decide_eq_true_eq, Int.bmod_eq_emod]
  split
  · omega
  · omega

/-- The priorities of the nice values that users set are normal ones. -/
theorem rtPrio_niceToPrio {nice : Int} (hlow : -20 ≤ nice) (hhigh : nice ≤ 19) :
    rtPrio (niceToPrio nice) = false := by
  rw [niceToPrio_eq (by omega) (by omega)]
  unfold rtPrio
  rw [decide_eq_false_iff_not]
  omega

/-- The effective priority of a task with a normal policy: a boost to real-time
priority stays, otherwise it is the static priority. -/
theorem effectivePrio_snd {t : TaskStruct n} (hdl : policies.dlPolicy t.policy = false)
    (hrt : policies.rtPolicy t.policy = false) (hlow : -2 ^ 31 ≤ t.staticPrio - 120)
    (hhigh : t.staticPrio < 2 ^ 31) :
    (effectivePrio policies t).2 = if rtPrio t.prio then t.prio else t.staticPrio := by
  have hnormal : normalPrio policies t = t.staticPrio := by
    unfold normalPrio normalPrioOf
    rw [hdl, hrt, if_neg Bool.false_ne_true, if_neg Bool.false_ne_true,
      prioToNice_eq hlow (by omega), niceToPrio_eq (by omega) (by omega)]
    omega
  unfold effectivePrio
  dsimp only
  rw [hnormal]
  cases rtPrio t.prio with
  | true => rfl
  | false => rfl

/-- An assignment to a task on its run queue has the effect of the assignment,
run times and class data apart. -/
theorem requeue_updateTask_apply {β : Type*} (k : System n) (p q : Pid)
    {f : TaskStruct n → TaskStruct n} (g : TaskStruct n → β)
    (hg : ∀ t se yat, g { t with se := se, yatCasched := yat } = g t)
    (hf : ∀ t se yat, ∃ se' yat',
      f { t with se := se, yatCasched := yat } = { f t with se := se', yatCasched := yat' }) :
    g ((requeue k p fun k => k.updateTask p f).task q) = g ((k.updateTask p f).task q) := by
  have hframe : OnlyAccounting (k.updateTask p f) (requeue k p fun k => k.updateTask p f) := by
    apply @onlyAccounting_requeue n k p fun k => k.updateTask p f
    intro k' h
    exact h.updateBoth p hf
  exact hframe.apply q g hg

/-- The parameters a call stores, and the class it chooses, do not depend on run
times and class data. -/
theorem setschedulerParams_frame (t : TaskStruct n) (attr : SchedAttr) (se : SchedEntity)
    (yat : SchedYatCaschedEntity) :
    setschedulerParams policies { t with se := se, yatCasched := yat } attr =
      { setschedulerParams policies t attr with se := se, yatCasched := yat } := by
  unfold setschedulerParams normalPrio
  dsimp only
  split_ifs
  all_goals rfl

@[simp]
theorem setschedulerParams_policy (t : TaskStruct n) (attr : SchedAttr) :
    (setschedulerParams policies t attr).policy =
      if attr.schedPolicy = -1 then t.policy else attr.schedPolicy := by
  unfold setschedulerParams
  dsimp only
  split_ifs
  all_goals rfl

/-- The child of a task with the cache-aware policy keeps the policy.  If it is reset, its
priority is a normal one, unless the static priority is so low that {lit}`PRIO_TO_NICE`
wraps. -/
theorem resetOnFork_yatCasched {t : TaskStruct n} (ht : t.policy = 8) :
    (resetOnFork policies t).policy = 8 ∧
      (rtPrio (resetOnFork policies t).prio = true ↔
        0 ≤ prioToNice t.staticPrio ∧ rtPrio t.staticPrio = true) := by
  have hpolicy : (policies.dlPolicy t.policy || policies.rtPolicy t.policy) = false := by
    rw [ht, policies.dlPolicy_yatCasched, policies.rtPolicy_yatCasched]
    rfl
  unfold resetOnFork
  dsimp only
  rw [if_neg (by rw [hpolicy]; exact Bool.false_ne_true)]
  by_cases hnice : prioToNice t.staticPrio < 0
  · rw [if_pos hnice]
    have hzero : ¬rtPrio (niceToPrio 0) = true := by decide
    exact ⟨ht, iff_of_false hzero fun h => absurd h.1 (not_le.mpr hnice)⟩
  · rw [if_neg hnice]
    exact ⟨ht, (and_iff_right (not_lt.mp hnice)).symm⟩

/-- No reset turns another policy into the cache-aware one. -/
theorem resetOnFork_policy_ne {t : TaskStruct n} (ht : t.policy ≠ 8) :
    (resetOnFork policies t).policy ≠ 8 := by
  unfold resetOnFork
  dsimp only
  split_ifs
  · exact fun h : (0 : Int) = 8 => absurd h (by omega)
  · exact ht
  · exact ht

end Kernel
end YatCasched
