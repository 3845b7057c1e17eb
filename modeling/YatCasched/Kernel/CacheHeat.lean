import YatCasched.Kernel.CpuChoice
import YatCasched.Kernel.Operations

/-!
# Cache heat

The header of {lit}`yat_casched.c` and the README of the scheduler give three cases for
the choice of a CPU: a task that has not run stays where it is, a task that ran within
the last {lit}`YAT_CACHE_HOT_TIME` returns to its CPU, and a task whose cache has gone
cold is placed on the CPU with the lightest load.  {lit}`YAT_CACHE_HOT_TIME` is not used,
and a task returns to its CPU in the third case as in the second.

A history beside the scheduler counts the jiffies since each task was last running.

Main results:

- Theorem {lit}`Aged.sinceRan_of_current`: a running task last ran zero jiffies ago.
- Theorem {lit}`placedByHeat_iff`: the placements that agree with the documented cases.
-/

namespace YatCasched
namespace Kernel

open CircularList

variable {n : Nat}

/-! ## Time -/

/-- {lit}`YAT_CACHE_HOT_TIME`. -/
def yatCacheHotTime (k : System n) : UInt64 :=
  k.hz / 100

/-- One timer interrupt: {lit}`jiffies` goes up by one. -/
def jiffy (k : System n) : System n :=
  { k with jiffies := k.jiffies + 1 }

/-- An event of a run in time. -/
inductive AgedOp (n : Nat)
  /-- A call into the class. -/
  | call (op : YatOp n)
  /-- A timer interrupt. -/
  | jiffy

/-- The task is {lit}`rq->curr` of some CPU. -/
def Current (k : System n) (p : Pid) : Prop :=
  ∃ c, (k.rq c).curr = some p

instance (k : System n) (p : Pid) : Decidable (Current k p) :=
  inferInstanceAs (Decidable (∃ c, (k.rq c).curr = some p))

/-- The scheduler with the number of jiffies since each task was last running, for the
tasks that ran since their fork. -/
structure Aged (n : Nat) where
  sys : System n
  sinceRan : Pid → Option Nat

/-- The task an operation forks. -/
def YatOp.forked? : YatOp n → Option Pid
  | .schedFork p => some p
  | _ => none

/-- A history that begins with a given state. -/
def Aged.start (k : System n) : Aged n where
  sys := k
  sinceRan p := if Current k p then some 0 else none

/-- An event and its effect on the history. -/
def Aged.step (s : Aged n) : AgedOp n → Aged n
  | .call op =>
      { sys := op.step s.sys
        sinceRan := fun p =>
          if Current (op.step s.sys) p then some 0
          else if op.forked? = some p then none
          else s.sinceRan p }
  | .jiffy =>
      { sys := Kernel.jiffy s.sys
        sinceRan := fun p =>
          if Current s.sys p then some 0 else (s.sinceRan p).map (· + 1) }

/-- The run of a list of events. -/
def Aged.run (k : System n) (ops : List (AgedOp n)) : Aged n :=
  ops.foldl Aged.step (Aged.start k)

/-- What the callers guarantee about the lists. -/
def Aged.Legal (s : Aged n) : AgedOp n → Prop
  | .call op => op.Legal s.sys
  | .jiffy => True

/-- A running task last ran zero jiffies ago. -/
theorem Aged.sinceRan_of_current (k : System n) (ops : List (AgedOp n)) (p : Pid)
    (hcurrent : Current (Aged.run k ops).sys p) : (Aged.run k ops).sinceRan p = some 0 := by
  cases ops using List.reverseRecOn with
  | nil => exact if_pos hcurrent
  | append_singleton ops op =>
      unfold Aged.run at hcurrent ⊢
      rw [List.foldl_append] at hcurrent ⊢
      cases op with
      | call op => exact if_pos hcurrent
      | jiffy => exact if_pos hcurrent

/-! ## The documented placement -/

/-- The task ran within the last {lit}`YAT_CACHE_HOT_TIME`. -/
def Aged.Hot (s : Aged n) (p : Pid) : Prop :=
  ∃ d, s.sinceRan p = some d ∧ d ≤ (yatCacheHotTime s.sys).toNat

/-- The task ran longer ago than {lit}`YAT_CACHE_HOT_TIME`. -/
def Aged.Cold (s : Aged n) (p : Pid) : Prop :=
  ∃ d, s.sinceRan p = some d ∧ (yatCacheHotTime s.sys).toNat < d

/-- The CPU is online and allowed and no other such CPU has fewer tasks of the class. -/
def LeastLoaded (k : System n) (p : Pid) (cpu : Fin n) : Prop :=
  cpu ∈ candidates k (k.task p).cpusMask ∧
    ∀ d ∈ candidates k (k.task p).cpusMask, yatLoad k cpu ≤ yatLoad k d

/-- The documented cases for a task whose last CPU {lit}`c` is online and allowed: while
the cache is hot it is placed on {lit}`c`, and once the cache is cold and some CPU has
fewer tasks, on a CPU with the fewest. -/
def PlacedByHeat (s : Aged n) (p : Pid) (c cpu : Fin n) : Prop :=
  (s.Hot p → cpu = c) ∧
    (s.Cold p →
      (∃ d ∈ candidates s.sys (s.sys.task p).cpusMask, yatLoad s.sys d < yatLoad s.sys c) →
      LeastLoaded s.sys p cpu)

/-- In every state a run reaches, the placement of a task whose last CPU is online and
allowed agrees with the documented cases exactly if its cache has not gone cold or no
online and allowed CPU has fewer tasks than its last one. -/
theorem placedByHeat_iff (k : System n) (ops : List (AgedOp n)) (p : Pid) (taskCpu c : Fin n)
    (hhome : ReturnsHome (Aged.run k ops).sys p c) :
    PlacedByHeat (Aged.run k ops) p c
        (selectTaskRqYatCasched (Aged.run k ops).sys p taskCpu).2 ↔
      ¬(Aged.run k ops).Cold p ∨ LeastLoaded (Aged.run k ops).sys p c := by
  rw [selectTaskRqYatCasched_home hhome]
  constructor
  · intro hplaced
    by_cases hcold : (Aged.run k ops).Cold p
    · refine .inr ⟨hhome.2, fun d hd => ?_⟩
      by_contra hlighter
      -- a lighter CPU would have to be taken, and the last one is not the lightest
      have hleast := hplaced.2 hcold ⟨d, hd, not_le.mp hlighter⟩
      exact hlighter (hleast.2 d hd)
    · exact .inl hcold
  · intro h
    refine ⟨fun _ => rfl, fun hcold hlighter => ?_⟩
    rcases h with hnot | hleast
    · exact absurd hcold hnot
    · exact hleast

/-- Calls alone are legal in time as they are without it. -/
theorem guarded_map_call (s : Aged n) (ops : List (YatOp n)) :
    Run.Guarded Aged.step Aged.Legal s (ops.map .call) ↔
      Run.Guarded YatOp.step YatOp.Legal s.sys ops := by
  induction ops generalizing s with
  | nil => simp
  | cons op ops ih =>
      rw [List.map_cons, Run.guarded_cons, Run.guarded_cons, ih]
      rfl

/-- Time alone is always legal. -/
theorem guarded_replicate_jiffy (s : Aged n) (m : Nat) :
    Run.Guarded Aged.step Aged.Legal s (List.replicate m .jiffy) := by
  induction m generalizing s with
  | zero => trivial
  | succ m ih => exact ⟨trivial, ih _⟩

/-- Task 7 runs on CPU 0 and sleeps, task 8 takes its place, and some jiffies pass. -/
def sleepsFor (m : Nat) : List (AgedOp 2) :=
  [YatOp.enqueueTask 0 7, .schedule 0, .dequeueTask 0 7, .enqueueTask 0 8,
      .schedule 0].map AgedOp.call ++ List.replicate m .jiffy

/-- After 5 jiffies, with 10 to a hot cache, task 7 is placed as documented. -/
theorem placedByHeat_iff_hot :
    PlacedByHeat (Aged.run (initYatCaschedRqs (yatCaschedBootSystem 2)) (sleepsFor 5)) 7 0
      (selectTaskRqYatCasched
        (Aged.run (initYatCaschedRqs (yatCaschedBootSystem 2)) (sleepsFor 5)).sys 7 0).2 := by
  have hhome : ReturnsHome
      (Aged.run (initYatCaschedRqs (yatCaschedBootSystem 2)) (sleepsFor 5)).sys 7 0 :=
    ⟨rfl, by decide⟩
  apply (placedByHeat_iff (initYatCaschedRqs (yatCaschedBootSystem 2)) (sleepsFor 5) 7 0 0
    hhome).mpr
  refine .inl ?_
  rintro ⟨d, hd, hlt⟩
  have hsince : some d = some 5 := hd.symm
  cases hsince
  exact absurd hlt (by decide)

/-- After 11 jiffies its cache is cold and CPU 1 has no task of the class, and it is
still placed on CPU 0, where task 8 is queued. -/
theorem coldTask_returnsHome :
    Run.Guarded Aged.step Aged.Legal
        (Aged.start (initYatCaschedRqs (yatCaschedBootSystem 2))) (sleepsFor 11) ∧
      ReturnsHome (Aged.run (initYatCaschedRqs (yatCaschedBootSystem 2)) (sleepsFor 11)).sys
        7 0 ∧
      ¬PlacedByHeat (Aged.run (initYatCaschedRqs (yatCaschedBootSystem 2)) (sleepsFor 11)) 7 0
        (selectTaskRqYatCasched
          (Aged.run (initYatCaschedRqs (yatCaschedBootSystem 2)) (sleepsFor 11)).sys 7 0).2 := by
  have hinit := represents_initYatCaschedRqs (k := yatCaschedBootSystem 2)
    fun p => ⟨⟨rfl, rfl⟩, by simp⟩
  refine ⟨?_, ⟨rfl, by decide⟩, ?_⟩
  · apply Run.guarded_append.mpr
    refine ⟨(guarded_map_call _ _).mpr ?_, guarded_replicate_jiffy _ 11⟩
    exact (hinit.guarded_iff _).mpr (by decide)
  · intro hplaced
    have hleast := hplaced.2 ⟨11, rfl, by decide⟩ ⟨1, by decide, by decide⟩
    exact absurd (hleast.2 1 (by decide)) (by decide)

end Kernel
end YatCasched
