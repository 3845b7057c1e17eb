import YatCasched.Lib.FirstBest
import YatCasched.Kernel.Hooks

/-!
# The choice of a CPU

{lit}`select_task_rq_yat_casched` has three branches: a task without a recorded CPU
stays where it is and has that CPU recorded, a task whose recorded CPU is online and
allowed returns to it, and for any other task the search takes the CPU with the fewest
tasks of the class among those that are online and allowed.

The search is the first-best scan of these CPUs with the number of tasks, read
backwards, as the score.

Main results:

- Theorem {lit}`lightestCpu_isLightest`: what the search finds.
- Theorem {lit}`selectTaskRqYatCasched_recorded`: the choice for a task with a recorded
  CPU.
- Theorem {lit}`selectTaskRqYatCasched_usable_iff`: when the choice is an online and
  allowed CPU.
-/

namespace YatCasched
namespace Kernel

variable {n : Nat}

/-! ## The candidates -/

/-- The CPUs of a mask that are online. -/
def candidates (k : System n) (mask : Finset (Fin n)) : Finset (Fin n) :=
  mask ∩ k.cpuOnline

/-- The number of tasks of the class on a CPU, as the search reads it. -/
def yatLoad (k : System n) (cpu : Fin n) : Nat :=
  (k.rq cpu).yatCasched.nrRunning.toNat

/-- A CPU of the set with the fewest tasks of the class, and the first such CPU. -/
structure IsLightest (k : System n) (cpus : Finset (Fin n)) (cpu : Fin n) : Prop where
  mem : cpu ∈ cpus
  le : ∀ d ∈ cpus, yatLoad k cpu ≤ yatLoad k d
  lt : ∀ d ∈ cpus, d < cpu → yatLoad k cpu < yatLoad k d

/-- The number of tasks is an {lit}`unsigned int`, below {lit}`ULONG_MAX`. -/
theorem yatLoad_lt (k : System n) (cpu : Fin n) : yatLoad k cpu < 2 ^ 64 - 1 := by
  have hlt := (k.rq cpu).yatCasched.nrRunning.toNat_lt
  unfold yatLoad
  omega

theorem mem_candidates {k : System n} {mask : Finset (Fin n)} {cpu : Fin n} :
    cpu ∈ candidates k mask ↔ cpu ∈ mask ∧ cpu ∈ k.cpuOnline :=
  Finset.mem_inter

/-- There is only one lightest CPU. -/
theorem IsLightest.unique {k : System n} {cpus : Finset (Fin n)} {cpu cpu' : Fin n}
    (h : IsLightest k cpus cpu) (h' : IsLightest k cpus cpu') : cpu = cpu' := by
  rcases lt_trichotomy cpu cpu' with hlt | heq | hgt
  · exact absurd (h'.lt cpu h.mem hlt) (not_lt.mpr (h.le cpu' h'.mem))
  · exact heq
  · exact absurd (h.lt cpu' h'.mem hgt) (not_lt.mpr (h'.le cpu h.mem))

/-! ## The search -/

/-- The state of the search for a state of the scan. -/
def searchState (taskCpu : Fin n) (best : Option (Fin n) × Natᵒᵈ) : Nat × Fin n :=
  (OrderDual.ofDual best.2, best.1.getD taskCpu)

/-- The score of a CPU: fewer tasks are better. -/
def lightness (k : System n) (cpu : Fin n) : Natᵒᵈ :=
  OrderDual.toDual (yatLoad k cpu)

/-- The online CPUs of a mask, in the order of the search. -/
def searchOrder (k : System n) (mask : Finset (Fin n)) : List (Fin n) :=
  (forEachCpu mask).filter (· ∈ k.cpuOnline)

/-- The scan that the search makes. -/
def lightestScan (k : System n) (mask : Finset (Fin n)) : Option (Fin n) × Natᵒᵈ :=
  FirstBest.scan (lightness k) (OrderDual.toDual (2 ^ 64 - 1)) (searchOrder k mask)

theorem mem_searchOrder {k : System n} {mask : Finset (Fin n)} {cpu : Fin n} :
    cpu ∈ searchOrder k mask ↔ cpu ∈ candidates k mask := by
  simp [searchOrder, mem_forEachCpu, mem_candidates]

theorem searchOrder_pairwise (k : System n) (mask : Finset (Fin n)) :
    (searchOrder k mask).Pairwise (· < ·) :=
  ((List.pairwise_lt_finRange n).filter _).filter _

/-- A round of the search is a round of the scan that skips the CPUs that are not
online. -/
theorem lightestCpuStep_searchState (k : System n) (taskCpu : Fin n)
    (best : Option (Fin n) × Natᵒᵈ) (cpu : Fin n) :
    lightestCpuStep k (searchState taskCpu best) cpu =
      searchState taskCpu
        (if decide (cpu ∈ k.cpuOnline) then FirstBest.step (lightness k) best cpu
          else best) := by
  by_cases hcpu : cpu ∈ k.cpuOnline
  · have hround : lightestCpuStep k (searchState taskCpu best) cpu =
        if best.2 < lightness k cpu then (yatLoad k cpu, cpu)
        else searchState taskCpu best :=
      if_neg (not_not.mpr hcpu)
    rw [hround, if_pos (decide_eq_true hcpu), FirstBest.step]
    split <;> rfl
  · simp [lightestCpuStep, hcpu]

/-- The search is the scan of the online CPUs of the mask. -/
theorem lightestCpu_eq_scan (k : System n) (mask : Finset (Fin n)) (taskCpu : Fin n) :
    lightestCpu k mask taskCpu = (lightestScan k mask).1.getD taskCpu := by
  have hrounds : (forEachCpu mask).foldl (lightestCpuStep k)
      (searchState taskCpu (none, OrderDual.toDual (2 ^ 64 - 1))) =
        searchState taskCpu (lightestScan k mask) := by
    unfold lightestScan FirstBest.scan searchOrder
    rw [List.foldl_filter]
    exact List.foldl_hom (searchState taskCpu) (lightestCpuStep_searchState k taskCpu)
  exact congrArg Prod.snd hrounds

/-- Where there is a candidate, the search finds the lightest one. -/
theorem lightestCpu_isLightest (k : System n) (mask : Finset (Fin n)) (taskCpu : Fin n)
    (hne : (candidates k mask).Nonempty) :
    IsLightest k (candidates k mask) (lightestCpu k mask taskCpu) := by
  have hbest := (FirstBest.scan_spec (lightness k) (OrderDual.toDual (2 ^ 64 - 1))
    (searchOrder k mask)).1
  rcases hne with ⟨d, hd⟩
  have hbeats : OrderDual.toDual (2 ^ 64 - 1) < lightness k d := yatLoad_lt k d
  rcases hbest.exists_of_lt (mem_searchOrder.mpr hd) hbeats with ⟨cpu, hcpu⟩
  rw [hcpu] at hbest
  have hchosen : lightestCpu k mask taskCpu = cpu := by
    rw [lightestCpu_eq_scan, lightestScan, hcpu]
    rfl
  rw [hchosen]
  constructor
  case mem => exact mem_searchOrder.mp hbest.mem
  case le =>
    intro e he
    exact hbest.le (mem_searchOrder.mpr he)
  case lt =>
    intro e he hlt
    exact hbest.lt_of_lt (searchOrder_pairwise k mask) (mem_searchOrder.mpr he) hlt

/-- Where there is none, the search keeps the CPU it was given. -/
theorem lightestCpu_of_candidates_empty (k : System n) (mask : Finset (Fin n))
    (taskCpu : Fin n) (hempty : ¬(candidates k mask).Nonempty) :
    lightestCpu k mask taskCpu = taskCpu := by
  have hnil : searchOrder k mask = [] := by
    apply List.eq_nil_iff_forall_not_mem.mpr
    intro d hd
    exact hempty ⟨d, mem_searchOrder.mp hd⟩
  rw [lightestCpu_eq_scan, lightestScan, hnil]
  rfl

/-! ## The three branches -/

/-- {lit}`last_cpu` is -1 or too large: the first branch is taken. -/
def Unrecorded (k : System n) (p : Pid) : Prop :=
  (k.task p).yatCasched.lastCpu = -1 ∨ (n : Int) ≤ (k.task p).yatCasched.lastCpu

instance (k : System n) (p : Pid) : Decidable (Unrecorded k p) :=
  inferInstanceAs (Decidable (_ ∨ _))

/-- {lit}`last_cpu` names an online and allowed CPU: the second branch is taken. -/
def ReturnsHome (k : System n) (p : Pid) (c : Fin n) : Prop :=
  (k.task p).yatCasched.lastCpu = (c : Nat) ∧ c ∈ candidates k (k.task p).cpusMask

theorem cpuOfInt_natCast (c : Fin n) : cpuOfInt n ((c : Nat) : Int) = some c := by
  have hrange : (0 : Int) ≤ (c : Nat) ∧ ((c : Nat) : Int) < n := by omega
  simp [cpuOfInt, hrange]

theorem eq_of_cpuOfInt {cpu : Int} {c : Fin n} (h : cpuOfInt n cpu = some c) :
    cpu = (c : Nat) := by
  unfold cpuOfInt at h
  split at h
  · rename_i hrange
    cases h
    simp only
    omega
  · cases h

/-- Without a recorded CPU the task stays where it is and has that CPU recorded. -/
theorem selectTaskRqYatCasched_unrecorded {k : System n} {p : Pid} (h : Unrecorded k p)
    (taskCpu : Fin n) :
    selectTaskRqYatCasched k p taskCpu =
      (k.updateTask p fun t =>
        { t with yatCasched := { t.yatCasched with lastCpu := (taskCpu : Nat) } }, taskCpu) :=
  if_pos h

/-- A task whose recorded CPU is online and allowed returns to it. -/
theorem selectTaskRqYatCasched_home {k : System n} {p : Pid} {c : Fin n}
    (h : ReturnsHome k p c) (taskCpu : Fin n) :
    selectTaskRqYatCasched k p taskCpu = (k, c) := by
  rcases h with ⟨hlast, hc⟩
  have hrecorded : ¬(((c : Nat) : Int) = -1 ∨ (n : Int) ≤ (c : Nat)) := by omega
  have husable := (mem_candidates.mp hc).symm
  unfold selectTaskRqYatCasched
  simp only [hlast, cpuOfInt_natCast, if_neg hrecorded, if_pos husable]

/-- For any other task the CPU is searched. -/
theorem selectTaskRqYatCasched_search {k : System n} {p : Pid} (hrecorded : ¬Unrecorded k p)
    (haway : ∀ c, ¬ReturnsHome k p c) (taskCpu : Fin n) :
    selectTaskRqYatCasched k p taskCpu =
      (k, lightestCpu k (k.task p).cpusMask taskCpu) := by
  unfold Unrecorded at hrecorded
  unfold selectTaskRqYatCasched
  simp only [if_neg hrecorded]
  split
  · rename_i c hc
    rw [if_neg]
    intro husable
    exact haway c ⟨eq_of_cpuOfInt hc, mem_candidates.mpr husable.symm⟩
  · rfl

/-- The two branches of a task with a recorded CPU. -/
theorem selectTaskRqYatCasched_cases {k : System n} {p : Pid} (hrecorded : ¬Unrecorded k p)
    (taskCpu : Fin n) :
    (∃ c, ReturnsHome k p c ∧ selectTaskRqYatCasched k p taskCpu = (k, c)) ∨
      ((∀ c, ¬ReturnsHome k p c) ∧
        selectTaskRqYatCasched k p taskCpu =
          (k, lightestCpu k (k.task p).cpusMask taskCpu)) := by
  by_cases hhome : ∃ c, ReturnsHome k p c
  · rcases hhome with ⟨c, hc⟩
    exact .inl ⟨c, hc, selectTaskRqYatCasched_home hc taskCpu⟩
  · have haway := not_exists.mp hhome
    exact .inr ⟨haway, selectTaskRqYatCasched_search hrecorded haway taskCpu⟩

/-- The choice for a task with a recorded CPU. -/
theorem selectTaskRqYatCasched_recorded (k : System n) (p : Pid) (taskCpu : Fin n) {c : Fin n}
    (hlast : (k.task p).yatCasched.lastCpu = (c : Nat)) :
    (selectTaskRqYatCasched k p taskCpu).1 = k ∧
      (c ∈ k.cpuOnline ∧ c ∈ (k.task p).cpusMask →
        (selectTaskRqYatCasched k p taskCpu).2 = c) ∧
      (¬(c ∈ k.cpuOnline ∧ c ∈ (k.task p).cpusMask) →
        (candidates k (k.task p).cpusMask).Nonempty →
        IsLightest k (candidates k (k.task p).cpusMask)
          (selectTaskRqYatCasched k p taskCpu).2) ∧
      (¬(c ∈ k.cpuOnline ∧ c ∈ (k.task p).cpusMask) →
        ¬(candidates k (k.task p).cpusMask).Nonempty →
        (selectTaskRqYatCasched k p taskCpu).2 = taskCpu) := by
  have hrecorded : ¬Unrecorded k p := by
    unfold Unrecorded
    omega
  have haway : ¬(c ∈ k.cpuOnline ∧ c ∈ (k.task p).cpusMask) → ∀ d, ¬ReturnsHome k p d := by
    intro husable d hd
    have hdc : d = c := by
      have hsame := hd.1.symm.trans hlast
      omega
    subst hdc
    exact husable (mem_candidates.mp hd.2).symm
  refine ⟨selectTaskRqYatCasched_fst_of_recorded k p taskCpu hlast, ?_, ?_, ?_⟩
  · intro husable
    rw [selectTaskRqYatCasched_home ⟨hlast, mem_candidates.mpr husable.symm⟩]
  · intro husable hne
    rw [selectTaskRqYatCasched_search hrecorded (haway husable)]
    exact lightestCpu_isLightest k _ taskCpu hne
  · intro husable hempty
    rw [selectTaskRqYatCasched_search hrecorded (haway husable)]
    exact lightestCpu_of_candidates_empty k _ taskCpu hempty

/-- Task 7 last ran on CPU 1 and is now allowed on the CPUs 0, 2 and 3, of which CPU 0
has a task of the class. -/
def barredFromLastCpu : System 4 :=
  ((yatCaschedBootSystem 4).updateTask 7 fun t =>
    { t with cpusMask := {0, 2, 3}
             yatCasched := { t.yatCasched with lastCpu := 1 } }).updateRq 0 fun rq =>
      { rq with yatCasched := { rq.yatCasched with nrRunning := 1 } }

/-- It goes to the first of the two idle CPUs. -/
theorem selectTaskRqYatCasched_recorded_barred :
    IsLightest barredFromLastCpu {0, 2, 3}
      (selectTaskRqYatCasched barredFromLastCpu 7 1).2 := by
  have hcandidates : candidates barredFromLastCpu (barredFromLastCpu.task 7).cpusMask =
      {0, 2, 3} := by decide
  have hsearch := (selectTaskRqYatCasched_recorded barredFromLastCpu 7 1 (c := 1) rfl).2.2.1
    (by decide) (by decide)
  rw [hcandidates] at hsearch
  exact hsearch

/-! ## Where the choice is usable -/

/-- Where some CPU is online and allowed, the CPU chosen is online and allowed exactly if
the task has a recorded CPU or the CPU given is itself online and allowed.  A CPU is
recorded only for a task without one, and it is the CPU given.  Values below -1, which the
code never stores, are left out: it would test a bit outside of the masks. -/
theorem selectTaskRqYatCasched_usable_iff (k : System n) (p : Pid) (taskCpu : Fin n)
    (hlast : -1 ≤ (k.task p).yatCasched.lastCpu)
    (hne : (candidates k (k.task p).cpusMask).Nonempty) :
    ((selectTaskRqYatCasched k p taskCpu).2 ∈ candidates k (k.task p).cpusMask ↔
        (Unrecorded k p → taskCpu ∈ candidates k (k.task p).cpusMask)) ∧
      (Unrecorded k p →
        selectTaskRqYatCasched k p taskCpu =
          (k.updateTask p fun t =>
            { t with yatCasched := { t.yatCasched with lastCpu := (taskCpu : Nat) } },
            taskCpu)) ∧
      (¬Unrecorded k p → (selectTaskRqYatCasched k p taskCpu).1 = k ∧
        ∃ c : Fin n, (k.task p).yatCasched.lastCpu = (c : Nat)) := by
  by_cases hunrecorded : Unrecorded k p
  · have hchoice := selectTaskRqYatCasched_unrecorded hunrecorded taskCpu
    refine ⟨?_, fun _ => hchoice, fun h => absurd hunrecorded h⟩
    rw [hchoice]
    exact ⟨fun h _ => h, fun h => h hunrecorded⟩
  · have hvoid : ∀ {P : Prop}, Unrecorded k p → P := fun h => absurd h hunrecorded
    have hrecorded : ∃ c : Fin n, (k.task p).yatCasched.lastCpu = (c : Nat) := by
      unfold Unrecorded at hunrecorded
      refine ⟨⟨(k.task p).yatCasched.lastCpu.toNat, by omega⟩, ?_⟩
      dsimp only
      omega
    rcases selectTaskRqYatCasched_cases hunrecorded taskCpu with
      ⟨c, hhome, hchoice⟩ | ⟨_, hchoice⟩
    · rw [hchoice]
      exact ⟨iff_of_true hhome.2 hvoid, hvoid, fun _ => ⟨rfl, hrecorded⟩⟩
    · rw [hchoice]
      exact ⟨iff_of_true (lightestCpu_isLightest k _ taskCpu hne).mem hvoid, hvoid,
        fun _ => ⟨rfl, hrecorded⟩⟩

/-- Task 7 of {lit}`barredFromLastCpu` is moved to a CPU it may run on. -/
theorem selectTaskRqYatCasched_usable_barred :
    (selectTaskRqYatCasched barredFromLastCpu 7 1).2 ∈
      candidates barredFromLastCpu (barredFromLastCpu.task 7).cpusMask := by
  apply (selectTaskRqYatCasched_usable_iff barredFromLastCpu 7 1 (by decide) (by decide)).1.mpr
  intro hunrecorded
  exact absurd hunrecorded (by decide)

/-- Task 7 has not run and is allowed on CPU 1 only. -/
def newTaskOnCpuOne : System 2 :=
  (yatCaschedBootSystem 2).updateTask 7 fun t => { t with cpusMask := {1} }

/-- It stays on CPU 0, and CPU 0 is recorded as the CPU it last ran on. -/
theorem selectTaskRqYatCasched_unusable :
    candidates newTaskOnCpuOne (newTaskOnCpuOne.task 7).cpusMask = {1} ∧
      (selectTaskRqYatCasched newTaskOnCpuOne 7 0).2 = 0 ∧
      (((selectTaskRqYatCasched newTaskOnCpuOne 7 0).1.task 7).yatCasched.lastCpu = 0) := by
  decide

end Kernel
end YatCasched
