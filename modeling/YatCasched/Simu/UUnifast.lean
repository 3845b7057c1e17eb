import Mathlib.Algebra.Order.Field.Rat
import YatCasched.Lib.Shares

/-!
# Utilisations

{lit}`UUnifastDiscard` splits a utilisation at random, and starts again while a share
exceeds the number of cores.  The object keeps the list and a flag from one attempt, and
one call, to the next.  Arithmetic is exact.

Main results:

- Theorem {lit}`uUnifast_of_accepts`: what an attempt that is not rejected leaves.
- Theorem {lit}`getUtils_spec`: what a call returns, from any state of the object.
- Theorem {lit}`getUtils_contract`: the contract, for every call on the same object.
-/

namespace YatCasched
namespace Simu

open Shares

/-! ## Draws -/

/-- What the calls of a {lit}`Random` return, by their position.  A {lit}`double` is the
rational it stands for, and its {lit}`k`-th root any number between 0 and 1. -/
structure Draws (α : Type*) [Field α] [LinearOrder α] where
  nextDouble : ℕ → ℚ
  root : ℕ → ℕ → α
  nextInt : ℕ → ℕ → ℕ
  nextDouble_nonneg : ∀ i, 0 ≤ nextDouble i
  nextDouble_lt_one : ∀ i, nextDouble i < 1
  root_nonneg : ∀ i k, 0 ≤ root i k
  root_le_one : ∀ i k, root i k ≤ 1
  nextInt_lt : ∀ i bound, 0 < bound → nextInt i bound < bound

variable {α : Type*} [Field α] [LinearOrder α]

/-! ## The object -/

/-- {lit}`UUnifastDiscard`, without its {lit}`Random`. -/
structure UUnifastDiscard (α : Type*) where
  uUtil : α
  uNum : ℕ
  uUs : List α
  shallDiscard : Bool
  discardNum : ℕ
  cores : ℕ
  takeAllUtil : Bool

/-- The constructor. -/
def UUnifastDiscard.new (util : α) (num discard cores : ℕ) (takeAllUtil : Bool) :
    UUnifastDiscard α where
  uUtil := util
  uNum := num
  uUs := []
  shallDiscard := false
  discardNum := discard
  cores := cores
  takeAllUtil := takeAllUtil

/-- What {lit}`getUtils` does: it ends the program, returns null, or returns a list. -/
inductive UtilsAnswer (α : Type*)
  | exits
  | null
  | utils (uUs : List α)

namespace UUnifastDiscard

/-- The loop of {lit}`uUnifast` for the last {lit}`k` indices, so that {lit}`uNum - i` is
{lit}`k`, from a number of draws and a value of {lit}`sumU`. -/
def uUnifastLoop (draws : Draws α) :
    ℕ → UUnifastDiscard α → ℕ → α → UUnifastDiscard α × ℕ × α
  | 0, u, pos, sumU => (u, pos, sumU)
  | k + 1, u, pos, sumU =>
      let nextSum := sumU * draws.root pos (k + 1)
      let temp := sumU - nextSum
      if temp > u.cores then
        ({ u with shallDiscard := true }, pos + 1, sumU)
      else
        uUnifastLoop draws k { u with uUs := u.uUs ++ [temp] } (pos + 1) nextSum

/-- How many indices the loop of {lit}`uUnifast` has. -/
def steps (u : UUnifastDiscard α) : ℕ :=
  u.uNum - if u.takeAllUtil then 1 else 0

/-- {lit}`uUnifast`, from a number of draws: its result, the object and the draws. -/
def uUnifast (draws : Draws α) (u : UUnifastDiscard α) (pos : ℕ) :
    Bool × UUnifastDiscard α × ℕ :=
  let u := { u with uUs := [], shallDiscard := false }
  let r := uUnifastLoop draws u.steps u pos u.uUtil
  let u := r.1
  let sumU := r.2.2
  let u :=
    if u.shallDiscard then u
    else if sumU ≤ u.cores then { u with uUs := u.uUs ++ [sumU] }
    else { u with shallDiscard := true }
  (u.shallDiscard, u, r.2.1)

/-- {lit}`uUnifastDiscard`, with a number of attempts left. -/
def uUnifastDiscard (draws : Draws α) :
    ℕ → UUnifastDiscard α → ℕ → Bool × UUnifastDiscard α × ℕ
  | 0, u, pos => (false, u, pos)
  | attempts + 1, u, pos =>
      let r := uUnifast draws u pos
      if !r.1 then (true, r.2)
      else uUnifastDiscard draws attempts { r.2.1 with uUs := [] } r.2.2

/-- {lit}`getUtils`. -/
def getUtils (draws : Draws α) (u : UUnifastDiscard α) (pos : ℕ) :
    UtilsAnswer α × UUnifastDiscard α × ℕ :=
  let r := uUnifastDiscard draws u.discardNum u pos
  let u := r.2.1
  if r.1 then
    if !u.takeAllUtil then
      if u.uUs.length ≠ u.uNum + 1 then
        (.exits, r.2)
      else
        let u := { u with uUs := u.uUs.dropLast }
        (.utils u.uUs, u, r.2.2)
    else
      (.utils u.uUs, r.2)
  else
    (.null, r.2)

/-- The object and the draws after a number of calls. -/
def afterCalls (draws : Draws α) (u : UUnifastDiscard α) (pos : ℕ) : ℕ → UUnifastDiscard α × ℕ
  | 0 => (u, pos)
  | calls + 1 =>
      (getUtils draws (afterCalls draws u pos calls).1 (afterCalls draws u pos calls).2).2

/-! ## Attempts -/

/-- The factors of an attempt that starts after a number of draws. -/
def factors (draws : Draws α) (k pos i : ℕ) : α :=
  draws.root (pos + i) (k - i)

/-- The attempt is not rejected: no share exceeds the cores, nor does what is left. -/
def Accepts (draws : Draws α) (u : UUnifastDiscard α) (pos : ℕ) : Prop :=
  Fits u.uUtil (factors draws u.steps pos) u.cores u.steps

/-- How many draws the attempt makes: it stops at the first share that exceeds the cores. -/
def drawsUsed (draws : Draws α) (u : UUnifastDiscard α) (pos : ℕ) : ℕ :=
  (firstOver u.uUtil (factors draws u.steps pos) u.cores u.steps).elim u.steps (· + 1)

/-- Where an attempt starts, if all before it are rejected. -/
def attemptStart (draws : Draws α) (u : UUnifastDiscard α) (pos : ℕ) : ℕ → ℕ
  | 0 => pos
  | j + 1 => attemptStart draws u pos j + drawsUsed draws u (attemptStart draws u pos j)

/-- The shares of an attempt and what they leave. -/
def attemptUtils (draws : Draws α) (u : UUnifastDiscard α) (pos : ℕ) : List α :=
  (List.range u.steps).map (shareAt u.uUtil (factors draws u.steps pos)) ++
    [leaves u.uUtil (factors draws u.steps pos) u.steps]

/-- What {lit}`getUtils` promises after a number of draws, for the parameters of the
object. -/
structure Contract (draws : Draws α) (u : UUnifastDiscard α) (pos : ℕ)
    (answer : UtilsAnswer α) : Prop where
  not_exits : answer ≠ .exits
  null_iff : answer = .null ↔
    ∀ j, j < u.discardNum → ¬u.Accepts draws (u.attemptStart draws pos j)
  length_eq : ∀ uUs, answer = .utils uUs → uUs.length = u.uNum
  mem_range : ∀ uUs, answer = .utils uUs → ∀ util ∈ uUs, 0 ≤ util ∧ util ≤ u.cores
  sum_eq : ∀ uUs, answer = .utils uUs → u.takeAllUtil = true → uUs.sum = u.uUtil
  sum_add_dropped : ∀ uUs, answer = .utils uUs → u.takeAllUtil = false →
    ∃ dropped : α, 0 ≤ dropped ∧ dropped ≤ u.cores ∧ uUs.sum = u.uUtil - dropped

variable {draws : Draws α} {u : UUnifastDiscard α} {pos k : ℕ} {sumU : α}

omit [Field α] [LinearOrder α] in
/-- The number of indices depends on the parameters of the object only. -/
theorem steps_with (u : UUnifastDiscard α) (uUs : List α) (flag : Bool) :
    steps { u with uUs := uUs, shallDiscard := flag } = u.steps :=
  rfl

theorem factors_succ (draws : Draws α) (k pos : ℕ) :
    (fun i => factors draws (k + 1) pos (i + 1)) = factors draws k (pos + 1) := by
  funext i
  unfold factors
  rw [Nat.add_sub_add_right, show pos + (i + 1) = pos + 1 + i by omega]

theorem factors_zero (draws : Draws α) (k pos : ℕ) :
    factors draws k pos 0 = draws.root pos k :=
  rfl

/-- The loop, if no share exceeds the cores. -/
theorem uUnifastLoop_of_none
    (h : firstOver sumU (factors draws k pos) (u.cores : α) k = none) :
    uUnifastLoop draws k u pos sumU =
      ({ u with uUs := u.uUs ++ (List.range k).map (shareAt sumU (factors draws k pos)) },
        pos + k, leaves sumU (factors draws k pos) k) := by
  induction k generalizing u pos sumU with
  | zero => simp [uUnifastLoop, leaves_zero]
  | succ k ih =>
      rw [firstOver_succ] at h
      by_cases hover : (u.cores : α) < shareAt sumU (factors draws (k + 1) pos) 0
      · rw [if_pos hover] at h
        cases h
      · rw [if_neg hover, Option.map_eq_none_iff, factors_succ, factors_zero] at h
        rw [shareAt_zero, factors_zero] at hover
        have hrest := ih (u := { u with uUs := u.uUs ++ [sumU - sumU * draws.root pos (k + 1)] }) h
        rw [uUnifastLoop, if_neg hover, hrest, leaves_succ', factors_succ, List.range_succ_eq_map,
          show pos + 1 + k = pos + (k + 1) by omega]
        simp only [List.map_cons, List.map_map, Function.comp_def, shareAt_zero, shareAt_succ',
          factors_succ, List.append_assoc, List.singleton_append, factors_zero]

/-- The loop, if some share exceeds the cores. -/
theorem uUnifastLoop_of_some {i : ℕ}
    (h : firstOver sumU (factors draws k pos) (u.cores : α) k = some i) :
    ∃ uUs, (uUnifastLoop draws k u pos sumU).1 = { u with uUs := uUs, shallDiscard := true } ∧
      (uUnifastLoop draws k u pos sumU).2.1 = pos + (i + 1) := by
  induction k generalizing u pos sumU i with
  | zero => cases h
  | succ k ih =>
      rw [firstOver_succ] at h
      rw [uUnifastLoop]
      by_cases hover : (u.cores : α) < shareAt sumU (factors draws (k + 1) pos) 0
      · rw [if_pos hover, Option.some.injEq] at h
        rw [shareAt_zero, factors_zero] at hover
        rw [if_pos hover, ← h]
        exact ⟨u.uUs, rfl, rfl⟩
      · rw [if_neg hover, factors_succ, factors_zero, Option.map_eq_some_iff] at h
        rcases h with ⟨j, hj, rfl⟩
        rw [shareAt_zero, factors_zero] at hover
        rw [if_neg hover]
        rcases ih (u := { u with uUs := u.uUs ++ [sumU - sumU * draws.root pos (k + 1)] }) hj with
          ⟨uUs, hobject, hpos⟩
        refine ⟨uUs, hobject, ?_⟩
        rw [hpos]
        omega

/-- What an attempt that is not rejected leaves. -/
theorem uUnifast_of_accepts (h : u.Accepts draws pos) :
    uUnifast draws u pos =
      (false, { u with uUs := attemptUtils draws u pos, shallDiscard := false },
        pos + u.steps) := by
  rcases fits_iff.mp h with ⟨hnone, hrest⟩
  have hloop := uUnifastLoop_of_none (u := { u with uUs := [], shallDiscard := false }) hnone
  unfold uUnifast
  dsimp only
  rw [steps_with, hloop]
  dsimp only
  rw [if_neg Bool.false_ne_true, if_pos hrest]
  rfl

/-- A rejected attempt sets the flag. -/
theorem uUnifast_of_not_accepts (h : ¬u.Accepts draws pos) :
    ∃ uUs, uUnifast draws u pos =
      (true, { u with uUs := uUs, shallDiscard := true }, pos + drawsUsed draws u pos) := by
  unfold uUnifast drawsUsed
  dsimp only
  rw [steps_with]
  cases hfirst : firstOver u.uUtil (factors draws u.steps pos) (u.cores : α) u.steps with
  | none =>
      have hloop := uUnifastLoop_of_none (u := { u with uUs := [], shallDiscard := false }) hfirst
      have hrest : ¬leaves u.uUtil (factors draws u.steps pos) u.steps ≤ u.cores :=
        fun hle => h (fits_iff.mpr ⟨hfirst, hle⟩)
      rw [hloop]
      dsimp only
      rw [if_neg Bool.false_ne_true, if_neg hrest]
      exact ⟨_, rfl⟩
  | some i =>
      rcases uUnifastLoop_of_some (u := { u with uUs := [], shallDiscard := false }) hfirst with
        ⟨uUs, hobject, hpos⟩
      rw [hobject, hpos]
      exact ⟨uUs, rfl⟩

/-! ## Attempts one after the other -/

theorem attemptStart_zero (draws : Draws α) (u : UUnifastDiscard α) (pos : ℕ) :
    attemptStart draws u pos 0 = pos :=
  rfl

/-- Where the attempts start depends on the parameters of the object only. -/
theorem attemptStart_with (draws : Draws α) (u : UUnifastDiscard α) (uUs : List α) (flag : Bool)
    (pos j : ℕ) :
    attemptStart draws { u with uUs := uUs, shallDiscard := flag } pos j =
      attemptStart draws u pos j := by
  induction j with
  | zero => rfl
  | succ j ih =>
      rw [attemptStart, attemptStart, ih]
      rfl

/-- The first attempt and those after it. -/
theorem attemptStart_succ (draws : Draws α) (u : UUnifastDiscard α) (pos j : ℕ) :
    attemptStart draws u pos (j + 1) =
      attemptStart draws u (pos + drawsUsed draws u pos) j := by
  induction j with
  | zero => rfl
  | succ j ih => rw [attemptStart, ih, attemptStart]

/-- If all attempts are rejected, there is no list. -/
theorem uUnifastDiscard_of_rejected {attempts : ℕ}
    (h : ∀ j, j < attempts → ¬u.Accepts draws (attemptStart draws u pos j)) :
    ∃ uUs flag, uUnifastDiscard draws attempts u pos =
      (false, { u with uUs := uUs, shallDiscard := flag }, attemptStart draws u pos attempts) := by
  induction attempts generalizing u pos with
  | zero => exact ⟨u.uUs, u.shallDiscard, rfl⟩
  | succ attempts ih =>
      rcases uUnifast_of_not_accepts (h 0 (Nat.zero_lt_succ attempts)) with ⟨uUs, hattempt⟩
      have hlater : ∀ j, j < attempts → ¬Accepts draws { u with uUs := [], shallDiscard := true }
          (attemptStart draws { u with uUs := [], shallDiscard := true }
            (pos + drawsUsed draws u pos) j) := by
        intro j hj
        rw [attemptStart_with, ← attemptStart_succ]
        exact h (j + 1) (Nat.succ_lt_succ hj)
      rcases ih hlater with ⟨uUs', flag, hrest⟩
      refine ⟨uUs', flag, ?_⟩
      rw [attemptStart_zero] at hattempt
      rw [uUnifastDiscard, hattempt]
      dsimp only
      rw [if_neg (by decide), hrest, attemptStart_with, ← attemptStart_succ]

/-- The first attempt that is not rejected gives the list. -/
theorem uUnifastDiscard_of_accepted {attempts j : ℕ} (hj : j < attempts)
    (hbefore : ∀ i, i < j → ¬u.Accepts draws (attemptStart draws u pos i))
    (h : u.Accepts draws (attemptStart draws u pos j)) :
    uUnifastDiscard draws attempts u pos =
      (true, { u with
        uUs := attemptUtils draws u (attemptStart draws u pos j), shallDiscard := false },
        attemptStart draws u pos j + u.steps) := by
  induction attempts generalizing u pos j with
  | zero => omega
  | succ attempts ih =>
      rw [uUnifastDiscard]
      cases j with
      | zero =>
          rw [attemptStart_zero] at h ⊢
          rw [uUnifast_of_accepts h]
          rfl
      | succ j =>
          rcases uUnifast_of_not_accepts (hbefore 0 (Nat.zero_lt_succ j)) with ⟨uUs, hattempt⟩
          rw [attemptStart_zero] at hattempt
          rw [hattempt]
          dsimp only
          rw [if_neg (by decide)]
          rw [attemptStart_succ, ← attemptStart_with draws u [] true] at h
          rw [ih (u := { u with uUs := [], shallDiscard := true }) (Nat.lt_of_succ_lt_succ hj) _ h]
          · rw [attemptStart_with, ← attemptStart_succ]
            rfl
          · intro i hi
            rw [attemptStart_with, ← attemptStart_succ]
            exact hbefore (i + 1) (Nat.succ_lt_succ hi)

/-! ## Calls -/

theorem length_attemptUtils (draws : Draws α) (u : UUnifastDiscard α) (pos : ℕ) :
    (attemptUtils draws u pos).length = u.steps + 1 := by
  simp [attemptUtils]

omit [Field α] [LinearOrder α] in
theorem steps_of_takeAll (h : u.takeAllUtil = true) : u.steps = u.uNum - 1 := by
  unfold steps
  rw [h, if_pos rfl]

omit [Field α] [LinearOrder α] in
theorem steps_of_not_takeAll (h : u.takeAllUtil = false) : u.steps = u.uNum := by
  unfold steps
  rw [h, if_neg Bool.false_ne_true, Nat.sub_zero]

/-- What is returned of an attempt that is not rejected. -/
def returnedUtils (draws : Draws α) (u : UUnifastDiscard α) (pos : ℕ) : List α :=
  if u.takeAllUtil then attemptUtils draws u pos
  else (List.range u.steps).map (shareAt u.uUtil (factors draws u.steps pos))

/-- A call all of whose attempts are rejected. -/
theorem getUtils_of_rejected
    (h : ∀ j, j < u.discardNum → ¬u.Accepts draws (attemptStart draws u pos j)) :
    ∃ uUs flag, getUtils draws u pos =
      (.null, { u with uUs := uUs, shallDiscard := flag },
        attemptStart draws u pos u.discardNum) := by
  rcases uUnifastDiscard_of_rejected h with ⟨uUs, flag, hrun⟩
  refine ⟨uUs, flag, ?_⟩
  unfold getUtils
  rw [hrun]
  rfl

/-- A call with an attempt that is not rejected. -/
theorem getUtils_of_accepted {j : ℕ} (hj : j < u.discardNum)
    (hbefore : ∀ i, i < j → ¬u.Accepts draws (attemptStart draws u pos i))
    (h : u.Accepts draws (attemptStart draws u pos j)) :
    getUtils draws u pos =
      (.utils (returnedUtils draws u (attemptStart draws u pos j)),
        { u with
          uUs := returnedUtils draws u (attemptStart draws u pos j), shallDiscard := false },
        attemptStart draws u pos j + u.steps) := by
  unfold getUtils returnedUtils
  rw [uUnifastDiscard_of_accepted hj hbefore h]
  dsimp only
  cases htake : u.takeAllUtil with
  | true => rfl
  | false =>
      rw [length_attemptUtils, steps_of_not_takeAll htake]
      simp [attemptUtils, steps_of_not_takeAll htake]

/-- A call returns null if all attempts are rejected, and a list of the first one that is
not.  The parameters of the object stay. -/
theorem getUtils_spec (draws : Draws α) (u : UUnifastDiscard α) (pos : ℕ) :
    (∃ uUs flag, (getUtils draws u pos).2.1 = { u with uUs := uUs, shallDiscard := flag }) ∧
    (((∀ j, j < u.discardNum → ¬u.Accepts draws (attemptStart draws u pos j)) ∧
        (getUtils draws u pos).1 = .null) ∨
      ∃ j, j < u.discardNum ∧ u.Accepts draws (attemptStart draws u pos j) ∧
        (getUtils draws u pos).1 =
          .utils (returnedUtils draws u (attemptStart draws u pos j))) := by
  classical
  by_cases h : ∃ j, j < u.discardNum ∧ u.Accepts draws (attemptStart draws u pos j)
  · rcases Nat.find_spec h with ⟨hj, haccepts⟩
    have hbefore : ∀ i, i < Nat.find h → ¬u.Accepts draws (attemptStart draws u pos i) :=
      fun i hi haccept => Nat.find_min h hi ⟨hi.trans hj, haccept⟩
    rw [getUtils_of_accepted hj hbefore haccepts]
    exact ⟨⟨_, _, rfl⟩, Or.inr ⟨_, hj, haccepts, rfl⟩⟩
  · have hrejected : ∀ j, j < u.discardNum → ¬u.Accepts draws (attemptStart draws u pos j) :=
      fun j hj haccept => h ⟨j, hj, haccept⟩
    rcases getUtils_of_rejected hrejected with ⟨uUs, flag, hcall⟩
    rw [hcall]
    exact ⟨⟨uUs, flag, rfl⟩, Or.inl ⟨hrejected, rfl⟩⟩

/-- Calls keep the parameters of the object. -/
theorem afterCalls_with (draws : Draws α) (u : UUnifastDiscard α) (pos calls : ℕ) :
    ∃ uUs flag, (afterCalls draws u pos calls).1 =
      { u with uUs := uUs, shallDiscard := flag } := by
  induction calls with
  | zero => exact ⟨u.uUs, u.shallDiscard, rfl⟩
  | succ calls ih =>
      rcases ih with ⟨uUs, flag, hobject⟩
      rcases (getUtils_spec draws (afterCalls draws u pos calls).1
        (afterCalls draws u pos calls).2).1 with ⟨uUs', flag', hcall⟩
      refine ⟨uUs', flag', ?_⟩
      rw [afterCalls, hcall, hobject]

/-! ## Draws of zero -/

/-- After a draw of zero the first share is all there is. -/
theorem not_accepts_of_zero (hzero : draws.root pos u.steps = 0) (hsteps : 0 < u.steps)
    (hover : (u.cores : α) < u.uUtil) :
    ¬u.Accepts draws pos ∧ drawsUsed draws u pos = 1 := by
  have hshare : shareAt u.uUtil (factors draws u.steps pos) 0 = u.uUtil := by
    rw [shareAt_zero, factors_zero, hzero, mul_zero, sub_zero]
  constructor
  · intro haccepts
    have hle := haccepts.1 0 hsteps
    rw [hshare] at hle
    exact absurd hover (not_lt.mpr hle)
  · unfold drawsUsed
    rcases Nat.exists_eq_add_of_lt hsteps with ⟨k, hk⟩
    rw [show u.steps = k + 1 by omega] at hshare ⊢
    rw [firstOver_succ, hshare, if_pos hover]
    rfl

/-- If all attempts draw a zero, they make one draw each, and there is no list. -/
theorem getUtils_of_zeros (draws : Draws α) (u : UUnifastDiscard α) (pos : ℕ)
    (hzeros : ∀ j, j < u.discardNum → draws.root (pos + j) u.steps = 0)
    (hsteps : 0 < u.steps) (hover : (u.cores : α) < u.uUtil) :
    (getUtils draws u pos).1 = .null ∧ (getUtils draws u pos).2.2 = pos + u.discardNum := by
  have hstart : ∀ j, j ≤ u.discardNum → u.attemptStart draws pos j = pos + j := by
    intro j hj
    induction j with
    | zero => rfl
    | succ j ih =>
        rw [attemptStart, ih (Nat.le_of_succ_le hj),
          (not_accepts_of_zero (hzeros j hj) hsteps hover).2]
        rfl
  have hrejected : ∀ j, j < u.discardNum → ¬u.Accepts draws (u.attemptStart draws pos j) := by
    intro j hj
    rw [hstart j hj.le]
    exact (not_accepts_of_zero (hzeros j hj) hsteps hover).1
  rcases getUtils_of_rejected hrejected with ⟨uUs, flag, hcall⟩
  rw [hcall]
  exact ⟨rfl, hstart u.discardNum le_rfl⟩

/-! ## The contract -/

/-- The contract is one about the parameters of the object. -/
theorem Contract.of_with {uUs : List α} {flag : Bool} {answer : UtilsAnswer α}
    (h : Contract draws { u with uUs := uUs, shallDiscard := flag } pos answer) :
    Contract draws u pos answer where
  not_exits := h.not_exits
  null_iff := by
    have hnull := h.null_iff
    simp only [attemptStart_with] at hnull
    exact hnull
  length_eq := h.length_eq
  mem_range := h.mem_range
  sum_eq := h.sum_eq
  sum_add_dropped := h.sum_add_dropped

section Contracts

variable [IsStrictOrderedRing α]

/-- The list returned of an attempt that is not rejected. -/
theorem returnedUtils_spec (hutil : 0 ≤ u.uUtil) (hnum : 1 ≤ u.uNum)
    (h : u.Accepts draws pos) :
    (returnedUtils draws u pos).length = u.uNum ∧
      (∀ util ∈ returnedUtils draws u pos, 0 ≤ util ∧ util ≤ u.cores) ∧
      (u.takeAllUtil = true → (returnedUtils draws u pos).sum = u.uUtil) ∧
      (u.takeAllUtil = false → ∃ dropped : α, 0 ≤ dropped ∧ dropped ≤ u.cores ∧
        (returnedUtils draws u pos).sum = u.uUtil - dropped) := by
  have hsplits := splits_shares hutil
    (fun i => ⟨draws.root_nonneg (pos + i) (u.steps - i), draws.root_le_one _ _⟩) u.steps
  have hshares : ∀ util ∈ (List.range u.steps).map
      (shareAt u.uUtil (factors draws u.steps pos)), 0 ≤ util ∧ util ≤ u.cores := by
    intro util hmem
    refine ⟨hsplits.nonneg util hmem, ?_⟩
    rcases List.mem_map.mp hmem with ⟨i, hi, rfl⟩
    exact h.1 i (List.mem_range.mp hi)
  unfold returnedUtils
  cases htake : u.takeAllUtil with
  | true =>
      rw [if_pos rfl]
      refine ⟨?_, ?_, fun _ => ?_, fun hfalse => by cases hfalse⟩
      · rw [length_attemptUtils, steps_of_takeAll htake, Nat.sub_add_cancel hnum]
      · intro util hmem
        rcases List.mem_append.mp hmem with hmem | hmem
        · exact hshares util hmem
        · rw [List.mem_singleton.mp hmem]
          exact ⟨hsplits.rest_nonneg, h.2⟩
      · unfold attemptUtils
        rw [List.sum_append, List.sum_singleton]
        exact hsplits.sum_add_rest
  | false =>
      rw [if_neg Bool.false_ne_true]
      refine ⟨?_, hshares, fun htrue => (by cases htrue), fun _ =>
        ⟨leaves u.uUtil (factors draws u.steps pos) u.steps, hsplits.rest_nonneg, h.2, ?_⟩⟩
      · rw [List.length_map, List.length_range, steps_of_not_takeAll htake]
      · rw [eq_sub_iff_add_eq]
        exact hsplits.sum_add_rest

/-- Every call keeps the contract, whatever the calls before it have left. -/
theorem contract_getUtils (hutil : 0 ≤ u.uUtil) (hnum : 1 ≤ u.uNum) (draws : Draws α) (pos : ℕ) :
    Contract draws u pos (getUtils draws u pos).1 := by
  rcases (getUtils_spec draws u pos).2 with ⟨hrejected, hnull⟩ | ⟨j, hj, haccepts, hutils⟩
  · rw [hnull]
    constructor
    case not_exits => simp
    case null_iff => exact ⟨fun _ => hrejected, fun _ => rfl⟩
    all_goals
      intro uUs heq
      cases heq
  · rcases returnedUtils_spec hutil hnum haccepts with ⟨hlength, hrange, hsum, hdropped⟩
    rw [hutils]
    constructor
    case not_exits => simp
    case null_iff =>
      exact ⟨fun heq => (by cases heq), fun hall => absurd haccepts (hall j hj)⟩
    case length_eq =>
      rintro uUs ⟨rfl⟩
      exact hlength
    case mem_range =>
      rintro uUs ⟨rfl⟩
      exact hrange
    case sum_eq =>
      rintro uUs ⟨rfl⟩
      exact hsum
    case sum_add_dropped =>
      rintro uUs ⟨rfl⟩
      exact hdropped

end Contracts

end UUnifastDiscard

open UUnifastDiscard

/-- Every call on the same object keeps the contract of the constructor's parameters. -/
theorem getUtils_contract [IsStrictOrderedRing α] (draws : Draws α) {util : α} (hutil : 0 ≤ util)
    {num : ℕ} (hnum : 1 ≤ num) (discard cores : ℕ) (takeAllUtil : Bool) (pos calls : ℕ) :
    Contract draws (.new util num discard cores takeAllUtil)
      (afterCalls draws (.new util num discard cores takeAllUtil) pos calls).2
      (getUtils draws
        (afterCalls draws (.new util num discard cores takeAllUtil) pos calls).1
        (afterCalls draws (.new util num discard cores takeAllUtil) pos calls).2).1 := by
  rcases afterCalls_with draws (.new util num discard cores takeAllUtil) pos calls with
    ⟨uUs, flag, hobject⟩
  rw [hobject]
  exact Contract.of_with (contract_getUtils (by exact hutil) (by exact hnum) draws _)

/-- A generator that only draws zeros. -/
def zeroDraws : Draws ℚ where
  nextDouble _ := 0
  root _ _ := 0
  nextInt _ _ := 0
  nextDouble_nonneg _ := le_rfl
  nextDouble_lt_one _ := zero_lt_one
  root_nonneg _ _ := le_rfl
  root_le_one _ _ := zero_le_one
  nextInt_lt _ _ hbound := hbound

/-- The second call of two tasks on one core. -/
theorem getUtils_contract_zeroDraws :
    Contract zeroDraws (.new 1 2 1000 1 false) (afterCalls zeroDraws (.new 1 2 1000 1 false) 0 1).2
      (getUtils zeroDraws (afterCalls zeroDraws (.new 1 2 1000 1 false) 0 1).1
        (afterCalls zeroDraws (.new 1 2 1000 1 false) 0 1).2).1 :=
  getUtils_contract zeroDraws zero_le_one one_le_two 1000 1 false 0 1

end Simu
end YatCasched
