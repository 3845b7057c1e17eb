import Mathlib.Data.List.Induction
import Mathlib.Order.Basic
import Mathlib.Order.Lattice

/-!
# Scanning for the first best element

A loop over a list keeps the best element seen so far and replaces it only by a
strictly better one, starting from a sentinel.  Its result is the first element
with the greatest score, if some score beats the sentinel.

Main results:

- Theorem {lit}`scan_spec`: what the loop returns.
- Theorem {lit}`IsFirstBest.unique`: nothing else meets that description.
-/

namespace YatCasched
namespace FirstBest

variable {ι α : Type*} [LinearOrder α]

/-- One round of the loop, on the best element and the best score. -/
def step (score : ι → α) (best : Option ι × α) (i : ι) : Option ι × α :=
  if best.2 < score i then (some i, score i) else best

/-- The whole loop. -/
def scan (score : ι → α) (sentinel : α) (l : List ι) : Option ι × α :=
  l.foldl (step score) (none, sentinel)

/-- The element is the first of the list with the greatest score, and that score
beats the sentinel; or no score does. -/
def IsFirstBest (score : ι → α) (sentinel : α) (l : List ι) : Option ι → Prop
  | none => ∀ i ∈ l, score i ≤ sentinel
  | some i =>
      sentinel < score i ∧ ∃ before after, l = before ++ i :: after ∧
        (∀ j ∈ before, score j < score i) ∧ ∀ j ∈ after, score j ≤ score i

/-- The score that belongs to a result. -/
def scoreOf (score : ι → α) (sentinel : α) : Option ι → α
  | none => sentinel
  | some i => score i

variable {score : ι → α} {sentinel : α} {l : List ι}

@[simp]
theorem scan_nil : scan score sentinel [] = (none, sentinel) :=
  rfl

theorem scan_append_singleton (i : ι) :
    scan score sentinel (l ++ [i]) = step score (scan score sentinel l) i := by
  unfold scan
  rw [List.foldl_append]
  rfl

/-- The best element is in the list. -/
theorem IsFirstBest.mem {i : ι} (h : IsFirstBest score sentinel l (some i)) : i ∈ l := by
  rcases h.2 with ⟨before, after, rfl, _, _⟩
  exact List.mem_append_right before List.mem_cons_self

/-- No score of the list is greater than that of the result. -/
theorem IsFirstBest.le {best : Option ι} (h : IsFirstBest score sentinel l best) {j : ι}
    (hj : j ∈ l) : score j ≤ scoreOf score sentinel best := by
  cases best with
  | none => exact h j hj
  | some i =>
      rcases h.2 with ⟨before, after, rfl, hbefore, hafter⟩
      rcases List.mem_append.mp hj with hj | hj
      · exact (hbefore j hj).le
      · rcases List.mem_cons.mp hj with rfl | hj
        · exact le_rfl
        · exact hafter j hj

/-- Some element is best if one beats the sentinel. -/
theorem IsFirstBest.exists_of_lt {best : Option ι} (h : IsFirstBest score sentinel l best)
    {j : ι} (hj : j ∈ l) (hlt : sentinel < score j) : ∃ i, best = some i := by
  cases best with
  | none => exact absurd hlt (not_lt.mpr (h j hj))
  | some i => exact ⟨i, rfl⟩

/-- In an increasing list every smaller element is strictly worse. -/
theorem IsFirstBest.lt_of_lt [Preorder ι] (hsorted : l.Pairwise (· < ·)) {i j : ι}
    (h : IsFirstBest score sentinel l (some i)) (hj : j ∈ l) (hji : j < i) :
    score j < score i := by
  rcases h.2 with ⟨before, after, rfl, hbefore, _⟩
  rcases List.mem_append.mp hj with hj | hj
  · exact hbefore j hj
  · -- what comes after the best element is greater than it
    have hafter := (List.pairwise_cons.mp (List.pairwise_append.mp hsorted).2.1).1
    rcases List.mem_cons.mp hj with rfl | hj
    · exact absurd hji (lt_irrefl j)
    · exact absurd (hji.trans (hafter j hj)) (lt_irrefl j)

/-- A strictly better element at the end becomes the best one. -/
theorem IsFirstBest.append_better {best : Option ι} (h : IsFirstBest score sentinel l best)
    {i : ι} (hbetter : scoreOf score sentinel best < score i) :
    IsFirstBest score sentinel (l ++ [i]) (some i) := by
  have hsentinel : sentinel ≤ scoreOf score sentinel best := by
    cases best with
    | none => exact le_rfl
    | some j => exact h.1.le
  refine ⟨hsentinel.trans_lt hbetter, l, [], rfl, ?_, ?_⟩
  · intro j hj
    exact (h.le hj).trans_lt hbetter
  · intro j hj
    cases hj

/-- Any other element at the end leaves the best one. -/
theorem IsFirstBest.append_other {best : Option ι} (h : IsFirstBest score sentinel l best)
    {i : ι} (hother : score i ≤ scoreOf score sentinel best) :
    IsFirstBest score sentinel (l ++ [i]) best := by
  cases best with
  | none =>
      intro j hj
      rcases List.mem_append.mp hj with hj | hj
      · exact h j hj
      · rw [List.mem_singleton.mp hj]
        exact hother
  | some b =>
      rcases h with ⟨hsentinel, before, after, rfl, hbefore, hafter⟩
      refine ⟨hsentinel, before, after ++ [i], by simp, hbefore, ?_⟩
      intro j hj
      rcases List.mem_append.mp hj with hj | hj
      · exact hafter j hj
      · rw [List.mem_singleton.mp hj]
        exact hother

/-- What the loop returns. -/
theorem scan_spec (score : ι → α) (sentinel : α) (l : List ι) :
    IsFirstBest score sentinel l (scan score sentinel l).1 ∧
      (scan score sentinel l).2 = scoreOf score sentinel (scan score sentinel l).1 := by
  induction l using List.reverseRecOn with
  | nil =>
      refine ⟨?_, rfl⟩
      intro i hi
      cases hi
  | append_singleton l i ih =>
      rcases ih with ⟨hbest, hscore⟩
      rw [scan_append_singleton]
      unfold step
      split
      · rename_i hlt
        rw [hscore] at hlt
        exact ⟨hbest.append_better hlt, rfl⟩
      · rename_i hle
        rw [hscore, not_lt] at hle
        exact ⟨hbest.append_other hle, hscore⟩

/-- There is only one first best element. -/
theorem IsFirstBest.unique {best best' : Option ι} (h : IsFirstBest score sentinel l best)
    (h' : IsFirstBest score sentinel l best') : best = best' := by
  cases best with
  | none =>
      cases best' with
      | none => rfl
      | some i => exact absurd h'.1 (not_lt.mpr (h i h'.mem))
  | some i =>
      cases best' with
      | none => exact absurd h.1 (not_lt.mpr (h' i h.mem))
      | some j =>
          rcases h.2 with ⟨before, after, hl, hbefore, hafter⟩
          rcases h'.2 with ⟨before', after', hl', hbefore', hafter'⟩
          rw [hl] at hl'
          -- one of the two occurrences comes first, or they are the same
          rcases List.append_eq_append_iff.mp hl' with ⟨mid, hpre, hsuf⟩ | ⟨mid, hpre, hsuf⟩
          · cases mid with
            | nil =>
                rw [List.nil_append] at hsuf
                rw [(List.cons.inj hsuf).1]
            | cons k mid =>
                have hki : k = i := (List.cons.inj hsuf).1.symm
                have hi : i ∈ before' := by
                  rw [hpre, hki]
                  simp
                have hj : j ∈ after := by
                  rw [(List.cons.inj hsuf).2]
                  simp
                exact absurd (hbefore' i hi) (not_lt.mpr (hafter j hj))
          · cases mid with
            | nil =>
                rw [List.nil_append] at hsuf
                rw [(List.cons.inj hsuf).1]
            | cons k mid =>
                have hkj : k = j := (List.cons.inj hsuf).1.symm
                have hj : j ∈ before := by
                  rw [hpre, hkj]
                  simp
                have hi : i ∈ after' := by
                  rw [(List.cons.inj hsuf).2]
                  simp
                exact absurd (hbefore j hj) (not_lt.mpr (hafter' i hi))

/-- The loop returns the element that meets the description. -/
theorem scan_eq_iff {best : Option ι} :
    (scan score sentinel l).1 = best ↔ IsFirstBest score sentinel l best := by
  constructor
  · intro h
    rw [← h]
    exact (scan_spec score sentinel l).1
  · intro h
    exact (scan_spec score sentinel l).1.unique h

end FirstBest
end YatCasched
