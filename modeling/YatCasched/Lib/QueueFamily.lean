import Mathlib.Data.List.Induction
import Mathlib.Data.List.Nodup
import Mathlib.Logic.Function.Basic
import YatCasched.Lib.Run

/-!
# Families of first-in first-out queues

A queue for every index, events that append to one queue or erase from one
queue, and the order in which the members of a queue were last enqueued.

Main results:

- Theorem {lit}`disjoint_step`: no member is ever on two queues.
- Theorem {lit}`ordered_run`: in every run a queue lists its members in the
  order of their last enqueues.
- Theorem {lit}`ahead_step`: nobody gets in front of a member that stays.
-/

namespace YatCasched
namespace QueueFamily

variable {ι α : Type*} [DecidableEq ι] [DecidableEq α]

/-- One event on a family of queues. -/
inductive Event (ι α : Type*)
  | enqueue (i : ι) (a : α)
  | dequeue (i : ι) (a : α)
  | other

/-- The effect of an event. -/
def step (q : ι → List α) : Event ι α → ι → List α
  | .enqueue i a => Function.update q i (q i ++ [a])
  | .dequeue i a => Function.update q i ((q i).erase a)
  | .other => q

/-- A member is enqueued only while it is on no queue, and dequeued only from
a queue that holds it, if any does. -/
def Legal (q : ι → List α) : Event ι α → Prop
  | .enqueue _ a => ∀ j, a ∉ q j
  | .dequeue i a => ∀ j, a ∈ q j → j = i
  | .other => True

/-- The event enqueues this member. -/
def Event.enqueues (a : α) : Event ι α → Bool
  | .enqueue _ b => b = a
  | _ => false

/-- The number of events after the last enqueue of a member. -/
def sinceEnqueue (es : List (Event ι α)) (a : α) : Nat :=
  es.reverse.findIdx (Event.enqueues a)

/-- Each queue lists its members in the order of their last enqueues. -/
def Ordered (es : List (Event ι α)) (q : ι → List α) : Prop :=
  ∀ i, (q i).Pairwise fun a b => sinceEnqueue es b < sinceEnqueue es a

/-! ## Membership -/

/-- Members of an updated queue family. -/
theorem mem_step_enqueue {q : ι → List α} {i j : ι} {a b : α} :
    b ∈ step q (.enqueue i a) j ↔ b ∈ q j ∨ (j = i ∧ b = a) := by
  unfold step
  by_cases hji : j = i
  · subst hji
    simp
  · simp [hji]

/-- Dequeueing adds no member. -/
theorem mem_of_mem_step_dequeue {q : ι → List α} {i j : ι} {a b : α}
    (hb : b ∈ step q (.dequeue i a) j) : b ∈ q j := by
  simp only [step] at hb
  by_cases hji : j = i
  · subst hji
    rw [Function.update_self] at hb
    exact List.mem_of_mem_erase hb
  · rwa [Function.update_of_ne hji] at hb

/-- No event puts a member on two queues. -/
theorem disjoint_step {q : ι → List α} {e : Event ι α} (he : Legal q e)
    (hq : ∀ i j a, a ∈ q i → a ∈ q j → i = j) :
    ∀ i j a, a ∈ step q e i → a ∈ step q e j → i = j := by
  intro i j a hi hj
  cases e with
  | enqueue k b =>
      rcases mem_step_enqueue.mp hi with hold | ⟨hik, hab⟩
      · rcases mem_step_enqueue.mp hj with hold' | ⟨_, hab⟩
        · exact hq i j a hold hold'
        · rw [hab] at hold
          exact (he i hold).elim
      · rcases mem_step_enqueue.mp hj with hold' | ⟨hjk, _⟩
        · rw [hab] at hold'
          exact (he j hold').elim
        · rw [hik, hjk]
  | dequeue k b => exact hq i j a (mem_of_mem_step_dequeue hi) (mem_of_mem_step_dequeue hj)
  | other => exact hq i j a hi hj

/-! ## Enqueue order -/

omit [DecidableEq ι] in
@[simp]
theorem sinceEnqueue_append_enqueue (es : List (Event ι α)) (i : ι) (a : α) :
    sinceEnqueue (es ++ [.enqueue i a]) a = 0 := by
  simp [sinceEnqueue, List.findIdx_cons, Event.enqueues]

omit [DecidableEq ι] in
/-- An event that does not enqueue the member makes its last enqueue older. -/
theorem sinceEnqueue_append (es : List (Event ι α)) {e : Event ι α} {a : α}
    (he : e.enqueues a = false) :
    sinceEnqueue (es ++ [e]) a = sinceEnqueue es a + 1 := by
  simp [sinceEnqueue, List.findIdx_cons, he]

omit [DecidableEq ι] in
/-- Events that enqueue none of the members keep their order. -/
theorem pairwise_sinceEnqueue_append {es : List (Event ι α)} {e : Event ι α} {l : List α}
    (he : ∀ a ∈ l, e.enqueues a = false)
    (hl : l.Pairwise fun a b => sinceEnqueue es b < sinceEnqueue es a) :
    l.Pairwise fun a b => sinceEnqueue (es ++ [e]) b < sinceEnqueue (es ++ [e]) a := by
  apply List.Pairwise.imp_of_mem ?_ hl
  intro a b ha hb hab
  rw [sinceEnqueue_append es (he a ha), sinceEnqueue_append es (he b hb)]
  omega

/-- One legal event keeps every queue in the order of the last enqueues. -/
theorem ordered_step {es : List (Event ι α)} {q : ι → List α} {e : Event ι α}
    (he : Legal q e) (hq : Ordered es q) : Ordered (es ++ [e]) (step q e) := by
  intro j
  cases e with
  | enqueue i a =>
      have hold : ∀ b ∈ q j, (Event.enqueue i a : Event ι α).enqueues b = false := by
        intro b hb
        have hab : a ≠ b := by
          intro hab
          exact he j (hab ▸ hb)
        simp [Event.enqueues, hab]
      have hpair := pairwise_sinceEnqueue_append hold (hq j)
      by_cases hji : j = i
      · subst hji
        simp only [step, Function.update_self]
        rw [List.pairwise_append]
        refine ⟨hpair, List.pairwise_singleton _ _, ?_⟩
        intro b hb c hc
        rw [List.mem_singleton.mp hc, sinceEnqueue_append_enqueue,
          sinceEnqueue_append es (hold b hb)]
        omega
      · simpa [step, hji] using hpair
  | dequeue i a =>
      have hpair := pairwise_sinceEnqueue_append (e := Event.dequeue i a)
        (fun b _ => rfl) (hq j)
      by_cases hji : j = i
      · subst hji
        simp only [step, Function.update_self]
        exact hpair.sublist List.erase_sublist
      · simpa [step, hji] using hpair
  | other => exact pairwise_sinceEnqueue_append (e := Event.other) (fun b _ => rfl) (hq j)

/-- A run of legal events from empty queues keeps every queue in the order of
the last enqueues. -/
theorem ordered_run (es : List (Event ι α))
    (hlegal : Run.Guarded step Legal (fun _ => []) es) :
    Ordered es (es.foldl step fun _ => []) := by
  induction es using List.reverseRecOn with
  | nil => exact fun _ => List.Pairwise.nil
  | append_singleton es e ih =>
      rw [Run.guarded_append, Run.guarded_cons] at hlegal
      rw [List.foldl_append]
      exact ordered_step hlegal.2.1 (ih hlegal.1)

/-! ## Overtaking -/

/-- The members in front of a member. -/
def ahead (q : ι → List α) (i : ι) (a : α) : List α :=
  (q i).takeWhile (· ≠ a)

/-- The event enqueues or dequeues this member. -/
def Event.Concerns (a : α) : Event ι α → Prop
  | .enqueue _ b => b = a
  | .dequeue _ b => b = a
  | .other => False

/-- Erasing another member erases it in front of the member at most. -/
theorem takeWhile_erase_of_ne {a b : α} (hba : b ≠ a) (l : List α) :
    ((l.erase b).takeWhile (· ≠ a)).Sublist (l.takeWhile (· ≠ a)) := by
  induction l with
  | nil => exact List.Sublist.refl _
  | cons c l ih =>
      by_cases hcb : c = b
      · subst hcb
        rw [List.erase_cons_head, List.takeWhile_cons_of_pos (by simpa using hba)]
        exact List.sublist_cons_self _ _
      · rw [List.erase_cons_tail (by simpa using hcb)]
        by_cases hca : c = a
        · subst hca
          rw [List.takeWhile_cons_of_neg (by simp), List.takeWhile_cons_of_neg (by simp)]
        · rw [List.takeWhile_cons_of_pos (by simpa using hca),
            List.takeWhile_cons_of_pos (by simpa using hca)]
          exact ih.cons_cons c

/-- Appending behind a member does not change what is in front of it. -/
theorem takeWhile_append_of_mem {a : α} {l : List α} (ha : a ∈ l) (l' : List α) :
    (l ++ l').takeWhile (· ≠ a) = l.takeWhile (· ≠ a) := by
  induction l with
  | nil => cases ha
  | cons c l ih =>
      rw [List.cons_append]
      by_cases hca : c = a
      · subst hca
        rw [List.takeWhile_cons_of_neg (by simp), List.takeWhile_cons_of_neg (by simp)]
      · rw [List.takeWhile_cons_of_pos (by simpa using hca),
          List.takeWhile_cons_of_pos (by simpa using hca),
          ih ((List.mem_cons.mp ha).resolve_left (Ne.symm hca))]

/-- An event that does not concern a member of a queue leaves it there, and lets nobody in
front of it. -/
theorem ahead_step {q : ι → List α} {e : Event ι α} {i : ι} {a : α} (he : ¬e.Concerns a)
    (ha : a ∈ q i) :
    a ∈ step q e i ∧ (ahead (step q e) i a).Sublist (ahead q i a) := by
  cases e with
  | enqueue j b =>
      refine ⟨mem_step_enqueue.mpr (Or.inl ha), ?_⟩
      unfold ahead step
      dsimp only
      by_cases hij : i = j
      · subst hij
        rw [Function.update_self, takeWhile_append_of_mem ha]
      · rw [Function.update_of_ne hij]
  | dequeue j b =>
      have hba : b ≠ a := he
      unfold ahead step
      dsimp only
      by_cases hij : i = j
      · subst hij
        rw [Function.update_self]
        exact ⟨(List.mem_erase_of_ne (Ne.symm hba)).mpr ha, takeWhile_erase_of_ne hba _⟩
      · rw [Function.update_of_ne hij]
        exact ⟨ha, List.Sublist.refl _⟩
  | other => exact ⟨ha, List.Sublist.refl _⟩

end QueueFamily
end YatCasched
