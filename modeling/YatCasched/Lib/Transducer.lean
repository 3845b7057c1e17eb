import Mathlib.Tactic.TypeStar

/-!
# Transducers

A machine that answers every input with an output.  Two states are
indistinguishable if they answer all sequences of inputs in the same way.

Main results:

- Theorem {lit}`Indistinguishable.output`, {lit}`Indistinguishable.next`: what one
  input shows.
- Theorem {lit}`indistinguishable_of_bisimulation`: how to prove that no input
  shows anything.
-/

namespace YatCasched
namespace Transducer

variable {σ α β : Type*}

/-- The outputs for a sequence of inputs. -/
def outputs (step : σ → α → β × σ) : σ → List α → List β
  | _, [] => []
  | s, a :: l => (step s a).1 :: outputs step (step s a).2 l

/-- No sequence of inputs tells the two states apart. -/
def Indistinguishable (step : σ → α → β × σ) (s t : σ) : Prop :=
  ∀ l : List α, outputs step s l = outputs step t l

variable {step : σ → α → β × σ} {s t : σ}

theorem Indistinguishable.refl (step : σ → α → β × σ) (s : σ) : Indistinguishable step s s :=
  fun _ => rfl

theorem Indistinguishable.symm (h : Indistinguishable step s t) : Indistinguishable step t s :=
  fun l => (h l).symm

/-- Indistinguishable states answer an input in the same way. -/
theorem Indistinguishable.output (h : Indistinguishable step s t) (a : α) :
    (step s a).1 = (step t a).1 :=
  (List.cons.inj (h [a])).1

/-- After an input, indistinguishable states still are. -/
theorem Indistinguishable.next (h : Indistinguishable step s t) (a : α) :
    Indistinguishable step (step s a).2 (step t a).2 := by
  intro l
  exact (List.cons.inj (h (a :: l))).2

/-- States that a bisimulation relates are indistinguishable. -/
theorem indistinguishable_of_bisimulation {R : σ → σ → Prop}
    (houtput : ∀ s t, R s t → ∀ a, (step s a).1 = (step t a).1)
    (hnext : ∀ s t, R s t → ∀ a, R (step s a).2 (step t a).2) (h : R s t) :
    Indistinguishable step s t := by
  intro l
  induction l generalizing s t with
  | nil => rfl
  | cons a l ih =>
      unfold outputs
      rw [houtput s t h a, ih (hnext s t h a)]

end Transducer
end YatCasched
