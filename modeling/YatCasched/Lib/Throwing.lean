import Mathlib.Init

/-!
# Programs that throw

A program that changes a state may throw after it has changed it.  It is atomic in a
state if it leaves that state as it is whenever it throws.

Main results:

- Theorem {lit}`Returns.atomic`: a program that returns is atomic.
- Theorem {lit}`run_foldlM`: a loop whose rounds all return computes its value and its
  state by two folds.
-/

namespace YatCasched
namespace Throwing

variable {ε σ α β : Type} {x : EStateM ε σ α} {f : α → EStateM ε σ β} {s s' : σ}

/-- From this state the program returns an answer with the property. -/
def Returns (x : EStateM ε σ α) (s : σ) (P : α → Prop) : Prop :=
  ∃ a s', x.run s = .ok a s' ∧ P a

/-- The program leaves this state as it is if it throws. -/
def Atomic (x : EStateM ε σ α) (s : σ) : Prop :=
  ∀ e s', x.run s = .error e s' → s' = s

/-- A program that returns is atomic. -/
theorem Returns.atomic {P : α → Prop} (h : Returns x s P) : Atomic x s := by
  rcases h with ⟨a, s₁, hok, _⟩
  intro e s' herror
  rw [hok] at herror
  cases herror

/-- A program that throws does not return. -/
theorem not_returns_of_error {P : α → Prop} {e : ε} (h : x.run s = .error e s') :
    ¬Returns x s P := by
  rintro ⟨a, s₁, hok, _⟩
  rw [h] at hok
  cases hok

/-- After a change it is too late to throw. -/
theorem not_atomic_of_error {e : ε} (h : x.run s = .error e s') (hne : s' ≠ s) :
    ¬Atomic x s :=
  fun hatomic => hne (hatomic e s' h)

/-! ## Sequences and loops -/

theorem run_bind_of_ok {a : α} (h : x.run s = .ok a s') : (x >>= f).run s = (f a).run s' := by
  rw [EStateM.run_bind, h]

theorem run_bind_of_error {e : ε} (h : x.run s = .error e s') :
    (x >>= f).run s = .error e s' := by
  rw [EStateM.run_bind, h]

/-- A loop whose rounds all return, in the states of an invariant, computes its value and
its state by two folds. -/
theorem run_foldlM {ι : Type} {body : β → ι → EStateM ε σ β} {next : β → ι → β}
    {move : σ → ι → σ} {Inv : σ → Prop} (hinv : ∀ s i, Inv s → Inv (move s i))
    (hbody : ∀ s b i, Inv s → (body b i).run s = .ok (next b i) (move s i))
    (l : List ι) (b : β) (hs : Inv s) :
    (l.foldlM body b).run s = .ok (l.foldl next b) (l.foldl move s) := by
  induction l generalizing b s with
  | nil => rfl
  | cons i l ih =>
      rw [List.foldlM_cons, run_bind_of_ok (hbody s b i hs), ih (next b i) (hinv s i hs)]
      rfl

end Throwing
end YatCasched
