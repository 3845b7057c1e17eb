import Mathlib.Tactic.TypeStar

/-!
# Traces of steps that can fail

A system whose steps have guards and may fail, as a function to optional states.  A trace
is a list of operations that are all allowed where they are applied and do not fail.

Main results:

- Theorem {lit}`Reaches.invariant`: what every allowed step keeps, a trace keeps.
-/

namespace YatCasched
namespace Trace

variable {σ α : Type*} {step : σ → α → Option σ} {ok : σ → α → Prop}

/-- The operations lead from the first state to the last. -/
inductive Reaches (step : σ → α → Option σ) (ok : σ → α → Prop) : σ → List α → σ → Prop
  | nil (s : σ) : Reaches step ok s [] s
  | cons {s t u : σ} {a : α} {as : List α} (hok : ok s a) (hstep : step s a = some t)
      (hrest : Reaches step ok t as u) : Reaches step ok s (a :: as) u

/-- The rule for invariants. -/
theorem Reaches.invariant (Inv : σ → Prop)
    (hkeep : ∀ s a t, Inv s → ok s a → step s a = some t → Inv t) {s t : σ} {as : List α}
    (hs : Inv s) (htrace : Reaches step ok s as t) : Inv t := by
  induction htrace with
  | nil => exact hs
  | cons hok hstep _ ih => exact ih (hkeep _ _ _ hs hok hstep)

end Trace
end YatCasched
