import Mathlib.Data.List.Basic
import Mathlib.Data.List.Induction

/-!
# Runs of a step function

A system is given by a total step function; a run is the left fold of that
function over a list of operations.  This module fixes what it means for every
operation of a run to be allowed and for a predicate to hold after every
operation, and packages the inductions the later developments use.  Steps that can
fail are folded in {lit}`Except`.

Main results:

- Theorem {lit}`foldl_invariant`: an invariant kept by every allowed step holds
  at the end of every run of allowed steps.
- Theorem {lit}`throughout_iff_guarded`: when a step keeps a property exactly
  if it satisfies a condition, a run keeps the property throughout exactly if
  all its steps satisfy the condition.
- Theorem {lit}`exists_foldlM`: when no step fails in a state that belongs to the
  operations before it, no run fails.
- Theorem {lit}`foldlM_range`: a counting loop whose rounds lead from one known state to
  the next.
-/

namespace YatCasched
namespace Run

variable {σ α : Type*} {step : σ → α → σ}

/-- Every operation is allowed in the state it is applied to. -/
def Guarded (step : σ → α → σ) (ok : σ → α → Prop) : σ → List α → Prop
  | _, [] => True
  | s, a :: as => ok s a ∧ Guarded step ok (step s a) as

/-- Whether a run is allowed can be computed if each step can. -/
instance decidableGuarded (ok : σ → α → Prop) [∀ s a, Decidable (ok s a)] :
    ∀ (s : σ) (as : List α), Decidable (Guarded step ok s as)
  | _, [] => isTrue trivial
  | s, a :: as =>
      have := decidableGuarded ok (step s a) as
      inferInstanceAs (Decidable (ok s a ∧ Guarded step ok (step s a) as))

/-- The predicate holds after every operation of the run. -/
def Throughout (step : σ → α → σ) (P : σ → Prop) : σ → List α → Prop
  | _, [] => True
  | s, a :: as => P (step s a) ∧ Throughout step P (step s a) as

@[simp]
theorem guarded_nil (ok : σ → α → Prop) (s : σ) : Guarded step ok s [] :=
  trivial

@[simp]
theorem guarded_cons {ok : σ → α → Prop} {s : σ} {a : α} {as : List α} :
    Guarded step ok s (a :: as) ↔ ok s a ∧ Guarded step ok (step s a) as :=
  Iff.rfl

@[simp]
theorem throughout_nil (P : σ → Prop) (s : σ) :
    Throughout step P s ([] : List α) :=
  trivial

@[simp]
theorem throughout_cons {P : σ → Prop} {s : σ} {a : α} {as : List α} :
    Throughout step P s (a :: as) ↔
      P (step s a) ∧ Throughout step P (step s a) as :=
  Iff.rfl

/-- If everything is allowed, so is every run. -/
theorem guarded_of_forall {ok : σ → α → Prop} (hok : ∀ s a, ok s a) (s : σ) (as : List α) :
    Guarded step ok s as := by
  induction as generalizing s with
  | nil => exact guarded_nil ok s
  | cons a as ih => exact ⟨hok s a, ih (step s a)⟩

/-- So is a run of operations that are allowed in every state. -/
theorem guarded_of_forall_mem {ok : α → Prop} {as : List α} (hok : ∀ a ∈ as, ok a) (s : σ) :
    Guarded step (fun _ a => ok a) s as := by
  induction as generalizing s with
  | nil => exact guarded_nil _ s
  | cons a as ih =>
      exact ⟨hok a List.mem_cons_self,
        ih (fun b hb => hok b (List.mem_cons_of_mem a hb)) (step s a)⟩

/-- A run is allowed by two conditions exactly if each allows it. -/
theorem guarded_and {ok ok' : σ → α → Prop} {s : σ} {as : List α} :
    Guarded step (fun s a => ok s a ∧ ok' s a) s as ↔
      Guarded step ok s as ∧ Guarded step ok' s as := by
  induction as generalizing s with
  | nil => simp
  | cons a as ih => simp [ih, and_and_and_comm]

/-- What every allowed step does in the states of an invariant, it does all along an
allowed run. -/
theorem guarded_of_invariant {legal ok : σ → α → Prop} {Inv : σ → Prop}
    (hinv : ∀ s a, Inv s → legal s a → Inv (step s a))
    (hok : ∀ s a, Inv s → legal s a → ok s a) {s : σ} {as : List α} (hs : Inv s)
    (hlegal : Guarded step legal s as) : Guarded step ok s as := by
  induction as generalizing s with
  | nil => exact guarded_nil ok s
  | cons a as ih => exact ⟨hok s a hs hlegal.1, ih (hinv s a hs hlegal.1) hlegal.2⟩

/-- A run splits at any point into two guarded runs. -/
theorem guarded_append {ok : σ → α → Prop} {s : σ} {as bs : List α} :
    Guarded step ok s (as ++ bs) ↔
      Guarded step ok s as ∧ Guarded step ok (as.foldl step s) bs := by
  induction as generalizing s with
  | nil => simp
  | cons a as ih => simp [ih, and_assoc]

/-- An invariant kept by every allowed step holds at the end of a guarded run. -/
theorem foldl_invariant {ok : σ → α → Prop} {Inv : σ → Prop}
    (hstep : ∀ s a, Inv s → ok s a → Inv (step s a)) {as : List α} {s : σ}
    (hs : Inv s) (hok : Guarded step ok s as) : Inv (as.foldl step s) := by
  induction as generalizing s with
  | nil => exact hs
  | cons a as ih =>
      rw [List.foldl_cons]
      exact ih (hstep s a hs hok.1) hok.2

/-- If, in every state satisfying the invariant and the property, an allowed
step keeps the property exactly when it satisfies {lit}`good`, then an allowed
run keeps the property throughout exactly when all its steps are good. -/
theorem throughout_iff_guarded {legal good : σ → α → Prop} {Inv P : σ → Prop}
    (hinv : ∀ s a, Inv s → legal s a → Inv (step s a))
    (hexact : ∀ s a, Inv s → P s → legal s a → (P (step s a) ↔ good s a)) :
    ∀ {as : List α} {s : σ}, Inv s → P s → Guarded step legal s as →
      (Throughout step P s as ↔ Guarded step good s as)
  | [], _, _, _, _ => by simp
  | a :: as, s, hs, hP, hlegal => by
      rw [throughout_cons, guarded_cons, ← hexact s a hs hP hlegal.1]
      refine and_congr_right fun hnext => ?_
      exact throughout_iff_guarded hinv hexact (hinv s a hs hlegal.1) hnext hlegal.2

/-! ## Steps that can fail -/

section Fallible

variable {ε : Type*} {next : σ → α → Except ε σ}

/-- A run goes on with a step that succeeds. -/
theorem foldlM_append_singleton {as : List α} {a : α} {s t t' : σ}
    (has : as.foldlM next s = .ok t) (ha : next t a = .ok t') :
    (as ++ [a]).foldlM next s = .ok t' := by
  rw [List.foldlM_append, has]
  show List.foldlM next t [a] = _
  rw [List.foldlM_cons, ha]
  rfl

/-- If every step succeeds from the states that belong to the operations before it,
and leads to a state that belongs to these and its own, then every run succeeds. -/
theorem exists_foldlM {Inv : List α → σ → Prop} {s : σ} (hs : Inv [] s) (as : List α)
    (hstep : ∀ before a after t, as = before ++ a :: after → Inv before t →
      ∃ t', next t a = .ok t' ∧ Inv (before ++ [a]) t') :
    ∃ t, as.foldlM next s = .ok t ∧ Inv as t := by
  induction as using List.reverseRecOn with
  | nil => exact ⟨s, rfl, hs⟩
  | append_singleton as a ih =>
      have hbefore : ∀ before b after t, as = before ++ b :: after → Inv before t →
          ∃ t', next t b = .ok t' ∧ Inv (before ++ [b]) t' := by
        intro before b after t hsplit ht
        apply hstep before b (after ++ [a]) t _ ht
        rw [hsplit, List.append_assoc, List.cons_append]
      rcases ih hbefore with ⟨t, hrun, ht⟩
      rcases hstep as a [] t rfl ht with ⟨t', hnext, ht'⟩
      exact ⟨t', foldlM_append_singleton hrun hnext, ht'⟩

/-- A counting loop whose rounds lead from one known state to the next. -/
theorem foldlM_range {next : σ → Nat → Except ε σ} (states : Nat → σ) (n : Nat)
    (hstep : ∀ i, i < n → next (states i) i = .ok (states (i + 1))) :
    (List.range n).foldlM next (states 0) = .ok (states n) := by
  induction n with
  | zero => rfl
  | succ n ih =>
      rw [List.range_succ]
      exact foldlM_append_singleton (ih fun i hi => hstep i (Nat.lt_succ_of_lt hi))
        (hstep n (Nat.lt_succ_self n))

/-- What a check of the result of a run says, once the result has a name. -/
theorem of_all_ok {run : Except ε σ} {r : σ} {P : σ → Prop} [DecidablePred P]
    (hrun : run = .ok r) (hcheck : (run.toOption.all fun r => decide (P r)) = true) : P r := by
  rw [hrun] at hcheck
  exact of_decide_eq_true hcheck

/-- The same for the results of two runs. -/
theorem of_all_ok₂ {τ : Type*} {run : Except ε σ} {run' : Except ε τ} {r : σ} {r' : τ}
    {P : σ → τ → Prop} [∀ r r', Decidable (P r r')] (hrun : run = .ok r) (hrun' : run' = .ok r')
    (hcheck : (run.toOption.all fun r => run'.toOption.all fun r' => decide (P r r')) = true) :
    P r r' :=
  of_all_ok hrun' (of_all_ok (P := fun r =>
    (run'.toOption.all fun r' => decide (P r r')) = true) hrun (by simpa using hcheck))

/-- A search that stops at the first hit, if no test fails. -/
theorem findM?_eq_ok {α : Type} {test : α → Except ε Bool} {p : α → Bool} {as : List α}
    (htest : ∀ a ∈ as, test a = .ok (p a)) : as.findM? test = .ok (as.find? p) := by
  induction as with
  | nil => rfl
  | cons a as ih =>
      rw [List.findM?, htest a List.mem_cons_self, List.find?_cons]
      cases hp : p a with
      | true => rfl
      | false => exact ih fun b hb => htest b (List.mem_cons_of_mem a hb)

/-- So is the question whether there is a hit. -/
theorem anyM_eq_ok {test : α → Except ε Bool} {p : α → Bool} {as : List α}
    (htest : ∀ a ∈ as, test a = .ok (p a)) : as.anyM test = .ok (as.any p) := by
  induction as with
  | nil => rfl
  | cons a as ih =>
      rw [List.anyM, htest a List.mem_cons_self, List.any_cons]
      cases hp : p a with
      | true => rfl
      | false => exact ih fun b hb => htest b (List.mem_cons_of_mem a hb)

end Fallible

end Run
end YatCasched
