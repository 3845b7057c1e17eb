import Mathlib.Algebra.Group.Basic
import Mathlib.Logic.Function.Basic

/-!
# Metering the running members

Each processor has a clock and runs at most one member at a time.  A member is
charged for the time it runs through a saved start time: an update adds what has
elapsed since the start, and moves the start to the current time.  The time a
member really used is kept beside it, as a history variable.

Main results:

- Theorem {lit}`exact_iff_pending`: what an update would charge, without updates.
- Theorem {lit}`exact_step_iff`: the events that keep the charges exact.
-/

namespace YatCasched

/-- Clocks, running members, and the charges of the counted ones. -/
@[ext]
structure Meter (ι α T : Type*) where
  clock : ι → T
  running : ι → Option α
  counted : α → Bool
  start : α → T
  charged : α → T
  used : α → T

namespace Meter

variable {ι α T : Type*} [DecidableEq α] [AddGroup T]

/-! ## Charges -/

/-- Charge the running member, if it is counted. -/
def update (elapsed : T → T → T) (m : Meter ι α T) (i : ι) : Meter ι α T :=
  match m.running i with
  | none => m
  | some a =>
      if m.counted a then
        { m with
          start := Function.update m.start a (m.clock i)
          charged :=
            Function.update m.charged a (m.charged a + elapsed (m.clock i) (m.start a)) }
      else
        m

/-- The used times after the clock has moved. -/
def usedAt (m : Meter ι α T) (i : ι) (now : T) : α → T :=
  match m.running i with
  | none => m.used
  | some a =>
      if m.counted a then
        Function.update m.used a (m.used a + (now - m.clock i))
      else
        m.used

/-- The member runs on this processor, if it runs. -/
def RunsOnlyOn (m : Meter ι α T) (a : α) (i : ι) : Prop :=
  ∀ j, m.running j = some a → j = i

/-- The member has been charged up to now, if it runs and is counted. -/
def Settled (m : Meter ι α T) (a : α) : Prop :=
  ∀ i, m.running i = some a → m.counted a = true → m.start a = m.clock i

/-- No member runs on two processors. -/
def Alone (m : Meter ι α T) : Prop :=
  ∀ a i, m.running i = some a → m.RunsOnlyOn a i

/-- An update on the processor of a counted member makes its charge the time it used. -/
def Exact (elapsed : T → T → T) (m : Meter ι α T) : Prop :=
  ∀ a i, m.counted a = true → m.RunsOnlyOn a i → (update elapsed m i).charged a = m.used a

/-! ## Pending time -/

/-- What an update would add to the charge of the member. -/
def pending (elapsed : T → T → T) (m : Meter ι α T) (i : ι) (a : α) : T :=
  if m.running i = some a then elapsed (m.clock i) (m.start a) else 0

variable {elapsed : T → T → T} {m : Meter ι α T} {a : α} {i : ι}

theorem update_charged (ha : m.counted a = true) :
    (update elapsed m i).charged a = m.charged a + pending elapsed m i a := by
  unfold update pending
  cases hrunning : m.running i with
  | none => simp
  | some b =>
      by_cases hab : a = b
      · subst hab
        simp [ha]
      · have hne : b ≠ a := fun hba => hab hba.symm
        by_cases hb : m.counted b = true
        · simp [hb, hab, hne]
        · simp [hb, hne]

/-- The charge of the member and what is pending make up the time it used. -/
def Balanced (elapsed : T → T → T) (m : Meter ι α T) (a : α) : Prop :=
  ∀ i, m.RunsOnlyOn a i → m.charged a + pending elapsed m i a = m.used a

/-- Charges are exact if each counted member is balanced. -/
theorem exact_iff_pending : Exact elapsed m ↔ ∀ a, m.counted a = true → Balanced elapsed m a := by
  constructor
  · intro h a ha i hi
    rw [← update_charged ha]
    exact h a i ha hi
  · intro h a i ha hi
    rw [update_charged ha]
    exact h a ha i hi

/-- Nothing is pending for a settled member. -/
theorem Settled.pending_eq_zero (helapsed : ∀ t, elapsed t t = 0) (h : m.Settled a)
    (ha : m.counted a = true) (i : ι) : pending elapsed m i a = 0 := by
  unfold pending
  split
  · rename_i hrunning
    rw [h i hrunning ha, helapsed]
  · rfl

/-- Nothing is pending for a member that does not run. -/
theorem pending_of_not_running (hi : m.running i ≠ some a) : pending elapsed m i a = 0 := by
  simp [pending, hi]

/-- A running member uses the time by which its clock moves. -/
theorem usedAt_of_running {now : T} (hi : m.running i = some a) (ha : m.counted a = true) :
    m.usedAt i now a = m.used a + (now - m.clock i) := by
  unfold usedAt
  rw [hi]
  simp [ha]

theorem usedAt_of_not_running {now : T} (hi : m.running i ≠ some a) :
    m.usedAt i now a = m.used a := by
  unfold usedAt
  cases hrunning : m.running i with
  | none => rfl
  | some b =>
      have hab : a ≠ b := by
        rintro rfl
        exact hi hrunning
      by_cases hb : m.counted b = true
      · simp [hb, hab]
      · simp [hb]

/-- A member is as balanced as before if the event does not touch it. -/
theorem Balanced.congr {m' : Meter ι α T} (h : Balanced elapsed m a)
    (hrunning : ∀ i, m'.running i = some a ↔ m.running i = some a)
    (hclock : ∀ i, m.running i = some a → m'.clock i = m.clock i)
    (hstart : ∀ i, m.running i = some a → m'.start a = m.start a)
    (hcharged : m'.charged a = m.charged a) (hused : m'.used a = m.used a) :
    Balanced elapsed m' a := by
  intro i hi
  have hpending : pending elapsed m' i a = pending elapsed m i a := by
    unfold pending
    by_cases hrun : m.running i = some a
    · rw [if_pos hrun, if_pos ((hrunning i).mpr hrun), hclock i hrun, hstart i hrun]
    · rw [if_neg hrun, if_neg fun hrun' => hrun ((hrunning i).mp hrun')]
  rw [hpending, hcharged, hused]
  exact h i fun j hj => hi j ((hrunning j).mpr hj)

/-- The charge of a balanced member that does not run is the time it used. -/
theorem Balanced.charged_eq (h : Balanced elapsed m a) (ha : ∀ i, m.running i ≠ some a)
    (i : ι) : m.charged a = m.used a := by
  have hused := h i fun j hj => absurd hj (ha j)
  rwa [pending_of_not_running (ha i), add_zero] at hused

/-- So is the charge of a settled one. -/
theorem Balanced.charged_eq_of_settled (helapsed : ∀ t, elapsed t t = 0)
    (h : Balanced elapsed m a) (ha : m.counted a = true) (hsettled : m.Settled a)
    (hi : m.RunsOnlyOn a i) : m.charged a = m.used a := by
  have hused := h i hi
  rwa [hsettled.pending_eq_zero helapsed ha, add_zero] at hused

/-! ## Events -/

/-- What can happen to a meter. -/
inductive Event (ι α T : Type*)
  /-- A new member. -/
  | create (a : α)
  /-- The charge of a member is lost. -/
  | reset (i : ι) (a : α)
  /-- The running member is charged. -/
  | update (i : ι)
  /-- The start time of a member is set. -/
  | restart (i : ι) (a : α)
  | switch (i : ι) (next : Option α)
  | tick (i : ι) (now : T)
  | other

variable [DecidableEq ι]

/-- The effect of an event. -/
def step (elapsed : T → T → T) (m : Meter ι α T) : Event ι α T → Meter ι α T
  | .create a =>
      { m with
        start := Function.update m.start a 0
        charged := Function.update m.charged a 0
        used := Function.update m.used a 0 }
  | .reset _ a => { m with charged := Function.update m.charged a 0 }
  | .update i => update elapsed m i
  | .restart i a => { m with start := Function.update m.start a (m.clock i) }
  | .switch i next => { m with running := Function.update m.running i next }
  | .tick i now =>
      { m with clock := Function.update m.clock i now, used := m.usedAt i now }
  | .other => m

/-- New members do not run, members are settled before they are reset, restarted or
switched away from, and run on one processor. -/
def Legal (m : Meter ι α T) : Event ι α T → Prop
  | .create a => ∀ i, m.running i ≠ some a
  | .reset i a | .restart i a => m.RunsOnlyOn a i ∧ m.Settled a
  | .switch i next =>
      (∀ a, m.running i = some a → m.Settled a) ∧ ∀ a, next = some a → m.RunsOnlyOn a i
  | _ => True

/-- The events that charge what was used: a member is reset before it has used any
time, a member that is switched in has a start from which nothing has elapsed, and
the elapsed time of a running member grows as its clock does. -/
def Good (elapsed : T → T → T) (m : Meter ι α T) : Event ι α T → Prop
  | .reset _ a => m.counted a = true → m.used a = 0
  | .switch i next =>
      ∀ a, next = some a → m.counted a = true → elapsed (m.clock i) (m.start a) = 0
  | .tick i now =>
      ∀ a, m.running i = some a → m.counted a = true →
        elapsed now (m.start a) = elapsed (m.clock i) (m.start a) + (now - m.clock i)
  | _ => True

/-! ## One event -/

/-- No legal event makes a member run on two processors. -/
theorem alone_step (m : Meter ι α T) (e : Event ι α T) (h : m.Alone) (he : m.Legal e) :
    (step elapsed m e).Alone := by
  cases e with
  | switch i next =>
      intro a j hj k hk
      simp only [step] at hj hk
      by_cases hji : j = i
      · by_cases hki : k = i
        · rw [hji, hki]
        · rw [hji, Function.update_self] at hj
          rw [Function.update_of_ne hki] at hk
          exact absurd (he.2 a hj k hk) hki
      · rw [Function.update_of_ne hji] at hj
        by_cases hki : k = i
        · rw [hki, Function.update_self] at hk
          exact absurd (he.2 a hk j hj) hji
        · rw [Function.update_of_ne hki] at hk
          exact h a j hj k hk
  | update i =>
      show (update elapsed m i).Alone
      unfold update
      split
      · exact h
      · split
        · exact h
        · exact h
  | _ => exact h

theorem Exact.create (h : Exact elapsed m) {b : α} (hb : ∀ i, m.running i ≠ some b) :
    Exact elapsed (step elapsed m (.create b)) := by
  rw [exact_iff_pending] at *
  intro a ha
  by_cases hab : a = b
  · subst hab
    intro i _
    have hpending : pending elapsed (step elapsed m (.create a)) i a = 0 :=
      pending_of_not_running (hb i)
    rw [hpending]
    simp [step]
  · refine (h a ha).congr (fun _ => Iff.rfl) (fun _ _ => rfl) (fun _ _ => ?_) ?_ ?_
    · simp [step, hab]
    · simp [step, hab]
    · simp [step, hab]

/-- A reset keeps the charges exact exactly if the member has used no time. -/
theorem Exact.reset_iff (helapsed : ∀ t, elapsed t t = 0) (h : Exact elapsed m) {b : α}
    (hi : m.RunsOnlyOn b i) (hsettled : m.Settled b) :
    Exact elapsed (step elapsed m (.reset i b)) ↔ (m.counted b = true → m.used b = 0) := by
  rw [exact_iff_pending] at *
  constructor
  · intro h' hb
    have hpending := Settled.pending_eq_zero helapsed
      (show (step elapsed m (.reset i b)).Settled b from hsettled) hb i
    have hused := h' b hb i hi
    rw [hpending] at hused
    simpa [step, eq_comm] using hused
  · intro hused a ha
    by_cases hab : a = b
    · subst hab
      intro j _
      have hpending := Settled.pending_eq_zero helapsed
        (show (step elapsed m (.reset i a)).Settled a from hsettled) ha j
      rw [hpending]
      simp [step, hused ha]
    · refine (h a ha).congr (fun _ => Iff.rfl) (fun _ _ => rfl) (fun _ _ => rfl) ?_ rfl
      simp [step, hab]

omit [DecidableEq ι] in
/-- An update keeps the charges exact. -/
theorem Exact.update (helapsed : ∀ t, elapsed t t = 0) (h : Exact elapsed m) (i : ι) :
    Exact elapsed (update elapsed m i) := by
  rw [exact_iff_pending] at *
  unfold Meter.update
  cases hrunning : m.running i with
  | none => exact h
  | some b =>
      by_cases hb : m.counted b = true
      · simp only [hb, if_true]
        intro a ha
        by_cases hab : a = b
        · subst hab
          intro j hj
          have hij : i = j := hj i hrunning
          subst hij
          have hold := h a hb i hj
          simpa [pending, hrunning, helapsed] using hold
        · refine (h a ha).congr (fun _ => Iff.rfl) (fun _ _ => rfl) (fun _ _ => ?_) ?_ rfl
          · simp [hab]
          · simp [hab]
      · simp only [hb]
        exact h

/-- Setting the start of a settled member again changes nothing. -/
theorem Exact.restart (h : Exact elapsed m) {b : α} (hi : m.RunsOnlyOn b i)
    (hsettled : m.Settled b) : Exact elapsed (step elapsed m (.restart i b)) := by
  rw [exact_iff_pending] at *
  intro a ha
  refine (h a ha).congr (fun _ => Iff.rfl) (fun _ _ => rfl) (fun j hj => ?_) rfl rfl
  by_cases hab : a = b
  · subst hab
    have hji : j = i := hi j hj
    subst hji
    simp [step, hsettled j hj ha]
  · simp [step, hab]

/-- A switch keeps the charges exact exactly if nothing has elapsed for the member that
is switched in. -/
theorem Exact.switch_iff (helapsed : ∀ t, elapsed t t = 0) (halone : m.Alone)
    (h : Exact elapsed m) {next : Option α} (he : m.Legal (.switch i next)) :
    Exact elapsed (step elapsed m (.switch i next)) ↔
      ∀ b, next = some b → m.counted b = true → elapsed (m.clock i) (m.start b) = 0 := by
  rw [exact_iff_pending] at *
  have hcharged : ∀ b, next = some b → m.counted b = true → m.charged b = m.used b := by
    intro b hb hcounted
    by_cases hrun : m.running i = some b
    · exact (h b hcounted).charged_eq_of_settled helapsed hcounted (he.1 b hrun) (he.2 b hb)
    · refine (h b hcounted).charged_eq (fun j hj => ?_) i
      have hji := he.2 b hb j hj
      subst hji
      exact hrun hj
  have hnext : ∀ b, next = some b → (step elapsed m (.switch i next)).RunsOnlyOn b i := by
    intro b hb j hj
    by_contra hji
    simp only [step, Function.update_of_ne hji] at hj
    exact hji (he.2 b hb j hj)
  constructor
  · intro h' b hb hcounted
    have hused := h' b hcounted i (hnext b hb)
    simp only [step, pending, Function.update_self, hb, if_true, hcharged b hb hcounted] at hused
    exact add_eq_left.mp hused
  · intro hgood a ha
    by_cases hin : next = some a
    · intro j hj
      have hij : i = j := hj i (by simp [step, hin])
      subst hij
      simp [step, pending, hin, hgood a hin ha, hcharged a hin ha]
    · by_cases hout : m.running i = some a
      · intro j _
        have hcharged := (h a ha).charged_eq_of_settled helapsed ha (he.1 a hout)
          (halone a i hout)
        rw [pending_of_not_running, add_zero]
        · exact hcharged
        · by_cases hji : j = i
          · subst hji
            simpa [step] using hin
          · simp only [step, Function.update_of_ne hji]
            intro hj
            exact hji (halone a i hout j hj)
      · refine (h a ha).congr (fun j => ?_) (fun _ _ => rfl) (fun _ _ => rfl) rfl rfl
        by_cases hji : j = i
        · subst hji
          simp [step, hin, hout]
        · simp [step, hji]

/-- The clock keeps the charges exact exactly if the elapsed time of the running member
grows as the clock does. -/
theorem Exact.tick_iff (halone : m.Alone) (h : Exact elapsed m) (now : T) :
    Exact elapsed (step elapsed m (.tick i now)) ↔ m.Good elapsed (.tick i now) := by
  rw [exact_iff_pending] at *
  constructor
  · intro h' b hb hcounted
    have hold := h b hcounted i (halone b i hb)
    have hnew := h' b hcounted i (halone b i hb)
    simp only [pending, hb, if_true] at hold
    simp only [step, pending, usedAt_of_running hb hcounted, hb, if_true,
      Function.update_self] at hnew
    rw [← hold, add_assoc] at hnew
    exact add_left_cancel hnew
  · intro hgood a ha
    have hcounted : m.counted a = true := ha
    by_cases hrun : m.running i = some a
    · intro j hj
      have hij : i = j := hj i hrun
      subst hij
      have hold := h a hcounted i hj
      simp only [pending, hrun, if_true] at hold
      simp only [step, pending, usedAt_of_running hrun hcounted, hrun, if_true,
        Function.update_self]
      rw [hgood a hrun hcounted, ← add_assoc, hold]
    · refine (h a ha).congr (fun _ => Iff.rfl) (fun j hj => ?_) (fun _ _ => rfl) rfl
        (usedAt_of_not_running hrun)
      have hji : j ≠ i := by
        rintro rfl
        exact hrun hj
      simp [step, hji]

/-- A legal event keeps the charges exact exactly if it is a good one. -/
theorem exact_step_iff (helapsed : ∀ t, elapsed t t = 0) (m : Meter ι α T)
    (e : Event ι α T) (halone : m.Alone) (h : Exact elapsed m) (he : m.Legal e) :
    Exact elapsed (step elapsed m e) ↔ m.Good elapsed e := by
  cases e with
  | create b => exact iff_of_true (h.create he) trivial
  | reset i b => exact h.reset_iff helapsed he.1 he.2
  | update i => exact iff_of_true (h.update helapsed i) trivial
  | restart i b => exact iff_of_true (h.restart he.1 he.2) trivial
  | switch i next => exact h.switch_iff helapsed halone he
  | tick i now => exact h.tick_iff halone now
  | other => exact iff_of_true h trivial

end Meter
end YatCasched
