/-
Runs of a machine: a list of actions applied one after the other.

`run_invariant` is the induction every safety argument about such a
machine needs, done once: an invariant of the state that every action
preserves holds after any run. `EveryStep` states a property of each
single step of a run, in the state the run has reached by then; an
invariant may rely on it (`EveryStep.invariant`).

An action may also answer; `answers` are those of a run, in order. Where
a relation between the states of two machines is kept by every action,
and related states answer alike, so do the two machines over any run
(`run_simulates`; `EveryStep.simulates`, where only the steps of this run
do).
-/
import Mathlib.Tactic

namespace Edk2Exynos.Lib

variable {α σ : Type} (step : α → σ → σ)

/-- The state after the actions of a run. -/
def run : List α → σ → σ
  | [], s => s
  | a :: as, s => run as (step a s)

/-- Every step of the run has property `P` of its action and the state
before it. -/
def EveryStep (P : α → σ → Prop) : List α → σ → Prop
  | [], _ => True
  | a :: as, s => P a s ∧ EveryStep P as (step a s)

/-- What the actions of a run answer, each in the state it finds. -/
def answers {β : Type} (answer : α → σ → β) : List α → σ → List β
  | [], _ => []
  | a :: as, s => answer a s :: answers answer as (step a s)

variable {step}

instance EveryStep.decidable {P : α → σ → Prop}
    [(a : α) → (s : σ) → Decidable (P a s)] :
    (as : List α) → (s : σ) → Decidable (EveryStep step P as s)
  | [], _ => .isTrue trivial
  | a :: as, s =>
      have := EveryStep.decidable (P := P) as (step a s)
      inferInstanceAs (Decidable (_ ∧ _))

theorem run_singleton (a : α) (s : σ) : run step [a] s = step a s := rfl

theorem run_append (as as' : List α) (s : σ) :
    run step (as ++ as') s = run step as' (run step as s) := by
  induction as generalizing s with
  | nil => rfl
  | cons a as ih => exact ih (step a s)

/-- What every step with property `P` preserves, a run of them
preserves. -/
theorem EveryStep.invariant {P : α → σ → Prop} {Inv : σ → Prop}
    (hstep : ∀ a s, P a s → Inv s → Inv (step a s)) {as : List α} {s : σ}
    (has : EveryStep step P as s) (hs : Inv s) : Inv (run step as s) := by
  induction as generalizing s with
  | nil => exact hs
  | cons a as ih => exact ih has.2 (hstep a s has.1 hs)

/-- What every action preserves, every run preserves. -/
theorem run_invariant {Inv : σ → Prop}
    (hstep : ∀ a s, Inv s → Inv (step a s)) (as : List α) {s : σ}
    (hs : Inv s) : Inv (run step as s) := by
  induction as generalizing s with
  | nil => exact hs
  | cons a as ih => exact ih (hstep a s hs)

/-- The last action of a run is taken in the state the others lead to. -/
theorem EveryStep.last {P : α → σ → Prop} {as : List α} {a : α} {s : σ}
    (h : EveryStep step P (as ++ [a]) s) : P a (run step as s) := by
  induction as generalizing s with
  | nil => exact h.1
  | cons a' as ih => exact ih h.2

/-- A property of every step in every state holds along any run. -/
theorem EveryStep.of_forall {P : α → σ → Prop} (h : ∀ a s, P a s)
    (as : List α) (s : σ) : EveryStep step P as s := by
  induction as generalizing s with
  | nil => trivial
  | cons a as ih => exact ⟨h a s, ih (step a s)⟩

/-- A relation that every step with property `P` keeps, and under which it
answers the same, is kept by every run of them, which answers the same. -/
theorem EveryStep.simulates {β τ : Type} {P : α → σ → Prop}
    {step' : α → τ → τ} {answer : α → σ → β} {answer' : α → τ → β}
    {R : σ → τ → Prop}
    (hstep : ∀ a s t, P a s → R s t →
      R (step a s) (step' a t) ∧ answer a s = answer' a t)
    {as : List α} {s : σ} {t : τ} (has : EveryStep step P as s)
    (hR : R s t) :
    R (run step as s) (run step' as t)
      ∧ answers step answer as s = answers step' answer' as t := by
  induction as generalizing s t with
  | nil => exact ⟨hR, rfl⟩
  | cons a as ih =>
    obtain ⟨hnext, hanswer⟩ := hstep a s t has.1 hR
    obtain ⟨hrun, hanswers⟩ := ih has.2 hnext
    refine ⟨hrun, ?_⟩
    simp only [answers, hanswer, hanswers]

/-- A relation that every action keeps, and under which it answers the
same, is kept by every run, which answers the same. -/
theorem run_simulates {β τ : Type} {step' : α → τ → τ}
    {answer : α → σ → β} {answer' : α → τ → β} {R : σ → τ → Prop}
    (hstep : ∀ a s t, R s t →
      R (step a s) (step' a t) ∧ answer a s = answer' a t)
    (as : List α) {s : σ} {t : τ} (hR : R s t) :
    R (run step as s) (run step' as t)
      ∧ answers step answer as s = answers step' answer' as t :=
  EveryStep.simulates (P := fun _ _ => True)
    (fun a s t _ => hstep a s t) (.of_forall (fun _ _ => trivial) as s) hR

/-- Two properties of each step are one of their conjunction. -/
theorem EveryStep.and {P Q : α → σ → Prop} {as : List α} {s : σ}
    (hP : EveryStep step P as s) (hQ : EveryStep step Q as s) :
    EveryStep step (fun a s => P a s ∧ Q a s) as s := by
  induction as generalizing s with
  | nil => trivial
  | cons a as ih => exact ⟨⟨hP.1, hQ.1⟩, ih hP.2 hQ.2⟩

/-- Equivalent properties hold along the same runs. -/
theorem everyStep_congr {P Q : α → σ → Prop}
    (h : ∀ a s, P a s ↔ Q a s) (as : List α) (s : σ) :
    EveryStep step P as s ↔ EveryStep step Q as s := by
  induction as generalizing s with
  | nil => exact Iff.rfl
  | cons a as ih => exact and_congr (h a s) (ih (step a s))

end Edk2Exynos.Lib
