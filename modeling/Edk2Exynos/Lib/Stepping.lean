/-
A machine that takes steps until it is done.

`steps` is the machine run for a number of steps at most. Runs follow one
another (`steps_add`), a run that is done stays so (`steps_done_mono`), and
how it is done does not depend on the number (`steps_done_unique`). A loop
is an invariant indexed by the turns taken: where each turn keeps it, so do
all of them (`steps_loop`), and where a turn may break out of the loop the
turns before the first that does (`steps_loop_until`).
-/
import Mathlib.Tactic

namespace Edk2Exynos.Lib

/-- What a step leads to. -/
inductive Stepped (σ ρ : Type) where
  | next (s : σ)
  | done (r : ρ)

variable {σ ρ : Type} (step : σ → Stepped σ ρ)

/-- At most `n` steps. -/
def steps : Nat → σ → Stepped σ ρ
  | 0, s => .next s
  | n + 1, s =>
      match step s with
      | .next s => steps n s
      | .done r => .done r

variable {step}

theorem steps_succ_of_next {s s' : σ} (h : step s = .next s') (n : Nat) :
    steps step (n + 1) s = steps step n s' := by
  rw [steps, h]

theorem steps_succ_of_done {s : σ} {r : ρ} (h : step s = .done r)
    (n : Nat) : steps step (n + 1) s = .done r := by
  rw [steps, h]

/-- One run after another. -/
theorem steps_add {n : Nat} {s s' : σ} (h : steps step n s = .next s')
    (k : Nat) : steps step (n + k) s = steps step k s' := by
  induction n generalizing s with
  | zero =>
      rw [Nat.zero_add]
      cases h
      rfl
  | succ n ih =>
      cases hstep : step s with
      | next s₁ =>
          rw [steps_succ_of_next hstep] at h
          rw [Nat.add_right_comm, steps_succ_of_next hstep]
          exact ih h
      | done r =>
          rw [steps_succ_of_done hstep] at h
          cases h

/-- With more steps to take, a run that is done is done the same. -/
theorem steps_done_mono {n k : Nat} {s : σ} {r : ρ}
    (h : steps step n s = .done r) (hle : n ≤ k) :
    steps step k s = .done r := by
  obtain ⟨k, rfl⟩ := Nat.exists_eq_add_of_le hle
  induction n generalizing s with
  | zero => cases h
  | succ n ih =>
      rw [Nat.add_right_comm]
      cases hstep : step s with
      | next s₁ =>
          rw [steps_succ_of_next hstep] at h ⊢
          exact ih h (Nat.le_add_right n k)
      | done r' =>
          rw [steps_succ_of_done hstep] at h ⊢
          exact h

theorem steps_done_unique {n k : Nat} {s : σ} {r r' : ρ}
    (h : steps step n s = .done r) (h' : steps step k s = .done r') :
    r = r' := by
  have hmax := steps_done_mono h (Nat.le_max_left n k)
  rw [steps_done_mono h' (Nat.le_max_right n k)] at hmax
  cases hmax
  rfl

-- ================================================================= loops

/-- What every turn of `k` steps keeps, `n` turns keep. -/
theorem steps_loop {k : Nat} {I : Nat → σ → Prop} {n : Nat}
    (hturn : ∀ j s, j < n → I j s →
      ∃ s', steps step k s = .next s' ∧ I (j + 1) s') {s : σ} (hs : I 0 s) :
    ∃ s', steps step (k * n) s = .next s' ∧ I n s' := by
  have hturns : ∀ j, j ≤ n →
      ∃ s', steps step (k * j) s = .next s' ∧ I j s' := by
    intro j
    induction j with
    | zero => exact fun _ => ⟨s, rfl, hs⟩
    | succ j ih =>
        intro hj
        obtain ⟨s₁, hrun, h₁⟩ := ih (Nat.le_of_succ_le hj)
        obtain ⟨s', hone, h'⟩ := hturn j s₁ hj h₁
        exact ⟨s', (steps_add hrun k).trans hone, h'⟩
  exact hturns n (Nat.le_refl n)

/-- A loop that looks for the first turn with property `P` keeps its
invariant up to it, or through all `n` turns. -/
theorem steps_loop_until {k : Nat} {I : Nat → σ → Prop} {n : Nat}
    {P : Nat → Prop} [DecidablePred P]
    (hturn : ∀ j s, j < n → ¬ P j → I j s →
      ∃ s', steps step k s = .next s' ∧ I (j + 1) s') {s : σ} (hs : I 0 s) :
    (∃ j < n, P j ∧ ∃ s', steps step (k * j) s = .next s' ∧ I j s')
      ∨ (∀ j < n, ¬ P j) ∧ ∃ s', steps step (k * n) s = .next s' ∧ I n s' := by
  by_cases hfound : ∃ j, j < n ∧ P j
  · have hfirst := Nat.find_spec hfound
    have hbefore : ∀ i < Nat.find hfound, ¬ P i := fun i hi hP =>
      Nat.find_min hfound hi ⟨Nat.lt_trans hi hfirst.1, hP⟩
    exact .inl ⟨Nat.find hfound, hfirst.1, hfirst.2, steps_loop
      (fun j s hj hI => hturn j s (Nat.lt_trans hj hfirst.1) (hbefore j hj)
        hI) hs⟩
  · have hnone : ∀ j < n, ¬ P j := fun j hj hP => hfound ⟨j, hj, hP⟩
    exact .inr ⟨hnone, steps_loop
      (fun j s hj hI => hturn j s hj (hnone j hj) hI) hs⟩

end Edk2Exynos.Lib
