/-
Polling a stream for the first answer, at most a given number of times
more after the first.

`firstHit f t k` asks `f k`, `f (k + 1)`, ... up to `f (k + t)`. Where a
look changes what is looked at, `pollWith` is the loop over the state, and
its answer is the first hit in the stream of what would be seen
(`pollWith_fst`).
-/
import Mathlib.Tactic

namespace Edk2Exynos.Lib

variable {β : Type}

/-- The first answer from `k` on, within `t` further polls. -/
def firstHit (f : Nat → Option β) : Nat → Nat → Option β
  | 0, k => f k
  | t + 1, k =>
      match f k with
      | some b => some b
      | none => firstHit f t (k + 1)

theorem firstHit_eq_some_iff (f : Nat → Option β) (t k : Nat) (b : β) :
    firstHit f t k = some b
      ↔ ∃ j ≤ t, f (k + j) = some b ∧ ∀ i < j, f (k + i) = none := by
  induction t generalizing k with
  | zero =>
      refine ⟨fun h => ⟨0, Nat.le_refl 0, h, fun i hi => by omega⟩, ?_⟩
      rintro ⟨j, hj, hb, -⟩
      have hj0 : j = 0 := by omega
      rw [hj0] at hb
      exact hb
  | succ t ih =>
      unfold firstHit
      cases hk : f k with
      | some b' =>
          constructor
          · intro h
            exact ⟨0, Nat.zero_le _, hk.trans h, fun i hi => by omega⟩
          · rintro ⟨j, -, hb, hnone⟩
            cases j with
            | zero => exact hk.symm.trans hb
            | succ j =>
                have h0 := hnone 0 (by omega)
                rw [Nat.add_zero, hk] at h0
                cases h0
      | none =>
          dsimp only
          rw [ih]
          constructor
          · rintro ⟨j, hj, hb, hnone⟩
            refine ⟨j + 1, by omega, ?_, fun i hi => ?_⟩
            · rwa [show k + 1 + j = k + (j + 1) by omega] at hb
            · cases i with
              | zero => exact hk
              | succ i =>
                  have hi' := hnone i (by omega)
                  rwa [show k + 1 + i = k + (i + 1) by omega] at hi'
          · rintro ⟨j, hj, hb, hnone⟩
            cases j with
            | zero =>
                rw [Nat.add_zero, hk] at hb
                cases hb
            | succ j =>
                refine ⟨j, by omega, ?_, fun i hi => ?_⟩
                · rwa [show k + 1 + j = k + (j + 1) by omega]
                · have hi' := hnone (i + 1) (by omega)
                  rwa [show k + 1 + i = k + (i + 1) by omega]

theorem firstHit_succ (f : Nat → Option β) (t k : Nat) :
    firstHit f t (k + 1) = firstHit (fun i => f (i + 1)) t k := by
  induction t generalizing k with
  | zero => rfl
  | succ t ih =>
      unfold firstHit
      rw [ih]

-- ======================================================== a polled state

variable {α σ : Type} (look : σ → α × σ) (wait : σ → σ)

/-- Look, and unless that gives an answer wait and look again, at most `t`
times. -/
def pollWith (f : α → Option β) : Nat → σ → Option β × σ
  | 0, s =>
      let (a, s) := look s
      (f a, s)
  | t + 1, s =>
      let (a, s) := look s
      match f a with
      | some b => (some b, s)
      | none => pollWith f t (wait s)

/-- What is seen when no look before gave an answer. -/
def seen (s : σ) : Nat → α
  | 0 => (look s).1
  | k + 1 => seen (wait (look s).2) k

theorem pollWith_fst (f : α → Option β) (t : Nat) (s : σ) :
    (pollWith look wait f t s).1
      = firstHit (fun k => f (seen look wait s k)) t 0 := by
  induction t generalizing s with
  | zero => rfl
  | succ t ih =>
      unfold pollWith firstHit
      have hhead : seen look wait s 0 = (look s).1 := rfl
      rw [firstHit_succ, hhead]
      dsimp only
      cases f (look s).1 with
      | some b => rfl
      | none => exact ih _

end Edk2Exynos.Lib
