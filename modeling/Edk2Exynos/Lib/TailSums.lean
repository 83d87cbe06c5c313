/-
Sums over the indices from `n` up, and below `n`, of a finite family.

A loop that runs through the indices downwards and adds up as it goes has
the tail sum in its accumulator.
-/
import Mathlib.Algebra.BigOperators.Fin

namespace Edk2Exynos.Lib

variable {M : Type} [AddCommMonoid M] {k : Nat}

/-- The sum of the members from `n` up. -/
def tailSum (f : Fin k → M) (n : Nat) : M := ∑ i with n ≤ i.val, f i

/-- The sum of those below. -/
def headSum (f : Fin k → M) (n : Nat) : M := ∑ i with i.val < n, f i

/-- Behind the last term nothing is left. -/
theorem tailSum_end (f : Fin k → M) : tailSum f k = 0 := by
  unfold tailSum
  apply Finset.sum_eq_zero
  intro i hi
  have hle := (Finset.mem_filter.mp hi).2
  exact absurd i.isLt (Nat.not_lt.mpr hle)

/-- A tail is its first term and the next tail. -/
theorem tailSum_eq (f : Fin k → M) {n : Nat} (hn : n < k) :
    tailSum f n = f ⟨n, hn⟩ + tailSum f (n + 1) := by
  have hinsert : (Finset.univ.filter fun i : Fin k => n ≤ i.val)
      = insert ⟨n, hn⟩
        (Finset.univ.filter fun i : Fin k => n + 1 ≤ i.val) := by
    ext i
    simp only [Finset.mem_filter, Finset.mem_univ, true_and,
      Finset.mem_insert, Fin.ext_iff]
    omega
  unfold tailSum
  rw [hinsert, Finset.sum_insert]
  simp only [Finset.mem_filter, Finset.mem_univ, true_and]
  omega

/-- Every index splits the sum in a head and a tail. -/
theorem sum_eq_headSum_add_tailSum (f : Fin k → M) (n : Nat) :
    ∑ i, f i = headSum f n + tailSum f n := by
  have hneg : (Finset.univ.filter fun i : Fin k => ¬ i.val < n)
      = Finset.univ.filter fun i : Fin k => n ≤ i.val := by
    ext i
    simp only [Finset.mem_filter, Finset.mem_univ, true_and, Nat.not_lt]
  unfold headSum tailSum
  rw [← hneg]
  exact (Finset.sum_filter_add_sum_filter_not _ _ f).symm

/-- The empty head. -/
theorem headSum_zero (f : Fin k → M) : headSum f 0 = 0 := by
  unfold headSum
  apply Finset.sum_eq_zero
  intro i hi
  exact absurd (Finset.mem_filter.mp hi).2 (Nat.not_lt_zero _)

/-- The first member and those after it. -/
theorem sum_eq_first_add_tailSum (f : Fin (k + 1) → M) :
    ∑ i, f i = f 0 + tailSum f 1 := by
  rw [sum_eq_headSum_add_tailSum f 0, headSum_zero, zero_add,
    tailSum_eq f (Nat.succ_pos k)]
  rfl

/-- Terms that agree from an index on have one tail. -/
theorem tailSum_congr {f g : Fin k → M} {n : Nat}
    (h : ∀ i : Fin k, n ≤ i.val → f i = g i) :
    tailSum f n = tailSum g n :=
  Finset.sum_congr rfl fun i hi => h i (Finset.mem_filter.mp hi).2

/-- Terms that agree up to an index have one head. -/
theorem headSum_congr {f g : Fin k → M} {n : Nat}
    (h : ∀ i : Fin k, i.val < n → f i = g i) :
    headSum f n = headSum g n :=
  Finset.sum_congr rfl fun i hi => h i (Finset.mem_filter.mp hi).2

end Edk2Exynos.Lib
