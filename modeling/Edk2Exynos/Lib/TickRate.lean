/-
Converting a count of ticks from one rate to another, rounding down.

`rescale n f t` is the time of `t` ticks at `f` a second, in units of
which there are `n` a second. Whole seconds and the rest may be converted
apart (`rescale_split`), which is how it is computed where `t * n` does
not fit a word. A time that is measured in pieces loses less than a unit
for each piece (`rescale_sum`), and the pieces between readings of a
counter that does not go back add up to the whole (`gaps_sum`).
-/
import Mathlib.Tactic

namespace Edk2Exynos.Lib

-- ============================================================== one count

/-- `t` ticks at `f` a second, in units of `n` a second. -/
def rescale (n f t : Nat) : Nat := t * n / f

variable {n f : Nat}

/-- Full seconds and the rest of a second are rescaled apart. -/
theorem rescale_split (hf : 0 < f) (t : Nat) :
    t / f * n + rescale n f (t % f) = rescale n f t := by
  unfold rescale
  have hparts : t * n = t % f * n + f * (t / f * n) := by
    calc t * n = (f * (t / f) + t % f) * n := by rw [Nat.div_add_mod]
      _ = t % f * n + f * (t / f * n) := by ring
  rw [hparts, Nat.add_mul_div_left _ _ hf, Nat.add_comm]

/-- Rescaling in parts loses no less than rescaling the sum. -/
theorem rescale_add_le (a b : Nat) :
    rescale n f a + rescale n f b ≤ rescale n f (a + b) := by
  unfold rescale
  rw [Nat.add_mul]
  exact Nat.div_add_div_le_add_div

/-- Splitting a count in two costs at most one nanosecond. -/
theorem rescale_le_add (hf : 0 < f) (a b : Nat) :
    rescale n f (a + b) ≤ rescale n f a + rescale n f b + 1 := by
  unfold rescale
  rw [Nat.add_mul, Nat.add_div hf]
  split <;> omega

/-- More ticks are no less time. -/
theorem rescale_mono {a b : Nat} (h : a ≤ b) :
    rescale n f a ≤ rescale n f b :=
  Nat.div_le_div_right (Nat.mul_le_mul_right n h)

-- =============================================================== in pieces

/-- Less than a unit is lost for each piece. -/
theorem rescale_sum (hf : 0 < f) (pieces : List Nat) :
    (pieces.map (rescale n f)).sum ≤ rescale n f pieces.sum
      ∧ rescale n f pieces.sum
        ≤ (pieces.map (rescale n f)).sum + pieces.length := by
  induction pieces with
  | nil => simp [rescale]
  | cons a pieces ih =>
    have hle := rescale_add_le (n := n) (f := f) a pieces.sum
    have hge := rescale_le_add (n := n) hf a pieces.sum
    simp only [List.map_cons, List.sum_cons, List.length_cons]
    omega

/-- What lies between the readings of a counter, the first after `c`. -/
def gaps (c : Nat) : List Nat → List Nat
  | [] => []
  | r :: rs => (r - c) :: gaps r rs

/-- One gap for each reading. -/
theorem gaps_length (c : Nat) (rs : List Nat) :
    (gaps c rs).length = rs.length := by
  induction rs generalizing c with
  | nil => rfl
  | cons r rs ih => rw [gaps, List.length_cons, List.length_cons, ih]

/-- The last reading; `c` when there is none. -/
def lastReading (c : Nat) (rs : List Nat) : Nat := rs.getLast?.getD c

/-- The first reading takes the place of the start. -/
theorem lastReading_cons (c r : Nat) (rs : List Nat) :
    lastReading c (r :: rs) = lastReading r rs := by
  unfold lastReading
  rw [List.getLast?_cons, Option.getD_some]

/-- The pieces between readings that do not go back add up. -/
theorem gaps_sum {c : Nat} {rs : List Nat}
    (h : List.IsChain (· ≤ ·) (c :: rs)) :
    c + (gaps c rs).sum = lastReading c rs := by
  induction rs generalizing c with
  | nil => rfl
  | cons r rs ih =>
    obtain ⟨hle, hrest⟩ := List.isChain_cons_cons.mp h
    rw [lastReading_cons, ← ih hrest, gaps, List.sum_cons]
    omega

/-- Readings that rise end no lower than they start. -/
theorem le_lastReading {c : Nat} {rs : List Nat}
    (h : List.IsChain (· ≤ ·) (c :: rs)) : c ≤ lastReading c rs := by
  rw [← gaps_sum h]
  exact Nat.le_add_right _ _

end Edk2Exynos.Lib
