/-
Flag words: what setting and clearing mask bits does to the field under
another mask.

Code that keeps several flags and small counters in one word updates it
with `a ||| m` and `a &&& m` for constant masks `m` and reads it with
`a &&& p`. The four rules here decide a read after an update from the
two constants alone: the update either leaves the field or fixes it. The
side conditions are closed facts, so a chain of updates is evaluated one
rule per update.
-/
import Mathlib.Tactic

namespace Edk2Exynos.Lib

variable {w : Nat} {a m p : BitVec w}

/-- Setting bits outside a field keeps it. -/
theorem or_and_keep (h : m &&& p = 0) : (a ||| m) &&& p = a &&& p := by
  rw [BitVec.and_or_distrib_right, h]
  exact BitVec.or_zero

/-- Setting all bits of a field fills it. -/
theorem or_and_fill (h : m &&& p = p) : (a ||| m) &&& p = p := by
  rw [BitVec.and_or_distrib_right, h]
  apply BitVec.eq_of_getElem_eq
  intro i hi
  simp

/-- Clearing bits outside a field keeps it. -/
theorem and_and_keep (h : m &&& p = p) : (a &&& m) &&& p = a &&& p := by
  rw [BitVec.and_assoc, h]

/-- Clearing the bits of a mask keeps the fields outside it. -/
theorem and_not_keep (h : m &&& p = 0) : (a &&& ~~~m) &&& p = a &&& p := by
  have hnot : ~~~m &&& p = p := by
    apply BitVec.eq_of_getElem_eq
    intro i hi
    have hbit : (m &&& p)[i] = false := by
      rw [h]
      exact BitVec.getElem_zero hi
    rw [BitVec.getElem_and] at hbit
    rw [BitVec.getElem_and, BitVec.getElem_not]
    cases hm : m[i] with
    | false => exact Bool.true_and _
    | true =>
        rw [hm, Bool.true_and] at hbit
        rw [hbit]
        rfl
  exact and_and_keep hnot

/-- Clearing all bits of a field empties it. -/
theorem and_and_clear (h : m &&& p = 0) : (a &&& m) &&& p = 0 := by
  rw [BitVec.and_assoc, h]
  exact BitVec.and_zero

/-- Writing a value into an empty field stores it. -/
theorem or_and_store (ha : a &&& p = 0) : (a ||| m) &&& p = m &&& p := by
  rw [BitVec.and_or_distrib_right, ha]
  exact BitVec.zero_or

end Edk2Exynos.Lib
