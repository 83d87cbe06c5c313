/-
Sums of bytes modulo 256: the additive checksum.

Bytes are a commutative ring, so a checksum is a `Finset` sum in it. What
a file's bytes add up to as numbers is 0 modulo 256 exactly when that sum
is (`dvd_sum_toNat_iff`), and one byte less changes it by that byte
(`sum_writeByte`).
-/
import Edk2Exynos.Lib.Bytes
import Mathlib.Data.BitVec
import Mathlib.Algebra.BigOperators.Intervals

namespace Edk2Exynos.Lib

theorem ofNat_sum_toNat (m : Mem) (n : Nat) :
    BitVec.ofNat 8 (∑ i ∈ Finset.range n, (m i).toNat)
      = ∑ i ∈ Finset.range n, m i := by
  induction n with
  | zero => rfl
  | succ n ih =>
      rw [Finset.sum_range_succ, Finset.sum_range_succ, BitVec.ofNat_add,
        ih, BitVec.ofNat_toNat, BitVec.setWidth_eq]

/-- The bytes add up to a multiple of 256. -/
theorem dvd_sum_toNat_iff (m : Mem) (n : Nat) :
    256 ∣ ∑ i ∈ Finset.range n, (m i).toNat
      ↔ ∑ i ∈ Finset.range n, m i = 0 := by
  rw [← ofNat_sum_toNat, ← BitVec.toNat_inj, BitVec.toNat_ofNat,
    Nat.dvd_iff_mod_eq_zero]
  rfl

/-- Changing one byte changes the sum by the difference. -/
theorem sum_writeByte (m : Mem) (n a : Nat) (b : Byte) (ha : a < n) :
    ∑ i ∈ Finset.range n, writeBytes m a [b] i
      = (∑ i ∈ Finset.range n, m i) - m a + b := by
  have hmem : a ∈ Finset.range n := Finset.mem_range.2 ha
  have hrest : ∀ i ∈ (Finset.range n).erase a,
      writeBytes m a [b] i = m i := by
    intro i hi
    have hne := Finset.ne_of_mem_erase hi
    apply writeBytes_outside
    simp only [List.length_singleton]
    omega
  have hat : writeBytes m a [b] (a + 0) = [b][0] :=
    writeBytes_inside Nat.one_pos
  rw [Nat.add_zero, List.getElem_cons_zero] at hat
  rw [← Finset.add_sum_erase _ _ hmem, ← Finset.add_sum_erase _ m hmem,
    Finset.sum_congr rfl hrest, hat]
  ring

/-- What two sums that start together differ by. -/
theorem sum_range_sub_sum_range (f : Nat → Byte) (n k : Nat) :
    ∑ i ∈ Finset.range n, f i + ∑ i ∈ Finset.Ico n k, f i
      = ∑ i ∈ Finset.range k, f i + ∑ i ∈ Finset.Ico k n, f i := by
  rcases Nat.le_total n k with hle | hle
  · rw [Finset.sum_range_add_sum_Ico f hle, Finset.Ico_eq_empty_of_le hle,
      Finset.sum_empty, add_zero]
  · rw [Finset.sum_range_add_sum_Ico f hle, Finset.Ico_eq_empty_of_le hle,
      Finset.sum_empty, add_zero]

end Edk2Exynos.Lib
