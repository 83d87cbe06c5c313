/-
The two registers of a cyclic redundancy check. One takes a bit at its
most significant end and shifts left; the other is its mirror image: it
takes the bit at its least significant end and shifts right, with the
mirrored polynomial.

# What is proved here

- `reverse_crcStepMsb`, `reverse_foldl_crcStepMsb`: reversing the
  register turns one into the other, step by step and over any bits.
- `foldl_crcStepLsb_xor`: bits xored into the low end beforehand come
  out as if they were fed one at a time, lowest first.
- `crcStepLsb_injective`: with a polynomial that ends in its lowest
  power, a step forgets nothing.
-/
import Mathlib.Data.BitVec

namespace Edk2Exynos.Lib

section

variable {w : Nat} (poly : BitVec w)

-- ========================================================= the registers

/-- A bit into the register that shifts left. -/
def crcStepMsb (r : BitVec w) (d : Bool) : BitVec w :=
  if r.msb ^^ d then (r <<< 1) ^^^ poly else r <<< 1

/-- A bit into the register that shifts right. -/
def crcStepLsb (c : BitVec w) (d : Bool) : BitVec w :=
  if c.getLsbD 0 ^^ d then (c >>> 1) ^^^ poly else c >>> 1

-- ============================================================= mirroring

theorem reverse_xor (x y : BitVec w) :
    (x ^^^ y).reverse = x.reverse ^^^ y.reverse := by
  apply BitVec.eq_of_getLsbD_eq
  intro i hi
  simp only [BitVec.getLsbD_reverse, BitVec.getLsbD_xor,
    BitVec.getMsbD_xor]

theorem reverse_shiftLeft (x : BitVec w) (n : Nat) :
    (x <<< n).reverse = x.reverse >>> n := by
  apply BitVec.eq_of_getLsbD_eq
  intro i hi
  rw [BitVec.getLsbD_reverse, BitVec.getLsbD_ushiftRight,
    BitVec.getLsbD_reverse, BitVec.getMsbD_shiftLeft, Nat.add_comm]

/-- One step of the mirror image is the mirror image of one step. -/
theorem reverse_crcStepMsb (r : BitVec w) (d : Bool) :
    (crcStepMsb poly r d).reverse
      = crcStepLsb poly.reverse r.reverse d := by
  have hlow : r.reverse.getLsbD 0 = r.msb := BitVec.getLsbD_reverse
  unfold crcStepMsb crcStepLsb
  rw [hlow]
  split
  · rw [reverse_xor, reverse_shiftLeft]
  · rw [reverse_shiftLeft]

theorem reverse_foldl_crcStepMsb {α : Type*} (bit : α → Bool)
    (xs : List α) (r : BitVec w) :
    (xs.foldl (fun r x => crcStepMsb poly r (bit x)) r).reverse
      = xs.foldl (fun c x => crcStepLsb poly.reverse c (bit x))
          r.reverse := by
  induction xs generalizing r with
  | nil => rfl
  | cons x xs ih =>
    rw [List.foldl_cons, List.foldl_cons, ih, reverse_crcStepMsb]

-- ================================================= bits given in advance

/-- A step with no input takes the lowest of the bits xored in, and moves
the others down. -/
theorem crcStepLsb_xor (c x : BitVec w) :
    crcStepLsb poly (c ^^^ x) false
      = crcStepLsb poly c (x.getLsbD 0) ^^^ (x >>> 1) := by
  unfold crcStepLsb
  rw [BitVec.getLsbD_xor, Bool.xor_false, BitVec.ushiftRight_xor_distrib]
  split
  · rw [BitVec.xor_assoc, BitVec.xor_comm (x >>> 1), BitVec.xor_assoc]
  · rfl

/-- `n` steps with no input take the lowest `n`. -/
theorem foldl_crcStepLsb_xor (c x : BitVec w) (n : Nat) :
    (List.range n).foldl (fun c _ => crcStepLsb poly c false) (c ^^^ x)
      = (List.range n).foldl (fun c i => crcStepLsb poly c (x.getLsbD i)) c
          ^^^ (x >>> n) := by
  induction n with
  | zero => simp
  | succ n ih =>
    have hbit : (x >>> n).getLsbD 0 = x.getLsbD n := by
      rw [BitVec.getLsbD_ushiftRight, Nat.add_zero]
    rw [List.range_succ, List.foldl_append, List.foldl_append, ih,
      List.foldl_cons, List.foldl_nil, List.foldl_cons, List.foldl_nil,
      crcStepLsb_xor, hbit, ← BitVec.shiftRight_add]

-- =========================================================== injectivity

/-- The top bit of the register tells what was tested. -/
theorem msb_crcStepLsb (hpoly : poly.msb = true) (c : BitVec w) (d : Bool) :
    (crcStepLsb poly c d).msb = (c.getLsbD 0 ^^ d) := by
  have hshift : (c >>> 1).msb = false := by
    rw [BitVec.msb_ushiftRight]
    rfl
  unfold crcStepLsb
  split
  next htest => rw [BitVec.msb_xor, hshift, hpoly, htest, Bool.false_xor]
  next htest =>
    rw [hshift]
    exact (Bool.eq_false_iff.mpr htest).symm

/-- The lowest bit and the others make up the register. -/
theorem eq_of_low_of_shift {c c' : BitVec w}
    (hlow : c.getLsbD 0 = c'.getLsbD 0) (hshift : c >>> 1 = c' >>> 1) :
    c = c' := by
  apply BitVec.eq_of_getLsbD_eq
  intro i hi
  cases i with
  | zero => exact hlow
  | succ i =>
    have hbit := congrArg (fun x => x.getLsbD i) hshift
    simpa only [BitVec.getLsbD_ushiftRight, Nat.add_comm 1 i] using hbit

theorem crcStepLsb_injective (hpoly : poly.msb = true) (d : Bool) :
    Function.Injective (fun c => crcStepLsb poly c d) := by
  intro c c' h
  have htop := congrArg BitVec.msb h
  simp only [msb_crcStepLsb poly hpoly] at htop
  have hlow : c.getLsbD 0 = c'.getLsbD 0 := Bool.xor_left_inj.mp htop
  refine eq_of_low_of_shift hlow ?_
  simp only [crcStepLsb, hlow] at h
  split at h
  · exact (BitVec.xor_left_inj poly).mp h
  · exact h

end

end Edk2Exynos.Lib
