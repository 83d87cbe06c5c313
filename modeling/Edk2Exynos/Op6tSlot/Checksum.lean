/-
`calculate_crc32` against the CRC-32 of UEFI. The code mirrors each byte
and shifts it, top bit first, into a register that shifts left, and
mirrors the register at the end; UEFI's register shifts right and takes
the byte as it is.

# The proof

`reverse_crcByte`: a byte takes the code's register to the mirror image of
where it takes UEFI's. The invariant over the buffer is that the two
registers mirror each other; the last `reflect` takes the one to the other.
-/
import Edk2Exynos.Lib.Crc32
import Edk2Exynos.Op6tSlot.FixGpt

namespace Edk2Exynos.Op6tSlot

open Lib

-- ============================================================== reflect

/-- The mask `1 << n` of an `int`. -/
theorem shifted_one_getLsbD {n : Nat} (hn : n < 32) (j : Nat) :
    (((1 <<< n : Nat) : UINT32)).getLsbD j = decide (j = n) := by
  have hcast : ((1 <<< n : Nat) : UINT32) = BitVec.twoPow 32 n := by
    apply BitVec.eq_of_toNat_eq
    rw [BitVec.toNat_twoPow, ← Nat.one_shiftLeft]
    rfl
  rw [hcast, BitVec.getLsbD_twoPow, decide_eq_true hn, Bool.true_and]
  exact decide_eq_decide.mpr eq_comm

/-- One bit more is mirrored into the place below. -/
theorem mirrored_succ {len k : Nat} (hk : k < len) (d : Nat → Bool)
    (j : Nat) :
    (decide (len - (k + 1) ≤ j ∧ j < len) && d (len - 1 - j))
      = if j = len - 1 - k then d k
        else decide (len - k ≤ j ∧ j < len) && d (len - 1 - j) := by
  split
  next heq =>
    have hin : len - (k + 1) ≤ j ∧ j < len := by omega
    have hbit : len - 1 - j = k := by omega
    rw [decide_eq_true hin, Bool.true_and, hbit]
  next hne =>
    have hiff : (len - (k + 1) ≤ j ∧ j < len) ↔ (len - k ≤ j ∧ j < len) := by
      omega
    rw [decide_eq_decide.mpr hiff]

/-- `reflect` after `k` of its bits. -/
theorem reflect_run (data : UINT32) {len : Nat} (hlen : len ≤ 32)
    (k : Nat) (hk : k ≤ len) :
    let p := (List.range k).foldl (fun (p : UINT32 × UINT32) i =>
      (p.1.sshiftRight 1,
        if p.1 &&& 1 ≠ 0 then p.2 ||| (1 <<< (len - 1 - i)) else p.2))
      (data, 0)
    p.1 = data.sshiftRight k
      ∧ ∀ j, p.2.getLsbD j
        = (decide (len - k ≤ j ∧ j < len) && data.getLsbD (len - 1 - j)) := by
  induction k with
  | zero =>
    refine ⟨by simp, fun j => ?_⟩
    have hempty : ¬ (len - 0 ≤ j ∧ j < len) := by omega
    rw [decide_eq_false hempty]
    simp
  | succ k ih =>
    have hk := ih (by omega)
    simp only [List.range_succ, List.foldl_append, List.foldl_cons,
      List.foldl_nil] at hk ⊢
    generalize (List.range k).foldl _ _ = p at hk ⊢
    obtain ⟨hdata, hbits⟩ := hk
    refine ⟨by rw [hdata, ← BitVec.sshiftRight_add], fun j => ?_⟩
    have hlow : (data.sshiftRight k).getLsbD 0 = data.getLsbD k := by
      rw [BitVec.getLsbD_sshiftRight]
      simp [show k < 32 by omega]
    rw [hdata]
    simp only [and_one_ne_zero_iff, hlow]
    rw [mirrored_succ (by omega) data.getLsbD]
    -- bit `k` goes to the place below the ones already set
    by_cases hplace : j = len - 1 - k
    · have hnew : ¬ (len - k ≤ j ∧ j < len) := by omega
      rw [if_pos hplace]
      split
      next hset =>
        rw [BitVec.getLsbD_or, shifted_one_getLsbD (by omega),
          decide_eq_true hplace, Bool.or_true, hset]
      next hclear =>
        rw [hbits, decide_eq_false hnew, Bool.false_and]
        exact (Bool.eq_false_of_not_eq_true hclear).symm
    · rw [if_neg hplace]
      split
      · rw [BitVec.getLsbD_or, shifted_one_getLsbD (by omega),
          decide_eq_false hplace, Bool.or_false, hbits]
      · rw [hbits]

/-- `reflect` turns the lowest `len` bits around. -/
theorem reflect_getLsbD (data : UINT32) {len : Nat} (hlen : len ≤ 32)
    (j : Nat) :
    (reflect data len).getLsbD j
      = (decide (j < len) && data.getLsbD (len - 1 - j)) := by
  have h := (reflect_run data hlen len (Nat.le_refl len)).2 j
  simp only [Nat.sub_self, Nat.zero_le, true_and] at h
  exact h

theorem reflect_word (data : UINT32) : reflect data 32 = data.reverse := by
  apply BitVec.eq_of_getLsbD_eq
  intro j hj
  rw [reflect_getLsbD data (Nat.le_refl 32), BitVec.getLsbD_reverse,
    BitVec.getMsbD_eq_getLsbD]

-- ================================================================ a byte

/-- What `crcBit` tests: the top bits of the register and of the byte. -/
theorem crcBit_test (regs data : UINT32) :
    ((regs >>> 31) &&& 1) ^^^ (data.sshiftRight 7 &&& 1) ≠ 0
      ↔ (regs.msb ^^ data.getLsbD 7) = true := by
  have hregs : (regs >>> 31) &&& 1
      = (BitVec.ofBool regs.msb).setWidth 32 := by
    have h := BitVec.and_one_eq_setWidth_ofBool_getLsbD (x := regs >>> 31)
    rwa [BitVec.getLsbD_ushiftRight, ← BitVec.msb_eq_getLsbD_last] at h
  have hdata : data.sshiftRight 7 &&& 1
      = (BitVec.ofBool (data.getLsbD 7)).setWidth 32 := by
    have h := BitVec.and_one_eq_setWidth_ofBool_getLsbD
      (x := data.sshiftRight 7)
    rwa [BitVec.getLsbD_sshiftRight] at h
  rw [hregs, hdata]
  cases regs.msb <;> cases data.getLsbD 7 <;> decide

theorem crcBit_eq (regs data : UINT32) :
    crcBit (regs, data)
      = (crcStepMsb 0x04C11DB7#32 regs (data.getLsbD 7), data <<< 1) := by
  unfold crcBit crcStepMsb
  simp only [crcBit_test]
  rfl

/-- `n` bits of a byte: those of its eight from the top. -/
theorem foldl_crcBit (regs data : UINT32) {n : Nat} (hn : n ≤ 8) :
    (List.range n).foldl (fun p _ => crcBit p) (regs, data)
      = ((List.range n).foldl (fun r i =>
          crcStepMsb 0x04C11DB7#32 r (data.getLsbD (7 - i))) regs,
        data <<< n) := by
  induction n with
  | zero => simp
  | succ n ih =>
    have htop : (data <<< n).getLsbD 7 = data.getLsbD (7 - n) := by
      rw [BitVec.getLsbD_shiftLeft]
      simp [show ¬ 7 < n by omega]
    rw [List.range_succ, List.foldl_append, ih (by omega),
      List.foldl_append, List.foldl_cons, List.foldl_nil, List.foldl_cons,
      List.foldl_nil, crcBit_eq, htop, ← BitVec.shiftLeft_add]

/-- A byte keeps the code's register the mirror image of UEFI's. -/
theorem reverse_crcByte (regs : UINT32) (b : Byte) :
    (crcByte regs b).reverse = crc32Byte regs.reverse b := by
  -- the byte, mirrored, gives its lowest bit first
  have hbit : ∀ i ∈ List.range 8,
      (reflect (b.setWidth 32) 8).getLsbD (7 - i)
        = (b.setWidth 32).getLsbD i := by
    intro i hi
    have hlt := List.mem_range.mp hi
    rw [reflect_getLsbD _ (by decide), decide_eq_true (by omega),
      Bool.true_and, show 8 - 1 - (7 - i) = i by omega]
  have hpoly : (0x04C11DB7#32).reverse = 0xEDB88320#32 := by
    decide +kernel
  have hover : b.setWidth 32 >>> 8 = 0 := by
    apply BitVec.eq_of_getLsbD_eq
    intro i _
    rw [BitVec.getLsbD_ushiftRight, BitVec.getLsbD_setWidth,
      BitVec.getLsbD_of_ge _ _ (by omega), Bool.and_false]
    exact BitVec.getLsbD_zero.symm
  have hfeed := foldl_crcStepLsb_xor 0xEDB88320#32 regs.reverse
    (b.setWidth 32) 8
  rw [hover] at hfeed
  unfold crcByte crc32Byte
  rw [foldl_crcBit _ _ (Nat.le_refl 8), reverse_foldl_crcStepMsb, hpoly,
    List.foldl_ext _ _ _ fun c i hi => by rw [hbit i hi]]
  refine (hfeed.trans BitVec.xor_zero).symm.trans ?_
  exact List.foldl_ext _ _ _ fun c _ _ => (crc32Bit_eq c).symm

theorem reverse_foldl_crcByte (bs : List Byte) (regs : UINT32) :
    (bs.foldl crcByte regs).reverse = bs.foldl crc32Byte regs.reverse := by
  induction bs generalizing regs with
  | nil => rfl
  | cons b bs ih => rw [List.foldl_cons, List.foldl_cons, ih, reverse_crcByte]

-- ============================================================= the buffer

/-- The length, an `int`, is the number of bytes below two gigabytes. -/
theorem length_toInt {bs : List Byte} (h : bs.length < 2 ^ 31) :
    (BitVec.ofNat 32 bs.length).toInt.toNat = bs.length := by
  rw [BitVec.toInt_eq_toNat_cond, BitVec.toNat_ofNat,
    Nat.mod_eq_of_lt (by omega), if_pos (by omega), Int.toNat_natCast]

/-- `calculate_crc32` is the CRC-32 of the bytes its length counts. -/
theorem calculateCrc32_eq (buffer : List Byte) (len : UINT32) :
    calculateCrc32 buffer len = crc32 (buffer.take len.toInt.toNat) := by
  have hones : BitVec.reverse (0xFFFFFFFF : UINT32) = 0xFFFFFFFF := by
    decide +kernel
  unfold calculateCrc32 crc32
  rw [reflect_word, reverse_foldl_crcByte, hones]
  exact BitVec.xor_allOnes

/-- `get_result_array` stores the lowest byte first. -/
theorem getResultArray_eq (regs : UINT32) :
    getResultArray regs = bytesOfLong regs := rfl

/-- The checksum of a buffer, and what its four bytes say once stored. -/
theorem calculateCrc32_stored (bs : List Byte) (h : bs.length < 2 ^ 31) :
    calculateCrc32 bs (BitVec.ofNat 32 bs.length) = crc32 bs
      ∧ ∀ (m : Mem) (a : Nat),
          getLword (writeBytes m a (getResultArray (calculateCrc32 bs
            (BitVec.ofNat 32 bs.length)))) a = crc32 bs := by
  have hcrc : calculateCrc32 bs (BitVec.ofNat 32 bs.length) = crc32 bs := by
    rw [calculateCrc32_eq, length_toInt h, List.take_length]
  refine ⟨hcrc, fun m a => ?_⟩
  rw [hcrc, getResultArray_eq]
  exact getLword_putLong m a (crc32 bs)

/-- The nine digits, whose checksum is the check value of the standard. -/
def nineDigits : List Byte :=
  [0x31, 0x32, 0x33, 0x34, 0x35, 0x36, 0x37, 0x38, 0x39]

theorem calculateCrc32_stored_digits :
    calculateCrc32 nineDigits 9 = 0xCBF43926
      ∧ ∀ (m : Mem) (a : Nat),
          getLword (writeBytes m a (getResultArray
            (calculateCrc32 nineDigits 9))) a = 0xCBF43926 := by
  have hcheck : crc32 nineDigits = 0xCBF43926 := by decide +kernel
  have hstored := calculateCrc32_stored nineDigits (by decide)
  rw [hcheck] at hstored
  exact hstored

end Edk2Exynos.Op6tSlot
