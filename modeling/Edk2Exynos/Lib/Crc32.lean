/-
The reflected CRC-32 of UEFI, Ethernet and zlib: polynomial
`0xEDB88320`, initial value and final complement all ones. GPT headers
and entry arrays carry it.

A checksum field is valid when it equals this function of the bytes it
covers. That it tells two byte strings apart which differ in one byte
only (`crc32_ne`) is what the covered length matters for.
-/
import Edk2Exynos.Lib.Bytes
import Edk2Exynos.Lib.CrcOrder

namespace Edk2Exynos.Lib

/-- One bit of the remainder. -/
def crc32Bit (c : BitVec 32) : BitVec 32 :=
  if c.getLsbD 0 then (c >>> 1) ^^^ 0xEDB88320#32 else c >>> 1

/-- One byte of the remainder: eight bits, lowest first. -/
def crc32Byte (c : BitVec 32) (b : Byte) : BitVec 32 :=
  (List.range 8).foldl (fun c _ => crc32Bit c) (c ^^^ b.setWidth 32)

/-- The CRC-32 of a byte string. -/
def crc32 (bs : List Byte) : BitVec 32 :=
  ~~~ bs.foldl crc32Byte 0xFFFFFFFF#32

-- the check value of the standard: the nine digits
example : crc32 [0x31, 0x32, 0x33, 0x34, 0x35, 0x36, 0x37, 0x38, 0x39]
    = 0xCBF43926#32 := by decide +kernel

-- ================================================== what it tells apart

theorem crc32Bit_eq (c : BitVec 32) :
    crc32Bit c = crcStepLsb 0xEDB88320#32 c false := by
  unfold crc32Bit crcStepLsb
  rw [Bool.xor_false]

theorem crc32Bit_injective : Function.Injective crc32Bit := by
  intro c c' h
  rw [crc32Bit_eq, crc32Bit_eq] at h
  exact crcStepLsb_injective _ (by decide) false h

/-- A fold of steps that lose nothing of the state loses nothing of it. -/
theorem foldl_injective {α β : Type*} {f : β → α → β}
    (hf : ∀ a, Function.Injective (fun c => f c a)) (xs : List α) :
    Function.Injective (fun c => xs.foldl f c) := by
  induction xs with
  | nil => exact Function.injective_id
  | cons x xs ih => exact fun c c' h => hf x (ih h)

theorem foldl_crc32Bit_injective (n : Nat) :
    Function.Injective
      (fun c => (List.range n).foldl (fun c _ => crc32Bit c) c) :=
  foldl_injective (fun _ => crc32Bit_injective) (List.range n)

/-- A byte loses nothing of the remainder, -/
theorem crc32Byte_injective (b : Byte) :
    Function.Injective (fun c => crc32Byte c b) := fun _ _ h =>
  (BitVec.xor_left_inj _).mp (foldl_crc32Bit_injective 8 h)

/-- and of itself. -/
theorem crc32Byte_injective_byte (c : BitVec 32) :
    Function.Injective (crc32Byte c) := by
  intro b b' h
  have hwide := (BitVec.xor_right_inj c).mp (foldl_crc32Bit_injective 8 h)
  have hback := congrArg (BitVec.setWidth 8) hwide
  simpa using hback

/-- Another byte at one place is another checksum. -/
theorem crc32_ne (xs ys : List Byte) {b b' : Byte} (h : b ≠ b') :
    crc32 (xs ++ b :: ys) ≠ crc32 (xs ++ b' :: ys) := by
  intro heq
  have hfold := BitVec.not_inj.mp heq
  rw [List.foldl_append, List.foldl_append] at hfold
  exact h (crc32Byte_injective_byte _
    (foldl_injective crc32Byte_injective ys hfold))

/-- Zeros keep a register that is zero. -/
theorem foldl_crc32Byte_zeros (n : Nat) :
    (List.replicate n 0).foldl crc32Byte 0 = 0 := by
  induction n with
  | zero => rfl
  | succ n ih =>
    have hzero : crc32Byte 0 0 = 0 := by decide
    rw [List.replicate_succ, List.foldl_cons, hzero, ih]

/-- A checksum of a range sees every byte of it. -/
theorem crc32_readBytes_ne {m m' : Mem} {a n k : Nat} (hk : k < n)
    (hne : m' (a + k) ≠ m (a + k))
    (h : ∀ i, i ≠ k → m' (a + i) = m (a + i)) :
    crc32 (readBytes m' a n) ≠ crc32 (readBytes m a n) := by
  have hbefore : readBytes m' a k = readBytes m a k :=
    readBytes_congr fun i hi => h i (by omega)
  have hafter : readBytes m' (a + k + 1) (n - k - 1)
      = readBytes m (a + k + 1) (n - k - 1) := by
    refine readBytes_congr fun i _ => ?_
    rw [Nat.add_assoc, Nat.add_assoc]
    exact h (k + (1 + i)) (by omega)
  rw [readBytes_around m' a hk, readBytes_around m a hk, hbefore, hafter]
  exact crc32_ne _ _ hne

end Edk2Exynos.Lib
