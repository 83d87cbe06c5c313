/-
The bitmaps of the keys (KeypadDeviceImplLib.c, BitmapLib.h) in their
words.

One word has the bits of the scan codes, two those of the characters; an
access outside them is none. A call is for a scan code and a character,
and either may be out of range. Each bitmap has its own range check, but
both are indexed by the scan code, and one from 128 on is outside the
words of the characters. Where the accesses are inside, the words do what
the bitmaps of `KeyStatus` do by the bit (`keySetState_bits`,
`keyGetState_bits`).
-/
import Edk2Exynos.Keypad.KeyStatus
import Edk2Exynos.Lib.WordBits

namespace Edk2Exynos.Keypad.KeyBitmaps

open Lib

-- ============================================================== bitmaps

/-- `BITMAP_BITS_PER_INT` and `BITMAP_BITS_PER_WORD` -/
def bitmapBitsPerWord : Nat := 64

/-- `BITMAP_NUM_WORDS` -/
def bitmapNumWords (x : Nat) : Nat :=
  (x + bitmapBitsPerWord - 1) / bitmapBitsPerWord

/-- `BITMAP_INT` and `BITMAP_WORD` -/
def bitmapWord (x : Nat) : Nat := x / bitmapBitsPerWord

/-- `BITMAP_BIT_IN_INT` and `BITMAP_BIT_IN_WORD` -/
def bitmapBitInWord (x : Nat) : Nat := x &&& (bitmapBitsPerWord - 1)

section

variable {n : Nat} (bitmap : Vector UINT64 n)

/-- `AtomicOr`: the old word, and the bitmap with the new one. -/
def atomicOr (index : Nat) (value : UINT64) :
    Option (UINT64 × Vector UINT64 n) :=
  if h : index < n then
    some (bitmap[index], bitmap.set index (bitmap[index] ||| value))
  else none

/-- `AtomicAnd` -/
def atomicAnd (index : Nat) (value : UINT64) :
    Option (UINT64 × Vector UINT64 n) :=
  if h : index < n then
    some (bitmap[index], bitmap.set index (bitmap[index] &&& value))
  else none

/-- `BitmapSet`; it returns whether the bit was set. -/
def bitmapSet (bit : Nat) : Option (Bool × Vector UINT64 n) := do
  let mask := (1 : UINT64) <<< bitmapBitInWord bit
  let (old, bitmap) ← atomicOr bitmap (bitmapWord bit) mask
  return (old &&& mask ≠ 0, bitmap)

/-- `BitmapClear` -/
def bitmapClear (bit : Nat) : Option (Bool × Vector UINT64 n) := do
  let mask := (1 : UINT64) <<< bitmapBitInWord bit
  let (old, bitmap) ← atomicAnd bitmap (bitmapWord bit) (~~~ mask)
  return (old &&& mask ≠ 0, bitmap)

/-- `BitmapTest` -/
def bitmapTest (bit : Nat) : Option Bool :=
  if h : bitmapWord bit < n then
    let mask := (1 : UINT64) <<< bitmapBitInWord bit
    some (bitmap[bitmapWord bit] &&& mask ≠ 0)
  else none

end

-- ======================================================= the two of them

/-- `gBitmapScanCodes` and `gBitmapUnicodeChars` -/
structure Words where
  scanCodes : Vector UINT64 (bitmapNumWords 0x18)
  unicodeChars : Vector UINT64 (bitmapNumWords 0x7f)
  deriving DecidableEq

/-- The initializers. -/
def zeroWords : Words :=
  ⟨Vector.replicate _ 0, Vector.replicate _ 0⟩

/-- A scan code that has a bit. -/
def ScanInRange (scanCode : BitVec 16) : Prop :=
  scanCode ≠ 0 ∧ scanCode < 0x18

/-- A character that has one. -/
def CharInRange (unicodeChar : CHAR16) : Prop :=
  unicodeChar ≠ 0 ∧ unicodeChar < 0x7f

instance (scanCode : BitVec 16) : Decidable (ScanInRange scanCode) :=
  inferInstanceAs (Decidable (_ ∧ _))

instance (unicodeChar : CHAR16) : Decidable (CharInRange unicodeChar) :=
  inferInstanceAs (Decidable (_ ∧ _))

section

variable {n : Nat} (bitmap : Vector UINT64 n) (bit : Nat)

/-- What `KeySetState` does for one code: `BitmapSet` or `BitmapClear`,
when it is in range. -/
def codeSet (inRange value : Bool) : Option (Vector UINT64 n) :=
  if inRange then
    if value then (bitmapSet bitmap bit).map Prod.snd
    else (bitmapClear bitmap bit).map Prod.snd
  else some bitmap

/-- What `KeyGetState` tests for one code. -/
def codeTest (inRange : Bool) : Option Bool :=
  if inRange then bitmapTest bitmap bit else some true

end

/-- `KeySetState`; the character is not the index of its bit. -/
def keySetState (scanCode : BitVec 16) (unicodeChar : CHAR16)
    (value : Bool) (w : Words) : Option Words := do
  let scanCodes ←
    codeSet w.scanCodes scanCode.toNat (ScanInRange scanCode) value
  let unicodeChars ←
    codeSet w.unicodeChars scanCode.toNat (CharInRange unicodeChar) value
  return ⟨scanCodes, unicodeChars⟩

/-- `KeyGetState` -/
def keyGetState (scanCode : BitVec 16) (unicodeChar : CHAR16)
    (w : Words) : Option Bool := do
  let scan ← codeTest w.scanCodes scanCode.toNat (ScanInRange scanCode)
  if ¬ scan then
    return false
  codeTest w.unicodeChars scanCode.toNat (CharInRange unicodeChar)

-- ============================================================ one access

section

variable {n : Nat} (bitmap : Vector UINT64 n) {bit : Nat}

theorem mask_eq (bit : Nat) :
    (1 : UINT64) <<< bitmapBitInWord bit
      = BitVec.twoPow 64 (bit % 64) := by
  have hbit : bitmapBitInWord bit = bit % 64 :=
    Nat.and_two_pow_sub_one_eq_mod bit 6
  rw [hbit]
  rfl

theorem bitmapTest_inside (h : bit / 64 < n) :
    bitmapTest bitmap bit = some (wordBit bitmap bit) := by
  unfold bitmapTest
  simp only [mask_eq]
  rw [dif_pos (show bitmapWord bit < n from h), wordBit_of_lt bitmap h]
  exact congrArg some (decide_and_mask (by decide) bitmap[bit / 64] bit)

/-- Inside the array a set bit is set, and no other changes. -/
theorem bitmapSet_inside (h : bit / 64 < n) :
    ∃ bitmap', (bitmapSet bitmap bit).map Prod.snd = some bitmap'
      ∧ wordBit bitmap' = Function.update (wordBit bitmap) bit true := by
  refine ⟨_, ?_, wordBit_set_or (by decide) bitmap h⟩
  unfold bitmapSet atomicOr
  simp only [mask_eq]
  rw [dif_pos (show bitmapWord bit < n from h)]
  rfl

theorem bitmapClear_inside (h : bit / 64 < n) :
    ∃ bitmap', (bitmapClear bitmap bit).map Prod.snd = some bitmap'
      ∧ wordBit bitmap' = Function.update (wordBit bitmap) bit false := by
  refine ⟨_, ?_, wordBit_set_and_not (by decide) bitmap h⟩
  unfold bitmapClear atomicAnd
  simp only [mask_eq]
  rw [dif_pos (show bitmapWord bit < n from h)]
  rfl

/-- With its accesses inside, a call for one code updates its bit. -/
theorem codeSet_inside (inRange value : Bool)
    (h : inRange → bit / 64 < n) :
    ∃ bitmap', codeSet bitmap bit inRange value = some bitmap'
      ∧ wordBit bitmap'
        = if inRange then Function.update (wordBit bitmap) bit value
          else wordBit bitmap := by
  unfold codeSet
  cases inRange with
  | false => exact ⟨bitmap, rfl, rfl⟩
  | true =>
    cases value with
    | true => exact bitmapSet_inside bitmap (h rfl)
    | false => exact bitmapClear_inside bitmap (h rfl)

theorem codeTest_inside (inRange : Bool) (h : inRange → bit / 64 < n) :
    codeTest bitmap bit inRange
      = some (if inRange then wordBit bitmap bit else true) := by
  unfold codeTest
  cases inRange with
  | false => rfl
  | true => exact bitmapTest_inside bitmap (h rfl)

/-- Outside it the test is no answer. -/
theorem codeTest_outside (h : ¬ bit / 64 < n) :
    codeTest bitmap bit true = none := dif_neg h

end

-- ========================================================== by the bit

/-- The bits of the words. -/
def Words.bits (w : Words) : Bitmaps :=
  ⟨wordBit w.scanCodes, wordBit w.unicodeChars⟩

/-- The accesses for a pair are inside the arrays. -/
def Inside (scanCode : BitVec 16) (unicodeChar : CHAR16) : Prop :=
  CharInRange unicodeChar → scanCode < 128

theorem scanInRange_inside {scanCode : BitVec 16}
    (h : ScanInRange scanCode) :
    scanCode.toNat / 64 < bitmapNumWords 0x18 := by
  have hlt : scanCode.toNat < 0x18 := BitVec.lt_def.mp h.2
  have hwords : bitmapNumWords 0x18 = 1 := rfl
  omega

theorem char_inside_iff (scanCode : BitVec 16) :
    scanCode.toNat / 64 < bitmapNumWords 0x7f ↔ scanCode < 128 := by
  have hlt : scanCode < 128 ↔ scanCode.toNat < 128 := BitVec.lt_def
  have hwords : bitmapNumWords 0x7f = 2 := rfl
  rw [hlt, hwords]
  omega

section

variable {scanCode : BitVec 16} {unicodeChar : CHAR16} (w : Words)

/-- With its accesses inside, a call does to the bits what the call of
`KeyStatus` does. -/
theorem keySetState_bits (value : Bool)
    (h : Inside scanCode unicodeChar) :
    ∃ w', keySetState scanCode unicodeChar value w = some w'
      ∧ w'.bits
        = Keypad.keySetState scanCode unicodeChar value w.bits := by
  obtain ⟨scanCodes, hscan, hscanBits⟩ :=
    codeSet_inside w.scanCodes (ScanInRange scanCode) value
      fun hrange => scanInRange_inside (of_decide_eq_true hrange)
  obtain ⟨unicodeChars, hchar, hcharBits⟩ :=
    codeSet_inside w.unicodeChars (CharInRange unicodeChar) value
      fun hrange => (char_inside_iff scanCode).mpr
        (h (of_decide_eq_true hrange))
  refine ⟨⟨scanCodes, unicodeChars⟩, ?_, ?_⟩
  · unfold keySetState
    rw [hscan, hchar]
    rfl
  · unfold Words.bits Keypad.keySetState
    simp only [hscanBits, hcharBits, decide_eq_true_eq]
    rfl

/-- A code out of range counts as held. -/
theorem keyGetState_eq (b : Bitmaps) :
    Keypad.keyGetState scanCode unicodeChar b
      = ((if ScanInRange scanCode then b.scanCodes scanCode.toNat
          else true)
        && if CharInRange unicodeChar then b.unicodeChars scanCode.toNat
          else true) := by
  unfold Keypad.keyGetState ScanInRange CharInRange
  grind

/-- And its answer is the one by the bits. -/
theorem keyGetState_bits (h : Inside scanCode unicodeChar) :
    keyGetState scanCode unicodeChar w
      = some (Keypad.keyGetState scanCode unicodeChar w.bits) := by
  have hscan := codeTest_inside w.scanCodes (ScanInRange scanCode)
    fun hrange => scanInRange_inside (of_decide_eq_true hrange)
  have hchar := codeTest_inside w.unicodeChars (CharInRange unicodeChar)
    fun hrange => (char_inside_iff scanCode).mpr
      (h (of_decide_eq_true hrange))
  unfold keyGetState
  rw [hscan, hchar, keyGetState_eq]
  simp only [decide_eq_true_eq, Words.bits, Option.bind_eq_bind,
    Option.bind_some]
  cases (if ScanInRange scanCode then wordBit w.scanCodes scanCode.toNat
    else true) with
  | true => rfl
  | false => rfl

/-- A character in range and a scan code from 128 on: the read is outside
the array. -/
theorem keyGetState_outside (h : ¬ Inside scanCode unicodeChar) :
    keyGetState scanCode unicodeChar w = none := by
  obtain ⟨hrange, hfar⟩ := Classical.not_imp.mp h
  have hscan : ¬ ScanInRange scanCode := by
    intro hscan
    exact hfar (BitVec.lt_trans hscan.2 (by decide))
  have hchar : codeTest w.unicodeChars scanCode.toNat true = none :=
    codeTest_outside w.unicodeChars ((char_inside_iff scanCode).not.mpr hfar)
  unfold keyGetState
  rw [decide_eq_false hscan, decide_eq_true hrange, hchar]
  rfl

end

end Edk2Exynos.Keypad.KeyBitmaps
