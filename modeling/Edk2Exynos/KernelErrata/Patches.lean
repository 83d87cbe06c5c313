/-
The patches of KernelErrataPatcher (Utilities.c and the first half of
KernelErrataPatcher.c): instructions that an image must not execute are
looked for by their bytes and overwritten.

# Patterns

A pattern is a string of hexadecimal bytes with a blank after each but
the last. `FindPattern` walks it with a pointer, here the rest of the
string; what lies beyond its end reads as the terminator. The search
compares in one pass over memory and does not go back after a partial
match.

# Addresses

Addresses are 64-bit and wrap. A scan whose end wraps around covers
nothing.
-/
import Edk2Exynos.Lib.Bytes

namespace Edk2Exynos.KernelErrata

open Lib

/-- A 32-bit word. -/
abbrev UINT32 := BitVec 32
/-- A 64-bit word. -/
abbrev UINT64 := BitVec 64

-- ============================================================= patterns

/-- The characters of a pattern, as the compiler stores them. -/
def chars (s : String) : List Nat := s.toList.map Char.toNat

/-- `GET_BITS` -/
def getBits (x : Nat) : Nat :=
  -- `~0x20`, on a byte
  let upper := x &&& 0xDF
  if 0x41 ≤ upper ∧ upper ≤ 0x46 then upper - 0x41 + 0xA
  else if 0x30 ≤ x ∧ x ≤ 0x39 then x - 0x30
  else 0

/-- `GET_BYTE` -/
def getByte (a b : Nat) : Nat := getBits a <<< 4 ||| getBits b

/-- `'?'` -/
def questionMark : Nat := 0x3F

/-- The loop of `FindPattern`, with the number of addresses left. -/
def findPatternLoop (mem : Mem) (pattern : List Nat) :
    Nat → UINT64 → List Nat → UINT64 → UINT64
  | 0, _, _, _ => 0
  | left + 1, current, currentPattern, firstMatch =>
      let byte := currentPattern.getD 0 0
      if byte = 0 then firstMatch
      else if byte = questionMark
          ∨ (mem current.toNat).toNat
            = getByte byte (currentPattern.getD 1 0) then
        let firstMatch := if firstMatch = 0 then current else firstMatch
        if currentPattern.getD 2 0 = 0 then firstMatch
        else
          let step := if byte = questionMark then 2 else 3
          findPatternLoop mem pattern left (current + 1)
            (currentPattern.drop step) firstMatch
      else findPatternLoop mem pattern left (current + 1) pattern 0

/-- `FindPattern` -/
def findPattern (mem : Mem) (baseAddress size : UINT64)
    (pattern : List Nat) : UINT64 :=
  findPatternLoop mem pattern
    ((baseAddress + size).toNat - baseAddress.toNat) baseAddress pattern 0

/-- `CopyMemory`, from an array of the caller's -/
def copyMemory (mem : Mem) (destination : UINT64) (source : List Byte) :
    Mem :=
  writeBytes mem destination.toNat source

-- ============================================================== patches

/-- `mrs x8, actlr_el1` -/
def illegalInstruction0 : List Nat := chars "28 10 38 D5"

/-- `FixedInstruction0`, `mov x8, #0`. -/
def fixedInstruction0 : List Byte := [0x08, 0x00, 0x80, 0xD2]

/-- The loop of `KernelErrataPatcherApplyReadACTLREL1Patches` in the
application context: `left` patches may follow. -/
def readACTLREL1Loop (base size : UINT64) : Nat → Mem → Mem
  | 0, mem => mem
  | left + 1, mem =>
      let found := findPattern mem base size illegalInstruction0
      if found ≠ 0 then
        readACTLREL1Loop base size left
          (copyMemory mem found fixedInstruction0)
      else mem

/-- `KernelErrataPatcherApplyReadACTLREL1Patches`: one patch in the
firmware context, three elsewhere. -/
def applyReadACTLREL1Patches (mem : Mem) (base size : UINT64)
    (isInFirmwareContext : Bool) : Mem :=
  readACTLREL1Loop base size (if isInFirmwareContext then 1 else 3) mem

/-- The patches that are made once: `bytes` are stored `back` bytes before
the pattern, where it occurs. -/
def applyPatch (pattern : List Nat) (back : UINT64) (bytes : List Byte)
    (mem : Mem) (base size : UINT64) : Mem :=
  let patternMatch := findPattern mem base size pattern
  if patternMatch ≠ 0 then copyMemory mem (patternMatch - back) bytes
  else mem

/-- `KernelErrataPatcherApplyWriteACTLREL1Patches`:
`msr actlr_el1, x9` becomes a NOP. -/
def applyWriteACTLREL1Patches : Mem → UINT64 → UINT64 → Mem :=
  applyPatch (chars "29 10 18 D5") 0 [0x1F, 0x20, 0x03, 0xD5]

/-- `KernelErrataPatcherApplyIncoherentCacheConfigurationPatches`: the
first bugcheck of KiCacheInitialize becomes four NOPs. -/
def applyIncoherentCacheConfigurationPatches :
    Mem → UINT64 → UINT64 → Mem :=
  applyPatch (chars "04 00 80 D2 03 00 80 D2 C0 07 80 52") 0
    [0x1F, 0x20, 0x03, 0xD5, 0x1F, 0x20, 0x03, 0xD5,
      0x1F, 0x20, 0x03, 0xD5, 0x1F, 0x20, 0x03, 0xD5]

/-- `KernelErrataPatcherApplyPsciMemoryProtectionPatches`: PsciMemProtect
returns at once. -/
def applyPsciMemoryProtectionPatches : Mem → UINT64 → UINT64 → Mem :=
  applyPatch
    (chars "D5 02 00 18 03 00 80 D2 02 00 80 D2 01 00 80 D2") (4 * 8)
    [0xC0, 0x03, 0x5F, 0xD6]

end Edk2Exynos.KernelErrata
