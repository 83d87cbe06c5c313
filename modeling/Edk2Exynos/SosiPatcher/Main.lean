/-
The SOSI patcher (sosi-patcher.c): copies an ACPI table, stores a 64-bit
value behind the first "SOSI" of the copy, and sets the checksum byte.

# The mapping

The output file is mapped, and the table is edited in the mapping. The
loops that add up go by the length in the header, not by that of the
file: what is mapped behind the file is read as well, and none there is
the fault that ends the program.

# Arithmetic

`sum` and `*pos` are `char`, signed or not; every assignment to `sum` is
cut to eight bits, and a sum of bytes modulo 256 does not depend on their
sign.
-/
import Edk2Exynos.Lib.Bytes

namespace Edk2Exynos.SosiPatcher

open Lib

-- =========================================================== the header

/-- `header->len` -/
def headerLen (table : Mem) : Nat := (getLword table 4).toNat

/-- Where `checksum` is in `acpi_header`. -/
def checksumOffset : Nat := 9

/-- `header->checksum=b` -/
def setChecksum (table : Mem) (b : Byte) : Mem :=
  writeBytes table checksumOffset [b]

-- ============================================================= the loops

/-- `while((size--)!=0)sum=(uint8_t)(sum+(*pos++));` -/
def addUp (mapped : Nat → Option Byte) : Nat → Nat → Byte → Option Byte
  | 0, _, sum => some sum
  | size + 1, pos, sum =>
      match mapped pos with
      | none => none
      | some c => addUp mapped size (pos + 1) (sum + c)

/-- `sum=(uint8_t)(0xFF-sum+1);` -/
def negateSum (sum : Byte) : Byte := 0xFF - sum + 1

/-- The four letters `SOSI`. -/
def sosi : List Byte := [0x53, 0x4F, 0x53, 0x49]

/-- The loop that looks for "SOSI", with so many offsets to go. -/
def findSosi (table : Mem) : Nat → Nat → Option Nat
  | 0, _ => none
  | left + 1, s =>
      if readBytes table s 4 = sosi then some s
      else findSosi table left (s + 1)

/-- The value goes five bytes behind the start of "SOSI". -/
def patchSosi (stSize : Nat) (val : BitVec 64) (table : Mem) : Mem :=
  match findSosi table (stSize - 16) 0 with
  | none => table
  | some s => putLongLong table (s + 5) val

/-- The mapped file, and what is behind it. -/
def mapping (stSize : Nat) (behind : Nat → Option Byte) (table : Mem)
    (i : Nat) : Option Byte :=
  if i < stSize then some (table i) else behind i

/-- The edit of the mapped copy; none is the fault. -/
def patchTable (stSize : Nat) (behind : Nat → Option Byte)
    (val : BitVec 64) (table : Mem) : Option Mem :=
  let size := headerLen table
  let table := setChecksum table 0
  match addUp (mapping stSize behind table) size 0 0 with
  | none => none
  | some sum =>
      let sum := negateSum sum
      let table := patchSosi stSize val table
      let size := headerLen table
      let table := setChecksum table 0
      -- `sum` still holds the first checksum
      match addUp (mapping stSize behind table) size 0 sum with
      | none => none
      | some sum => some (setChecksum table (negateSum sum))

-- ============================================================== the main

/-- Why the program ends without a patched file. -/
inductive Failure where
  | usage
  | invalidValue
  | openInputFailed
  | openOutputFailed
  | fstatFailed
  | inputFileTooSmall
  | sendfileFailed
  | mmapFailed
  | fault
  deriving DecidableEq

/-- An invocation: the arguments, and what the calls made return.
`strtoll` is none when `errno` is set or no digit is read, `fstat` is
`st_size`, `behind` what is mapped behind the file. -/
structure Invocation where
  argc : Nat
  strtoll : Option (BitVec 64)
  openInput : Bool
  openOutput : Bool
  fstat : Option Nat
  sendfile : Int
  mmap : Bool
  input : Mem
  behind : Nat → Option Byte

/-- `main`: the output file, which is as long as the input. -/
def main (v : Invocation) : Except Failure Mem :=
  if v.argc ≠ 4 then .error .usage
  else
    match v.strtoll with
    | none => .error .invalidValue
    | some val =>
        if v.openInput = false then .error .openInputFailed
        else if v.openOutput = false then .error .openOutputFailed
        else
          match v.fstat with
          | none => .error .fstatFailed
          | some stSize =>
              if stSize ≤ 16 then .error .inputFileTooSmall
              else if v.sendfile < 0 ∨ v.sendfile.toNat ≠ stSize then
                .error .sendfileFailed
              else if v.mmap = false then .error .mmapFailed
              else
                match patchTable stSize v.behind val v.input with
                | none => .error .fault
                | some output => .ok output

end Edk2Exynos.SosiPatcher
