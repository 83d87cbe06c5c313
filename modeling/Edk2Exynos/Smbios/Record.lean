/-
The SMBIOS records of PlatformSmbiosDxe: `LogSmbiosData` puts a string
pack behind a fixed structure and passes the record to the SMBIOS
protocol.

# The two passes

The size of the record is computed first, in 64 bits, and so much is
allocated; then the template and the strings are copied one behind the
other. The model keeps both: the first as a number, the second as the
stores it makes and the address of the last of them.

# A NULL pack

The size pass tells a NULL `StringPack` from others. The copy pass does
not: it loads `StringPack[0]` through the NULL.
-/
import Edk2Exynos.BootSlot.Base
import Edk2Exynos.Lib.StringSet

namespace Edk2Exynos.Smbios

open Lib
open BootSlot (EfiStatus efiError efiOutOfResources)

/-- A word of the machine. -/
abbrev UINTN := BitVec 64

-- =============================================================== the data

/-- A string of `CHAR8`, without the NUL behind it. -/
abbrev AsciiString := { s : List Byte // 0 ∉ s }

/-- `AsciiStrSize` -/
def asciiStrSize (s : AsciiString) : Nat := s.val.length + 1

/-- The bytes of a string in memory. -/
def asciiBytes (s : AsciiString) : List Byte := s.val ++ [0]

/-- A fixed SMBIOS structure: a header of four bytes, the second of them
the length of all, and what the structure's type puts behind it. -/
structure Template where
  bytes : List Byte
  header : 4 ≤ bytes.length
  length_eq : (bytes.getD 1 0).toNat = bytes.length

/-- `CHAR8 **StringPack`; `none` is NULL. -/
abbrev StringPack := Option (List AsciiString)

-- ============================================================== the code

/-- The size pass. -/
def recordSize (template : Template) (stringPack : StringPack) : UINTN :=
  let size : UINTN := BitVec.ofNat 64 template.bytes.length
  match stringPack with
  | none => size + 2
  | some strings =>
    let size := strings.foldl
      (fun size s => size + BitVec.ofNat 64 (asciiStrSize s)) size
    let size := if strings = [] then size + 1 else size
    size + 1

/-- The memory, and `Str`. -/
structure Cursor where
  mem : Mem
  str : Nat

/-- A string appended. -/
def appendString (c : Cursor) (s : AsciiString) : Cursor where
  mem := writeBytes c.mem c.str (asciiBytes s)
  str := c.str + asciiStrSize s

/-- The copy pass, in a buffer that `AllocateZeroPool` cleared. -/
def buildRecord (heap : Mem) (record : Nat) (size : UINTN)
    (template : Template) (strings : List AsciiString) : Cursor :=
  let mem := writeBytes heap record (List.replicate size.toNat 0)
  let mem := writeBytes mem record template.bytes
  let c := strings.foldl appendString
    ⟨mem, record + (mem (record + 1)).toNat⟩
  { c with mem := writeBytes c.mem c.str [0] }

/-- How `LogSmbiosData` goes on. -/
inductive LogResult where
  | returned (status : EfiStatus)
  /-- a load through the NULL pack -/
  | nullPack
  /-- `Smbios->Add`: the address and the size of the buffer, the memory,
  and where the last NUL was stored -/
  | added (record : Nat) (size : UINTN) (c : Cursor)

/-- `LogSmbiosData` up to `Smbios->Add`. -/
def logSmbiosData (locateProtocol : EfiStatus) (pool : UINTN → Option Nat)
    (heap : Mem) (template : Template) (stringPack : StringPack) :
    LogResult :=
  if efiError locateProtocol then .returned locateProtocol
  else
    let size := recordSize template stringPack
    match pool size with
    | none => .returned efiOutOfResources
    | some record =>
      match stringPack with
      | none => .nullPack
      | some strings =>
        .added record size (buildRecord heap record size template strings)

-- ============================================================== the rule

/-- A record, as a reader of SMBIOS takes it: the fixed part, the strings
in the order of their numbers, and what stands behind. -/
def parseRecord (bs : List Byte) :
    Option (List Byte × List (List Byte) × List Byte) :=
  let length := (bs.getD 1 0).toNat
  (parseSet 0 (bs.drop length)).map fun p => (bs.take length, p.1, p.2)

/-- The strings of a pack. -/
def packStrings (stringPack : StringPack) : List (List Byte) :=
  (stringPack.getD []).map Subtype.val

/-- A record is added that stays in its buffer, fills it, and is read back
as the template and the strings. -/
def LogResult.Right (heap : Mem) (template : Template)
    (stringPack : StringPack) : LogResult → Prop
  | .added record size c =>
    c.str < record + size.toNat
      ∧ AgreeOutside (fun a => record ≤ a ∧ a < record + size.toNat)
          heap c.mem
      ∧ parseRecord (readBytes c.mem record size.toNat)
          = some (template.bytes, packStrings stringPack, [])
  | _ => False

-- ============================================================ both passes

/-- The strings of a pack, one behind the other. -/
def packBody (strings : List AsciiString) : List Byte :=
  (strings.map Subtype.val).flatMap fun s => s ++ [0]

/-- The first string, then the others. -/
theorem packBody_cons (s : AsciiString) (strings : List AsciiString) :
    packBody (s :: strings) = asciiBytes s ++ packBody strings := rfl

/-- A string has a terminator behind it. -/
theorem asciiBytes_length (s : AsciiString) :
    (asciiBytes s).length = asciiStrSize s := by
  simp [asciiBytes, asciiStrSize]

/-- What a record of the two takes. -/
def recordLength (template : Template) (strings : List AsciiString) : Nat :=
  template.bytes.length + (printSet 0 (strings.map Subtype.val)).length

/-- The strings as they should stand: one after the other, and a zero. -/
theorem printSet_eq (strings : List AsciiString) :
    printSet 0 (strings.map Subtype.val)
      = packBody strings ++ [0]
        ++ List.replicate (if strings = [] then 1 else 0) 0 := by
  cases strings with
  | nil => rfl
  | cons s strings => simp [printSet, packBody]

/-- The loop adds up the sizes of the strings. -/
theorem foldl_asciiStrSize (strings : List AsciiString) (n : Nat) :
    strings.foldl (fun size s => size + BitVec.ofNat 64 (asciiStrSize s))
        (BitVec.ofNat 64 n)
      = BitVec.ofNat 64 (n + (packBody strings).length) := by
  induction strings generalizing n with
  | nil => rfl
  | cons s strings ih =>
    rw [List.foldl_cons, ← BitVec.ofNat_add, ih, packBody_cons,
      List.length_append, asciiBytes_length, Nat.add_assoc]

/-- The size pass counts it. -/
theorem recordSize_eq (template : Template) (strings : List AsciiString) :
    recordSize template (some strings)
      = BitVec.ofNat 64 (recordLength template strings) := by
  unfold recordSize recordLength
  simp only [foldl_asciiStrSize, printSet_eq, List.length_append,
    List.length_replicate, List.length_singleton]
  split
  · rw [Nat.add_assoc]
    simp only [← Nat.add_assoc, BitVec.ofNat_add]
    rfl
  · simp only [← Nat.add_assoc, BitVec.ofNat_add]
    simp

/-- The loop copies the strings one behind the other. -/
theorem foldl_appendString (strings : List AsciiString) (c : Cursor) :
    strings.foldl appendString c
      = ⟨writeBytes c.mem c.str (packBody strings),
          c.str + (packBody strings).length⟩ := by
  induction strings generalizing c with
  | nil =>
    have hnone : writeBytes c.mem c.str (packBody []) = c.mem :=
      writeBytes_nil c.mem c.str
    rw [hnone]
    rfl
  | cons s strings ih =>
    rw [List.foldl_cons, ih]
    simp only [appendString, ← asciiBytes_length, writeBytes_append,
      packBody_cons, List.length_append, Nat.add_assoc]

/-- The copy pass stores the template and the strings, and a NUL. -/
theorem buildRecord_eq (heap : Mem) (record : Nat) (size : UINTN)
    (template : Template) (strings : List AsciiString) :
    buildRecord heap record size template strings
      = ⟨writeBytes (writeBytes heap record
            (List.replicate size.toNat 0)) record
          (template.bytes ++ packBody strings ++ [0]),
        record + template.bytes.length + (packBody strings).length⟩ := by
  have hheader := template.header
  have hlength : (writeBytes (writeBytes heap record
      (List.replicate size.toNat 0)) record template.bytes
      (record + 1)).toNat = template.bytes.length := by
    have hbyte := template.length_eq
    rw [List.getD_eq_getElem _ _ (by omega)] at hbyte
    rw [writeBytes_inside (by omega)]
    exact hbyte
  unfold buildRecord
  simp only [hlength, foldl_appendString, writeBytes_append]
  have hplace : record + template.bytes.length + (packBody strings).length
      = record + (template.bytes ++ packBody strings).length := by
    rw [List.length_append, Nat.add_assoc]
  rw [hplace, writeBytes_append]

-- ============================================================= the record

section

variable (heap : Mem) (record : Nat) (template : Template)
  (strings : List AsciiString)

/-- A buffer of the right size holds the template and the set. -/
theorem readBytes_buildRecord {size : UINTN}
    (hsize : size.toNat = recordLength template strings) :
    readBytes (buildRecord heap record size template strings).mem record
        size.toNat
      = template.bytes ++ printSet 0 (strings.map Subtype.val) := by
  have hfit : (template.bytes ++ packBody strings ++ [0]).length
      ≤ size.toNat := by
    rw [hsize, recordLength, printSet_eq]
    simp only [List.length_append]
    omega
  have hrest : size.toNat
      - (template.bytes ++ packBody strings ++ [0]).length
        = if strings = [] then 1 else 0 := by
    rw [hsize, recordLength, printSet_eq]
    simp only [List.length_append, List.length_replicate]
    omega
  rw [buildRecord_eq, readBytes_writeBytes_head hfit,
    readBytes_writeBytes_same (List.length_replicate), List.drop_replicate,
    hrest, printSet_eq]
  simp only [List.append_assoc]

/-- A record is read as its formatted part and its strings. -/
theorem parseRecord_append (bs : List Byte) :
    parseRecord (template.bytes ++ bs)
      = (parseSet 0 bs).map fun p => (template.bytes, p.1, p.2) := by
  have hheader := template.header
  have hlength : ((template.bytes ++ bs).getD 1 0).toNat
      = template.bytes.length := by
    rw [← template.length_eq, List.getD_append _ _ _ _ (by omega)]
  unfold parseRecord
  simp only [hlength, List.drop_left, List.take_left]

/-- The record is right exactly when its length fits 64 bits and the
strings can be told apart. -/
theorem added_right_iff :
    (LogResult.added record (recordSize template (some strings))
        (buildRecord heap record (recordSize template (some strings))
          template strings)).Right heap template (some strings)
      ↔ recordLength template strings < 2 ^ 64
        ∧ Readable (strings.map Subtype.val) := by
  have hnul : ∀ s ∈ strings.map Subtype.val, (0 : Byte) ∉ s := by
    intro s hs
    obtain ⟨t, -, rfl⟩ := List.mem_map.mp hs
    exact t.property
  have hsize : (recordSize template (some strings)).toNat
      = recordLength template strings % 2 ^ 64 := by
    rw [recordSize_eq, BitVec.toNat_ofNat]
  have hstr : (buildRecord heap record (recordSize template (some strings))
      template strings).str + 1 + (if strings = [] then 1 else 0)
        = record + recordLength template strings := by
    rw [buildRecord_eq, recordLength, printSet_eq]
    simp only [List.length_append, List.length_replicate,
      List.length_singleton]
    omega
  constructor
  · rintro ⟨hin, -, hparse⟩
    have hfit : recordLength template strings < 2 ^ 64 := by
      by_contra hwrap
      have hlt := Nat.mod_lt (recordLength template strings)
        (Nat.two_pow_pos 64)
      split at hstr <;> omega
    rw [Nat.mod_eq_of_lt hfit] at hsize
    rw [readBytes_buildRecord heap record template strings hsize,
      parseRecord_append] at hparse
    obtain ⟨p, hp, heq⟩ := Option.map_eq_some_iff.mp hparse
    have hset : p = (strings.map Subtype.val, []) :=
      congrArg Prod.snd heq
    exact ⟨hfit, (parseSet_printSet_iff hnul).mp (hp.trans (by rw [hset]))⟩
  · rintro ⟨hfit, hread⟩
    rw [Nat.mod_eq_of_lt hfit] at hsize
    refine ⟨by omega, ?_, ?_⟩
    · rw [buildRecord_eq] at hstr ⊢
      refine ((AgreeOutside.refl _ heap).write ?_).write ?_
      · intro x hle hlt
        rw [List.length_replicate] at hlt
        exact ⟨hle, hlt⟩
      · intro x hle hlt
        simp only [List.length_append, List.length_singleton] at hlt
        simp only at hstr
        exact ⟨hle, by omega⟩
    · rw [readBytes_buildRecord heap record template strings hsize,
        parseRecord_append, (parseSet_printSet_iff hnul).mpr hread]
      rfl

end

-- ============================================================== the result

/-- The pack is not NULL, no string but the first is empty and the first is
not the only one then, and the record's length fits 64 bits. -/
def Loggable (template : Template) : StringPack → Prop
  | none => False
  | some strings =>
    recordLength template strings < 2 ^ 64
      ∧ Readable (strings.map Subtype.val)

instance (template : Template) (stringPack : StringPack) :
    Decidable (Loggable template stringPack) :=
  match stringPack with
  | none => inferInstanceAs (Decidable False)
  | some _ => inferInstanceAs (Decidable (_ ∧ _))

section

variable {locateProtocol : EfiStatus} {pool : UINTN → Option Nat}
  (heap : Mem) (template : Template) (stringPack : StringPack)

/-- Which packs get a right record, the protocol being there and the
buffer allocated. -/
theorem logSmbiosData_right_iff (record : Nat)
    (hlocate : efiError locateProtocol = false)
    (hpool : pool (recordSize template stringPack) = some record) :
    (logSmbiosData locateProtocol pool heap template stringPack).Right heap
        template stringPack
      ↔ Loggable template stringPack := by
  unfold logSmbiosData
  simp only [hlocate, hpool, Bool.false_eq_true, if_false]
  cases stringPack with
  | none => exact Iff.rfl
  | some strings => exact added_right_iff heap record template strings

end

-- ============================================================ the packs used

/-- `mBoardInfoType2` -/
def boardInfoType2 : Template where
  bytes := [2, 17, 0, 0, 1, 2, 3, 4, 5, 1, 6, 0, 0, 10, 0, 0, 0]
  header := by decide
  length_eq := by decide

/-- A pack as `mBoardInfoType2Strings`: the asset tag, the fifth string, is
never set. -/
def boardStrings : List AsciiString :=
  [⟨[0x53], by decide⟩, ⟨[0x47], by decide⟩, ⟨[0x73], by decide⟩,
    ⟨[0x31], by decide⟩, ⟨[], by decide⟩, ⟨[0x50], by decide⟩]

/-- The record of the board. -/
theorem logSmbiosData_right_iff_board :
    (logSmbiosData 0 (fun _ => some 4096) (fun _ => 0) boardInfoType2
        (some boardStrings)).Right (fun _ => 0) boardInfoType2
        (some boardStrings)
      ↔ Loggable boardInfoType2 (some boardStrings) :=
  logSmbiosData_right_iff (fun _ => 0) boardInfoType2 (some boardStrings)
    4096 (by decide) rfl

/-- The record of the board ends, for a reader, behind the fourth string;
and there is none for a NULL pack. -/
theorem logSmbiosData_loses_strings :
    ¬ (logSmbiosData 0 (fun _ => some 4096) (fun _ => 0) boardInfoType2
          (some boardStrings)).Right (fun _ => 0) boardInfoType2
          (some boardStrings)
      ∧ ¬ (logSmbiosData 0 (fun _ => some 4096) (fun _ => 0)
          boardInfoType2 none).Right (fun _ => 0) boardInfoType2 none := by
  constructor
  · intro hright
    have hread := (added_right_iff (fun _ => 0) 4096 boardInfoType2
      boardStrings).mp hright
    exact absurd hread (by decide)
  · exact fun hright => hright

end Edk2Exynos.Smbios
