/-
DxeAslUpdateLib: names in the secondary ACPI tables get new values, in
place.

# The code

`UpdateSsdtNameAslCode` finds a table by its OEM table ID, in it the first
name with the signature, stores the value five bytes behind, and makes the
checksum anew (`AcpiPlatformChecksum`). The name is looked for up to and
with the address behind the table, and nothing says how long its value is.

# The tables

`Valid`: the tables are apart and each adds up to zero. A call keeps that
when the value of its name, if there is one, lies inside the body of the
table (`Inside`), and so do all calls of a run (`updates_valid`).
-/
import Edk2Exynos.Lib.ByteSum
import Edk2Exynos.Lib.Runs

namespace Edk2Exynos.AslUpdate

open Lib

/-- A 32-bit word. -/
abbrev UINT32 := BitVec 32

-- ============================================================== the source

/-- What a call of the library returns. -/
inductive EfiStatus where
  | success
  | notFound
  | notReady
  deriving DecidableEq

/-- `AML_NAME_OP` -/
def amlNameOp : Byte := 0x08

/-- The offsets of `EFI_ACPI_DESCRIPTION_HEADER`. -/
def lengthOffset : Nat := 4
/-- The offset of `Checksum` in the header of a table. -/
def checksumOffset : Nat := 9
/-- The offset of `OemTableId` in the header of a table. -/
def oemTableIdOffset : Nat := 16
/-- `sizeof (EFI_ACPI_DESCRIPTION_HEADER)` -/
def headerSize : Nat := 36

/-- `Length` of the table at `t`. -/
def tableLength (m : Mem) (t : Nat) : Nat :=
  (getLword m (t + lengthOffset)).toNat

/-- The loop of `AcpiPlatformChecksum`. -/
def addUp (m : Mem) : Nat → Nat → Byte → Byte
  | _, 0, sum => sum
  | ptr, size + 1, sum => addUp m (ptr + 1) size (sum + m ptr)

/-- `AcpiPlatformChecksum` -/
def acpiPlatformChecksum (m : Mem) (buffer size offset : Nat) : Mem :=
  let m := writeBytes m (buffer + offset) [0]
  writeBytes m (buffer + offset) [0xFF - addUp m buffer size 0 + 1]

/-- `LocateAcpiTableByOemTableId`, where the ACPI SDT protocol lists these
tables. -/
def locateAcpiTableByOemTableId (tables : List Nat) (m : Mem)
    (tableId : List Byte) : Option Nat :=
  tables.find? fun t =>
    readBytes m (t + oemTableIdOffset) tableId.length = tableId

/-- The loop over `SsdtPointer`, with the number of turns left. -/
def findName (m : Mem) (aslSignature : UINT32) : Nat → Nat → Option Nat
  | _, 0 => none
  | ptr, turns + 1 =>
      if getLword m ptr = aslSignature ∧ m (ptr - 1) = amlNameOp then
        some ptr
      else findName m aslSignature (ptr + 1) turns

/-- The arguments of a call. -/
structure Update where
  tableId : List Byte
  aslSignature : UINT32
  buffer : List Byte

/-- The name an update is about: the table, and the place in it. -/
def Update.target (tables : List Nat) (u : Update) (m : Mem) :
    Option (Nat × Nat) := do
  let t ← locateAcpiTableByOemTableId tables m u.tableId
  -- the address behind the table is looked at, too
  let ptr ← findName m u.aslSignature t (tableLength m t + 1)
  some (t, ptr)

/-- `UpdateSsdtNameAslCode`, where the ACPI protocols are there or not. -/
def updateSsdtNameAslCode (protocols : Bool) (tables : List Nat)
    (u : Update) (m : Mem) : EfiStatus × Mem :=
  if protocols then
    match u.target tables m with
    | none => (.notFound, m)
    | some (t, ptr) =>
        let m := writeBytes m (ptr + 5) u.buffer
        (.success,
          acpiPlatformChecksum m t (tableLength m t) checksumOffset)
  else (.notReady, m)

-- ============================================================ the checksum

/-- The loop adds up all bytes. -/
theorem addUp_eq (m : Mem) (ptr size : Nat) (sum : Byte) :
    addUp m ptr size sum
      = sum + ∑ i ∈ Finset.range size, m (ptr + i) := by
  induction size generalizing ptr sum with
  | zero => exact (add_zero sum).symm
  | succ size ih =>
      have hshift : ∀ i, ptr + 1 + i = ptr + (i + 1) := fun i => by omega
      rw [addUp, ih, Finset.sum_range_succ', Nat.add_zero ptr]
      simp only [hshift]
      rw [add_assoc, add_comm (m ptr)]

/-- A byte of a table stored. -/
theorem sum_writeByte_at (m : Mem) (t size : Nat) {k : Nat} (hk : k < size)
    (b : Byte) :
    ∑ i ∈ Finset.range size, writeBytes m (t + k) [b] (t + i)
      = (∑ i ∈ Finset.range size, m (t + i)) - m (t + k) + b := by
  have hview : ∀ i ∈ Finset.range size, writeBytes m (t + k) [b] (t + i)
      = writeBytes (fun i => m (t + i)) (0 + k) [b] (0 + i) := fun i hi =>
    writeBytes_shift k [b] (fun i _ => by rw [Nat.zero_add])
      (Finset.mem_range.1 hi)
  rw [Finset.sum_congr rfl hview]
  simp only [Nat.zero_add]
  exact sum_writeByte (fun i => m (t + i)) size k b hk

/-- With its checksum made anew a table adds up to zero. -/
theorem acpiPlatformChecksum_sum (m : Mem) (t : Nat) {size k : Nat}
    (hk : k < size) :
    ∑ i ∈ Finset.range size, acpiPlatformChecksum m t size k (t + i)
      = 0 := by
  have hff : (0xFF : Byte) = -1 := rfl
  have hzero : writeBytes m (t + k) [0] (t + k) = 0 :=
    writeBytes_inside (i := 0) (by simp)
  unfold acpiPlatformChecksum
  rw [sum_writeByte_at _ t size hk, hzero, addUp_eq, hff]
  rw [sub_zero, zero_add]
  ring

/-- The checksum changes its own byte only. -/
theorem acpiPlatformChecksum_outside {m : Mem} {t size k a : Nat}
    (ha : a ≠ t + k) : acpiPlatformChecksum m t size k a = m a := by
  have haway : a < t + k ∨ t + k + 1 ≤ a := by omega
  exact (writeBytes_outside haway).trans (writeBytes_outside haway)

-- ============================================================== the tables

/-- The value of the name, if one is found, is stored in the body of the
table. -/
def Inside (tables : List Nat) (u : Update) (m : Mem) : Prop :=
  ∀ t ptr, u.target tables m = some (t, ptr) →
    t + headerSize ≤ ptr + 5
      ∧ ptr + 5 + u.buffer.length ≤ t + tableLength m t

/-- The tables are apart from one another, and add up to zero. -/
structure Valid (tables : List Nat) (m : Mem) : Prop where
  long : ∀ t ∈ tables, headerSize ≤ tableLength m t
  apart : ∀ t ∈ tables, ∀ t' ∈ tables, t ≠ t' →
    t + tableLength m t ≤ t' ∨ t' + tableLength m t' ≤ t
  sum : ∀ t ∈ tables, ∑ i ∈ Finset.range (tableLength m t), m (t + i) = 0

/-- The length depends on its field. -/
theorem tableLength_congr {m m' : Mem} {t : Nat}
    (h : ∀ k < 4, m' (t + lengthOffset + k) = m (t + lengthOffset + k)) :
    tableLength m' t = tableLength m t :=
  congrArg BitVec.toNat (getLword_congr (readBytes_congr h))

-- ================================================================= a call

section

variable {tables : List Nat} {u : Update} {m : Mem}

/-- The name is found in one of the tables. -/
theorem Update.target_mem {t ptr : Nat}
    (h : u.target tables m = some (t, ptr)) : t ∈ tables := by
  unfold Update.target at h
  obtain ⟨t', ht', h⟩ := Option.bind_eq_some_iff.1 h
  obtain ⟨ptr', -, h⟩ := Option.bind_eq_some_iff.1 h
  cases h
  exact List.mem_of_find?_eq_some ht'

/-- The memory after a call that has found its name. -/
def stored (u : Update) (t ptr : Nat) (m : Mem) : Mem :=
  let m' := writeBytes m (ptr + 5) u.buffer
  acpiPlatformChecksum m' t (tableLength m' t) checksumOffset

/-- What a call may change: the value, and the checksum. -/
theorem stored_outside {t ptr a : Nat}
    (hvalue : a < ptr + 5 ∨ ptr + 5 + u.buffer.length ≤ a)
    (hsum : a ≠ t + checksumOffset) : stored u t ptr m a = m a :=
  (acpiPlatformChecksum_outside hsum).trans (writeBytes_outside hvalue)

variable {t ptr : Nat}
  (hlow : t + headerSize ≤ ptr + 5)
  (hhigh : ptr + 5 + u.buffer.length ≤ t + tableLength m t)

include hlow in
/-- The value stands behind the name. -/
theorem stored_value :
    readBytes (stored u t ptr m) (ptr + 5) u.buffer.length = u.buffer := by
  have hsame : readBytes (writeBytes m (ptr + 5) u.buffer) (ptr + 5)
      u.buffer.length = u.buffer := readBytes_writeBytes_same rfl
  refine (readBytes_congr fun i hi => ?_).trans hsame
  refine acpiPlatformChecksum_outside ?_
  have hoffsets : checksumOffset = 9 ∧ headerSize = 36 := ⟨rfl, rfl⟩
  omega

include hlow in
/-- The table adds up to zero again. -/
theorem stored_sum (hlong : headerSize ≤ tableLength m t) :
    ∑ i ∈ Finset.range (tableLength m t), stored u t ptr m (t + i) = 0 := by
  have hlength :
      tableLength (writeBytes m (ptr + 5) u.buffer) t = tableLength m t := by
    refine tableLength_congr fun k hk => writeBytes_outside (.inl ?_)
    have hoffsets : lengthOffset = 4 ∧ headerSize = 36 := ⟨rfl, rfl⟩
    omega
  unfold stored
  rw [hlength]
  exact acpiPlatformChecksum_sum _ t (Nat.lt_of_lt_of_le (by decide) hlong)

include hlow hhigh in
/-- Another table is not touched, and the length of this one is not. -/
theorem stored_tableLength (h : Valid tables m) (ht : t ∈ tables) {t' : Nat}
    (ht' : t' ∈ tables) :
    tableLength (stored u t ptr m) t' = tableLength m t' := by
  have hoffsets : lengthOffset = 4 ∧ checksumOffset = 9 ∧ headerSize = 36 :=
    ⟨rfl, rfl, rfl⟩
  have hlong := h.long t ht
  have hlong' := h.long t' ht'
  refine tableLength_congr fun k hk => stored_outside ?_ ?_
  · by_cases hsame : t = t'
    · omega
    · have hapart := h.apart t ht t' ht' hsame
      omega
  · by_cases hsame : t = t'
    · omega
    · have hapart := h.apart t ht t' ht' hsame
      omega

include hlow hhigh in
/-- All tables are apart and add up to zero after an update. -/
theorem stored_valid (h : Valid tables m) (ht : t ∈ tables) :
    Valid tables (stored u t ptr m) := by
  have hlength := fun t' (ht' : t' ∈ tables) =>
    stored_tableLength hlow hhigh h ht ht'
  constructor
  case long =>
    intro t' ht'
    rw [hlength t' ht']
    exact h.long t' ht'
  case apart =>
    intro t' ht' t'' ht'' hne
    rw [hlength t' ht', hlength t'' ht'']
    exact h.apart t' ht' t'' ht'' hne
  case sum =>
    intro t' ht'
    rw [hlength t' ht']
    by_cases hsame : t = t'
    · subst hsame
      exact stored_sum hlow (h.long t ht)
    · refine (Finset.sum_congr rfl fun i hi => ?_).trans (h.sum t' ht')
      have hi := Finset.mem_range.1 hi
      have hapart := h.apart t ht t' ht' hsame
      have hlong := h.long t ht
      have hoffsets : checksumOffset = 9 ∧ headerSize = 36 := ⟨rfl, rfl⟩
      exact stored_outside (by omega) (by omega)

-- ================================================================== a run

/-- What a call leaves in memory. -/
def updateStep (tables : List Nat) (u : Update) (m : Mem) : Mem :=
  (updateSsdtNameAslCode true tables u m).2

/-- A name that is found has its value stored. -/
theorem update_some {t ptr : Nat} (h : u.target tables m = some (t, ptr)) :
    updateSsdtNameAslCode true tables u m
      = (.success, stored u t ptr m) := by
  unfold updateSsdtNameAslCode
  rw [if_pos rfl, h]
  rfl

/-- A name that is not found changes nothing. -/
theorem update_none (h : u.target tables m = none) :
    updateSsdtNameAslCode true tables u m = (.notFound, m) := by
  unfold updateSsdtNameAslCode
  rw [if_pos rfl, h]

/-- Every call leaves valid tables. -/
theorem updateStep_valid (u : Update) (m : Mem) (hinside : Inside tables u m)
    (h : Valid tables m) : Valid tables (updateStep tables u m) := by
  unfold updateStep
  cases htarget : u.target tables m with
  | none =>
      rw [update_none htarget]
      exact h
  | some target =>
      obtain ⟨t, ptr⟩ := target
      obtain ⟨hlow, hhigh⟩ := hinside t ptr htarget
      rw [update_some htarget]
      exact stored_valid hlow hhigh h (Update.target_mem htarget)

end

/-- After any calls with the values of their names inside their tables, the
tables are valid, and one call more that finds its name stores the value
and changes nothing else but the checksum. -/
theorem updates_valid (tables : List Nat) (m : Mem) (h : Valid tables m)
    (us : List Update)
    (hus : EveryStep (updateStep tables) (Inside tables) us m) :
    Valid tables (run (updateStep tables) us m)
      ∧ ∀ u t ptr, Inside tables u (run (updateStep tables) us m) →
        u.target tables (run (updateStep tables) us m) = some (t, ptr) →
        ∃ m', updateSsdtNameAslCode true tables u
            (run (updateStep tables) us m) = (.success, m')
          ∧ Valid tables m'
          ∧ readBytes m' (ptr + 5) u.buffer.length = u.buffer
          ∧ AgreeOutside (fun a => a = t + checksumOffset
              ∨ ptr + 5 ≤ a ∧ a < ptr + 5 + u.buffer.length)
            (run (updateStep tables) us m) m' := by
  have hvalid := hus.invariant updateStep_valid h
  refine ⟨hvalid, fun u t ptr hinside htarget => ?_⟩
  obtain ⟨hlow, hhigh⟩ := hinside t ptr htarget
  refine ⟨_, update_some htarget, ?_, stored_value hlow, ?_⟩
  · exact stored_valid hlow hhigh hvalid (Update.target_mem htarget)
  · exact fun a ha => stored_outside (by omega) (by omega)

/-- A table of one name, with a byte for its value. -/
def sampleTable : List Byte :=
  [0x53, 0x53, 0x44, 0x54, 0x2C, 0, 0, 0, 2, 0x39, 0, 0, 0, 0, 0, 0,
    0x47, 0x50, 0x49, 0x4F, 0, 0, 0, 0, 0, 0, 0, 0, 0, 0, 0, 0, 0, 0, 0, 0,
    0x08, 0x50, 0x49, 0x4E, 0x30, 0x0A, 0x03, 0]

/-- `sampleTable` at `0x1000`. -/
def sampleMemory : Mem := fun a =>
  if 0x1000 ≤ a then sampleTable.getD (a - 0x1000) 0 else 0

/-- An update of the name `PIN0` with one byte. -/
def setPin (value : Byte) : Update where
  tableId := [0x47, 0x50, 0x49, 0x4F]
  aslSignature := 0x304E4950
  buffer := [value]

/-- A pin is set twice. -/
theorem updates_valid_setPin :
    ∃ m', updateSsdtNameAslCode true [0x1000] (setPin 7)
        (updateStep [0x1000] (setPin 5) sampleMemory) = (.success, m')
      ∧ Valid [0x1000] m' ∧ readBytes m' 0x102A 1 = [7] := by
  have hlong : tableLength sampleMemory 0x1000 = 44 := by decide +kernel
  have hvalid : Valid [0x1000] sampleMemory := by
    constructor
    case long =>
      intro t ht
      obtain rfl := List.mem_singleton.1 ht
      exact hlong.symm ▸ by decide
    case apart =>
      intro t ht t' ht' hne
      exact absurd ((List.mem_singleton.1 ht).trans
        (List.mem_singleton.1 ht').symm) hne
    case sum =>
      intro t ht
      obtain rfl := List.mem_singleton.1 ht
      rw [hlong]
      decide +kernel
  have hfirst : (setPin 5).target [0x1000] sampleMemory
      = some (0x1000, 0x1025) := by
    decide +kernel
  have hsecond : (setPin 7).target [0x1000]
      (updateStep [0x1000] (setPin 5) sampleMemory)
      = some (0x1000, 0x1025) := by
    decide +kernel
  have hlong' : tableLength
      (updateStep [0x1000] (setPin 5) sampleMemory) 0x1000 = 44 := by
    decide +kernel
  have hinside : Inside [0x1000] (setPin 5) sampleMemory := by
    intro t ptr htarget
    cases hfirst.symm.trans htarget
    rw [hlong]
    decide
  have hinside' : Inside [0x1000] (setPin 7)
      (updateStep [0x1000] (setPin 5) sampleMemory) := by
    intro t ptr htarget
    cases hsecond.symm.trans htarget
    rw [hlong']
    decide
  obtain ⟨m', hrun, hvalid', hvalue, -⟩ := (updates_valid [0x1000]
    sampleMemory hvalid [setPin 5] ⟨hinside, trivial⟩).2 (setPin 7) _ _
    hinside' hsecond
  exact ⟨m', hrun, hvalid', hvalue⟩

end Edk2Exynos.AslUpdate
