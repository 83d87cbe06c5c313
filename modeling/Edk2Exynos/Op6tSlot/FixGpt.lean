/-
The CRC repair of Op6tSlotDxe (crc32.c): the checksums of a GPT are
computed by the driver itself and stored through a disk's DiskIo.

# Disks

A disk is a memory of bytes, named by a number; a DiskIo instance is the
number of the disk it moves data on. Whether a call succeeds is its
status, which comes from outside; a `WriteDisk` that fails leaves the
disk as it was, and is recorded all the same.

# Integers

Offsets are computed in 32 bits and widened to the `UINT64` a DiskIo
call takes. `calculate_crc32` takes its length as an `int`: from two
gigabytes on it is negative and no byte is read.

# The header's buffer

The status of the second `AllocatePool` is overwritten before it is looked
at. When the call fails, the buffer's pointer is unset or null and the
disk is read into it all the same: what happens from there on is
undefined. A repair has no status then, and the state it ends in is the
one it came to that call with.
-/
import Edk2Exynos.BootSlot.Base

namespace Edk2Exynos.Op6tSlot

open Lib
open BootSlot (EfiStatus efiError efiSuccess)

/-- A 32-bit word. -/
abbrev UINT32 := BitVec 32
/-- A 64-bit word. -/
abbrev UINT64 := BitVec 64

-- ================================================================ disks

/-- `EFI_BLOCK_IO_MEDIA`, as far as the driver looks. -/
structure Media where
  logicalPartition : Bool
  mediaId : UINT32
  blockSize : UINT32
  deriving DecidableEq

/-- The four things the driver writes. -/
inductive SlotPlace where
  | flagA
  | flagB
  | entryCrc
  | headerCrc
  deriving DecidableEq

/-- Where they lie, for a block size. A flag's offset passes through an
`int`. -/
def SlotPlace.offset (blockSize : UINT32) : SlotPlace → UINT64
  | .flagA => (2 * blockSize + 0x536).signExtend 64
  | .flagB => (3 * blockSize + 0x336).signExtend 64
  | .entryCrc => (blockSize + 0x58).setWidth 64
  | .headerCrc => (blockSize + 0x10).setWidth 64

/-- A call of `WriteDisk`. -/
structure SlotWrite where
  disk : Nat
  mediaId : UINT32
  place : SlotPlace
  offset : UINT64
  data : List Byte

/-- The disks, and every write that was made to them. -/
structure SlotState where
  disks : Nat → Mem
  writes : List SlotWrite

/-- `ReadDisk`, when it succeeds -/
def SlotState.readDisk (s : SlotState) (disk : Nat) (offset : UINT64)
    (size : Nat) : List Byte :=
  readBytes (s.disks disk) offset.toNat size

/-- `WriteDisk` -/
def SlotState.writeDisk (s : SlotState) (status : EfiStatus)
    (w : SlotWrite) : SlotState where
  disks :=
    if efiError status then s.disks
    else applyWrite s.disks ⟨w.disk, w.offset.toNat, w.data⟩
  writes := s.writes ++ [w]

/-- A write where the media's block size puts it, with the media's id. -/
def SlotPlace.writeOn (p : SlotPlace) (disk : Nat) (media : Media)
    (data : List Byte) : SlotWrite where
  disk := disk
  mediaId := media.mediaId
  place := p
  offset := p.offset media.blockSize
  data := data

@[simp] theorem writeDisk_writes (s : SlotState) (status : EfiStatus)
    (w : SlotWrite) : (s.writeDisk status w).writes = s.writes ++ [w] := rfl

theorem writeDisk_disks_of_error {s : SlotState} {status : EfiStatus}
    (h : efiError status = true) (w : SlotWrite) :
    (s.writeDisk status w).disks = s.disks :=
  if_pos h

-- ============================================================== the CRC

/-- `reflect`: the lowest `len` bits, in reverse. -/
def reflect (data : UINT32) (len : Nat) : UINT32 :=
  ((List.range len).foldl (fun (p : UINT32 × UINT32) i =>
    (p.1.sshiftRight 1,
      if p.1 &&& 1 ≠ 0 then p.2 ||| (1 <<< (len - 1 - i)) else p.2))
    (data, 0)).2

/-- One bit of `calculate_crc32`: the register and the rest of the
byte. -/
def crcBit (p : UINT32 × UINT32) : UINT32 × UINT32 :=
  let msb := p.2.sshiftRight 7 &&& 1
  let regsMsb := (p.1 >>> 31) &&& 1
  let regs := p.1 <<< 1
  (if regsMsb ^^^ msb ≠ 0 then regs ^^^ 0x04C11DB7 else regs, p.2 <<< 1)

/-- One byte of it. -/
def crcByte (regs : UINT32) (b : Byte) : UINT32 :=
  ((List.range 8).foldl (fun p _ => crcBit p)
    (regs, reflect (b.setWidth 32) 8)).1

/-- `calculate_crc32` -/
def calculateCrc32 (buffer : List Byte) (len : UINT32) : UINT32 :=
  reflect ((buffer.take len.toInt.toNat).foldl crcByte 0xFFFFFFFF) 32
    ^^^ 0xFFFFFFFF

/-- `get_result_array` -/
def getResultArray (reflectedRegs : UINT32) : List Byte :=
  (List.range 4).map fun i => (reflectedRegs >>> (8 * i)).setWidth 8

-- =========================================================== the repair

/-- `GPT_CRC32_LEN` -/
def gptCrc32Len : Nat := 4
/-- `GPT_HEADER_SIZE` -/
def gptHeaderSize : UINT32 := 92
/-- `GPT_ENTRY_COUNT` -/
def gptEntryCount : UINT32 := 3
/-- `GPT_HEADER_CRC32_LBA1_OFFSET` -/
def gptHeaderCrc32Lba1Offset : Nat := 0x10

/-- The statuses of the calls in `FixGptCRC32`, in their order. -/
structure FixStatuses where
  allocateEntry : EfiStatus
  readEntry : EfiStatus
  writeEntry : EfiStatus
  freeEntry : EfiStatus
  allocateHeader : EfiStatus
  readHeader : EfiStatus
  writeHeader : EfiStatus
  freeHeader : EfiStatus

/-- All calls of the repair succeed. -/
def goodStatuses : FixStatuses where
  allocateEntry := efiSuccess
  readEntry := efiSuccess
  writeEntry := efiSuccess
  freeEntry := efiSuccess
  allocateHeader := efiSuccess
  readHeader := efiSuccess
  writeHeader := efiSuccess
  freeHeader := efiSuccess

/-- The header with its own checksum set to zero. -/
def clearHeaderCrc (header : List Byte) : List Byte :=
  header.take gptHeaderCrc32Lba1Offset
    ++ List.replicate gptCrc32Len 0
    ++ header.drop (gptHeaderCrc32Lba1Offset + gptCrc32Len)

/-- `FixGptCRC32`; the status is missing when it goes on without a buffer
for the header. -/
def fixGptCRC32 (io : FixStatuses) (media : Media) (disk : Nat)
    (s : SlotState) : Option EfiStatus × SlotState :=
  let entrySize := gptEntryCount * media.blockSize
  if efiError io.allocateEntry then (some io.allocateEntry, s)
  else if efiError io.readEntry then (some io.readEntry, s)
  else
    let entries := s.readDisk disk ((2 * media.blockSize).setWidth 64)
      entrySize.toNat
    let s := s.writeDisk io.writeEntry
      (SlotPlace.entryCrc.writeOn disk media
        (getResultArray (calculateCrc32 entries entrySize)))
    if efiError io.writeEntry then (some io.writeEntry, s)
    else if efiError io.freeEntry then (some io.freeEntry, s)
    -- `ReadDisk` is called with a pointer that nothing has set
    else if efiError io.allocateHeader then (none, s)
    else if efiError io.readHeader then (some io.readHeader, s)
    else
      let header := clearHeaderCrc
        (s.readDisk disk (media.blockSize.setWidth 64) gptHeaderSize.toNat)
      let s := s.writeDisk io.writeHeader
        (SlotPlace.headerCrc.writeOn disk media
          (getResultArray (calculateCrc32 header gptHeaderSize)))
      if efiError io.writeHeader then (some io.writeHeader, s)
      else if efiError io.freeHeader then (some io.freeHeader, s)
      else (some efiSuccess, s)

-- ======================================================= what it writes

/-- Every write so far satisfies `P`. -/
def SlotState.WritesOnly (P : SlotWrite → Prop) (s : SlotState) : Prop :=
  ∀ w ∈ s.writes, P w

theorem SlotState.WritesOnly.writeDisk {P : SlotWrite → Prop}
    {s : SlotState} (h : s.WritesOnly P) (status : EfiStatus)
    {w : SlotWrite} (hw : P w) : (s.writeDisk status w).WritesOnly P := by
  intro v hv
  rw [writeDisk_writes] at hv
  rcases List.mem_append.mp hv with hold | hnew
  · exact h v hold
  · rw [List.mem_singleton.mp hnew]
    exact hw

section

variable (io : FixStatuses) (media : Media) (disk : Nat)

/-- What the repair writes goes to its disk, with the id and by the block
size of its media. -/
theorem fixGptCRC32_writesOnly {P : SlotWrite → Prop} {s : SlotState}
    (h : s.WritesOnly P)
    (hw : ∀ (p : SlotPlace) data, P (p.writeOn disk media data)) :
    (fixGptCRC32 io media disk s).2.WritesOnly P := by
  unfold fixGptCRC32
  simp only
  split
  · exact h
  split
  · exact h
  have hentry := fun data =>
    h.writeDisk io.writeEntry (hw .entryCrc data)
  split
  · exact hentry _
  split
  · exact hentry _
  split
  · exact hentry _
  split
  · exact hentry _
  have hheader := fun data data' =>
    (hentry data).writeDisk io.writeHeader (hw .headerCrc data')
  split
  · exact hheader _ _
  split
  · exact hheader _ _
  exact hheader _ _

/-- The repair comes to its first write. -/
def FixStatuses.Writes : Prop :=
  efiError io.allocateEntry = false ∧ efiError io.readEntry = false

/-- It stores a checksum of the entries then, -/
theorem fixGptCRC32_writes (h : io.Writes) (s : SlotState) :
    ∃ data, SlotPlace.entryCrc.writeOn disk media data
      ∈ (fixGptCRC32 io media disk s).2.writes := by
  refine ⟨getResultArray (calculateCrc32
    (s.readDisk disk ((2 * media.blockSize).setWidth 64)
      (gptEntryCount * media.blockSize).toNat)
    (gptEntryCount * media.blockSize)), ?_⟩
  unfold fixGptCRC32
  simp only [h.1, h.2, Bool.false_eq_true, if_false]
  split
  · simp
  split
  · simp
  split
  · simp
  split
  · simp
  split
  · simp
  split <;> simp

/-- and nothing otherwise. -/
theorem fixGptCRC32_idle (h : ¬ io.Writes) (s : SlotState) :
    (fixGptCRC32 io media disk s).2 = s := by
  unfold fixGptCRC32
  simp only
  split
  · rfl
  next halloc =>
    rw [if_pos]
    by_contra hread
    exact h ⟨Bool.eq_false_iff.mpr halloc, Bool.eq_false_iff.mpr hread⟩

end

end Edk2Exynos.Op6tSlot
