/-
The data model of BootSlotLib: GPT entries in memory and on the medium,
the library's global variables, and the firmware services it calls.

# State and environment

`St` is everything the library can change: the partition table
`PtnEntries` with its backup copy, the cached list of slotted partition
names, the contents of the block devices, and the journals of the two
effects that leave the machine (`WriteBlocks` and the boot-LU calls).
`PartitionCount` is the length of the table: the C array is zero past it
in both copies, so a comparison of the arrays is one of the lists.

`Env` is what the library only asks: the boot device type, which LUNs
have a root device and of what geometry, and the outcome of every
service call. Outcomes are
streams indexed by a counter in the state, so a theorem over all
environments is one over every sequence of results and failures.

# Names

`PartitionName` is `CHAR16[36]`, kept here as the raw code units; the
string functions (Strings.lean) read it up to its terminator, and past
its end into the `lun` field when it has none.
-/
import Edk2Exynos.Lib.Bytes
import Edk2Exynos.Lib.Journal

namespace Edk2Exynos.BootSlot

open Lib

/-- A 32-bit word. -/
abbrev UINT32 := BitVec 32
/-- A 64-bit word. -/
abbrev UINT64 := BitVec 64
/-- A character of a wide string. -/
abbrev CHAR16 := BitVec 16

-- ============================================================ EFI_STATUS

/-- `EFI_STATUS` -/
abbrev EfiStatus := BitVec 64

/-- `EFI_SUCCESS` -/
def efiSuccess : EfiStatus := 0
/-- `EFI_INVALID_PARAMETER` -/
def efiInvalidParameter : EfiStatus := 0x8000000000000002
/-- `EFI_BUFFER_TOO_SMALL` -/
def efiBufferTooSmall : EfiStatus := 0x8000000000000005
/-- `EFI_OUT_OF_RESOURCES` -/
def efiOutOfResources : EfiStatus := 0x8000000000000009
/-- `EFI_NOT_FOUND` -/
def efiNotFound : EfiStatus := 0x800000000000000E

/-- `EFI_ERROR`: the high bit; a warning is no error. -/
def efiError (s : EfiStatus) : Bool := s.msb

theorem efiNotFound_ne_efiSuccess : efiNotFound ≠ efiSuccess := by decide

theorem not_efiError_efiSuccess : ¬ efiError efiSuccess = true := by decide

-- ========================================================= GPT constants

/-- `GPT_HEADER_SIZE` -/
def gptHeaderSize : Nat := 92
/-- `HEADER_CRC_OFFSET` -/
def headerCrcOffset : Nat := 16
/-- `PARTITION_COUNT_OFFSET` -/
def partitionCountOffset : Nat := 80
/-- `PENTRY_SIZE_OFFSET` -/
def pentrySizeOffset : Nat := 84
/-- `PARTITION_CRC_OFFSET` -/
def partitionCrcOffset : Nat := 88
/-- `PARTITION_ENTRY_SIZE` -/
def partitionEntrySize : Nat := 128
/-- `ATTRIBUTE_FLAG_OFFSET` -/
def attributeFlagOffset : Nat := 48
/-- `GUID_SIZE` -/
def guidSize : Nat := 16
/-- `MAX_NUM_PARTITIONS` -/
def maxNumPartitions : Nat := 128
/-- `MAX_PARTITION_ENTRIES_SZ` -/
def maxPartitionEntriesSz : Nat := maxNumPartitions * partitionEntrySize
/-- `GPT_HDR_BLOCKS` -/
def gptHdrBlocks : Nat := 1
/-- `PRIMARY_HDR_LBA` -/
def primaryHdrLba : UINT32 := 1
/-- `MAX_HANDLEINF_LST_SIZE` -/
def maxHandleinfLstSize : Nat := 128
/-- `MAX_LUNS` -/
def maxLuns : Nat := 8

-- ===================================================== partition entries

/-- `EFI_GUID` as its sixteen bytes in memory. -/
@[ext]
structure EfiGuid where
  bytes : List Byte
  size : bytes.length = guidSize
  deriving DecidableEq

/-- `Data1`, the first field of a GUID. -/
def EfiGuid.data1 (g : EfiGuid) : UINT32 :=
  lword (g.bytes.getD 0 0) (g.bytes.getD 1 0) (g.bytes.getD 2 0)
    (g.bytes.getD 3 0)

/-- The GUID stored at `a`. -/
def guidAt (m : Mem) (a : Nat) : EfiGuid where
  bytes := readBytes m a guidSize
  size := readBytes_length m a guidSize

/-- The GUID of an unused entry. -/
def EfiGuid.zero : EfiGuid where
  bytes := List.replicate guidSize 0
  size := List.length_replicate

/-- `EFI_PARTITION_ENTRY`. -/
structure EfiPartitionEntry where
  partitionTypeGuid : EfiGuid
  uniquePartitionGuid : EfiGuid
  startingLba : UINT64
  endingLba : UINT64
  attributes : UINT64
  partitionName : List CHAR16
  deriving DecidableEq

/-- An entry of zeros. -/
def EfiPartitionEntry.zero : EfiPartitionEntry where
  partitionTypeGuid := EfiGuid.zero
  uniquePartitionGuid := EfiGuid.zero
  startingLba := 0
  endingLba := 0
  attributes := 0
  partitionName := List.replicate 36 0

/-- The entry a 128-byte GPT slot at `a` holds: the packed layout of
`EFI_PARTITION_ENTRY`. -/
def entryAt (m : Mem) (a : Nat) : EfiPartitionEntry where
  partitionTypeGuid := guidAt m a
  uniquePartitionGuid := guidAt m (a + 16)
  startingLba := getLlword m (a + 32)
  endingLba := getLlword m (a + 40)
  attributes := getLlword m (a + attributeFlagOffset)
  partitionName := (List.range 36).map fun i =>
    m (a + 57 + 2 * i) ++ m (a + 56 + 2 * i)

/-- `struct PartitionEntry`: an entry and the LUN it was found on. -/
structure PartitionEntry where
  partEntry : EfiPartitionEntry
  lun : Nat
  deriving DecidableEq

/-- An entry of the table as it is at first. -/
def PartitionEntry.zero : PartitionEntry where
  partEntry := EfiPartitionEntry.zero
  lun := 0

/-- The entry with other attributes. -/
def PartitionEntry.withAttributes (v : UINT64) (p : PartitionEntry) :
    PartitionEntry :=
  { p with partEntry := { p.partEntry with attributes := v } }

-- ================================================== devices and services

/-- `MemCardType`, the types of root device. -/
inductive MemCardType where
  | emmc
  | ufs
  | unknown
  deriving DecidableEq

/-- The geometry in `BlockIo->Media`. -/
structure BlockIoMedia where
  blockSize : UINT32
  lastBlock : UINT64

/-- The outcome of one `UfsGetSetBootLun` on the firmware side: the
three lookups, and the protocol call with the LU number it stored, if
it stored one. -/
structure CardInfoReply where
  blkIoHandles : EfiStatus
  handleProtocol : EfiStatus
  revisionOk : Bool
  result : EfiStatus
  bootLun : Option UINT32

/-- What the library asks of the firmware. -/
structure Env where
  /-- `CheckRootDeviceType` -/
  rootDeviceType : MemCardType
  /-- root-device handles `GetBlkIOHandles` finds for a LUN, or for the
  eMMC user partition (`NO_LUN`) -/
  rootHandles : Option Nat → EfiStatus × Nat
  /-- geometry of the root device of a LUN (of the eMMC, at LUN 0) -/
  media : Nat → BlockIoMedia
  /-- outcome of the n-th block I/O, CRC or buffer allocation call -/
  io : Nat → EfiStatus
  /-- address `AllocateZeroPool` returns for the n-th list node -/
  nodeAddr : Nat → UINT64
  /-- outcome of the n-th `UfsGetSetBootLun` -/
  cardInfo : Nat → CardInfoReply

/-- A call on the card-info protocol. -/
inductive BootLunCall where
  | getBootLU (result : EfiStatus) (lun : UINT32)
  | setBootLU (lun : UINT32)
  deriving DecidableEq

/-- `struct BootPartsLinkedList` and the address it was allocated at. -/
structure BootPartsNode where
  addr : UINT64
  partName : List CHAR16
  next : UINT64
  deriving DecidableEq

/-- The library's globals, the media, and what was sent to them. -/
structure St where
  ptnEntries : List PartitionEntry
  ptnEntriesBak : List PartitionEntry
  maxLuns : Nat
  headNode : List BootPartsNode
  disk : Nat → Mem
  writes : List (Write Nat)
  bootLunCalls : List BootLunCall
  ioTick : Nat
  nodeTick : Nat
  cardTick : Nat

-- ================================================ UpdatePartitionEntries

/-- What `GetPartitionEntry` finds on a handle, if it finds anything. -/
abbrev HandleEntry := Option EfiPartitionEntry

/-- The entry stored for one handle of LUN `lun`. -/
def handleEntry (lun : Nat) : HandleEntry → PartitionEntry
  | some e => { partEntry := e, lun := lun }
  | none => { PartitionEntry.zero with lun := lun }

/-- `UpdatePartitionEntries`: the handles of every LUN in order, up to
`MAX_NUM_PARTITIONS`, and the backup copy of the result. -/
def updatePartitionEntries (ptable : List (List HandleEntry)) (s : St) :
    St :=
  let entries := ((ptable.zipIdx.map fun (hs, lun) =>
    hs.map (handleEntry lun)).flatten).take maxNumPartitions
  { s with ptnEntries := entries, ptnEntriesBak := entries }

end Edk2Exynos.BootSlot
