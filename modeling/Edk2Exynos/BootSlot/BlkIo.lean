/-
`GetBlkIOHandles` with all its selections: which handles of the firmware
a mask and a filter pick.

# Mask and criteria

`check` is the loop body in the order of the source, over the mask with
its defaults filled in. `wanted` is what the mask asks for, eight criteria
side by side. `check_passes` compares the two: they differ in the volume
name only. It is looked at inside the test for a mounted file system, so
a mask with `BLK_IO_SEL_SELECT_BY_VOLUME_NAME` alone selects volumes of
every name, and `CompareVolumeLabel` keeps the first fifteen characters of
the name asked for.

# Capacity

The count is compared with the capacity after the store, so a list of
capacity zero gets one handle.

`getBlkIOHandles_selects_iff` puts both together.
-/
import Edk2Exynos.BootSlot.Enumerate
import Edk2Exynos.BootSlot.Strings
import Edk2Exynos.Lib.Selection

namespace Edk2Exynos.BlkIo

open Lib BootSlot

/-- A character of a narrow string. -/
abbrev CHAR8 := BitVec 8

-- ============================================================== the mask

/-- `BLK_IO_SEL_MEDIA_TYPE_REMOVABLE` -/
def blkIoSelMediaTypeRemovable : UINT32 := 0x0001
/-- `BLK_IO_SEL_MEDIA_TYPE_NON_REMOVABLE` -/
def blkIoSelMediaTypeNonRemovable : UINT32 := 0x0002
/-- `BLK_IO_SEL_PARTITIONED_GPT` -/
def blkIoSelPartitionedGpt : UINT32 := 0x0004
/-- `BLK_IO_SEL_PARTITIONED_MBR` -/
def blkIoSelPartitionedMbr : UINT32 := 0x0008
/-- `BLK_IO_SEL_MATCH_PARTITION_TYPE_GUID` -/
def blkIoSelMatchPartitionTypeGuid : UINT32 := 0x0010
/-- `BLK_IO_SEL_SELECT_MOUNTED_FILESYSTEM` -/
def blkIoSelSelectMountedFilesystem : UINT32 := 0x0020
/-- `BLK_IO_SEL_SELECT_BY_VOLUME_NAME` -/
def blkIoSelSelectByVolumeName : UINT32 := 0x0040
/-- `BLK_IO_SEL_SELECT_ROOT_DEVICE_ONLY` -/
def blkIoSelSelectRootDeviceOnly : UINT32 := 0x0080
/-- `BLK_IO_SEL_MATCH_ROOT_DEVICE` -/
def blkIoSelMatchRootDevice : UINT32 := 0x0100
/-- `BLK_IO_SEL_MATCH_PARTITION_LABEL` -/
def blkIoSelMatchPartitionLabel : UINT32 := 0x0200

/-- `FILTERS_NEEDING_DEVICEPATH` -/
def filtersNeedingDevicePath : UINT32 :=
  blkIoSelPartitionedMbr ||| blkIoSelPartitionedGpt
    ||| blkIoSelMatchPartitionTypeGuid ||| blkIoSelSelectRootDeviceOnly
    ||| blkIoSelMatchRootDevice

/-- Some bit of `bits` is set in the mask. -/
def has (selectionAttrib bits : UINT32) : Bool :=
  selectionAttrib &&& bits != 0

/-- The defaults `GetBlkIOHandles` adjusts first: both kinds of media and
both partitioning schemes, where the mask names none. -/
def adjustDefaults (selectionAttrib : UINT32) : UINT32 :=
  let a :=
    if has selectionAttrib
        (blkIoSelMediaTypeRemovable ||| blkIoSelMediaTypeNonRemovable) then
      selectionAttrib
    else selectionAttrib
      ||| (blkIoSelMediaTypeRemovable ||| blkIoSelMediaTypeNonRemovable)
  if has a (blkIoSelPartitionedGpt ||| blkIoSelPartitionedMbr) then a
  else a ||| (blkIoSelPartitionedGpt ||| blkIoSelPartitionedMbr)

-- ============================================= handles and their answers

/-- A device path node; `MBRType` is that of a hard drive node. -/
structure Node extends DevicePathNode where
  mbrType : UINT8

/-- `MEDIA_DEVICE_PATH` -/
def mediaDevicePath : UINT8 := 0x04
/-- `MEDIA_HARDDRIVE_DP` -/
def mediaHarddriveDp : UINT8 := 0x01
/-- `sizeof(HARDDRIVE_DEVICE_PATH)` -/
def harddriveDevicePathSize : UINT16 := 42
/-- `PARTITIONED_TYPE_MBR` -/
def partitionedTypeMbr : UINT8 := 0x01
/-- `PARTITIONED_TYPE_GPT` -/
def partitionedTypeGpt : UINT8 := 0x02

/-- A file system and its answers to `OpenVolume`, to `GetInfo` without a
buffer and, when one could be allocated, to `GetInfo` with it. -/
structure Fs where
  openVolume : EfiStatus
  infoSize : EfiStatus
  allocated : Bool
  getInfo : EfiStatus
  volumeLabel : List CHAR16

/-- What the firmware says of a handle: `HandleProtocol` for block I/O,
for the device path (up to its end node), for the partition types, for
the partition information and for the file system. -/
structure Handle where
  blockIo : EfiStatus
  removableMedia : Bool
  devicePath : Option (List Node)
  protocols : EfiGuid → Bool
  partEntry : HandleEntry
  fileSystem : Option Fs

/-- `PartiSelectFilter`; null pointers are `none`. -/
structure PartiSelectFilter where
  rootDeviceType : Option EfiGuid
  partitionType : Option EfiGuid
  volumeName : Option (List CHAR8)
  partitionLabel : Option (List CHAR16)

/-- The handle database, and how `LocateHandleBuffer` ends when there is
a handle to return. -/
structure Firmware where
  handles : List Handle
  locateHandleBuffer : EfiStatus

/-- The handles looked up: those of the file systems when the mask needs
one, else those of block I/O. -/
def Firmware.located (fw : Firmware) (a : UINT32) : List Handle :=
  if has a (blkIoSelSelectMountedFilesystem
      ||| blkIoSelSelectByVolumeName) then
    fw.handles.filter fun h => h.fileSystem.isSome
  else fw.handles.filter fun h => h.blockIo != efiUnsupported

/-- `LocateHandleBuffer` for them. -/
def Firmware.locate (fw : Firmware) (a : UINT32) :
    EfiStatus × List Handle :=
  if fw.located a = [] then (efiNotFound, [])
  else if fw.locateHandleBuffer ≠ efiSuccess then
    (fw.locateHandleBuffer, [])
  else (efiSuccess, fw.located a)

-- ==================================================== CompareVolumeLabel

/-- `VOLUME_LABEL_SIZE` -/
def volumeLabelSize : Nat := 16

/-- The characters before the terminator. -/
def cstr8 (l : List CHAR8) : List CHAR8 := l.takeWhile (· ≠ 0)

/-- A letter in upper case. -/
def upperCase (c : CHAR16) : CHAR16 :=
  if 0x61 ≤ c ∧ c ≤ 0x7a then c - 0x20 else c

/-- A name in wide upper case characters; `CHAR8` is unsigned. -/
def wideUpper (l : List CHAR8) : List CHAR16 :=
  l.map fun c => upperCase (c.setWidth 16)

/-- The label in `FsInfo`; `none` when the pointer stays null or the
information could not be read. -/
def Fs.fsInfo (fs : Fs) : Option (List CHAR16) :=
  if fs.openVolume ≠ efiSuccess then none
  else if fs.infoSize = efiBufferTooSmall then
    if fs.getInfo ≠ efiSuccess ∨ ¬ fs.allocated then none
    else some fs.volumeLabel
  else none

/-- The wide copy of the name asked for. -/
def requestedLabel (reqVolumeName : List CHAR8) : List CHAR16 :=
  wideUpper ((cstr8 reqVolumeName).take (volumeLabelSize - 1)) ++ [0]

/-- The label after its lower case characters were changed in place. -/
def upperLabel (label : List CHAR16) : List CHAR16 :=
  let upper := ((cstr label).take (volumeLabelSize - 1)).map upperCase
  upper ++ label.drop upper.length

/-- Zero if the volume label matches, otherwise non zero. -/
def compareVolumeLabel (fs : Fs) (reqVolumeName : List CHAR8) : Int :=
  match fs.fsInfo with
  | none => 1
  | some label =>
      strnCmp (upperLabel label) (requestedLabel reqVolumeName)
        volumeLabelSize

-- ======================================================= GetBlkIOHandles

/-- How the loop body leaves the function. -/
inductive Exit where
  | returned (status : EfiStatus)
  /-- a null `FilterData` or label is read -/
  | nullAccess

section Body

variable (a : UINT32) (filterData : Option PartiSelectFilter)

/-- The handle's Block I/O protocol is opened; where it is unsupported the
handle is passed over, another error is returned. -/
def openBlockIo (h : Handle) : Verdict Exit :=
  if h.blockIo = efiUnsupported then .skip
  else if h.blockIo ≠ efiSuccess then .stop (.returned h.blockIo)
  else .pass

/-- The medium is of a kind that was asked for. -/
def mediaType (h : Handle) : Verdict Exit :=
  if h.removableMedia then .need (has a blkIoSelMediaTypeRemovable)
  else .need (has a blkIoSelMediaTypeNonRemovable)

/-- The first node is the root device; without `RootDeviceType`, any. -/
def onRootDevice (rootDeviceType : Option EfiGuid) : List Node → Bool
  | [] => false
  | root :: _ =>
      root.type == hardwareDevicePath && root.subType == hwVendorDp
        && root.length == vendorDevicePathSize
        && rootDeviceType.all (root.guid == ·)

/-- The root device is the one the filter names. -/
def rootDevice (path : List Node) : Verdict Exit :=
  if has a (blkIoSelSelectRootDeviceOnly ||| blkIoSelMatchRootDevice) then
    match filterData with
    | none => .stop (.returned efiInvalidParameter)
    | some f => .need (onRootDevice f.rootDeviceType path)
  else .pass

/-- With one node at most the handle is the root device itself. -/
def rootDeviceOnly (path : List Node) : Verdict Exit :=
  if has a blkIoSelSelectRootDeviceOnly then
    .need (decide (path.length ≤ 1))
  else .pass

/-- The last node, if it is the hard drive node of a partition. -/
def harddrive (path : List Node) : Option Node :=
  path.getLast?.filter fun p =>
    p.type == mediaDevicePath && p.subType == mediaHarddriveDp
      && p.length == harddriveDevicePathSize

/-- The partition table is of a kind that was asked for. -/
def partitioned (p : Node) : Verdict Exit :=
  (Verdict.need (has a blkIoSelPartitionedGpt
      || p.mbrType != partitionedTypeGpt)).andThen
    (.need (has a blkIoSelPartitionedMbr
      || p.mbrType != partitionedTypeMbr))

/-- The type is looked for as a protocol, then in the GPT entry. -/
def partitionType (h : Handle) : Verdict Exit :=
  if has a blkIoSelMatchPartitionTypeGuid then
    match filterData.bind PartiSelectFilter.partitionType with
    | none => .stop (.returned efiInvalidParameter)
    | some g =>
        if h.protocols g then .pass
        else .need (h.partEntry.any fun e => e.partitionTypeGuid == g)
  else .pass

/-- The filters that look at the hard drive node, where there is one. -/
def partition (h : Handle) (path : List Node) : Verdict Exit :=
  match harddrive path with
  | some p => (partitioned a p).andThen (partitionType a filterData h)
  | none => .need (!has a blkIoSelMatchPartitionTypeGuid)

/-- The filters that need the device path. -/
def devicePath (h : Handle) : Verdict Exit :=
  if has a filtersNeedingDevicePath then
    match h.devicePath with
    | none => .skip
    | some path =>
        (rootDevice a filterData path).andThen
          ((rootDeviceOnly a path).andThen (partition a filterData h path))
  else .pass

/-- The filters that look at the file system. -/
def fileSystem (h : Handle) : Verdict Exit :=
  if has a blkIoSelSelectMountedFilesystem then
    match h.fileSystem with
    | none => .skip
    | some fs =>
        if has a blkIoSelSelectByVolumeName then
          match filterData.bind PartiSelectFilter.volumeName with
          | none => .stop (.returned efiInvalidParameter)
          | some name => .need (compareVolumeLabel fs name == 0)
        else .pass
  else .pass

/-- The partition has the label of the filter. -/
def partitionLabel (h : Handle) : Verdict Exit :=
  if has a blkIoSelMatchPartitionLabel then
    match h.partEntry with
    | none => .skip
    | some e =>
        match filterData.bind PartiSelectFilter.partitionLabel with
        | none => .stop .nullAccess
        | some label =>
            .need (strnCmp e.partitionName label
              (max (strLen e.partitionName) (strLen label)) == 0)
  else .pass

/-- The body of the loop. -/
def check (h : Handle) : Verdict Exit :=
  (openBlockIo h).andThen <| (mediaType a h).andThen <|
    (devicePath a filterData h).andThen <|
      (fileSystem a filterData h).andThen (partitionLabel a filterData h)

end Body

/-- `HandleInfo`; the block I/O interface is the handle's. -/
structure HandleInfo where
  handle : Handle
  partitionInfo : Option Node

/-- What is stored for a handle, with the hard drive node of its path. -/
def handleInfo (a : UINT32) (h : Handle) : HandleInfo where
  handle := h
  partitionInfo :=
    if has a filtersNeedingDevicePath then h.devicePath.bind harddrive
    else none

/-- What a call leaves: its status, the elements of `HandleInfoPtr` it
wrote from the first one on, and `*MaxBlkIopCnt`. -/
structure Answer where
  status : EfiStatus
  stored : List HandleInfo
  maxBlkIopCnt : Option Nat

/-- `GetBlkIOHandles`, without a result where it reads through a null
pointer. `handleInfoPtr` says whether that pointer is one. -/
def getBlkIOHandles (selectionAttrib : UINT32)
    (filterData : Option PartiSelectFilter) (handleInfoPtr : Bool)
    (maxBlkIopCnt : Option Nat) (fw : Firmware) : Option Answer :=
  match maxBlkIopCnt, handleInfoPtr with
  | some count, true =>
      let a := adjustDefaults selectionAttrib
      match fw.locate a with
      | (status, handles) =>
          if status ≠ efiSuccess then some ⟨status, [], some count⟩
          else
            match select (check a filterData) count handles [] with
            | (none, stored) =>
                some ⟨efiSuccess, stored.map (handleInfo a),
                  some stored.length⟩
            | (some (.returned status), stored) =>
                some ⟨status, stored.map (handleInfo a), some count⟩
            | (some .nullAccess, _) => none
  | count, _ => some ⟨efiInvalidParameter, [], count⟩

end Edk2Exynos.BlkIo
