/-
The data model of the Exynos UFS driver (ufs.c): descriptors, the host
structure with its caches, and what its missing headers supply.

# Missing headers

`dev/ufs.h` and `dev/ufs_provision.h` are not in the repository. Their
types appear here with the fields the driver names, of the width the
field's prefix gives (`b` a byte, `w` a halfword, `d` a word, `q_l` the
low word of a quadword). Constants are the fields of `DevUfs` and
`ProvisionCodes`, which also say what the driver relies on: that status
codes differ. How a descriptor's bytes lie in its structure is left to
`DevUfs`, too.

# Byte order

A descriptor holds big-endian numbers as they came from the device; the
driver swaps a word where it uses it (`___swab32`) and does its arithmetic
in 32 bits, wrapping around. A division by zero yields 0, as the
processor's does.
-/
import Edk2Exynos.Lib.ByteSwap
import Edk2Exynos.Lib.Bytes

namespace Edk2Exynos.Ufs

open Lib

/-- An 8-bit word. -/
abbrev U8 := BitVec 8
/-- A 16-bit word. -/
abbrev U16 := BitVec 16
/-- A 32-bit word. -/
abbrev U32 := BitVec 32
/-- A 64-bit word. -/
abbrev U64 := BitVec 64

-- ============================================================ byte order

/-- `___swab32` -/
abbrev swab32 (x : U32) : U32 := byteSwap x

-- =========================================================== descriptors

/-- The header of a configuration descriptor. -/
structure UfsConfigDescHeader where
  bLength : U8
  bDescriptorType : U8
  bConfDescContinue : U8
  bBootEnable : U8
  bDescrAccessEn : U8
  bInitPowerMode : U8
  bHighPriorityLUN : U8
  bSecureRemovalType : U8
  bInitActiveICCLevel : U8
  wPeriodicRTCUpdate : U16
  deriving DecidableEq

/-- The configuration of one logical unit. -/
structure UfsUnitDescParam where
  bLUEnable : U8
  bBootLunID : U8
  bLUWriteProtect : U8
  bMemoryType : U8
  dNumAllocUnits : U32
  bDataReliability : U8
  bLogicalBlockSize : U8
  bProvisioningType : U8
  wContextCapabilities : U16
  deriving DecidableEq

/-- A device has eight logical units, so there is a unit 0. -/
instance eightUnits : NeZero 8 := ⟨by decide⟩

/-- A configuration descriptor; also the type of `LU_conf`, where
`dNumAllocUnits` is a capacity in MiB and in host byte order. -/
structure UfsConfigDesc where
  header : UfsConfigDescHeader
  unit : Fin 8 → UfsUnitDescParam

/-- `struct ufs_geometry_desc`, in the byte order of the device. -/
structure UfsGeometryDesc where
  qTotalRawDeviceCapacityL : U32
  dSegmentSize : U32
  bAllocationUnitSize : U8
  wEnhanced1CapAdjFac : U16
  deriving DecidableEq

-- =========================================================== the queries

/-- `query_index` -/
inductive QueryIndex where
  | flagWFdeviceinit
  | flagRFdeviceinit
  | descRDeviceDesc
  | descWConfigDesc
  | descRConfigDesc
  | descRUnitDesc
  | descRGeometryDesc
  | attrWBootlunen
  | attrRBootlunen
  | attrWRefclkfreq
  | attrRRefclkfreq
  deriving DecidableEq

/-- The function of a query. -/
inductive QueryFunction where
  | stdRead
  | stdWrite
  deriving DecidableEq

/-- The flags that are queried. -/
inductive FlagId where
  | deviceinit
  deriving DecidableEq

/-- The attributes that are queried. -/
inductive AttrId where
  | bootlunen
  | refclkfreq
  deriving DecidableEq

/-- The descriptors that are queried. -/
inductive DescId where
  | device
  | configuration
  | unit
  | geometry
  deriving DecidableEq

/-- A query's opcode with the identification it takes. -/
inductive QueryOpcode where
  | setFlag (idn : FlagId)
  | readFlag (idn : FlagId)
  | readDesc (idn : DescId)
  | writeDesc (idn : DescId)
  | readAttr (idn : AttrId)
  | writeAttr (idn : AttrId)
  deriving DecidableEq

/-- `ufs_query_params`; index and selector are zero throughout. -/
def ufsQueryParams : QueryIndex → QueryFunction × QueryOpcode
  | .flagWFdeviceinit => (.stdWrite, .setFlag .deviceinit)
  | .flagRFdeviceinit => (.stdRead, .readFlag .deviceinit)
  | .descRDeviceDesc => (.stdRead, .readDesc .device)
  | .descWConfigDesc => (.stdWrite, .writeDesc .configuration)
  | .descRConfigDesc => (.stdRead, .readDesc .configuration)
  | .descRUnitDesc => (.stdRead, .readDesc .unit)
  | .descRGeometryDesc => (.stdRead, .readDesc .geometry)
  | .attrWBootlunen => (.stdWrite, .writeAttr .bootlunen)
  | .attrRBootlunen => (.stdRead, .readAttr .bootlunen)
  | .attrWRefclkfreq => (.stdWrite, .writeAttr .refclkfreq)
  | .attrRRefclkfreq => (.stdRead, .readAttr .refclkfreq)

-- ============================================================== the host

/-- The SCSI operations the driver treats differently. -/
inductive ScsiOp where
  | unmap
  | formatUnit
  | write10
  | writeBuffer
  | secuProtOut
  | startStopUnit
  | other
  deriving DecidableEq

/-- `scm`, a SCSI command of the stack above. -/
structure ScsiCmd where
  cdb : List U8
  datalen : U32
  buf : U64
  lun : U32
  status : U8
  senseBuf : List U8

/-- The transfer request descriptor, `struct ufs_utrd`. Length and offset
of the PRD table share a word. -/
structure UfsUtrd where
  dw0 : U32
  dw2 : U32
  prdtLen : U16
  prdtOff : U16

/-- `struct ufs_host`, as far as transactions and provisioning use it. -/
structure UfsHost where
  lun : U32
  scsiCmd : Option ScsiCmd
  utrd : UfsUtrd
  ufsCmdTimeout : U32
  unitDesc : U8 → Mem
  deviceDesc : Mem
  configDesc : UfsConfigDesc
  geometryDesc : UfsGeometryDesc
  attributes : AttrId → U32
  flags : FlagId → U32

/-- The host before it has read anything. -/
def blankHost : UfsHost where
  lun := 0
  scsiCmd := none
  utrd := ⟨0, 0, 0, 0⟩
  ufsCmdTimeout := 1000000
  unitDesc := fun _ _ => 0
  deviceDesc := fun _ => 0
  configDesc :=
    { header := ⟨0, 0, 0, 0, 0, 0, 0, 0, 0, 0⟩
      unit := fun _ => ⟨0, 0, 0, 0, 0, 0, 0, 0, 0⟩ }
  geometryDesc := ⟨0, 0, 0, 0⟩
  attributes := fun _ => 0
  flags := fun _ => 0

/-- What `dev/ufs.h` supplies. -/
structure DevUfs where
  noError : Int
  inProgress : Int
  error : Int
  timeout : Int
  noError_eq : noError = 0
  distinct : [noError, inProgress, error, timeout].Nodup
  ocsSuccess : U32
  ocsInvalidCommandStatus : U32
  utpTransferReqCompl : U32
  intFatalErrors : U32
  upiuTransactionResponse : U8
  upiuTransactionQueryRsp : U8
  /-- the operation of a command block's first byte -/
  scsiOp : U8 → ScsiOp
  /-- `UPIU_HEADER_DWORD` -/
  upiuHeaderDword : U8 → U8 → U8 → U8 → U32
  sizeUnitDesc : Nat
  sizeDeviceDesc : Nat
  sizeGeometryDesc : Nat
  /-- the first bytes of a configuration descriptor, copied over one -/
  copyConfigDesc : Nat → Mem → UfsConfigDesc → UfsConfigDesc
  copyGeometryDesc : Nat → Mem → UfsGeometryDesc → UfsGeometryDesc
  utpScsiCommand : U32
  utpReqDescIntCmd : U32
  upiuCmdFlagsNone : U32
  upiuCmdFlagsRead : U32
  upiuCmdFlagsWrite : U32
  utpNoDataTransfer : U32
  utpHostToDevice : U32
  utpDeviceToHost : U32
  ufsSgBlockSize : U32
  sizeUfsPrdt : U32
  alignedUpiuSize : U32

/-- The results of a configuration check. -/
structure ProvisionCodes where
  retSuccess : Int
  retFailure : Int
  distinct : retSuccess ≠ retFailure

end Edk2Exynos.Ufs
