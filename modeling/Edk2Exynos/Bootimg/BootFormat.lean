/-
The format of boot images, apart from the tool that writes them: the
header of each version as a record with its codec, and the reader of a
bootloader.

`readBootImage` knows nothing of the image but its bytes. It believes the
header: the page size, the size of each section, the header's own size
and, for the recovery dtbo, the place the header gives. The command line
is the string of the first field continued by that of the second.
-/
import Edk2Exynos.Bootimg.Base

namespace Edk2Exynos.Bootimg

open Lib

/-- A 32-bit word of a header. -/
abbrev word32 : Codec Nat := .word 4

/-- A 64-bit word of a header. -/
abbrev word64 : Codec Nat := .word 8

-- =============================================================== v0 to v2

/-- The fields of every header up to v2. -/
structure BootHeader where
  magic : List Byte
  kernelSize : Nat
  kernelAddr : Nat
  ramdiskSize : Nat
  ramdiskAddr : Nat
  secondSize : Nat
  secondAddr : Nat
  tagsAddr : Nat
  pageSize : Nat
  headerVersion : Nat
  osVersion : Nat
  name : List Byte
  cmdline : List Byte
  id : List Byte
  extraCmdline : List Byte

/-- How those fields are stored. -/
def bootHeader : Codec BootHeader :=
  Codec.imap
    ((Codec.text 8).pair <| word32.pair <| word32.pair <| word32.pair <|
      word32.pair <| word32.pair <| word32.pair <| word32.pair <|
      word32.pair <| word32.pair <| word32.pair <| (Codec.text 16).pair <|
      (Codec.text 512).pair <| (Codec.raw 32).pair <| Codec.text 1024)
    (fun (magic, kernelSize, kernelAddr, ramdiskSize, ramdiskAddr,
        secondSize, secondAddr, tagsAddr, pageSize, headerVersion,
        osVersion, name, cmdline, id, extraCmdline) =>
      { magic, kernelSize, kernelAddr, ramdiskSize, ramdiskAddr,
        secondSize, secondAddr, tagsAddr, pageSize, headerVersion,
        osVersion, name, cmdline, id, extraCmdline })
    (fun h => (h.magic, h.kernelSize, h.kernelAddr, h.ramdiskSize,
      h.ramdiskAddr, h.secondSize, h.secondAddr, h.tagsAddr, h.pageSize,
      h.headerVersion, h.osVersion, h.name, h.cmdline, h.id,
      h.extraCmdline))
    (fun _ => rfl)

/-- What v1 adds. -/
structure HeaderV1 where
  recoveryDtboSize : Nat
  recoveryDtboOffset : Nat
  headerSize : Nat

/-- How the fields of v1 are stored. -/
def headerV1 : Codec HeaderV1 :=
  Codec.imap (word32.pair <| word64.pair <| word32)
    (fun (recoveryDtboSize, recoveryDtboOffset, headerSize) =>
      { recoveryDtboSize, recoveryDtboOffset, headerSize })
    (fun h => (h.recoveryDtboSize, h.recoveryDtboOffset, h.headerSize))
    (fun _ => rfl)

/-- What v2 adds. -/
structure HeaderV2 where
  dtbSize : Nat
  dtbAddr : Nat

/-- How the fields of v2 are stored. -/
def headerV2 : Codec HeaderV2 :=
  Codec.imap (word32.pair word64)
    (fun (dtbSize, dtbAddr) => { dtbSize, dtbAddr })
    (fun h => (h.dtbSize, h.dtbAddr))
    (fun _ => rfl)

theorem bootHeader_width : bootHeader.width = 1632 := rfl

theorem headerV1_width : headerV1.width = 16 := rfl

theorem headerV2_width : headerV2.width = 12 := rfl

/-- A boot image as a bootloader sees it. -/
structure BootImage where
  headerVersion : Nat
  osVersion : Nat
  pageSize : Nat
  kernel : List Byte
  kernelAddr : Nat
  ramdisk : List Byte
  ramdiskAddr : Nat
  second : List Byte
  secondAddr : Nat
  recoveryDtbo : List Byte
  dtb : List Byte
  dtbAddr : Nat
  tagsAddr : Nat
  name : List Byte
  cmdline : List Byte
  id : List Byte

/-- The fields of v1, none in v0. -/
def readHeaderV1 (version : Nat) (bs : List Byte) :
    Option (HeaderV1 × List Byte) :=
  if 1 ≤ version then headerV1.read bs
  else
    some
      ({ recoveryDtboSize := 0
         recoveryDtboOffset := 0
         headerSize := bootHeader.width }, bs)

/-- The fields of v2, none in v0 and v1. -/
def readHeaderV2 (version : Nat) (bs : List Byte) :
    Option (HeaderV2 × List Byte) :=
  if 2 ≤ version then headerV2.read bs
  else some ({ dtbSize := 0, dtbAddr := 0 }, bs)

/-- Read an image of v0, v1 or v2. -/
def readBootImage (image : List Byte) : Option BootImage := do
  let (h, rest) ← bootHeader.read image
  if h.magic = bootMagic ∧ h.headerVersion ≤ 2 then
    let (v1, rest) ← readHeaderV1 h.headerVersion rest
    let (v2, _) ← readHeaderV2 h.headerVersion rest
    let (_, body) ← takeSection h.pageSize v1.headerSize image
    let (kernel, body) ← takeSection h.pageSize h.kernelSize body
    let (ramdisk, body) ← takeSection h.pageSize h.ramdiskSize body
    let (second, body) ← takeSection h.pageSize h.secondSize body
    let (_, body) ← takeSection h.pageSize v1.recoveryDtboSize body
    let (dtb, _) ← takeSection h.pageSize v2.dtbSize body
    let (recoveryDtbo, _) ← takeSection h.pageSize v1.recoveryDtboSize
      (image.drop v1.recoveryDtboOffset)
    return {
      headerVersion := h.headerVersion
      osVersion := h.osVersion
      pageSize := h.pageSize
      kernel := kernel
      kernelAddr := h.kernelAddr
      ramdisk := ramdisk
      ramdiskAddr := h.ramdiskAddr
      second := second
      secondAddr := h.secondAddr
      recoveryDtbo := recoveryDtbo
      dtb := dtb
      dtbAddr := v2.dtbAddr
      tagsAddr := h.tagsAddr
      name := h.name
      cmdline := h.cmdline ++ h.extraCmdline
      id := h.id }
  else none

-- ============================================================== v3 and v4

/-- The fields of v3; v4 adds the size of the signature. -/
structure BootHeaderV3 where
  magic : List Byte
  kernelSize : Nat
  ramdiskSize : Nat
  osVersion : Nat
  headerSize : Nat
  reserved : List Nat
  headerVersion : Nat
  cmdline : List Byte

/-- How a header of v3 or v4 is stored. -/
def bootHeaderV3 : Codec BootHeaderV3 :=
  Codec.imap
    ((Codec.text 8).pair <| word32.pair <| word32.pair <| word32.pair <|
      word32.pair <| (Codec.array 4 word32).pair <| word32.pair <|
      Codec.text 1536)
    (fun (magic, kernelSize, ramdiskSize, osVersion, headerSize, reserved,
        headerVersion, cmdline) =>
      { magic, kernelSize, ramdiskSize, osVersion, headerSize, reserved,
        headerVersion, cmdline })
    (fun h => (h.magic, h.kernelSize, h.ramdiskSize, h.osVersion,
      h.headerSize, h.reserved, h.headerVersion, h.cmdline))
    (fun _ => rfl)

theorem bootHeaderV3_width : bootHeaderV3.width = 1580 := rfl

/-- A generic boot image: no addresses, and a signature from v4 on. -/
structure GenericBootImage where
  headerVersion : Nat
  osVersion : Nat
  kernel : List Byte
  ramdisk : List Byte
  cmdline : List Byte
  signature : List Byte

/-- The size of the signature, none before v4. -/
def readSignatureSize (version : Nat) (bs : List Byte) :
    Option (Nat × List Byte) :=
  if 4 ≤ version then word32.read bs else some (0, bs)

/-- Read an image of v3 or v4. -/
def readGenericBootImage (image : List Byte) : Option GenericBootImage := do
  let (h, rest) ← bootHeaderV3.read image
  if h.magic = bootMagic ∧ (h.headerVersion = 3 ∨ h.headerVersion = 4) then
    let (signatureSize, _) ← readSignatureSize h.headerVersion rest
    let (_, body) ← takeSection 4096 h.headerSize image
    let (kernel, body) ← takeSection 4096 h.kernelSize body
    let (ramdisk, body) ← takeSection 4096 h.ramdiskSize body
    let (signature, _) ← takeSection 4096 signatureSize body
    return {
      headerVersion := h.headerVersion
      osVersion := h.osVersion
      kernel := kernel
      ramdisk := ramdisk
      cmdline := h.cmdline
      signature := signature }
  else none

end Edk2Exynos.Bootimg
