/-
Boot images (mkbootimg.py): `write_header`, `write_data` and the boot
signature.

Up to v2 the header fills one page of the size asked for, and the kernel,
the ramdisk, the second bootloader, from v1 on the recovery dtbo and in
v2 the dtb follow, each from a page of its own. From v3 on pages have
4096 bytes whatever was asked for, and v4 adds a signature. A field is
refused where `pack` cannot store it, by an exception in the middle of
the header.

`sha1` is the hash of the library; `update_sha` collects what it is fed.
-/
import Edk2Exynos.Bootimg.CommandLine

namespace Edk2Exynos.Bootimg

open Lib

-- ============================================================ the header

/-- `get_recovery_dtbo_offset` -/
def getRecoveryDtboOffset (args : Args) : Int :=
  let numHeaderPages := 1 -- header occupies a page
  let numKernelPages := getNumberOfPages (filesize args.kernel)
    args.pagesize.val
  let numRamdiskPages := getNumberOfPages (filesize args.ramdisk)
    args.pagesize.val
  let numSecondPages := getNumberOfPages (filesize args.second)
    args.pagesize.val
  args.pagesize.val * (numHeaderPages + numKernelPages + numRamdiskPages
    + numSecondPages)

/-- `(args.os_version << 11) | args.os_patch_level` -/
def osVersionWord (args : Args) : Int :=
  ((args.osVersion <<< 11 ||| args.osPatchLevel : Nat) : Int)

/-- `update_sha`, on what was fed to the hash so far. -/
def updateSha (sha : List Byte) (f : Option (List Byte)) :
    Except PyError (List Byte) :=
  match f with
  | some bs => write (sha ++ bs) (packI (filesize f))
  | none => write sha (packI 0)

/-- `write_header_v3_and_above` -/
def writeHeaderV3AndAbove (args : Args) (output : List Byte) :
    Except PyError (List Byte) := do
  let bootHeaderSize :=
    if args.headerVersion > 3 then bootImageHeaderV4Size
    else bootImageHeaderV3Size
  let output ← write output (packS bootMagicSize bootMagic)
  -- kernel size in bytes
  let output ← write output (packI (filesize args.kernel))
  -- ramdisk size in bytes
  let output ← write output (packI (filesize args.ramdisk))
  -- os version and patch level
  let output ← write output (packI (osVersionWord args))
  let output ← write output (packI bootHeaderSize)
  -- reserved
  let output ← write output (packI 0)
  let output ← write output (packI 0)
  let output ← write output (packI 0)
  let output ← write output (packI 0)
  -- version of boot image header
  let output ← write output (packI args.headerVersion)
  let output ← write output
    (packS (bootArgsSize + bootExtraArgsSize) args.cmdline)
  let output ←
    if args.headerVersion ≥ 4 then
      -- The signature used to verify boot image v4.
      write output (packI bootImageV4SignatureSize)
    else .ok output
  .ok (padFile output bootImageHeaderV3Pagesize)

/-- What `write_header` hashes. -/
def shaInput (args : Args) : Except PyError (List Byte) := do
  let sha ← updateSha [] args.kernel
  let sha ← updateSha sha args.ramdisk
  let sha ← updateSha sha args.second
  let sha ←
    if args.headerVersion > 0 then updateSha sha args.recoveryDtbo
    else .ok sha
  if args.headerVersion > 1 then updateSha sha args.dtb else .ok sha

/-- The fields of `write_header` from v1 on. -/
def writeHeaderV1Fields (args : Args) (output : List Byte) :
    Except PyError (List Byte) := do
  let output ←
    if args.headerVersion > 0 then
      match args.recoveryDtbo with
      | some _ => do
          -- recovery dtbo size in bytes
          let output ← write output (packI (filesize args.recoveryDtbo))
          -- recovery dtbo offset in the boot image
          write output (packQ (getRecoveryDtboOffset args))
      | none => do
          -- Set to zero if no recovery dtbo
          let output ← write output (packI 0)
          write output (packQ 0)
    else .ok output
  -- Populate boot image header size for header versions 1 and 2.
  if args.headerVersion = 1 then
    write output (packI bootImageHeaderV1Size)
  else if args.headerVersion = 2 then
    write output (packI bootImageHeaderV2Size)
  else .ok output

/-- The fields of `write_header` from v2 on. -/
def writeHeaderV2Fields (args : Args) (output : List Byte) :
    Except PyError (List Byte) :=
  if args.headerVersion > 1 then
    if filesize args.dtb = 0 then
      .error (.valueError "DTB image must not be empty.")
    else do
      -- dtb size in bytes
      let output ← write output (packI (filesize args.dtb))
      -- dtb physical load address
      write output (packQ (args.base + args.dtbOffset))
  else .ok output

/-- `write_header`, with the image id it returns. -/
def writeHeader (sha1 : List Byte → List Byte) (args : Args)
    (output : List Byte) :
    Except PyError (List Byte × Option (List Byte)) :=
  let headerVersion := args.headerVersion
  if headerVersion > 4 then
    .error (.valueError
      s!"Boot header version {headerVersion} not supported")
  else if headerVersion = 3 ∨ headerVersion = 4 then do
    let output ← writeHeaderV3AndAbove args output
    .ok (output, none)
  else do
    let ramdiskLoadAddress :=
      if filesize args.ramdisk > 0 then args.base + args.ramdiskOffset
      else 0
    let secondLoadAddress :=
      if filesize args.second > 0 then args.base + args.secondOffset
      else 0
    let output ← write output (packS bootMagicSize bootMagic)
    -- kernel size in bytes
    let output ← write output (packI (filesize args.kernel))
    -- kernel physical load address
    let output ← write output (packI (args.base + args.kernelOffset))
    -- ramdisk size in bytes
    let output ← write output (packI (filesize args.ramdisk))
    -- ramdisk physical load address
    let output ← write output (packI ramdiskLoadAddress)
    -- second bootloader size in bytes
    let output ← write output (packI (filesize args.second))
    -- second bootloader physical load address
    let output ← write output (packI secondLoadAddress)
    -- kernel tags physical load address
    let output ← write output (packI (args.base + args.tagsOffset))
    -- flash page size
    let output ← write output (packI args.pagesize.val)
    -- version of boot image header
    let output ← write output (packI args.headerVersion)
    -- os version and patch level
    let output ← write output (packI (osVersionWord args))
    -- asciiz product name
    let output ← write output (packS bootNameSize args.board)
    let output ← write output (packS bootArgsSize args.cmdline)
    let sha ← shaInput args
    let imgId := field 32 (sha1 sha)
    let output ← write output (.ok imgId)
    let output ← write output (packS bootExtraArgsSize args.extraCmdline)
    let output ← writeHeaderV1Fields args output
    let output ← writeHeaderV2Fields args output
    .ok (padFile output args.pagesize.val, some imgId)

-- ============================================================== the data

/-- `add_boot_image_signature` -/
def addBootImageSignature (args : Args) (output : List Byte)
    (pagesize : Nat) : Except PyError (List Byte) :=
  match args.gkiSigning with
  | none =>
      -- Appends zeros if the signing key is not specified.
      .ok (padFile (output ++ List.replicate bootImageV4SignatureSize 0)
        pagesize)
  | some avbtool =>
      let bootSignature := avbtool.run output
      if filesize (some bootSignature) > bootImageV4SignatureSize then
        .error (.valueError "boot sigature size is > 4096")
      else .ok (writePaddedFile output (some bootSignature) pagesize)

/-- `write_data` -/
def writeData (args : Args) (output : List Byte) (pagesize : Nat) :
    Except PyError (List Byte) :=
  let output := writePaddedFile output args.kernel pagesize
  let output := writePaddedFile output args.ramdisk pagesize
  let output := writePaddedFile output args.second pagesize
  let output :=
    if args.headerVersion > 0 ∧ args.headerVersion < 3 then
      writePaddedFile output args.recoveryDtbo pagesize
    else output
  let output :=
    if args.headerVersion = 2 then
      writePaddedFile output args.dtb pagesize
    else output
  if args.headerVersion ≥ 4 then
    addBootImageSignature args output pagesize
  else .ok output

end Edk2Exynos.Bootimg
