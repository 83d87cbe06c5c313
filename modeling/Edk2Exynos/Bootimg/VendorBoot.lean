/-
Vendor boot images (mkbootimg.py): the header, the ramdisks with their
table, and the reader of a bootloader.

# The tool

A v3 image has one vendor ramdisk. A v4 image has any number of them, one
behind the other in a single section, and a table that says where each
one is; the table's sizes and offsets were summed up while the options
were parsed (`add_entry`). The header of 2112 or 2128 bytes may take more
than one page.

# The reader

`readVendorBootImage` believes the header and the table, and takes every
ramdisk out of the section by the offset and size its entry gives.
-/
import Edk2Exynos.Bootimg.BootFormat
import Edk2Exynos.Bootimg.CommandLine

namespace Edk2Exynos.Bootimg

open Lib

-- ============================================================== the tool

/-- The fields of `write_vendor_boot_header` from v4 on. -/
def writeVendorBootHeaderV4Fields (args : Args) (f : List Byte) :
    Except PyError (List Byte) :=
  if args.headerVersion > 3 then do
    let entryNum : Int := args.vendorRamdiskTableBuilder.entries.length
    let vendorRamdiskTableSize := entryNum * vendorRamdiskTableEntryV4Size
    -- vendor ramdisk table size in bytes
    let f ← write f (packI vendorRamdiskTableSize)
    -- number of vendor ramdisk table entries
    let f ← write f (packI entryNum)
    -- vendor ramdisk table entry size in bytes
    let f ← write f (packI vendorRamdiskTableEntryV4Size)
    -- bootconfig section size in bytes
    write f (packI (filesize args.vendorBootconfig))
  else .ok f

/-- `write_vendor_boot_header` -/
def writeVendorBootHeader (args : Args) (f : List Byte) :
    Except PyError (List Byte) :=
  if filesize args.dtb = 0 then
    .error (.valueError "DTB image must not be empty.")
  else do
    let vendorRamdiskSize :=
      if args.headerVersion > 3 then
        args.vendorRamdiskTableBuilder.ramdiskTotalSize
      else filesize args.vendorRamdisk
    let vendorBootHeaderSize :=
      if args.headerVersion > 3 then vendorBootImageHeaderV4Size
      else vendorBootImageHeaderV3Size
    let f ← write f (packS vendorBootMagicSize vendorBootMagic)
    -- version of boot image header
    let f ← write f (packI args.headerVersion)
    -- flash page size
    let f ← write f (packI args.pagesize.val)
    -- kernel physical load address
    let f ← write f (packI (args.base + args.kernelOffset))
    -- ramdisk physical load address
    let f ← write f (packI (args.base + args.ramdiskOffset))
    -- ramdisk size in bytes
    let f ← write f (packI vendorRamdiskSize)
    let f ← write f (packS vendorBootArgsSize args.vendorCmdline)
    -- kernel tags physical load address
    let f ← write f (packI (args.base + args.tagsOffset))
    -- asciiz product name
    let f ← write f (packS vendorBootNameSize args.board)
    -- header size in bytes
    let f ← write f (packI vendorBootHeaderSize)
    -- dtb size in bytes
    let f ← write f (packI (filesize args.dtb))
    -- dtb physical load address
    let f ← write f (packQ (args.base + args.dtbOffset))
    let f ← writeVendorBootHeaderV4Fields args f
    .ok (padFile f args.pagesize.val)

/-- `VendorRamdiskTableBuilder.write_ramdisks_padded` -/
def VendorRamdiskTableBuilder.writeRamdisksPadded
    (self : VendorRamdiskTableBuilder) (fout : List Byte)
    (alignment : Nat) : List Byte :=
  padFile (self.entries.foldl (fun fout entry => fout ++ entry.ramdisk)
    fout) alignment

/-- One round of `write_entries_padded`. -/
def writeEntry (fout : List Byte) (entry : VendorRamdiskTableEntry) :
    Except PyError (List Byte) := do
  let fout ← write fout (packI entry.ramdiskSize)
  let fout ← write fout (packI entry.ramdiskOffset)
  let fout ← write fout (packI entry.ramdiskType)
  let fout ← write fout (packS vendorRamdiskNameSize entry.ramdiskName)
  .ok (fout ++ entry.boardId.flatMap (leBytes 4))

/-- `VendorRamdiskTableBuilder.write_entries_padded` -/
def VendorRamdiskTableBuilder.writeEntriesPadded
    (self : VendorRamdiskTableBuilder) (fout : List Byte)
    (alignment : Nat) : Except PyError (List Byte) := do
  let fout ← self.entries.foldlM writeEntry fout
  .ok (padFile fout alignment)

/-- `write_vendor_boot_data` -/
def writeVendorBootData (args : Args) (f : List Byte) :
    Except PyError (List Byte) :=
  let page := args.pagesize.val
  if args.headerVersion > 3 then do
    let builder := args.vendorRamdiskTableBuilder
    let f := builder.writeRamdisksPadded f page
    let f := writePaddedFile f args.dtb page
    let f ← builder.writeEntriesPadded f page
    .ok (writePaddedFile f args.vendorBootconfig page)
  else
    let f := writePaddedFile f args.vendorRamdisk page
    .ok (writePaddedFile f args.dtb page)

-- ============================================================ the format

/-- The header of a vendor boot image, as v3 has it. -/
structure VendorBootHeader where
  magic : List Byte
  headerVersion : Nat
  pageSize : Nat
  kernelAddr : Nat
  ramdiskAddr : Nat
  vendorRamdiskSize : Nat
  cmdline : List Byte
  tagsAddr : Nat
  name : List Byte
  headerSize : Nat
  dtbSize : Nat
  dtbAddr : Nat

/-- How that header is stored. -/
def vendorBootHeader : Codec VendorBootHeader :=
  Codec.imap
    ((Codec.text 8).pair <| word32.pair <| word32.pair <| word32.pair <|
      word32.pair <| word32.pair <| (Codec.text 2048).pair <|
      word32.pair <| (Codec.text 16).pair <| word32.pair <|
      word32.pair <| word64)
    (fun (magic, headerVersion, pageSize, kernelAddr, ramdiskAddr,
        vendorRamdiskSize, cmdline, tagsAddr, name, headerSize, dtbSize,
        dtbAddr) =>
      { magic, headerVersion, pageSize, kernelAddr, ramdiskAddr,
        vendorRamdiskSize, cmdline, tagsAddr, name, headerSize, dtbSize,
        dtbAddr })
    (fun h => (h.magic, h.headerVersion, h.pageSize, h.kernelAddr,
      h.ramdiskAddr, h.vendorRamdiskSize, h.cmdline, h.tagsAddr, h.name,
      h.headerSize, h.dtbSize, h.dtbAddr))
    (fun _ => rfl)

/-- What v4 adds. -/
structure VendorHeaderV4 where
  tableSize : Nat
  entryNum : Nat
  entrySize : Nat
  bootconfigSize : Nat

/-- How the fields of v4 are stored. -/
def vendorHeaderV4 : Codec VendorHeaderV4 :=
  Codec.imap (word32.pair <| word32.pair <| word32.pair <| word32)
    (fun (tableSize, entryNum, entrySize, bootconfigSize) =>
      { tableSize, entryNum, entrySize, bootconfigSize })
    (fun h => (h.tableSize, h.entryNum, h.entrySize, h.bootconfigSize))
    (fun _ => rfl)

/-- An entry of the vendor ramdisk table. -/
structure TableEntry where
  ramdiskSize : Nat
  ramdiskOffset : Nat
  ramdiskType : Nat
  ramdiskName : List Byte
  boardId : List Nat

/-- How an entry of the table is stored. -/
def tableEntry : Codec TableEntry :=
  Codec.imap
    (word32.pair <| word32.pair <| word32.pair <| (Codec.text 32).pair <|
      Codec.array 16 word32)
    (fun (ramdiskSize, ramdiskOffset, ramdiskType, ramdiskName, boardId) =>
      { ramdiskSize, ramdiskOffset, ramdiskType, ramdiskName, boardId })
    (fun e => (e.ramdiskSize, e.ramdiskOffset, e.ramdiskType,
      e.ramdiskName, e.boardId))
    (fun _ => rfl)

theorem vendorBootHeader_width : vendorBootHeader.width = 2112 := rfl

theorem vendorHeaderV4_width : vendorHeaderV4.width = 16 := rfl

theorem tableEntry_width : tableEntry.width = 108 := rfl

/-- A ramdisk of a v4 image. -/
structure VendorRamdisk where
  ramdisk : List Byte
  ramdiskType : Nat
  name : List Byte
  boardId : List Nat

/-- A vendor boot image as a bootloader sees it. -/
structure VendorBootImage where
  headerVersion : Nat
  pageSize : Nat
  kernelAddr : Nat
  ramdiskAddr : Nat
  tagsAddr : Nat
  cmdline : List Byte
  name : List Byte
  dtb : List Byte
  dtbAddr : Nat
  vendorRamdisk : List Byte
  ramdisks : List VendorRamdisk
  bootconfig : List Byte

/-- The fields of v4, none in v3. -/
def readVendorHeaderV4 (version : Nat) (bs : List Byte) :
    Option (VendorHeaderV4 × List Byte) :=
  if 4 ≤ version then vendorHeaderV4.read bs
  else
    some
      ({ tableSize := 0
         entryNum := 0
         entrySize := 0
         bootconfigSize := 0 }, bs)

/-- The ramdisk an entry names, in the section of them all. -/
def readRamdisk (section' : List Byte) (e : TableEntry) :
    Option VendorRamdisk := do
  let ramdisk ← slice e.ramdiskOffset e.ramdiskSize section'
  return {
    ramdisk := ramdisk
    ramdiskType := e.ramdiskType
    name := e.ramdiskName
    boardId := e.boardId }

/-- Read the entries of the vendor ramdisk table. -/
def readRamdiskTable (image : List Byte) : Option (List TableEntry) := do
  let (h, rest) ← vendorBootHeader.read image
  let (v4, _) ← readVendorHeaderV4 h.headerVersion rest
  let (_, body) ← takeSection h.pageSize h.headerSize image
  let (_, body) ← takeSection h.pageSize h.vendorRamdiskSize body
  let (_, body) ← takeSection h.pageSize h.dtbSize body
  let (table, _) ← takeSection h.pageSize v4.tableSize body
  let (entries, _) ← tableEntry.readArray v4.entryNum table
  return entries

/-- Every entry has the size of its ramdisk, and the sizes before it add up
to its offset. -/
def Tiles (entries : List TableEntry) (ramdisks : List VendorRamdisk) :
    Prop :=
  entries.length = ramdisks.length
    ∧ ∀ i e r, entries[i]? = some e → ramdisks[i]? = some r →
      e.ramdiskSize = r.ramdisk.length
        ∧ e.ramdiskOffset
          = ((ramdisks.take i).map fun r => r.ramdisk.length).sum

/-- Read a vendor boot image. -/
def readVendorBootImage (image : List Byte) : Option VendorBootImage := do
  let (h, rest) ← vendorBootHeader.read image
  if h.magic = vendorBootMagic
      ∧ (h.headerVersion = 3 ∨ h.headerVersion = 4) then
    let (v4, _) ← readVendorHeaderV4 h.headerVersion rest
    let (_, body) ← takeSection h.pageSize h.headerSize image
    let (vendorRamdisk, body) ←
      takeSection h.pageSize h.vendorRamdiskSize body
    let (dtb, body) ← takeSection h.pageSize h.dtbSize body
    let (table, body) ← takeSection h.pageSize v4.tableSize body
    let (bootconfig, _) ← takeSection h.pageSize v4.bootconfigSize body
    let (entries, _) ← tableEntry.readArray v4.entryNum table
    let ramdisks ← entries.mapM (readRamdisk vendorRamdisk)
    return {
      headerVersion := h.headerVersion
      pageSize := h.pageSize
      kernelAddr := h.kernelAddr
      ramdiskAddr := h.ramdiskAddr
      tagsAddr := h.tagsAddr
      cmdline := h.cmdline
      name := h.name
      dtb := dtb
      dtbAddr := h.dtbAddr
      vendorRamdisk := vendorRamdisk
      ramdisks := ramdisks
      bootconfig := bootconfig }
  else none

end Edk2Exynos.Bootimg
