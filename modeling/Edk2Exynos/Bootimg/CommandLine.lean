/-
From the command line to the arguments (mkbootimg.py): the texts and
versions `argparse` converts, the vendor ramdisk groups, and
`parse_cmdline`, which cuts the kernel command line in two.

`argparse` reads the options in the order given and stops at the first it
cannot convert; the order of the checks here is that of the options in
`parse_cmdline`. Which runs end without an exception does not depend on
it.

Each vendor ramdisk group is given as parsed; groups are left over, and
an error, where `parse_vendor_ramdisk_args` is not called.
-/
import Edk2Exynos.Bootimg.Base
import Mathlib.Data.List.DropRight

namespace Edk2Exynos.Bootimg

open Lib

-- ===================================================== types of options

/-- `AsciizBytes(bufsize)(arg)` -/
def asciizBytes (bufsize : Nat) (arg : ArgText) :
    Except PyError (List Byte) :=
  let argBytes := arg.val ++ [0]
  let got := argBytes.length
  if got > bufsize then
    .error (.argumentTypeError
      s!"Encoded asciiz length exceeded: max {bufsize}, got {got}")
  else .ok argBytes

/-- What `\d{1,n}` matches in a text whose only digits are those of
ASCII. -/
def matchDigits (n : Nat) (x : List Char) : List Char :=
  (x.take n).takeWhile Char.isDigit

/-- `int` of digits -/
def intOfDigits (ds : List Char) : Nat :=
  ds.foldl (fun v d => 10 * v + (d.toNat - 48)) 0

/-- What `(?:\.(\d{1,3}))?` matches, with the rest behind it. -/
def matchMinor : List Char → Option (List Char × List Char)
  | '.' :: x =>
      let ds := matchDigits 3 x
      if ds = [] then none else some (ds, x.drop ds.length)
  | _ => none

/-- The numbers of the groups of `parse_os_version`; `None` when the
expression does not match. -/
def osVersionGroups (x : List Char) : Option (Nat × Nat × Nat) :=
  let major := matchDigits 3 x
  if major = [] then none
  else some <|
    match matchMinor (x.drop major.length) with
    | none => (intOfDigits major, 0, 0)
    | some (minor, x) =>
        match matchMinor x with
        | none => (intOfDigits major, intOfDigits minor, 0)
        | some (patch, _) =>
            (intOfDigits major, intOfDigits minor, intOfDigits patch)

/-- `parse_os_version` -/
def parseOsVersion (x : List Char) : Except PyError Nat :=
  match osVersionGroups x with
  | none => .ok 0
  | some (a, b, c) =>
      -- 7 bits allocated for each field
      if a < 128 ∧ b < 128 ∧ c < 128 then
        .ok ((a <<< 14) ||| (b <<< 7) ||| c)
      else .error .assertionError

/-- The first two groups of `parse_os_patch_level`. -/
def osPatchLevelGroups (x : List Char) : Option (Nat × Nat) :=
  let year := matchDigits 4 x
  let rest := x.drop 4
  let month := matchDigits 2 (rest.drop 1)
  if year.length = 4 ∧ rest.head? = some '-' ∧ month.length = 2 then
    some (intOfDigits year, intOfDigits month)
  else none

/-- `parse_os_patch_level` -/
def parseOsPatchLevel (x : List Char) : Except PyError Nat :=
  match osPatchLevelGroups x with
  | none => .ok 0
  | some (year, m) =>
      let y : Int := year - 2000
      -- 7 bits allocated for the year, 4 bits for the month
      if (0 ≤ y ∧ y < 128) ∧ (0 < m ∧ m ≤ 12) then
        .ok ((y.toNat <<< 4) ||| m)
      else .error .assertionError

/-- An option whose default is the number 0. -/
def orZero (parse : List Char → Except PyError Nat) :
    Option (List Char) → Except PyError Nat
  | none => .ok 0
  | some x => parse x

/-- The check of `--pagesize` against its choices. -/
def choosePagesize (x : Int) : Except PyError PageSize :=
  if h : ((x.toNat : Nat) : Int) ∈ pagesizeChoices ∧ 0 ≤ x then
    .ok ⟨x.toNat, h.1⟩
  else .error .systemExit

-- ================================================= vendor ramdisk table

/-- `VendorRamdiskTableBuilder()` -/
def VendorRamdiskTableBuilder.init : VendorRamdiskTableBuilder :=
  { entries := [], ramdiskTotalSize := 0, ramdiskNames := [] }

/-- `array.array('I', xs)` -/
def arrayI (xs : List Int) : Except PyError (List Nat) :=
  if ∀ x ∈ xs, Fits 4 x then .ok (xs.map Int.toNat)
  else .error .overflowError

/-- `name.rstrip(b'\x00')` -/
def stripName (name : List Byte) : List Byte :=
  name.rdropWhile (· = 0)

/-- `VendorRamdiskTableBuilder.add_entry`; the path stands for the file
it names. -/
def VendorRamdiskTableBuilder.addEntry (self : VendorRamdiskTableBuilder)
    (ramdiskPath : List Byte) (ramdiskType : Int)
    (ramdiskName : List Byte) (boardId : Option (List Int)) :
    Except PyError VendorRamdiskTableBuilder :=
  -- Strip any trailing null for simple comparison.
  let strippedRamdiskName := stripName ramdiskName
  if strippedRamdiskName ∈ vendorRamdiskNameBlocklist then
    .error (.valueErrorName "Banned vendor ramdisk name: "
      strippedRamdiskName)
  else if strippedRamdiskName ∈ self.ramdiskNames then
    .error (.valueErrorName "Duplicated vendor ramdisk name: "
      strippedRamdiskName)
  else do
    let boardId ← arrayI (boardId.getD
      (List.replicate vendorRamdiskTableEntryBoardIdSize 0))
    if boardId.length ≠ vendorRamdiskTableEntryBoardIdSize then
      .error (.valueError "board_id size must be 16")
    else
      .ok
        { entries := self.entries ++
            [{ ramdisk := ramdiskPath
               ramdiskSize := filesize (some ramdiskPath)
               ramdiskOffset := self.ramdiskTotalSize
               ramdiskType := ramdiskType
               ramdiskName := ramdiskName
               boardId := boardId }]
          ramdiskTotalSize :=
            self.ramdiskTotalSize + filesize (some ramdiskPath)
          ramdiskNames := strippedRamdiskName :: self.ramdiskNames }

/-- One round of the loop of `parse_vendor_ramdisk_args`. -/
def addFragment (builder : VendorRamdiskTableBuilder) (g : Fragment) :
    Except PyError VendorRamdiskTableBuilder := do
  let ramdiskName ← asciizBytes vendorRamdiskNameSize g.ramdiskName
  builder.addEntry g.vendorRamdiskFragment g.ramdiskType ramdiskName
    (some (List.ofFn g.boardId))

/-- `parse_vendor_ramdisk_args` -/
def parseVendorRamdiskArgs (vendorRamdisk : Option (List Byte))
    (fragments : List Fragment) :
    Except PyError VendorRamdiskTableBuilder := do
  let builder ←
    match vendorRamdisk with
    | none => .ok .init
    | some f =>
        VendorRamdiskTableBuilder.init.addEntry f
          vendorRamdiskTypePlatform [] none
  fragments.foldlM addFragment builder

-- ======================================================== parse_cmdline

/-- The kernel command line as it is stored: for boot headers v0 to v2 it
is split into two fields. -/
def splitCmdline (headerVersion : Int) (cmdline : List Byte) :
    Except PyError (List Byte × List Byte) :=
  if headerVersion < 3 then
    let extraCmdline := cmdline.drop (bootArgsSize - 1)
    let cmdline := cmdline.take (bootArgsSize - 1) ++ [0]
    if cmdline.length ≤ bootArgsSize
        ∧ extraCmdline.length ≤ bootExtraArgsSize then
      .ok (cmdline, extraCmdline)
    else .error .assertionError
  else .ok (cmdline, [])

/-- The buffer size that `--cmdline` is checked against. -/
def cmdlineSize (headerVersion : Int) : Nat :=
  if headerVersion < 3 then bootArgsSize + bootExtraArgsSize - 1
  else bootArgsSize + bootExtraArgsSize

/-- What `parse_cmdline` makes of the arguments its parser left over. -/
def parseExtraArgs (c : CommandLine) :
    Except PyError VendorRamdiskTableBuilder :=
  if c.vendorBoot ∧ 3 < c.headerVersion then
    parseVendorRamdiskArgs c.vendorRamdisk c.fragments
  else if c.fragments = [] then
    .ok .init
  else .error (.valueError "Unrecognized arguments: ")

/-- `parse_cmdline` -/
def parseCmdline (c : CommandLine) : Except PyError Args := do
  let cmdline ← asciizBytes (cmdlineSize c.headerVersion) c.cmdline
  let vendorCmdline ← asciizBytes vendorBootArgsSize c.vendorCmdline
  let osVersion ← orZero parseOsVersion c.osVersion
  let osPatchLevel ← orZero parseOsPatchLevel c.osPatchLevel
  let board ← asciizBytes bootNameSize c.board
  let pagesize ← choosePagesize c.pagesize
  let builder ← parseExtraArgs c
  let (cmdline, extraCmdline) ← splitCmdline c.headerVersion cmdline
  .ok
    { kernel := c.kernel
      ramdisk := c.ramdisk
      second := c.second
      dtb := c.dtb
      recoveryDtbo := c.recoveryDtbo
      cmdline := cmdline
      extraCmdline := extraCmdline
      vendorCmdline := vendorCmdline
      base := c.base
      kernelOffset := c.kernelOffset
      ramdiskOffset := c.ramdiskOffset
      secondOffset := c.secondOffset
      dtbOffset := c.dtbOffset
      osVersion := osVersion
      osPatchLevel := osPatchLevel
      tagsOffset := c.tagsOffset
      board := board
      pagesize := pagesize
      headerVersion := c.headerVersion
      output := c.output
      vendorBoot := c.vendorBoot
      vendorRamdisk := c.vendorRamdisk
      vendorBootconfig := c.vendorBootconfig
      vendorRamdiskTableBuilder := builder
      gkiSigning := c.gkiSigning }

-- ===================================================== texts as strings

theorem asciizBytes_eq_ok {n : Nat} {arg : ArgText} {bs : List Byte} :
    asciizBytes n arg = .ok bs
      ↔ arg.val.length + 1 ≤ n ∧ bs = arg.val ++ [0] := by
  unfold asciizBytes
  simp only [List.length_append, List.length_cons, List.length_nil]
  split
  next h =>
    constructor
    · intro hcon
      cases hcon
    · rintro ⟨hle, -⟩
      omega
  next h =>
    constructor
    · intro heq
      cases heq
      exact ⟨by omega, rfl⟩
    · rintro ⟨-, rfl⟩
      rfl

/-- The terminator of a string makes no difference to its field. -/
theorem field_asciiz (n : Nat) (s : List Byte) :
    field n (s ++ [0]) = field n s :=
  field_append_zeros n 1 s

/-- The two fields of a command line hold its first 511 bytes and the
rest. -/
theorem splitCmdline_fields {v : Int} {s cmdline extra : List Byte}
    (hv : v < 3) (h : splitCmdline v (s ++ [0]) = .ok (cmdline, extra)) :
    field 512 cmdline = field 512 (s.take 511)
      ∧ field 1024 extra = field 1024 (s.drop 511) := by
  unfold splitCmdline at h
  rw [if_pos hv] at h
  dsimp only at h
  split at h
  case isFalse => cases h
  case isTrue =>
    cases h
    have hone : ([0] : List Byte) = List.replicate 1 0 := rfl
    constructor
    · rw [field_asciiz, bootArgsSize, List.take_append, hone,
        List.take_replicate, field_append_zeros]
    · rw [bootArgsSize, List.drop_append, hone, List.drop_replicate,
        field_append_zeros]

end Edk2Exynos.Bootimg
