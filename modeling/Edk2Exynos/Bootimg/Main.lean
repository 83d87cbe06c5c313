/-
The whole run of the boot image tool (mkbootimg.py, `main`): from the
command line to the images, and back.

Whatever the command line, if the run ends without an exception, a
bootloader that reads the image finds what the options asked for:
`BootImage`, `GenericBootImage` and `VendorBootImage` as the command line
describes them. The one number that is not copied, the word of the OS
version and patch level, decodes to the numbers in the texts given.
-/
import Edk2Exynos.Bootimg.GenericRoundTrip
import Edk2Exynos.Bootimg.VendorRoundTrip

namespace Edk2Exynos.Bootimg

open Lib

-- ============================================================== the code

/-- The files a run writes, and the image id for `--id`. -/
structure Outputs where
  vendorBoot : Option (List Byte)
  output : Option (List Byte)
  imgId : Option (List Byte)

/-- The part of `main` for `--vendor_boot`. -/
def mainVendorBoot (args : Args) : Except PyError (Option (List Byte)) :=
  if args.vendorBoot = false then .ok none
  else if ¬ (args.headerVersion = 3 ∨ args.headerVersion = 4) then
    .error (.valueError
      "--vendor_boot not compatible with given header version")
  else if args.headerVersion = 3 ∧ args.vendorRamdisk = none then
    .error (.valueError "--vendor_ramdisk missing or invalid")
  else do
    let f ← writeVendorBootHeader args []
    let f ← writeVendorBootData args f
    .ok (some f)

/-- The part of `main` for `--output`, with the image id. -/
def mainOutput (sha1 : List Byte → List Byte) (args : Args) :
    Except PyError (Option (List Byte) × Option (List Byte)) :=
  if args.output = false then .ok (none, none)
  else if args.second ≠ none ∧ args.headerVersion > 2 then
    .error (.valueError "--second not compatible with given header version")
  else do
    let (f, imgId) ← writeHeader sha1 args []
    let f ← writeData args f
      (if args.headerVersion > 2 then bootImageHeaderV3Pagesize
        else args.pagesize.val)
    .ok (some f, imgId)

/-- `main` -/
def main (sha1 : List Byte → List Byte) (c : CommandLine) :
    Except PyError Outputs := do
  let args ← parseCmdline c
  let vendorBoot ← mainVendorBoot args
  let (output, imgId) ← mainOutput sha1 args
  .ok { vendorBoot := vendorBoot, output := output, imgId := imgId }

-- ========================================================= the arguments

theorem choosePagesize_eq_ok {x : Int} {p : PageSize}
    (h : choosePagesize x = .ok p) : p.val = x.toNat := by
  unfold choosePagesize at h
  split at h
  case isTrue => cases h; rfl
  case isFalse => cases h

/-- The namespace of a command line, with the parts that were computed. -/
def CommandLine.args (c : CommandLine) (cmdline extra : List Byte)
    (osVersion osPatchLevel : Nat) (pagesize : PageSize)
    (builder : VendorRamdiskTableBuilder) : Args where
  kernel := c.kernel
  ramdisk := c.ramdisk
  second := c.second
  dtb := c.dtb
  recoveryDtbo := c.recoveryDtbo
  cmdline := cmdline
  extraCmdline := extra
  vendorCmdline := c.vendorCmdline.val ++ [0]
  base := c.base
  kernelOffset := c.kernelOffset
  ramdiskOffset := c.ramdiskOffset
  secondOffset := c.secondOffset
  dtbOffset := c.dtbOffset
  osVersion := osVersion
  osPatchLevel := osPatchLevel
  tagsOffset := c.tagsOffset
  board := c.board.val ++ [0]
  pagesize := pagesize
  headerVersion := c.headerVersion
  output := c.output
  vendorBoot := c.vendorBoot
  vendorRamdisk := c.vendorRamdisk
  vendorBootconfig := c.vendorBootconfig
  vendorRamdiskTableBuilder := builder
  gkiSigning := c.gkiSigning

/-- What `parse_cmdline` checked and computed. -/
structure Parsed (c : CommandLine) (cmdline extra : List Byte)
    (osVersion osPatchLevel : Nat) (pagesize : PageSize)
    (builder : VendorRamdiskTableBuilder) : Prop where
  cmdline_le : c.cmdline.val.length + 1 ≤ cmdlineSize c.headerVersion
  vendorCmdline_le : c.vendorCmdline.val.length + 1 ≤ 2048
  board_le : c.board.val.length + 1 ≤ 16
  osVersion : orZero parseOsVersion c.osVersion = .ok osVersion
  osPatchLevel : orZero parseOsPatchLevel c.osPatchLevel = .ok osPatchLevel
  pagesize : pagesize.val = c.pagesize.toNat
  builder : parseExtraArgs c = .ok builder
  cmdline : splitCmdline c.headerVersion (c.cmdline.val ++ [0])
    = .ok (cmdline, extra)

theorem parseCmdline_eq_ok {c : CommandLine} {args : Args}
    (h : parseCmdline c = .ok args) :
    ∃ cmdline extra osVersion osPatchLevel pagesize builder,
      Parsed c cmdline extra osVersion osPatchLevel pagesize builder
        ∧ args = c.args cmdline extra osVersion osPatchLevel pagesize
          builder := by
  obtain ⟨cmdline0, hcmdline0, h⟩ := bind_eq_ok.mp h
  obtain ⟨vendorCmdline, hvendor, h⟩ := bind_eq_ok.mp h
  obtain ⟨osVersion, hos, h⟩ := bind_eq_ok.mp h
  obtain ⟨osPatchLevel, hpatch, h⟩ := bind_eq_ok.mp h
  obtain ⟨board, hboard, h⟩ := bind_eq_ok.mp h
  obtain ⟨pagesize, hpage, h⟩ := bind_eq_ok.mp h
  obtain ⟨builder, hbuilder, h⟩ := bind_eq_ok.mp h
  obtain ⟨⟨cmdline, extra⟩, hcmdline, h⟩ := bind_eq_ok.mp h
  cases h
  obtain ⟨hle, rfl⟩ := asciizBytes_eq_ok.mp hcmdline0
  obtain ⟨hvendorLe, rfl⟩ := asciizBytes_eq_ok.mp hvendor
  obtain ⟨hboardLe, rfl⟩ := asciizBytes_eq_ok.mp hboard
  exact ⟨cmdline, extra, osVersion, osPatchLevel, pagesize, builder,
    ⟨hle, hvendorLe, hboardLe, hos, hpatch, choosePagesize_eq_ok hpage,
      hbuilder, hcmdline⟩, rfl⟩

-- ================================================= the OS version's word

/-- The OS version in the word of a header. -/
def decodeOsVersion (w : Nat) : Nat × Nat × Nat :=
  (w / 2 ^ 25, w / 2 ^ 18 % 2 ^ 7, w / 2 ^ 11 % 2 ^ 7)

/-- The patch level in the word of a header, as year and month. -/
def decodeOsPatchLevel (w : Nat) : Option (Nat × Nat) :=
  if w % 2 ^ 4 = 0 then none
  else some (w / 2 ^ 4 % 2 ^ 7 + 2000, w % 2 ^ 4)

/-- The OS version the options give. -/
def CommandLine.osVersionGiven (c : CommandLine) : Nat × Nat × Nat :=
  (c.osVersion.bind osVersionGroups).getD (0, 0, 0)

/-- The patch level the options give. -/
def CommandLine.osPatchLevelGiven (c : CommandLine) : Option (Nat × Nat) :=
  c.osPatchLevel.bind osPatchLevelGroups

/-- A field of seven bits on top of others. -/
theorem shiftLeft_or {a b n : Nat} (hb : b < 2 ^ n) :
    a <<< n ||| b = a * 2 ^ n + b := by
  rw [← Nat.shiftLeft_add_eq_or_of_lt hb, Nat.shiftLeft_eq]

theorem orZero_parseOsVersion {c : CommandLine} {v : Nat}
    (h : orZero parseOsVersion c.osVersion = .ok v) :
    c.osVersionGiven.1 < 2 ^ 7 ∧ c.osVersionGiven.2.1 < 2 ^ 7
      ∧ c.osVersionGiven.2.2 < 2 ^ 7
      ∧ v = c.osVersionGiven.1 * 2 ^ 14 + c.osVersionGiven.2.1 * 2 ^ 7
        + c.osVersionGiven.2.2 := by
  unfold CommandLine.osVersionGiven
  cases hos : c.osVersion with
  | none =>
    rw [hos] at h
    cases h
    decide
  | some x =>
    rw [hos] at h
    change parseOsVersion x = .ok v at h
    unfold parseOsVersion at h
    rw [Option.bind_some]
    cases hg : osVersionGroups x with
    | none =>
      simp only [hg] at h
      cases h
      decide
    | some g =>
      obtain ⟨a, b, d⟩ := g
      simp only [hg] at h
      split at h
      case isFalse => cases h
      case isTrue hlt =>
        cases h
        obtain ⟨ha, hb, hd⟩ := hlt
        refine ⟨ha, hb, hd, ?_⟩
        have hlow : b <<< 7 ||| d = b * 2 ^ 7 + d := shiftLeft_or hd
        rw [Nat.or_assoc, hlow, shiftLeft_or (by omega)]
        exact (Nat.add_assoc _ _ _).symm

/-- A patch level that was accepted. -/
theorem orZero_parseOsPatchLevel {c : CommandLine} {v : Nat}
    (h : orZero parseOsPatchLevel c.osPatchLevel = .ok v) :
    (c.osPatchLevelGiven = none ∧ v = 0)
      ∨ ∃ y m, y < 2 ^ 7 ∧ 0 < m ∧ m ≤ 12
        ∧ c.osPatchLevelGiven = some (y + 2000, m)
        ∧ v = y * 2 ^ 4 + m := by
  unfold CommandLine.osPatchLevelGiven
  cases hos : c.osPatchLevel with
  | none =>
    rw [hos] at h
    cases h
    exact Or.inl ⟨rfl, rfl⟩
  | some x =>
    rw [hos] at h
    change parseOsPatchLevel x = .ok v at h
    unfold parseOsPatchLevel at h
    rw [Option.bind_some]
    cases hg : osPatchLevelGroups x with
    | none =>
      simp only [hg] at h
      cases h
      exact Or.inl ⟨rfl, rfl⟩
    | some g =>
      obtain ⟨year, m⟩ := g
      simp only [hg] at h
      split at h
      case isFalse => cases h
      case isTrue hlt =>
        cases h
        obtain ⟨⟨hlo, hhi⟩, hpos, hle⟩ := hlt
        refine Or.inr ⟨((year : Int) - 2000).toNat, m, by omega, hpos, hle,
          ?_, shiftLeft_or (by omega)⟩
        refine congrArg (fun n => some (n, m)) ?_
        omega

/-- The word of a header decodes to what the options give. -/
theorem decode_osVersionWord {c : CommandLine} {cmdline extra : List Byte}
    {osVersion osPatchLevel : Nat} {pagesize : PageSize}
    {builder : VendorRamdiskTableBuilder}
    (h : Parsed c cmdline extra osVersion osPatchLevel pagesize builder) :
    decodeOsVersion (osVersionWord (c.args cmdline extra osVersion
        osPatchLevel pagesize builder)).toNat = c.osVersionGiven
      ∧ decodeOsPatchLevel (osVersionWord (c.args cmdline extra osVersion
        osPatchLevel pagesize builder)).toNat = c.osPatchLevelGiven := by
  obtain ⟨ha, hb, hd, hv⟩ := orZero_parseOsVersion h.osVersion
  have hlevel : osPatchLevel < 2 ^ 11 := by
    rcases orZero_parseOsPatchLevel h.osPatchLevel with
      ⟨-, hp⟩ | ⟨y, m, hy, -, hm, -, hp⟩
    · rw [hp]
      decide
    · omega
  have hword : (osVersionWord (c.args cmdline extra osVersion
      osPatchLevel pagesize builder)).toNat
      = osVersion * 2 ^ 11 + osPatchLevel := by
    unfold osVersionWord
    rw [Int.toNat_natCast]
    exact shiftLeft_or hlevel
  rw [hword]
  constructor
  · unfold decodeOsVersion
    refine Prod.ext ?_ (Prod.ext ?_ ?_)
    · show (osVersion * 2 ^ 11 + osPatchLevel) / 2 ^ 25 = _
      omega
    · show (osVersion * 2 ^ 11 + osPatchLevel) / 2 ^ 18 % 2 ^ 7 = _
      omega
    · show (osVersion * 2 ^ 11 + osPatchLevel) / 2 ^ 11 % 2 ^ 7 = _
      omega
  · unfold decodeOsPatchLevel
    rcases orZero_parseOsPatchLevel h.osPatchLevel with
      ⟨hnone, hp⟩ | ⟨y, m, hy, hpos, hm, hsome, hp⟩
    · rw [if_pos (by omega), hnone]
    · have hyear : (osVersion * 2 ^ 11 + osPatchLevel) / 2 ^ 4 % 2 ^ 7
          = y := by omega
      have hmonth : (osVersion * 2 ^ 11 + osPatchLevel) % 2 ^ 4 = m := by
        omega
      rw [if_neg (by omega), hsome, hyear, hmonth]

-- ================================================== boot images up to v2

/-- A file as the tool hashes it: its bytes, then its size. -/
def hashedFile (f : Option (List Byte)) : List Byte :=
  f.getD [] ++ leBytes 4 (f.getD []).length

/-- What the tool hashes for the image id. -/
def hashed (headerVersion : Int)
    (kernel ramdisk second recoveryDtbo dtb : Option (List Byte)) :
    List Byte :=
  hashedFile kernel ++ hashedFile ramdisk ++ hashedFile second
    ++ (if headerVersion > 0 then hashedFile recoveryDtbo else [])
    ++ (if headerVersion > 1 then hashedFile dtb else [])

/-- The boot image that a command line asks for, up to v2. -/
def CommandLine.bootImage (c : CommandLine) (osVersion : Nat)
    (id : List Byte) : BootImage where
  headerVersion := c.headerVersion.toNat
  osVersion := osVersion
  pageSize := c.pagesize.toNat
  kernel := c.kernel.getD []
  kernelAddr := (c.base + c.kernelOffset).toNat
  ramdisk := c.ramdisk.getD []
  ramdiskAddr :=
    if c.ramdisk.getD [] = [] then 0
    else (c.base + c.ramdiskOffset).toNat
  second := c.second.getD []
  secondAddr :=
    if c.second.getD [] = [] then 0
    else (c.base + c.secondOffset).toNat
  recoveryDtbo :=
    if 1 ≤ c.headerVersion then c.recoveryDtbo.getD [] else []
  dtb := if 2 ≤ c.headerVersion then c.dtb.getD [] else []
  dtbAddr :=
    if 2 ≤ c.headerVersion then (c.base + c.dtbOffset).toNat else 0
  tagsAddr := (c.base + c.tagsOffset).toNat
  name := c.board.val
  cmdline := c.cmdline.val
  id := id

theorem updateSha_eq_ok {sha out : List Byte} {f : Option (List Byte)}
    (h : updateSha sha f = .ok out) : out = sha ++ hashedFile f := by
  cases f with
  | none => exact (write_packI.mp h).2
  | some bs =>
    obtain ⟨-, rfl⟩ := write_packI.mp h
    rw [filesize_toNat, List.append_assoc]
    rfl

theorem shaInput_eq_ok {args : Args} {sha : List Byte}
    (h : shaInput args = .ok sha) :
    sha = hashed args.headerVersion args.kernel args.ramdisk args.second
      args.recoveryDtbo args.dtb := by
  obtain ⟨s1, h1, h⟩ := bind_eq_ok.mp h
  obtain ⟨s2, h2, h⟩ := bind_eq_ok.mp h
  obtain ⟨s3, h3, h⟩ := bind_eq_ok.mp h
  have hs1 : s1 = hashedFile args.kernel := updateSha_eq_ok h1
  have hdtb : ∀ s out : List Byte, (if args.headerVersion > 1 then
      updateSha s args.dtb else .ok s) = .ok out →
      out = s ++ if args.headerVersion > 1 then hashedFile args.dtb
        else [] := by
    intro s out hout
    split at hout
    next hv =>
      rw [if_pos hv]
      exact updateSha_eq_ok hout
    next hv =>
      cases hout
      rw [if_neg hv, List.append_nil]
  dsimp only at h
  rw [hashed, ← hs1, ← updateSha_eq_ok h2, ← updateSha_eq_ok h3]
  split at h
  next hv =>
    obtain ⟨s4, h4, h⟩ := bind_eq_ok.mp h
    rw [if_pos hv, ← updateSha_eq_ok h4]
    exact hdtb s4 sha h
  next hv =>
    rw [if_neg hv, List.append_nil]
    exact hdtb s3 sha h

/-- The parts of a run. -/
theorem main_eq_ok {sha1 : List Byte → List Byte} {c : CommandLine}
    {o : Outputs} (h : main sha1 c = .ok o) :
    ∃ args, parseCmdline c = .ok args
      ∧ mainVendorBoot args = .ok o.vendorBoot
      ∧ mainOutput sha1 args = .ok (o.output, o.imgId) := by
  obtain ⟨args, hargs, h⟩ := bind_eq_ok.mp h
  obtain ⟨vendorBoot, hvendor, h⟩ := bind_eq_ok.mp h
  obtain ⟨⟨output, imgId⟩, hout, h⟩ := bind_eq_ok.mp h
  cases h
  exact ⟨args, hargs, hvendor, hout⟩

/-- The boot image of a run: its header, and the data behind it. -/
theorem mainOutput_eq_ok {sha1 : List Byte → List Byte} {args : Args}
    {image : List Byte} {imgId : Option (List Byte)}
    (h : mainOutput sha1 args = .ok (some image, imgId)) :
    ∃ f, writeHeader sha1 args [] = .ok (f, imgId)
      ∧ (args.headerVersion > 2 → args.second = none)
      ∧ writeData args f (if args.headerVersion > 2 then
          bootImageHeaderV3Pagesize else args.pagesize.val) = .ok image := by
  unfold mainOutput at h
  split at h
  case isTrue => cases h
  case isFalse =>
    split at h
    case isTrue => cases h
    case isFalse hsecond =>
      obtain ⟨⟨f, id⟩, hheader, h⟩ := bind_eq_ok.mp h
      obtain ⟨g, hdata, h⟩ := bind_eq_ok.mp h
      cases h
      refine ⟨f, hheader, fun hv => ?_, hdata⟩
      by_contra hne
      exact hsecond ⟨hne, hv⟩

/-- The arguments ask for what the command line asks for. -/
theorem args_bootImage {c : CommandLine} {cmdline extra : List Byte}
    {osVersion osPatchLevel : Nat} {pagesize : PageSize}
    {builder : VendorRamdiskTableBuilder}
    (h : Parsed c cmdline extra osVersion osPatchLevel pagesize builder)
    (id : List Byte) :
    (c.args cmdline extra osVersion osPatchLevel pagesize
        builder).bootImage c.board.val c.cmdline.val id
      = c.bootImage (osVersionWord (c.args cmdline extra osVersion
          osPatchLevel pagesize builder)).toNat id := by
  have hdtbAddr : (c.args cmdline extra osVersion osPatchLevel pagesize
      builder).headerV2.dtbAddr
      = if 2 ≤ c.headerVersion then (c.base + c.dtbOffset).toNat else 0 := by
    unfold Args.headerV2 CommandLine.args
    split <;> rfl
  rw [Args.bootImage, hdtbAddr, CommandLine.bootImage, ← h.pagesize]
  rfl

/-- A run that writes a file of either kind. -/
theorem exists_run {sha1 : List Byte → List Byte} {c : CommandLine}
    {file : Outputs → Option (List Byte)}
    (h : ((main sha1 c).toOption.bind file).isSome = true) :
    ∃ o image, main sha1 c = .ok o ∧ file o = some image := by
  cases hrun : main sha1 c with
  | error e =>
    rw [hrun] at h
    cases h
  | ok o =>
    rw [hrun] at h
    obtain ⟨image, himage⟩ := Option.isSome_iff_exists.mp h
    exact ⟨o, image, rfl, himage⟩

/-- A number in `n` bytes, the highest first. -/
def beBytes (n x : Nat) : List Byte := (leBytes n x).reverse

/-- Options with the tool's defaults, and a header of v2. -/
def optionsV2 : CommandLine where
  kernel := some [1, 2, 3]
  ramdisk := some [4, 5]
  second := none
  dtb := some [6]
  recoveryDtbo := some [7]
  cmdline := ⟨encode "quiet", by decide⟩
  vendorCmdline := ⟨[], zero_not_mem_nil⟩
  base := 0x10000000
  kernelOffset := 0x00008000
  ramdiskOffset := 0x01000000
  secondOffset := 0x00f00000
  dtbOffset := 0x01f00000
  osVersion := some "10.0.0".toList
  osPatchLevel := some "2020-05".toList
  tagsOffset := 0x00000100
  board := ⟨[], zero_not_mem_nil⟩
  pagesize := 2048
  headerVersion := 2
  output := true
  vendorBoot := false
  vendorRamdisk := none
  vendorBootconfig := none
  fragments := []
  gkiSigning := none

/-- The SHA-1 of the files of `optionsV2`. -/
def filesSha1 : List Byte → List Byte := fun _ =>
  beBytes 20 0x2d1ac1524f6522426bd52c8dcd89a0a169e21cfe

/-- A text of `parse_cmdline` in the field it is written to. -/
theorem asciiz_valid {n : Nat} {text : ArgText}
    (h : text.val.length + 1 ≤ n) : (Codec.text n).Valid text.val :=
  ⟨text.property, by omega⟩

/-- A boot image up to v2 that the tool writes is read back: every file,
address and text is the one the command line gives, the recovery dtbo is
where the header says, and the word of the OS version decodes to the
numbers given. -/
theorem main_readBootImage {sha1 : List Byte → List Byte}
    {c : CommandLine} {o : Outputs} {image : List Byte}
    (h : main sha1 c = .ok o) (himage : o.output = some image)
    (hv : c.headerVersion < 3) :
    ∃ w, readBootImage image = some (c.bootImage w (field 32 (sha1
          (hashed c.headerVersion c.kernel c.ramdisk c.second
            c.recoveryDtbo c.dtb))))
      ∧ decodeOsVersion w = c.osVersionGiven
      ∧ decodeOsPatchLevel w = c.osPatchLevelGiven := by
  obtain ⟨args, hargs, -, hout⟩ := main_eq_ok h
  rw [himage] at hout
  obtain ⟨cmdline, extra, osVersion, osPatchLevel, pagesize, builder,
    hparsed, rfl⟩ := parseCmdline_eq_ok hargs
  refine ⟨_, ?_, decode_osVersionWord hparsed⟩
  have hlen := hparsed.cmdline_le
  unfold cmdlineSize at hlen
  rw [if_pos hv, show bootArgsSize + bootExtraArgsSize - 1 = 1535 from rfl]
    at hlen
  obtain ⟨hfield, hextra⟩ := splitCmdline_fields hv hparsed.cmdline
  have hcmdline' : (Codec.text 512).Valid (c.cmdline.val.take 511) :=
    ⟨fun hz => c.cmdline.property (List.mem_of_mem_take hz),
      (List.length_take_le _ _).trans (by decide)⟩
  have hextra' : (Codec.text 1024).Valid (c.cmdline.val.drop 511) :=
    ⟨fun hz => c.cmdline.property (List.mem_of_mem_drop hz), by
      rw [List.length_drop]
      omega⟩
  obtain ⟨f, hheader, -, hdata⟩ := mainOutput_eq_ok hout
  obtain ⟨sha, hsha, -, h0, hv1, hv2, hh, rfl⟩ := writeHeader_spec hv
    hheader (field_asciiz 16 c.board.val) hfield hextra
    (asciiz_valid hparsed.board_le) hcmdline' hextra'
  have hnot : ¬ (c.args cmdline extra osVersion osPatchLevel pagesize
      builder).headerVersion > 2 := by
    show ¬ c.headerVersion > 2
    omega
  rw [if_neg hnot, writeData_eq hv (dvd_length_padTo pagesize.pos _)]
    at hdata
  cases hdata
  have hsha' : sha = hashed c.headerVersion c.kernel c.ramdisk c.second
    c.recoveryDtbo c.dtb := shaInput_eq_ok hsha
  have hread := readBootImage_headerBytes h0 hv hh hv1 hv2
  rw [List.take_append_drop] at hread
  rw [← hsha']
  exact hread.trans (congrArg some (args_bootImage hparsed _))

/-- An image with all of its files is read back. -/
theorem optionsV2_readBootImage :
    ∃ o image, main filesSha1 optionsV2 = .ok o ∧ o.output = some image
      ∧ optionsV2.headerVersion < 3
      ∧ ∃ w, readBootImage image = some (optionsV2.bootImage w (field 32
          (beBytes 20 0x2d1ac1524f6522426bd52c8dcd89a0a169e21cfe)))
        ∧ decodeOsVersion w = (10, 0, 0)
        ∧ decodeOsPatchLevel w = some (2020, 5) := by
  obtain ⟨o, image, h, himage⟩ : ∃ o image,
      main filesSha1 optionsV2 = .ok o ∧ o.output = some image :=
    exists_run (by decide +kernel)
  exact ⟨o, image, h, himage, by decide,
    main_readBootImage h himage (by decide)⟩

-- ============================================== boot images from v3 on

/-- The boot image that a command line asks for, from v3 on. -/
def CommandLine.genericBootImage (c : CommandLine) (osVersion : Nat)
    (signature : List Byte) : GenericBootImage where
  headerVersion := c.headerVersion.toNat
  osVersion := osVersion
  kernel := c.kernel.getD []
  ramdisk := c.ramdisk.getD []
  cmdline := c.cmdline.val
  signature := signature

/-- The signature of the image before it: none in v3, zeros without a
key. -/
def CommandLine.signatureOf (c : CommandLine) (image : List Byte) :
    List Byte :=
  if c.headerVersion ≥ 4 then
    match c.gkiSigning with
    | none => List.replicate bootImageV4SignatureSize 0
    | some avbtool => padTo bootImageHeaderV3Pagesize (avbtool.run image)
  else []

/-- A header was written for a known version only. -/
theorem writeHeader_version {sha1 : List Byte → List Byte} {args : Args}
    {f out : List Byte} {id : Option (List Byte)}
    (h : writeHeader sha1 args f = .ok (out, id)) :
    args.headerVersion ≤ 4 := by
  unfold writeHeader at h
  dsimp only at h
  split at h
  case isTrue => cases h
  case isFalse hle => omega

/-- A boot image of v3 or v4 that the tool writes is read back, and a v4
image ends in the signature of what stands before it, filled to the size
its header gives. -/
theorem main_readGenericBootImage {sha1 : List Byte → List Byte}
    {c : CommandLine} {o : Outputs} {image : List Byte}
    (h : main sha1 c = .ok o) (himage : o.output = some image)
    (hv : 3 ≤ c.headerVersion) :
    ∃ w unsigned, image = unsigned ++ c.signatureOf unsigned
      ∧ readGenericBootImage image
        = some (c.genericBootImage w (c.signatureOf unsigned))
      ∧ decodeOsVersion w = c.osVersionGiven
      ∧ decodeOsPatchLevel w = c.osPatchLevelGiven := by
  obtain ⟨args, hargs, -, hout⟩ := main_eq_ok h
  rw [himage] at hout
  obtain ⟨cmdline, extra, osVersion, osPatchLevel, pagesize, builder,
    hparsed, rfl⟩ := parseCmdline_eq_ok hargs
  have hlen := hparsed.cmdline_le
  have hnot : ¬ c.headerVersion < 3 := by omega
  unfold cmdlineSize at hlen
  rw [if_neg hnot, show bootArgsSize + bootExtraArgsSize = 1536 from rfl]
    at hlen
  have hsplit := hparsed.cmdline
  unfold splitCmdline at hsplit
  rw [if_neg hnot] at hsplit
  cases hsplit
  obtain ⟨f, hheader, hsecond, hdata⟩ := mainOutput_eq_ok hout
  have hversion : c.headerVersion = 3 ∨ c.headerVersion = 4 := by
    have hle : c.headerVersion ≤ 4 := writeHeader_version hheader
    omega
  have hgt : (c.args (c.cmdline.val ++ [0]) [] osVersion osPatchLevel
      pagesize builder).headerVersion > 2 := by
    show c.headerVersion > 2
    omega
  have hle : ¬ (c.args (c.cmdline.val ++ [0]) [] osVersion osPatchLevel
      pagesize builder).headerVersion > 4 := by
    show ¬ c.headerVersion > 4
    omega
  have hversion' : (c.args (c.cmdline.val ++ [0]) [] osVersion osPatchLevel
      pagesize builder).headerVersion = 3
      ∨ (c.args (c.cmdline.val ++ [0]) [] osVersion osPatchLevel
        pagesize builder).headerVersion = 4 := hversion
  -- the header of v3 and above
  unfold writeHeader at hheader
  dsimp only at hheader
  rw [if_neg hle, if_pos hversion'] at hheader
  obtain ⟨f', hf', hheader⟩ := bind_eq_ok.mp hheader
  obtain ⟨rfl, -⟩ := Prod.mk.inj (Except.ok.inj hheader)
  obtain ⟨hh, rfl⟩ := writeHeaderV3AndAbove_spec hf'
    (field_asciiz 1536 c.cmdline.val) (asciiz_valid hlen)
  rw [if_pos hgt] at hdata
  obtain ⟨rfl, hsignature⟩ :=
    writeData_v3_spec hversion (hsecond hgt) hdata
  exact ⟨_, _, rfl, readGenericBootImage_signed hversion hh hsignature,
    decode_osVersionWord hparsed⟩

/-- The vbmeta that avbtool makes of the image of `optionsV4` with the
algorithm NONE: a header, and a descriptor with the SHA-256 of the salt
and the image. -/
def bootVbmeta (image : List Byte) : List Byte :=
  let digest := beBytes 32
    0x4a033b6808b8d2be909b4a53d815aa799cdbde68bf098f772f3bc0e5052a0c34
  encode "AVB0" ++ beBytes 4 1 ++ beBytes 4 0
    -- no authentication block, and an auxiliary one of three times 64 bytes
    ++ beBytes 8 0 ++ beBytes 8 192
    -- no algorithm, no hash, no signature, no keys
    ++ beBytes 4 0 ++ beBytes 16 0 ++ beBytes 16 0
    ++ beBytes 8 176 ++ beBytes 8 0 ++ beBytes 8 176 ++ beBytes 8 0
    -- one descriptor of 176 bytes
    ++ beBytes 8 0 ++ beBytes 8 176
    ++ beBytes 8 0 ++ beBytes 4 0 ++ beBytes 4 0
    ++ field 48 (encode "avbtool 1.2.0") ++ List.replicate 80 0
    -- the descriptor
    ++ beBytes 8 2 ++ beBytes 8 160 ++ beBytes 8 image.length
    ++ field 32 (encode "sha256") ++ beBytes 4 4 ++ beBytes 4 4
    ++ beBytes 4 32 ++ beBytes 4 0 ++ List.replicate 60 0
    ++ encode "boot" ++ beBytes 4 0xd00df00d ++ digest
    ++ List.replicate 20 0

/-- Options for a v4 image that is signed. -/
def optionsV4 : CommandLine where
  __ := optionsV2
  headerVersion := 4
  gkiSigning := some
    { run := bootVbmeta
      run_ne_nil := fun _ => List.append_ne_nil_of_right_ne_nil _
        (by decide) }

/-- A signed image is read back, and its signature with it. -/
theorem optionsV4_readGenericBootImage :
    ∃ o image, main filesSha1 optionsV4 = .ok o ∧ o.output = some image
      ∧ 3 ≤ optionsV4.headerVersion
      ∧ ∃ w unsigned, image = unsigned ++ optionsV4.signatureOf unsigned
        ∧ readGenericBootImage image = some (optionsV4.genericBootImage w
          (optionsV4.signatureOf unsigned))
        ∧ decodeOsVersion w = optionsV4.osVersionGiven
        ∧ decodeOsPatchLevel w = optionsV4.osPatchLevelGiven := by
  obtain ⟨o, image, h, himage⟩ : ∃ o image,
      main filesSha1 optionsV4 = .ok o ∧ o.output = some image :=
    exists_run (by decide +kernel)
  exact ⟨o, image, h, himage, by decide,
    main_readGenericBootImage h himage (by decide)⟩

-- ==================================================== vendor boot images

/-- The ramdisks of a v4 image, in order. -/
def CommandLine.ramdisks (c : CommandLine) : List VendorRamdisk :=
  vendorRamdiskView c.vendorRamdisk ++ c.fragments.map (·.view)

/-- The vendor boot image that a command line asks for. -/
def CommandLine.vendorBootImage (c : CommandLine) : VendorBootImage where
  headerVersion := c.headerVersion.toNat
  pageSize := c.pagesize.toNat
  kernelAddr := (c.base + c.kernelOffset).toNat
  ramdiskAddr := (c.base + c.ramdiskOffset).toNat
  tagsAddr := (c.base + c.tagsOffset).toNat
  cmdline := c.vendorCmdline.val
  name := c.board.val
  dtb := c.dtb.getD []
  dtbAddr := (c.base + c.dtbOffset).toNat
  vendorRamdisk :=
    if c.headerVersion > 3 then c.ramdisks.flatMap fun r => r.ramdisk
    else c.vendorRamdisk.getD []
  ramdisks := if c.headerVersion > 3 then c.ramdisks else []
  bootconfig :=
    if c.headerVersion > 3 then c.vendorBootconfig.getD [] else []

/-- The table of the groups, where there is one. -/
theorem parseExtraArgs_wf {c : CommandLine}
    {b : VendorRamdiskTableBuilder} (h : parseExtraArgs c = .ok b) :
    b.Wf ∧ (c.vendorBoot = true ∧ 3 < c.headerVersion →
      b.entries.map (·.view) = c.ramdisks) := by
  unfold parseExtraArgs at h
  split at h
  next hcond =>
    obtain ⟨hwf, hview⟩ := parseVendorRamdiskArgs_wf h
    exact ⟨hwf, fun _ => hview⟩
  next hcond =>
    split at h
    case isTrue =>
      cases h
      exact ⟨VendorRamdiskTableBuilder.init_wf,
        fun hcon => absurd hcon hcond⟩
    case isFalse => cases h

/-- The vendor boot image of a run: its version, its header, and the data
behind it. -/
theorem mainVendorBoot_eq_ok {args : Args} {image : List Byte}
    (h : mainVendorBoot args = .ok (some image)) :
    args.vendorBoot = true
      ∧ (args.headerVersion = 3 ∨ args.headerVersion = 4)
      ∧ ∃ f, writeVendorBootHeader args [] = .ok f
        ∧ writeVendorBootData args f = .ok image := by
  unfold mainVendorBoot at h
  split at h
  case isTrue => cases h
  case isFalse hgiven =>
    split at h
    case isTrue => cases h
    case isFalse hversion =>
      split at h
      case isTrue => cases h
      case isFalse =>
        obtain ⟨f, hheader, h⟩ := bind_eq_ok.mp h
        obtain ⟨g, hdata, h⟩ := bind_eq_ok.mp h
        cases h
        exact ⟨Bool.not_eq_false _ ▸ hgiven, not_not.mp hversion, f,
          hheader, hdata⟩

/-- The section of all ramdisks, from the ramdisks a bootloader sees. -/
theorem ramdiskSection_eq_flatMap (es : List VendorRamdiskTableEntry) :
    ramdiskSection es = (es.map (·.view)).flatMap fun r => r.ramdisk := by
  rw [List.flatMap_map]
  rfl

/-- The arguments ask for the vendor boot image of the command line. -/
theorem args_vendorBootImage {c : CommandLine} {cmdline extra : List Byte}
    {osVersion osPatchLevel : Nat} {pagesize : PageSize}
    {builder : VendorRamdiskTableBuilder}
    (h : Parsed c cmdline extra osVersion osPatchLevel pagesize builder)
    (hview : 3 < c.headerVersion →
      builder.entries.map (·.view) = c.ramdisks) :
    (c.args cmdline extra osVersion osPatchLevel pagesize
        builder).vendorBootImage c.vendorCmdline.val c.board.val
      = c.vendorBootImage := by
  have hsection : (c.args cmdline extra osVersion osPatchLevel pagesize
      builder).ramdiskSection
      = if c.headerVersion > 3 then c.ramdisks.flatMap fun r => r.ramdisk
        else c.vendorRamdisk.getD [] := by
    unfold Args.ramdiskSection
    show (if c.headerVersion > 3 then ramdiskSection builder.entries
      else c.vendorRamdisk.getD []) = _
    split
    next h3 => rw [ramdiskSection_eq_flatMap, hview h3]
    next => rfl
  have hramdisks : (if c.headerVersion > 3 then
      builder.entries.map (·.view) else [])
      = if c.headerVersion > 3 then c.ramdisks else [] := by
    split
    next h3 => rw [hview h3]
    next => rfl
  unfold Args.vendorBootImage CommandLine.vendorBootImage
  rw [hsection, ← hramdisks, ← h.pagesize]
  rfl

/-- The part for `--vendor_boot`, from arguments that were parsed: the
image is read back, and the table that was built from the groups. -/
theorem mainVendorBoot_read {c : CommandLine} {cmdline extra : List Byte}
    {osVersion osPatchLevel : Nat} {pagesize : PageSize}
    {builder : VendorRamdiskTableBuilder} {image : List Byte}
    (h : Parsed c cmdline extra osVersion osPatchLevel pagesize builder)
    (hout : mainVendorBoot (c.args cmdline extra osVersion osPatchLevel
      pagesize builder) = .ok (some image)) :
    readVendorBootImage image = some c.vendorBootImage
      ∧ readRamdiskTable image = some (c.args cmdline extra osVersion
        osPatchLevel pagesize builder).tableRecords := by
  obtain ⟨hgiven, hversion, f, hheader, hdata⟩ := mainVendorBoot_eq_ok hout
  obtain ⟨hwf, hview⟩ := parseExtraArgs_wf h.builder
  obtain ⟨hh, h4, rfl⟩ := writeVendorBootHeader_spec hwf hheader
    (field_asciiz 2048 c.vendorCmdline.val) (field_asciiz 16 c.board.val)
    (asciiz_valid h.vendorCmdline_le) (asciiz_valid h.board_le)
  obtain ⟨rfl, htable⟩ := writeVendorBootData_spec hwf
    (dvd_length_padTo pagesize.pos _) hdata
  obtain ⟨hread, hrecords⟩ := readVendorBootImage_vendorHeaderBytes
    hversion hwf hh h4 htable
  exact ⟨hread.trans (congrArg some (args_vendorBootImage h
    fun h3 => hview ⟨hgiven, h3⟩)), hrecords⟩

/-- A vendor boot image that the tool writes is read back: the header,
the dtb, the bootconfig, and through the table every vendor ramdisk with
its type, its name and its board id. -/
theorem main_readVendorBootImage {sha1 : List Byte → List Byte}
    {c : CommandLine} {o : Outputs} {image : List Byte}
    (h : main sha1 c = .ok o) (himage : o.vendorBoot = some image) :
    readVendorBootImage image = some c.vendorBootImage := by
  obtain ⟨args, hargs, hout, -⟩ := main_eq_ok h
  rw [himage] at hout
  obtain ⟨cmdline, extra, osVersion, osPatchLevel, pagesize, builder,
    hparsed, rfl⟩ := parseCmdline_eq_ok hargs
  exact (mainVendorBoot_read hparsed hout).1

/-- Options for a v4 vendor boot image with two ramdisk groups. -/
def vendorOptions : CommandLine where
  __ := optionsV2
  headerVersion := 4
  output := false
  vendorBoot := true
  vendorRamdisk := some [8, 9]
  vendorBootconfig := some [10]
  fragments :=
    [{ vendorRamdiskFragment := [11]
       ramdiskType := 2
       ramdiskName := ⟨encode "recovery", by decide⟩
       boardId := fun _ => 0 },
     { vendorRamdiskFragment := [12, 13]
       ramdiskType := 3
       ramdiskName := ⟨encode "dlkm", by decide⟩
       boardId := fun _ => 1 }]

theorem vendorOptions_run : ∃ o image,
    main filesSha1 vendorOptions = .ok o ∧ o.vendorBoot = some image :=
  exists_run (by decide +kernel)

/-- An image with three ramdisks is read back. -/
theorem vendorOptions_readVendorBootImage :
    ∃ o image, main filesSha1 vendorOptions = .ok o
      ∧ o.vendorBoot = some image
      ∧ readVendorBootImage image = some vendorOptions.vendorBootImage := by
  obtain ⟨o, image, h, himage⟩ := vendorOptions_run
  exact ⟨o, image, h, himage, main_readVendorBootImage h himage⟩

theorem VendorRamdiskTableBuilder.Wf.map_name
    {b : VendorRamdiskTableBuilder} (hb : b.Wf) :
    (b.entries.map (·.view)).map (·.name) = b.ramdiskNames.reverse := by
  rw [hb.names, List.reverse_reverse, List.map_map]
  rfl

/-- With names that are pairwise different, a ramdisk is found by its
name. -/
theorem find?_name {rs : List VendorRamdisk} {r : VendorRamdisk}
    (hnodup : (rs.map (·.name)).Nodup) (hr : r ∈ rs) :
    rs.find? (fun r' => r'.name = r.name) = some r := by
  induction rs with
  | nil => cases hr
  | cons r0 rs ih =>
    obtain ⟨hfresh, hnodup⟩ := List.nodup_cons.mp hnodup
    rcases List.mem_cons.mp hr with rfl | hr
    · exact List.find?_cons_of_pos (decide_eq_true rfl)
    · rw [List.find?_cons_of_neg, ih hnodup hr]
      intro hsame
      have hname : r0.name = r.name := of_decide_eq_true hsame
      exact hfresh (List.mem_map.mpr ⟨r, hr, hname.symm⟩)

/-- What a bootloader reads of a v4 vendor boot image that the tool
wrote: the ramdisks fill their section without a gap and in order, where
the entries of the table say; no two have the same name, and each is found
by its name, which is not reserved. -/
theorem main_ramdisks {sha1 : List Byte → List Byte}
    {c : CommandLine} {o : Outputs} {image : List Byte}
    {v : VendorBootImage}
    (h : main sha1 c = .ok o) (himage : o.vendorBoot = some image)
    (hread : readVendorBootImage image = some v)
    (hv : 3 < v.headerVersion) :
    v.vendorRamdisk = v.ramdisks.flatMap (fun r => r.ramdisk)
      ∧ (∃ entries, readRamdiskTable image = some entries
        ∧ Tiles entries v.ramdisks)
      ∧ (v.ramdisks.map (·.name)).Nodup
      ∧ ∀ r ∈ v.ramdisks,
        v.ramdisks.find? (fun r' => r'.name = r.name) = some r
          ∧ r.name ∉ vendorRamdiskNameBlocklist := by
  obtain ⟨args, hargs, hout, -⟩ := main_eq_ok h
  rw [himage] at hout
  obtain ⟨cmdline, extra, osVersion, osPatchLevel, pagesize, builder,
    hparsed, rfl⟩ := parseCmdline_eq_ok hargs
  obtain ⟨hgiven, hversion, -⟩ := mainVendorBoot_eq_ok hout
  obtain ⟨hwf, hview⟩ := parseExtraArgs_wf hparsed.builder
  obtain ⟨hread', htable⟩ := mainVendorBoot_read hparsed hout
  obtain rfl : c.vendorBootImage = v :=
    Option.some.inj (hread'.symm.trans hread)
  have h3 : c.headerVersion > 3 := by
    change 3 < c.headerVersion.toNat at hv
    omega
  have hramdisks : c.vendorBootImage.ramdisks = c.ramdisks := if_pos h3
  have hsection : c.vendorBootImage.vendorRamdisk
      = c.ramdisks.flatMap fun r => r.ramdisk := if_pos h3
  have hview' := hview ⟨hgiven, h3⟩
  have hnames : c.ramdisks.map (·.name) = builder.ramdiskNames.reverse := by
    rw [← hview', hwf.map_name]
  have hnodup : (c.ramdisks.map (·.name)).Nodup := by
    rw [hnames]
    exact List.nodup_reverse.mpr hwf.nodup
  have hrecords : (c.args cmdline extra osVersion osPatchLevel pagesize
      builder).tableRecords = builder.entries.map (·.record) := if_pos h3
  rw [hramdisks, hsection]
  refine ⟨rfl, ⟨_, htable, ?_⟩, hnodup, fun r hr =>
    ⟨find?_name hnodup hr, ?_⟩⟩
  · rw [hrecords, ← hview']
    exact tiles_records hwf.laid
  · refine hwf.allowed r.name (List.mem_reverse.mp ?_)
    rw [← hnames]
    exact List.mem_map_of_mem hr

/-- The table of an image with three ramdisks. -/
theorem vendorOptions_ramdisks :
    ∃ o image v, main filesSha1 vendorOptions = .ok o
      ∧ o.vendorBoot = some image ∧ readVendorBootImage image = some v
      ∧ 3 < v.headerVersion ∧ v.ramdisks.length = 3
      ∧ v.vendorRamdisk = v.ramdisks.flatMap (fun r => r.ramdisk)
      ∧ (∃ entries, readRamdiskTable image = some entries
        ∧ Tiles entries v.ramdisks)
      ∧ (v.ramdisks.map (·.name)).Nodup
      ∧ ∀ r ∈ v.ramdisks,
        v.ramdisks.find? (fun r' => r'.name = r.name) = some r
          ∧ r.name ∉ vendorRamdiskNameBlocklist := by
  obtain ⟨o, image, h, himage⟩ := vendorOptions_run
  obtain ⟨args, hargs, hout, -⟩ := main_eq_ok h
  rw [himage] at hout
  obtain ⟨cmdline, extra, osVersion, osPatchLevel, pagesize, builder,
    hparsed, rfl⟩ := parseCmdline_eq_ok hargs
  have hread := (mainVendorBoot_read hparsed hout).1
  exact ⟨o, image, _, h, himage, hread, by decide, rfl,
    main_ramdisks h himage hread (by decide)⟩

end Edk2Exynos.Bootimg
