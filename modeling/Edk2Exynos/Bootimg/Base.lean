/-
The boot image tool (mkbootimg.py): its arguments, `struct.pack` and the
files it writes.

# Files

A file the tool reads is its bytes; an option not given is `none`. A file
it writes is the bytes written so far, so that `tell` is their number. A
run ends with an exception or with the files written.

# Arguments

`CommandLine` is what the options say, `Args` the namespace that
`parse_cmdline` makes of it. An argument of the process holds no NUL
(`ArgText`). The numbers are what `int(x, 0)` gives, so they may be
negative or large; `pack` refuses those that do not fit.
-/
import Edk2Exynos.Lib.Codec
import Edk2Exynos.Lib.Paged

namespace Edk2Exynos.Bootimg

open Lib

-- ============================================================= exceptions

/-- What a run raises. -/
inductive PyError where
  | systemExit
  | argumentTypeError (message : String)
  | valueError (message : String)
  | valueErrorName (message : String) (name : List Byte)
  | structError
  | overflowError
  | assertionError

-- ============================================================== constants

/-- The bytes of an ASCII text, `str.encode`. -/
def encode (text : String) : List Byte :=
  text.toList.map fun ch => BitVec.ofNat 8 ch.toNat

/-- `BOOT_MAGIC` -/
def bootMagic : List Byte := encode "ANDROID!"
/-- `BOOT_MAGIC_SIZE` -/
def bootMagicSize : Nat := 8
/-- `BOOT_NAME_SIZE` -/
def bootNameSize : Nat := 16
/-- `BOOT_ARGS_SIZE` -/
def bootArgsSize : Nat := 512
/-- `BOOT_EXTRA_ARGS_SIZE` -/
def bootExtraArgsSize : Nat := 1024
/-- `BOOT_IMAGE_HEADER_V1_SIZE` -/
def bootImageHeaderV1Size : Int := 1648
/-- `BOOT_IMAGE_HEADER_V2_SIZE` -/
def bootImageHeaderV2Size : Int := 1660
/-- `BOOT_IMAGE_HEADER_V3_SIZE` -/
def bootImageHeaderV3Size : Int := 1580
/-- `BOOT_IMAGE_HEADER_V3_PAGESIZE` -/
def bootImageHeaderV3Pagesize : Nat := 4096
/-- `BOOT_IMAGE_HEADER_V4_SIZE` -/
def bootImageHeaderV4Size : Int := 1584
/-- `BOOT_IMAGE_V4_SIGNATURE_SIZE` -/
def bootImageV4SignatureSize : Nat := 4096

/-- `VENDOR_BOOT_MAGIC` -/
def vendorBootMagic : List Byte := encode "VNDRBOOT"
/-- `VENDOR_BOOT_MAGIC_SIZE` -/
def vendorBootMagicSize : Nat := 8
/-- `VENDOR_BOOT_NAME_SIZE` -/
def vendorBootNameSize : Nat := bootNameSize
/-- `VENDOR_BOOT_ARGS_SIZE` -/
def vendorBootArgsSize : Nat := 2048
/-- `VENDOR_BOOT_IMAGE_HEADER_V3_SIZE` -/
def vendorBootImageHeaderV3Size : Int := 2112
/-- `VENDOR_BOOT_IMAGE_HEADER_V4_SIZE` -/
def vendorBootImageHeaderV4Size : Int := 2128

/-- `VENDOR_RAMDISK_TYPE_PLATFORM` -/
def vendorRamdiskTypePlatform : Int := 1
/-- `VENDOR_RAMDISK_NAME_SIZE` -/
def vendorRamdiskNameSize : Nat := 32
/-- `VENDOR_RAMDISK_TABLE_ENTRY_BOARD_ID_SIZE` -/
def vendorRamdiskTableEntryBoardIdSize : Nat := 16
/-- `VENDOR_RAMDISK_TABLE_ENTRY_V4_SIZE` -/
def vendorRamdiskTableEntryV4Size : Int := 108

/-- `VENDOR_RAMDISK_NAME_BLOCKLIST` -/
def vendorRamdiskNameBlocklist : List (List Byte) := [encode "default"]

-- ========================================================== struct.pack

/-- `pack('I', x)` -/
def packI (x : Int) : Except PyError (List Byte) :=
  if 0 ≤ x ∧ x < 2 ^ 32 then .ok (leBytes 4 x.toNat)
  else .error .structError

/-- `pack('Q', x)` -/
def packQ (x : Int) : Except PyError (List Byte) :=
  if 0 ≤ x ∧ x < 2 ^ 64 then .ok (leBytes 8 x.toNat)
  else .error .structError

/-- `pack(f'{n}s', s)`, which cuts and fills. -/
def packS (n : Nat) (s : List Byte) : Except PyError (List Byte) :=
  .ok (field n s)

/-- `f.write(p)` -/
def write (f : List Byte) (p : Except PyError (List Byte)) :
    Except PyError (List Byte) :=
  p.map (f ++ ·)

-- ================================================================= files

/-- `filesize` -/
def filesize (f : Option (List Byte)) : Int :=
  match f with
  | none => 0
  | some bs => bs.length

/-- `pad_file` -/
def padFile (f : List Byte) (padding : Nat) : List Byte :=
  f ++ List.replicate
    ((padding - (f.length &&& (padding - 1))) &&& (padding - 1)) 0

/-- `write_padded_file` -/
def writePaddedFile (fOut : List Byte) (fIn : Option (List Byte))
    (padding : Nat) : List Byte :=
  match fIn with
  | none => fOut
  | some bs => padFile (fOut ++ bs) padding

/-- `get_number_of_pages` -/
def getNumberOfPages (imageSize pageSize : Int) : Int :=
  (imageSize + pageSize - 1) / pageSize

-- ============================================================= arguments

/-- An argument of the process. -/
abbrev ArgText := {text : List Byte // (0 : Byte) ∉ text}

theorem zero_not_mem_nil : (0 : Byte) ∉ ([] : List Byte) :=
  List.not_mem_nil

/-- `choices` of `--pagesize` -/
def pagesizeChoices : List Int := (List.range' 11 4).map fun i => 2 ^ i

/-- `--pagesize` -/
abbrev PageSize := {n : Nat // (n : Int) ∈ pagesizeChoices}

/-- `avbtool add_hash_footer`: the boot image so far, to the vbmeta it
leaves in its output file. A vbmeta starts with a header. -/
structure Avbtool where
  run : List Byte → List Byte
  run_ne_nil : ∀ image, run image ≠ []

/-- The options of one vendor ramdisk group. The fragment's path stands
for the file it names. -/
structure Fragment where
  vendorRamdiskFragment : List Byte
  ramdiskType : Int
  ramdiskName : ArgText
  boardId : Fin 16 → Int

/-- `VendorRamdiskTableEntry` -/
structure VendorRamdiskTableEntry where
  ramdisk : List Byte
  ramdiskSize : Int
  ramdiskOffset : Int
  ramdiskType : Int
  ramdiskName : List Byte
  boardId : List Nat

/-- `VendorRamdiskTableBuilder` -/
structure VendorRamdiskTableBuilder where
  entries : List VendorRamdiskTableEntry
  ramdiskTotalSize : Int
  ramdiskNames : List (List Byte)

/-- The options of the tool, files as their contents. -/
structure CommandLine where
  kernel : Option (List Byte)
  ramdisk : Option (List Byte)
  second : Option (List Byte)
  dtb : Option (List Byte)
  recoveryDtbo : Option (List Byte)
  cmdline : ArgText
  vendorCmdline : ArgText
  base : Int
  kernelOffset : Int
  ramdiskOffset : Int
  secondOffset : Int
  dtbOffset : Int
  osVersion : Option (List Char)
  osPatchLevel : Option (List Char)
  tagsOffset : Int
  board : ArgText
  pagesize : Int
  headerVersion : Int
  output : Bool
  vendorBoot : Bool
  vendorRamdisk : Option (List Byte)
  vendorBootconfig : Option (List Byte)
  fragments : List Fragment
  gkiSigning : Option Avbtool

/-- The namespace; the two `vendor_ramdisk` numbers are the builder's. -/
structure Args where
  kernel : Option (List Byte)
  ramdisk : Option (List Byte)
  second : Option (List Byte)
  dtb : Option (List Byte)
  recoveryDtbo : Option (List Byte)
  cmdline : List Byte
  extraCmdline : List Byte
  vendorCmdline : List Byte
  base : Int
  kernelOffset : Int
  ramdiskOffset : Int
  secondOffset : Int
  dtbOffset : Int
  osVersion : Nat
  osPatchLevel : Nat
  tagsOffset : Int
  board : List Byte
  pagesize : PageSize
  headerVersion : Int
  output : Bool
  vendorBoot : Bool
  vendorRamdisk : Option (List Byte)
  vendorBootconfig : Option (List Byte)
  vendorRamdiskTableBuilder : VendorRamdiskTableBuilder
  gkiSigning : Option Avbtool

-- ==================================================== what is written

/-- A step and the rest succeed when each does. -/
theorem bind_eq_ok {α β : Type} {x : Except PyError α}
    {k : α → Except PyError β} {b : β} :
    (x >>= k) = .ok b ↔ ∃ a, x = .ok a ∧ k a = .ok b := by
  cases x with
  | error e =>
    constructor
    · intro h
      cases h
    · rintro ⟨a, ha, -⟩
      cases ha
  | ok a =>
    constructor
    · intro h
      exact ⟨a, rfl, h⟩
    · rintro ⟨a', ha, h⟩
      cases ha
      exact h

/-- A number that a word of `n` bytes holds. -/
def Fits (n : Nat) (x : Int) : Prop := 0 ≤ x ∧ x < 256 ^ n

instance (n : Nat) (x : Int) : Decidable (Fits n x) :=
  inferInstanceAs (Decidable (_ ∧ _))

/-- A number that fits is below the word's bound. -/
theorem Fits.toNat_lt {n : Nat} {x : Int} (h : Fits n x) :
    x.toNat < 256 ^ n := by
  obtain ⟨hlo, hhi⟩ := h
  rw [Int.toNat_lt hlo]
  exact_mod_cast hhi

section

variable {α : Type} {f out : List Byte} {k : List Byte → Except PyError α}
  {a : α} {x : Int}

/-- A word is written when it fits. -/
theorem write_packI :
    write f (packI x) = .ok out
      ↔ Fits 4 x ∧ out = f ++ leBytes 4 x.toNat := by
  unfold write packI Fits
  norm_num
  split
  next h =>
    constructor
    · intro heq
      cases heq
      exact ⟨h, rfl⟩
    · rintro ⟨-, rfl⟩
      rfl
  next h =>
    constructor
    · intro heq
      cases heq
    · rintro ⟨hfit, -⟩
      exact absurd hfit h

/-- A double word is written when it fits. -/
theorem write_packQ :
    write f (packQ x) = .ok out
      ↔ Fits 8 x ∧ out = f ++ leBytes 8 x.toNat := by
  unfold write packQ Fits
  norm_num
  split
  next h =>
    constructor
    · intro heq
      cases heq
      exact ⟨h, rfl⟩
    · rintro ⟨-, rfl⟩
      rfl
  next h =>
    constructor
    · intro heq
      cases heq
    · rintro ⟨hfit, -⟩
      exact absurd hfit h

/-- Writing a 32-bit word, then going on. -/
theorem write_packI_bind :
    (write f (packI x) >>= k) = .ok a
      ↔ Fits 4 x ∧ k (f ++ leBytes 4 x.toNat) = .ok a := by
  simp only [bind_eq_ok, write_packI, and_assoc, exists_and_left,
    exists_eq_left]

/-- Writing a 64-bit word, then going on. -/
theorem write_packQ_bind :
    (write f (packQ x) >>= k) = .ok a
      ↔ Fits 8 x ∧ k (f ++ leBytes 8 x.toNat) = .ok a := by
  simp only [bind_eq_ok, write_packQ, and_assoc, exists_and_left,
    exists_eq_left]

/-- Writing a string, then going on. -/
theorem write_packS_bind {n : Nat} {s : List Byte} :
    (write f (packS n s) >>= k) = .ok a ↔ k (f ++ field n s) = .ok a :=
  Iff.rfl

/-- Writing bytes, then going on. -/
theorem write_ok_bind {bs : List Byte} :
    (write f (.ok bs) >>= k) = .ok a ↔ k (f ++ bs) = .ok a :=
  Iff.rfl

end

-- ============================================================ page sizes

/-- A page size is a power of two. -/
theorem PageSize.eq_two_pow (p : PageSize) : ∃ k, p.val = 2 ^ k := by
  obtain ⟨n, hn⟩ := p
  obtain ⟨i, -, hi⟩ := List.mem_map.mp hn
  exact ⟨i, by exact_mod_cast hi.symm⟩

/-- The smallest choice. -/
theorem PageSize.le (p : PageSize) : 2048 ≤ p.val := by
  obtain ⟨n, hn⟩ := p
  simp only [pagesizeChoices, List.range', List.map_cons, List.map_nil,
    List.mem_cons, List.not_mem_nil, or_false] at hn
  norm_num at hn
  show 2048 ≤ n
  omega

theorem PageSize.pos (p : PageSize) : 0 < p.val :=
  Nat.lt_of_lt_of_le (by decide) p.le

/-- For a power of two the masks of `pad_file` are remainders. -/
theorem padFile_eq_padTo (f : List Byte) (k : Nat) :
    padFile f (2 ^ k) = padTo (2 ^ k) f := by
  rw [padFile, padTo, Nat.and_two_pow_sub_one_eq_mod,
    Nat.and_two_pow_sub_one_eq_mod]

/-- On a page size `padFile` fills the page. -/
theorem PageSize.padFile_eq (p : PageSize) (f : List Byte) :
    padFile f p.val = padTo p.val f := by
  obtain ⟨k, hk⟩ := p.eq_two_pow
  rw [hk, padFile_eq_padTo]

/-- The size of a file is its length. -/
theorem filesize_eq (f : Option (List Byte)) :
    filesize f = ((f.getD []).length : Nat) := by
  cases f <;> rfl

/-- A section is the file's bytes on whole pages, none for no file. -/
theorem PageSize.writePaddedFile_eq (p : PageSize) {f : List Byte}
    (hf : p.val ∣ f.length) (fIn : Option (List Byte)) :
    writePaddedFile f fIn p.val = f ++ padTo p.val (fIn.getD []) := by
  cases fIn with
  | none => simp [writePaddedFile]
  | some bs =>
    show padFile (f ++ bs) p.val = _
    rw [p.padFile_eq, padTo_append hf]
    rfl

/-- The script's rounding counts the pages. -/
theorem getNumberOfPages_eq (n page : Nat) (hpage : 0 < page) :
    getNumberOfPages n page = pages page n := by
  unfold getNumberOfPages pages
  rw [Int.natCast_ediv]
  congr 1
  omega

end Edk2Exynos.Bootimg
