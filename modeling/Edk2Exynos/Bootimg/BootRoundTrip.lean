/-
What the boot image tool writes, a bootloader reads: boot images up to
v2.

# The plan

`writeHeader_spec` takes a header that was written without an exception
apart: the numbers in it fit, and its bytes are those of the codecs,
filled up to a page. The data behind it are sections of whole pages
(`writeData_eq`). Reading is then the codecs' law and `takeSection_padTo`,
one section after another; the recovery dtbo alone is found through the
offset the header gives, which is where its section starts
(`length_before_recoveryDtbo`).
-/
import Edk2Exynos.Bootimg.BootImage
import Edk2Exynos.Bootimg.BootFormat

namespace Edk2Exynos.Bootimg

open Lib

-- ============================================================ the header

/-- The header's fields of v1 as the tool fills them in. -/
def Args.headerV1 (args : Args) : HeaderV1 :=
  if 1 ≤ args.headerVersion then
    { recoveryDtboSize := (args.recoveryDtbo.getD []).length
      recoveryDtboOffset :=
        if args.recoveryDtbo.isSome then
          (getRecoveryDtboOffset args).toNat
        else 0
      headerSize := if args.headerVersion = 1 then 1648 else 1660 }
  else
    { recoveryDtboSize := 0
      recoveryDtboOffset := 0
      headerSize := bootHeader.width }

/-- The header's fields of v2 as the tool fills them in. -/
def Args.headerV2 (args : Args) : HeaderV2 :=
  if 2 ≤ args.headerVersion then
    { dtbSize := (args.dtb.getD []).length
      dtbAddr := (args.base + args.dtbOffset).toNat }
  else
    { dtbSize := 0
      dtbAddr := 0 }

/-- The bytes of a field group that is there from version `v` on. -/
def fromVersion {α : Type} (v : Int) (args : Args) (c : Codec α) (a : α) :
    List Byte :=
  if v ≤ args.headerVersion then c.write a else []

/-- The header up to v2, its texts as strings. -/
def Args.bootHeader (args : Args) (name cmdline extra id : List Byte) :
    BootHeader where
  magic := bootMagic
  kernelSize := (args.kernel.getD []).length
  kernelAddr := (args.base + args.kernelOffset).toNat
  ramdiskSize := (args.ramdisk.getD []).length
  ramdiskAddr :=
    if args.ramdisk.getD [] = [] then 0
    else (args.base + args.ramdiskOffset).toNat
  secondSize := (args.second.getD []).length
  secondAddr :=
    if args.second.getD [] = [] then 0
    else (args.base + args.secondOffset).toNat
  tagsAddr := (args.base + args.tagsOffset).toNat
  pageSize := args.pagesize.val
  headerVersion := args.headerVersion.toNat
  osVersion := (osVersionWord args).toNat
  name := name
  cmdline := cmdline
  id := id
  extraCmdline := extra

/-- The size of a file that is not given is 0. -/
theorem filesize_toNat (f : Option (List Byte)) :
    (filesize f).toNat = (f.getD []).length := by
  rw [filesize_eq, Int.toNat_natCast]

/-- A file has a size when it is given and not empty. -/
theorem filesize_pos (f : Option (List Byte)) :
    0 < filesize f ↔ ¬ f.getD [] = [] := by
  rw [filesize_eq, Int.natCast_pos, List.length_pos_iff]

/-- A load address is zero where there is nothing to load. -/
theorem loadAddress_toNat (f : Option (List Byte)) (x : Int) :
    (if filesize f > 0 then x else 0).toNat
      = if f.getD [] = [] then 0 else x.toNat := by
  by_cases h : f.getD [] = []
  · rw [if_pos h, if_neg fun hpos => (filesize_pos f).mp hpos h]
    rfl
  · rw [if_neg h, if_pos ((filesize_pos f).mpr h)]

/-- The header's size, which v1 and v2 store. -/
theorem write_headerSize {args : Args} {f out : List Byte}
    (h1 : 1 ≤ args.headerVersion) (h2 : args.headerVersion ≤ 2)
    (h : (if args.headerVersion = 1 then
        write f (packI bootImageHeaderV1Size)
      else if args.headerVersion = 2 then
        write f (packI bootImageHeaderV2Size)
      else .ok f) = .ok out) :
    out = f ++ leBytes 4 (if args.headerVersion = 1 then 1648 else 1660) := by
  by_cases hone : args.headerVersion = 1
  · rw [if_pos hone, write_packI] at h
    rw [if_pos hone, h.2]
    rfl
  · rw [if_neg hone, if_pos (by omega), write_packI] at h
    rw [if_neg hone, h.2]
    rfl

/-- From version 1 on the fields of version 1 are written. -/
theorem writeHeaderV1Fields_spec {args : Args} {f out : List Byte}
    (h0 : 0 ≤ args.headerVersion) (h2 : args.headerVersion ≤ 2)
    (h : writeHeaderV1Fields args f = .ok out) :
    out = f ++ fromVersion 1 args Bootimg.headerV1 args.headerV1
      ∧ (1 ≤ args.headerVersion →
          Bootimg.headerV1.Valid args.headerV1) := by
  have hsize : (if args.headerVersion = 1 then 1648 else 1660) < 256 ^ 4 := by
    split <;> norm_num
  unfold writeHeaderV1Fields at h
  unfold fromVersion Args.headerV1
  by_cases h1 : 1 ≤ args.headerVersion
  case neg =>
    rw [if_neg (by omega), bind_eq_ok] at h
    obtain ⟨g, hg, h⟩ := h
    cases hg
    dsimp only at h
    rw [if_neg (by omega), if_neg (by omega)] at h
    cases h
    rw [if_neg h1, List.append_nil]
    exact ⟨rfl, fun hcon => absurd hcon h1⟩
  case pos =>
    rw [if_pos (by omega)] at h
    rw [if_pos h1, if_pos h1]
    cases hd : args.recoveryDtbo with
    | none =>
      simp only [hd, write_packI_bind, write_packQ_bind] at h
      obtain ⟨h4, h8, h⟩ := h
      rw [write_headerSize h1 h2 h, List.append_assoc, List.append_assoc]
      exact ⟨rfl, fun _ => ⟨h4.toNat_lt, h8.toNat_lt, hsize⟩⟩
    | some bs =>
      simp only [hd, write_packI_bind, write_packQ_bind] at h
      obtain ⟨h4, h8, h⟩ := h
      rw [write_headerSize h1 h2 h, List.append_assoc, List.append_assoc]
      exact ⟨rfl, fun _ => ⟨h4.toNat_lt, h8.toNat_lt, hsize⟩⟩

/-- From version 2 on the fields of version 2 are written. -/
theorem writeHeaderV2Fields_spec {args : Args} {f out : List Byte}
    (h : writeHeaderV2Fields args f = .ok out) :
    out = f ++ fromVersion 2 args Bootimg.headerV2 args.headerV2
      ∧ (2 ≤ args.headerVersion →
          Bootimg.headerV2.Valid args.headerV2) := by
  unfold writeHeaderV2Fields at h
  unfold fromVersion Args.headerV2
  by_cases h2 : 2 ≤ args.headerVersion
  case neg =>
    rw [if_neg (by omega)] at h
    cases h
    rw [if_neg h2, List.append_nil]
    exact ⟨rfl, fun hcon => absurd hcon h2⟩
  case pos =>
    rw [if_pos (by omega)] at h
    rw [if_pos h2, if_pos h2]
    split at h
    case isTrue => cases h
    case isFalse =>
      rw [write_packI_bind, write_packQ] at h
      obtain ⟨h4, h8, rfl⟩ := h
      have hsize := h4.toNat_lt
      rw [filesize_toNat] at hsize ⊢
      rw [List.append_assoc]
      exact ⟨rfl, fun _ => ⟨hsize, h8.toNat_lt⟩⟩

/-- The header up to v2, in bytes. -/
def Args.headerBytes (args : Args) (h : BootHeader) : List Byte :=
  Bootimg.bootHeader.write h
    ++ (fromVersion 1 args Bootimg.headerV1 args.headerV1
      ++ fromVersion 2 args Bootimg.headerV2 args.headerV2)

theorem bootMagic_valid : (Codec.text 8).Valid bootMagic :=
  ⟨by decide, by decide⟩

/-- A header up to v2 that was written: what fits, and what it holds. -/
theorem writeHeader_spec {sha1 : List Byte → List Byte} {args : Args}
    {out : List Byte} {id : Option (List Byte)}
    {name cmdline extra : List Byte} (hv : args.headerVersion < 3)
    (h : writeHeader sha1 args [] = .ok (out, id))
    (hname : field 16 args.board = field 16 name)
    (hcmdline : field 512 args.cmdline = field 512 cmdline)
    (hextra : field 1024 args.extraCmdline = field 1024 extra)
    (hname' : (Codec.text 16).Valid name)
    (hcmdline' : (Codec.text 512).Valid cmdline)
    (hextra' : (Codec.text 1024).Valid extra) :
    ∃ sha, shaInput args = .ok sha ∧ id = some (field 32 (sha1 sha))
      ∧ 0 ≤ args.headerVersion
      ∧ (1 ≤ args.headerVersion → Bootimg.headerV1.Valid args.headerV1)
      ∧ (2 ≤ args.headerVersion → Bootimg.headerV2.Valid args.headerV2)
      ∧ Bootimg.bootHeader.Valid
          (args.bootHeader name cmdline extra (field 32 (sha1 sha)))
      ∧ out = padTo args.pagesize.val (args.headerBytes
          (args.bootHeader name cmdline extra (field 32 (sha1 sha)))) := by
  unfold writeHeader at h
  dsimp only at h
  rw [if_neg (by omega), if_neg (by omega)] at h
  simp only [write_packS_bind, write_packI_bind] at h
  obtain ⟨hkernel, hkernelAddr, hramdisk, hramdiskAddr, hsecond,
    hsecondAddr, htags, hpage, hversion, hos, h⟩ := h
  obtain ⟨sha, hsha, h⟩ := bind_eq_ok.mp h
  simp only [write_packS_bind, write_ok_bind] at h
  obtain ⟨f1, h1, h⟩ := bind_eq_ok.mp h
  obtain ⟨f2, h2, h⟩ := bind_eq_ok.mp h
  cases h
  obtain ⟨rfl, hvalid1⟩ :=
    writeHeaderV1Fields_spec hversion.1 (by omega) h1
  obtain ⟨rfl, hvalid2⟩ := writeHeaderV2Fields_spec h2
  refine ⟨sha, hsha, rfl, hversion.1, hvalid1, hvalid2, ?_, ?_⟩
  · have hk := hkernel.toNat_lt
    have hr := hramdisk.toNat_lt
    have hs := hsecond.toNat_lt
    have hra := hramdiskAddr.toNat_lt
    have hsa := hsecondAddr.toNat_lt
    rw [filesize_toNat] at hk hr hs
    rw [loadAddress_toNat] at hra hsa
    exact ⟨bootMagic_valid, hk, hkernelAddr.toNat_lt, hr, hra, hs, hsa,
      htags.toNat_lt, hpage.toNat_lt, hversion.toNat_lt, hos.toNat_lt,
      hname', hcmdline', field_length 32 _, hextra'⟩
  · rw [PageSize.padFile_eq]
    refine congrArg (padTo _) ?_
    rw [show bootNameSize = 16 from rfl, show bootArgsSize = 512 from rfl,
      show bootExtraArgsSize = 1024 from rfl, hname, hcmdline, hextra]
    simp only [filesize_toNat, loadAddress_toNat, List.nil_append,
      List.append_assoc, Args.headerBytes, Bootimg.bootHeader,
      Codec.imap_write, Codec.pair_write, Codec.word_write,
      Codec.text_write, Codec.raw_write]
    rfl

-- ============================================================== the data

/-- The recovery dtbo as the image has it, from v1 on. -/
def Args.dtboSection (args : Args) : List Byte :=
  if 1 ≤ args.headerVersion then args.recoveryDtbo.getD [] else []

/-- The dtb as the image has it, in v2. -/
def Args.dtbSection (args : Args) : List Byte :=
  if 2 ≤ args.headerVersion then args.dtb.getD [] else []

/-- What stands behind the header. -/
def Args.body (args : Args) : List Byte :=
  let page := args.pagesize.val
  padTo page (args.kernel.getD []) ++ (padTo page (args.ramdisk.getD [])
    ++ (padTo page (args.second.getD [])
      ++ (padTo page args.dtboSection ++ padTo page args.dtbSection)))

/-- Behind a header that ends at a page, the sections follow. -/
theorem writeData_eq {args : Args} {f : List Byte}
    (hv : args.headerVersion < 3) (hf : args.pagesize.val ∣ f.length) :
    writeData args f args.pagesize.val = .ok (f ++ args.body) := by
  have hpos := args.pagesize.pos
  unfold writeData Args.body Args.dtboSection Args.dtbSection
  dsimp only
  have h1 := dvd_length_append_padTo hpos hf (args.kernel.getD [])
  have h2 := dvd_length_append_padTo hpos h1 (args.ramdisk.getD [])
  have h3 := dvd_length_append_padTo hpos h2 (args.second.getD [])
  have h4 := dvd_length_append_padTo hpos h3 (args.recoveryDtbo.getD [])
  rw [args.pagesize.writePaddedFile_eq hf,
    args.pagesize.writePaddedFile_eq h1,
    args.pagesize.writePaddedFile_eq h2, if_neg (by omega)]
  by_cases hone : 1 ≤ args.headerVersion
  case neg =>
    have hdtbo : ¬ (args.headerVersion > 0 ∧ args.headerVersion < 3) := by
      omega
    have hdtb : ¬ args.headerVersion = 2 := by omega
    have htwo : ¬ 2 ≤ args.headerVersion := by omega
    rw [if_neg hdtbo, if_neg hdtb, if_neg hone, if_neg htwo]
    simp only [padTo_nil, List.append_nil, List.append_assoc]
  case pos =>
    have hdtbo : args.headerVersion > 0 ∧ args.headerVersion < 3 := by
      omega
    rw [if_pos hdtbo, if_pos hone, args.pagesize.writePaddedFile_eq h3]
    by_cases htwo : 2 ≤ args.headerVersion
    · have hdtb : args.headerVersion = 2 := by omega
      rw [if_pos hdtb, if_pos htwo, args.pagesize.writePaddedFile_eq h4]
      simp only [List.append_assoc]
    · have hdtb : ¬ args.headerVersion = 2 := by omega
      rw [if_neg hdtb, if_neg htwo]
      simp only [padTo_nil, List.append_nil, List.append_assoc]

-- =============================================================== reading

/-- The fields of version 1 are read back where they are written. -/
theorem readHeaderV1_fromVersion {args : Args} {n : Nat}
    (hn : args.headerVersion = n)
    (h : 1 ≤ args.headerVersion → Bootimg.headerV1.Valid args.headerV1)
    (rest : List Byte) :
    readHeaderV1 n (fromVersion 1 args Bootimg.headerV1 args.headerV1
      ++ rest) = some (args.headerV1, rest) := by
  unfold readHeaderV1 fromVersion
  by_cases h1 : 1 ≤ n
  · rw [if_pos h1, if_pos (by omega)]
    exact Bootimg.headerV1.read_write rest (h (by omega))
  · rw [if_neg h1, if_neg (by omega), Args.headerV1, if_neg (by omega)]
    rfl

/-- The fields of version 2 are read back where they are written. -/
theorem readHeaderV2_fromVersion {args : Args} {n : Nat}
    (hn : args.headerVersion = n)
    (h : 2 ≤ args.headerVersion → Bootimg.headerV2.Valid args.headerV2)
    (rest : List Byte) :
    readHeaderV2 n (fromVersion 2 args Bootimg.headerV2 args.headerV2
      ++ rest) = some (args.headerV2, rest) := by
  unfold readHeaderV2 fromVersion
  by_cases h2 : 2 ≤ n
  · rw [if_pos h2, if_pos (by omega)]
    exact Bootimg.headerV2.read_write rest (h (by omega))
  · rw [if_neg h2, if_neg (by omega), Args.headerV2, if_neg (by omega)]
    rfl

/-- The header has the size it gives. -/
theorem headerBytes_length {args : Args} {h : BootHeader}
    (h0 : 0 ≤ args.headerVersion) (h3 : args.headerVersion < 3)
    (hh : Bootimg.bootHeader.Valid h)
    (h1 : 1 ≤ args.headerVersion → Bootimg.headerV1.Valid args.headerV1)
    (h2 : 2 ≤ args.headerVersion → Bootimg.headerV2.Valid args.headerV2) :
    (args.headerBytes h).length = args.headerV1.headerSize := by
  unfold Args.headerBytes fromVersion
  rw [List.length_append, List.length_append,
    Bootimg.bootHeader.length_write hh, bootHeader_width]
  by_cases hone : 1 ≤ args.headerVersion
  case neg =>
    rw [if_neg hone, if_neg (by omega), Args.headerV1, if_neg hone]
    rfl
  case pos =>
    rw [if_pos hone, Bootimg.headerV1.length_write (h1 hone),
      headerV1_width, Args.headerV1, if_pos hone]
    dsimp only
    by_cases htwo : 2 ≤ args.headerVersion
    · rw [if_pos htwo, Bootimg.headerV2.length_write (h2 htwo),
        headerV2_width, if_neg (by omega)]
    · rw [if_neg htwo, if_pos (by omega)]
      rfl

/-- The recovery dtbo begins where the sections before it end. -/
theorem getRecoveryDtboOffset_eq (args : Args) :
    getRecoveryDtboOffset args = (args.pagesize.val
      + (padTo args.pagesize.val (args.kernel.getD [])).length
      + (padTo args.pagesize.val (args.ramdisk.getD [])).length
      + (padTo args.pagesize.val (args.second.getD [])).length : Nat) := by
  have hpos := args.pagesize.pos
  unfold getRecoveryDtboOffset
  dsimp only
  rw [filesize_eq, filesize_eq, filesize_eq,
    getNumberOfPages_eq _ _ hpos, getNumberOfPages_eq _ _ hpos,
    getNumberOfPages_eq _ _ hpos, length_padTo hpos, length_padTo hpos,
    length_padTo hpos]
  push_cast
  ring

/-- A header of one page. -/
theorem length_padTo_header {args : Args} {bs : List Byte}
    (hpos : 0 < bs.length) (hle : bs.length ≤ 2048) :
    (padTo args.pagesize.val bs).length = args.pagesize.val := by
  have hpage := args.pagesize.le
  rw [length_padTo args.pagesize.pos, pages,
    Nat.div_eq_of_lt_le (k := 1), Nat.one_mul]
  · omega
  · omega

/-- What the arguments ask for, as a bootloader sees it. -/
def Args.bootImage (args : Args) (name cmdline id : List Byte) :
    BootImage where
  headerVersion := args.headerVersion.toNat
  osVersion := (osVersionWord args).toNat
  pageSize := args.pagesize.val
  kernel := args.kernel.getD []
  kernelAddr := (args.base + args.kernelOffset).toNat
  ramdisk := args.ramdisk.getD []
  ramdiskAddr :=
    if args.ramdisk.getD [] = [] then 0
    else (args.base + args.ramdiskOffset).toNat
  second := args.second.getD []
  secondAddr :=
    if args.second.getD [] = [] then 0
    else (args.base + args.secondOffset).toNat
  recoveryDtbo := args.dtboSection
  dtb := args.dtbSection
  dtbAddr := args.headerV2.dtbAddr
  tagsAddr := (args.base + args.tagsOffset).toNat
  name := name
  cmdline := cmdline
  id := id

/-- The header has the size of the recovery dtbo written. -/
theorem recoveryDtboSize_eq (args : Args) :
    args.headerV1.recoveryDtboSize = args.dtboSection.length := by
  unfold Args.headerV1 Args.dtboSection
  split <;> rfl

/-- The header has the size of the dtb written. -/
theorem dtbSize_eq (args : Args) :
    args.headerV2.dtbSize = args.dtbSection.length := by
  unfold Args.headerV2 Args.dtbSection
  split <;> rfl

/-- The recovery dtbo is where the header says. -/
theorem takeSection_recoveryDtbo {args : Args} {bs : List Byte}
    (hpos : 0 < bs.length) (hle : bs.length ≤ 2048) :
    ∃ rest, takeSection args.pagesize.val args.headerV1.recoveryDtboSize
      ((padTo args.pagesize.val bs ++ args.body).drop
        args.headerV1.recoveryDtboOffset)
      = some (args.dtboSection, rest) := by
  have hpage := args.pagesize.pos
  rw [recoveryDtboSize_eq]
  by_cases hthere : 1 ≤ args.headerVersion ∧ args.recoveryDtbo.isSome
  case pos =>
    refine ⟨padTo args.pagesize.val args.dtbSection, ?_⟩
    have hoffset : args.headerV1.recoveryDtboOffset
        = (padTo args.pagesize.val bs
          ++ (padTo args.pagesize.val (args.kernel.getD [])
            ++ (padTo args.pagesize.val (args.ramdisk.getD [])
              ++ padTo args.pagesize.val (args.second.getD [])))).length := by
      rw [Args.headerV1, if_pos hthere.1]
      dsimp only
      rw [if_pos hthere.2, getRecoveryDtboOffset_eq, Int.toNat_natCast]
      simp only [List.length_append, length_padTo_header hpos hle]
      omega
    have hsplit : padTo args.pagesize.val bs ++ args.body
        = (padTo args.pagesize.val bs
          ++ (padTo args.pagesize.val (args.kernel.getD [])
            ++ (padTo args.pagesize.val (args.ramdisk.getD [])
              ++ padTo args.pagesize.val (args.second.getD []))))
          ++ (padTo args.pagesize.val args.dtboSection
            ++ padTo args.pagesize.val args.dtbSection) := by
      simp only [Args.body, List.append_assoc]
    rw [hoffset, hsplit, List.drop_left]
    exact takeSection_padTo hpage _ _
  case neg =>
    have hnone : args.dtboSection = [] := by
      unfold Args.dtboSection
      split
      next hv =>
        have hd : args.recoveryDtbo = none :=
          Option.not_isSome_iff_eq_none.mp fun hsome => hthere ⟨hv, hsome⟩
        rw [hd]
        rfl
      next hv => rfl
    rw [hnone]
    exact ⟨_, takeSection_zero hpage _⟩

/-- The reader, where every one of its steps succeeds. -/
theorem readBootImage_eq_some {image rest rest1 rest2 : List Byte}
    {h : BootHeader} {v1 : HeaderV1} {v2 : HeaderV2}
    {hb kernel ramdisk second dtbo dtb dtbo' : List Byte}
    {b1 b2 b3 b4 b5 b6 b7 : List Byte}
    (hread : Bootimg.bootHeader.read image = some (h, rest))
    (hguard : h.magic = bootMagic ∧ h.headerVersion ≤ 2)
    (hv1 : readHeaderV1 h.headerVersion rest = some (v1, rest1))
    (hv2 : readHeaderV2 h.headerVersion rest1 = some (v2, rest2))
    (hheader : takeSection h.pageSize v1.headerSize image = some (hb, b1))
    (hkernel : takeSection h.pageSize h.kernelSize b1 = some (kernel, b2))
    (hramdisk : takeSection h.pageSize h.ramdiskSize b2
      = some (ramdisk, b3))
    (hsecond : takeSection h.pageSize h.secondSize b3 = some (second, b4))
    (hskip : takeSection h.pageSize v1.recoveryDtboSize b4
      = some (dtbo', b5))
    (hdtb : takeSection h.pageSize v2.dtbSize b5 = some (dtb, b6))
    (hdtbo : takeSection h.pageSize v1.recoveryDtboSize
      (image.drop v1.recoveryDtboOffset) = some (dtbo, b7)) :
    readBootImage image = some
      { headerVersion := h.headerVersion
        osVersion := h.osVersion
        pageSize := h.pageSize
        kernel := kernel
        kernelAddr := h.kernelAddr
        ramdisk := ramdisk
        ramdiskAddr := h.ramdiskAddr
        second := second
        secondAddr := h.secondAddr
        recoveryDtbo := dtbo
        dtb := dtb
        dtbAddr := v2.dtbAddr
        tagsAddr := h.tagsAddr
        name := h.name
        cmdline := h.cmdline ++ h.extraCmdline
        id := h.id } := by
  unfold readBootImage
  simp only [hread, Option.bind_eq_bind, Option.bind_some, if_pos hguard,
    hv1, hv2, hheader, hkernel, hramdisk, hsecond, hskip, hdtb, hdtbo]
  rfl

/-- An image of its header and its sections is read back. -/
theorem readBootImage_headerBytes {args : Args}
    {name cmdline extra id : List Byte} (h0 : 0 ≤ args.headerVersion)
    (h3 : args.headerVersion < 3)
    (hh : Bootimg.bootHeader.Valid (args.bootHeader name cmdline extra id))
    (h1 : 1 ≤ args.headerVersion → Bootimg.headerV1.Valid args.headerV1)
    (h2 : 2 ≤ args.headerVersion → Bootimg.headerV2.Valid args.headerV2) :
    readBootImage (padTo args.pagesize.val
        (args.headerBytes (args.bootHeader name cmdline extra id))
      ++ args.body) = some (args.bootImage name (cmdline ++ extra) id) := by
  have hpage := args.pagesize.pos
  have hv : args.headerVersion = (args.headerVersion.toNat : Int) :=
    (Int.toNat_of_nonneg h0).symm
  have hlen := headerBytes_length h0 h3 hh h1 h2
  have hsize : 1632 ≤ args.headerV1.headerSize
      ∧ args.headerV1.headerSize ≤ 1660 := by
    unfold Args.headerV1
    split
    · dsimp only
      split <;> decide
    · decide
  have hguard : (args.bootHeader name cmdline extra id).magic = bootMagic
      ∧ (args.bootHeader name cmdline extra id).headerVersion ≤ 2 := by
    refine ⟨rfl, ?_⟩
    show args.headerVersion.toNat ≤ 2
    omega
  have hheader := takeSection_padTo hpage
    (args.headerBytes (args.bootHeader name cmdline extra id)) args.body
  rw [hlen] at hheader
  have hskip := takeSection_padTo hpage args.dtboSection
    (padTo args.pagesize.val args.dtbSection)
  rw [← recoveryDtboSize_eq] at hskip
  have hdtb := takeSection_padTo hpage args.dtbSection []
  rw [← dtbSize_eq, List.append_nil] at hdtb
  obtain ⟨rest, hdtbo⟩ := @takeSection_recoveryDtbo args
    (args.headerBytes (args.bootHeader name cmdline extra id))
    (by omega) (by omega)
  -- behind the header's bytes stand the zeros of its page
  obtain ⟨zeros, hzeros⟩ := exists_padTo_eq_append args.pagesize.val
    (args.headerBytes (args.bootHeader name cmdline extra id))
  have hread : Bootimg.bootHeader.read (padTo args.pagesize.val
        (args.headerBytes (args.bootHeader name cmdline extra id))
      ++ args.body) = some (args.bootHeader name cmdline extra id,
        fromVersion 1 args Bootimg.headerV1 args.headerV1
          ++ (fromVersion 2 args Bootimg.headerV2 args.headerV2
            ++ (zeros ++ args.body))) := by
    rw [hzeros, Args.headerBytes, List.append_assoc, List.append_assoc,
      List.append_assoc]
    exact Bootimg.bootHeader.read_write _ hh
  exact readBootImage_eq_some hread hguard
    (readHeaderV1_fromVersion hv h1 _) (readHeaderV2_fromVersion hv h2 _)
    hheader (takeSection_padTo hpage _ _) (takeSection_padTo hpage _ _)
    (takeSection_padTo hpage _ _) hskip hdtb hdtbo

end Edk2Exynos.Bootimg
