/-
What the boot image tool writes, a bootloader reads: boot images v3 and
v4.

The header has a page of 4096 bytes whatever `--pagesize` says, and one
text field for the whole command line. A v4 image ends in a signature:
one page of zeros, or what `avbtool` makes of the image so far.
-/
import Edk2Exynos.Bootimg.BootRoundTrip

namespace Edk2Exynos.Bootimg

open Lib

/-- `BOOT_IMAGE_HEADER_V3_PAGESIZE`, one of the page sizes. -/
def pageV3 : PageSize := ⟨bootImageHeaderV3Pagesize, by decide⟩

theorem pageV3_pos : 0 < bootImageHeaderV3Pagesize := by decide

-- ============================================================ the header

/-- The header from v3 on, its text as a string. -/
def Args.bootHeaderV3 (args : Args) (cmdline : List Byte) :
    BootHeaderV3 where
  magic := bootMagic
  kernelSize := (args.kernel.getD []).length
  ramdiskSize := (args.ramdisk.getD []).length
  osVersion := (osVersionWord args).toNat
  headerSize := if args.headerVersion > 3 then 1584 else 1580
  reserved := [0, 0, 0, 0]
  headerVersion := args.headerVersion.toNat
  cmdline := cmdline

/-- The header from v3 on, in bytes. -/
def Args.headerV3Bytes (args : Args) (cmdline : List Byte) : List Byte :=
  Bootimg.bootHeaderV3.write (args.bootHeaderV3 cmdline)
    ++ fromVersion 4 args word32 bootImageV4SignatureSize

theorem signatureSize_valid : word32.Valid bootImageV4SignatureSize := by
  show bootImageV4SignatureSize < 256 ^ 4
  decide

/-- The end of the header: v4 stores the signature's size. -/
theorem write_signatureSize {args : Args} {f out : List Byte}
    (h : (if args.headerVersion ≥ 4 then
        write f (packI bootImageV4SignatureSize) >>= fun output =>
          .ok (padFile output bootImageHeaderV3Pagesize)
      else .ok (padFile f bootImageHeaderV3Pagesize)) = .ok out) :
    out = padTo bootImageHeaderV3Pagesize
      (f ++ fromVersion 4 args word32 bootImageV4SignatureSize) := by
  unfold fromVersion
  split at h
  next hfour =>
    obtain ⟨-, h⟩ := write_packI_bind.mp h
    cases h
    rw [if_pos hfour]
    exact pageV3.padFile_eq _
  next hfour =>
    cases h
    rw [if_neg hfour, List.append_nil]
    exact pageV3.padFile_eq _

/-- What the header of versions 3 and 4 writes. -/
theorem writeHeaderV3AndAbove_spec {args : Args}
    {out cmdline : List Byte}
    (h : writeHeaderV3AndAbove args [] = .ok out)
    (hcmdline : field 1536 args.cmdline = field 1536 cmdline)
    (hcmdline' : (Codec.text 1536).Valid cmdline) :
    Bootimg.bootHeaderV3.Valid (args.bootHeaderV3 cmdline)
      ∧ out = padTo bootImageHeaderV3Pagesize
          (args.headerV3Bytes cmdline) := by
  have hreserved : (Codec.array 4 word32).Valid [0, 0, 0, 0] := by
    refine ⟨rfl, fun v hv => ?_⟩
    have hzero : v = 0 := by simpa using hv
    subst hzero
    show 0 < 256 ^ 4
    decide
  have hheaderSize : (if args.headerVersion > 3 then bootImageHeaderV4Size
      else bootImageHeaderV3Size).toNat
      = if args.headerVersion > 3 then 1584 else 1580 := by
    split <;> rfl
  unfold writeHeaderV3AndAbove at h
  simp only [write_packS_bind, write_packI_bind] at h
  obtain ⟨hkernel, hramdisk, hos, hsize, -, -, -, -, hversion, h⟩ := h
  have hk := hkernel.toNat_lt
  have hr := hramdisk.toNat_lt
  have hs := hsize.toNat_lt
  rw [filesize_toNat] at hk hr
  rw [hheaderSize] at hs
  refine ⟨⟨bootMagic_valid, hk, hr, hos.toNat_lt, hs, hreserved,
    hversion.toNat_lt, hcmdline'⟩, ?_⟩
  rw [write_signatureSize h]
  refine congrArg (padTo _) ?_
  rw [hheaderSize, filesize_toNat, filesize_toNat,
    show bootArgsSize + bootExtraArgsSize = 1536 from rfl, hcmdline]
  simp only [Args.headerV3Bytes, Bootimg.bootHeaderV3, Codec.imap_write,
    Codec.pair_write, Codec.word_write, Codec.text_write,
    Codec.array_write, List.append_assoc]
  rfl

-- ============================================================== the data

/-- The image of v3 and v4 before a signature. -/
def Args.unsigned (args : Args) (cmdline : List Byte) : List Byte :=
  padTo bootImageHeaderV3Pagesize (args.headerV3Bytes cmdline)
    ++ (padTo bootImageHeaderV3Pagesize (args.kernel.getD [])
      ++ padTo bootImageHeaderV3Pagesize (args.ramdisk.getD []))

/-- The signature of a v4 image: a page of zeros without a key. -/
def Args.signature (args : Args) (cmdline : List Byte) : List Byte :=
  if args.headerVersion ≥ 4 then
    match args.gkiSigning with
    | none => List.replicate bootImageV4SignatureSize 0
    | some avbtool =>
        padTo bootImageHeaderV3Pagesize
          (avbtool.run (args.unsigned cmdline))
  else []

/-- The image without its signature ends at a page. -/
theorem dvd_length_unsigned (args : Args) (cmdline : List Byte) :
    bootImageHeaderV3Pagesize ∣ (args.unsigned cmdline).length := by
  unfold Args.unsigned
  rw [← List.append_assoc]
  exact dvd_length_append_padTo pageV3_pos (dvd_length_append_padTo
    pageV3_pos (dvd_length_padTo pageV3_pos _) _) _

/-- A signature that was added fills one page. -/
theorem addBootImageSignature_spec {args : Args}
    {out cmdline : List Byte} (h4 : args.headerVersion ≥ 4)
    (h : addBootImageSignature args (args.unsigned cmdline)
      bootImageHeaderV3Pagesize = .ok out) :
    (args.signature cmdline).length = bootImageV4SignatureSize
      ∧ out = args.unsigned cmdline ++ args.signature cmdline := by
  have hdvd := dvd_length_unsigned args cmdline
  unfold addBootImageSignature at h
  unfold Args.signature
  rw [if_pos h4]
  cases hs : args.gkiSigning with
  | none =>
    simp only [hs] at h ⊢
    cases h
    refine ⟨List.length_replicate, ?_⟩
    show padFile _ pageV3.val = _
    rw [PageSize.padFile_eq]
    refine padTo_of_dvd ?_
    rw [List.length_append, List.length_replicate]
    exact dvd_add hdvd (dvd_refl _)
  | some avbtool =>
    simp only [hs] at h ⊢
    split at h
    case isTrue => cases h
    case isFalse hle =>
      cases h
      rw [filesize_eq] at hle
      have hpos := List.length_pos_iff.mpr
        (avbtool.run_ne_nil (args.unsigned cmdline))
      have hpages : pages bootImageHeaderV3Pagesize
          (avbtool.run (args.unsigned cmdline)).length = 1 := by
        have hle' : (avbtool.run (args.unsigned cmdline)).length
            ≤ bootImageV4SignatureSize := by
          rw [Option.getD_some] at hle
          omega
        unfold bootImageV4SignatureSize at hle'
        unfold pages bootImageHeaderV3Pagesize
        omega
      refine ⟨?_, ?_⟩
      · rw [length_padTo pageV3_pos, hpages]
        rfl
      · exact pageV3.writePaddedFile_eq hdvd _

/-- The data behind a v3 or v4 header. -/
theorem writeData_v3_spec {args : Args} {out cmdline : List Byte}
    (hv : args.headerVersion = 3 ∨ args.headerVersion = 4)
    (hsecond : args.second = none)
    (h : writeData args
      (padTo bootImageHeaderV3Pagesize (args.headerV3Bytes cmdline))
      bootImageHeaderV3Pagesize = .ok out) :
    out = args.unsigned cmdline ++ args.signature cmdline
      ∧ (args.headerVersion = 4 → (args.signature cmdline).length
          = bootImageV4SignatureSize) := by
  have hdvd := dvd_length_padTo pageV3_pos (args.headerV3Bytes cmdline)
  have hdvd' := dvd_length_append_padTo pageV3_pos hdvd
    (args.kernel.getD [])
  have hkernel := pageV3.writePaddedFile_eq hdvd args.kernel
  have hramdisk := pageV3.writePaddedFile_eq hdvd' args.ramdisk
  unfold pageV3 at hkernel hramdisk
  have hdtbo : ¬ (args.headerVersion > 0 ∧ args.headerVersion < 3) := by
    omega
  have hdtb : ¬ args.headerVersion = 2 := by omega
  unfold writeData at h
  dsimp only at h hkernel hramdisk
  rw [hkernel, hramdisk, hsecond, if_neg hdtbo, if_neg hdtb] at h
  have hunsigned : writePaddedFile
      (padTo bootImageHeaderV3Pagesize (args.headerV3Bytes cmdline)
        ++ padTo bootImageHeaderV3Pagesize (args.kernel.getD [])
        ++ padTo bootImageHeaderV3Pagesize (args.ramdisk.getD []))
      none bootImageHeaderV3Pagesize = args.unsigned cmdline :=
    List.append_assoc _ _ _
  rw [hunsigned] at h
  by_cases hfour : args.headerVersion ≥ 4
  · rw [if_pos hfour] at h
    obtain ⟨hlen, hout⟩ := addBootImageSignature_spec hfour h
    exact ⟨hout, fun _ => hlen⟩
  · rw [if_neg hfour] at h
    cases h
    refine ⟨?_, fun hcon => absurd hcon (by omega)⟩
    rw [Args.signature, if_neg hfour, List.append_nil]

-- =============================================================== reading

/-- What the arguments ask for from v3 on, as a bootloader sees it. -/
def Args.genericBootImage (args : Args) (cmdline : List Byte) :
    GenericBootImage where
  headerVersion := args.headerVersion.toNat
  osVersion := (osVersionWord args).toNat
  kernel := args.kernel.getD []
  ramdisk := args.ramdisk.getD []
  cmdline := cmdline
  signature := args.signature cmdline

/-- The header's size field is the header's length. -/
theorem headerV3Bytes_length {args : Args} {cmdline : List Byte}
    (hh : Bootimg.bootHeaderV3.Valid (args.bootHeaderV3 cmdline)) :
    (args.headerV3Bytes cmdline).length
      = (args.bootHeaderV3 cmdline).headerSize := by
  unfold Args.headerV3Bytes fromVersion
  rw [List.length_append, Bootimg.bootHeaderV3.length_write hh,
    bootHeaderV3_width]
  show _ = if args.headerVersion > 3 then 1584 else 1580
  by_cases hfour : 4 ≤ args.headerVersion
  · rw [if_pos hfour, if_pos (by omega),
      word32.length_write signatureSize_valid]
    rfl
  · rw [if_neg hfour, if_neg (by omega)]
    rfl

/-- The size of the signature, as the reader takes it. -/
def Args.signatureSize (args : Args) : Nat :=
  if args.headerVersion ≥ 4 then bootImageV4SignatureSize else 0

/-- The signature's size is read back where it is written. -/
theorem readSignatureSize_fromVersion {args : Args} {n : Nat}
    (hn : args.headerVersion = n) (rest : List Byte) :
    readSignatureSize n (fromVersion 4 args word32
      bootImageV4SignatureSize ++ rest) = some (args.signatureSize, rest) := by
  unfold readSignatureSize fromVersion Args.signatureSize
  by_cases h4 : 4 ≤ n
  · rw [if_pos h4, if_pos (by omega), if_pos (by omega)]
    exact word32.read_write rest signatureSize_valid
  · rw [if_neg h4, if_neg (by omega), if_neg (by omega)]
    rfl

/-- The reader, where every one of its steps succeeds. -/
theorem readGenericBootImage_eq_some {image rest rest1 : List Byte}
    {h : BootHeaderV3} {n : Nat}
    {hb kernel ramdisk signature b1 b2 b3 b4 : List Byte}
    (hread : Bootimg.bootHeaderV3.read image = some (h, rest))
    (hguard : h.magic = bootMagic
      ∧ (h.headerVersion = 3 ∨ h.headerVersion = 4))
    (hsize : readSignatureSize h.headerVersion rest = some (n, rest1))
    (hheader : takeSection 4096 h.headerSize image = some (hb, b1))
    (hkernel : takeSection 4096 h.kernelSize b1 = some (kernel, b2))
    (hramdisk : takeSection 4096 h.ramdiskSize b2 = some (ramdisk, b3))
    (hsignature : takeSection 4096 n b3 = some (signature, b4)) :
    readGenericBootImage image = some
      { headerVersion := h.headerVersion
        osVersion := h.osVersion
        kernel := kernel
        ramdisk := ramdisk
        cmdline := h.cmdline
        signature := signature } := by
  unfold readGenericBootImage
  simp only [hread, Option.bind_eq_bind, Option.bind_some, if_pos hguard,
    hsize, hheader, hkernel, hramdisk, hsignature]
  rfl

/-- The reader takes the parts out of a signed image. -/
theorem readGenericBootImage_signed {args : Args} {cmdline : List Byte}
    (hv : args.headerVersion = 3 ∨ args.headerVersion = 4)
    (hh : Bootimg.bootHeaderV3.Valid (args.bootHeaderV3 cmdline))
    (hlen : args.headerVersion = 4 → (args.signature cmdline).length
      = bootImageV4SignatureSize) :
    readGenericBootImage
        (args.unsigned cmdline ++ args.signature cmdline)
      = some (args.genericBootImage cmdline) := by
  have hn : args.headerVersion = (args.headerVersion.toNat : Int) := by
    omega
  obtain ⟨zeros, hzeros⟩ := exists_padTo_eq_append
    bootImageHeaderV3Pagesize (args.headerV3Bytes cmdline)
  have hread : Bootimg.bootHeaderV3.read
      (args.unsigned cmdline ++ args.signature cmdline)
      = some (args.bootHeaderV3 cmdline,
        fromVersion 4 args word32 bootImageV4SignatureSize
          ++ (zeros ++ (padTo bootImageHeaderV3Pagesize
              (args.kernel.getD [])
            ++ (padTo bootImageHeaderV3Pagesize (args.ramdisk.getD [])
              ++ args.signature cmdline)))) := by
    rw [Args.unsigned, hzeros, Args.headerV3Bytes]
    simp only [List.append_assoc]
    exact Bootimg.bootHeaderV3.read_write _ hh
  have hguard : (args.bootHeaderV3 cmdline).magic = bootMagic
      ∧ ((args.bootHeaderV3 cmdline).headerVersion = 3
        ∨ (args.bootHeaderV3 cmdline).headerVersion = 4) := by
    refine ⟨rfl, ?_⟩
    show args.headerVersion.toNat = 3 ∨ args.headerVersion.toNat = 4
    omega
  have hheader := takeSection_padTo pageV3_pos
    (args.headerV3Bytes cmdline)
    (padTo bootImageHeaderV3Pagesize (args.kernel.getD [])
      ++ (padTo bootImageHeaderV3Pagesize (args.ramdisk.getD [])
        ++ args.signature cmdline))
  rw [headerV3Bytes_length hh] at hheader
  have hsignature : ∃ rest, takeSection bootImageHeaderV3Pagesize
      args.signatureSize (args.signature cmdline)
      = some (args.signature cmdline, rest) := by
    unfold Args.signatureSize
    by_cases hfour : args.headerVersion ≥ 4
    · rw [if_pos hfour, ← hlen (by omega)]
      have hdvd : bootImageHeaderV3Pagesize
          ∣ (args.signature cmdline).length := by
        rw [hlen (by omega)]
        exact dvd_refl _
      have htake := takeSection_padTo pageV3_pos
        (args.signature cmdline) []
      rw [padTo_of_dvd hdvd, List.append_nil] at htake
      exact ⟨_, htake⟩
    · rw [if_neg hfour, Args.signature, if_neg hfour]
      exact ⟨_, takeSection_zero pageV3_pos _⟩
  obtain ⟨rest, hsignature⟩ := hsignature
  have himage : args.unsigned cmdline ++ args.signature cmdline
      = padTo bootImageHeaderV3Pagesize (args.headerV3Bytes cmdline)
        ++ (padTo bootImageHeaderV3Pagesize (args.kernel.getD [])
          ++ (padTo bootImageHeaderV3Pagesize (args.ramdisk.getD [])
            ++ args.signature cmdline)) := by
    simp only [Args.unsigned, List.append_assoc]
  rw [← himage] at hheader
  exact readGenericBootImage_eq_some hread hguard
    (readSignatureSize_fromVersion hn _) hheader
    (takeSection_padTo pageV3_pos _ _) (takeSection_padTo pageV3_pos _ _)
    hsignature

end Edk2Exynos.Bootimg
