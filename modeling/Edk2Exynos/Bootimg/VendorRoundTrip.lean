/-
What the boot image tool writes, a bootloader reads: vendor boot images.

The table is the hard part. Its offsets were computed from file sizes
while the options were parsed; the ramdisks are written later, one behind
the other. `mapM_readRamdisk` takes every ramdisk out of that section
again, by induction over the entries, each of which starts where the
section has been read to (`Laid`).
-/
import Edk2Exynos.Bootimg.BootRoundTrip
import Edk2Exynos.Bootimg.RamdiskTable

namespace Edk2Exynos.Bootimg

open Lib

-- ============================================================= the table

/-- An entry as the table stores it. -/
def VendorRamdiskTableEntry.record (e : VendorRamdiskTableEntry) :
    TableEntry where
  ramdiskSize := e.ramdiskSize.toNat
  ramdiskOffset := e.ramdiskOffset.toNat
  ramdiskType := e.ramdiskType.toNat
  ramdiskName := stripName e.ramdiskName
  boardId := e.boardId

/-- An entry that was written. -/
theorem writeEntry_spec {f out : List Byte} {e : VendorRamdiskTableEntry}
    (hname : NameText e.ramdiskName)
    (hids : (Codec.array 16 word32).Valid e.boardId)
    (h : writeEntry f e = .ok out) :
    tableEntry.Valid e.record ∧ out = f ++ tableEntry.write e.record := by
  unfold writeEntry at h
  simp only [write_packI_bind, write_packS_bind] at h
  obtain ⟨hsize, hoffset, htype, h⟩ := h
  cases h
  refine ⟨⟨hsize.toNat_lt, hoffset.toNat_lt, htype.toNat_lt, hname.1,
    hids⟩, ?_⟩
  rw [show vendorRamdiskNameSize = 32 from rfl, hname.2]
  simp only [List.append_assoc]
  rfl

/-- The table that was written, entry by entry. -/
theorem foldlM_writeEntry_spec {es : List VendorRamdiskTableEntry}
    {f out : List Byte} (hname : ∀ e ∈ es, NameText e.ramdiskName)
    (hids : ∀ e ∈ es, (Codec.array 16 word32).Valid e.boardId)
    (h : es.foldlM writeEntry f = .ok out) :
    (∀ r ∈ es.map (·.record), tableEntry.Valid r)
      ∧ out = f ++ (es.map (·.record)).flatMap tableEntry.write := by
  induction es generalizing f with
  | nil =>
    cases h
    exact ⟨fun r hr => absurd hr List.not_mem_nil,
      (List.append_nil _).symm⟩
  | cons e es ih =>
    rw [List.foldlM_cons] at h
    obtain ⟨f1, h1, h⟩ := bind_eq_ok.mp h
    obtain ⟨hvalid, rfl⟩ := writeEntry_spec (hname e List.mem_cons_self)
      (hids e List.mem_cons_self) h1
    obtain ⟨hvalids, rfl⟩ := ih
      (fun e' he' => hname e' (List.mem_cons_of_mem e he'))
      (fun e' he' => hids e' (List.mem_cons_of_mem e he')) h
    constructor
    · intro r hr
      rcases List.mem_cons.mp hr with rfl | hr
      · exact hvalid
      · exact hvalids r hr
    · rw [List.append_assoc]
      rfl

/-- Every ramdisk is read back out of the section of them all. -/
theorem mapM_readRamdisk {es : List VendorRamdiskTableEntry}
    (pre : List Byte) (h : Laid pre.length es) :
    (es.map (·.record)).mapM (readRamdisk (pre ++ ramdiskSection es))
      = some (es.map (·.view)) := by
  -- what has been read stands before, what is left behind
  induction es generalizing pre with
  | nil => rfl
  | cons e es ih =>
    obtain ⟨hoffset, hsize, hrest⟩ := h
    have hslice : slice e.record.ramdiskOffset e.record.ramdiskSize
        (pre ++ ramdiskSection (e :: es)) = some e.ramdisk := by
      rw [VendorRamdiskTableEntry.record, hoffset, hsize,
        Int.toNat_natCast, Int.toNat_natCast]
      exact slice_append pre e.ramdisk _
    have hread : readRamdisk (pre ++ ramdiskSection (e :: es)) e.record
        = some e.view := by
      unfold readRamdisk
      rw [hslice]
      rfl
    have htail : pre ++ ramdiskSection (e :: es)
        = (pre ++ e.ramdisk) ++ ramdiskSection es := by
      rw [List.append_assoc]
      rfl
    have hrec := ih (pre ++ e.ramdisk) (by rwa [List.length_append])
    rw [← htail] at hrec
    rw [List.map_cons, List.mapM_cons, hread, hrec]
    rfl

/-- The entries of a table without gaps tile the section. -/
theorem Laid.getElem {es : List VendorRamdiskTableEntry} {o : Nat}
    (h : Laid o es) {i : Nat} {e : VendorRamdiskTableEntry}
    (he : es[i]? = some e) :
    e.record.ramdiskSize = e.view.ramdisk.length
      ∧ e.record.ramdiskOffset
        = o + (((es.map (·.view)).take i).map
            fun r => r.ramdisk.length).sum := by
  induction es generalizing o i with
  | nil => cases he
  | cons e0 es ih =>
    obtain ⟨hoffset, hsize, hrest⟩ := h
    cases i with
    | zero =>
      obtain rfl := Option.some.inj he
      exact ⟨congrArg Int.toNat hsize, congrArg Int.toNat hoffset⟩
    | succ i =>
      obtain ⟨hsize, hoffset⟩ := ih hrest he
      refine ⟨hsize, hoffset.trans ?_⟩
      rw [List.map_cons, List.take_succ_cons, List.map_cons, List.sum_cons,
        Nat.add_assoc]
      rfl

/-- So the stored entries do. -/
theorem tiles_records {es : List VendorRamdiskTableEntry}
    (h : Laid 0 es) : Tiles (es.map (·.record)) (es.map (·.view)) := by
  refine ⟨by rw [List.length_map, List.length_map], ?_⟩
  intro i e r he hr
  rw [List.getElem?_map] at he hr
  obtain ⟨entry, hentry, rfl⟩ := Option.map_eq_some_iff.mp he
  obtain ⟨entry', hentry', rfl⟩ := Option.map_eq_some_iff.mp hr
  obtain rfl := Option.some.inj (hentry.symm.trans hentry')
  obtain ⟨hsize, hoffset⟩ := h.getElem hentry
  exact ⟨hsize, hoffset.trans (Nat.zero_add _)⟩

-- ============================================================ the header

/-- The vendor ramdisks as one section. -/
def Args.ramdiskSection (args : Args) : List Byte :=
  if args.headerVersion > 3 then
    Bootimg.ramdiskSection args.vendorRamdiskTableBuilder.entries
  else args.vendorRamdisk.getD []

/-- The header, its texts as strings. -/
def Args.vendorBootHeader (args : Args) (cmdline name : List Byte) :
    VendorBootHeader where
  magic := vendorBootMagic
  headerVersion := args.headerVersion.toNat
  pageSize := args.pagesize.val
  kernelAddr := (args.base + args.kernelOffset).toNat
  ramdiskAddr := (args.base + args.ramdiskOffset).toNat
  vendorRamdiskSize := args.ramdiskSection.length
  cmdline := cmdline
  tagsAddr := (args.base + args.tagsOffset).toNat
  name := name
  headerSize := if args.headerVersion > 3 then 2128 else 2112
  dtbSize := (args.dtb.getD []).length
  dtbAddr := (args.base + args.dtbOffset).toNat

/-- The table's bytes, none in v3. -/
def Args.tableSection (args : Args) : List Byte :=
  if args.headerVersion > 3 then
    (args.vendorRamdiskTableBuilder.entries.map (·.record)).flatMap
      tableEntry.write
  else []

/-- The table's entries, none in v3. -/
def Args.tableRecords (args : Args) : List TableEntry :=
  if args.headerVersion > 3 then
    args.vendorRamdiskTableBuilder.entries.map (·.record)
  else []

/-- The bootconfig, none in v3. -/
def Args.bootconfigSection (args : Args) : List Byte :=
  if args.headerVersion > 3 then args.vendorBootconfig.getD [] else []

/-- The header's fields of v4. -/
def Args.vendorHeaderV4 (args : Args) : VendorHeaderV4 :=
  if args.headerVersion > 3 then
    { tableSize := args.vendorRamdiskTableBuilder.entries.length * 108
      entryNum := args.vendorRamdiskTableBuilder.entries.length
      entrySize := 108
      bootconfigSize := (args.vendorBootconfig.getD []).length }
  else
    { tableSize := 0
      entryNum := 0
      entrySize := 0
      bootconfigSize := 0 }

/-- The header in bytes. -/
def Args.vendorHeaderBytes (args : Args) (cmdline name : List Byte) :
    List Byte :=
  Bootimg.vendorBootHeader.write (args.vendorBootHeader cmdline name)
    ++ fromVersion 4 args Bootimg.vendorHeaderV4 args.vendorHeaderV4

theorem vendorBootMagic_valid : (Codec.text 8).Valid vendorBootMagic :=
  ⟨by decide, by decide⟩

theorem writeVendorBootHeaderV4Fields_spec {args : Args}
    {f out : List Byte}
    (h : writeVendorBootHeaderV4Fields args f = .ok out) :
    out = f ++ fromVersion 4 args Bootimg.vendorHeaderV4
        args.vendorHeaderV4
      ∧ (4 ≤ args.headerVersion →
          Bootimg.vendorHeaderV4.Valid args.vendorHeaderV4) := by
  unfold writeVendorBootHeaderV4Fields at h
  unfold fromVersion Args.vendorHeaderV4
  by_cases h4 : 4 ≤ args.headerVersion
  case neg =>
    rw [if_neg (by omega)] at h
    cases h
    rw [if_neg h4, List.append_nil]
    exact ⟨rfl, fun hcon => absurd hcon h4⟩
  case pos =>
    have h3 : args.headerVersion > 3 := by omega
    rw [if_pos h3] at h
    rw [if_pos h4, if_pos h3]
    simp only [write_packI_bind, write_packI] at h
    obtain ⟨htable, hnum, hentry, hconfig, rfl⟩ := h
    have htableNat : ((args.vendorRamdiskTableBuilder.entries.length : Int)
        * vendorRamdiskTableEntryV4Size).toNat
        = args.vendorRamdiskTableBuilder.entries.length * 108 := by
      unfold vendorRamdiskTableEntryV4Size
      omega
    have ht := htable.toNat_lt
    have hc := hconfig.toNat_lt
    rw [htableNat] at ht
    rw [filesize_toNat] at hc
    refine ⟨?_, fun _ => ⟨ht, hnum.toNat_lt, hentry.toNat_lt, hc⟩⟩
    rw [htableNat, filesize_toNat]
    simp only [List.append_assoc]
    rfl

/-- A vendor boot header that was written: what fits, and what it
holds. -/
theorem writeVendorBootHeader_spec {args : Args}
    {out cmdline name : List Byte}
    (hwf : args.vendorRamdiskTableBuilder.Wf)
    (h : writeVendorBootHeader args [] = .ok out)
    (hcmdline : field 2048 args.vendorCmdline = field 2048 cmdline)
    (hname : field 16 args.board = field 16 name)
    (hcmdline' : (Codec.text 2048).Valid cmdline)
    (hname' : (Codec.text 16).Valid name) :
    Bootimg.vendorBootHeader.Valid (args.vendorBootHeader cmdline name)
      ∧ (4 ≤ args.headerVersion →
          Bootimg.vendorHeaderV4.Valid args.vendorHeaderV4)
      ∧ out = padTo args.pagesize.val
          (args.vendorHeaderBytes cmdline name) := by
  have hramdiskSize : (if args.headerVersion > 3 then
        args.vendorRamdiskTableBuilder.ramdiskTotalSize
      else filesize args.vendorRamdisk).toNat
      = args.ramdiskSection.length := by
    unfold Args.ramdiskSection
    split
    · rw [hwf.total, Int.toNat_natCast]
    · rw [filesize_toNat]
  have hheaderSize : (if args.headerVersion > 3 then
        vendorBootImageHeaderV4Size
      else vendorBootImageHeaderV3Size).toNat
      = if args.headerVersion > 3 then 2128 else 2112 := by
    split <;> rfl
  unfold writeVendorBootHeader at h
  dsimp only at h
  split at h
  case isTrue => cases h
  case isFalse =>
    simp only [write_packS_bind, write_packI_bind, write_packQ_bind] at h
    obtain ⟨hversion, hpage, hkernel, hramdisk, hsection, htags, hsize,
      hdtb, hdtbAddr, h⟩ := h
    obtain ⟨f, hf, h⟩ := bind_eq_ok.mp h
    cases h
    obtain ⟨rfl, hvalid4⟩ := writeVendorBootHeaderV4Fields_spec hf
    have hs := hsection.toNat_lt
    have hh := hsize.toNat_lt
    have hd := hdtb.toNat_lt
    rw [hramdiskSize] at hs
    rw [hheaderSize] at hh
    rw [filesize_toNat] at hd
    refine ⟨⟨vendorBootMagic_valid, hversion.toNat_lt, hpage.toNat_lt,
      hkernel.toNat_lt, hramdisk.toNat_lt, hs, hcmdline', htags.toNat_lt,
      hname', hh, hd, hdtbAddr.toNat_lt⟩, hvalid4, ?_⟩
    rw [PageSize.padFile_eq]
    refine congrArg (padTo _) ?_
    rw [show vendorBootNameSize = 16 from rfl,
      show vendorBootArgsSize = 2048 from rfl, hcmdline, hname,
      hramdiskSize, hheaderSize]
    simp only [filesize_toNat, List.nil_append, List.append_assoc,
      Args.vendorHeaderBytes, Bootimg.vendorBootHeader, Codec.imap_write,
      Codec.pair_write, Codec.word_write, Codec.text_write]
    rfl

-- ============================================================== the data

/-- What stands behind the header. -/
def Args.vendorBody (args : Args) : List Byte :=
  let page := args.pagesize.val
  padTo page args.ramdiskSection ++ (padTo page (args.dtb.getD [])
    ++ (padTo page args.tableSection
      ++ padTo page args.bootconfigSection))

theorem foldl_append_ramdisk (es : List VendorRamdiskTableEntry)
    (f : List Byte) :
    es.foldl (fun f e => f ++ e.ramdisk) f = f ++ ramdiskSection es := by
  induction es generalizing f with
  | nil => exact (List.append_nil f).symm
  | cons e es ih =>
    rw [List.foldl_cons, ih, List.append_assoc]
    rfl

/-- The data that were written: their sections, and a table that fits. -/
theorem writeVendorBootData_spec {args : Args} {f out : List Byte}
    (hwf : args.vendorRamdiskTableBuilder.Wf)
    (hf : args.pagesize.val ∣ f.length)
    (h : writeVendorBootData args f = .ok out) :
    out = f ++ args.vendorBody
      ∧ (4 ≤ args.headerVersion →
          ∀ r ∈ args.vendorRamdiskTableBuilder.entries.map (·.record),
            tableEntry.Valid r) := by
  have hpos := args.pagesize.pos
  unfold writeVendorBootData at h
  unfold Args.vendorBody Args.ramdiskSection Args.tableSection
    Args.bootconfigSection
  dsimp only at h ⊢
  split at h
  next h3 =>
    rw [if_pos h3, if_pos h3, if_pos h3]
    have h1 := dvd_length_append_padTo hpos hf
      (ramdiskSection args.vendorRamdiskTableBuilder.entries)
    have h2 := dvd_length_append_padTo hpos h1 (args.dtb.getD [])
    obtain ⟨g, hg, h⟩ := bind_eq_ok.mp h
    cases h
    obtain ⟨g', hg', hg⟩ := bind_eq_ok.mp hg
    cases hg
    rw [VendorRamdiskTableBuilder.writeRamdisksPadded,
      foldl_append_ramdisk, args.pagesize.padFile_eq, padTo_append hf,
      args.pagesize.writePaddedFile_eq h1] at hg'
    obtain ⟨hvalid, rfl⟩ :=
      foldlM_writeEntry_spec hwf.text hwf.boardId hg'
    have h3 := dvd_length_append_padTo hpos h2
      ((args.vendorRamdiskTableBuilder.entries.map (·.record)).flatMap
        tableEntry.write)
    rw [args.pagesize.padFile_eq, padTo_append h2,
      args.pagesize.writePaddedFile_eq h3]
    refine ⟨?_, fun _ => hvalid⟩
    simp only [List.append_assoc]
  next h3 =>
    cases h
    rw [if_neg h3, if_neg h3, if_neg h3]
    have h1 := dvd_length_append_padTo hpos hf
      (args.vendorRamdisk.getD [])
    rw [args.pagesize.writePaddedFile_eq hf,
      args.pagesize.writePaddedFile_eq h1]
    refine ⟨?_, fun hcon => absurd hcon (by omega)⟩
    simp only [padTo_nil, List.append_nil, List.append_assoc]

-- =============================================================== reading

/-- What the arguments ask for, as a bootloader sees it. -/
def Args.vendorBootImage (args : Args) (cmdline name : List Byte) :
    VendorBootImage where
  headerVersion := args.headerVersion.toNat
  pageSize := args.pagesize.val
  kernelAddr := (args.base + args.kernelOffset).toNat
  ramdiskAddr := (args.base + args.ramdiskOffset).toNat
  tagsAddr := (args.base + args.tagsOffset).toNat
  cmdline := cmdline
  name := name
  dtb := args.dtb.getD []
  dtbAddr := (args.base + args.dtbOffset).toNat
  vendorRamdisk := args.ramdiskSection
  ramdisks :=
    if args.headerVersion > 3 then
      args.vendorRamdiskTableBuilder.entries.map (·.view)
    else []
  bootconfig := args.bootconfigSection

theorem readVendorHeaderV4_fromVersion {args : Args} {n : Nat}
    (hn : args.headerVersion = n)
    (h : 4 ≤ args.headerVersion →
      Bootimg.vendorHeaderV4.Valid args.vendorHeaderV4)
    (rest : List Byte) :
    readVendorHeaderV4 n (fromVersion 4 args Bootimg.vendorHeaderV4
      args.vendorHeaderV4 ++ rest) = some (args.vendorHeaderV4, rest) := by
  unfold readVendorHeaderV4 fromVersion
  by_cases h4 : 4 ≤ n
  · rw [if_pos h4, if_pos (by omega)]
    exact Bootimg.vendorHeaderV4.read_write rest (h (by omega))
  · rw [if_neg h4, if_neg (by omega), Args.vendorHeaderV4,
      if_neg (by omega)]
    rfl

theorem vendorHeaderBytes_length {args : Args} {cmdline name : List Byte}
    (hh : Bootimg.vendorBootHeader.Valid
      (args.vendorBootHeader cmdline name))
    (h4 : 4 ≤ args.headerVersion →
      Bootimg.vendorHeaderV4.Valid args.vendorHeaderV4) :
    (args.vendorHeaderBytes cmdline name).length
      = (args.vendorBootHeader cmdline name).headerSize := by
  unfold Args.vendorHeaderBytes fromVersion
  rw [List.length_append, Bootimg.vendorBootHeader.length_write hh,
    vendorBootHeader_width]
  show _ = if args.headerVersion > 3 then 2128 else 2112
  by_cases hfour : 4 ≤ args.headerVersion
  · rw [if_pos hfour, if_pos (by omega),
      Bootimg.vendorHeaderV4.length_write (h4 hfour),
      vendorHeaderV4_width]
  · rw [if_neg hfour, if_neg (by omega)]
    rfl

theorem tableSize_eq {args : Args}
    (h : 4 ≤ args.headerVersion →
      ∀ r ∈ args.vendorRamdiskTableBuilder.entries.map (·.record),
        tableEntry.Valid r) :
    args.vendorHeaderV4.tableSize = args.tableSection.length := by
  unfold Args.vendorHeaderV4 Args.tableSection
  split
  next h3 =>
    rw [tableEntry.length_flatMap_write (h (by omega)), List.length_map,
      tableEntry_width]
  next => rfl

theorem bootconfigSize_eq (args : Args) :
    args.vendorHeaderV4.bootconfigSize = args.bootconfigSection.length := by
  unfold Args.vendorHeaderV4 Args.bootconfigSection
  split <;> rfl

/-- The table is read back, and every ramdisk through it. -/
theorem readArray_tableSection {args : Args}
    (hwf : args.vendorRamdiskTableBuilder.Wf)
    (h : 4 ≤ args.headerVersion →
      ∀ r ∈ args.vendorRamdiskTableBuilder.entries.map (·.record),
        tableEntry.Valid r) :
    tableEntry.readArray args.vendorHeaderV4.entryNum args.tableSection
        = some (args.tableRecords, [])
      ∧ args.tableRecords.mapM (readRamdisk args.ramdiskSection)
        = some (args.vendorBootImage [] []).ramdisks := by
  unfold Args.vendorHeaderV4 Args.tableSection Args.ramdiskSection
    Args.vendorBootImage Args.tableRecords
  split
  next h3 =>
    refine ⟨?_, mapM_readRamdisk [] hwf.laid⟩
    have hread := tableEntry.readArray_flatMap_write (h (by omega)) []
    rwa [List.append_nil, List.length_map] at hread
  next => exact ⟨rfl, rfl⟩

/-- The readers, where every one of their steps succeeds. -/
theorem readVendorBootImage_eq_some {image rest rest1 : List Byte}
    {h : VendorBootHeader} {v4 : VendorHeaderV4}
    {hb ramdisk dtb table bootconfig : List Byte}
    {b1 b2 b3 b4 b5 b6 : List Byte} {entries : List TableEntry}
    {ramdisks : List VendorRamdisk}
    (hread : Bootimg.vendorBootHeader.read image = some (h, rest))
    (hguard : h.magic = vendorBootMagic
      ∧ (h.headerVersion = 3 ∨ h.headerVersion = 4))
    (hv4 : readVendorHeaderV4 h.headerVersion rest = some (v4, rest1))
    (hheader : takeSection h.pageSize h.headerSize image = some (hb, b1))
    (hramdisk : takeSection h.pageSize h.vendorRamdiskSize b1
      = some (ramdisk, b2))
    (hdtb : takeSection h.pageSize h.dtbSize b2 = some (dtb, b3))
    (htable : takeSection h.pageSize v4.tableSize b3 = some (table, b4))
    (hconfig : takeSection h.pageSize v4.bootconfigSize b4
      = some (bootconfig, b5))
    (hentries : tableEntry.readArray v4.entryNum table
      = some (entries, b6))
    (hramdisks : entries.mapM (readRamdisk ramdisk) = some ramdisks) :
    readVendorBootImage image = some
      { headerVersion := h.headerVersion
        pageSize := h.pageSize
        kernelAddr := h.kernelAddr
        ramdiskAddr := h.ramdiskAddr
        tagsAddr := h.tagsAddr
        cmdline := h.cmdline
        name := h.name
        dtb := dtb
        dtbAddr := h.dtbAddr
        vendorRamdisk := ramdisk
        ramdisks := ramdisks
        bootconfig := bootconfig }
      ∧ readRamdiskTable image = some entries := by
  unfold readVendorBootImage readRamdiskTable
  simp only [hread, Option.bind_eq_bind, Option.bind_some, if_pos hguard,
    hv4, hheader, hramdisk, hdtb, htable, hconfig, hentries, hramdisks]
  exact ⟨rfl, rfl⟩

/-- An image of its header and its sections is read back, and so is its
table. -/
theorem readVendorBootImage_vendorHeaderBytes {args : Args}
    {cmdline name : List Byte}
    (hv : args.headerVersion = 3 ∨ args.headerVersion = 4)
    (hwf : args.vendorRamdiskTableBuilder.Wf)
    (hh : Bootimg.vendorBootHeader.Valid
      (args.vendorBootHeader cmdline name))
    (h4 : 4 ≤ args.headerVersion →
      Bootimg.vendorHeaderV4.Valid args.vendorHeaderV4)
    (htable : 4 ≤ args.headerVersion →
      ∀ r ∈ args.vendorRamdiskTableBuilder.entries.map (·.record),
        tableEntry.Valid r) :
    readVendorBootImage
        (padTo args.pagesize.val (args.vendorHeaderBytes cmdline name)
          ++ args.vendorBody)
      = some (args.vendorBootImage cmdline name)
      ∧ readRamdiskTable
        (padTo args.pagesize.val (args.vendorHeaderBytes cmdline name)
          ++ args.vendorBody) = some args.tableRecords := by
  have hpage := args.pagesize.pos
  have hn : args.headerVersion = (args.headerVersion.toNat : Int) := by
    omega
  have hguard : (args.vendorBootHeader cmdline name).magic
        = vendorBootMagic
      ∧ ((args.vendorBootHeader cmdline name).headerVersion = 3
        ∨ (args.vendorBootHeader cmdline name).headerVersion = 4) := by
    refine ⟨rfl, ?_⟩
    show args.headerVersion.toNat = 3 ∨ args.headerVersion.toNat = 4
    omega
  obtain ⟨zeros, hzeros⟩ := exists_padTo_eq_append args.pagesize.val
    (args.vendorHeaderBytes cmdline name)
  have hread : Bootimg.vendorBootHeader.read
      (padTo args.pagesize.val (args.vendorHeaderBytes cmdline name)
        ++ args.vendorBody) = some (args.vendorBootHeader cmdline name,
        fromVersion 4 args Bootimg.vendorHeaderV4 args.vendorHeaderV4
          ++ (zeros ++ args.vendorBody)) := by
    rw [hzeros, Args.vendorHeaderBytes, List.append_assoc,
      List.append_assoc]
    exact Bootimg.vendorBootHeader.read_write _ hh
  have hheader := takeSection_padTo hpage
    (args.vendorHeaderBytes cmdline name) args.vendorBody
  rw [vendorHeaderBytes_length hh h4] at hheader
  have htableRead := takeSection_padTo hpage args.tableSection
    (padTo args.pagesize.val args.bootconfigSection)
  rw [← tableSize_eq htable] at htableRead
  have hconfig := takeSection_padTo hpage args.bootconfigSection []
  rw [← bootconfigSize_eq, List.append_nil] at hconfig
  obtain ⟨hrecords, hramdisks⟩ := readArray_tableSection hwf htable
  exact readVendorBootImage_eq_some hread hguard
    (readVendorHeaderV4_fromVersion hn h4 _) hheader
    (takeSection_padTo hpage _ _) (takeSection_padTo hpage _ _)
    htableRead hconfig hrecords hramdisks

end Edk2Exynos.Bootimg
