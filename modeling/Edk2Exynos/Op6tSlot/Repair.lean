/-
When the repair leaves a valid GPT. `FixGptCRC32` reads three blocks,
whatever the header says of the number and the size of the entries.

# The proof

- `fixGptCRC32_disk`: what the disk holds after the repair, once per way
  it can end when the disk calls succeed; `fixGptCRC32_status`: whether it
  ends with a status at all.
- `repaired_iff`: one disk is repaired exactly when the bytes read and
  the array have one checksum.
- A checksum sees every byte (`crc32_readBytes_ne`), so where the two
  ranges differ, some table of that geometry comes out wrong
  (`ranges_agree`); a repair that stops early leaves a stale field
  (`entryCrc_free`, `headerCrc_stale`).
-/
import Edk2Exynos.Op6tSlot.Checksum

namespace Edk2Exynos.Op6tSlot

open Lib
open BootSlot (EfiStatus efiError)

-- ======================================================= the GPT of a disk

/-- The ASCII string "EFI PART". -/
def gptSignature : List Byte :=
  [0x45, 0x46, 0x49, 0x20, 0x50, 0x41, 0x52, 0x54]

/-- A GPT header of 92 bytes at `lba1`, with the entries from LBA 2 on. -/
structure GptAt (lba1 : Nat) (count size : UINT32) (m : Mem) : Prop where
  signature : readBytes m lba1 8 = gptSignature
  headerSize : getLword m (lba1 + 12) = gptHeaderSize
  entryLba : getLlword m (lba1 + 72) = 2
  entryCount : getLword m (lba1 + 80) = count
  entrySize : getLword m (lba1 + 84) = size

/-- The entry array of a disk with blocks of `blockSize` bytes. -/
def entryArray (blockSize count size : UINT32) (m : Mem) : List Byte :=
  readBytes m (2 * blockSize.toNat) (count.toNat * size.toNat)

/-- Both checksums are right on `m'`, and nothing else has changed. -/
structure Repaired (blockSize count size : UINT32) (m m' : Mem) :
    Prop where
  entries : getLword m' (blockSize.toNat + 0x58)
    = crc32 (entryArray blockSize count size m')
  header : getLword m' (blockSize.toNat + 0x10)
    = crc32 (clearHeaderCrc (readBytes m' blockSize.toNat 92))
  frame : AgreeOutside (fun a =>
    (blockSize.toNat + 0x10 ≤ a ∧ a < blockSize.toNat + 0x14)
      ∨ (blockSize.toNat + 0x58 ≤ a ∧ a < blockSize.toNat + 0x5C)) m m'

-- ============================================================ what it does

/-- The disk calls of the repair succeed, -/
structure FixStatuses.DiskSucceeds (io : FixStatuses) : Prop where
  readEntry : efiError io.readEntry = false
  writeEntry : efiError io.writeEntry = false
  readHeader : efiError io.readHeader = false
  writeHeader : efiError io.writeHeader = false

/-- and those of the pool that it depends on: both buffers are allocated,
and the first is freed. -/
structure FixStatuses.PoolSucceeds (io : FixStatuses) : Prop where
  allocateEntry : efiError io.allocateEntry = false
  freeEntry : efiError io.freeEntry = false
  allocateHeader : efiError io.allocateHeader = false

/-- A repair from `s` comes to its end, and leaves a valid GPT. -/
structure RightFrom (io : FixStatuses) (media : Media) (disk : Nat)
    (count size : UINT32) (s : SlotState) : Prop where
  returns : (fixGptCRC32 io media disk s).1.isSome = true
  repaired : Repaired media.blockSize count size (s.disks disk)
    ((fixGptCRC32 io media disk s).2.disks disk)

/-- The number of bytes `calculate_crc32` takes for the entries. -/
def coveredLen (blockSize : UINT32) : Nat :=
  (gptEntryCount * blockSize).toInt.toNat

/-- The bytes it takes. -/
def covered (blockSize : UINT32) (m : Mem) : List Byte :=
  readBytes m (2 * blockSize).toNat (coveredLen blockSize)

/-- The disk with the checksum of the entries stored, -/
def storeEntryCrc (blockSize : UINT32) (m : Mem) : Mem :=
  putLong m (blockSize + 0x58).toNat (crc32 (covered blockSize m))

/-- and with that of the header. -/
def storeHeaderCrc (blockSize : UINT32) (m : Mem) : Mem :=
  putLong m (blockSize + 0x10).toNat
    (crc32 (clearHeaderCrc (readBytes m blockSize.toNat 92)))

theorem readBytes_take (m : Mem) (a : Nat) {n k : Nat} (hk : k ≤ n) :
    (readBytes m a n).take k = readBytes m a k := by
  obtain ⟨d, rfl⟩ := Nat.exists_eq_add_of_le hk
  rw [readBytes_add, List.take_left' (readBytes_length m a k)]

theorem toInt_toNat_le (x : UINT32) : x.toInt.toNat ≤ x.toNat := by
  rw [BitVec.toInt_eq_toNat_cond]
  split <;> omega

/-- The checksum of the entries is one of the covered bytes. -/
theorem calculateCrc32_entries (blockSize : UINT32) (m : Mem) :
    calculateCrc32 (readBytes m (2 * blockSize).toNat
        (gptEntryCount * blockSize).toNat) (gptEntryCount * blockSize)
      = crc32 (covered blockSize m) := by
  rw [calculateCrc32_eq, readBytes_take _ _ (toInt_toNat_le _)]
  rfl

/-- The checksum of the header is that of its 92 bytes. -/
theorem calculateCrc32_header (m : Mem) (a : Nat) :
    calculateCrc32 (clearHeaderCrc (readBytes m a gptHeaderSize.toNat))
        gptHeaderSize
      = crc32 (clearHeaderCrc (readBytes m a 92)) := by
  have hlen : (clearHeaderCrc (readBytes m a 92)).length = 92 := by
    simp [clearHeaderCrc, gptHeaderCrc32Lba1Offset, gptCrc32Len]
  have hint : gptHeaderSize.toInt.toNat = 92 := by decide
  rw [calculateCrc32_eq, hint, show gptHeaderSize.toNat = 92 from rfl,
    List.take_of_length_le (Nat.le_of_eq hlen)]

theorem toNat_widened (x : UINT32) :
    (x.setWidth 64 : UINT64).toNat = x.toNat := by
  rw [BitVec.toNat_setWidth, Nat.mod_eq_of_lt (by omega)]

/-- A write that succeeds. -/
theorem writeDisk_disks_of_success {s : SlotState} {status : EfiStatus}
    (h : efiError status = false) (w : SlotWrite) :
    (s.writeDisk status w).disks w.disk
      = writeBytes (s.disks w.disk) w.offset.toNat w.data := by
  unfold SlotState.writeDisk
  simp only [h, Bool.false_eq_true, if_false]
  exact applyWrite_same _ ⟨w.disk, w.offset.toNat, w.data⟩

section

variable (io : FixStatuses) (media : Media) (disk : Nat)

/-- A repair that comes to the header without a buffer has no status. -/
theorem fixGptCRC32_status (hio : io.DiskSucceeds) (s : SlotState) :
    (fixGptCRC32 io media disk s).1.isSome = true
      ↔ efiError io.allocateEntry = true ∨ efiError io.freeEntry = true
        ∨ efiError io.allocateHeader = false := by
  unfold fixGptCRC32
  simp only [hio.readEntry, hio.writeEntry, hio.readHeader,
    hio.writeHeader, Bool.false_eq_true, if_false]
  split
  next halloc => simp [halloc]
  next halloc =>
    split
    next hfree => simp [hfree]
    next hfree =>
      split
      next hheader => simp [halloc, hfree, hheader]
      next hheader =>
        split
        · simp [hheader]
        · simp [hheader]

/-- The entries' checksum is written over what the disk then holds, -/
theorem writeEntryCrc_disks (hio : io.DiskSucceeds) (t : SlotState) :
    (t.writeDisk io.writeEntry (SlotPlace.entryCrc.writeOn disk media
      (getResultArray (calculateCrc32 (t.readDisk disk
        ((2 * media.blockSize).setWidth 64)
        (gptEntryCount * media.blockSize).toNat)
        (gptEntryCount * media.blockSize))))).disks disk
      = storeEntryCrc media.blockSize (t.disks disk) := by
  refine (writeDisk_disks_of_success hio.writeEntry _).trans ?_
  simp only [SlotPlace.writeOn, SlotPlace.offset, SlotState.readDisk,
    toNat_widened, calculateCrc32_entries]
  rfl

/-- and so is the header's. -/
theorem writeHeaderCrc_disks (hio : io.DiskSucceeds) (t : SlotState) :
    (t.writeDisk io.writeHeader (SlotPlace.headerCrc.writeOn disk media
      (getResultArray (calculateCrc32 (clearHeaderCrc (t.readDisk disk
        (media.blockSize.setWidth 64) gptHeaderSize.toNat))
        gptHeaderSize)))).disks disk
      = storeHeaderCrc media.blockSize (t.disks disk) := by
  refine (writeDisk_disks_of_success hio.writeHeader _).trans ?_
  simp only [SlotPlace.writeOn, SlotPlace.offset, SlotState.readDisk,
    toNat_widened, calculateCrc32_header]
  rfl

/-- What the disk holds afterwards: a repair that cannot allocate changes
nothing, and one that cannot free the first buffer, or allocate the
second, stops halfway. -/
theorem fixGptCRC32_disk (hio : io.DiskSucceeds) (s : SlotState) :
    (fixGptCRC32 io media disk s).2.disks disk
      = if efiError io.allocateEntry then s.disks disk
        else if efiError io.freeEntry || efiError io.allocateHeader then
          storeEntryCrc media.blockSize (s.disks disk)
        else storeHeaderCrc media.blockSize
          (storeEntryCrc media.blockSize (s.disks disk)) := by
  have hentry := writeEntryCrc_disks io media disk hio
  have hheader := writeHeaderCrc_disks io media disk hio
  unfold fixGptCRC32
  simp only [hio.readEntry, hio.writeEntry, hio.readHeader,
    hio.writeHeader, Bool.false_eq_true, if_false]
  split
  · rfl
  split
  next hfree =>
    rw [if_pos (by simp [hfree])]
    exact hentry s
  next hfree =>
    split
    next hnone =>
      rw [if_pos (by simp [hnone])]
      exact hentry s
    next hsome =>
      have hor : (efiError io.freeEntry || efiError io.allocateHeader)
          = false := by simp [hfree, hsome]
      simp only [hor, Bool.false_eq_true, if_false]
      split
      · rw [hheader, hentry]
      · rw [hheader, hentry]

end

-- ============================================================ one disk

/-- The checksum field is no part of what the header's checksum covers. -/
theorem clearHeaderCrc_congr {m m' : Mem} {a : Nat}
    (hlow : ∀ i, i < 0x10 → m' (a + i) = m (a + i))
    (hhigh : ∀ i, 0x14 ≤ i → i < 92 → m' (a + i) = m (a + i)) :
    clearHeaderCrc (readBytes m' a 92)
      = clearHeaderCrc (readBytes m a 92) := by
  have hclear : ∀ d : Mem, clearHeaderCrc (readBytes d a 92)
      = readBytes d a 0x10 ++ List.replicate 4 0
        ++ readBytes d (a + 0x14) 72 := fun _ => rfl
  have hhead : readBytes m' a 0x10 = readBytes m a 0x10 :=
    readBytes_congr hlow
  have htail : readBytes m' (a + 0x14) 72 = readBytes m (a + 0x14) 72 := by
    refine readBytes_congr fun i hi => ?_
    rw [Nat.add_assoc]
    exact hhigh (0x14 + i) (by omega) (by omega)
  rw [hclear, hclear, hhead, htail]

section

variable {blockSize count size : UINT32} (m : Mem)

/-- The fields lie where they should. -/
theorem field_toNat {k : UINT32} (hB : blockSize.toNat + 0x58 < 2 ^ 32)
    (hk : k.toNat ≤ 0x58) :
    (blockSize + k).toNat = blockSize.toNat + k.toNat := by
  rw [BitVec.toNat_add, Nat.mod_eq_of_lt (by omega)]

/-- A disk is repaired exactly when what was read has the checksum of the
array. -/
theorem repaired_iff (h92 : 92 ≤ blockSize.toNat)
    (hB : blockSize.toNat + 0x58 < 2 ^ 32) :
    Repaired blockSize count size m
        (storeHeaderCrc blockSize (storeEntryCrc blockSize m))
      ↔ crc32 (covered blockSize m)
        = crc32 (entryArray blockSize count size m) := by
  have he : (blockSize + 0x58).toNat = blockSize.toNat + 0x58 :=
    field_toNat hB (by decide)
  have hh : (blockSize + 0x10).toNat = blockSize.toNat + 0x10 :=
    field_toNat hB (by decide)
  unfold storeHeaderCrc
  generalize hm1 : storeEntryCrc blockSize m = m1
  generalize hc2 : crc32 (clearHeaderCrc _) = c2
  rw [storeEntryCrc, he] at hm1
  rw [hh]
  have hfield : getLword (putLong m1 (blockSize.toNat + 0x10) c2)
      (blockSize.toNat + 0x58) = crc32 (covered blockSize m) := by
    rw [getLword_putLong_disjoint (by omega), ← hm1]
    exact getLword_putLong _ _ _
  have harray : entryArray blockSize count size
      (putLong m1 (blockSize.toNat + 0x10) c2)
        = entryArray blockSize count size m := by
    unfold entryArray
    rw [readBytes_putLong_disjoint (by omega), ← hm1,
      readBytes_putLong_disjoint (by omega)]
  constructor
  · intro h
    have hentries := h.entries
    rwa [hfield, harray] at hentries
  · intro h
    refine ⟨by rw [hfield, harray, h], ?_, ?_⟩
    · rw [getLword_putLong, ← hc2]
      refine congrArg crc32 (clearHeaderCrc_congr ?_ ?_).symm
      · exact fun i hi => writeBytes_outside (by omega)
      · exact fun i hi _ => writeBytes_outside (by simp; omega)
    · rw [← hm1]
      refine ((AgreeOutside.refl _ m).write ?_).write ?_
      · intro x hle hlt
        rw [bytesOfLong_length] at hlt
        exact Or.inr ⟨hle, by omega⟩
      · intro x hle hlt
        rw [bytesOfLong_length] at hlt
        exact Or.inl ⟨hle, by omega⟩

end

-- ===================================================== tables of a shape

/-- A header with everything else zero. -/
def blankHeader (count size : UINT32) : List Byte :=
  gptSignature ++ List.replicate 4 0 ++ bytesOfLong gptHeaderSize
    ++ List.replicate 56 0 ++ bytesOfLongLong 2
    ++ bytesOfLong count ++ bytesOfLong size ++ List.replicate 4 0

theorem blankHeader_length (count size : UINT32) :
    (blankHeader count size).length = 92 := rfl

theorem gptAt_blankHeader (m : Mem) (lba1 : Nat) (count size : UINT32) :
    GptAt lba1 count size (writeBytes m lba1 (blankHeader count size)) := by
  have hread : ∀ k n, k + n ≤ 92 →
      readBytes (writeBytes m lba1 (blankHeader count size)) (lba1 + k) n
        = ((blankHeader count size).drop k).take n := fun k n h =>
    readBytes_writeBytes_inside (Nat.le_trans h
      (Nat.le_of_eq (blankHeader_length count size).symm))
  exact {
    signature := hread 0 8 (by decide)
    headerSize := getLword_of_readBytes (hread 12 4 (by decide))
    entryLba := getLlword_of_readBytes (hread 72 8 (by decide))
    entryCount := getLword_of_readBytes (hread 80 4 (by decide))
    entrySize := getLword_of_readBytes (hread 84 4 (by decide)) }

/-- The addresses whose bytes the shape of the table leaves open. -/
def Open (lba1 a : Nat) : Prop :=
  a < lba1 ∨ (lba1 + 0x10 ≤ a ∧ a < lba1 + 0x14) ∨ lba1 + 0x58 ≤ a

theorem GptAt.congr {lba1 : Nat} {count size : UINT32} {m m' : Mem}
    (h : GptAt lba1 count size m) (hm : AgreeOutside (Open lba1) m m') :
    GptAt lba1 count size m' := by
  have hread : ∀ k n, (k + n ≤ 0x10 ∨ 0x14 ≤ k ∧ k + n ≤ 0x58) →
      readBytes m' (lba1 + k) n = readBytes m (lba1 + k) n := by
    intro k n hk
    refine hm.readBytes fun i hi => ?_
    unfold Open
    omega
  exact {
    signature := (hread 0 8 (by decide)).trans h.signature
    headerSize := (getLword_congr (hread 12 4 (by decide))).trans
      h.headerSize
    entryLba := (getLlword_congr (hread 72 8 (by decide))).trans h.entryLba
    entryCount := (getLword_congr (hread 80 4 (by decide))).trans
      h.entryCount
    entrySize := (getLword_congr (hread 84 4 (by decide))).trans
      h.entrySize }

/-- If two ranges have one checksum on all tables of a shape, an open byte
of the one is a byte of the other. -/
theorem range_covered {lba1 a p b q x : Nat} {count size : UINT32}
    (h : ∀ m, GptAt lba1 count size m →
      crc32 (readBytes m a p) = crc32 (readBytes m b q))
    (hx : Open lba1 x) (hle : a ≤ x) (hlt : x < a + p) :
    b ≤ x ∧ x < b + q := by
  by_contra hout
  -- a table of the shape, and the same with another byte at `x`
  let m := writeBytes (fun _ => 0) lba1 (blankHeader count size)
  let m' := writeBytes m x [m x + 1]
  have hm : GptAt lba1 count size m := gptAt_blankHeader _ lba1 count size
  have hm' : GptAt lba1 count size m' := by
    refine hm.congr ((AgreeOutside.refl _ m).write fun y hy hy' => ?_)
    rw [List.length_singleton] at hy'
    rwa [show y = x by omega]
  have hsame : readBytes m' b q = readBytes m b q :=
    readBytes_writeBytes_disjoint (by rw [List.length_singleton]; omega)
  have hother : crc32 (readBytes m' a p) ≠ crc32 (readBytes m a p) := by
    refine crc32_readBytes_ne (k := x - a) (by omega) ?_ ?_
    · rw [Nat.add_sub_cancel' hle]
      have hone : m' x = m x + 1 :=
        writeBytes_inside (i := 0) (by simp)
      rw [hone]
      simp
    · intro i hi
      exact writeBytes_outside (by rw [List.length_singleton]; omega)
  exact hother (by rw [h m' hm', h m hm, hsame])

/-- The repair covers the array: it reads as many bytes as the header
says, from where the entries begin, and finds the header's fields. -/
def Covers (blockSize count size : UINT32) : Prop :=
  coveredLen blockSize = count.toNat * size.toNat
    ∧ (2 * blockSize.toNat < 2 ^ 32 ∨ coveredLen blockSize = 0)
    ∧ blockSize.toNat + 0x58 < 2 ^ 32

section

variable {blockSize count size : UINT32}

theorem coveredLen_lt (blockSize : UINT32) :
    coveredLen blockSize < 2 ^ 31 := by
  have h := BitVec.toInt_lt (x := gptEntryCount * blockSize)
  unfold coveredLen
  omega

theorem covered_eq (h : Covers blockSize count size) (m : Mem) :
    covered blockSize m = entryArray blockSize count size m := by
  unfold covered entryArray
  rw [h.1]
  rcases h.2.1 with hlow | hzero
  · rw [BitVec.toNat_mul]
    congr 1
    exact Nat.mod_eq_of_lt hlow
  · rw [← h.1, hzero]
    rfl

/-- With blocks of up to 682 MiB, that is three blocks of entries. -/
theorem covers_iff (h : 3 * blockSize.toNat < 2 ^ 31) :
    Covers blockSize count size
      ↔ 3 * blockSize.toNat = count.toNat * size.toNat := by
  have hnat : (gptEntryCount * blockSize).toNat = 3 * blockSize.toNat := by
    rw [BitVec.toNat_mul]
    exact Nat.mod_eq_of_lt (by simp [gptEntryCount]; omega)
  have hlen : coveredLen blockSize = 3 * blockSize.toNat := by
    unfold coveredLen
    rw [BitVec.toInt_eq_toNat_cond, hnat, if_pos (by omega),
      Int.toNat_natCast]
  unfold Covers
  rw [hlen]
  omega

/-- The two ranges have one checksum on all tables of a shape only when
they are the same. -/
theorem ranges_agree (h92 : 92 ≤ blockSize.toNat)
    (h : ∀ m, GptAt blockSize.toNat count size m →
      crc32 (covered blockSize m)
        = crc32 (entryArray blockSize count size m)) :
    coveredLen blockSize = count.toNat * size.toNat
      ∧ (2 * blockSize.toNat < 2 ^ 32 ∨ coveredLen blockSize = 0) := by
  have hforth := fun x => range_covered (x := x) h
  have hback := fun x =>
    range_covered (x := x) fun m hm => (h m hm).symm
  have hmul : (2 * blockSize).toNat = 2 * blockSize.toNat % 2 ^ 32 :=
    BitVec.toNat_mul 2 blockSize
  have hlen := coveredLen_lt blockSize
  have hsize := blockSize.isLt
  unfold Open at hforth hback
  generalize coveredLen blockSize = p at hforth hback hlen ⊢
  generalize count.toNat * size.toNat = q at hforth hback ⊢
  rcases Nat.lt_or_ge (2 * blockSize.toNat) (2 ^ 32) with hfit | hwrap
  · rw [Nat.mod_eq_of_lt hfit] at hmul
    refine ⟨?_, Or.inl hfit⟩
    rcases Nat.lt_trichotomy p q with hlt | heq | hgt
    · have hx := hback (2 * blockSize.toNat + p) (by omega) (by omega)
        (by omega)
      omega
    · exact heq
    · have hx := hforth (2 * blockSize.toNat + q) (by omega) (by omega)
        (by omega)
      omega
  · -- the offset wraps: neither range is inside the other
    have hq : q = 0 := by
      by_contra hpos
      have hx := hback (2 * blockSize.toNat) (by omega) (by omega)
        (by omega)
      omega
    have hp : p = 0 := by
      by_contra hpos
      have hx := hforth (2 * blockSize).toNat (by omega) (by omega)
        (by omega)
      omega
    exact ⟨hp.trans hq.symm, Or.inr hp⟩

end

-- ======================================================== stale fields

section

variable {blockSize : UINT32} (count size : UINT32)

/-- Nothing about the shape of a table makes its stored checksum right. -/
theorem entryCrc_free (h92 : 92 ≤ blockSize.toNat) :
    ∃ m, GptAt blockSize.toNat count size m
      ∧ getLword m (blockSize.toNat + 0x58)
        ≠ crc32 (entryArray blockSize count size m) := by
  let m := writeBytes (fun _ => 0) blockSize.toNat (blankHeader count size)
  let stale := crc32 (entryArray blockSize count size m) + 1
  refine ⟨putLong m (blockSize.toNat + 0x58) stale, ?_, ?_⟩
  · refine (gptAt_blankHeader _ _ count size).congr
      ((AgreeOutside.refl _ m).write fun x hx _ => ?_)
    exact Or.inr (Or.inr hx)
  · have harray : entryArray blockSize count size
        (putLong m (blockSize.toNat + 0x58) stale)
          = entryArray blockSize count size m :=
      readBytes_putLong_disjoint (by omega)
    rw [getLword_putLong, harray]
    simp [stale]

/-- So a disk that has changed in front of the field only is not
repaired. -/
theorem not_repaired_below (h92 : 92 ≤ blockSize.toNat) {f : Mem → Mem}
    (hf : ∀ m, AgreeOutside (· < blockSize.toNat + 0x14) m (f m)) :
    ∃ m, GptAt blockSize.toNat count size m
      ∧ ¬ Repaired blockSize count size m (f m) := by
  obtain ⟨m, hm, hstale⟩ := entryCrc_free count size h92
  refine ⟨m, hm, fun hrep => hstale ?_⟩
  have hfield : getLword (f m) (blockSize.toNat + 0x58)
      = getLword m (blockSize.toNat + 0x58) :=
    getLword_congr ((hf m).readBytes fun i _ => by omega)
  have harray : entryArray blockSize count size (f m)
      = entryArray blockSize count size m :=
    (hf m).readBytes fun i _ => by omega
  rw [← hfield, ← harray]
  exact hrep.entries

/-- A repair that stops after the entries leaves the header's field. -/
theorem headerCrc_stale (h92 : 92 ≤ blockSize.toNat)
    (hc : Covers blockSize count size) :
    ∃ m, GptAt blockSize.toNat count size m
      ∧ ¬ Repaired blockSize count size m (storeEntryCrc blockSize m) := by
  let m := writeBytes (fun _ => 0) blockSize.toNat (blankHeader count size)
  let stale := crc32 (clearHeaderCrc
    (readBytes (storeEntryCrc blockSize m) blockSize.toNat 92)) + 1
  let m' := putLong m (blockSize.toNat + 0x10) stale
  have hplace : (blockSize + 0x58).toNat = blockSize.toNat + 0x58 :=
    field_toNat hc.2.2 (by decide)
  have hcovered : covered blockSize m' = covered blockSize m := by
    rw [covered_eq hc, covered_eq hc]
    exact readBytes_putLong_disjoint (by omega)
  have hother : ∀ x, (x < blockSize.toNat + 0x10
      ∨ blockSize.toNat + 0x14 ≤ x) →
      storeEntryCrc blockSize m' x = storeEntryCrc blockSize m x := by
    intro x hx
    have hm : m' x = m x := writeBytes_outside hx
    unfold storeEntryCrc putLong writeBytes
    rw [hcovered, hm]
  have hclear : clearHeaderCrc
      (readBytes (storeEntryCrc blockSize m') blockSize.toNat 92)
        = clearHeaderCrc
          (readBytes (storeEntryCrc blockSize m) blockSize.toNat 92) :=
    clearHeaderCrc_congr (fun i hi => hother _ (by omega))
      (fun i hi _ => hother _ (by omega))
  have hfield : getLword (storeEntryCrc blockSize m')
      (blockSize.toNat + 0x10) = stale := by
    unfold storeEntryCrc
    rw [hplace, getLword_putLong_disjoint (by omega)]
    exact getLword_putLong m (blockSize.toNat + 0x10) stale
  refine ⟨m', ?_, fun hrep => ?_⟩
  · refine (gptAt_blankHeader _ _ count size).congr
      ((AgreeOutside.refl _ m).write fun x hx hx' => ?_)
    exact Or.inr (Or.inl ⟨hx, hx'⟩)
  · have hheader := hrep.header
    rw [hfield, hclear] at hheader
    simp [stale] at hheader

end

-- ============================================================== the result

section

variable {blockSize : UINT32}

/-- Storing the header's checksum reaches no further than its field, -/
theorem storeHeaderCrc_below (m : Mem) :
    AgreeOutside (· < blockSize.toNat + 0x14) m
      (storeHeaderCrc blockSize m) := by
  have hplace := BitVec.toNat_add blockSize 0x10
  have hle := Nat.mod_le (blockSize.toNat + 0x10) (2 ^ 32)
  refine (AgreeOutside.refl _ m).write fun x _ hx => ?_
  rw [bytesOfLong_length, hplace] at hx
  exact Nat.lt_of_lt_of_le hx (by simpa using hle)

/-- and an offset that wraps puts that of the entries in front of it. -/
theorem storeEntryCrc_below (hwrap : 2 ^ 32 ≤ blockSize.toNat + 0x58)
    (m : Mem) :
    AgreeOutside (· < blockSize.toNat + 0x14) m
      (storeEntryCrc blockSize m) := by
  have hplace : (blockSize + 0x58).toNat
      = (blockSize.toNat + 0x58) % 2 ^ 32 := BitVec.toNat_add _ _
  have hlt := blockSize.isLt
  refine (AgreeOutside.refl _ m).write fun x _ hx => ?_
  rw [bytesOfLong_length, hplace] at hx
  omega

/-- So does a repair that stops halfway or comes to its end. -/
theorem storeCrcs_below (hwrap : 2 ^ 32 ≤ blockSize.toNat + 0x58)
    (halfway : Bool) (m : Mem) :
    AgreeOutside (· < blockSize.toNat + 0x14) m
      (if halfway then storeEntryCrc blockSize m
        else storeHeaderCrc blockSize (storeEntryCrc blockSize m)) := by
  have hentry := storeEntryCrc_below hwrap m
  split
  · exact hentry
  · exact hentry.trans (storeHeaderCrc_below _)

/-- Halfway or at its end, a repair that is right took the checksum of the
array. -/
theorem crc32_eq_of_repaired {count size : UINT32} {m : Mem}
    (h92 : 92 ≤ blockSize.toNat) (hfit : blockSize.toNat + 0x58 < 2 ^ 32)
    (halfway : Bool)
    (h : Repaired blockSize count size m
      (if halfway then storeEntryCrc blockSize m
        else storeHeaderCrc blockSize (storeEntryCrc blockSize m))) :
    crc32 (covered blockSize m)
      = crc32 (entryArray blockSize count size m) := by
  have hplace : (blockSize + 0x58).toNat = blockSize.toNat + 0x58 :=
    field_toNat hfit (by decide)
  split at h
  · have hentries := h.entries
    unfold storeEntryCrc entryArray at hentries
    rwa [hplace, getLword_putLong, readBytes_putLong_disjoint (by omega)]
      at hentries
  · exact (repaired_iff m h92 hfit).mp h

end

section

variable (io : FixStatuses) (media : Media) (disk : Nat)
  {count size : UINT32}

/-- With all calls successful and offsets that fit, what decides is the
checksum of what is read. -/
theorem rightFrom_iff (hio : io.DiskSucceeds) (hpool : io.PoolSucceeds)
    (h92 : 92 ≤ media.blockSize.toNat)
    (hfit : media.blockSize.toNat + 0x58 < 2 ^ 32) (s : SlotState) :
    RightFrom io media disk count size s
      ↔ crc32 (covered media.blockSize (s.disks disk))
        = crc32 (entryArray media.blockSize count size
            (s.disks disk)) := by
  have hdisk : (fixGptCRC32 io media disk s).2.disks disk
      = storeHeaderCrc media.blockSize
          (storeEntryCrc media.blockSize (s.disks disk)) := by
    rw [fixGptCRC32_disk io media disk hio]
    simp [hpool.allocateEntry, hpool.freeEntry, hpool.allocateHeader]
  have hstatus : (fixGptCRC32 io media disk s).1.isSome = true :=
    (fixGptCRC32_status io media disk hio s).mpr
      (Or.inr (Or.inr hpool.allocateHeader))
  have hrep : Repaired media.blockSize count size (s.disks disk)
        (storeHeaderCrc media.blockSize
          (storeEntryCrc media.blockSize (s.disks disk)))
      ↔ crc32 (covered media.blockSize (s.disks disk))
        = crc32 (entryArray media.blockSize count size
            (s.disks disk)) := repaired_iff (s.disks disk) h92 hfit
  constructor
  · intro h
    have hright := h.repaired
    rw [hdisk] at hright
    exact hrep.mp hright
  · intro h
    refine ⟨hstatus, ?_⟩
    rw [hdisk]
    exact hrep.mpr h

/-- A repair that is right on every table of a shape completes and covers
the array. -/
theorem covers_of_right (hio : io.DiskSucceeds)
    (h92 : 92 ≤ media.blockSize.toNat)
    (h : ∀ s : SlotState,
      GptAt media.blockSize.toNat count size (s.disks disk) →
        RightFrom io media disk count size s) :
    io.PoolSucceeds ∧ Covers media.blockSize count size := by
  have hrep : ∀ m, GptAt media.blockSize.toNat count size m →
      Repaired media.blockSize count size m
        (if efiError io.allocateEntry then m
         else if efiError io.freeEntry || efiError io.allocateHeader then
          storeEntryCrc media.blockSize m
         else storeHeaderCrc media.blockSize
          (storeEntryCrc media.blockSize m)) := by
    intro m hm
    have hs := (h ⟨fun _ => m, []⟩ hm).repaired
    rwa [fixGptCRC32_disk io media disk hio] at hs
  have halloc : efiError io.allocateEntry = false := by
    by_contra hne
    obtain ⟨m, hm, hbad⟩ := not_repaired_below count size h92
      (f := fun m => m) fun m => AgreeOutside.refl _ m
    have hm' := hrep m hm
    rw [if_pos (by simpa using hne)] at hm'
    exact hbad hm'
  simp only [halloc, Bool.false_eq_true, if_false] at hrep
  have hfit : media.blockSize.toNat + 0x58 < 2 ^ 32 := by
    by_contra hwrap
    obtain ⟨m, hm, hbad⟩ := not_repaired_below count size h92
      (storeCrcs_below (Nat.le_of_not_lt hwrap) _)
    exact hbad (hrep m hm)
  have hsame : ∀ m, GptAt media.blockSize.toNat count size m →
      crc32 (covered media.blockSize m)
        = crc32 (entryArray media.blockSize count size m) :=
    fun m hm => crc32_eq_of_repaired h92 hfit _ (hrep m hm)
  have hagree := ranges_agree h92 hsame
  have hcovers : Covers media.blockSize count size :=
    ⟨hagree.1, hagree.2, hfit⟩
  -- else the header's field is left as it was
  have hends : (efiError io.freeEntry || efiError io.allocateHeader)
      = false := by
    by_contra hne
    obtain ⟨m, hm, hbad⟩ := headerCrc_stale count size h92 hcovers
    have hm' := hrep m hm
    rw [if_pos (Bool.eq_true_of_not_eq_false hne)] at hm'
    exact hbad hm'
  obtain ⟨hfree, hheader⟩ := Bool.or_eq_false_iff.mp hends
  exact ⟨⟨halloc, hfree, hheader⟩, hcovers⟩

/-- When the repair is right on every disk whose GPT has this many entries
of this size; and on which disks it is, field offsets that fit provided. -/
theorem fixGptCRC32_right_iff (count size : UINT32)
    (hio : io.DiskSucceeds) (h92 : 92 ≤ media.blockSize.toNat) :
    ((∀ s : SlotState,
        GptAt media.blockSize.toNat count size (s.disks disk) →
          RightFrom io media disk count size s)
      ↔ io.PoolSucceeds ∧ Covers media.blockSize count size)
    ∧ (io.PoolSucceeds → media.blockSize.toNat + 0x58 < 2 ^ 32 →
        ∀ s : SlotState,
          RightFrom io media disk count size s
            ↔ crc32 (covered media.blockSize (s.disks disk))
              = crc32 (entryArray media.blockSize count size
                  (s.disks disk))) := by
  refine ⟨⟨covers_of_right io media disk hio h92, ?_⟩,
    fun hpool hfit => rightFrom_iff io media disk hio hpool h92 hfit⟩
  rintro ⟨hpool, hcovers⟩ s -
  refine (rightFrom_iff io media disk hio hpool h92 hcovers.2.2 s).mpr ?_
  rw [covered_eq hcovers]

end

/-- A medium of 512-byte blocks. -/
def media512 : Media := ⟨false, 0, 512⟩

theorem fixGptCRC32_right_iff_twelve :
    ((∀ s : SlotState, GptAt 512 12 128 (s.disks 0) →
        RightFrom goodStatuses media512 0 12 128 s)
      ↔ goodStatuses.PoolSucceeds ∧ Covers 512 12 128)
    ∧ (goodStatuses.PoolSucceeds → (512 : UINT32).toNat + 0x58 < 2 ^ 32 →
        ∀ s : SlotState,
          RightFrom goodStatuses media512 0 12 128 s
            ↔ crc32 (covered 512 (s.disks 0))
              = crc32 (entryArray 512 12 128 (s.disks 0))) :=
  fixGptCRC32_right_iff goodStatuses media512 0 12 128
    ⟨by decide, by decide, by decide, by decide⟩ (by decide)

-- ====================================================== the usual table

/-- A table of 128 entries: zeros behind four bytes that bring the
register of the checksum to zero, -/
def zeroTable : Mem :=
  writeBytes (writeBytes (fun _ => 0) 512 (blankHeader 128 128)) 1024
    [0xFF, 0xFF, 0xFF, 0xFF]

/-- and the same with one byte more in its fourth block. -/
def longTable : Mem := writeBytes zeroTable 2560 [1]

theorem crc32_zeroTable {n : Nat} (hn : 4 ≤ n) :
    crc32 (readBytes zeroTable 1024 n) = 0xFFFFFFFF := by
  obtain ⟨k, rfl⟩ := Nat.exists_eq_add_of_le hn
  have hhead : readBytes zeroTable 1024 4 = [0xFF, 0xFF, 0xFF, 0xFF] :=
    readBytes_writeBytes_same rfl
  have hzeros : readBytes zeroTable (1024 + 4) k
      = List.replicate k 0 := by
    unfold zeroTable
    rw [readBytes_writeBytes_disjoint (by simp),
      readBytes_writeBytes_disjoint (by simp [blankHeader_length])]
    simp [readBytes]
  rw [readBytes_add, hhead, hzeros, crc32, List.foldl_append]
  have hreg : [0xFF, 0xFF, 0xFF, 0xFF].foldl crc32Byte 0xFFFFFFFF#32 = 0 := by
    decide +kernel
  rw [hreg, foldl_crc32Byte_zeros]
  rfl

theorem fixGptCRC32_misses_entries :
    GptAt 512 128 128 longTable
      ∧ ¬ RightFrom goodStatuses media512 0 128 128
          ⟨fun _ => longTable, []⟩ := by
  constructor
  · refine (gptAt_blankHeader _ 512 128 128).congr
      (((AgreeOutside.refl _ _).write fun x hx _ => ?_).write
        fun x hx _ => ?_)
    · exact Or.inr (Or.inr (by omega))
    · exact Or.inr (Or.inr (by omega))
  · intro hrep
    have hcrc := (rightFrom_iff goodStatuses media512 0
      ⟨by decide, by decide, by decide, by decide⟩
      ⟨by decide, by decide, by decide⟩
      (by decide) (by decide) ⟨fun _ => longTable, []⟩).mp hrep
    have hread : covered 512 longTable = readBytes zeroTable 1024 1536 :=
      readBytes_writeBytes_disjoint (by decide)
    have hne : crc32 (readBytes longTable 1024 16384)
        ≠ crc32 (readBytes zeroTable 1024 16384) := by
      refine crc32_readBytes_ne (k := 1536) (by decide) (by decide) ?_
      intro i hi
      exact writeBytes_outside (by rw [List.length_singleton]; omega)
    apply hne
    rw [crc32_zeroTable (by decide), ← crc32_zeroTable (n := 1536)
      (by decide), ← hread]
    exact hcrc.symm

end Edk2Exynos.Op6tSlot
