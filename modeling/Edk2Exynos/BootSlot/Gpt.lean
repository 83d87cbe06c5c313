/-
GPT on a block device in the standard layout: where the two copies live,
what it means for one to be valid, and that the buffer offsets of
`UpdatePartitionAttributes` name the same bytes.

The specification side (`hdrAddr`, `entriesAddr`, `GptValid`) is stated
in natural numbers from the layout alone: the primary header at LBA 1
and its array at LBA 2, the backup header in the last block and its
array directly before it. The code side computes the same places in
wrapping 32- and 64-bit arithmetic. `GptMedia` is what the code checks
and needs of a medium, and the `GptMedia.*_toNat` lemmas say what it
computes there, one quantity at a time; on the smaller `StdMedia` these
are the places of the layout.

Validity is framed twice: a copy keeps it when nothing in its region
changes (`GptValid.of_region`), and when only entry fields change and
both checksums are right again (`GptValid.of_agree`). `sealGpt` is the
recomputation the code does.
-/
import Edk2Exynos.BootSlot.Update

namespace Edk2Exynos.BootSlot

open Lib

-- ========================================================== the geometry

/-- Blocks the entry array takes. -/
def entryBlocks (g : BlockIoMedia) : Nat :=
  maxPartitionEntriesSz / g.blockSize.toNat

/-- A medium with fewer than 2^32 blocks of a power of two from 512 to
16384 bytes, with room for two GPTs that do not overlap. -/
structure StdMedia (g : BlockIoMedia) : Prop where
  pow : ∃ e, 9 ≤ e ∧ e ≤ 14 ∧ g.blockSize.toNat = 2 ^ e
  small : g.lastBlock.toNat + 1 < 2 ^ 32
  room : 2 * entryBlocks g + 2 ≤ g.lastBlock.toNat

/-- Byte address of the header of a copy. -/
def hdrAddr (g : BlockIoMedia) : GptCopy → Nat
  | .primary => g.blockSize.toNat
  | .backup => g.lastBlock.toNat * g.blockSize.toNat

/-- Byte address of the entry array of a copy. -/
def entriesAddr (g : BlockIoMedia) : GptCopy → Nat
  | .primary => 2 * g.blockSize.toNat
  | .backup => (g.lastBlock.toNat - entryBlocks g) * g.blockSize.toNat

/-- The logical block a copy's header lives in. -/
def hdrLba (g : BlockIoMedia) : GptCopy → Nat
  | .primary => 1
  | .backup => g.lastBlock.toNat

/-- The logical block a copy's entry array starts in. -/
def entriesLba (g : BlockIoMedia) : GptCopy → Nat
  | .primary => 2
  | .backup => g.lastBlock.toNat - entryBlocks g

/-- A medium `GetPartitionSize` accepts, with blocks that divide the entry
array and room for two GPTs that do not overlap. -/
structure GptMedia (g : BlockIoMedia) : Prop where
  accepted : getPartitionSize g ≠ 0
  dvd : g.blockSize.toNat ∣ maxPartitionEntriesSz
  room : 2 * entryBlocks g + 2 ≤ g.lastBlock.toNat

/-- The blocks of the entries, as the code counts them. -/
theorem partEntriesBlocks_toNat (g : BlockIoMedia) :
    (partEntriesBlocks g).toNat = entryBlocks g := by
  unfold partEntriesBlocks entryBlocks
  rw [BitVec.toNat_udiv, BitVec.toNat_ofNat]
  rfl

namespace GptMedia

variable {g : BlockIoMedia}

/-- The entry array fills whole blocks. -/
theorem entryBlocks_mul (h : GptMedia g) :
    entryBlocks g * g.blockSize.toNat = maxPartitionEntriesSz :=
  Nat.div_mul_cancel h.dvd

/-- A block has at most 16384 bytes. -/
theorem blockSize_bounds (h : GptMedia g) :
    1 ≤ g.blockSize.toNat ∧ g.blockSize.toNat ≤ 16384 := by
  have hpos : 0 < maxPartitionEntriesSz := by decide
  exact ⟨Nat.pos_of_dvd_of_pos h.dvd hpos, Nat.le_of_dvd hpos h.dvd⟩

/-- The entries take at least a block. -/
theorem entryBlocks_bounds (h : GptMedia g) :
    1 ≤ entryBlocks g ∧ entryBlocks g ≤ 16384 := by
  have hb := h.blockSize_bounds
  have hm := h.entryBlocks_mul
  rw [show maxPartitionEntriesSz = 16384 from rfl] at hm
  constructor
  · by_contra hcon
    have h0 : entryBlocks g = 0 := by omega
    rw [h0] at hm
    omega
  · calc entryBlocks g = entryBlocks g * 1 := (Nat.mul_one _).symm
      _ ≤ entryBlocks g * g.blockSize.toNat :=
          Nat.mul_le_mul_left _ hb.1
      _ = 16384 := hm

/-- The bytes of one pass: the header block and the array. -/
theorem maxGptPartEntrySzBytes_toNat (h : GptMedia g) :
    (maxGptPartEntrySzBytes g).toNat
      = g.blockSize.toNat + maxPartitionEntriesSz := by
  have hb := h.blockSize_bounds
  have hk := h.entryBlocks_bounds
  have hm := h.entryBlocks_mul
  rw [show maxPartitionEntriesSz = 16384 from rfl] at hm ⊢
  unfold maxGptPartEntrySzBytes
  rw [BitVec.toNat_setWidth, BitVec.toNat_mul, BitVec.toNat_add,
    partEntriesBlocks_toNat, BitVec.toNat_ofNat]
  have h1 : (gptHdrBlocks % 2 ^ 32 + entryBlocks g) % 2 ^ 32
      = 1 + entryBlocks g := by
    rw [show gptHdrBlocks = 1 from rfl]
    omega
  have h2 : (1 + entryBlocks g) * g.blockSize.toNat
      = g.blockSize.toNat + 16384 := by
    rw [Nat.add_mul, hm]
    omega
  rw [h1, h2]
  omega

/-- What `GetPartitionSize` accepts it computes without overflow. -/
theorem getPartitionSize_toNat (h : GptMedia g) :
    (getPartitionSize g).toNat
      = (g.lastBlock.toNat + 1) * g.blockSize.toNat := by
  have hb := h.blockSize_bounds
  have hacc := h.accepted
  have hbs : (g.blockSize.setWidth 64).toNat = g.blockSize.toNat := by
    rw [BitVec.toNat_setWidth]
    omega
  unfold getPartitionSize at hacc ⊢
  split at hacc
  next => exact absurd rfl hacc
  next hlast =>
    split at hacc
    next => exact absurd rfl hacc
    next hprod =>
      rw [if_neg hlast, if_neg hprod]
      rw [BitVec.lt_def, not_lt,
        show (BitVec.allOnes 64 - 1).toNat = 2 ^ 64 - 2 by decide]
        at hlast
      have hsucc : (g.lastBlock + 1).toNat = g.lastBlock.toNat + 1 := by
        rw [BitVec.toNat_add, show (1 : UINT64).toNat = 1 from rfl]
        omega
      rw [BitVec.lt_def, BitVec.toNat_udiv, hsucc, hbs, not_lt,
        BitVec.toNat_allOnes, Nat.le_div_iff_mul_le (by omega),
        Nat.mul_comm] at hprod
      rw [BitVec.toNat_mul, hsucc, hbs]
      omega

/-- The blocks of the medium, as the code counts them. -/
theorem cardSizeSec_toNat (h : GptMedia g) :
    (cardSizeSec g).toNat = g.lastBlock.toNat + 1 := by
  have hb := h.blockSize_bounds
  unfold cardSizeSec
  rw [BitVec.toNat_udiv, h.getPartitionSize_toNat, BitVec.toNat_setWidth,
    Nat.mod_eq_of_lt (by omega), Nat.mul_div_cancel _ (by omega)]

/-- The backup pass starts `entryBlocks` blocks before the last one, as
far as 32 bits hold that number. -/
theorem gptOffset_backup_toNat (h : GptMedia g) :
    (gptOffset g .backup).toNat
      = (g.lastBlock.toNat - entryBlocks g) % 2 ^ 32 := by
  have hb := h.blockSize_bounds
  have hr := h.room
  have hm := h.entryBlocks_mul
  have hlt := g.lastBlock.isLt
  have hblocks : (maxGptPartEntrySzBytes g
      / g.blockSize.setWidth 64).toNat = 1 + entryBlocks g := by
    rw [BitVec.toNat_udiv, h.maxGptPartEntrySzBytes_toNat,
      BitVec.toNat_setWidth, Nat.mod_eq_of_lt (by omega), ← hm,
      Nat.add_mul_div_right _ _ (by omega), Nat.div_self (by omega)]
  unfold gptOffset
  rw [BitVec.toNat_setWidth, BitVec.toNat_sub, h.cardSizeSec_toNat,
    hblocks]
  congr 1
  omega

end GptMedia

namespace StdMedia

variable {g : BlockIoMedia}

/-- A block has from 512 to 16384 bytes. -/
theorem blockSize_bounds (h : StdMedia g) :
    512 ≤ g.blockSize.toNat ∧ g.blockSize.toNat ≤ 16384 := by
  obtain ⟨e, h9, h14, he⟩ := h.pow
  rw [he]
  constructor
  · calc 512 = 2 ^ 9 := by norm_num
      _ ≤ 2 ^ e := Nat.pow_le_pow_right (by omega) h9
  · calc 2 ^ e ≤ 2 ^ 14 := Nat.pow_le_pow_right (by omega) h14
      _ = 16384 := by norm_num

/-- The code accepts a standard medium. -/
theorem getPartitionSize_ne_zero (h : StdMedia g) :
    getPartitionSize g ≠ 0 := by
  have hb := h.blockSize_bounds
  have hs := h.small
  have hlast : (g.lastBlock + 1).toNat = g.lastBlock.toNat + 1 := by
    rw [BitVec.toNat_add, show (1 : UINT64).toNat = 1 from rfl]
    omega
  have hbs : (g.blockSize.setWidth 64).toNat = g.blockSize.toNat := by
    rw [BitVec.toNat_setWidth]
    omega
  have hprod : (g.lastBlock.toNat + 1) * g.blockSize.toNat
      ≤ 2 ^ 32 * 16384 := Nat.mul_le_mul (by omega) hb.2
  have hpos : 0 < (g.lastBlock.toNat + 1) * g.blockSize.toNat :=
    Nat.mul_pos (by omega) (by omega)
  unfold getPartitionSize
  rw [if_neg, if_neg]
  · intro hcon
    have hnat := congrArg BitVec.toNat hcon
    rw [BitVec.toNat_mul, hlast, hbs, Nat.mod_eq_of_lt (by omega)] at hnat
    rw [hnat] at hpos
    exact absurd hpos (by decide)
  · rw [BitVec.lt_def, BitVec.toNat_udiv, hlast, hbs, not_lt]
    calc g.blockSize.toNat ≤ 16384 := hb.2
      _ ≤ (2 ^ 64 - 1) / 2 ^ 32 := by norm_num
      _ ≤ (BitVec.allOnes 64).toNat / (g.lastBlock.toNat + 1) :=
          Nat.div_le_div_left (by omega) (by omega)
  · rw [BitVec.lt_def, not_lt,
      show (BitVec.allOnes 64 - 1).toNat = 2 ^ 64 - 2 by decide]
    omega

/-- A standard medium is one the code can work on. -/
theorem gptMedia (h : StdMedia g) : GptMedia g where
  accepted := h.getPartitionSize_ne_zero
  dvd := by
    obtain ⟨e, h9, h14, he⟩ := h.pow
    rw [he, show maxPartitionEntriesSz = 2 ^ 14 from rfl]
    exact Nat.pow_dvd_pow 2 h14
  room := h.room

/-- The blocks of the entries hold the entries and nothing else. -/
theorem entryBlocks_mul (h : StdMedia g) :
    entryBlocks g * g.blockSize.toNat = maxPartitionEntriesSz :=
  h.gptMedia.entryBlocks_mul

/-- The entries take from one to 32 blocks. -/
theorem entryBlocks_bounds (h : StdMedia g) :
    1 ≤ entryBlocks g ∧ entryBlocks g ≤ 32 := by
  have hb := h.blockSize_bounds
  have hm := h.entryBlocks_mul
  refine ⟨h.gptMedia.entryBlocks_bounds.1, ?_⟩
  rw [show maxPartitionEntriesSz = 16384 from rfl] at hm
  by_contra hcon
  have h1 : 33 * 512 ≤ entryBlocks g * g.blockSize.toNat :=
    Nat.mul_le_mul (by omega) hb.1
  omega

/-- The buffer holds the header's block and the entries. -/
theorem maxGptPartEntrySzBytes_toNat (h : StdMedia g) :
    (maxGptPartEntrySzBytes g).toNat
      = g.blockSize.toNat + maxPartitionEntriesSz :=
  h.gptMedia.maxGptPartEntrySzBytes_toNat

/-- On a standard medium the backup's position fits its variable. -/
theorem gptOffset_backup_toNat (h : StdMedia g) :
    (gptOffset g .backup).toNat = g.lastBlock.toNat - entryBlocks g := by
  have hs := h.small
  rw [h.gptMedia.gptOffset_backup_toNat]
  exact Nat.mod_eq_of_lt (by omega)

/-- The code's header offset names the header of the copy. -/
theorem hdrAddr_eq (h : StdMedia g) (c : GptCopy) :
    gptAddr g c + gptHdrOff g c = hdrAddr g c := by
  have hk := h.entryBlocks_bounds
  have hr := h.room
  have hm := h.entryBlocks_mul
  cases c with
  | primary =>
      show (primaryHdrLba).toNat * g.blockSize.toNat + 0
        = g.blockSize.toNat
      rw [show primaryHdrLba.toNat = 1 from rfl, Nat.one_mul,
        Nat.add_zero]
  | backup =>
      show (gptOffset g .backup).toNat * g.blockSize.toNat
          + (partEntriesBlocks g * g.blockSize).toNat
        = g.lastBlock.toNat * g.blockSize.toNat
      have hoff : (partEntriesBlocks g * g.blockSize).toNat
          = entryBlocks g * g.blockSize.toNat := by
        rw [BitVec.toNat_mul, partEntriesBlocks_toNat, hm]
        rfl
      rw [h.gptOffset_backup_toNat, hoff, ← Nat.add_mul]
      congr 1
      omega

/-- The code's array offset names the entry array of the copy. -/
theorem entriesAddr_eq (h : StdMedia g) (c : GptCopy) :
    gptAddr g c + ptnEntriesOff g c = entriesAddr g c := by
  cases c with
  | primary =>
      show (primaryHdrLba).toNat * g.blockSize.toNat + g.blockSize.toNat
        = 2 * g.blockSize.toNat
      rw [show primaryHdrLba.toNat = 1 from rfl]
      omega
  | backup =>
      show (gptOffset g .backup).toNat * g.blockSize.toNat + 0
        = (g.lastBlock.toNat - entryBlocks g) * g.blockSize.toNat
      rw [h.gptOffset_backup_toNat, Nat.add_zero]

/-- Header and array of a copy fill the range of its pass: the header
block and the array lie in it, in one order or the other. -/
theorem buffer_layout (h : StdMedia g) (c : GptCopy) :
    (gptHdrOff g c = 0 ∧ ptnEntriesOff g c = g.blockSize.toNat)
      ∨ (ptnEntriesOff g c = 0
        ∧ gptHdrOff g c = maxPartitionEntriesSz) := by
  cases c with
  | primary => exact Or.inl ⟨rfl, rfl⟩
  | backup =>
      refine Or.inr ⟨rfl, ?_⟩
      show (partEntriesBlocks g * g.blockSize).toNat = _
      rw [BitVec.toNat_mul, partEntriesBlocks_toNat, h.entryBlocks_mul]
      rfl

/-- The two passes share no byte. -/
theorem passes_disjoint (h : StdMedia g) :
    gptAddr g .primary + (maxGptPartEntrySzBytes g).toNat
      ≤ gptAddr g .backup := by
  have hr := h.room
  have hm := h.entryBlocks_mul
  show (primaryHdrLba).toNat * g.blockSize.toNat + _
    ≤ (gptOffset g .backup).toNat * g.blockSize.toNat
  rw [h.maxGptPartEntrySzBytes_toNat, h.gptOffset_backup_toNat, ← hm,
    show primaryHdrLba.toNat = 1 from rfl]
  calc 1 * g.blockSize.toNat
        + (g.blockSize.toNat + entryBlocks g * g.blockSize.toNat)
      = (2 + entryBlocks g) * g.blockSize.toNat := by
        rw [Nat.add_mul]
        omega
    _ ≤ (g.lastBlock.toNat - entryBlocks g) * g.blockSize.toNat :=
        Nat.mul_le_mul_right _ (by omega)

end StdMedia

-- ========================================================== GPT validity

/-- The header bytes the header CRC covers: its own field as zero. -/
def crcHeader (m : Mem) (hdr : Nat) : List Byte :=
  readBytes (putLong m (hdr + headerCrcOffset) 0) hdr gptHeaderSize

/-- A valid GPT copy in the standard layout. -/
structure GptValid (g : BlockIoMedia) (c : GptCopy) (m : Mem) :
    Prop where
  /-- `EFI PART` -/
  signature : getLlword m (hdrAddr g c) = 0x5452415020494645
  headerSize : getLword m (hdrAddr g c + 12) = 92
  headerCrc : getLword m (hdrAddr g c + headerCrcOffset)
    = crc32 (crcHeader m (hdrAddr g c))
  myLba : (getLlword m (hdrAddr g c + 24)).toNat = hdrLba g c
  entriesLba : (getLlword m (hdrAddr g c + 72)).toNat = entriesLba g c
  entryCount : getLword m (hdrAddr g c + partitionCountOffset) = 128
  entrySize : getLword m (hdrAddr g c + pentrySizeOffset) = 128
  entriesCrc : getLword m (hdrAddr g c + partitionCrcOffset)
    = crc32 (readBytes m (entriesAddr g c) maxPartitionEntriesSz)

/-- The bytes of a copy: what its pass reads and writes. -/
def gptRegion (g : BlockIoMedia) (c : GptCopy) (x : Nat) : Prop :=
  gptAddr g c ≤ x
    ∧ x < gptAddr g c + (maxGptPartEntrySzBytes g).toNat

/-- The bytes of an entry array an update may change: type GUID and
attributes of some slot. -/
def EntryField (base x : Nat) : Prop :=
  ∃ k, k < maxNumPartitions
    ∧ ((base + partitionEntrySize * k ≤ x
          ∧ x < base + partitionEntrySize * k + guidSize)
      ∨ (base + partitionEntrySize * k + attributeFlagOffset ≤ x
          ∧ x < base + partitionEntrySize * k + attributeFlagOffset + 8))

/-- A field of an entry lies in the array. -/
theorem EntryField.bounds {base x : Nat} (h : EntryField base x) :
    base ≤ x ∧ x < base + maxPartitionEntriesSz := by
  obtain ⟨k, hk, h⟩ := h
  simp only [maxNumPartitions, partitionEntrySize, guidSize,
    attributeFlagOffset] at hk h
  rw [show maxPartitionEntriesSz = 16384 from rfl]
  omega

/-- The two CRC fields of a header. -/
def CrcField (hdr x : Nat) : Prop :=
  (hdr + headerCrcOffset ≤ x ∧ x < hdr + headerCrcOffset + 4)
    ∨ (hdr + partitionCrcOffset ≤ x ∧ x < hdr + partitionCrcOffset + 4)

-- ======================================================== sealing a copy

/-- A GPT image with both checksums recomputed: first the array's, then
the header's over a header whose own field is zero. -/
def sealGpt (m : Mem) (hdr ent : Nat) : Mem :=
  let m := putLong m (hdr + partitionCrcOffset)
    (crc32 (readBytes m ent maxPartitionEntriesSz))
  putLong m (hdr + headerCrcOffset) (crc32 (crcHeader m hdr))

/-- Header and array of an image do not overlap. -/
def ImageDisjoint (hdr ent : Nat) : Prop :=
  hdr + gptHeaderSize ≤ ent ∨ ent + maxPartitionEntriesSz ≤ hdr

/-- Sealing changes the two checksums only. -/
theorem sealGpt_agree (m : Mem) (hdr ent : Nat) :
    AgreeOutside (CrcField hdr) m (sealGpt m hdr ent) := by
  unfold sealGpt putLong
  refine ((AgreeOutside.refl _ _).write ?_).write ?_
  · intro x hx hx'
    exact Or.inr ⟨hx, hx'⟩
  · intro x hx hx'
    exact Or.inl ⟨hx, hx'⟩

/-- A sealed image carries the CRC of its own array. -/
theorem sealGpt_entriesCrc {m : Mem} {hdr ent : Nat}
    (hd : ImageDisjoint hdr ent) :
    getLword (sealGpt m hdr ent) (hdr + partitionCrcOffset)
      = crc32 (readBytes (sealGpt m hdr ent) ent
          maxPartitionEntriesSz) := by
  have hread : readBytes (sealGpt m hdr ent) ent maxPartitionEntriesSz
      = readBytes m ent maxPartitionEntriesSz := by
    refine (sealGpt_agree m hdr ent).readBytes ?_
    intro i hi hcrc
    simp only [ImageDisjoint, CrcField, gptHeaderSize, headerCrcOffset,
      partitionCrcOffset] at hd hcrc
    omega
  rw [hread]
  unfold sealGpt
  rw [getLword_putLong_disjoint (by
    simp only [headerCrcOffset, partitionCrcOffset]
    omega), getLword_putLong]

/-- A sealed image carries the CRC of its own header. -/
theorem sealGpt_headerCrc (m : Mem) (hdr ent : Nat) :
    getLword (sealGpt m hdr ent) (hdr + headerCrcOffset)
      = crc32 (crcHeader (sealGpt m hdr ent) hdr) := by
  unfold sealGpt crcHeader
  rw [getLword_putLong, putLong_putLong_same]

-- ==================================================== validity is framed

/-- The bytes of a copy a completed update may change. -/
def CopyField (g : BlockIoMedia) (c : GptCopy) (x : Nat) : Prop :=
  EntryField (entriesAddr g c) x ∨ CrcField (hdrAddr g c) x

/-- Header and entries of a copy do not overlap. -/
theorem StdMedia.image_disjoint {g : BlockIoMedia} (h : StdMedia g)
    (c : GptCopy) : ImageDisjoint (hdrAddr g c) (entriesAddr g c) := by
  have hb := h.blockSize_bounds
  have hl := h.buffer_layout c
  have h1 := h.hdrAddr_eq c
  have h2 := h.entriesAddr_eq c
  unfold ImageDisjoint
  rw [show gptHeaderSize = 92 from rfl]
  rcases hl with ⟨ha, hb'⟩ | ⟨ha, hb'⟩
  · exact Or.inl (by omega)
  · exact Or.inr (by omega)

/-- Header and array of a copy lie in its region. -/
theorem StdMedia.image_in_region {g : BlockIoMedia} (h : StdMedia g)
    {c : GptCopy} {x : Nat}
    (hx : (hdrAddr g c ≤ x ∧ x < hdrAddr g c + gptHeaderSize)
      ∨ (entriesAddr g c ≤ x
        ∧ x < entriesAddr g c + maxPartitionEntriesSz)) :
    gptRegion g c x := by
  have hb := h.blockSize_bounds
  have hl := h.buffer_layout c
  have h1 := h.hdrAddr_eq c
  have h2 := h.entriesAddr_eq c
  have h3 := h.maxGptPartEntrySzBytes_toNat
  rw [show gptHeaderSize = 92 from rfl] at hx
  unfold gptRegion
  rcases hl with ⟨ha, hb'⟩ | ⟨ha, hb'⟩ <;> rcases hx with hx | hx <;>
    exact ⟨by omega, by omega⟩

/-- A copy whose checksums match and whose other header bytes are those
of a valid copy is valid. -/
theorem GptValid.of_agree {g : BlockIoMedia} {c : GptCopy} {m m' : Mem}
    (h : GptValid g c m) (hm : StdMedia g)
    (hag : ∀ x, gptRegion g c x → ¬ CopyField g c x → m' x = m x)
    (hhdr : getLword m' (hdrAddr g c + headerCrcOffset)
      = crc32 (crcHeader m' (hdrAddr g c)))
    (hent : getLword m' (hdrAddr g c + partitionCrcOffset)
      = crc32 (readBytes m' (entriesAddr g c) maxPartitionEntriesSz)) :
    GptValid g c m' := by
  -- header bytes outside the two CRC fields are the old ones
  have hframe : ∀ f n, f + n ≤ gptHeaderSize →
      (f + n ≤ headerCrcOffset ∨ headerCrcOffset + 4 ≤ f) →
      (f + n ≤ partitionCrcOffset) →
      readBytes m' (hdrAddr g c + f) n
        = readBytes m (hdrAddr g c + f) n := by
    intro f n hfn h16 h88
    refine readBytes_congr fun i hi => hag _ ?_ ?_
    · exact hm.image_in_region (Or.inl ⟨by omega, by omega⟩)
    · intro hcf
      have hd := hm.image_disjoint c
      rcases hcf with hcf | hcf
      · have hb := hcf.bounds
        unfold ImageDisjoint at hd
        omega
      · unfold CrcField at hcf
        omega
  have hl : ∀ f, f + 4 ≤ headerCrcOffset
      ∨ headerCrcOffset + 4 ≤ f ∧ f + 4 ≤ partitionCrcOffset →
      getLword m' (hdrAddr g c + f) = getLword m (hdrAddr g c + f) := by
    intro f hf
    simp only [headerCrcOffset, partitionCrcOffset] at hf
    refine getLword_congr (hframe f 4 ?_ ?_ ?_) <;>
      simp only [gptHeaderSize, headerCrcOffset, partitionCrcOffset] <;>
      omega
  have hll : ∀ f, f + 8 ≤ headerCrcOffset
      ∨ headerCrcOffset + 4 ≤ f ∧ f + 8 ≤ partitionCrcOffset →
      getLlword m' (hdrAddr g c + f) = getLlword m (hdrAddr g c + f) := by
    intro f hf
    simp only [headerCrcOffset, partitionCrcOffset] at hf
    refine getLlword_congr (hframe f 8 ?_ ?_ ?_) <;>
      simp only [gptHeaderSize, headerCrcOffset, partitionCrcOffset] <;>
      omega
  refine ⟨?_, ?_, hhdr, ?_, ?_, ?_, ?_, hent⟩
  · exact (hll 0 (Or.inl (by decide))).trans h.signature
  · exact (hl 12 (Or.inl (by decide))).trans h.headerSize
  · rw [hll 24 (Or.inr (by decide))]
    exact h.myLba
  · rw [hll 72 (Or.inr (by decide))]
    exact h.entriesLba
  · exact (hl partitionCountOffset (Or.inr (by decide))).trans
      h.entryCount
  · exact (hl pentrySizeOffset (Or.inr (by decide))).trans h.entrySize

/-- The checksummed header of two images that agree on the header. -/
theorem crcHeader_congr {m m' : Mem} {hdr hdr' : Nat}
    (h : ∀ i, i < gptHeaderSize → m (hdr + i) = m' (hdr' + i)) :
    crcHeader m hdr = crcHeader m' hdr' :=
  readBytes_congr fun _ hi => writeBytes_shift _ _ h hi

/-- A header's own checksum does not count. -/
theorem crcHeader_eq_of_outside {m m' : Mem} {hdr : Nat}
    (h : ∀ i, i < gptHeaderSize →
      ¬ (headerCrcOffset ≤ i ∧ i < headerCrcOffset + 4) →
      m' (hdr + i) = m (hdr + i)) :
    crcHeader m' hdr = crcHeader m hdr := by
  refine readBytes_congr fun i hi => ?_
  by_cases hni : headerCrcOffset ≤ i ∧ i < headerCrcOffset + 4
  · obtain ⟨k, rfl⟩ := Nat.exists_eq_add_of_le hni.1
    have hk : k < (bytesOfLong 0).length := by
      rw [bytesOfLong_length]
      omega
    unfold putLong
    rw [← Nat.add_assoc, writeBytes_inside hk, writeBytes_inside hk]
  · unfold putLong
    rw [writeBytes_outside, writeBytes_outside]
    · exact h i hi hni
    · rw [bytesOfLong_length]
      omega
    · rw [bytesOfLong_length]
      omega

/-- Validity of a copy reads its region only. -/
theorem GptValid.of_region {g : BlockIoMedia} {c : GptCopy} {m m' : Mem}
    (h : GptValid g c m) (hm : StdMedia g)
    (hag : ∀ x, gptRegion g c x → m' x = m x) : GptValid g c m' := by
  have hhdr : ∀ i, i < gptHeaderSize →
      m' (hdrAddr g c + i) = m (hdrAddr g c + i) := fun i hi =>
    hag _ (hm.image_in_region (Or.inl ⟨by omega, by omega⟩))
  have hent : readBytes m' (entriesAddr g c) maxPartitionEntriesSz
      = readBytes m (entriesAddr g c) maxPartitionEntriesSz :=
    readBytes_congr fun i hi =>
      hag _ (hm.image_in_region (Or.inr ⟨by omega, by omega⟩))
  have hfield : ∀ f, f + 4 ≤ gptHeaderSize →
      getLword m' (hdrAddr g c + f) = getLword m (hdrAddr g c + f) := by
    intro f hf
    refine getLword_congr (readBytes_congr fun i hi => ?_)
    rw [Nat.add_assoc]
    exact hhdr (f + i) (by omega)
  refine h.of_agree hm (fun x hx _ => hag x hx) ?_ ?_
  · rw [hfield _ (by decide), h.headerCrc, crcHeader_congr hhdr]
  · rw [hfield _ (by decide), h.entriesCrc, hent]

end Edk2Exynos.BootSlot
