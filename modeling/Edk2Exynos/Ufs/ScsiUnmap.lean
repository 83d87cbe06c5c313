/-
UNMAP as the device reads it (scsi.c): which blocks a command discards,
and what the hook of the block layer makes of a byte range.

# One list, three lengths

The device finds the descriptors by the length in the header of the
parameter list, which counts one descriptor as it should: the blocks it
reads are those that were asked for (`unmapList_descriptors`). The list
has 24 bytes, and its UNMAP DATA LENGTH says so; `datalen` and the command
block announce 30. `scsi_unmap` sets `datalen` to 24 first, and again to
30 after its comment on the descriptors.

# Bytes to blocks

`scsi_unmap_len` divides offset and length by the block size, each
rounded down, drops the result of the command and returns the product of
length and block size. `unmapLenRight_iff` says when that is what a caller
of the block layer expects.
-/
import Edk2Exynos.Ufs.ScsiCdb

namespace Edk2Exynos.Ufs

open Lib

-- ======================================================= the device's view

/-- One UNMAP block descriptor: the first block and the number of blocks. -/
structure UnmapDescriptor where
  lba : Nat
  blocks : Nat
  deriving DecidableEq, Repr

/-- PARAMETER LIST LENGTH, bytes 7 and 8 of the command block. -/
def cdbParameterListLength (cdb : List U8) : Nat :=
  beNat ((cdb.drop 7).take 2)

/-- UNMAP DATA LENGTH, bytes 0 and 1 of the parameter list at `a`. -/
def unmapDataLength (mem : Mem) (a : Nat) : Nat := beNat (readBytes mem a 2)

/-- UNMAP BLOCK DESCRIPTOR DATA LENGTH, bytes 2 and 3. -/
def unmapBlockDescriptorDataLength (mem : Mem) (a : Nat) : Nat :=
  beNat (readBytes mem (a + 2) 2)

/-- A descriptor: eight bytes of block address, four of count, and four
reserved ones. -/
def unmapDescriptorAt (mem : Mem) (a : Nat) : UnmapDescriptor where
  lba := beNat (readBytes mem a 8)
  blocks := beNat (readBytes mem (a + 8) 4)

/-- The descriptors of the parameter list at `a`, from its byte 8 on. -/
def unmapDescriptors (mem : Mem) (a : Nat) : List UnmapDescriptor :=
  (List.range (unmapBlockDescriptorDataLength mem a / 16)).map
    fun k => unmapDescriptorAt mem (a + 8 + 16 * k)

/-- The descriptors a command sends. -/
def ScsiIssue.descriptors (i : ScsiIssue) : List UnmapDescriptor :=
  unmapDescriptors i.mem i.scm.buf.toNat

/-- The command sends the one descriptor of `count` blocks from block
`block` on, in a list of as many bytes as it announces. -/
structure ScsiIssue.Unmaps (i : ScsiIssue) (block count : Nat) : Prop where
  descriptors : i.descriptors = [⟨block, count⟩]
  announced : cdbParameterListLength i.scm.cdb
    = unmapDataLength i.mem i.scm.buf.toNat + 2
  sent : i.scm.datalen.toNat = cdbParameterListLength i.scm.cdb

-- ====================================================== the parameter list

section

variable (a : Nat) (block count : U32) (mem : Mem)

theorem setWordLe_length (v : U32) : (setWordLe v).length = 2 := rfl

theorem setDwordLe_length (v : U32) : (setDwordLe v).length = 4 := rfl

/-- The list says that 22 bytes follow. -/
theorem unmapList_dataLength :
    unmapDataLength (unmapParameters a block count mem) a = 22 := by
  unfold unmapDataLength unmapParameters
  rw [readBytes_writeBytes_disjoint (by left; omega),
    readBytes_writeBytes_disjoint (by left; omega),
    readBytes_writeBytes_disjoint (by left; omega),
    readBytes_writeBytes_same (setWordLe_length _)]
  rfl

/-- The list says that 16 bytes of descriptors follow. -/
theorem unmapList_descriptorLength :
    unmapBlockDescriptorDataLength (unmapParameters a block count mem) a
      = 16 := by
  unfold unmapBlockDescriptorDataLength unmapParameters
  rw [readBytes_writeBytes_disjoint (by left; omega),
    readBytes_writeBytes_disjoint (by left; omega),
    readBytes_writeBytes_same (setWordLe_length _)]
  rfl

/-- The upper half of the block address stays clear. -/
theorem unmapList_lba :
    readBytes (unmapParameters a block count mem) (a + 8) 8
      = List.replicate 4 0 ++ setDwordLe block := by
  have hclear : readBytes (unmapParameters a block count mem) (a + 8) 4
      = List.replicate 4 0 := by
    unfold unmapParameters
    rw [readBytes_writeBytes_disjoint (by left; omega),
      readBytes_writeBytes_disjoint (by left; omega),
      readBytes_writeBytes_disjoint (by right; simp [setWordLe]),
      readBytes_writeBytes_disjoint (by right; simp [setWordLe]),
      readBytes_writeBytes_inside (by decide)]
    rfl
  have hblock : readBytes (unmapParameters a block count mem) (a + 12) 4
      = setDwordLe block := by
    unfold unmapParameters
    rw [readBytes_writeBytes_disjoint (by left; omega),
      readBytes_writeBytes_same (setDwordLe_length _)]
  rw [← hclear, ← hblock]
  exact readBytes_add _ (a + 8) 4 4

/-- The descriptor has the count of blocks. -/
theorem unmapList_blocks :
    readBytes (unmapParameters a block count mem) (a + 16) 4
      = setDwordLe count := by
  unfold unmapParameters
  exact readBytes_writeBytes_same rfl

/-- What the device reads is what was asked for. -/
theorem unmapList_descriptors :
    unmapDescriptors (unmapParameters a block count mem) a
      = [⟨block.toNat, count.toNat⟩] := by
  have hlba : beNat (List.replicate 4 0 ++ setDwordLe block)
      = block.toNat := by
    rw [beNat_zeros]
    exact (beNat_word block).trans (Nat.mod_eq_of_lt block.isLt)
  have hblocks : beNat (setDwordLe count) = count.toNat :=
    (beNat_word count).trans (Nat.mod_eq_of_lt count.isLt)
  unfold unmapDescriptors
  rw [unmapList_descriptorLength, Nat.div_self (by decide), List.range_one,
    List.map_singleton, Nat.mul_zero, Nat.add_zero]
  unfold unmapDescriptorAt
  rw [unmapList_lba, unmapList_blocks, hlba, hblocks]

end

-- ============================================================ one command

section

variable {c : DevUfs} (d : DevScsi c) (exec : ScsiExec) (b : Bdev)

/-- The state in which an UNMAP is issued. -/
def ScsiState.unmap (s : ScsiState) (block count : U32) : ScsiState :=
  { s.prepare b d.gBuf (scsiUnmapDataLen + 8)
      (storeAt 7 (setWordLe (scsiUnmapDataLen + 8)) (blankCdb d .unmap))
    with mem := unmapParameters d.gBuf.toNat block count s.mem }

theorem scsiUnmap_eq {count : U32} (h : count ≠ 0) (block : U32)
    (s : ScsiState) : scsiUnmap d exec b block count s
      = scsiIssue d exec (s.unmap d b block count) := if_neg h

/-- A request for no blocks is refused. -/
theorem scsiUnmap_zero (block : U32) (s : ScsiState) :
    scsiUnmap d exec b block 0 s = (-1, s) := if_pos rfl

/-- The command handed over by an UNMAP. -/
def unmapIssue (block count : U32) (s : ScsiState) : ScsiIssue :=
  ⟨(s.unmap d b block count).scm, (s.unmap d b block count).mem⟩

/-- The request has one descriptor, for the blocks asked. -/
theorem unmapIssue_descriptors (block count : U32) (s : ScsiState) :
    (unmapIssue d b block count s).descriptors
      = [⟨block.toNat, count.toNat⟩] :=
  unmapList_descriptors _ _ _ _

/-- The command block gives 30 bytes for the list. -/
theorem unmapIssue_listLength (block count : U32) (s : ScsiState) :
    cdbParameterListLength (unmapIssue d b block count s).scm.cdb = 30 := by
  obtain ⟨n, hn⟩ := blankCdb_eq d .unmap
  show cdbParameterListLength
    (storeAt 7 (setWordLe (scsiUnmapDataLen + 8)) (blankCdb d .unmap)) = 30
  rw [hn]
  rfl

/-- The list in memory gives 22 bytes of data. -/
theorem unmapIssue_dataLength (block count : U32) (s : ScsiState) :
    unmapDataLength (unmapIssue d b block count s).mem
      (unmapIssue d b block count s).scm.buf.toNat = 22 :=
  unmapList_dataLength _ _ _ _

/-- The lengths of an UNMAP never agree. -/
theorem unmapIssue_wrong (lba blocks : Nat) (block count : U32)
    (s : ScsiState) :
    ¬ (unmapIssue d b block count s).Unmaps lba blocks := by
  intro h
  have hannounced := h.announced
  rw [unmapIssue_listLength, unmapIssue_dataLength] at hannounced
  omega

/-- Each command that `after` has seen since `s` is the UNMAP it should
be. -/
def UnmapsOnly (s after : ScsiState) (block count : Nat) : Prop :=
  ∃ l, after.issued = s.issued ++ l ∧ ∀ i ∈ l, i.Unmaps block count

/-- Only a request for no blocks sends nothing but the UNMAP it should. -/
theorem unmapsOnly_iff {w : Nat} (block : BitVec w) (count : U32)
    (s : ScsiState) :
    UnmapsOnly s (scsiUnmap d exec b (block.setWidth 32) count s).2
        block.toNat count.toNat
      ↔ count = 0 := by
  constructor
  · rintro ⟨l, hl, hall⟩
    by_contra hcount
    rw [scsiUnmap_eq d exec b hcount, scsiIssue_issued] at hl
    have hl' := List.append_cancel_left hl
    have hmem : unmapIssue d b (block.setWidth 32) count s ∈ l := by
      rw [← hl']
      exact List.mem_singleton_self _
    exact unmapIssue_wrong d b _ _ _ _ _ (hall _ hmem)
  · intro hcount
    rw [hcount, scsiUnmap_zero]
    exact ⟨[], (List.append_nil _).symm, fun i hi => by cases hi⟩

-- ========================================================= the byte range

/-- Every block of a descriptor lies inside `len` bytes from `offset`
on. -/
def UnmapDescriptor.Inside (p : UnmapDescriptor)
    (blockSize offset len : Nat) : Prop :=
  ∀ k < p.blocks, offset ≤ (p.lba + k) * blockSize
    ∧ (p.lba + k + 1) * blockSize ≤ offset + len

/-- What a caller of the block layer expects of `scsi_unmap_len`: its
divisions are defined, no block outside the range is asked for, and it
returns the number of bytes discarded, or a negative value when a command
fails. -/
def UnmapLenRight (offset len : U64) (s : ScsiState) : Prop :=
  b.blockSize ≠ 0
    ∧ ∃ l, (scsiUnmapLen d exec b offset len s).2.issued = s.issued ++ l
      ∧ (∀ i ∈ l, ∀ p ∈ i.descriptors,
          p.Inside b.blockSize.toNat offset.toNat len.toNat)
      ∧ ((∀ i ∈ l, CompletedGood exec s i) →
          (scsiUnmapLen d exec b offset len s).1
            = ((l.flatMap ScsiIssue.descriptors).map fun p =>
                p.blocks * b.blockSize.toNat).sum)
      ∧ ((¬ ∀ i ∈ l, CompletedGood exec s i) →
          (scsiUnmapLen d exec b offset len s).1 < 0)

/-- The number of the first block, as cut to 32 bits. -/
def unmapFirst (offset : U64) : U32 := (offset / b.blockSize).setWidth 32

/-- The number of blocks, as cut to 32 bits. -/
def unmapBlocks (len : U64) : U32 := (len / b.blockSize).setWidth 32

/-- When something is asked for: the offset is a multiple of the block
size, its block number has 32 bits, and the product is what was discarded,
or negative after a failure. -/
structure UnmapRangeFits (offset len : U64) (s : ScsiState) : Prop where
  aligned : b.blockSize.toNat ∣ offset.toNat
  first : offset.toNat / b.blockSize.toNat < 2 ^ 32
  size : CompletedGood exec s
      (unmapIssue d b (unmapFirst b offset) (unmapBlocks b len) s) →
    (len * b.blockSize).toInt
      = ((unmapBlocks b len).toNat * b.blockSize.toNat : Nat)
  error : ¬ CompletedGood exec s
      (unmapIssue d b (unmapFirst b offset) (unmapBlocks b len) s) →
    (len * b.blockSize).toInt < 0

/-- The condition of `unmapLenRight_iff`: with no whole block in the
length, the product is 0. -/
def UnmapLenFits (offset len : U64) (s : ScsiState) : Prop :=
  b.blockSize ≠ 0
    ∧ (unmapBlocks b len = 0 → len * b.blockSize = 0)
    ∧ (unmapBlocks b len ≠ 0 → UnmapRangeFits d exec b offset len s)

/-- What the length's variant returns, and the request it makes. -/
theorem scsiUnmapLen_eq (offset len : U64) (s : ScsiState) :
    scsiUnmapLen d exec b offset len s
      = ((len * b.blockSize).toInt,
        (scsiUnmap d exec b (unmapFirst b offset) (unmapBlocks b len) s).2) :=
  rfl

/-- The first block, cut to 32 bits. -/
theorem unmapFirst_toNat (offset : U64) :
    (unmapFirst b offset).toNat
      = offset.toNat / b.blockSize.toNat % 2 ^ 32 := by
  unfold unmapFirst
  rw [BitVec.toNat_setWidth, BitVec.toNat_udiv]

/-- The count of blocks, cut to 32 bits. -/
theorem unmapBlocks_toNat (len : U64) :
    (unmapBlocks b len).toNat
      = len.toNat / b.blockSize.toNat % 2 ^ 32 := by
  unfold unmapBlocks
  rw [BitVec.toNat_setWidth, BitVec.toNat_udiv]

/-- The blocks asked for are inside the range exactly when the offset is
on a block boundary and its block number is not cut. -/
theorem inside_iff {offset len : U64} (hb : b.blockSize ≠ 0)
    (hblocks : unmapBlocks b len ≠ 0) :
    UnmapDescriptor.Inside
        ⟨(unmapFirst b offset).toNat, (unmapBlocks b len).toNat⟩
        b.blockSize.toNat offset.toNat len.toNat
      ↔ b.blockSize.toNat ∣ offset.toNat
        ∧ offset.toNat / b.blockSize.toNat < 2 ^ 32 := by
  have hpos : 0 < b.blockSize.toNat := BitVec.toNat_pos_of_ne_zero hb
  have hfirst := unmapFirst_toNat b offset
  have hcount := unmapBlocks_toNat b len
  have hsome : 0 < (unmapBlocks b len).toNat :=
    BitVec.toNat_pos_of_ne_zero hblocks
  have hround := Nat.div_mul_le_self offset.toNat b.blockSize.toNat
  have hlen := Nat.div_mul_le_self len.toNat b.blockSize.toNat
  constructor
  · intro h
    -- the first block starts neither before the range nor after it
    have hstart := (h 0 hsome).1
    dsimp only at hstart
    rw [Nat.add_zero, hfirst] at hstart
    have hle : offset.toNat / b.blockSize.toNat % 2 ^ 32
        ≤ offset.toNat / b.blockSize.toNat := Nat.mod_le _ _
    have hmul := Nat.mul_le_mul_right b.blockSize.toNat hle
    have heq : offset.toNat / b.blockSize.toNat * b.blockSize.toNat
        = offset.toNat := by omega
    have hmod : offset.toNat / b.blockSize.toNat % 2 ^ 32
        = offset.toNat / b.blockSize.toNat := by
      apply Nat.eq_of_mul_eq_mul_right hpos
      omega
    refine ⟨⟨_, (heq.symm.trans (Nat.mul_comm _ _))⟩, ?_⟩
    exact (mod_eq_self_iff (by decide)).mp hmod
  · rintro ⟨hdvd, hcut⟩ k hk
    dsimp only at hk ⊢
    rw [hfirst, Nat.mod_eq_of_lt hcut]
    have heq := Nat.div_mul_cancel hdvd
    have hle : k + 1 ≤ len.toNat / b.blockSize.toNat := by
      rw [hcount] at hk
      exact Nat.le_trans hk (Nat.mod_le _ _)
    have hmul := Nat.mul_le_mul_right b.blockSize.toNat hle
    rw [Nat.add_assoc, Nat.add_mul, Nat.add_mul, heq]
    constructor
    · omega
    · omega

/-- Without a command the only right answer is 0. -/
theorem unmapNone_iff (offset len : U64) (s : ScsiState)
    (hblocks : unmapBlocks b len = 0) (hb : b.blockSize ≠ 0) :
    UnmapLenRight d exec b offset len s ↔ len * b.blockSize = 0 := by
  unfold UnmapLenRight
  rw [scsiUnmapLen_eq, hblocks, scsiUnmap_zero]
  constructor
  · rintro ⟨-, l, hl, -, hsize, -⟩
    have hnil : l = [] := List.self_eq_append_right.mp hl
    rw [hnil] at hsize
    have hzero := hsize (List.forall_mem_nil _)
    exact BitVec.toInt_inj.mp (hzero.trans BitVec.toInt_zero.symm)
  · intro hzero
    have hnone : ∀ i ∈ ([] : List ScsiIssue), CompletedGood exec s i :=
      List.forall_mem_nil _
    refine ⟨hb, [], (List.append_nil _).symm, List.forall_mem_nil _,
      fun _ => ?_, fun h => absurd hnone h⟩
    dsimp only
    rw [hzero]
    rfl

/-- With a command the answer is about its one descriptor. -/
theorem unmapSome_iff (offset len : U64) (s : ScsiState)
    (hblocks : unmapBlocks b len ≠ 0) (hb : b.blockSize ≠ 0) :
    UnmapLenRight d exec b offset len s
      ↔ UnmapRangeFits d exec b offset len s := by
  have hdescs := unmapIssue_descriptors d b (unmapFirst b offset)
    (unmapBlocks b len) s
  have hsum : ((([unmapIssue d b (unmapFirst b offset) (unmapBlocks b len)
        s]).flatMap ScsiIssue.descriptors).map fun p =>
          p.blocks * b.blockSize.toNat).sum
      = (unmapBlocks b len).toNat * b.blockSize.toNat := by
    rw [List.flatMap_singleton, hdescs]
    rfl
  have hinside : UnmapDescriptor.Inside
        ⟨(unmapFirst b offset).toNat, (unmapBlocks b len).toNat⟩
        b.blockSize.toNat offset.toNat len.toNat ↔ _ :=
    inside_iff b hb hblocks
  unfold UnmapLenRight
  rw [scsiUnmapLen_eq, scsiUnmap_eq d exec b hblocks, scsiIssue_issued]
  constructor
  · rintro ⟨-, l, hl, hin, hsize, herror⟩
    have hone : l = [unmapIssue d b (unmapFirst b offset)
        (unmapBlocks b len) s] := (List.append_cancel_left hl).symm
    subst hone
    have hp := hin _ (List.mem_singleton_self _)
    rw [hdescs] at hp
    have hfits := hinside.mp (hp _ (List.mem_singleton_self _))
    rw [List.forall_mem_singleton] at hsize herror
    refine ⟨hfits.1, hfits.2, fun hgood => ?_, herror⟩
    rw [← hsum]
    exact hsize hgood
  · intro h
    refine ⟨hb, [unmapIssue d b (unmapFirst b offset) (unmapBlocks b len)
      s], rfl, ?_, ?_, ?_⟩
    · rw [List.forall_mem_singleton, hdescs, List.forall_mem_singleton]
      exact hinside.mpr ⟨h.aligned, h.first⟩
    · rw [List.forall_mem_singleton, hsum]
      exact h.size
    · rw [List.forall_mem_singleton]
      exact h.error

/-- For every offset, length and block size: `scsi_unmap_len` is right
exactly in the case `UnmapLenFits`. -/
theorem unmapLenRight_iff (offset len : U64) (s : ScsiState) :
    UnmapLenRight d exec b offset len s
      ↔ UnmapLenFits d exec b offset len s := by
  constructor
  · intro h
    have hb := h.1
    refine ⟨hb, fun hnone => ?_, fun hsome => ?_⟩
    · exact (unmapNone_iff d exec b offset len s hnone hb).mp h
    · exact (unmapSome_iff d exec b offset len s hsome hb).mp h
  · rintro ⟨hb, hzero, hfits⟩
    by_cases hnone : unmapBlocks b len = 0
    · exact (unmapNone_iff d exec b offset len s hnone hb).mpr (hzero hnone)
    · exact (unmapSome_iff d exec b offset len s hnone hb).mpr (hfits hnone)

/-- For every state, device and LU. The byte range is treated as a caller
expects exactly in the case `UnmapLenFits`; an UNMAP of `count` blocks is
the command it should be exactly when there is none, for `count = 0`. Every
command sent has the one descriptor of the 32-bit block number and the
count, a list of 24 bytes, and announces and sends 30. -/
theorem scsiUnmap_right_iff :
    (∀ offset len s, UnmapLenRight d exec b offset len s
      ↔ UnmapLenFits d exec b offset len s)
    ∧ (∀ (w : Nat) (block : BitVec w) (count : U32) (s : ScsiState),
      (UnmapsOnly s (scsiUnmap d exec b (block.setWidth 32) count s).2
          block.toNat count.toNat
        ↔ count = 0)
      ∧ (count ≠ 0 → ∃ i,
        (scsiUnmap d exec b (block.setWidth 32) count s).2.issued
            = s.issued ++ [i]
          ∧ i.descriptors = [⟨block.toNat % 2 ^ 32, count.toNat⟩]
          ∧ unmapDataLength i.mem i.scm.buf.toNat + 2 = 24
          ∧ cdbParameterListLength i.scm.cdb = 30
          ∧ i.scm.datalen.toNat = 30)) := by
  refine ⟨unmapLenRight_iff d exec b, fun w block count s =>
    ⟨unmapsOnly_iff d exec b block count s, fun hcount => ?_⟩⟩
  refine ⟨unmapIssue d b (block.setWidth 32) count s, ?_, ?_, ?_, ?_, rfl⟩
  · rw [scsiUnmap_eq d exec b hcount, scsiIssue_issued]
    rfl
  · rw [unmapIssue_descriptors, BitVec.toNat_setWidth]
  · rw [unmapIssue_dataLength]
  · rw [unmapIssue_listLength]

end

/-- The first block of a device with blocks of 4096 bytes: one block is
discarded and 16777216 is returned; from offset 1 on, the same block is
discarded, which starts before the range. The command announces 30 bytes
for a list of 24. -/
theorem scsiUnmap_first_block :
    let b : Bdev := ⟨0, 4096⟩
    let s := scsiStart sampleDevScsi fun _ => 0
    let after := (scsiUnmapLen sampleDevScsi onesExec b 0 4096 s).2
    (scsiUnmapLen sampleDevScsi onesExec b 0 4096 s).1 = 16777216
      ∧ after.issued.map (·.descriptors) = [[⟨0, 1⟩]]
      ∧ after.issued.map (fun i => (cdbParameterListLength i.scm.cdb,
          unmapDataLength i.mem i.scm.buf.toNat + 2)) = [(30, 24)]
      ∧ ¬ UnmapLenRight sampleDevScsi onesExec b 0 4096 s
      ∧ ¬ UnmapLenRight sampleDevScsi onesExec b 1 4096 s
      ∧ ¬ UnmapsOnly s (scsiUnmap sampleDevScsi onesExec b 0 1 s).2 0 1 := by
  intro b s after
  have hblocks : unmapBlocks b 4096 ≠ 0 := by decide
  have hissued : after.issued = [unmapIssue sampleDevScsi b
      (unmapFirst b 0) (unmapBlocks b 4096) s] := by
    show (scsiUnmapLen sampleDevScsi onesExec b 0 4096 s).2.issued = _
    rw [scsiUnmapLen_eq, scsiUnmap_eq _ _ _ hblocks, scsiIssue_issued]
    rfl
  refine ⟨rfl, ?_, ?_, ?_, ?_, ?_⟩
  · rw [hissued, List.map_singleton, unmapIssue_descriptors]
    decide
  · rw [hissued, List.map_singleton, unmapIssue_listLength,
      unmapIssue_dataLength]
  · intro h
    have hfits := ((unmapLenRight_iff _ _ _ _ _ _).mp h).2.2 hblocks
    have hsize := hfits.size ⟨rfl, rfl⟩
    revert hsize
    decide
  · intro h
    have hfits := ((unmapLenRight_iff _ _ _ _ _ _).mp h).2.2 hblocks
    have hdvd := hfits.aligned
    revert hdvd
    decide
  · intro h
    have hzero := (unmapsOnly_iff sampleDevScsi onesExec b (0 : U32) 1 s).mp h
    revert hzero
    decide

end Edk2Exynos.Ufs
