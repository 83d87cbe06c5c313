/-
READ (10) and WRITE (10) as the device reads them (scsi.c): what their
command block asks for, and what the hooks of the block layer return.

# Three fields

A transfer names its first block in 32 bits, its length in blocks in 16
bits and its length in bytes in `datalen`, 32 bits again. The driver casts
wider arguments down to each and checks none, so `Requests`, by which the
device transfers what the caller asked for, holds exactly while all three
fit (`scsi10_requests_iff`). `bnum_t` comes from a missing header, so the
block number may be of any width there.

# Two pairs of hooks

`scsi_read_10_sz` and `scsi_write_10_sz` send the same command as the
native hooks, look at the result as they do, and then return a product
that does not depend on it. `HookAgrees` is what a caller of the block
layer expects of the two; it holds of a failed transfer only when the
product happens to be negative as an `ssize_t`.
-/
import Edk2Exynos.Ufs.ScsiShared

namespace Edk2Exynos.Ufs

open Lib

-- ================================================= reading a command block

/-- LOGICAL BLOCK ADDRESS, bytes 2 to 5. -/
def cdbLba (cdb : List U8) : Nat := beNat ((cdb.drop 2).take 4)

/-- TRANSFER LENGTH, bytes 7 and 8. -/
def cdbTransferLength (cdb : List U8) : Nat := beNat ((cdb.drop 7).take 2)

/-- The command asks for `count` blocks from block `block` on. -/
structure ScsiIssue.Requests (i : ScsiIssue) (opcode : U8)
    (blockSize : U64) (block count : Nat) : Prop where
  op : i.scm.cdb.getD 0 0 = opcode
  lba : cdbLba i.scm.cdb = block
  length : cdbTransferLength i.scm.cdb = count
  bytes : i.scm.datalen.toNat = count * blockSize.toNat

section

variable {c : DevUfs} (d : DevScsi c) (exec : ScsiExec) (b : Bdev)

/-- The command block of a transfer. -/
def transfer10Cdb (o : ScsiOpcode) (block count : U32) : List U8 :=
  storeAt 7 (setWordLe ((count.setWidth 16).setWidth 32)) <|
    storeAt 2 (setDwordLe block) <| blankCdb d o

/-- The state in which a transfer is issued. -/
def ScsiState.transfer10 (s : ScsiState) (o : ScsiOpcode) (buf : U64)
    (block count : U32) : ScsiState :=
  s.prepare b buf (dataLen b count) (transfer10Cdb d o block count)

theorem scsiRead10_eq {count : U32} (h : count ≠ 0) (buf : U64)
    (block : U32) (s : ScsiState) :
    scsiRead10 d exec b buf block count s
      = scsiIssue d exec (s.transfer10 d b .read10 buf block count) :=
  if_neg h

theorem scsiWrite10_eq {count : U32} (h : count ≠ 0) (buf : U64)
    (block : U32) (s : ScsiState) :
    scsiWrite10 d exec b buf block count s
      = scsiIssue d exec (s.transfer10 d b .write10 buf block count) :=
  if_neg h

-- ============================================================ the fields

/-- A command block has ten bytes at least. -/
theorem blankCdb_eq (o : ScsiOpcode) : ∃ n, blankCdb d o
    = [d.opcode o, 0, 0, 0, 0, 0, 0, 0, 0, 0] ++ List.replicate n 0 := by
  obtain ⟨n, hn⟩ := Nat.exists_eq_add_of_le d.cdb_room
  refine ⟨n, ?_⟩
  unfold blankCdb
  rw [hn, List.replicate_add]
  rfl

/-- The command block, byte for byte. -/
theorem transfer10Cdb_eq (o : ScsiOpcode) (block count : U32) :
    ∃ rest, transfer10Cdb d o block count = [d.opcode o, 0]
      ++ setDwordLe block ++ [0]
      ++ setWordLe ((count.setWidth 16).setWidth 32) ++ rest := by
  obtain ⟨n, hn⟩ := blankCdb_eq d o
  refine ⟨0 :: List.replicate n 0, ?_⟩
  unfold transfer10Cdb
  rw [hn]
  rfl

/-- The command block begins with the operation. -/
theorem transfer10Cdb_op (o : ScsiOpcode) (block count : U32) :
    (transfer10Cdb d o block count).getD 0 0 = d.opcode o := by
  obtain ⟨rest, h⟩ := transfer10Cdb_eq d o block count
  rw [h]
  rfl

/-- The command block has the first block. -/
theorem transfer10Cdb_lba (o : ScsiOpcode) (block count : U32) :
    cdbLba (transfer10Cdb d o block count) = block.toNat := by
  obtain ⟨rest, h⟩ := transfer10Cdb_eq d o block count
  rw [h]
  exact (beNat_word block).trans (Nat.mod_eq_of_lt block.isLt)

/-- The transfer length loses the upper half of the count. -/
theorem transfer10Cdb_length (o : ScsiOpcode) (block count : U32) :
    cdbTransferLength (transfer10Cdb d o block count)
      = count.toNat % 2 ^ 16 := by
  obtain ⟨rest, h⟩ := transfer10Cdb_eq d o block count
  rw [h]
  have hword := beNat_halfword ((count.setWidth 16).setWidth 32)
  have hcast : ((count.setWidth 16).setWidth 32).toNat
      = count.toNat % 2 ^ 16 := by
    simp only [BitVec.toNat_setWidth]
    omega
  rw [hcast, Nat.mod_mod] at hword
  exact hword

/-- The data's length, cut to 32 bits. -/
theorem dataLen_toNat (count : U32) :
    (dataLen b count).toNat = count.toNat * b.blockSize.toNat % 2 ^ 32 := by
  have hcount : (count.setWidth 64).toNat = count.toNat :=
    BitVec.toNat_setWidth_of_le (by decide)
  unfold dataLen
  rw [BitVec.toNat_setWidth, BitVec.toNat_mul, hcount]
  exact Nat.mod_mod_of_dvd _ (by decide)

-- ========================================== what the device is asked for

/-- Block number, count and length in bytes fit their fields. -/
def TransferFits (block count : Nat) : Prop :=
  block < 2 ^ 32 ∧ count < 2 ^ 16 ∧ count * b.blockSize.toNat < 2 ^ 32

/-- Only what is below the bound is kept by the cut. -/
theorem mod_eq_self_iff {n m : Nat} (hm : 0 < m) : n % m = n ↔ n < m := by
  constructor
  · intro h
    rw [← h]
    exact Nat.mod_lt n hm
  · exact Nat.mod_eq_of_lt

/-- A transfer asks for what it should exactly when that fits. -/
theorem transfer10_requests_iff {w : Nat} (o : ScsiOpcode) (buf : U64)
    (block : BitVec w) (count : U32) (s : ScsiState) :
    ScsiIssue.Requests
        ⟨(s.transfer10 d b o buf (block.setWidth 32) count).scm, s.mem⟩
        (d.opcode o) b.blockSize block.toNat count.toNat
      ↔ TransferFits b block.toNat count.toNat := by
  have hlba := (transfer10Cdb_lba d o (block.setWidth 32) count).trans
    (BitVec.toNat_setWidth 32 block)
  have hlength := transfer10Cdb_length d o (block.setWidth 32) count
  have hbytes := dataLen_toNat b count
  constructor
  · intro h
    refine ⟨?_, ?_, ?_⟩
    · apply (mod_eq_self_iff (by decide)).mp
      exact hlba.symm.trans h.lba
    · apply (mod_eq_self_iff (by decide)).mp
      exact hlength.symm.trans h.length
    · apply (mod_eq_self_iff (by decide)).mp
      exact hbytes.symm.trans h.bytes
  · intro ⟨hblock, hcount, hsize⟩
    refine ⟨transfer10Cdb_op d o _ _, ?_, ?_, ?_⟩
    · exact hlba.trans (Nat.mod_eq_of_lt hblock)
    · exact hlength.trans (Nat.mod_eq_of_lt hcount)
    · exact hbytes.trans (Nat.mod_eq_of_lt hsize)

/-- The operation issues one command, and that command asks for `count`
blocks from `block` on. -/
def IssuesRequest (after : ScsiState) (s : ScsiState) (opcode : U8)
    (block count : Nat) : Prop :=
  ∃ i, after.issued = s.issued ++ [i]
    ∧ i.Requests opcode b.blockSize block count

/-- When the request made is the one asked for. -/
theorem issuesRequest_iff {w : Nat} (o : ScsiOpcode) (buf : U64)
    (block : BitVec w) (count : U32) (s : ScsiState) :
    IssuesRequest b (scsiIssue d exec
        (s.transfer10 d b o buf (block.setWidth 32) count)).2 s
        (d.opcode o) block.toNat count.toNat
      ↔ TransferFits b block.toNat count.toNat := by
  rw [← transfer10_requests_iff d b o buf block count s]
  constructor
  · rintro ⟨i, hi, hreq⟩
    have heq := List.append_cancel_left hi
    rw [List.cons.injEq] at heq
    rw [← heq.1] at hreq
    exact hreq
  · intro hreq
    exact ⟨_, rfl, hreq⟩

/-- For every block number, count above zero and block size: READ (10) and
WRITE (10) ask the device for exactly the blocks that were requested if
and only if the block number fits 32 bits, the count 16, and the length
in bytes 32. -/
theorem scsi10_requests_iff {w : Nat} (buf : U64) (block : BitVec w)
    (count : U32) (s : ScsiState) (h : count ≠ 0) :
    (IssuesRequest b
        (scsiRead10 d exec b buf (block.setWidth 32) count s).2 s
        (d.opcode .read10) block.toNat count.toNat
      ↔ TransferFits b block.toNat count.toNat)
    ∧ (IssuesRequest b
        (scsiWrite10 d exec b buf (block.setWidth 32) count s).2 s
        (d.opcode .write10) block.toNat count.toNat
      ↔ TransferFits b block.toNat count.toNat) := by
  rw [scsiRead10_eq d exec b h, scsiWrite10_eq d exec b h]
  exact ⟨issuesRequest_iff d exec b _ _ _ _ _,
    issuesRequest_iff d exec b _ _ _ _ _⟩

-- ================================================ the size-returning hooks

/-- The lower driver takes the command and the device completes it with
the status GOOD. -/
def CompletedGood (s : ScsiState) (i : ScsiIssue) : Prop :=
  (exec s.issued i).ret = 0 ∧ (exec s.issued i).status = 0

/-- The command that is prepared completes so. -/
def Accepted (t : ScsiState) : Prop := CompletedGood exec t ⟨t.scm, t.mem⟩

/-- What the two hooks of a pair should return for a transfer of `n`
bytes: the size for NO_ERROR, a negative value for a failure. -/
def HookAgrees (c : DevUfs) (n : Nat) (sz native : Int) : Prop :=
  (sz = n ↔ native = c.noError) ∧ (sz < 0 ↔ native ≠ c.noError)

/-- No error is returned when the command is accepted. -/
theorem scsiIssue_noError_iff (t : ScsiState) :
    (scsiIssue d exec t).1 = c.noError ↔ Accepted exec t := by
  have hdenied : d.errAccessDenied ≠ c.noError := by
    rw [c.noError_eq]
    exact d.errAccessDenied_neg.ne
  unfold scsiIssue scsiParseStatus Accepted CompletedGood
  dsimp only
  by_cases hret : (exec t.issued ⟨t.scm, t.mem⟩).ret = 0
  · rw [if_pos hret]
    by_cases hstatus : (exec t.issued ⟨t.scm, t.mem⟩).status = 0
    · rw [if_pos hstatus]
      exact ⟨fun _ => ⟨hret, hstatus⟩, fun _ => rfl⟩
    · rw [if_neg hstatus]
      exact ⟨fun h => absurd h hdenied, fun h => absurd h.2 hstatus⟩
  · rw [if_neg hret, c.noError_eq]
    exact ⟨fun h => absurd h hret, fun h => absurd h.1 hret⟩

/-- A 64-bit word as an `ssize_t` is `n` when it is `n` and the sign bit
is clear. -/
theorem toInt_eq_natCast_iff (x : U64) (n : Nat) :
    x.toInt = n ↔ x.toNat = n ∧ n < 2 ^ 63 := by
  have hx := x.isLt
  rw [BitVec.toInt_eq_toNat_cond]
  split
  · omega
  · omega

/-- A double word with its top bit is negative. -/
theorem toInt_neg_iff (x : U64) : x.toInt < 0 ↔ 2 ^ 63 ≤ x.toNat := by
  have hx := x.isLt
  rw [BitVec.toInt_eq_toNat_cond]
  split
  · omega
  · omega

/-- A hook that returns `x` whatever happened. -/
theorem hookAgrees_iff (x : U64) (n : Nat) (t : ScsiState) :
    HookAgrees c n x.toInt (scsiIssue d exec t).1
      ↔ (Accepted exec t ∧ x.toNat = n ∧ n < 2 ^ 63)
        ∨ (¬ Accepted exec t ∧ 2 ^ 63 ≤ x.toNat) := by
  unfold HookAgrees
  rw [toInt_eq_natCast_iff, toInt_neg_iff, ne_eq,
    scsiIssue_noError_iff d exec t]
  by_cases hacc : Accepted exec t
  · simp only [hacc, iff_true, not_true, iff_false, true_and, false_and,
      or_false]
    constructor
    · intro h
      exact h.1
    · intro h
      refine ⟨h, ?_⟩
      omega
  · simp only [hacc, iff_false, not_false_iff, iff_true, true_and, false_and,
      false_or]
    constructor
    · intro h
      exact h.2
    · intro h
      refine ⟨?_, h⟩
      omega

/-- The bytes of a block number, cut to 64 bits. -/
theorem product_toNat (x : U32) :
    (x.setWidth 64 * b.blockSize).toNat
      = x.toNat * b.blockSize.toNat % 2 ^ 64 := by
  have hx : (x.setWidth 64).toNat = x.toNat :=
    BitVec.toNat_setWidth_of_le (by decide)
  rw [BitVec.toNat_mul, hx]

/-- Both size-returning hooks leave everything as the native ones do. That
of READ (10) agrees with the native hook on the result exactly when the
transfer succeeds with a size that is no negative `ssize_t`, or fails with
one that is; that of WRITE (10) looks at the place of the first block
instead of the size. -/
theorem scsi10_sz_agrees_iff (buf : U64) (block count : U32)
    (s : ScsiState) (h : count ≠ 0) :
    let place := block.toNat * b.blockSize.toNat
    let size := count.toNat * b.blockSize.toNat
    let readAccepted :=
      Accepted exec (s.transfer10 d b .read10 buf block count)
    let writeAccepted :=
      Accepted exec (s.transfer10 d b .write10 buf block count)
    (scsiRead10Sz d exec b buf block count s).2
        = (scsiRead10 d exec b buf block count s).2
      ∧ (scsiWrite10Sz d exec b buf block count s).2
        = (scsiWrite10 d exec b buf block count s).2
      ∧ (HookAgrees c size (scsiRead10Sz d exec b buf block count s).1
          (scsiRead10 d exec b buf block count s).1
        ↔ (readAccepted ∧ size < 2 ^ 63)
          ∨ (¬ readAccepted ∧ 2 ^ 63 ≤ size % 2 ^ 64))
      ∧ (HookAgrees c size (scsiWrite10Sz d exec b buf block count s).1
          (scsiWrite10 d exec b buf block count s).1
        ↔ (writeAccepted ∧ place % 2 ^ 64 = size ∧ size < 2 ^ 63)
          ∨ (¬ writeAccepted ∧ 2 ^ 63 ≤ place % 2 ^ 64)) := by
  intro place size readAccepted writeAccepted
  rw [scsiRead10_eq d exec b h, scsiWrite10_eq d exec b h]
  refine ⟨rfl, rfl, ?_, ?_⟩
  · have hiff := hookAgrees_iff d exec (count.setWidth 64 * b.blockSize)
      size (s.transfer10 d b .read10 buf block count)
    rw [product_toNat] at hiff
    have hmod : size % 2 ^ 64 = size ∧ size < 2 ^ 63 ↔ size < 2 ^ 63 := by
      omega
    rw [hmod] at hiff
    exact hiff
  · have hiff := hookAgrees_iff d exec (block.setWidth 64 * b.blockSize)
      size (s.transfer10 d b .write10 buf block count)
    rw [product_toNat] at hiff
    exact hiff

end

/-- 65536 blocks of 4096 bytes: the transfer length wraps around to 0
while `datalen` does not. -/
theorem scsiRead10_lost_length :
    let b : Bdev := ⟨0, 4096⟩
    let after := (scsiRead10 sampleDevScsi onesExec b 0x90000000 0 0x10000
      (scsiStart sampleDevScsi fun _ => 0)).2
    after.issued.map (fun i => (cdbTransferLength i.scm.cdb,
        i.scm.datalen.toNat)) = [(0, 0x10000 * 4096)]
      ∧ ¬ IssuesRequest b after (scsiStart sampleDevScsi fun _ => 0)
        (sampleDevScsi.opcode .read10) 0 0x10000 := by
  intro b after
  have hissued : after.issued.map (fun i => (cdbTransferLength i.scm.cdb,
      i.scm.datalen.toNat)) = [(0, 0x10000 * 4096)] := rfl
  refine ⟨hissued, ?_⟩
  rintro ⟨i, hi, hreq⟩
  rw [hi] at hissued
  simp only [List.map_append, List.map_cons, hreq.length] at hissued
  cases hissued

theorem scsi10_requests_one :
    let b : Bdev := ⟨0, 4096⟩
    let s := scsiStart sampleDevScsi fun _ => 0
    (IssuesRequest b
        (scsiRead10 sampleDevScsi onesExec b 0x90000000 7 1 s).2 s
        (sampleDevScsi.opcode .read10) 7 1)
      ∧ (IssuesRequest b
        (scsiWrite10 sampleDevScsi onesExec b 0x90000000 7 1 s).2 s
        (sampleDevScsi.opcode .write10) 7 1) := by
  intro b s
  have hfits : TransferFits b 7 1 := by
    simp [TransferFits, b]
  have h := scsi10_requests_iff sampleDevScsi onesExec b 0x90000000
    (7 : U32) 1 s (by decide)
  exact ⟨h.1.mpr hfits, h.2.mpr hfits⟩

/-- A device that is busy. -/
def busyExec : ScsiExec := fun _ _ => ⟨0, 8, [], []⟩

/-- A read from a busy device counts as a full one, and so does a write;
a write to block 2 that succeeds counts as one of two blocks. -/
theorem scsi10_sz_lost_error :
    let b : Bdev := ⟨0, 4096⟩
    let s := scsiStart sampleDevScsi fun _ => 0
    (scsiRead10Sz sampleDevScsi busyExec b 0x90000000 1 1 s).1 = 4096
      ∧ (scsiRead10 sampleDevScsi busyExec b 0x90000000 1 1 s).1 = -11
      ∧ (scsiWrite10Sz sampleDevScsi busyExec b 0x90000000 1 1 s).1 = 4096
      ∧ (scsiWrite10 sampleDevScsi busyExec b 0x90000000 1 1 s).1 = -11
      ∧ (scsiWrite10Sz sampleDevScsi onesExec b 0x90000000 2 1 s).1 = 8192
      ∧ (scsiWrite10 sampleDevScsi onesExec b 0x90000000 2 1 s).1 = 0
      ∧ ¬ HookAgrees sampleDevUfs 4096
        (scsiRead10Sz sampleDevScsi busyExec b 0x90000000 1 1 s).1
        (scsiRead10 sampleDevScsi busyExec b 0x90000000 1 1 s).1
      ∧ ¬ HookAgrees sampleDevUfs 4096
        (scsiWrite10Sz sampleDevScsi onesExec b 0x90000000 2 1 s).1
        (scsiWrite10 sampleDevScsi onesExec b 0x90000000 2 1 s).1 := by
  intro b s
  refine ⟨rfl, rfl, rfl, rfl, rfl, rfl, ?_, ?_⟩
  · intro h
    have hfail : (4096 : Int) < 0 := h.2.mpr (by decide)
    omega
  · intro h
    have hsize : (8192 : Int) = 4096 := h.1.mpr rfl
    omega

/-- A read of one block and a write of block 1 that succeed. -/
theorem scsi10_sz_agrees_one :
    let b : Bdev := ⟨0, 4096⟩
    let s := scsiStart sampleDevScsi fun _ => 0
    HookAgrees sampleDevUfs 4096
        (scsiRead10Sz sampleDevScsi onesExec b 0x90000000 1 1 s).1
        (scsiRead10 sampleDevScsi onesExec b 0x90000000 1 1 s).1
      ∧ HookAgrees sampleDevUfs 4096
        (scsiWrite10Sz sampleDevScsi onesExec b 0x90000000 1 1 s).1
        (scsiWrite10 sampleDevScsi onesExec b 0x90000000 1 1 s).1 := by
  intro b s
  have h := scsi10_sz_agrees_iff sampleDevScsi onesExec b 0x90000000 1 1 s
    (by decide)
  have hread : Accepted onesExec
      (s.transfer10 sampleDevScsi b .read10 0x90000000 1 1) := ⟨rfl, rfl⟩
  have hwrite : Accepted onesExec
      (s.transfer10 sampleDevScsi b .write10 0x90000000 1 1) := ⟨rfl, rfl⟩
  have hsize : (1 : U32).toNat * b.blockSize.toNat = 4096 := rfl
  dsimp only at h
  rw [hsize] at h
  refine ⟨h.2.2.1.mpr (Or.inl ⟨hread, ?_⟩),
    h.2.2.2.mpr (Or.inl ⟨hwrite, ?_, ?_⟩)⟩
  · omega
  · omega
  · omega

end Edk2Exynos.Ufs
