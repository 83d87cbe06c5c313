/-
What the operations of scsi.c hand over, and how it depends on the
commands issued before.

# Explicit operations

An operation is explicit when it sets, before it calls `sdev->exec`, all
that the lower driver reads: the block, the length, and for a length
above zero the buffer. An explicit operation hands over the same in any
two states (`handed_explicit`); no invariant of the shared objects is
needed, which is why nothing is assumed of the operations before it.

# The others

`scsi_format_unit` and `scsi_mode_sense` set the block only and leave
the length to the command before. `scsi_unmap` announces thirty bytes
and clears twenty-four: the last six are what `g_buf` held, and an
INQUIRY into `g_buf` (`scsi_scan_common`) puts the device's own bytes
there.

# Arguments

What a caller's buffer holds when the operation starts is one of its
arguments: a `Mem` whose first bytes, up to the length of the transfer,
the caller has stored there.
-/
import Edk2Exynos.Ufs.Scsi
import Edk2Exynos.Ufs.TransferResult

namespace Edk2Exynos.Ufs

open Lib

-- =============================================================== calls

/-- A call of one of the operations. -/
inductive ScsiCall where
  | read10Sz (buf : U64) (block count : U32)
  | read10 (buf : U64) (block count : U32)
  | write10Sz (buf : U64) (block count : U32)
  | write10 (buf : U64) (block count : U32)
  | writeBuffer (buf : U64) (mode bufId : U8) (bufOfs len : U32)
  | ufsFfu (buf : U64) (len : U32)
  | unmap (block count : U32)
  | unmapLen (offset len : U64)
  | startStopUnit
  | inquiry (buf : U64)
  | modeSense
  | readCapacity10 (buf : U64)
  | formatUnit
  | secuProtIn (buf : U64) (block count : U32)
  | secuProtOut (buf : U64) (block count : U32)

/-- What an operation hands over: the block, the length, and the payload
of a transfer to the device. -/
structure Handed where
  cdb : List U8
  datalen : U32
  payload : List U8
  deriving DecidableEq

/-- What the lower driver is handed: the command, its length, and the data
that go to the device. -/
def ScsiIssue.handed (c : DevUfs) (i : ScsiIssue) : Handed where
  cdb := i.scm.cdb
  datalen := i.scm.datalen
  payload :=
    if (i.scm.op c).hostToDevice then
      readBytes i.mem i.scm.buf.toNat i.scm.datalen.toNat
    else []

section

variable {c : DevUfs} (d : DevScsi c) (exec : ScsiExec) (b : Bdev)

/-- A call of the library. -/
def ScsiCall.run : ScsiCall → ScsiState → Int × ScsiState
  | .read10Sz buf block count => scsiRead10Sz d exec b buf block count
  | .read10 buf block count => scsiRead10 d exec b buf block count
  | .write10Sz buf block count => scsiWrite10Sz d exec b buf block count
  | .write10 buf block count => scsiWrite10 d exec b buf block count
  | .writeBuffer buf mode bufId bufOfs len =>
      scsiWriteBuffer d exec b buf mode bufId bufOfs len
  | .ufsFfu buf len => scsiUfsFfu d exec b buf len
  | .unmap block count => scsiUnmap d exec b block count
  | .unmapLen offset len => scsiUnmapLen d exec b offset len
  | .startStopUnit => scsiStartStopUnit d exec b
  | .inquiry buf => scsiInquiry d exec b buf
  | .modeSense => scsiModeSense d exec b
  | .readCapacity10 buf => scsiReadCapacity10 d exec b buf
  | .formatUnit => scsiFormatUnit d exec b
  | .secuProtIn buf block count => scsiSecuProtIn d exec b buf block count
  | .secuProtOut buf block count =>
      scsiSecuProtOut d exec b buf block count

/-- The caller's buffer and its length. -/
def ScsiCall.buffer : ScsiCall → U64 × U32
  | .read10Sz buf _ count | .read10 buf _ count | .write10Sz buf _ count
  | .write10 buf _ count | .secuProtIn buf _ count
  | .secuProtOut buf _ count => (buf, dataLen b count)
  | .writeBuffer buf _ _ _ len | .ufsFfu buf len => (buf, len)
  | .inquiry buf => (buf, 255)
  | .readCapacity10 buf => (buf, 8)
  | .unmap .. | .unmapLen .. | .startStopUnit | .modeSense
  | .formatUnit => (0, 0)

/-- The state in which an operation starts: the caller has filled its
buffer from `src`. -/
def ScsiCall.enter (call : ScsiCall) (src : Mem) (s : ScsiState) :
    ScsiState :=
  let (buf, len) := call.buffer b
  { s with
    mem := writeBytes s.mem buf.toNat (readBytes src 0 len.toNat) }

/-- The commands issued before, oldest first. -/
def scsiHistory (h : List (ScsiCall × Mem)) (s : ScsiState) : ScsiState :=
  h.foldl (fun s call =>
    (call.1.run d exec b (call.1.enter b call.2 s)).2) s

/-- `g_scm` and `g_buf` as the loader clears them. -/
def scsiStart (mem : Mem) : ScsiState where
  scm := ⟨List.replicate d.maxCdbSize 0, 0, 0, 0, 0, []⟩
  mem := writeBytes mem d.gBuf.toNat (List.replicate 4096 0)
  issued := []

/-- What a call hands to `sdev->exec`, if it calls it. -/
def ScsiCall.handed (call : ScsiCall) (src : Mem) (s : ScsiState) :
    Option Handed :=
  (((call.run d exec b (call.enter b src s)).2.issued.drop
    s.issued.length).head?).map (·.handed c)

/-- The operations that hand over nothing of the shared objects. -/
def ScsiCall.explicit : ScsiCall → Prop
  | .modeSense | .formatUnit => False
  | .unmap _ count => count = 0
  | .unmapLen _ len => (len / b.blockSize).setWidth 32 = (0 : U32)
  | _ => True

-- ================================================= what is handed over

@[simp] theorem scsiIssue_issued (s : ScsiState) :
    (scsiIssue d exec s).2.issued = s.issued ++ [⟨s.scm, s.mem⟩] := rfl

@[simp] theorem prepare_issued (s : ScsiState) (buf : U64) (len : U32)
    (cdb : List U8) : (s.prepare b buf len cdb).issued = s.issued := rfl

@[simp] theorem prepareCdb_issued (s : ScsiState) (cdb : List U8) :
    (s.prepareCdb b cdb).issued = s.issued := rfl

@[simp] theorem enter_issued (call : ScsiCall) (src : Mem)
    (s : ScsiState) : (call.enter b src s).issued = s.issued := rfl

/-- An operation that ends in an issue hands over that issue. -/
theorem handed_of_issue {call : ScsiCall} {src : Mem} {s t : ScsiState}
    (hrun : (call.run d exec b (call.enter b src s)).2
      = (scsiIssue d exec t).2)
    (ht : t.issued = s.issued) :
    call.handed d exec b src s
      = some (ScsiIssue.handed c ⟨t.scm, t.mem⟩) := by
  unfold ScsiCall.handed
  rw [hrun, scsiIssue_issued, ht]
  simp

/-- An operation that returns before the issue hands over nothing. -/
theorem handed_of_return {call : ScsiCall} {src : Mem} {s : ScsiState}
    (hrun : (call.run d exec b (call.enter b src s)).2
      = call.enter b src s) :
    call.handed d exec b src s = none := by
  unfold ScsiCall.handed
  rw [hrun, enter_issued]
  simp

/-- A prepared command hands over its own fields, and of memory what
the caller put in the buffer. -/
theorem handed_prepare {call : ScsiCall} {src : Mem} (s : ScsiState)
    {buf : U64} {len : U32} (cdb : List U8)
    (hbuf : call.buffer b = (buf, len)) :
    ScsiIssue.handed c ⟨((call.enter b src s).prepare b buf len cdb).scm,
        ((call.enter b src s).prepare b buf len cdb).mem⟩
      = { cdb := cdb
          datalen := len
          payload :=
            if (c.scsiOp (cdb.getD 0 0)).hostToDevice then
              readBytes src 0 len.toNat
            else [] } := by
  have hmem : ((call.enter b src s).prepare b buf len cdb).mem
      = writeBytes s.mem buf.toNat (readBytes src 0 len.toNat) := by
    simp [ScsiCall.enter, ScsiState.prepare, hbuf]
  have hread : readBytes (writeBytes s.mem buf.toNat
        (readBytes src 0 len.toNat)) buf.toNat len.toNat
      = readBytes src 0 len.toNat :=
    readBytes_writeBytes_same (by simp)
  unfold ScsiIssue.handed
  simp only [hmem]
  simp only [ScsiState.prepare, ScsiCmd.op, hread]

/-- So two states make no difference to it. -/
theorem handed_same_of_prepare {call : ScsiCall} (src : Mem)
    {buf : U64} {len : U32} {cdb : List U8}
    (hbuf : call.buffer b = (buf, len))
    (hrun : ∀ s, (call.run d exec b s).2
      = (scsiIssue d exec (s.prepare b buf len cdb)).2)
    (s s' : ScsiState) :
    call.handed d exec b src s = call.handed d exec b src s' := by
  rw [handed_of_issue d exec b (hrun _) rfl,
    handed_of_issue d exec b (hrun _) rfl,
    handed_prepare b s cdb hbuf, handed_prepare b s' cdb hbuf]

theorem handed_same_of_return {call : ScsiCall} (src : Mem)
    (hrun : ∀ s, (call.run d exec b s).2 = s) (s s' : ScsiState) :
    call.handed d exec b src s = call.handed d exec b src s' := by
  rw [handed_of_return d exec b (hrun _), handed_of_return d exec b (hrun _)]

/-- Nor does it to one that refuses an empty transfer. -/
theorem handed_same_of_guarded {call : ScsiCall} (src : Mem)
    {buf : U64} {count len : U32} {cdb : List U8}
    (hbuf : call.buffer b = (buf, len))
    (hrun : ∀ s, call.run d exec b s
      = if count = 0 then (-1, s)
        else scsiIssue d exec (s.prepare b buf len cdb))
    (s s' : ScsiState) :
    call.handed d exec b src s = call.handed d exec b src s' := by
  by_cases hc : count = 0
  · refine handed_same_of_return d exec b src (fun t => ?_) s s'
    rw [hrun, if_pos hc]
  · have hissue : ∀ t, (call.run d exec b t).2
        = (scsiIssue d exec (t.prepare b buf len cdb)).2 := by
      intro t
      rw [hrun, if_neg hc]
    exact handed_same_of_prepare d exec b src hbuf hissue s s'

theorem handed_startStopUnit (src : Mem) (s : ScsiState) :
    ScsiCall.startStopUnit.handed d exec b src s
      = some { cdb := storeAt 4 [3 <<< 4] (blankCdb d .startStopUnit)
               datalen := 0
               payload := [] } := by
  unfold ScsiCall.handed ScsiCall.run scsiStartStopUnit
  rw [scsiIssue_issued]
  simp [ScsiIssue.handed, ScsiState.prepareCdb, ScsiCall.enter]

/-- An explicit operation hands over the same in any two states. -/
theorem handed_explicit {call : ScsiCall} (h : call.explicit b)
    (src : Mem) (s s' : ScsiState) :
    call.handed d exec b src s = call.handed d exec b src s' := by
  cases call with
  | read10Sz buf block count | write10Sz buf block count =>
      exact handed_same_of_prepare d exec b src rfl (fun _ => rfl) s s'
  | read10 buf block count | write10 buf block count =>
      exact handed_same_of_guarded d exec b src rfl (fun _ => rfl) s s'
  | writeBuffer buf mode bufId bufOfs len | ufsFfu buf len =>
      exact handed_same_of_prepare d exec b src rfl (fun _ => rfl) s s'
  | unmap block count =>
      refine handed_same_of_return d exec b src (fun t => ?_) s s'
      simp [ScsiCall.run, scsiUnmap, show count = 0 from h]
  | unmapLen offset len =>
      have hc : (len / b.blockSize).setWidth 32 = (0 : U32) := h
      refine handed_same_of_return d exec b src (fun t => ?_) s s'
      simp [ScsiCall.run, scsiUnmapLen, scsiUnmap, hc]
  | startStopUnit =>
      rw [handed_startStopUnit, handed_startStopUnit]
  | inquiry buf | readCapacity10 buf =>
      exact handed_same_of_prepare d exec b src rfl (fun _ => rfl) s s'
  | modeSense => exact h.elim
  | formatUnit => exact h.elim
  | secuProtIn buf block count | secuProtOut buf block count =>
      exact handed_same_of_prepare d exec b src rfl (fun _ => rfl) s s'

-- ==================================================== what is left over

theorem storeAt_head {i : Nat} (hi : 0 < i) (bs : List U8) {p : List U8}
    (hp : p ≠ []) : (storeAt i bs p).getD 0 0 = p.getD 0 0 := by
  cases p with
  | nil => exact absurd rfl hp
  | cons x p =>
      cases i with
      | zero => exact absurd hi (Nat.lt_irrefl 0)
      | succ i => simp [storeAt]

@[simp] theorem blankCdb_head (o : ScsiOpcode) :
    (blankCdb d o).getD 0 0 = d.opcode o := by
  simp [blankCdb, storeAt]

theorem blankCdb_ne_nil (o : ScsiOpcode) : blankCdb d o ≠ [] := by
  simp [blankCdb, storeAt]

/-- An operation that sets the block only hands over the length it
finds. -/
theorem handed_prepareCdb {call : ScsiCall} {src : Mem} {cdb : List U8}
    (hrun : ∀ s, (call.run d exec b s).2
      = (scsiIssue d exec (s.prepareCdb b cdb)).2) (s : ScsiState) :
    (call.handed d exec b src s).map (·.datalen)
      = some s.scm.datalen := by
  rw [handed_of_issue d exec b (hrun _) rfl]
  rfl

/-- A READ CAPACITY leaves its length behind. -/
theorem readCapacity10_datalen (s : ScsiState) :
    (scsiHistory d exec b [(.readCapacity10 0, fun _ => 0)] s).scm.datalen
      = 8 := rfl

/-- The last byte but five of the parameter list is not its own. -/
theorem unmapParameters_rest (a : Nat) (block count : U32) (mem : Mem) :
    unmapParameters a block count mem (a + 24) = mem (a + 24) := by
  unfold unmapParameters
  rw [writeBytes_outside (by simp [setDwordLe]),
    writeBytes_outside (by simp [setDwordLe]),
    writeBytes_outside (by simp [setWordLe]),
    writeBytes_outside (by simp [setWordLe]),
    writeBytes_outside (by
      simp [scsiUnmapDataLen, scsiUnmapBlockDescDataLen])]

/-- UNMAP sends it all the same. -/
theorem handed_unmap {call : ScsiCall} {src : Mem} {block count : U32}
    (hrun : ∀ s, (call.run d exec b s).2
      = (scsiUnmap d exec b block count s).2)
    (hcount : count ≠ 0) (s : ScsiState) :
    (call.handed d exec b src s).map (·.payload.getD 24 0)
      = some ((call.enter b src s).mem (d.gBuf.toNat + 24)) := by
  have hissue : ∀ t, (call.run d exec b t).2
      = (scsiIssue d exec
          { (t.prepare b d.gBuf (scsiUnmapDataLen + 8)
              (storeAt 7 (setWordLe (scsiUnmapDataLen + 8))
                (blankCdb d .unmap))) with
            mem := unmapParameters d.gBuf.toNat block count t.mem }).2 := by
    intro t
    rw [hrun]
    exact congrArg Prod.snd (if_neg hcount)
  have hop : c.scsiOp ((storeAt 7 (setWordLe (scsiUnmapDataLen + 8))
      (blankCdb d .unmap)).getD 0 0) = .unmap := by
    rw [storeAt_head (by simp) _ (blankCdb_ne_nil d _), blankCdb_head,
      d.scsiOp_opcode]
    rfl
  rw [handed_of_issue d exec b (hissue _) rfl]
  simp only [ScsiIssue.handed, ScsiState.prepare, ScsiCmd.op, hop,
    ScsiOp.hostToDevice, if_true, Option.map_some]
  rw [readBytes_getD (by
    simp [scsiUnmapDataLen, scsiUnmapBlockDescDataLen]),
    unmapParameters_rest]

/-- An INQUIRY into `g_buf` leaves the device's bytes there. -/
theorem inquiry_gBuf (s : ScsiState) {x : U8} {n : Nat} (hn : 24 < n)
    (hexec : ∀ l i, (exec l i).data = List.replicate n x) :
    (scsiHistory d exec b [(.inquiry d.gBuf, fun _ => 0)] s).mem
      (d.gBuf.toNat + 24) = x := by
  have hop : c.scsiOp ((storeAt 3 (setWordLe 255)
      (blankCdb d .inquiry)).getD 0 0) = .other := by
    rw [storeAt_head (by simp) _ (blankCdb_ne_nil d _), blankCdb_head,
      d.scsiOp_opcode]
    rfl
  simp only [scsiHistory, List.foldl, ScsiCall.run, scsiInquiry, scsiIssue,
    ScsiState.prepare, ScsiCmd.op, hop, ScsiOp.hostToDevice, hexec]
  have hlen : 24 < ((List.replicate n x).take (255 : U32).toNat).length := by
    rw [List.length_take, List.length_replicate]
    exact lt_min (by decide) hn
  exact (writeBytes_inside hlen).trans (by simp)

/-- `g_buf` starts clear. -/
theorem scsiStart_gBuf (mem : Mem) {i : Nat} (hi : i < 4096) :
    (scsiStart d mem).mem (d.gBuf.toNat + i) = 0 := by
  have hlen : i < (List.replicate 4096 (0 : U8)).length := by
    rwa [List.length_replicate]
  exact (writeBytes_inside hlen).trans (List.getElem_replicate _)

/-- A device that sends ones whatever it is asked. -/
def onesExec : ScsiExec := fun _ _ => ⟨0, 0, [], List.replicate 255 0xFF⟩

-- ================================================ dependence on history

/-- The histories make no difference to what `call` hands over. -/
def ScsiCall.Independent (call : ScsiCall) : Prop :=
  ∀ (exec : ScsiExec) (src mem : Mem) (h h' : List (ScsiCall × Mem)),
    call.handed d exec b src (scsiHistory d exec b h (scsiStart d mem))
      = call.handed d exec b src
          (scsiHistory d exec b h' (scsiStart d mem))

/-- They do to an operation that sets the block only: at first the
length is zero, after a READ CAPACITY it is eight. -/
theorem not_independent_of_prepareCdb {call : ScsiCall} {cdb : List U8}
    (hrun : ∀ exec s, (call.run d exec b s).2
      = (scsiIssue d exec (s.prepareCdb b cdb)).2) :
    ¬ call.Independent d b := by
  intro h
  have hsame := h onesExec (fun _ => 0) (fun _ => 0) []
    [(.readCapacity10 0, fun _ => 0)]
  have hlen := congrArg (·.map (·.datalen)) hsame
  simp only [handed_prepareCdb d onesExec b (hrun onesExec),
    readCapacity10_datalen] at hlen
  cases hlen

/-- They do to an UNMAP: at first `g_buf` is clear, after an INQUIRY it
holds the device's bytes. -/
theorem not_independent_of_unmap {call : ScsiCall} {block count : U32}
    (hrun : ∀ exec s, (call.run d exec b s).2
      = (scsiUnmap d exec b block count s).2)
    (hcount : count ≠ 0) (henter : call.buffer b = (0, 0)) :
    ¬ call.Independent d b := by
  intro h
  have hkeep : ∀ s, (call.enter b (fun _ => 0) s).mem = s.mem := by
    intro s
    simp [ScsiCall.enter, henter]
  have hsame := h onesExec (fun _ => 0) (fun _ => 0) []
    [(.inquiry d.gBuf, fun _ => 0)]
  have hbyte := congrArg (·.map (·.payload.getD 24 0)) hsame
  have hleft := inquiry_gBuf d onesExec b (scsiStart d (fun _ => 0))
    (show 24 < 255 by decide) (fun _ _ => rfl)
  simp only [handed_unmap d onesExec b (hrun onesExec) hcount, hkeep,
    hleft] at hbyte
  rw [scsiHistory, List.foldl_nil, scsiStart_gBuf d _ (by decide)] at hbyte
  cases hbyte

/-- What an operation hands over does not depend on the commands issued
before it, whatever they were and whatever the device answered, exactly
when the operation is explicit. -/
theorem scsiCall_independent_iff (call : ScsiCall) :
    call.Independent d b ↔ call.explicit b := by
  constructor
  · intro h
    cases call with
    | modeSense =>
        exact not_independent_of_prepareCdb d b (fun _ _ => rfl) h
    | formatUnit =>
        exact not_independent_of_prepareCdb d b (fun _ _ => rfl) h
    | unmap block count =>
        by_contra hcount
        exact not_independent_of_unmap d b (fun _ _ => rfl) hcount rfl h
    | unmapLen offset len =>
        by_contra hcount
        exact not_independent_of_unmap d b (fun _ _ => rfl) hcount rfl h
    | read10Sz | read10 | write10Sz | write10 | writeBuffer | ufsFfu
    | startStopUnit | inquiry | readCapacity10 | secuProtIn
    | secuProtOut => exact True.intro
  · intro h exec src mem hist hist'
    exact handed_explicit d exec b h src _ _

end

-- ============================================== FORMAT UNIT after a read

/-- Codes and sizes as the standards have them. -/
def sampleDevScsi : DevScsi sampleDevUfs where
  opcode
    | .read10 => 0x28
    | .write10 => 0x2A
    | .writeBuffer => 0x3B
    | .unmap => 0x42
    | .startStopUnit => 0x1B
    | .inquiry => 0x12
    | .requestSense => 0x03
    | .readCapacity10 => 0x25
    | .formatUnit => 0x04
    | .secuProtIn => 0xA2
    | .secuProtOut => 0xB5
  scsiOp_opcode := by
    intro o
    cases o <;> rfl
  maxCdbSize := 16
  cdb_room := by decide
  errAccessDenied := -11
  errAccessDenied_neg := by decide
  gBuf := 0x80000000
  gBuf_room := by decide

/-- What a scan does on the way to a block device. -/
def scanCalls : List (ScsiCall × Mem) :=
  [(.inquiry sampleDevScsi.gBuf, fun _ => 0), (.modeSense, fun _ => 0),
    (.readCapacity10 sampleDevScsi.gBuf, fun _ => 0)]

/-- A FORMAT UNIT right after the scan is sent with eight bytes of data,
one after a READ (10) of a block with the 4096 of the block. -/
theorem formatUnit_stale_datalen :
    let b : Bdev := ⟨0, 4096⟩
    let datalen := fun h =>
      (ScsiCall.formatUnit.handed sampleDevScsi onesExec b (fun _ => 0)
        (scsiHistory sampleDevScsi onesExec b h
          (scsiStart sampleDevScsi fun _ => 0))).map (·.datalen)
    datalen scanCalls = some 8
      ∧ datalen (scanCalls ++ [(.read10 0x90000000 0 1, fun _ => 0)])
        = some 4096
      ∧ ¬ ScsiCall.formatUnit.Independent sampleDevScsi b := by
  have hne : (some 8 : Option U32) ≠ some 4096 := by simp
  intro b datalen
  have hscan : datalen scanCalls = some 8 := rfl
  have hread : datalen (scanCalls ++
      [(.read10 0x90000000 0 1, fun _ => 0)]) = some 4096 := rfl
  refine ⟨hscan, hread, fun h => hne ?_⟩
  rw [← hscan, ← hread]
  exact congrArg (·.map (·.datalen)) (h onesExec _ _ _ _)

end Edk2Exynos.Ufs
