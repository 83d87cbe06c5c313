/-
The SCSI operations (scsi.c): each fills the one command object `g_scm`
and hands it to the lower driver through `sdev->exec`.

# What is shared

All operations build their command in the same `g_scm`, and UNMAP its
parameter list in the same `g_buf`. Both are static, so an operation
finds there whatever the operations before it left. The state records,
besides the two, every command handed over so far.

# What is missing

`dev/scsi.h` is not in the repository. `DevScsi` supplies its opcodes,
the length of a command block and the address of `g_buf`; `ScsiExec` is
the lower driver with the device behind it, which answers a command as
it likes, given all commands it has seen. Which opcodes send data to the
device is the lower driver's own classification (`__utp_cmd_get_flags`).

# The macros

`set_dword_le` and `set_word_le` store the high byte first, whatever
their names say.
-/
import Edk2Exynos.Ufs.Transfer

namespace Edk2Exynos.Ufs

open Lib

-- =========================================================== dev/scsi.h

/-- `SCSI_OP_*` -/
inductive ScsiOpcode where
  | read10
  | write10
  | writeBuffer
  | unmap
  | startStopUnit
  | inquiry
  | requestSense
  | readCapacity10
  | formatUnit
  | secuProtIn
  | secuProtOut
  deriving DecidableEq

/-- How the lower driver treats an opcode. -/
def ScsiOpcode.op : ScsiOpcode → ScsiOp
  | .write10 => .write10
  | .writeBuffer => .writeBuffer
  | .unmap => .unmap
  | .startStopUnit => .startStopUnit
  | .formatUnit => .formatUnit
  | .secuProtOut => .secuProtOut
  | _ => .other

/-- The operations that `__utp_cmd_get_flags` lets write. -/
def ScsiOp.hostToDevice : ScsiOp → Bool
  | .unmap | .formatUnit | .write10 | .writeBuffer | .secuProtOut => true
  | .startStopUnit | .other => false

/-- What `dev/scsi.h` and the linker supply. -/
structure DevScsi (c : DevUfs) where
  opcode : ScsiOpcode → U8
  scsiOp_opcode : ∀ o, c.scsiOp (opcode o) = o.op
  maxCdbSize : Nat
  cdb_room : 10 ≤ maxCdbSize
  errAccessDenied : Int
  errAccessDenied_neg : errAccessDenied < 0
  gBuf : U64
  gBuf_room : gBuf.toNat + 4096 ≤ 2 ^ 64

/-- `struct bdev` with the `sdev` behind it. -/
structure Bdev where
  lun : U32
  blockSize : U64

-- ======================================================= handing over

/-- What `sdev->exec` is given: the command, and memory as it stands. -/
structure ScsiIssue where
  scm : ScsiCmd
  mem : Mem

/-- What comes back. -/
structure ScsiReply where
  ret : Int
  status : U8
  sense : List U8
  data : List U8

/-- `exec_t`: the lower driver and the device, after the commands they
have seen. -/
abbrev ScsiExec := List ScsiIssue → ScsiIssue → ScsiReply

/-- The command block that all calls share, the memory, and the commands
issued so far. -/
structure ScsiState where
  scm : ScsiCmd
  mem : Mem
  issued : List ScsiIssue

/-- The operation a command asks for. -/
def ScsiCmd.op (c : DevUfs) (pscm : ScsiCmd) : ScsiOp :=
  c.scsiOp (pscm.cdb.getD 0 0)

/-- `scsi_parse_status` -/
def scsiParseStatus {c : DevUfs} (d : DevScsi c) (status : U8) : Int :=
  if status = 0 then c.noError else d.errAccessDenied

/-- The end of every operation, "Actual issue". Data that the device
sends is in the command's buffer afterwards, up to the command's length. -/
def scsiIssue {c : DevUfs} (d : DevScsi c) (exec : ScsiExec)
    (s : ScsiState) : Int × ScsiState :=
  let r := exec s.issued ⟨s.scm, s.mem⟩
  let received :=
    if (s.scm.op c).hostToDevice then [] else r.data.take s.scm.datalen.toNat
  (if r.ret = 0 then scsiParseStatus d r.status else r.ret,
    { scm := { s.scm with status := r.status, senseBuf := r.sense }
      mem := writeBytes s.mem s.scm.buf.toNat received
      issued := s.issued ++ [⟨s.scm, s.mem⟩] })

-- ========================================================== the macros

/-- The bytes `set_dword_le` stores. -/
def setDwordLe (v : U32) : List U8 :=
  [(v >>> 24).setWidth 8, (v >>> 16).setWidth 8, (v >>> 8).setWidth 8,
    v.setWidth 8]

/-- The bytes `set_tbyte_be` stores. -/
def setTbyteBe (v : U32) : List U8 :=
  [(v >>> 16).setWidth 8, (v >>> 8).setWidth 8, v.setWidth 8]

/-- The bytes `set_word_le` stores. -/
def setWordLe (v : U32) : List U8 :=
  [(v >>> 8).setWidth 8, v.setWidth 8]

/-- `p` with the bytes `bs` from index `i` on. -/
def storeAt (i : Nat) (bs p : List U8) : List U8 :=
  p.take i ++ bs ++ p.drop (i + bs.length)

-- ====================================================== the operations

section

variable {c : DevUfs} (d : DevScsi c) (exec : ScsiExec) (b : Bdev)

/-- A command block cleared by `memset`, with its opcode. -/
def blankCdb (o : ScsiOpcode) : List U8 :=
  storeAt 0 [d.opcode o] (List.replicate d.maxCdbSize 0)

/-- `(u32)count * dev->block_size`, stored in a `u32`. -/
def dataLen (count : U32) : U32 :=
  (count.setWidth 64 * b.blockSize).setWidth 32

/-- An operation that sets the buffer, the length and the block. -/
def ScsiState.prepare (s : ScsiState) (buf : U64) (datalen : U32)
    (cdb : List U8) : ScsiState :=
  { s with
    scm := { s.scm with
      lun := b.lun
      buf := buf
      datalen := datalen
      cdb := cdb } }

/-- An operation that sets the block only. -/
def ScsiState.prepareCdb (s : ScsiState) (cdb : List U8) : ScsiState :=
  { s with scm := { s.scm with lun := b.lun, cdb := cdb } }

/-- READ (10) and WRITE (10) -/
def scsiTransfer10 (o : ScsiOpcode) (buf : U64) (block count : U32)
    (s : ScsiState) : Int × ScsiState :=
  scsiIssue d exec <| s.prepare b buf (dataLen b count) <|
    storeAt 7 (setWordLe ((count.setWidth 16).setWidth 32)) <|
    storeAt 2 (setDwordLe block) <| blankCdb d o

/-- `scsi_read_10_sz` -/
def scsiRead10Sz (buf : U64) (block count : U32) (s : ScsiState) :
    Int × ScsiState :=
  ((count.setWidth 64 * b.blockSize).toInt,
    (scsiTransfer10 d exec b .read10 buf block count s).2)

/-- `scsi_read_10` -/
def scsiRead10 (buf : U64) (block count : U32) (s : ScsiState) :
    Int × ScsiState :=
  if count = 0 then (-1, s)
  else scsiTransfer10 d exec b .read10 buf block count s

/-- `scsi_write_10_sz`, which returns a place and not a size. -/
def scsiWrite10Sz (buf : U64) (block count : U32) (s : ScsiState) :
    Int × ScsiState :=
  ((block.setWidth 64 * b.blockSize).toInt,
    (scsiTransfer10 d exec b .write10 buf block count s).2)

/-- `scsi_write_10` -/
def scsiWrite10 (buf : U64) (block count : U32) (s : ScsiState) :
    Int × ScsiState :=
  if count = 0 then (-1, s)
  else scsiTransfer10 d exec b .write10 buf block count s

/-- `scsi_write_buffer` -/
def scsiWriteBuffer (buf : U64) (mode bufId : U8) (bufOfs len : U32)
    (s : ScsiState) : Int × ScsiState :=
  scsiIssue d exec <| s.prepare b buf len <|
    storeAt 9 [0] <| storeAt 6 (setTbyteBe len) <|
    storeAt 3 (setTbyteBe bufOfs) <| storeAt 2 [bufId] <|
    storeAt 1 [mode &&& 0x1F] <| blankCdb d .writeBuffer

/-- `scsi_ufs_ffu`, once `bio_open` has found its device. -/
def scsiUfsFfu (buf : U64) (len : U32) (s : ScsiState) :
    Int × ScsiState :=
  scsiWriteBuffer d exec b buf 0xE 0 0 len s

/-- `SCSI_UNMAP_BLOCK_DESC_DATA_LEN` -/
def scsiUnmapBlockDescDataLen : U32 := 16 * 1

/-- `SCSI_UNMAP_DATA_LEN` -/
def scsiUnmapDataLen : U32 := scsiUnmapBlockDescDataLen + 6

/-- The parameter list of `scsi_unmap`, in `g_buf` at `a`. -/
def unmapParameters (a : Nat) (block count : U32) (mem : Mem) : Mem :=
  writeBytes (writeBytes (writeBytes (writeBytes (writeBytes mem
    a (List.replicate (scsiUnmapDataLen + 2).toNat 0))
    a (setWordLe scsiUnmapDataLen))
    (a + 2) (setWordLe scsiUnmapBlockDescDataLen))
    (a + 12) (setDwordLe block))
    (a + 16) (setDwordLe count)

/-- `scsi_unmap` -/
def scsiUnmap (block count : U32) (s : ScsiState) : Int × ScsiState :=
  if count = 0 then (-1, s)
  else
    let datalen := scsiUnmapDataLen + 8
    let s := s.prepare b d.gBuf datalen <|
      storeAt 7 (setWordLe datalen) <| blankCdb d .unmap
    scsiIssue d exec
      { s with mem := unmapParameters d.gBuf.toNat block count s.mem }

/-- `scsi_unmap_len`; offset and length are divided as 64-bit numbers and
cut to 32 bits. -/
def scsiUnmapLen (offset len : U64) (s : ScsiState) : Int × ScsiState :=
  ((len * b.blockSize).toInt,
    (scsiUnmap d exec b ((offset / b.blockSize).setWidth 32)
      ((len / b.blockSize).setWidth 32) s).2)

/-- `scsi_start_stop_unit` -/
def scsiStartStopUnit (s : ScsiState) : Int × ScsiState :=
  let s := s.prepareCdb b <|
    storeAt 4 [3 <<< 4] <| blankCdb d .startStopUnit
  scsiIssue d exec { s with scm := { s.scm with datalen := 0 } }

/-- `scsi_inquiry` -/
def scsiInquiry (buf : U64) (s : ScsiState) : Int × ScsiState :=
  scsiIssue d exec <| s.prepare b buf 255 <|
    storeAt 3 (setWordLe 255) <| blankCdb d .inquiry

/-- `scsi_mode_sense`, a REQUEST SENSE -/
def scsiModeSense (s : ScsiState) : Int × ScsiState :=
  scsiIssue d exec <| s.prepareCdb b <|
    storeAt 4 [18] <| blankCdb d .requestSense

/-- `scsi_read_capacity_10` -/
def scsiReadCapacity10 (buf : U64) (s : ScsiState) : Int × ScsiState :=
  scsiIssue d exec <| s.prepare b buf 8 <| blankCdb d .readCapacity10

/-- `scsi_format_unit` -/
def scsiFormatUnit (s : ScsiState) : Int × ScsiState :=
  scsiIssue d exec <| s.prepareCdb b <| blankCdb d .formatUnit

/-- SECURITY PROTOCOL IN and OUT; `RPMB_MSG_DATA_SIZE` is 512. -/
def scsiSecuProt (o : ScsiOpcode) (buf : U64) (count : U32)
    (s : ScsiState) : Int × ScsiState :=
  scsiIssue d exec <| s.prepare b buf (dataLen b count) <|
    storeAt 6 (setDwordLe (count * 512)) <| storeAt 2 (setWordLe 0x1) <|
    storeAt 1 [0xEC] <| blankCdb d o

/-- `scsi_secu_prot_in`; it makes no use of the block. -/
def scsiSecuProtIn (buf : U64) (_block count : U32) (s : ScsiState) :
    Int × ScsiState :=
  scsiSecuProt d exec b .secuProtIn buf count s

/-- `scsi_secu_prot_out`; it makes no use of the block. -/
def scsiSecuProtOut (buf : U64) (_block count : U32) (s : ScsiState) :
    Int × ScsiState :=
  scsiSecuProt d exec b .secuProtOut buf count s

end

end Edk2Exynos.Ufs
