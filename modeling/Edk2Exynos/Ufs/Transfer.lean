/-
UFS transactions (ufs.c): a request is written, the doorbell rung, the
interrupt status polled until something happens, and the result checked.

# The controller

`Controller` is what the driver cannot see: for a request, the stream of
interrupt statuses and doorbell values it will read, the overall command
status it will find in the transfer descriptor, and the response UPIU.
Nothing is assumed of it, so a theorem about all controllers covers every
sequence of interrupts, every status and every response byte; a response
that the controller never wrote is the zeroes `__utp_init` left.

# Results

A process function returns its code and the host; `none` stands for an
access through a null pointer: `__utp_check_result` copies sense data
into `ufs->scsi_cmd` on any response of type RESPONSE, and a NOP or a
query has no SCSI command.
-/
import Edk2Exynos.Ufs.Base

namespace Edk2Exynos.Ufs

open Lib

-- ============================================================== requests

/-- The types of UPIU that are sent. -/
inductive TransactionType where
  | nopOut
  | command
  | queryReq
  deriving DecidableEq

/-- `__utp_cmd_get_dir`, which nothing calls. -/
def utpCmdGetDir (c : DevUfs) (pscm : ScsiCmd) : U32 :=
  if pscm.datalen ≠ 0 then
    match c.scsiOp (pscm.cdb.getD 0 0) with
    | .unmap | .formatUnit | .write10 | .writeBuffer | .secuProtOut
    | .startStopUnit => c.utpHostToDevice
    | .other => c.utpDeviceToHost
  else c.utpNoDataTransfer

/-- `__utp_cmd_get_flags` -/
def utpCmdGetFlags (c : DevUfs) (pscm : ScsiCmd) : U32 :=
  if pscm.datalen ≠ 0 then
    match c.scsiOp (pscm.cdb.getD 0 0) with
    | .unmap | .formatUnit | .write10 | .writeBuffer | .secuProtOut =>
        c.upiuCmdFlagsWrite
    | .startStopUnit => c.upiuCmdFlagsNone
    | .other => c.upiuCmdFlagsRead
  else c.upiuCmdFlagsNone

/-- An entry of the PRD table. -/
structure UfsPrdt where
  baseAddr : U32
  upperAddr : U32
  size : U32

/-- The number of scatter-gather segments of a transfer. -/
def sgSegments (c : DevUfs) (len : U32) : U32 :=
  (len + c.ufsSgBlockSize - 1) / c.ufsSgBlockSize

/-- `__utp_map_sg` -/
def utpMapSg (c : DevUfs) (pscm : ScsiCmd) : List UfsPrdt :=
  if pscm.datalen ≠ 0 then
    (List.range (sgSegments c pscm.datalen).toNat).map fun i =>
      let a := pscm.buf + (BitVec.ofNat 32 i * c.ufsSgBlockSize).setWidth 64
      { baseAddr := a.setWidth 32
        upperAddr := (a >>> 32).setWidth 32
        size := c.ufsSgBlockSize - 1 }
  else []

/-- The command UPIU. A NOP OUT is all zeroes. -/
inductive CommandUpiu where
  | nopOut
  | command (flags lun datalen : U32) (cdb : List U8)
  | query (function : QueryFunction) (opcode : QueryOpcode)
      (value : Option U32) (data : Option UfsConfigDesc)

/-- `cpu_to_be32` -/
def cpuToBe32 (x : U32) : U32 := byteSwap x

/-- The transaction specific fields of a command UPIU: `memcpy` of the
swapped length and of the command block. -/
def CommandUpiu.tsf : CommandUpiu → List U8
  | .command _ _ datalen cdb => bytesOfLong (cpuToBe32 datalen) ++ cdb
  | _ => []

/-- `__utp_write_utrd`, for a SCSI command if there is one. It reads the
command's length for a query, too, and makes no use of it. -/
def utpWriteUtrd (c : DevUfs) (scsiCmd : Option ScsiCmd) (utrd : UfsUtrd) :
    UfsUtrd :=
  match scsiCmd with
  | some pscm =>
      let segments : U16 := (sgSegments c pscm.datalen).setWidth 16
      let hasData := pscm.datalen ≠ 0
      { dw0 := utpCmdGetFlags c pscm ||| c.utpScsiCommand
          ||| c.utpReqDescIntCmd
        dw2 := c.ocsInvalidCommandStatus
        prdtLen := if hasData then
            (segments.setWidth 32 * c.sizeUfsPrdt).setWidth 16
          else 0
        prdtOff := if hasData then (c.alignedUpiuSize * 2).setWidth 16
          else 0 }
  | none =>
      { utrd with
        dw0 := c.utpReqDescIntCmd
        dw2 := c.ocsInvalidCommandStatus }

/-- What the controller fetches when the doorbell is rung. -/
structure Request where
  upiu : CommandUpiu
  prdTable : List UfsPrdt
  utrd : UfsUtrd

/-- `__utp_write_cmd_all_descs` -/
def utpWriteCmdAllDescs (c : DevUfs) (pscm : ScsiCmd) (h : UfsHost) :
    Request where
  upiu := .command (utpCmdGetFlags c pscm) h.lun pscm.datalen pscm.cdb
  prdTable := utpMapSg c pscm
  utrd := utpWriteUtrd c (some pscm) h.utrd

/-- The value a query sends along. -/
def queryValue (h : UfsHost) : QueryOpcode → Option U32
  | .writeAttr idn => some (h.attributes idn)
  | .setFlag idn => some ((h.flags idn).setWidth 8 |>.setWidth 32)
  | _ => none

/-- The descriptor it sends along. -/
def queryData (h : UfsHost) : QueryOpcode → Option UfsConfigDesc
  | .writeDesc _ => some h.configDesc
  | _ => none

/-- `__utp_write_query_all_descs` -/
def utpWriteQueryAllDescs (c : DevUfs) (qry : QueryIndex) (h : UfsHost) :
    Request where
  upiu := .query (ufsQueryParams qry).1 (ufsQueryParams qry).2
    (queryValue h (ufsQueryParams qry).2)
    (queryData h (ufsQueryParams qry).2)
  prdTable := []
  utrd := utpWriteUtrd c none h.utrd

/-- `ufs_utp_nop_process` leaves the descriptor as it was. -/
def nopRequest (h : UfsHost) : Request where
  upiu := .nopOut
  prdTable := []
  utrd := h.utrd

-- ======================================================== the controller

/-- One look at the controller: the interrupt status, and the doorbell
register in case it is read. -/
structure Poll where
  intrStat : U32
  doorBell : U32

/-- The response UPIU. -/
structure Response where
  type : U8
  response : U8
  status : U8
  tsf : Mem
  data : Mem

/-- Everything a transaction meets: `ocs` is what `dw[2]` of the transfer
descriptor holds in the end. -/
structure Reply where
  polls : Nat → Poll
  ocs : U32
  rsp : Response

/-- The controller and the device behind it. -/
abbrev Controller := Request → Reply

-- ============================================================== the wait

/-- `handle_ufs_utp_int` -/
def handleUfsUtpInt (c : DevUfs) (p : Poll) : Int :=
  if p.intrStat &&& c.utpTransferReqCompl ≠ 0 ∧ p.doorBell &&& 1 = 0 then
    c.noError
  else c.inProgress

/-- `handle_ufs_int` for a transfer, and the timeout it leaves. -/
def handleUfsInt (c : DevUfs) (p : Poll) (timeout : Nat) : Int × Nat :=
  let ret := handleUfsUtpInt c p
  let ret := if p.intrStat &&& c.intFatalErrors ≠ 0 then c.error else ret
  if ret = c.inProgress then
    match timeout with
    | 0 => (c.timeout, 0)
    | timeout + 1 => (ret, timeout)
  else (ret, timeout)

/-- The polling loop, from poll `k` on. It ends with the timeout at the
latest: a call with timeout 0 is never in progress. -/
def pollUfsInt (c : DevUfs) (polls : Nat → Poll) : Nat → Nat → Int
  | 0, k => (handleUfsInt c (polls k) 0).1
  | timeout + 1, k =>
      let (err, _) := handleUfsInt c (polls k) (timeout + 1)
      if err = c.inProgress then pollUfsInt c polls timeout (k + 1)
      else err

/-- The timeout of a transaction: ten minutes for FORMAT UNIT. -/
def utpTimeout (c : DevUfs) (h : UfsHost) (type : TransactionType) : U32 :=
  match type, h.scsiCmd with
  | .command, some pscm =>
      if c.scsiOp (pscm.cdb.getD 0 0) = .formatUnit then
        10 * 60 * 1000 * 1000
      else h.ufsCmdTimeout
  | _, _ => h.ufsCmdTimeout

/-- `__utp_wait_for_response` -/
def utpWaitForResponse (c : DevUfs) (h : UfsHost) (type : TransactionType)
    (reply : Reply) : Int :=
  pollUfsInt c reply.polls (utpTimeout c h type).toNat 0

-- ============================================================ the result

/-- `__utp_init` -/
def utpInit (lun : U32) (h : UfsHost) : UfsHost :=
  { h with lun := lun, scsiCmd := none }

/-- `__utp_get_scsi_cxt` -/
def utpGetScsiCxt (pscm : ScsiCmd) (h : UfsHost) : UfsHost :=
  { h with
    scsiCmd := some pscm
    lun := if pscm.lun = 0x44 then 0xC4
      else if pscm.lun = 0x50 then 0xD0
      else pscm.lun }

/-- The SCSI status of the response, kept for the layer above. -/
def setScsiStatus (rsp : Response) (h : UfsHost) : UfsHost :=
  let set := fun pscm : ScsiCmd => { pscm with status := rsp.status }
  { h with scsiCmd := h.scsiCmd.map set }

/-- The sense data of the response, copied to the command. -/
def copySense (rsp : Response) (h : UfsHost) : UfsHost :=
  let copy := fun pscm : ScsiCmd =>
    { pscm with
      senseBuf := readBytes rsp.data 2 18 ++ pscm.senseBuf.drop 18 }
  { h with scsiCmd := h.scsiCmd.map copy }

/-- The transfer descriptor after the controller is done with it. -/
def UfsHost.completed (utrd : UfsUtrd) (reply : Reply) (h : UfsHost) :
    UfsHost :=
  { h with utrd := { utrd with dw2 := reply.ocs } }

/-- `__utp_check_result` -/
def utpCheckResult (c : DevUfs) (rsp : Response) (h : UfsHost) :
    Option (Int × UfsHost) :=
  let h := setScsiStatus rsp h
  if h.utrd.dw2 = c.ocsSuccess then some (0, h)
  else
    let r : Int := if rsp.response ≠ 0 then -1 else 0
    if rsp.type = c.upiuTransactionResponse then
      if h.scsiCmd.isNone then none else some (r, copySense rsp h)
    else some (r, h)

/-- `__utp_query_read_info` -/
def utpQueryReadInfo (c : DevUfs) (data : Mem) (idn : DescId)
    (h : UfsHost) : UfsHost :=
  let len := (data 0).toNat
  match idn with
  | .unit =>
      let desc := writeBytes (h.unitDesc (data 2)) 0
        (readBytes data 0 (min len c.sizeUnitDesc))
      { h with unitDesc := Function.update h.unitDesc (data 2) desc }
  | .device =>
      let desc := writeBytes h.deviceDesc 0
        (readBytes data 0 (min len c.sizeDeviceDesc))
      { h with deviceDesc := desc }
  | .configuration =>
      let desc := c.copyConfigDesc (min len 0x90) data h.configDesc
      { h with configDesc := desc }
  | .geometry =>
      let desc := c.copyGeometryDesc (min len c.sizeGeometryDesc) data
        h.geometryDesc
      { h with geometryDesc := desc }

/-- `__utp_query_get_data` -/
def utpQueryGetData (c : DevUfs) (rsp : Response) (qry : QueryIndex)
    (h : UfsHost) : UfsHost :=
  match (ufsQueryParams qry).2 with
  | .readDesc idn => utpQueryReadInfo c rsp.data idn h
  | .readAttr idn =>
      let val := c.upiuHeaderDword (rsp.tsf 8) (rsp.tsf 9) (rsp.tsf 10)
        (rsp.tsf 11)
      { h with attributes := Function.update h.attributes idn val }
  | .readFlag idn =>
      let val := (rsp.tsf 11).setWidth 32
      { h with flags := Function.update h.flags idn val }
  | .setFlag _ | .writeDesc _ | .writeAttr _ => h

-- ====================================================== the transactions

/-- `ufs_utp_cmd_process`; the descriptor writers return 0 for the
transaction types there are. -/
def ufsUtpCmdProcess (c : DevUfs) (ctl : Controller) (pscm : ScsiCmd)
    (h : UfsHost) : Option (Int × UfsHost) :=
  let h := utpInit 0 h
  let h := utpGetScsiCxt pscm h
  let req := utpWriteCmdAllDescs c pscm h
  let reply := ctl req
  let r := utpWaitForResponse c h .command reply
  let h := h.completed req.utrd reply
  if r ≠ 0 then some (r, h)
  else utpCheckResult c reply.rsp h

/-- `ufs_utp_nop_process` -/
def ufsUtpNopProcess (c : DevUfs) (ctl : Controller) (h : UfsHost) :
    Option (Int × UfsHost) :=
  let h := utpInit 0 h
  let req := nopRequest h
  let reply := ctl req
  let r := utpWaitForResponse c h .nopOut reply
  let h := h.completed req.utrd reply
  if r ≠ 0 then some (r, h)
  else utpCheckResult c reply.rsp h

/-- `ufs_utp_query_process`. It waits, but does not keep the outcome. -/
def ufsUtpQueryProcess (c : DevUfs) (ctl : Controller) (qry : QueryIndex)
    (lun : U32) (h : UfsHost) : Option (Int × UfsHost) :=
  let h := utpInit lun h
  let req := utpWriteQueryAllDescs c qry h
  let reply := ctl req
  let h := h.completed req.utrd reply
  match utpCheckResult c reply.rsp h with
  | none => none
  | some (r, h) =>
      if r ≠ 0 then some (r, h)
      else some (r, utpQueryGetData c reply.rsp qry h)

end Edk2Exynos.Ufs
