/-
What a UFS transaction does through `ufs->scsi_cmd`, and with the table
of two messages in `__utp_check_result` (ufs.c).

# The pointer

`__utp_init` clears the pointer at the start of every transaction and
only a SCSI command sets it again. The functions that commands, NOPs and
queries share read through it all the same: `__utp_write_utrd` reads the
length for any type, and `__utp_check_result` copies sense data on any
response of type RESPONSE that comes without OCS_SUCCESS.

# Accesses

Each function has its accesses, in order, with whether the pointer was
set; a statement that reads a field more than once has it once. What is
read through a null pointer decides nothing below. The response byte is
the index of the message. `Harmless` says of a
transaction and its reply alone that all of this is in order, and a run
is when each of its transactions is (`runAccesses_ok_iff`). Where the
process functions have no result, one of these accesses is why
(`process_none_iff`).
-/
import Edk2Exynos.Lib.Runs
import Edk2Exynos.Ufs.TransferResult

namespace Edk2Exynos.Ufs

open Lib

-- ============================================================= accesses

/-- The fields of a SCSI command. -/
inductive ScsiField where
  | cdb
  | datalen
  | buf
  | sdev
  | status
  | senseBuf
  deriving DecidableEq

/-- What is looked at through a pointer or an index. -/
inductive Access where
  /-- a field of `ufs->scsi_cmd`, and whether that is non-null -/
  | scsiCmd (field : ScsiField) (nonNull : Bool)
  /-- an entry of `resp_msg` -/
  | respMsg (index : Nat)
  deriving DecidableEq

/-- The table has two entries. -/
def Access.Ok : Access → Prop
  | .scsiCmd _ nonNull => nonNull
  | .respMsg index => index < 2

/-- An access to a field of `ufs->scsi_cmd`. -/
def touch (h : UfsHost) (field : ScsiField) : Access :=
  .scsiCmd field h.scsiCmd.isSome

/-- `ufs->scsi_cmd->datalen` is not zero. -/
def hasData (h : UfsHost) : Bool :=
  h.scsiCmd.any fun pscm => pscm.datalen ≠ 0

/-- `__utp_cmd_get_flags` -/
def utpCmdGetFlagsAccesses (h : UfsHost) : List Access :=
  touch h .datalen :: if hasData h then [touch h .cdb] else []

/-- `__utp_write_cmd_ucd` -/
def utpWriteCmdUcdAccesses (h : UfsHost) : List Access :=
  utpCmdGetFlagsAccesses h ++ [touch h .datalen, touch h .cdb]

/-- `__utp_map_sg`; each entry of the table has two halves of an
address. -/
def utpMapSgAccesses (c : DevUfs) (h : UfsHost) : List Access :=
  touch h .datalen ::
    (h.scsiCmd.elim [] (utpMapSg c)).flatMap fun _ =>
      [touch h .buf, touch h .buf]

/-- `__utp_write_utrd` -/
def utpWriteUtrdAccesses (h : UfsHost) (type : TransactionType) :
    List Access :=
  touch h .datalen ::
    match type with
    | .command => utpCmdGetFlagsAccesses h
    | .queryReq | .nopOut => []

/-- `__utp_wait_for_response` -/
def utpWaitForResponseAccesses (h : UfsHost) (type : TransactionType) :
    List Access :=
  match type with
  | .command => [touch h .cdb]
  | .queryReq | .nopOut => []

/-- `__utp_check_result` -/
def utpCheckResultAccesses (c : DevUfs) (rsp : Response) (h : UfsHost) :
    List Access :=
  (if h.scsiCmd.isSome then [touch h .status] else [])
    ++ if h.utrd.dw2 = c.ocsSuccess then []
      else
        (if rsp.type = c.upiuTransactionResponse then
          [touch h .senseBuf, touch h .cdb, touch h .senseBuf]
        else [])
        ++ [.respMsg rsp.response.toNat]

/-- `__utp_get_scsi_cxt`, on the host it leaves. -/
def utpGetScsiCxtAccesses (h : UfsHost) : List Access :=
  [touch h .senseBuf, touch h .sdev]

-- ========================================================= transactions

/-- The three kinds of transaction. -/
inductive Transaction where
  | command (pscm : ScsiCmd)
  | nop
  | query (qry : QueryIndex) (lun : U32)

/-- A transaction, and all that the device does meanwhile. -/
structure Exchange where
  transaction : Transaction
  reply : Reply

/-- The process function of the transaction. -/
def Exchange.process (c : DevUfs) (e : Exchange) (h : UfsHost) :
    Option (Int × UfsHost) :=
  let ctl : Controller := fun _ => e.reply
  match e.transaction with
  | .command pscm => ufsUtpCmdProcess c ctl pscm h
  | .nop => ufsUtpNopProcess c ctl h
  | .query qry lun => ufsUtpQueryProcess c ctl qry lun h

/-- What it leaves. Where it ends in an access through a null pointer,
nothing is said of the rest: the host is left alone. -/
def exchangeStep (c : DevUfs) (e : Exchange) (h : UfsHost) : UfsHost :=
  (e.process c h).elim h Prod.snd

/-- The check of the result, when the wait has ended with `r`. -/
def checkedAccesses (c : DevUfs) (r : Int) (e : Exchange) (h : UfsHost) :
    List Access :=
  if r ≠ 0 then [] else utpCheckResultAccesses c e.reply.rsp h

/-- The accesses of the process function. -/
def Exchange.accesses (c : DevUfs) (e : Exchange) (h : UfsHost) :
    List Access :=
  match e.transaction with
  | .command pscm =>
      let h := cmdHost pscm h
      let utrd := (utpWriteCmdAllDescs c pscm h).utrd
      utpGetScsiCxtAccesses h ++ utpWriteCmdUcdAccesses h
        ++ utpMapSgAccesses c h ++ utpWriteUtrdAccesses h .command
        ++ utpWaitForResponseAccesses h .command
        ++ checkedAccesses c (utpWaitForResponse c h .command e.reply) e
          (h.completed utrd e.reply)
  | .nop =>
      let h := utpInit 0 h
      utpWaitForResponseAccesses h .nopOut
        ++ checkedAccesses c (utpWaitForResponse c h .nopOut e.reply) e
          (h.completed h.utrd e.reply)
  | .query qry lun =>
      let h := utpInit lun h
      let utrd := (utpWriteQueryAllDescs c qry h).utrd
      utpWriteUtrdAccesses h .queryReq
        ++ utpWaitForResponseAccesses h .queryReq
        -- the outcome of the wait is not kept
        ++ checkedAccesses c 0 e (h.completed utrd e.reply)

/-- The accesses of a run. -/
def runAccesses (c : DevUfs) (es : List Exchange) (h : UfsHost) :
    List Access :=
  (answers (exchangeStep c) (Exchange.accesses c) es h).flatten

-- ======================================================= the condition

/-- The timeout of a command, of `ufs->ufs_cmd_timeout`. -/
def cmdTimeout (c : DevUfs) (pscm : ScsiCmd) (ufsCmdTimeout : U32) : U32 :=
  if c.scsiOp (pscm.cdb.getD 0 0) = .formatUnit then
    10 * 60 * 1000 * 1000
  else ufsCmdTimeout

/-- A command that completes without OCS_SUCCESS has a response byte of 0
or 1; so has a NOP, and its response is not of type RESPONSE. There is no
query. -/
def Exchange.Harmless (c : DevUfs) (ufsCmdTimeout : U32) (e : Exchange) :
    Prop :=
  match e.transaction with
  | .command pscm =>
      Completes c e.reply.polls (cmdTimeout c pscm ufsCmdTimeout).toNat →
      e.reply.ocs = c.ocsSuccess ∨ e.reply.rsp.response < 2
  | .nop =>
      Completes c e.reply.polls ufsCmdTimeout.toNat →
      e.reply.ocs = c.ocsSuccess
        ∨ e.reply.rsp.type ≠ c.upiuTransactionResponse
          ∧ e.reply.rsp.response < 2
  | .query _ _ => False

-- ====================================================== each function

variable {c : DevUfs} {h : UfsHost}

theorem touch_ok_iff (field : ScsiField) :
    (touch h field).Ok ↔ h.scsiCmd.isSome :=
  Iff.rfl

theorem respMsg_ok_iff (response : U8) :
    (Access.respMsg response.toNat).Ok ↔ response < 2 := by
  rw [BitVec.lt_def]
  exact Iff.rfl

/-- With the pointer set, the functions of a command are in order. -/
theorem cmdGetFlags_ok (hset : h.scsiCmd.isSome) :
    ∀ a ∈ utpCmdGetFlagsAccesses h, a.Ok := by
  unfold utpCmdGetFlagsAccesses
  split <;> simp [touch_ok_iff, hset]

theorem writeCmdUcd_ok (hset : h.scsiCmd.isSome) :
    ∀ a ∈ utpWriteCmdUcdAccesses h, a.Ok := by
  unfold utpWriteCmdUcdAccesses
  rw [List.forall_mem_append]
  refine ⟨cmdGetFlags_ok hset, ?_⟩
  simp [touch_ok_iff, hset]

theorem mapSg_ok (hset : h.scsiCmd.isSome) :
    ∀ a ∈ utpMapSgAccesses c h, a.Ok := by
  unfold utpMapSgAccesses
  intro a ha
  rcases List.mem_cons.mp ha with rfl | ha
  · exact (touch_ok_iff .datalen).mpr hset
  · obtain ⟨_, -, hbuf⟩ := List.mem_flatMap.mp ha
    rw [List.mem_pair, or_self] at hbuf
    rw [hbuf, touch_ok_iff]
    exact hset

/-- The length is read for any type. -/
theorem writeUtrd_ok_iff (type : TransactionType) :
    (∀ a ∈ utpWriteUtrdAccesses h type, a.Ok) ↔ h.scsiCmd.isSome := by
  unfold utpWriteUtrdAccesses
  rw [List.forall_mem_cons, touch_ok_iff]
  refine and_iff_left_of_imp fun hset => ?_
  cases type with
  | command => exact cmdGetFlags_ok hset
  | queryReq | nopOut => simp

theorem waitForResponse_ok_iff (type : TransactionType) :
    (∀ a ∈ utpWaitForResponseAccesses h type, a.Ok)
      ↔ (type = .command → h.scsiCmd.isSome) := by
  unfold utpWaitForResponseAccesses
  cases type with
  | command => simp [touch_ok_iff]
  | queryReq | nopOut => simp

/-- The sense data is for a command, and the message is in the table. -/
theorem checkResult_ok_iff (rsp : Response) :
    (∀ a ∈ utpCheckResultAccesses c rsp h, a.Ok)
      ↔ h.utrd.dw2 = c.ocsSuccess
        ∨ (rsp.type = c.upiuTransactionResponse → h.scsiCmd.isSome)
          ∧ rsp.response < 2 := by
  have hstatus : ∀ a ∈ (if h.scsiCmd.isSome then [touch h .status] else []),
      a.Ok := by
    split
    next hset => simp [touch_ok_iff, hset]
    next => simp
  unfold utpCheckResultAccesses
  rw [List.forall_mem_append, and_iff_right hstatus]
  by_cases hocs : h.utrd.dw2 = c.ocsSuccess
  · rw [if_pos hocs]
    simp [hocs]
  · rw [if_neg hocs, or_iff_right hocs, List.forall_mem_append,
      List.forall_mem_singleton, respMsg_ok_iff]
    refine and_congr_left fun _ => ?_
    by_cases htype : rsp.type = c.upiuTransactionResponse
    · rw [if_pos htype]
      simp [touch_ok_iff, htype]
    · rw [if_neg htype]
      simp [htype]

/-- In the model of the result's check, the null pointer is where the
sense data goes. -/
theorem utpCheckResult_none_iff (rsp : Response) :
    utpCheckResult c rsp h = none
      ↔ .scsiCmd .senseBuf false ∈ utpCheckResultAccesses c rsp h := by
  unfold utpCheckResult utpCheckResultAccesses touch setScsiStatus
  by_cases hocs : h.utrd.dw2 = c.ocsSuccess
  · cases h.scsiCmd <;> simp [hocs]
  · by_cases htype : rsp.type = c.upiuTransactionResponse
    · cases h.scsiCmd <;> simp [hocs, htype]
    · cases h.scsiCmd <;> simp [hocs, htype]

-- ======================================================== a transaction

theorem checked_ok_iff (r : Int) (e : Exchange) :
    (∀ a ∈ checkedAccesses c r e h, a.Ok)
      ↔ (r = 0 → h.utrd.dw2 = c.ocsSuccess
        ∨ (e.reply.rsp.type = c.upiuTransactionResponse →
            h.scsiCmd.isSome)
          ∧ e.reply.rsp.response < 2) := by
  unfold checkedAccesses
  by_cases hr : r = 0
  · rw [if_neg (not_not.mpr hr), checkResult_ok_iff]
    simp [hr]
  · rw [if_pos hr]
    simp [hr]

theorem checked_none_iff (r : Int) (e : Exchange) :
    (if r ≠ 0 then some (r, h) else utpCheckResult c e.reply.rsp h) = none
      ↔ .scsiCmd .senseBuf false ∈ checkedAccesses c r e h := by
  unfold checkedAccesses
  by_cases hr : r = 0
  · rw [if_neg (not_not.mpr hr), if_neg (not_not.mpr hr)]
    exact utpCheckResult_none_iff e.reply.rsp
  · rw [if_pos hr, if_pos hr]
    simp

/-- What a command does before its result is checked. -/
def commandBefore (c : DevUfs) (pscm : ScsiCmd) (h : UfsHost) :
    List Access :=
  let h := cmdHost pscm h
  utpGetScsiCxtAccesses h ++ utpWriteCmdUcdAccesses h
    ++ utpMapSgAccesses c h ++ utpWriteUtrdAccesses h .command
    ++ utpWaitForResponseAccesses h .command

theorem commandBefore_ok (pscm : ScsiCmd) (h : UfsHost) :
    ∀ a ∈ commandBefore c pscm h, a.Ok := by
  have hset : (cmdHost pscm h).scsiCmd.isSome := rfl
  have hcxt : ∀ a ∈ utpGetScsiCxtAccesses (cmdHost pscm h), a.Ok := by
    simp [utpGetScsiCxtAccesses, touch_ok_iff, hset]
  unfold commandBefore
  simp only [List.forall_mem_append]
  exact ⟨⟨⟨⟨hcxt, writeCmdUcd_ok hset⟩, mapSg_ok hset⟩,
    (writeUtrd_ok_iff .command).mpr hset⟩,
    (waitForResponse_ok_iff .command).mpr fun _ => hset⟩

theorem command_accesses (pscm : ScsiCmd) (reply : Reply) (h : UfsHost) :
    Exchange.accesses c ⟨.command pscm, reply⟩ h
      = commandBefore c pscm h
        ++ checkedAccesses c
          (utpWaitForResponse c (cmdHost pscm h) .command reply)
          ⟨.command pscm, reply⟩
          ((cmdHost pscm h).completed
            (utpWriteCmdAllDescs c pscm (cmdHost pscm h)).utrd reply) :=
  rfl

theorem nop_accesses (reply : Reply) (h : UfsHost) :
    Exchange.accesses c ⟨.nop, reply⟩ h
      = checkedAccesses c
          (utpWaitForResponse c (utpInit 0 h) .nopOut reply) ⟨.nop, reply⟩
          ((utpInit 0 h).completed (utpInit 0 h).utrd reply) :=
  rfl

theorem query_accesses (qry : QueryIndex) (lun : U32) (reply : Reply)
    (h : UfsHost) :
    Exchange.accesses c ⟨.query qry lun, reply⟩ h
      = touch (utpInit lun h) .datalen
        :: checkedAccesses c 0 ⟨.query qry lun, reply⟩
          (queryHost c (fun _ => reply) qry lun h) :=
  rfl

/-- A command has the pointer set throughout. -/
theorem command_ok_iff (pscm : ScsiCmd) (reply : Reply) (h : UfsHost) :
    (∀ a ∈ Exchange.accesses c ⟨.command pscm, reply⟩ h, a.Ok)
      ↔ Exchange.Harmless c h.ufsCmdTimeout ⟨.command pscm, reply⟩ := by
  have hset : (cmdHost pscm h).scsiCmd.isSome := rfl
  have hwait : utpWaitForResponse c (cmdHost pscm h) .command reply = 0
      ↔ Completes c reply.polls
        (cmdTimeout c pscm h.ufsCmdTimeout).toNat := by
    rw [← c.noError_eq]
    exact utpWaitForResponse_iff (cmdHost pscm h) .command reply
  rw [command_accesses, List.forall_mem_append,
    and_iff_right (commandBefore_ok pscm h), checked_ok_iff, hwait]
  refine imp_congr_right fun _ => or_congr_right ?_
  exact and_iff_right fun _ => hset

/-- A NOP has it clear throughout. -/
theorem nop_ok_iff (reply : Reply) (h : UfsHost) :
    (∀ a ∈ Exchange.accesses c ⟨.nop, reply⟩ h, a.Ok)
      ↔ Exchange.Harmless c h.ufsCmdTimeout ⟨.nop, reply⟩ := by
  have hclear : ¬ (utpInit 0 h).scsiCmd.isSome := Bool.false_ne_true
  have hwait : utpWaitForResponse c (utpInit 0 h) .nopOut reply = 0
      ↔ Completes c reply.polls h.ufsCmdTimeout.toNat := by
    rw [← c.noError_eq]
    exact utpWaitForResponse_iff (utpInit 0 h) .nopOut reply
  rw [nop_accesses, checked_ok_iff, hwait]
  refine imp_congr_right fun _ => or_congr_right (and_congr_left fun _ => ?_)
  exact ⟨fun himp htype => hclear (himp htype),
    fun hne htype => absurd htype hne⟩

/-- A query has it clear, and reads the length. -/
theorem query_not_ok (qry : QueryIndex) (lun : U32) (reply : Reply)
    (h : UfsHost) :
    ¬ ∀ a ∈ Exchange.accesses c ⟨.query qry lun, reply⟩ h, a.Ok := by
  intro hok
  have hclear : ¬ (utpInit lun h).scsiCmd.isSome := Bool.false_ne_true
  rw [query_accesses, List.forall_mem_cons, touch_ok_iff] at hok
  exact hclear hok.1

/-- The accesses of a transaction are in order exactly when it and its
reply are harmless. -/
theorem accesses_ok_iff (e : Exchange) (h : UfsHost) :
    (∀ a ∈ e.accesses c h, a.Ok) ↔ e.Harmless c h.ufsCmdTimeout := by
  obtain ⟨transaction, reply⟩ := e
  cases transaction with
  | command pscm => exact command_ok_iff pscm reply h
  | nop => exact nop_ok_iff reply h
  | query qry lun => exact iff_of_false (query_not_ok qry lun reply h) id

/-- A transaction has no result exactly when sense data goes through the
null pointer. -/
theorem process_none_iff (e : Exchange) (h : UfsHost) :
    e.process c h = none
      ↔ .scsiCmd .senseBuf false ∈ e.accesses c h := by
  obtain ⟨transaction, reply⟩ := e
  cases transaction with
  | command pscm =>
    have hbefore : .scsiCmd .senseBuf false ∉ commandBefore c pscm h :=
      fun hmem => Bool.false_ne_true (commandBefore_ok pscm h _ hmem)
    rw [command_accesses, List.mem_append, or_iff_right hbefore]
    exact checked_none_iff _ ⟨.command pscm, reply⟩
  | nop => exact checked_none_iff _ ⟨.nop, reply⟩
  | query qry lun =>
    have hlen : Access.scsiCmd .senseBuf false
        ≠ touch (utpInit lun h) .datalen := nofun
    rw [query_accesses, List.mem_cons, or_iff_right hlen,
      ← checked_none_iff 0 ⟨.query qry lun, reply⟩,
      if_neg (not_not.mpr rfl)]
    simp only [Exchange.process, ufsUtpQueryProcess_eq]
    split
    next hnone => exact iff_of_true rfl hnone
    next r h₁ hsome =>
      have hchecked : utpCheckResult c reply.rsp
          (queryHost c (fun _ => reply) qry lun h) = some (r, h₁) := hsome
      rw [hchecked]
      split <;> simp

-- ================================================================ a run

/-- A wait and, if it ends well, the check. -/
theorem waitThenCheck_timeout {rsp : Response} {h' : UfsHost} {r r' : Int}
    (heq : (if r ≠ 0 then some (r, h) else utpCheckResult c rsp h)
      = some (r', h')) :
    h'.ufsCmdTimeout = h.ufsCmdTimeout := by
  split at heq
  · cases heq
    rfl
  · exact utpCheckResult_timeout heq

theorem process_timeout {e : Exchange} {h' : UfsHost} {r : Int}
    (heq : e.process c h = some (r, h')) :
    h'.ufsCmdTimeout = h.ufsCmdTimeout := by
  obtain ⟨transaction, reply⟩ := e
  cases transaction with
  | command pscm =>
    let h₁ := cmdHost pscm h
    exact waitThenCheck_timeout
      (h := h₁.completed (utpWriteCmdAllDescs c pscm h₁).utrd reply) heq
  | nop =>
    let h₁ := utpInit 0 h
    exact waitThenCheck_timeout (h := h₁.completed h₁.utrd reply) heq
  | query qry lun =>
    simp only [Exchange.process, ufsUtpQueryProcess_eq] at heq
    split at heq
    next => cases heq
    next r₁ h₁ hcheck =>
      have hsame := utpCheckResult_timeout hcheck
      split at heq
      · cases heq
        exact hsame
      · cases heq
        exact (utpQueryGetData_timeout _ _ _).trans hsame

/-- No transaction changes the timeout of the next. -/
theorem exchangeStep_timeout (e : Exchange) (h : UfsHost) :
    (exchangeStep c e h).ufsCmdTimeout = h.ufsCmdTimeout := by
  unfold exchangeStep
  cases hres : e.process c h with
  | none => rfl
  | some res => exact process_timeout hres

/-- In any run, with any reply to each transaction, the pointer is set
whenever a field is accessed through it and every message is in the
table, exactly when each transaction and its reply are harmless. -/
theorem runAccesses_ok_iff (c : DevUfs) (es : List Exchange)
    (h : UfsHost) :
    (∀ a ∈ runAccesses c es h, a.Ok)
      ↔ ∀ e ∈ es, e.Harmless c h.ufsCmdTimeout := by
  induction es generalizing h with
  | nil => exact iff_of_true nofun nofun
  | cons e es ih =>
    have hcons : runAccesses c (e :: es) h
        = e.accesses c h ++ runAccesses c es (exchangeStep c e h) := rfl
    rw [hcons, List.forall_mem_append, accesses_ok_iff, ih,
      exchangeStep_timeout, List.forall_mem_cons]

-- ============================================================= it is not

/-- The transfer completes at once. -/
def promptReply (ocs : U32) (type response : U8) : Reply where
  polls := fun _ => ⟨1, 0⟩
  ocs := ocs
  rsp := ⟨type, response, 0, fun _ => 0, fun _ => 0⟩

/-- TEST UNIT READY -/
def testUnitReady : ScsiCmd := ⟨[0, 0, 0, 0, 0, 0], 0, 0, 0, 0, []⟩

/-- A query reads the length through the null pointer even where all goes
well; a NOP that is answered by a failed response copies sense data
through it; and the device chooses the index of the message. -/
theorem runAccesses_not_ok :
    .scsiCmd .datalen false ∈ runAccesses sampleDevUfs
        [⟨.query .attrRBootlunen 0, promptReply 0 0x36 0⟩] bootHost
      ∧ .scsiCmd .senseBuf false ∈ runAccesses sampleDevUfs
        [⟨.nop, promptReply 1 0x21 0⟩] bootHost
      ∧ .respMsg 255 ∈ runAccesses sampleDevUfs
        [⟨.command testUnitReady, promptReply 1 0x21 255⟩] bootHost
      ∧ ¬ ∀ es h, ∀ a ∈ runAccesses sampleDevUfs es h, a.Ok := by
  have hquery : .scsiCmd .datalen false ∈ runAccesses sampleDevUfs
      [⟨.query .attrRBootlunen 0, promptReply 0 0x36 0⟩] bootHost := by
    decide
  refine ⟨hquery, by decide, by decide, ?_⟩
  intro hok
  exact Bool.false_ne_true (hok _ _ _ hquery)

end Edk2Exynos.Ufs
