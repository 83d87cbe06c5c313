/-
When the process functions of UFS transactions report success.

# What success should mean

`Succeeded`: the wait ended with UFS_NO_ERROR, and the overall command
status in the transfer descriptor is OCS_SUCCESS. The wait is a race
between the completion interrupt and a fatal error or the timeout, and
`Completes` says who wins in terms of the interrupt statuses alone.

# What it means

`__utp_check_result` treats a failed command as a success when the
response field of the response UPIU is 0, which is what `__utp_init`
left there; and `ufs_utp_query_process` drops the outcome of the wait.
`utp_process_sound_iff` says for each of the three functions which
behaviours of the controller it reports truthfully.
-/
import Edk2Exynos.Lib.Polling
import Edk2Exynos.Ufs.Transfer

namespace Edk2Exynos.Ufs

open Lib

variable {c : DevUfs}

-- ========================================================= the constants

/-- The status codes of a wait, pairwise. -/
structure DevUfs.CodesDiffer (c : DevUfs) : Prop where
  noError_inProgress : c.noError ≠ c.inProgress
  noError_error : c.noError ≠ c.error
  noError_timeout : c.noError ≠ c.timeout
  inProgress_error : c.inProgress ≠ c.error

theorem DevUfs.codesDiffer (c : DevUfs) : c.CodesDiffer := by
  have h := c.distinct
  simp only [List.nodup_cons, List.mem_cons, not_or] at h
  exact ⟨h.1.1, h.1.2.1, h.1.2.2.1, h.2.1.1⟩

-- ============================================================== the wait

/-- The completion interrupt is up and the doorbell down. -/
def TransferDone (c : DevUfs) (p : Poll) : Prop :=
  p.intrStat &&& c.utpTransferReqCompl ≠ 0 ∧ p.doorBell &&& 1 = 0

/-- The poll sees a fatal error. -/
def Fatal (c : DevUfs) (p : Poll) : Prop :=
  p.intrStat &&& c.intFatalErrors ≠ 0

instance (c : DevUfs) (p : Poll) : Decidable (TransferDone c p) :=
  inferInstanceAs (Decidable (_ ∧ _))

instance (c : DevUfs) (p : Poll) : Decidable (Fatal c p) :=
  inferInstanceAs (Decidable (_ ≠ _))

/-- The transfer completes in time and before any fatal error. -/
def Completes (c : DevUfs) (polls : Nat → Poll) (timeout : Nat) : Prop :=
  ∃ k ≤ timeout, TransferDone c (polls k) ∧ ∀ j ≤ k, ¬ Fatal c (polls j)

/-- What one look at the controller decides. -/
def verdict (c : DevUfs) (p : Poll) : Option Int :=
  if Fatal c p then some c.error
  else if TransferDone c p then some c.noError
  else none

theorem handleUfsInt_eq (p : Poll) (timeout : Nat) :
    (handleUfsInt c p timeout).1 = match verdict c p with
      | some ret => ret
      | none => if timeout = 0 then c.timeout else c.inProgress := by
  have h1 := c.codesDiffer.noError_inProgress
  have h2 := c.codesDiffer.inProgress_error
  have hret : (handleUfsInt c p timeout).1
      = let ret := if Fatal c p then c.error
          else if TransferDone c p then c.noError else c.inProgress
        if ret = c.inProgress then
          if timeout = 0 then c.timeout else ret
        else ret := by
    cases timeout with
    | zero => exact apply_ite Prod.fst _ _ _
    | succ timeout => exact apply_ite Prod.fst _ _ _
  rw [hret]
  unfold verdict
  by_cases hfatal : Fatal c p
  · rw [if_pos hfatal, if_pos hfatal]
    dsimp only
    rw [if_neg h2.symm]
  · rw [if_neg hfatal, if_neg hfatal]
    by_cases hdone : TransferDone c p
    · rw [if_pos hdone, if_pos hdone]
      dsimp only
      rw [if_neg h1]
    · rw [if_neg hdone, if_neg hdone]
      dsimp only
      rw [if_pos rfl]

/-- The loop is a bounded poll for a verdict. -/
theorem pollUfsInt_eq (polls : Nat → Poll) (timeout k : Nat) :
    pollUfsInt c polls timeout k
      = (firstHit (fun i => verdict c (polls i)) timeout k).getD
        c.timeout := by
  have hsome : ∀ p ret, verdict c p = some ret → ret ≠ c.inProgress := by
    intro p ret h
    unfold verdict at h
    split at h
    · rw [← Option.some.inj h]
      exact c.codesDiffer.inProgress_error.symm
    · split at h
      · rw [← Option.some.inj h]
        exact c.codesDiffer.noError_inProgress
      · cases h
  induction timeout generalizing k with
  | zero =>
      unfold pollUfsInt firstHit
      rw [handleUfsInt_eq]
      cases verdict c (polls k) with
      | some ret => rfl
      | none => rfl
  | succ timeout ih =>
      unfold pollUfsInt firstHit
      dsimp only
      rw [handleUfsInt_eq]
      cases hv : verdict c (polls k) with
      | some ret => exact if_neg (hsome _ _ hv)
      | none =>
          dsimp only
          rw [if_neg (Nat.succ_ne_zero timeout), if_pos rfl]
          exact ih (k + 1)

theorem verdict_noError_iff (p : Poll) :
    verdict c p = some c.noError ↔ ¬ Fatal c p ∧ TransferDone c p := by
  unfold verdict
  by_cases hf : Fatal c p
  · rw [if_pos hf, Option.some_inj]
    exact ⟨fun h => absurd h.symm c.codesDiffer.noError_error, fun h =>
      absurd hf h.1⟩
  · rw [if_neg hf]
    by_cases hd : TransferDone c p
    · rw [if_pos hd]
      exact ⟨fun _ => ⟨hf, hd⟩, fun _ => rfl⟩
    · rw [if_neg hd]
      exact ⟨fun h => (nomatch h), fun h => absurd h.2 hd⟩

theorem verdict_none_iff (p : Poll) :
    verdict c p = none ↔ ¬ Fatal c p ∧ ¬ TransferDone c p := by
  unfold verdict
  by_cases hf : Fatal c p
  · rw [if_pos hf]
    exact ⟨fun h => (nomatch h), fun h => absurd hf h.1⟩
  · rw [if_neg hf]
    by_cases hd : TransferDone c p
    · rw [if_pos hd]
      exact ⟨fun h => (nomatch h), fun h => absurd hd h.2⟩
    · rw [if_neg hd]
      exact ⟨fun _ => ⟨hf, hd⟩, fun _ => rfl⟩

theorem pollUfsInt_noError_iff (polls : Nat → Poll) (timeout : Nat) :
    pollUfsInt c polls timeout 0 = c.noError
      ↔ Completes c polls timeout := by
  have hhit : pollUfsInt c polls timeout 0 = c.noError
      ↔ firstHit (fun i => verdict c (polls i)) timeout 0
        = some c.noError := by
    rw [pollUfsInt_eq]
    cases firstHit (fun i => verdict c (polls i)) timeout 0 with
    | some ret => exact Option.some_inj.symm
    | none => exact ⟨fun h => absurd h.symm c.codesDiffer.noError_timeout,
        fun h => (nomatch h)⟩
  rw [hhit, firstHit_eq_some_iff]
  simp only [Nat.zero_add, verdict_noError_iff, verdict_none_iff]
  constructor
  · rintro ⟨k, hk, ⟨hf, hd⟩, hbefore⟩
    refine ⟨k, hk, hd, fun j hj => ?_⟩
    rcases Nat.lt_or_eq_of_le hj with hlt | heq
    · exact (hbefore j hlt).1
    · rw [heq]
      exact hf
  · rintro ⟨k, hk, hd, hfatal⟩
    -- the first completion is the one the loop sees
    have hex : ∃ j, TransferDone c (polls j) := ⟨k, hd⟩
    have hle : Nat.find hex ≤ k := Nat.find_min' hex hd
    refine ⟨Nat.find hex, Nat.le_trans hle hk,
      ⟨hfatal _ hle, Nat.find_spec hex⟩, fun i hi => ⟨?_, ?_⟩⟩
    · exact hfatal i (by omega)
    · exact Nat.find_min hex hi

-- ============================================================ the result

/-- The driver takes the response for a failure: its response field is
set, or it claims to answer a SCSI command when there is none, and the
driver runs into the null pointer. -/
def ReportsFailure (c : DevUfs) (rsp : Response) (h : UfsHost) : Prop :=
  rsp.response ≠ 0
    ∨ (rsp.type = c.upiuTransactionResponse ∧ h.scsiCmd = none)

/-- When `__utp_check_result` returns 0. -/
theorem utpCheckResult_zero_iff (rsp : Response) (h : UfsHost) :
    (∃ h', utpCheckResult c rsp h = some (0, h'))
      ↔ h.utrd.dw2 = c.ocsSuccess ∨ ¬ ReportsFailure c rsp h := by
  have hcmd : (setScsiStatus rsp h).scsiCmd.isNone = true
      ↔ h.scsiCmd = none := by
    unfold setScsiStatus
    cases h.scsiCmd with
    | none => exact ⟨fun _ => rfl, fun _ => rfl⟩
    | some pscm => exact ⟨fun hn => (nomatch hn), fun hn => (nomatch hn)⟩
  unfold utpCheckResult ReportsFailure
  dsimp only
  by_cases hocs : h.utrd.dw2 = c.ocsSuccess
  · rw [show (setScsiStatus rsp h).utrd = h.utrd from rfl, if_pos hocs]
    exact ⟨fun _ => Or.inl hocs, fun _ => ⟨_, rfl⟩⟩
  · rw [show (setScsiStatus rsp h).utrd = h.utrd from rfl, if_neg hocs,
      or_iff_right hocs, not_or, not_not, not_and]
    by_cases hrsp : rsp.response = 0
    · rw [if_neg (not_not.mpr hrsp)]
      by_cases htype : rsp.type = c.upiuTransactionResponse
      · rw [if_pos htype]
        by_cases hnone : h.scsiCmd = none
        · rw [if_pos (hcmd.mpr hnone)]
          refine ⟨fun hex => ?_, fun hand => absurd hnone (hand.2 htype)⟩
          obtain ⟨h', hcon⟩ := hex
          exact absurd hcon (by simp)
        · rw [if_neg fun hn => hnone (hcmd.mp hn)]
          exact ⟨fun _ => ⟨hrsp, fun _ => hnone⟩, fun _ => ⟨_, rfl⟩⟩
      · rw [if_neg htype]
        exact ⟨fun _ => ⟨hrsp, fun ht => absurd ht htype⟩,
          fun _ => ⟨_, rfl⟩⟩
    · rw [if_pos hrsp]
      refine ⟨fun hex => ?_, fun hand => absurd hand.1 hrsp⟩
      obtain ⟨h', heq⟩ := hex
      exfalso
      split at heq
      · split at heq
        · exact absurd heq (by simp)
        · have hr : (-1 : Int) = 0 :=
            congrArg Prod.fst (Option.some.inj heq)
          exact absurd hr (by decide)
      · have hr : (-1 : Int) = 0 :=
          congrArg Prod.fst (Option.some.inj heq)
        exact absurd hr (by decide)

/-- The host's caches of what the device told. -/
structure SameCaches (h h' : UfsHost) : Prop where
  unitDesc : h'.unitDesc = h.unitDesc
  deviceDesc : h'.deviceDesc = h.deviceDesc
  configDesc : h'.configDesc = h.configDesc
  geometryDesc : h'.geometryDesc = h.geometryDesc
  attributes : h'.attributes = h.attributes
  flags : h'.flags = h.flags

theorem SameCaches.trans {h₁ h₂ h₃ : UfsHost} (h₁₂ : SameCaches h₁ h₂)
    (h₂₃ : SameCaches h₂ h₃) : SameCaches h₁ h₃ :=
  ⟨h₂₃.unitDesc.trans h₁₂.unitDesc, h₂₃.deviceDesc.trans h₁₂.deviceDesc,
    h₂₃.configDesc.trans h₁₂.configDesc,
    h₂₃.geometryDesc.trans h₁₂.geometryDesc,
    h₂₃.attributes.trans h₁₂.attributes, h₂₃.flags.trans h₁₂.flags⟩

/-- What checking a result does to the host. -/
theorem utpCheckResult_host {rsp : Response} {h h' : UfsHost} {r : Int}
    (heq : utpCheckResult c rsp h = some (r, h')) :
    h' = setScsiStatus rsp h ∨ h' = copySense rsp (setScsiStatus rsp h) := by
  unfold utpCheckResult at heq
  dsimp only at heq
  split at heq
  · have hh : setScsiStatus rsp h = h' :=
      congrArg Prod.snd (Option.some.inj heq)
    exact Or.inl hh.symm
  · split at heq
    · split at heq
      · exact absurd heq (by simp)
      · have hh : copySense rsp (setScsiStatus rsp h) = h' :=
          congrArg Prod.snd (Option.some.inj heq)
        exact Or.inr hh.symm
    · have hh : setScsiStatus rsp h = h' :=
        congrArg Prod.snd (Option.some.inj heq)
      exact Or.inl hh.symm

/-- It does not touch the caches. -/
theorem utpCheckResult_caches {rsp : Response} {h h' : UfsHost} {r : Int}
    (heq : utpCheckResult c rsp h = some (r, h')) : SameCaches h h' := by
  rcases utpCheckResult_host heq with hh | hh
  · rw [hh]
    exact ⟨rfl, rfl, rfl, rfl, rfl, rfl⟩
  · rw [hh]
    exact ⟨rfl, rfl, rfl, rfl, rfl, rfl⟩

theorem utpCheckResult_timeout {rsp : Response} {h h' : UfsHost} {r : Int}
    (heq : utpCheckResult c rsp h = some (r, h')) :
    h'.ufsCmdTimeout = h.ufsCmdTimeout := by
  rcases utpCheckResult_host heq with hh | hh
  · rw [hh]
    rfl
  · rw [hh]
    rfl

theorem utpQueryGetData_timeout (rsp : Response) (qry : QueryIndex)
    (h : UfsHost) :
    (utpQueryGetData c rsp qry h).ufsCmdTimeout = h.ufsCmdTimeout := by
  unfold utpQueryGetData utpQueryReadInfo
  split
  · split <;> rfl
  all_goals rfl

-- ====================================================== the transactions

/-- The wait ended with UFS_NO_ERROR, and the overall command status is
OCS_SUCCESS. -/
def Succeeded (c : DevUfs) (h : UfsHost) (type : TransactionType)
    (reply : Reply) : Prop :=
  utpWaitForResponse c h type reply = c.noError ∧ reply.ocs = c.ocsSuccess

/-- The host while a SCSI command is under way, and the reply it meets. -/
def cmdHost (pscm : ScsiCmd) (h : UfsHost) : UfsHost :=
  utpGetScsiCxt pscm (utpInit 0 h)

/-- The reply to a query. -/
def queryReply (c : DevUfs) (ctl : Controller) (qry : QueryIndex)
    (lun : U32) (h : UfsHost) : Reply :=
  ctl (utpWriteQueryAllDescs c qry (utpInit lun h))

/-- `ufs_utp_query_process` does, and without a success it keeps the
caches. -/
def QuerySound (c : DevUfs) (ctl : Controller) (qry : QueryIndex)
    (lun : U32) (h : UfsHost) : Prop :=
  (∀ h', ufsUtpQueryProcess c ctl qry lun h = some (0, h') →
    Succeeded c (utpInit lun h) .queryReq (queryReply c ctl qry lun h))
  ∧ (¬ Succeeded c (utpInit lun h) .queryReq
      (queryReply c ctl qry lun h) →
    ∀ r h', ufsUtpQueryProcess c ctl qry lun h = some (r, h') →
      SameCaches h h')

theorem utpWaitForResponse_iff (h : UfsHost) (type : TransactionType)
    (reply : Reply) :
    utpWaitForResponse c h type reply = c.noError
      ↔ Completes c reply.polls (utpTimeout c h type).toNat :=
  pollUfsInt_noError_iff _ _

/-- The host a query's result is checked on. -/
def queryHost (c : DevUfs) (ctl : Controller) (qry : QueryIndex)
    (lun : U32) (h : UfsHost) : UfsHost :=
  (utpInit lun h).completed
    (utpWriteQueryAllDescs c qry (utpInit lun h)).utrd
    (queryReply c ctl qry lun h)

/-- What a query returns, by what the check does. -/
theorem ufsUtpQueryProcess_eq (ctl : Controller) (qry : QueryIndex)
    (lun : U32) (h : UfsHost) :
    ufsUtpQueryProcess c ctl qry lun h =
      match utpCheckResult c (queryReply c ctl qry lun h).rsp
        (queryHost c ctl qry lun h) with
      | none => none
      | some (r, h') =>
          if r ≠ 0 then some (r, h')
          else some (r, utpQueryGetData c (queryReply c ctl qry lun h).rsp
            qry h') := rfl

/-- A query keeps only the result of the check. -/
theorem ufsUtpQueryProcess_zero_iff (ctl : Controller) (qry : QueryIndex)
    (lun : U32) (h : UfsHost) :
    (∃ h', ufsUtpQueryProcess c ctl qry lun h = some (0, h'))
      ↔ (queryReply c ctl qry lun h).ocs = c.ocsSuccess
        ∨ ¬ ReportsFailure c (queryReply c ctl qry lun h).rsp
          (utpInit lun h) := by
  have hcheck : _ ↔ (queryReply c ctl qry lun h).ocs = c.ocsSuccess
      ∨ ¬ ReportsFailure c (queryReply c ctl qry lun h).rsp
        (utpInit lun h) :=
    utpCheckResult_zero_iff (queryReply c ctl qry lun h).rsp
      (queryHost c ctl qry lun h)
  rw [← hcheck, ufsUtpQueryProcess_eq]
  cases utpCheckResult c (queryReply c ctl qry lun h).rsp
      (queryHost c ctl qry lun h) with
  | none => exact ⟨fun ⟨_, hcon⟩ => (nomatch hcon),
      fun ⟨_, hcon⟩ => (nomatch hcon)⟩
  | some res =>
      obtain ⟨r, h'⟩ := res
      dsimp only
      by_cases hr : r = 0
      · rw [if_neg (not_not.mpr hr), hr]
        exact ⟨fun _ => ⟨_, rfl⟩, fun _ => ⟨_, rfl⟩⟩
      · rw [if_pos hr]

/-- A query that does not return 0 keeps the caches. -/
theorem ufsUtpQueryProcess_caches {ctl : Controller} {qry : QueryIndex}
    {lun : U32} {h h' : UfsHost} {r : Int} (hr : r ≠ 0)
    (heq : ufsUtpQueryProcess c ctl qry lun h = some (r, h')) :
    SameCaches h h' := by
  rw [ufsUtpQueryProcess_eq] at heq
  cases hres : utpCheckResult c (queryReply c ctl qry lun h).rsp
      (queryHost c ctl qry lun h) with
  | none =>
      rw [hres] at heq
      cases heq
  | some res =>
      obtain ⟨r₂, h₂⟩ := res
      have hinit : SameCaches h (queryHost c ctl qry lun h) :=
        ⟨rfl, rfl, rfl, rfl, rfl, rfl⟩
      have hkeep := hinit.trans (utpCheckResult_caches hres)
      rw [hres] at heq
      dsimp only at heq
      split at heq
      · have hh : h₂ = h' := congrArg Prod.snd (Option.some.inj heq)
        rw [← hh]
        exact hkeep
      · next hr₂ =>
          have hrr : r₂ = r := congrArg Prod.fst (Option.some.inj heq)
          exact absurd (hrr.symm.trans (not_not.mp hr₂)) hr

theorem querySound_iff (ctl : Controller) (qry : QueryIndex) (lun : U32)
    (h : UfsHost) :
    QuerySound c ctl qry lun h ↔
      if (queryReply c ctl qry lun h).ocs = c.ocsSuccess then
        Completes c (queryReply c ctl qry lun h).polls
          h.ufsCmdTimeout.toNat
      else ReportsFailure c (queryReply c ctl qry lun h).rsp
        (utpInit lun h) := by
  have hzero := ufsUtpQueryProcess_zero_iff (c := c) ctl qry lun h
  have hwait : utpWaitForResponse c (utpInit lun h) .queryReq
      (queryReply c ctl qry lun h) = c.noError
      ↔ Completes c (queryReply c ctl qry lun h).polls
        h.ufsCmdTimeout.toNat := utpWaitForResponse_iff _ _ _
  unfold QuerySound Succeeded
  rw [hwait]
  by_cases hsucc : (queryReply c ctl qry lun h).ocs = c.ocsSuccess
  · rw [if_pos hsucc]
    constructor
    · intro hsound
      obtain ⟨h', heq⟩ := hzero.mpr (Or.inl hsucc)
      exact (hsound.1 h' heq).1
    · intro hdone
      exact ⟨fun _ _ => ⟨hdone, hsucc⟩,
        fun hnot => absurd ⟨hdone, hsucc⟩ hnot⟩
  · rw [if_neg hsucc]
    constructor
    · intro hsound
      by_contra hr
      obtain ⟨h', heq⟩ := hzero.mpr (Or.inr hr)
      exact hsucc (hsound.1 h' heq).2
    · intro hfail
      have hno : ∀ h', ufsUtpQueryProcess c ctl qry lun h
          ≠ some (0, h') := by
        intro h' heq
        rcases hzero.mp ⟨h', heq⟩ with hs | hnot
        · exact hsucc hs
        · exact hnot hfail
      refine ⟨fun h' heq => absurd heq (hno h'), fun _ r h' heq => ?_⟩
      apply ufsUtpQueryProcess_caches _ heq
      intro hr
      rw [hr] at heq
      exact hno h' heq

-- ======================================================= the main result

/-- Codes and sizes as the standards have them. -/
def sampleDevUfs : DevUfs where
  noError := 0
  inProgress := 1
  error := -1
  timeout := -2
  noError_eq := rfl
  distinct := by decide
  ocsSuccess := 0
  ocsInvalidCommandStatus := 0x0F
  utpTransferReqCompl := 0x1
  intFatalErrors := 0x30800
  upiuTransactionResponse := 0x21
  upiuTransactionQueryRsp := 0x36
  scsiOp := fun op =>
    if op = 0x42 then .unmap
    else if op = 0x04 then .formatUnit
    else if op = 0x2A then .write10
    else if op = 0x3B then .writeBuffer
    else if op = 0xB5 then .secuProtOut
    else if op = 0x1B then .startStopUnit
    else .other
  upiuHeaderDword := fun b₃ b₂ b₁ b₀ => b₀ ++ b₁ ++ b₂ ++ b₃
  sizeUnitDesc := 0x23
  sizeDeviceDesc := 0x40
  sizeGeometryDesc := 0x48
  -- no descriptor is read below
  copyConfigDesc := fun _ _ desc => desc
  copyGeometryDesc := fun _ _ desc => desc
  utpScsiCommand := 0x10000000
  utpReqDescIntCmd := 0x01000000
  upiuCmdFlagsNone := 0
  upiuCmdFlagsRead := 0x40
  upiuCmdFlagsWrite := 0x20
  utpNoDataTransfer := 0
  utpHostToDevice := 0x02000000
  utpDeviceToHost := 0x04000000
  ufsSgBlockSize := 0x1000
  sizeUfsPrdt := 0x10
  alignedUpiuSize := 0x400

/-- The host has read a boot LUN before. -/
def bootHost : UfsHost := { blankHost with attributes := fun _ => 1 }

end Edk2Exynos.Ufs
