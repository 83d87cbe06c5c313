/-
The two polling loops of ufs.c, turn by turn: `send_uic_cmd` and
`__utp_wait_for_response` call `handle_ufs_int` until it is no longer in
progress.

# One turn

A turn ends the loop, or counts the timeout down (`turn_cases`): the
countdown is made only where the poll found neither what is awaited nor
an error, and at zero it is itself the end.

# The run

`loopRun_ends` follows from that by induction on the timeout. What the
loop ends with is what the models of the two callers return
(`pollUfsInt_result`, `pollUicInt_result`).
-/
import Edk2Exynos.Ufs.UicAccepted

namespace Edk2Exynos.Ufs

open Lib

section

variable {c : DevUfs} (u : DevUic c)

-- ============================================================== one turn

/-- `is_uic`, and the command then. -/
inductive Awaited where
  | uic (cmd : UfsUicCmd)
  | transfer

/-- The handler that `handle_ufs_int` calls. -/
def Awaited.handle : Awaited → Poll → Int
  | .uic cmd, p => handleUfsUicInt u cmd p.intrStat
  | .transfer, p => handleUfsUtpInt c p

/-- `handle_ufs_int`, and the timeout it leaves. -/
def Awaited.handleInt (a : Awaited) (p : Poll) (timeout : Nat) :
    Int × Nat :=
  let ret := a.handle u p
  let ret := if p.intrStat &&& c.intFatalErrors ≠ 0 then c.error else ret
  if ret = c.inProgress then
    match timeout with
    | 0 => (c.timeout, 0)
    | timeout + 1 => (ret, timeout)
  else (ret, timeout)

/-- The completion the operation needs. -/
def Awaited.Done : Awaited → Poll → Prop
  | .uic cmd, p => UicDone u cmd p.intrStat
  | .transfer, p => TransferDone c p

/-- `while (UFS_IN_PROGRESS == (err = handle_ufs_int (..)))` -/
inductive PollLoop where
  | polling (timeout : Nat)
  | ended (err : Int)

/-- One turn of the loop. -/
def PollLoop.turn (a : Awaited) (p : Poll) : PollLoop → PollLoop
  | .polling timeout =>
    let (err, timeout) := a.handleInt u p timeout
    if err = c.inProgress then .polling timeout else .ended err
  | .ended err => .ended err

/-- `n` turns. -/
def loopRun (a : Awaited) : Nat → (Nat → Poll) → PollLoop → PollLoop
  | 0, _, s => s
  | n + 1, polls, s =>
    loopRun a n (fun i => polls (i + 1)) (s.turn u a (polls 0))

-- ====================================================== what a turn does

/-- What a poll decides, but for the timeout. -/
def Awaited.look (a : Awaited) (p : Poll) : Option Int :=
  if Fatal c p then some c.error
  else if a.handle u p = c.inProgress then none
  else some (a.handle u p)

theorem inProgress_ne_timeout (c : DevUfs) : c.timeout ≠ c.inProgress := by
  have h := c.distinct
  simp only [List.nodup_cons, List.mem_cons, not_or] at h
  exact Ne.symm h.2.1.2.1

/-- A turn counts down, runs out of time or ends with what it found. -/
theorem turn_cases (a : Awaited) (p : Poll) (timeout : Nat) :
    (a.look u p = none ∧ ∃ t, timeout = t + 1
      ∧ (PollLoop.polling timeout).turn u a p = .polling t)
    ∨ (a.look u p = none ∧ timeout = 0
      ∧ (PollLoop.polling timeout).turn u a p = .ended c.timeout)
    ∨ ∃ err, a.look u p = some err
      ∧ (PollLoop.polling timeout).turn u a p = .ended err := by
  have herr : c.error ≠ c.inProgress := c.codesDiffer.inProgress_error.symm
  unfold Awaited.look PollLoop.turn Awaited.handleInt
  by_cases hfatal : Fatal c p
  · right
    right
    refine ⟨c.error, if_pos hfatal, ?_⟩
    have hbit : p.intrStat &&& c.intFatalErrors ≠ 0 := hfatal
    simp only [if_pos hbit, if_neg herr]
  · have hbit : ¬ p.intrStat &&& c.intFatalErrors ≠ 0 := hfatal
    simp only [if_neg hfatal, if_neg hbit]
    by_cases hwait : a.handle u p = c.inProgress
    · simp only [if_pos hwait]
      cases timeout with
      | zero =>
        right
        left
        exact ⟨trivial, rfl, if_neg (inProgress_ne_timeout c)⟩
      | succ t =>
        left
        exact ⟨trivial, t, rfl, if_pos hwait⟩
    · right
      right
      simp only [if_neg hwait]
      exact ⟨_, rfl, rfl⟩

/-- It finds no error only where what is awaited is there, and nothing
fatal. -/
theorem look_noError {a : Awaited} {p : Poll}
    (h : a.look u p = some c.noError) :
    a.Done u p ∧ p.intrStat &&& c.intFatalErrors = 0 := by
  have hne := c.codesDiffer
  unfold Awaited.look at h
  split at h
  · exact absurd (Option.some.inj h).symm hne.noError_error
  next hfatal =>
    refine ⟨?_, not_not.mp hfatal⟩
    split at h
    · cases h
    · have hret : a.handle u p = c.noError := Option.some.inj h
      cases a with
      | uic cmd =>
        rw [Awaited.handle, handleUfsUicInt_eq] at hret
        split at hret
        · exact absurd hret.symm hne.noError_error
        · split at hret
          next hdone => exact hdone
          · exact absurd hret.symm hne.noError_inProgress
      | transfer =>
        unfold Awaited.handle handleUfsUtpInt at hret
        simp only at hret
        split at hret
        next hdone => exact hdone
        · exact absurd hret.symm hne.noError_inProgress

-- =============================================================== the run

/-- What the loop ends with: the first find within the timeout. -/
def loopResult (a : Awaited) (polls : Nat → Poll) (timeout : Nat) : Int :=
  (firstHit (fun i => a.look u (polls i)) timeout 0).getD c.timeout

section

variable {u} {a : Awaited} {polls : Nat → Poll}

theorem loopResult_of_some {err : Int} (h : a.look u (polls 0) = some err)
    (timeout : Nat) : loopResult u a polls timeout = err := by
  unfold loopResult
  cases timeout <;> simp only [firstHit, h, Option.getD_some]

theorem loopResult_zero (h : a.look u (polls 0) = none) :
    loopResult u a polls 0 = c.timeout := by
  unfold loopResult
  simp only [firstHit, h, Option.getD_none]

theorem loopResult_succ (h : a.look u (polls 0) = none) (t : Nat) :
    loopResult u a polls (t + 1)
      = loopResult u a (fun i => polls (i + 1)) t := by
  unfold loopResult
  simp only [firstHit, h, firstHit_succ]

end

/-- Whatever statuses and doorbell values are polled, a loop ends after at
most one poll more than its timeout; and without an error only where the
last poll showed the completion and no fatal error. -/
theorem loopRun_ends (a : Awaited) (timeout : Nat) (polls : Nat → Poll) :
    ∃ k ≤ timeout,
      loopRun u a k polls (.polling timeout) = .polling (timeout - k)
      ∧ loopRun u a (k + 1) polls (.polling timeout)
        = .ended (loopResult u a polls timeout)
      ∧ (loopResult u a polls timeout = c.noError →
        a.Done u (polls k)
          ∧ (polls k).intrStat &&& c.intFatalErrors = 0) := by
  induction timeout generalizing polls with
  | zero =>
    refine ⟨0, Nat.le_refl 0, rfl, ?_⟩
    rcases turn_cases u a (polls 0) 0 with
      ⟨_, t, ht, _⟩ | ⟨hlook, _, hturn⟩ | ⟨err, hlook, hturn⟩
    · exact absurd ht (by omega)
    · rw [loopResult_zero hlook]
      exact ⟨hturn, fun h =>
        absurd h.symm c.codesDiffer.noError_timeout⟩
    · rw [loopResult_of_some hlook]
      refine ⟨hturn, fun h => look_noError u ?_⟩
      rw [hlook, h]
  | succ t ih =>
    rcases turn_cases u a (polls 0) (t + 1) with
      ⟨hlook, t', ht, hturn⟩ | ⟨_, hzero, _⟩ | ⟨err, hlook, hturn⟩
    · -- the countdown: the rest is the loop from the next poll on
      cases ht
      obtain ⟨k, hk, hrun, hend, hfound⟩ := ih fun i => polls (i + 1)
      refine ⟨k + 1, by omega, ?_, ?_, ?_⟩
      · rw [loopRun, hturn, hrun]
        congr 1
        omega
      · rw [loopRun, hturn, hend, loopResult_succ hlook]
      · rw [loopResult_succ hlook]
        exact hfound
    · exact absurd hzero (by omega)
    · refine ⟨0, Nat.zero_le _, rfl, ?_⟩
      rw [loopResult_of_some hlook]
      refine ⟨hturn, fun h => look_noError u ?_⟩
      rw [hlook, h]

-- ============================================================ the callers

/-- The loop of `__utp_wait_for_response` ends with its result. -/
theorem pollUfsInt_result (polls : Nat → Poll) (timeout : Nat) :
    pollUfsInt c polls timeout 0 = loopResult u .transfer polls timeout := by
  have hlook : ∀ p, verdict c p = Awaited.transfer.look u p := by
    intro p
    have hne := c.codesDiffer.noError_inProgress
    unfold verdict Awaited.look Awaited.handle handleUfsUtpInt
    split
    · rfl
    · by_cases hdone : TransferDone c p
      · rw [if_pos hdone]
        simp only [if_pos (show p.intrStat &&& c.utpTransferReqCompl ≠ 0
          ∧ p.doorBell &&& 1 = 0 from hdone), if_neg hne]
      · rw [if_neg hdone]
        simp only [if_neg (show ¬ (p.intrStat &&& c.utpTransferReqCompl ≠ 0
          ∧ p.doorBell &&& 1 = 0) from hdone), if_true]
  rw [pollUfsInt_eq]
  simp only [hlook]
  rfl

/-- And that of `send_uic_cmd`, on the statuses it reads. -/
theorem pollUicInt_result {E : Type} (R : Registers E) (cmd : UfsUicCmd)
    (timeout : Nat) (e : E) :
    (pollUicInt u R cmd timeout e).1
      = loopResult u (.uic cmd) (fun k => ⟨seen
          (R.readl (.io u.regInterruptStatus)) (R.uDelay 1) e k, 0⟩)
          timeout := by
  have hlook : ∀ stat, handleUicInt u cmd stat
      = (Awaited.uic cmd).look u ⟨stat, 0⟩ := by
    intro stat
    have herr := c.codesDiffer.inProgress_error
    unfold handleUicInt Awaited.look Fatal Awaited.handle
    simp only
    by_cases hfatal : stat &&& c.intFatalErrors ≠ 0
    · simp only [if_pos hfatal, if_neg herr.symm]
    · simp only [if_neg hfatal]
  unfold pollUicInt loopResult
  simp only [pollWith_fst, hlook]

end

end Edk2Exynos.Ufs
