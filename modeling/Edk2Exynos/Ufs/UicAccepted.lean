/-
When a result of 0 means that a list of UIC commands was accepted.

# One command

`CommandAccepted` says what a UIC command that completed without error
is, in terms of the interrupt statuses and of the error code alone;
`send_uic_cmd` returns 0 for exactly these (`sendUicCmd_zero_iff`).

# A list

`outcomes` is what the commands of a list met, one after the other. The
interpreter keeps the result of the last UIC command only, and leaves
with 0 when a wait has run out of time (`uniproLoop_result`). So an error
survives as long as no UIC command after it succeeds, and a timeout never
does. Lanes and gear are set by such lists, and a lane combination the
driver calls abnormal is treated like a success.
-/
import Edk2Exynos.Ufs.TransferResult
import Edk2Exynos.Ufs.Uic

namespace Edk2Exynos.Ufs

open Lib

variable {E : Type} {c : DevUfs} (u : DevUic c) (R : Registers E)

-- =========================================================== one command

/-- The completion interrupt is up; a gear change needs that of the power
mode as well. -/
def UicDone (cmd : UfsUicCmd) (intrStat : U32) : Prop :=
  intrStat &&& u.uicCommandCompl ≠ 0
    ∧ (u.op cmd.uiccmdr = .dmeSet → cmd.uiccmdarg1 = uicAttr 0x1571 →
      intrStat &&& u.uicPowerMode ≠ 0)

/-- An error interrupt is up, and not the bogus one of a link startup. -/
def UicFault (cmd : UfsUicCmd) (intrStat : U32) : Prop :=
  (intrStat &&& u.uicError ≠ 0 ∧ u.op cmd.uiccmdr ≠ .dmeLinkStartup)
    ∨ intrStat &&& c.intFatalErrors ≠ 0

instance (cmd : UfsUicCmd) (intrStat : U32) :
    Decidable (UicDone u cmd intrStat) :=
  inferInstanceAs (Decidable (_ ∧ _))

instance (cmd : UfsUicCmd) (intrStat : U32) :
    Decidable (UicFault u cmd intrStat) :=
  inferInstanceAs (Decidable (_ ∨ _))

theorem handleUfsUicInt_eq (cmd : UfsUicCmd) (intrStat : U32) :
    handleUfsUicInt u cmd intrStat
      = if intrStat &&& u.uicError ≠ 0
            ∧ u.op cmd.uiccmdr ≠ .dmeLinkStartup then c.error
        else if UicDone u cmd intrStat then c.noError else c.inProgress := by
  unfold handleUfsUicInt
  dsimp only
  split
  · rfl
  · by_cases hdone : UicDone u cmd intrStat
    · rw [if_pos hdone, if_pos hdone.1]
      cases hop : u.op cmd.uiccmdr with
      | dmeSet =>
          dsimp only
          split
          next harg => rw [if_pos (hdone.2 hop harg)]
          next => rfl
      | _ => rfl
    · rw [if_neg hdone]
      split
      next hcompl =>
        -- a gear change without the interrupt of the power mode
        have hgear : u.op cmd.uiccmdr = .dmeSet
            ∧ cmd.uiccmdarg1 = uicAttr 0x1571
            ∧ ¬ intrStat &&& u.uicPowerMode ≠ 0 := by
          by_contra hcon
          refine hdone ⟨hcompl, fun hop harg => ?_⟩
          by_contra hpower
          exact hcon ⟨hop, harg, not_not.mpr hpower⟩
        rw [hgear.1]
        dsimp only
        rw [if_pos hgear.2.1, if_neg hgear.2.2]
      next => rfl

/-- What one look at the interrupt status decides. -/
theorem handleUicInt_eq (cmd : UfsUicCmd) (intrStat : U32) :
    handleUicInt u cmd intrStat
      = if UicFault u cmd intrStat then some c.error
        else if UicDone u cmd intrStat then some c.noError else none := by
  have hne := c.codesDiffer
  have herr : c.error ≠ c.inProgress := hne.inProgress_error.symm
  unfold handleUicInt
  rw [handleUfsUicInt_eq]
  dsimp only
  by_cases hfatal : intrStat &&& c.intFatalErrors ≠ 0
  · have hfault : UicFault u cmd intrStat := Or.inr hfatal
    rw [if_pos hfatal, if_neg herr, if_pos hfault]
  · rw [if_neg hfatal]
    by_cases hbad : intrStat &&& u.uicError ≠ 0
        ∧ u.op cmd.uiccmdr ≠ .dmeLinkStartup
    · have hfault : UicFault u cmd intrStat := Or.inl hbad
      rw [if_pos hbad, if_neg herr, if_pos hfault]
    · have hfault : ¬ UicFault u cmd intrStat := not_or.mpr ⟨hbad, hfatal⟩
      rw [if_neg hbad, if_neg hfault]
      by_cases hdone : UicDone u cmd intrStat
      · rw [if_pos hdone, if_neg hne.noError_inProgress, if_pos hdone]
      · rw [if_neg hdone, if_pos rfl, if_neg hdone]

theorem handleUicInt_noError_iff (cmd : UfsUicCmd) (intrStat : U32) :
    handleUicInt u cmd intrStat = some c.noError
      ↔ ¬ UicFault u cmd intrStat ∧ UicDone u cmd intrStat := by
  have hne := c.codesDiffer
  rw [handleUicInt_eq]
  split
  next h =>
    rw [Option.some.injEq]
    exact ⟨fun h' => absurd h'.symm hne.noError_error,
      fun h' => absurd h h'.1⟩
  next h =>
    split
    next h' => exact ⟨fun _ => ⟨h, h'⟩, fun _ => rfl⟩
    next h' => exact ⟨nofun, fun hcon => absurd hcon.2 h'⟩

/-- It looks again while there is neither an error nor a completion. -/
theorem handleUicInt_none_iff (cmd : UfsUicCmd) (intrStat : U32) :
    handleUicInt u cmd intrStat = none
      ↔ ¬ UicFault u cmd intrStat ∧ ¬ UicDone u cmd intrStat := by
  rw [handleUicInt_eq]
  split
  next h => exact ⟨nofun, fun hcon => absurd h hcon.1⟩
  next h =>
    split
    next h' => exact ⟨nofun, fun hcon => absurd h' hcon.2⟩
    next h' => exact ⟨fun _ => ⟨h, h'⟩, fun _ => rfl⟩

/-- The command registers are written. -/
def writeUicCmd (w : UicWorld E) : E :=
  let cmd := w.ufs.uicCmd
  R.writel cmd.uiccmdr (.io u.regUicCommand) <|
    R.writel cmd.uiccmdarg3 (.io u.regUicCommandArg3) <|
    R.writel cmd.uiccmdarg2 (.io u.regUicCommandArg2) <|
    R.writel cmd.uiccmdarg1 (.io u.regUicCommandArg1) w.env

/-- The interrupt statuses that `send_uic_cmd` sees, as long as it looks. -/
def intrStats (w : UicWorld E) : Nat → U32 :=
  seen (R.readl (.io u.regInterruptStatus)) (R.uDelay 1) (writeUicCmd u R w)

/-- The command completes in time and before any error. -/
def UicCompletes (w : UicWorld E) : Prop :=
  ∃ k ≤ w.ufs.uicCmdTimeout.toNat,
    UicDone u w.ufs.uicCmd (intrStats u R w k)
      ∧ ∀ j ≤ k, ¬ UicFault u w.ufs.uicCmd (intrStats u R w j)

/-- It completes, with an error code of 0. -/
def CommandAccepted (w : UicWorld E) : Prop :=
  UicCompletes u R w ∧ (issueUicCmd u R w).2.1 = 0

theorem issueUicCmd_fst (w : UicWorld E) :
    (issueUicCmd u R w).1 = (firstHit (fun k => handleUicInt u w.ufs.uicCmd
      (intrStats u R w k)) w.ufs.uicCmdTimeout.toNat 0).getD c.timeout := by
  have hpoll := pollWith_fst (R.readl (.io u.regInterruptStatus))
    (R.uDelay 1) (handleUicInt u w.ufs.uicCmd) w.ufs.uicCmdTimeout.toNat
    (writeUicCmd u R w)
  exact congrArg (·.getD c.timeout) hpoll

/-- The wait ends with UFS_NO_ERROR exactly when the command completes. -/
theorem issueUicCmd_noError_iff (w : UicWorld E) :
    (issueUicCmd u R w).1 = c.noError ↔ UicCompletes u R w := by
  have hne := c.codesDiffer
  have hhit : (issueUicCmd u R w).1 = c.noError
      ↔ firstHit (fun k => handleUicInt u w.ufs.uicCmd (intrStats u R w k))
        w.ufs.uicCmdTimeout.toNat 0 = some c.noError := by
    rw [issueUicCmd_fst]
    cases firstHit (fun k => handleUicInt u w.ufs.uicCmd
        (intrStats u R w k)) w.ufs.uicCmdTimeout.toNat 0 with
    | none =>
        exact ⟨fun h => absurd h.symm hne.noError_timeout,
          fun h => by cases h⟩
    | some ret => rw [Option.getD_some, Option.some.injEq]
  rw [hhit, firstHit_eq_some_iff]
  simp only [Nat.zero_add]
  unfold UicCompletes
  constructor
  · rintro ⟨k, hk, hdone, hbefore⟩
    obtain ⟨hnofault, hdone⟩ := (handleUicInt_noError_iff u _ _).mp hdone
    refine ⟨k, hk, hdone, fun j hj => ?_⟩
    rcases Nat.lt_or_eq_of_le hj with hlt | heq
    · exact ((handleUicInt_none_iff u _ _).mp (hbefore j hlt)).1
    · rw [heq]
      exact hnofault
  · rintro ⟨k, hk, hdone, hnofault⟩
    -- the first status that says the command is done
    have hex : ∃ j, UicDone u w.ufs.uicCmd (intrStats u R w j) := ⟨k, hdone⟩
    have hle : Nat.find hex ≤ k := Nat.find_min' hex hdone
    refine ⟨Nat.find hex, hle.trans hk, ?_, fun j hj => ?_⟩
    · exact (handleUicInt_noError_iff u _ _).mpr
        ⟨hnofault _ hle, Nat.find_spec hex⟩
    · exact (handleUicInt_none_iff u _ _).mpr
        ⟨hnofault j (hj.le.trans hle), Nat.find_min hex hj⟩

/-- A status code other than 0 is not 0 as an `int`. -/
theorem ofInt_ne_zero {code : Int} (hlow : -2 ^ 31 ≤ code)
    (hhigh : code < 2 ^ 31) (hne : code ≠ 0) :
    BitVec.ofInt 32 code ≠ 0 := by
  intro h
  have hint := congrArg BitVec.toInt h
  rw [BitVec.toInt_ofInt] at hint
  have hbmod : code.bmod (2 ^ 32) = code := by
    apply Int.bmod_eq_of_le
    · omega
    · omega
  rw [hbmod] at hint
  exact hne hint

theorem issueUicCmd_code (w : UicWorld E) :
    (issueUicCmd u R w).1 = c.noError
      ∨ (issueUicCmd u R w).1 ∈ [c.inProgress, c.error, c.timeout] := by
  rw [issueUicCmd_fst]
  cases h : firstHit (fun k => handleUicInt u w.ufs.uicCmd
      (intrStats u R w k)) w.ufs.uicCmdTimeout.toNat 0 with
  | none => simp
  | some ret =>
      obtain ⟨j, -, hj, -⟩ := (firstHit_eq_some_iff _ _ _ _).mp h
      rw [handleUicInt_eq] at hj
      split at hj
      · cases hj
        simp
      · split at hj
        · cases hj
          exact Or.inl rfl
        · cases hj

/-- `send_uic_cmd` returns 0 exactly for a command that completed without
error. -/
theorem sendUicCmd_zero_iff (w : UicWorld E) :
    (sendUicCmd u R w).1 = 0 ↔ CommandAccepted u R w := by
  have hor : (sendUicCmd u R w).1 = ((issueUicCmd u R w).2.1
      ||| BitVec.ofInt 32 (issueUicCmd u R w).1).toInt := rfl
  have hzero : (issueUicCmd u R w).1 = c.noError
      ↔ BitVec.ofInt 32 (issueUicCmd u R w).1 = 0 := by
    rcases issueUicCmd_code u R w with hcode | hcode
    · rw [hcode, c.noError_eq]
      exact ⟨fun _ => rfl, fun _ => rfl⟩
    · obtain ⟨hlow, hhigh⟩ := u.codes_int _ hcode
      have hne : (issueUicCmd u R w).1 ≠ c.noError := by
        intro heq
        rw [heq] at hcode
        have hdiff := c.distinct
        simp only [List.nodup_cons] at hdiff
        exact hdiff.1 hcode
      rw [c.noError_eq] at hne ⊢
      exact ⟨fun h => absurd h hne,
        fun h => absurd h (ofInt_ne_zero hlow hhigh hne)⟩
  have htoInt : ∀ x : U32, x.toInt = 0 ↔ x = 0 := by
    intro x
    rw [← BitVec.toInt_inj]
    rfl
  have hboth : ∀ x y : U32, x ||| y = 0 ↔ x = 0 ∧ y = 0 :=
    fun _ _ => BitVec.or_eq_zero_iff
  unfold CommandAccepted
  rw [hor, htoInt, hboth, ← hzero, issueUicCmd_noError_iff]
  exact And.comm

-- ============================================================== the list

/-- What a command of a list met. -/
inductive UicOutcome where
  | done
  | command (res : Int)
  | waited (all : Bool)
  deriving DecidableEq

/-- A UIC command was accepted, a wait saw all its bits. -/
def UicOutcome.Good : UicOutcome → Prop
  | .done => True
  | .command res => res = 0
  | .waited all => all = true

/-- One command of a list. -/
def uniproStep (cmd : UfsUicCmd) (w : UicWorld E) :
    UicOutcome × UicWorld E :=
  let w := w.setCmd cmd
  let timeout := w.ufs.uicCmdTimeout.toNat
  match u.op cmd.uiccmdr with
  | .wait => (.done, { w with env := R.uDelay cmd.uiccmdarg2 w.env })
  | .waitIsr =>
      let reg := Reg.io cmd.uiccmdarg1
      let (all, e) := waitForBits R reg cmd.uiccmdarg2 timeout w.env
      (.waited all,
        { w with env := if all then R.writel cmd.uiccmdarg2 reg e else e })
  | .registerSet =>
      let reg := Reg.unipro cmd.uiccmdarg1
      (.done, { w with env := R.writel cmd.uiccmdarg2 reg w.env })
  | .phyPmaComnSet | .phyPmaTrsvSet =>
      let reg := Reg.pma cmd.uiccmdarg1
      (.done, { w with env := R.writel cmd.uiccmdarg2 reg w.env })
  | .phyPmaComnWait | .phyPmaTrsvWait =>
      let reg := Reg.pma cmd.uiccmdarg1
      let (all, e) := waitForBits R reg cmd.uiccmdarg2 timeout w.env
      (.waited all, { w with env := e })
  | .dmeGet | .dmePeerGet | .dmeSet | .dmeLinkStartup | .other =>
      let (res, w) := sendUicCmd u R w
      (.command res, w)

/-- What the commands of a list met, up to a wait that ran out of time. -/
def outcomes : List UfsUicCmd → UicWorld E → List UicOutcome
  | [], _ => []
  | cmd :: cmds, w =>
      if cmd.uiccmdr = 0 then []
      else
        let (o, w) := uniproStep u R cmd w
        o :: if o = .waited false then [] else outcomes cmds w

/-- Every UIC command was accepted and every wait saw all its bits. -/
def ListAccepted (cmds : List UfsUicCmd) (w : UicWorld E) : Prop :=
  ∀ o ∈ outcomes u R cmds w, o.Good

/-- A wait ran out of time. -/
def TimesOut (cmds : List UfsUicCmd) (w : UicWorld E) : Prop :=
  .waited false ∈ outcomes u R cmds w

instance (cmds : List UfsUicCmd) (w : UicWorld E) :
    Decidable (TimesOut u R cmds w) :=
  inferInstanceAs (Decidable (_ ∈ _))

/-- The result of the last UIC command, or `res` without one. -/
def lastResult (res : Int) (os : List UicOutcome) : Int :=
  os.foldl (fun res o => match o with
    | .command r => r
    | _ => res) res

/-- The last UIC command of the list failed. -/
def LastFails (cmds : List UfsUicCmd) (w : UicWorld E) : Prop :=
  lastResult 0 (outcomes u R cmds w) ≠ 0

theorem uniproLoop_cons {cmd : UfsUicCmd} (h : cmd.uiccmdr ≠ 0)
    (cmds : List UfsUicCmd) (res : Int) (w : UicWorld E) :
    uniproLoop u R (cmd :: cmds) res w
      = match uniproStep u R cmd w with
        | (.done, w) => uniproLoop u R cmds res w
        | (.waited true, w) => uniproLoop u R cmds res w
        | (.waited false, w) => (0, w)
        | (.command res, w) => uniproLoop u R cmds res w := by
  rw [uniproLoop, if_neg h]
  unfold uniproStep
  dsimp only
  cases u.op cmd.uiccmdr with
  | waitIsr =>
      dsimp only
      cases (waitForBits R (.io cmd.uiccmdarg1) cmd.uiccmdarg2
          (w.setCmd cmd).ufs.uicCmdTimeout.toNat (w.setCmd cmd).env).1 with
      | true => rfl
      | false => rfl
  | phyPmaComnWait | phyPmaTrsvWait =>
      dsimp only
      cases (waitForBits R (.pma cmd.uiccmdarg1) cmd.uiccmdarg2
          (w.setCmd cmd).ufs.uicCmdTimeout.toNat (w.setCmd cmd).env).1 with
      | true => rfl
      | false => rfl
  | wait | registerSet | phyPmaComnSet | phyPmaTrsvSet | dmeGet | dmePeerGet
  | dmeSet | dmeLinkStartup | other => rfl

/-- The interpreter returns 0 after a timeout, and else what the last UIC
command returned. -/
theorem uniproLoop_result (cmds : List UfsUicCmd) (res : Int)
    (w : UicWorld E) :
    (uniproLoop u R cmds res w).1
      = if .waited false ∈ outcomes u R cmds w then 0
        else lastResult res (outcomes u R cmds w) := by
  induction cmds generalizing res w with
  | nil => rfl
  | cons cmd cmds ih =>
      by_cases hend : cmd.uiccmdr = 0
      · unfold uniproLoop outcomes
        rw [if_pos hend, if_pos hend]
        rfl
      · rw [uniproLoop_cons u R hend]
        unfold outcomes
        rw [if_neg hend]
        generalize uniproStep u R cmd w = r
        obtain ⟨o, w'⟩ := r
        cases o with
        | done => simp [ih, lastResult]
        | command r => simp [ih, lastResult]
        | waited all =>
            cases all with
            | true => simp [ih, lastResult]
            | false => simp

theorem timesOut_not_accepted {cmds : List UfsUicCmd} {w : UicWorld E}
    (h : TimesOut u R cmds w) : ¬ ListAccepted u R cmds w := by
  intro hall
  have hgood : (false : Bool) = true := hall _ h
  cases hgood

theorem uniproSetting_result (cmds : List UfsUicCmd) (w : UicWorld E) :
    (ufsMphyUniproSetting u R (some cmds) w).1
      = if TimesOut u R cmds w then 0
        else lastResult 0 (outcomes u R cmds w) :=
  uniproLoop_result u R cmds 0 w

/-- For every list and all registers: a result of 0 means that the list was
accepted exactly when no wait runs out of time, and if a UIC command
fails the last one does. -/
theorem uniproSetting_sound_iff (cmds : List UfsUicCmd) (w : UicWorld E) :
    ((ufsMphyUniproSetting u R (some cmds) w).1 = 0 →
        ListAccepted u R cmds w)
      ↔ ¬ TimesOut u R cmds w
        ∧ (ListAccepted u R cmds w ∨ LastFails u R cmds w) := by
  have hres := uniproSetting_result u R cmds w
  by_cases htime : TimesOut u R cmds w
  · have hnot := timesOut_not_accepted u R htime
    rw [hres, if_pos htime]
    exact ⟨fun h => absurd (h rfl) hnot, fun h => absurd htime h.1⟩
  · rw [hres, if_neg htime]
    constructor
    · intro h
      refine ⟨htime, ?_⟩
      by_cases hlast : lastResult 0 (outcomes u R cmds w) = 0
      · exact Or.inl (h hlast)
      · exact Or.inr hlast
    · rintro ⟨-, hacc | hlast⟩ hzero
      · exact hacc
      · exact absurd hzero hlast

-- ===================================================== lists without waits

/-- Lists that consist of DME SET commands. -/
def SetsOnly (cmds : List UfsUicCmd) : Prop :=
  ∀ cmd ∈ cmds, cmd.uiccmdr = 0 ∨ cmd.uiccmdr = u.dmeSet

theorem SetsOnly.not_timesOut {cmds : List UfsUicCmd}
    (h : SetsOnly u cmds) (w : UicWorld E) : ¬ TimesOut u R cmds w := by
  unfold TimesOut
  induction cmds generalizing w with
  | nil => exact List.not_mem_nil
  | cons cmd cmds ih =>
      have hrest : SetsOnly u cmds :=
        fun cmd hcmd => h cmd (List.mem_cons_of_mem _ hcmd)
      unfold outcomes
      by_cases hend : cmd.uiccmdr = 0
      · rw [if_pos hend]
        exact List.not_mem_nil
      · have hset : cmd.uiccmdr = u.dmeSet :=
          (h cmd List.mem_cons_self).resolve_left hend
        have hstep : uniproStep u R cmd w
            = (.command (sendUicCmd u R (w.setCmd cmd)).1,
              (sendUicCmd u R (w.setCmd cmd)).2) := by
          unfold uniproStep
          rw [hset, u.op_dmeSet]
        rw [if_neg hend, hstep]
        intro hmem
        rcases List.mem_cons.mp hmem with hcon | hcon
        · cases hcon
        · exact ih hrest _ hcon

/-- Such a list fails when its last command does. -/
theorem SetsOnly.zero_iff {cmds : List UfsUicCmd} (h : SetsOnly u cmds)
    (w : UicWorld E) :
    (ufsMphyUniproSetting u R (some cmds) w).1 = 0
      ↔ ¬ LastFails u R cmds w := by
  rw [uniproSetting_result, if_neg (h.not_timesOut u R w)]
  exact not_not.symm

theorem laneCmds_setsOnly (lanes : U32) : SetsOnly u (laneCmds u lanes) := by
  intro cmd hcmd
  simp only [laneCmds, List.mem_cons, List.not_mem_nil, or_false] at hcmd
  rcases hcmd with rfl | rfl | rfl
  · exact Or.inr rfl
  · exact Or.inr rfl
  · exact Or.inl rfl

theorem pmcCmds_setsOnly (lane : U32) : SetsOnly u (pmcCmds u lane) := by
  intro cmd hcmd
  simp only [pmcCmds, List.mem_cons, List.not_mem_nil, or_false] at hcmd
  rcases hcmd with rfl | rfl | rfl | rfl | rfl | rfl | rfl | rfl
  case inr.inr.inr.inr.inr.inr.inr => exact Or.inl rfl
  all_goals exact Or.inr rfl

-- ============================================================== the lanes

/-- The connected transmit lanes are read, then the receive lanes. -/
def txRead (w : UicWorld E) : Int × U32 × UicWorld E :=
  dmeGetAttr u R 0x1561 w

/-- The second read of `ufs_check_2lane`. -/
def rxRead (w : UicWorld E) : Int × U32 × UicWorld E :=
  dmeGetAttr u R 0x1581 (txRead u R w).2.2

/-- Both lanes are read without an error. -/
def LanesRead (w : UicWorld E) : Prop :=
  (txRead u R w).1 = 0 ∧ (rxRead u R w).1 = 0

/-- `n` lanes are connected in either direction. -/
def Connected (w : UicWorld E) (n : U32) : Prop :=
  (txRead u R w).2.1 = n ∧ (rxRead u R w).2.1 = n

instance (w : UicWorld E) (n : U32) : Decidable (Connected u R w n) :=
  inferInstanceAs (Decidable (_ ∧ _))

/-- The world in which the active lanes are set. -/
def lanesWorld (w : UicWorld E) : UicWorld E :=
  (rxRead u R w).2.2.setConnected (txRead u R w).2.1 (rxRead u R w).2.1

/-- One or two lanes are connected, and `p` holds of their settings. -/
def ForLanes (w : UicWorld E)
    (p : List UfsUicCmd → UicWorld E → Prop) : Prop :=
  ∃ n : U32, (n = 1 ∨ n = 2) ∧ Connected u R w n
    ∧ p (laneCmds u n) (lanesWorld u R w)

theorem Connected.unique {w : UicWorld E} {m n : U32}
    (hm : Connected u R w m) (hn : Connected u R w n) : m = n :=
  hm.1.symm.trans hn.1

/-- The function by its two reads. -/
theorem ufsCheck2lane_eq (w : UicWorld E) :
    ufsCheck2lane u R w
      = if (txRead u R w).1 ≠ 0 then ((txRead u R w).1, (txRead u R w).2.2)
        else if (rxRead u R w).1 ≠ 0 then
          ((rxRead u R w).1, (rxRead u R w).2.2)
        else if Connected u R w 2 then
          let (res, w₂) := ufsMphyUniproSetting u R (some (laneCmds u 2))
            (lanesWorld u R w)
          if res ≠ 0 then (res, w₂)
          else (res, w₂.setLane (txRead u R w).2.1)
        else if Connected u R w 1 then
          let (res, w₁) := ufsMphyUniproSetting u R (some (laneCmds u 1))
            (lanesWorld u R w)
          if res ≠ 0 then (res, w₁)
          else (res,
            (w₁.setQuirks u.ufsQuirkUse1lane).setLane (txRead u R w).2.1)
        else ((rxRead u R w).1,
          (lanesWorld u R w).setLane (txRead u R w).2.1) := rfl

/-- With lanes to set it goes by the result of their settings. -/
theorem Connected.zero_iff {w : UicWorld E} {n : U32}
    (hconn : Connected u R w n) (hn : n = 1 ∨ n = 2) :
    (ufsMphyUniproSetting u R (some (laneCmds u n)) (lanesWorld u R w)).1 = 0
      ↔ ForLanes u R w (fun cmds w => ¬ LastFails u R cmds w)
        ∨ ∀ n, n = 1 ∨ n = 2 → ¬ Connected u R w n := by
  rw [(laneCmds_setsOnly u n).zero_iff u R]
  constructor
  · intro hlast
    exact Or.inl ⟨n, hn, hconn, hlast⟩
  · rintro (⟨m, -, hconn', hlast⟩ | hnone)
    · rw [hconn.unique u R hconn']
      exact hlast
    · exact absurd hconn (hnone n hn)

/-- The function returns 0 when the lanes can be read and the last setting
is accepted, and also when there is none for the lanes. -/
theorem ufsCheck2lane_zero_iff (w : UicWorld E) :
    (ufsCheck2lane u R w).1 = 0
      ↔ LanesRead u R w
        ∧ (ForLanes u R w (fun cmds w => ¬ LastFails u R cmds w)
          ∨ ∀ n, n = 1 ∨ n = 2 → ¬ Connected u R w n) := by
  rw [ufsCheck2lane_eq]
  by_cases htx : (txRead u R w).1 = 0
  · rw [if_neg (not_not.mpr htx)]
    by_cases hrx : (rxRead u R w).1 = 0
    · have hread : LanesRead u R w := ⟨htx, hrx⟩
      rw [if_neg (not_not.mpr hrx), and_iff_right hread]
      by_cases h2 : Connected u R w 2
      · rw [if_pos h2, ← h2.zero_iff u R (Or.inr rfl)]
        dsimp only
        split
        · exact Iff.rfl
        · exact Iff.rfl
      · rw [if_neg h2]
        by_cases h1 : Connected u R w 1
        · rw [if_pos h1, ← h1.zero_iff u R (Or.inl rfl)]
          dsimp only
          split
          · exact Iff.rfl
          · exact Iff.rfl
        · rw [if_neg h1]
          refine ⟨fun _ => Or.inr ?_, fun _ => hrx⟩
          rintro n (rfl | rfl)
          · exact h1
          · exact h2
    · rw [if_pos hrx]
      exact ⟨fun h => absurd h hrx, fun h => absurd h.1.2 hrx⟩
  · rw [if_pos htx]
    exact ⟨fun h => absurd h htx, fun h => absurd h.1.1 htx⟩

/-- A result of 0 means one or two lanes with accepted settings exactly
when the lanes cannot be read, or one or two are connected and their
settings are accepted or the last of them fails. -/
theorem ufsCheck2lane_sound_iff (w : UicWorld E) :
    ((ufsCheck2lane u R w).1 = 0 → ForLanes u R w (ListAccepted u R))
      ↔ ¬ LanesRead u R w ∨ ForLanes u R w (fun cmds w =>
        ListAccepted u R cmds w ∨ LastFails u R cmds w) := by
  rw [ufsCheck2lane_zero_iff]
  by_cases hread : LanesRead u R w
  · rw [and_iff_right hread, or_iff_right (not_not.mpr hread)]
    constructor
    · intro h
      by_cases hnone : ∀ n, n = 1 ∨ n = 2 → ¬ Connected u R w n
      · obtain ⟨n, hn, hconn, hacc⟩ := h (Or.inr hnone)
        exact ⟨n, hn, hconn, Or.inl hacc⟩
      · simp only [not_forall, not_not] at hnone
        obtain ⟨n, hn, hconn⟩ := hnone
        by_cases hlast : LastFails u R (laneCmds u n) (lanesWorld u R w)
        · exact ⟨n, hn, hconn, Or.inr hlast⟩
        · obtain ⟨m, hm, hconn', hacc⟩ := h (Or.inl ⟨n, hn, hconn, hlast⟩)
          exact ⟨m, hm, hconn', Or.inl hacc⟩
    · rintro ⟨n, hn, hconn, hor⟩ hzero
      rcases hzero with ⟨m, -, hconn', hlast⟩ | hnone
      · rw [hconn'.unique u R hconn] at hlast
        exact ⟨n, hn, hconn, hor.resolve_right hlast⟩
      · exact absurd hconn (hnone n hn)
  · exact ⟨fun _ => Or.inl hread, fun _ h => absurd h.1 hread⟩

-- =============================================================== the gear

/-- The world after the settings of `ufs_pmc_common`. -/
def pmcWorld (lane : U32) (w : UicWorld E) : UicWorld E :=
  (ufsMphyUniproSetting u R (some (pmcCmds u lane)) w).2.setCmd (pmcCmd u)

/-- The power mode change is accepted, and the link is in the local power
mode afterwards. -/
def GearChanged (lane : U32) (w : UicWorld E) : Prop :=
  CommandAccepted u R (pmcWorld u R lane w)
    ∧ u.upmcrs (R.readl (.io u.regControllerStatus)
      (sendUicCmd u R (pmcWorld u R lane w)).2.env).1 = u.pwrLocal

theorem ufsPmcCommon_zero_iff (lane : U32) (w : UicWorld E) :
    (ufsPmcCommon u R lane w).1 = 0
      ↔ ¬ LastFails u R (pmcCmds u lane) w ∧ GearChanged u R lane w := by
  have hset := (pmcCmds_setsOnly u lane).zero_iff u R w
  have hcmd := sendUicCmd_zero_iff u R (pmcWorld u R lane w)
  have hdef : ufsPmcCommon u R lane w
      = if (ufsMphyUniproSetting u R (some (pmcCmds u lane)) w).1 ≠ 0 then
          ufsMphyUniproSetting u R (some (pmcCmds u lane)) w
        else if (sendUicCmd u R (pmcWorld u R lane w)).1 ≠ 0 then
          sendUicCmd u R (pmcWorld u R lane w)
        else
          let r := R.readl (.io u.regControllerStatus)
            (sendUicCmd u R (pmcWorld u R lane w)).2.env
          (if u.upmcrs r.1 ≠ u.pwrLocal then u.errGeneric
            else (sendUicCmd u R (pmcWorld u R lane w)).1,
            { (sendUicCmd u R (pmcWorld u R lane w)).2 with env := r.2 }) :=
    rfl
  unfold GearChanged
  rw [hdef, ← hset, ← hcmd]
  by_cases hlist : (ufsMphyUniproSetting u R (some (pmcCmds u lane)) w).1 = 0
  · rw [if_neg (not_not.mpr hlist), and_iff_right hlist]
    by_cases hsend : (sendUicCmd u R (pmcWorld u R lane w)).1 = 0
    · rw [if_neg (not_not.mpr hsend), and_iff_right hsend]
      dsimp only
      split
      next hpwr =>
        exact ⟨fun h => absurd h u.errGeneric_ne, fun h => absurd h hpwr⟩
      next hpwr => exact ⟨fun _ => not_not.mp hpwr, fun _ => hsend⟩
    · rw [if_pos hsend]
      exact ⟨fun h => absurd h hsend, fun h => absurd h.1 hsend⟩
  · rw [if_pos hlist]
    exact ⟨fun h => absurd h hlist, fun h => absurd h.1 hlist⟩

/-- A result of 0 means that all settings and the gear change were accepted
exactly when the settings are, or the last of them fails, or the gear
change does. -/
theorem ufsPmcCommon_sound_iff (lane : U32) (w : UicWorld E) :
    ((ufsPmcCommon u R lane w).1 = 0 →
        ListAccepted u R (pmcCmds u lane) w ∧ GearChanged u R lane w)
      ↔ ListAccepted u R (pmcCmds u lane) w
        ∨ LastFails u R (pmcCmds u lane) w ∨ ¬ GearChanged u R lane w := by
  rw [ufsPmcCommon_zero_iff]
  constructor
  · intro h
    by_contra hnone
    rw [not_or, not_or, not_not] at hnone
    exact hnone.1 (h hnone.2).1
  · rintro (hacc | hlast | hgear) ⟨hnotlast, hchanged⟩
    · exact ⟨hacc, hchanged⟩
    · exact absurd hlast hnotlast
    · exact absurd hchanged hgear

-- ======================================================= the main result

/-- For every command list, lane count and all registers, when a result of
0 of the three functions means what it should. -/
theorem uic_settings_sound_iff (cmds : List UfsUicCmd) (lane : U32)
    (w : UicWorld E) :
    (((ufsMphyUniproSetting u R (some cmds) w).1 = 0 →
        ListAccepted u R cmds w)
      ↔ ¬ TimesOut u R cmds w
        ∧ (ListAccepted u R cmds w ∨ LastFails u R cmds w))
    ∧ (((ufsCheck2lane u R w).1 = 0 → ForLanes u R w (ListAccepted u R))
      ↔ ¬ LanesRead u R w ∨ ForLanes u R w (fun cmds w =>
        ListAccepted u R cmds w ∨ LastFails u R cmds w))
    ∧ (((ufsPmcCommon u R lane w).1 = 0 →
        ListAccepted u R (pmcCmds u lane) w ∧ GearChanged u R lane w)
      ↔ ListAccepted u R (pmcCmds u lane) w
        ∨ LastFails u R (pmcCmds u lane) w ∨ ¬ GearChanged u R lane w) :=
  ⟨uniproSetting_sound_iff u R cmds w, ufsCheck2lane_sound_iff u R w,
    ufsPmcCommon_sound_iff u R lane w⟩

-- ======================================================= one error is lost

/-- Commands by the numbers the source gives them. -/
def sampleDevUic : DevUic sampleDevUfs where
  op := fun cmd =>
    if cmd = 0x01 then .dmeGet
    else if cmd = 0x02 then .dmeSet
    else if cmd = 0x03 then .dmePeerGet
    else if cmd = 0x16 then .dmeLinkStartup
    else if cmd = 0x104 then .phyPmaComnWait
    else .other
  dmeGet := 0x01
  dmeSet := 0x02
  op_dmeGet := rfl
  op_dmeSet := rfl
  dmeSet_ne := by decide
  codes_int := by decide
  uicCommandCompl := 0x400
  uicPowerMode := 0x10
  uicError := 0x4
  regInterruptStatus := 0x20
  regControllerStatus := 0x30
  regUicCommand := 0x90
  regUicCommandArg1 := 0x94
  regUicCommandArg2 := 0x98
  regUicCommandArg3 := 0x9C
  ufsGear := 3
  ufsRate := 2
  ufsRxtxPowerMode := 0x11
  ufsQuirkUse1lane := 1
  upmcrs := fun reg => (reg >>> 8) &&& 7
  pwrLocal := 1
  errGeneric := -1
  errGeneric_ne := by decide

/-- A controller that counts the commands written to it. Command number
`bad` ends in an error; the DME GETs read `tx` first and then `rx`. The PHY
is silent. -/
def countingRegisters (bad : Nat) (tx rx : U32) : Registers Nat where
  readl := fun reg n =>
    (match reg with
      | .io 0x20 => if n = bad then 0x4 else 0x400
      | .io 0x9C => if n = 1 then tx else rx
      | _ => 0, n)
  writel := fun _ reg n =>
    match reg with
    | .io 0x90 => n + 1
    | _ => n
  uDelay := fun _ n => n

/-- A host before its first command. -/
def sampleUicWorld : UicWorld Nat where
  ufs :=
    { uicCmd := ⟨0, 0, 0, 0⟩
      uicCmdTimeout := 2
      connectedTxLane := 0
      connectedRxLane := 0
      quirks := 0
      lane := 0 }
  env := 0

/-- With two lanes connected, the first setting of `ufs_check_2lane` ends in
an error and the second succeeds; with two transmit lanes and one receive
lane there is no setting at all; and a wait for a silent PHY runs out of
time. All three return 0. -/
theorem uic_settings_lost_errors :
    let w := sampleUicWorld
    let fails := countingRegisters 3 2 2
    let mixed := countingRegisters 9 2 1
    let waits : List UfsUicCmd := [⟨0x104, 0x10, 1, 0⟩]
    (ufsCheck2lane sampleDevUic fails w).1 = 0
      ∧ ¬ ForLanes sampleDevUic fails w (ListAccepted sampleDevUic fails)
      ∧ (ufsCheck2lane sampleDevUic mixed w).1 = 0
      ∧ ¬ ForLanes sampleDevUic mixed w (ListAccepted sampleDevUic mixed)
      ∧ (ufsMphyUniproSetting sampleDevUic mixed (some waits) w).1 = 0
      ∧ ¬ ListAccepted sampleDevUic mixed waits w := by
  intro w fails mixed waits
  have hconn : ∀ n, Connected sampleDevUic fails w n → n = 2 := by
    intro n h
    rw [← h.1]
    decide +kernel
  have hmixed : ∀ n, ¬ Connected sampleDevUic mixed w n := by
    intro n h
    have heq := h.1.trans h.2.symm
    exact absurd heq (by decide +kernel)
  have herror : outcomes sampleDevUic fails (laneCmds sampleDevUic 2)
      (lanesWorld sampleDevUic fails w) = [.command (-1), .command 0] := by
    decide +kernel
  have htime : TimesOut sampleDevUic mixed waits w := by
    unfold TimesOut
    decide +kernel
  refine ⟨by decide +kernel, ?_, by decide +kernel, ?_, by decide +kernel,
    timesOut_not_accepted _ _ htime⟩
  · rintro ⟨n, -, hn, hacc⟩
    rw [hconn n hn] at hacc
    unfold ListAccepted at hacc
    rw [herror] at hacc
    have hzero : (-1 : Int) = 0 := hacc _ List.mem_cons_self
    omega
  · rintro ⟨n, -, hn, -⟩
    exact hmixed n hn

end Edk2Exynos.Ufs
