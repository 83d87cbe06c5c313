/-
UIC commands (ufs.c): how one is sent, the interpreter of command lists,
and the two functions that set lanes and gear with it.

# The hardware

`Registers` is whatever the driver talks to: a read may change it, a
write and a delay do, and nothing else is assumed, so a theorem about all
of them covers every behaviour of the controller and of the PHY. A
register is given by its block and its offset. Reads made only to print
an error count as reads; their order is that of the call's arguments.

# Missing headers

`DevUic` supplies the codes and register offsets of `dev/ufs.h`, as far
as they are used here. `UicOp` is how the driver treats a command word;
one that is none of its own is sent as it is.

# The list

A list of commands ends at its first zero command word; the end of the
list stands for that terminator too.
-/
import Edk2Exynos.Lib.Polling
import Edk2Exynos.Ufs.Base

namespace Edk2Exynos.Ufs

open Lib

-- ============================================================= dev/ufs.h

/-- The command words the driver knows. -/
inductive UicOp where
  | wait
  | waitIsr
  | registerSet
  | phyPmaComnSet
  | phyPmaTrsvSet
  | phyPmaComnWait
  | phyPmaTrsvWait
  | dmeGet
  | dmePeerGet
  | dmeSet
  | dmeLinkStartup
  | other
  deriving DecidableEq

/-- What `dev/ufs.h` supplies for UIC commands. -/
structure DevUic (c : DevUfs) where
  op : U32 → UicOp
  dmeGet : U32
  dmeSet : U32
  op_dmeGet : op dmeGet = .dmeGet
  op_dmeSet : op dmeSet = .dmeSet
  dmeSet_ne : dmeSet ≠ 0
  /-- the status codes are of type `int` -/
  codes_int : ∀ code ∈ [c.inProgress, c.error, c.timeout],
    -2 ^ 31 ≤ code ∧ code < 2 ^ 31
  uicCommandCompl : U32
  uicPowerMode : U32
  uicError : U32
  regInterruptStatus : U32
  regControllerStatus : U32
  regUicCommand : U32
  regUicCommandArg1 : U32
  regUicCommandArg2 : U32
  regUicCommandArg3 : U32
  ufsGear : U32
  ufsRate : U32
  ufsRxtxPowerMode : U32
  ufsQuirkUse1lane : U32
  /-- `UPMCRS` -/
  upmcrs : U32 → U32
  pwrLocal : U32
  errGeneric : Int
  errGeneric_ne : errGeneric ≠ 0

/-- `struct ufs_uic_cmd` -/
structure UfsUicCmd where
  uiccmdr : U32
  uiccmdarg1 : U32
  uiccmdarg2 : U32
  uiccmdarg3 : U32

/-- The first argument of a command for an attribute. -/
def uicAttr (attr : U32) : U32 := attr <<< 16

-- ========================================================== the hardware

/-- A register: the block's base address is a field of the host. -/
inductive Reg where
  | io (offset : U32)
  | unipro (offset : U32)
  | pma (offset : U32)

/-- Access to the registers, and the delay. -/
structure Registers (E : Type) where
  readl : Reg → E → U32 × E
  writel : U32 → Reg → E → E
  uDelay : U32 → E → E

/-- What the functions here use of `struct ufs_host`. -/
structure UicHost where
  uicCmd : UfsUicCmd
  uicCmdTimeout : U32
  connectedTxLane : U32
  connectedRxLane : U32
  quirks : U32
  /-- `pmd_cxt.lane` -/
  lane : U32

/-- The host's structure and what is behind the registers. -/
structure UicWorld (E : Type) where
  ufs : UicHost
  env : E

section

variable {E : Type} {c : DevUfs} (u : DevUic c) (R : Registers E)

/-- The host with another command. -/
def UicWorld.setCmd (cmd : UfsUicCmd) (w : UicWorld E) : UicWorld E :=
  { w with ufs := { w.ufs with uicCmd := cmd } }

-- =========================================================== one command

/-- `handle_ufs_uic_int` -/
def handleUfsUicInt (cmd : UfsUicCmd) (intrStat : U32) : Int :=
  let ret :=
    if intrStat &&& u.uicCommandCompl ≠ 0 then
      match u.op cmd.uiccmdr with
      | .dmeLinkStartup => c.noError
      | .dmeSet =>
          -- gear change
          if cmd.uiccmdarg1 = uicAttr 0x1571 then
            if intrStat &&& u.uicPowerMode ≠ 0 then c.noError
            else c.inProgress
          else c.noError
      | _ => c.noError
    else c.inProgress
  if intrStat &&& u.uicError ≠ 0 ∧ u.op cmd.uiccmdr ≠ .dmeLinkStartup then
    c.error
  else ret

/-- `handle_ufs_int` for a UIC command, but for the timeout. -/
def handleUicInt (cmd : UfsUicCmd) (intrStat : U32) : Option Int :=
  let ret := handleUfsUicInt u cmd intrStat
  let ret := if intrStat &&& c.intFatalErrors ≠ 0 then c.error else ret
  if ret = c.inProgress then none else some ret

/-- The polling loop of `send_uic_cmd`. -/
def pollUicInt (cmd : UfsUicCmd) (timeout : Nat) (e : E) : Int × E :=
  let (ret, e) := pollWith (R.readl (.io u.regInterruptStatus)) (R.uDelay 1)
    (handleUicInt u cmd) timeout e
  (ret.getD c.timeout, e)

/-- What `send_uic_cmd` prints after an error. -/
def printUicError (e : E) : E :=
  let (_, e) := R.readl (.io u.regUicCommand) e
  let (_, e) := R.readl (.io u.regUicCommandArg1) e
  let (_, e) := R.readl (.io u.regUicCommandArg2) e
  let (_, e) := R.readl (.io u.regUicCommandArg3) e
  e

/-- `send_uic_cmd`, up to the reading of the error code. -/
def issueUicCmd (w : UicWorld E) : Int × U32 × E :=
  let cmd := w.ufs.uicCmd
  let e := R.writel cmd.uiccmdarg1 (.io u.regUicCommandArg1) w.env
  let e := R.writel cmd.uiccmdarg2 (.io u.regUicCommandArg2) e
  let e := R.writel cmd.uiccmdarg3 (.io u.regUicCommandArg3) e
  let e := R.writel cmd.uiccmdr (.io u.regUicCommand) e
  let (err, e) := pollUicInt u R cmd w.ufs.uicCmdTimeout.toNat e
  let (stat, e) := R.readl (.io u.regInterruptStatus) e
  let e := R.writel stat (.io u.regInterruptStatus) e
  let (errorCode, e) := R.readl (.io u.regUicCommandArg2) e
  (err, errorCode, e)

/-- `send_uic_cmd` -/
def sendUicCmd (w : UicWorld E) : Int × UicWorld E :=
  let cmd := w.ufs.uicCmd
  let (err, errorCode, e) := issueUicCmd u R w
  let e := if err ≠ 0 ∨ errorCode ≠ 0 then printUicError u R e else e
  let (cmd, e) :=
    match u.op cmd.uiccmdr with
    | .dmeGet | .dmePeerGet =>
        let (arg3, e) := R.readl (.io u.regUicCommandArg3) e
        ({ cmd with uiccmdarg3 := arg3 }, e)
    | _ => (cmd, e)
  ((errorCode ||| BitVec.ofInt 32 err).toInt,
    { ufs := { w.ufs with uicCmd := cmd }, env := e })

-- ============================================================== the list

/-- The wait for all bits of `mask`: whether it saw them in time. -/
def waitForBits (reg : Reg) (mask : U32) (timeout : Nat) (e : E) :
    Bool × E :=
  let (ret, e) := pollWith (R.readl reg) (R.uDelay 1)
    (fun v => if v &&& mask = mask then some () else none) timeout e
  (ret.isSome, e)

/-- The loop of `ufs_mphy_unipro_setting`; a wait that runs out of time
leaves it with 0. -/
def uniproLoop : List UfsUicCmd → Int → UicWorld E → Int × UicWorld E
  | [], res, w => (res, w)
  | cmd :: cmds, res, w =>
      if cmd.uiccmdr = 0 then (res, w)
      else
        let w := w.setCmd cmd
        let timeout := w.ufs.uicCmdTimeout.toNat
        match u.op cmd.uiccmdr with
        | .wait =>
            uniproLoop cmds res
              { w with env := R.uDelay cmd.uiccmdarg2 w.env }
        | .waitIsr =>
            let reg := Reg.io cmd.uiccmdarg1
            let (all, e) := waitForBits R reg cmd.uiccmdarg2 timeout w.env
            if all then
              uniproLoop cmds res
                { w with env := R.writel cmd.uiccmdarg2 reg e }
            else (0, { w with env := e })
        | .registerSet =>
            let reg := Reg.unipro cmd.uiccmdarg1
            uniproLoop cmds res
              { w with env := R.writel cmd.uiccmdarg2 reg w.env }
        | .phyPmaComnSet | .phyPmaTrsvSet =>
            let reg := Reg.pma cmd.uiccmdarg1
            uniproLoop cmds res
              { w with env := R.writel cmd.uiccmdarg2 reg w.env }
        | .phyPmaComnWait | .phyPmaTrsvWait =>
            let reg := Reg.pma cmd.uiccmdarg1
            let (all, e) := waitForBits R reg cmd.uiccmdarg2 timeout w.env
            if all then uniproLoop cmds res { w with env := e }
            else (0, { w with env := e })
        | .dmeGet | .dmePeerGet | .dmeSet | .dmeLinkStartup | .other =>
            let (res, w) := sendUicCmd u R w
            uniproLoop cmds res w

/-- `ufs_mphy_unipro_setting` -/
def ufsMphyUniproSetting (uicCmdList : Option (List UfsUicCmd))
    (w : UicWorld E) : Int × UicWorld E :=
  match uicCmdList with
  | none => (0, w)
  | some cmds => uniproLoop u R cmds 0 w

-- ========================================================= lanes and gear

/-- A DME GET of an attribute: the result and the value read. -/
def dmeGetAttr (attr : U32) (w : UicWorld E) : Int × U32 × UicWorld E :=
  let (res, w) := sendUicCmd u R (w.setCmd ⟨u.dmeGet, uicAttr attr, 0, 0⟩)
  (res, w.ufs.uicCmd.uiccmdarg3, w)

/-- The two commands that activate `lanes` lanes. -/
def laneCmds (lanes : U32) : List UfsUicCmd :=
  [⟨u.dmeSet, uicAttr 0x1560, 0, lanes⟩,
    ⟨u.dmeSet, uicAttr 0x1580, 0, lanes⟩, ⟨0, 0, 0, 0⟩]

/-- `p->connected_tx_lane = tx` and its twin. -/
def UicWorld.setConnected (tx rx : U32) (w : UicWorld E) : UicWorld E :=
  { w with ufs :=
    { w.ufs with connectedTxLane := tx, connectedRxLane := rx } }

/-- The host with another lane. -/
def UicWorld.setLane (lane : U32) (w : UicWorld E) : UicWorld E :=
  { w with ufs := { w.ufs with lane := lane } }

/-- The host with other quirks. -/
def UicWorld.setQuirks (quirks : U32) (w : UicWorld E) : UicWorld E :=
  { w with ufs := { w.ufs with quirks := quirks } }

/-- `ufs_check_2lane` -/
def ufsCheck2lane (w : UicWorld E) : Int × UicWorld E :=
  let (res, tx, w) := dmeGetAttr u R 0x1561 w
  if res ≠ 0 then (res, w)
  else
    let (res, rx, w) := dmeGetAttr u R 0x1581 w
    if res ≠ 0 then (res, w)
    else
      let w := w.setConnected tx rx
      if tx = 2 ∧ rx = 2 then
        let (res, w) := ufsMphyUniproSetting u R (some (laneCmds u 2)) w
        if res ≠ 0 then (res, w) else (res, w.setLane tx)
      else if tx = 1 ∧ rx = 1 then
        let (res, w) := ufsMphyUniproSetting u R (some (laneCmds u 1)) w
        if res ≠ 0 then (res, w)
        else (res, (w.setQuirks u.ufsQuirkUse1lane).setLane tx)
      else (res, w.setLane tx)

/-- The settings of `ufs_pmc_common`. -/
def pmcCmds (lane : U32) : List UfsUicCmd :=
  [⟨u.dmeSet, uicAttr 0x1583, 0, u.ufsGear⟩,
    ⟨u.dmeSet, uicAttr 0x1568, 0, u.ufsGear⟩,
    ⟨u.dmeSet, uicAttr 0x1580, 0, lane⟩,
    ⟨u.dmeSet, uicAttr 0x1560, 0, lane⟩,
    ⟨u.dmeSet, uicAttr 0x1584, 0, 1⟩,
    ⟨u.dmeSet, uicAttr 0x1569, 0, 1⟩,
    ⟨u.dmeSet, uicAttr 0x156a, 0, u.ufsRate⟩, ⟨0, 0, 0, 0⟩]

/-- The actual power mode change. -/
def pmcCmd : UfsUicCmd := ⟨u.dmeSet, uicAttr 0x1571, 0, u.ufsRxtxPowerMode⟩

/-- `ufs_pmc_common` -/
def ufsPmcCommon (lane : U32) (w : UicWorld E) : Int × UicWorld E :=
  let (res, w) := ufsMphyUniproSetting u R (some (pmcCmds u lane)) w
  if res ≠ 0 then (res, w)
  else
    let (res, w) := sendUicCmd u R (w.setCmd (pmcCmd u))
    if res ≠ 0 then (res, w)
    else
      let (reg, e) := R.readl (.io u.regControllerStatus) w.env
      (if u.upmcrs reg ≠ u.pwrLocal then u.errGeneric else res,
        { w with env := e })

end

end Edk2Exynos.Ufs
