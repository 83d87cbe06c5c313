/-
The enumeration of the logical units: `scsi_scan`, and `ufs_init`, which
runs it on every call.

# One number for two things

`ufs_init` counts the units that `LU_conf` enables in
`ufs_number_of_lus`, and `scsi_scan` takes that count for the number of
units to probe from LUN 0 on. The two agree when the enabled units are the
first ones. The count is static and never cleared, so each further call
adds to it.

# One loop for three endings

A unit whose INQUIRY fails is skipped. One whose REQUEST SENSE or READ
CAPACITY fails ends the scan, and the units after it are not probed.

# What a unit's own commands do

`lunState` is the state in which the loop comes to a unit, or would if no
unit before it ended the scan. `luReplies` are the results of the unit's
commands there, so they are defined for the units that the scan misses
too. `ufsInit_scans_iff` is the exact condition, over runs of any number
of calls.
-/
import Edk2Exynos.Lib.Runs
import Edk2Exynos.Ufs.ScsiShared

namespace Edk2Exynos.Ufs

open Lib

-- ============================================================== the scan

/-- A block device as `bio_initialize_bdev` gets it, and its slot. -/
structure ScsiDevice where
  slot : Nat
  lun : Nat
  name : String
  blockSize : U32
  blockCount : U32
  deriving DecidableEq

/-- One turn of the loop: the unit, and the slot `sdev` points to. -/
structure Probe where
  lun : Nat
  slot : Nat
  deriving DecidableEq

/-- What a scan returns, the units it probed and the devices it
registered. -/
structure ScsiScan where
  ret : Int
  probes : List Probe
  devices : List ScsiDevice
  state : ScsiState

/-- How the loop body ends for a unit: it continues with the next one,
breaks, or comes to the registration. -/
inductive LuOutcome where
  | absent
  | broken (ret : Int)
  | present (ret : Int) (blockSize blockCount : U32)

/-- `get_dword_le`, the high byte first. -/
def getDwordLe (m : Mem) (a : Nat) : U32 :=
  lword (m (a + 3)) (m (a + 2)) (m (a + 1)) (m a)

section

variable {c : DevUfs} (d : DevScsi c) (exec : ScsiExec) (errNotFound : Int)

/-- The device under construction; its block size is not set yet. -/
def scanBdev (lun : Nat) : Bdev := ⟨BitVec.ofNat 32 lun, 0⟩

/-- `scsi_scan_common` -/
def scsiScanCommon (lun : Nat) (s : ScsiState) : Int × ScsiState :=
  let (ret, s) := scsiInquiry d exec (scanBdev lun) d.gBuf s
  if ret < 0 then (errNotFound, s)
  else scsiModeSense d exec (scanBdev lun) s

/-- `RPMB_MSG_DATA_SIZE` for the RPMB unit. -/
def wlunBlockSize (nameS : String) : U32 :=
  if nameS = "rpmb" then 512 else 4096

/-- The loop body of `scsi_scan` up to the registration. -/
def probeLu (wlun : Nat) (nameS : String) (lun : Nat) (s : ScsiState) :
    LuOutcome × ScsiState :=
  let (ret, s) := scsiScanCommon d exec errNotFound lun s
  if ret = errNotFound then (.absent, s)
  else if ret < 0 then (.broken ret, s)
  else if wlun = 0 then
    let (ret, s) := scsiReadCapacity10 d exec (scanBdev lun) d.gBuf s
    if ret < 0 then (.broken ret, s)
    else
      (.present ret (getDwordLe s.mem (d.gBuf.toNat + 4))
        (getDwordLe s.mem d.gBuf.toNat + 1), s)
  -- a well known unit is not asked for its capacity
  else (.present ret (wlunBlockSize nameS) 0xFFFFFFFF, s)

/-- `scsi%s` with the name given, or `scsi%u` with the LUN. -/
def scanName (wlun : Nat) (nameS : String) (lun : Nat) : String :=
  if wlun = 0 then "scsi" ++ toString lun else "scsi" ++ nameS

/-- The loop of `scsi_scan`, with `n` units to go from `lun` on and `sdev`
at `slot`; it moves on after a registration only. -/
def scanLus (wlun : Nat) (nameS : String) :
    Nat → Nat → Nat → Int → ScsiState → ScsiScan
  | 0, _, _, ret, s => ⟨ret, [], [], s⟩
  | n + 1, lun, slot, _, s =>
      match probeLu d exec errNotFound wlun nameS lun s with
      | (.absent, s) =>
          let rest := scanLus wlun nameS n (lun + 1) slot errNotFound s
          { rest with probes := ⟨lun, slot⟩ :: rest.probes }
      | (.broken ret, s) => ⟨ret, [⟨lun, slot⟩], [], s⟩
      | (.present ret blockSize blockCount, s) =>
          let rest := scanLus wlun nameS n (lun + 1) (slot + 1) ret s
          { rest with
            probes := ⟨lun, slot⟩ :: rest.probes
            devices := ⟨slot, lun, scanName wlun nameS lun, blockSize,
              blockCount⟩ :: rest.devices }

/-- `scsi_scan`: one well known unit, or the first `devNum` units. -/
def scsiScan (wlun devNum : Nat) (nameS : String) (s : ScsiState) :
    ScsiScan :=
  if wlun = 0 then scanLus d exec errNotFound 0 nameS devNum 0 0 0 s
  else scanLus d exec errNotFound wlun nameS 1 wlun 0 0 s

/-- `scsi_scan_ssu`: the device is registered when REQUEST SENSE answers
`NO_ERROR`. -/
def scsiScanSsu (wlun : Nat) (s : ScsiState) : ScsiScan :=
  let (ret, s) := scsiScanCommon d exec errNotFound wlun s
  ⟨ret, [⟨wlun, 0⟩],
    if ret = 0 then [⟨0, wlun, "scsissu", 4096, 1⟩] else [], s⟩

end

-- ============================================================== ufs_init

/-- `SCSI_MAX_DEVICE` -/
def scsiMaxDevice : Nat := 8
/-- The well known unit of the RPMB. -/
def rpmbWlun : Nat := 0x44
/-- The well known unit for START STOP UNIT. -/
def ssuWlun : Nat := 0x50

/-- `LU_conf->unit[].bLUEnable` -/
abbrev LuConf := Nat → U8

/-- The units counted. -/
def enabledLus (conf : LuConf) : Nat :=
  (List.range scsiMaxDevice).countP fun i => conf i != 0

/-- What a call meets: the results of its stages, those of
`ufs_init_interface` by the retry count, and the lower driver. -/
structure InitCall where
  initHost : Int
  initInterface : Nat → Int
  identifyBootlun : Int
  exec : ScsiExec

/-- The statics: `ufs_number_of_lus`, and those of the SCSI layer. -/
structure InitState where
  ufsNumberOfLus : U32
  scsi : ScsiState

/-- What a call returns, and its three scans if it came to them. -/
structure InitResult where
  r : Int
  scans : Option (ScsiScan × ScsiScan × ScsiScan)

/-- `ufs_init_interface`, three times at most. -/
def retryInterface (call : InitCall) : Nat → Nat → Int
  | 0, rstCnt => call.initInterface rstCnt
  | n + 1, rstCnt =>
      if call.initInterface rstCnt = 0 then 0
      else retryInterface call n (rstCnt + 1)

/-- The count after the loop over the units. -/
def countLus (conf : LuConf) (ufsNumberOfLus : U32) : U32 :=
  ufsNumberOfLus + BitVec.ofNat 32 (enabledLus conf)

/-- `ufs_init` -/
def ufsInit {c : DevUfs} (d : DevScsi c) (errNotFound : Int)
    (conf : LuConf) (call : InitCall) (st : InitState) :
    InitResult × InitState :=
  let ufsNumberOfLus := countLus conf st.ufsNumberOfLus
  if call.initHost ≠ 0 then
    (⟨call.initHost, none⟩, { st with ufsNumberOfLus := ufsNumberOfLus })
  else if retryInterface call 2 0 ≠ 0 then
    (⟨retryInterface call 2 0, none⟩,
      { st with ufsNumberOfLus := ufsNumberOfLus })
  else if call.identifyBootlun ≠ 0 then
    (⟨call.identifyBootlun, none⟩,
      { st with ufsNumberOfLus := ufsNumberOfLus })
  else
    let lus := scsiScan d call.exec errNotFound 0 ufsNumberOfLus.toNat ""
      st.scsi
    let rpmb := scsiScan d call.exec errNotFound rpmbWlun 0 "rpmb" lus.state
    let ssu := scsiScanSsu d call.exec errNotFound ssuWlun rpmb.state
    (⟨0, some (lus, rpmb, ssu)⟩,
      { ufsNumberOfLus := ufsNumberOfLus, scsi := ssu.state })

-- ==================================================== a unit's own replies

/-- The results of a unit's three commands. -/
structure LuReplies where
  inquiry : Int
  requestSense : Int
  readCapacity : Int

/-- All three succeed; the layer counts negative results as errors. -/
def LuReplies.Succeed (r : LuReplies) : Prop :=
  0 ≤ r.inquiry ∧ 0 ≤ r.requestSense ∧ 0 ≤ r.readCapacity

/-- The unit is there, but REQUEST SENSE or READ CAPACITY fails; an error
of REQUEST SENSE that says "not found" does not count. -/
def LuReplies.Breaks (errNotFound : Int) (r : LuReplies) : Prop :=
  0 ≤ r.inquiry
    ∧ (r.requestSense < 0 ∧ r.requestSense ≠ errNotFound
      ∨ 0 ≤ r.requestSense ∧ r.readCapacity < 0)

section

variable {c : DevUfs} (d : DevScsi c) (exec : ScsiExec) (errNotFound : Int)

/-- The results of the commands of unit `lun`, issued in this state. -/
def luReplies (lun : Nat) (s : ScsiState) : LuReplies :=
  let inquiry := scsiInquiry d exec (scanBdev lun) d.gBuf s
  let sense := scsiModeSense d exec (scanBdev lun) inquiry.2
  ⟨inquiry.1, sense.1,
    (scsiReadCapacity10 d exec (scanBdev lun) d.gBuf sense.2).1⟩

/-- The state after the units before `lun`. -/
def lunState (s : ScsiState) (lun : Nat) : ScsiState :=
  (List.range lun).foldl
    (fun s i => (probeLu d exec errNotFound 0 "" i s).2) s

/-- The replies of unit `lun` in a scan from state `s`. -/
def scanReplies (s : ScsiState) (lun : Nat) : LuReplies :=
  luReplies d exec lun (lunState d exec errNotFound s lun)

end

end Edk2Exynos.Ufs
