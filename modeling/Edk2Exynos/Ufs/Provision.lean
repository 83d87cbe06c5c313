/-
Provisioning of the logical units (ufs.c): the configuration the device
reports is compared with the wanted one, `LU_conf`, and rewritten, up to
three times, until the comparison passes.

# Queries

A `Query` runs one query against the host and whatever the host talks to:
it returns the code and the world after it, with what it read in the
host's caches. Provisioning is a function of it, so its theorems hold for
every device, every sequence of failures and every lost answer. A query
that runs into a null pointer has no outcome and is not among them.

# What is left out

The texts printed on the way. In particular the comparison of the headers
does nothing but print, and has no trace here.
-/
import Edk2Exynos.Ufs.Base
import Mathlib.Data.BitVec

namespace Edk2Exynos.Ufs

open Lib

-- ============================================================= the world

/-- The host, and all it does not see. -/
structure World (E : Type) where
  ufs : UfsHost
  env : E

/-- `ufs_utp_query_process`, as a parameter. -/
abbrev Query (E : Type) := QueryIndex → U32 → World E → Int × World E

variable {E : Type}

/-- `ufs->lun = lun` -/
def World.setLun (lun : U32) (w : World E) : World E :=
  { w with ufs := { w.ufs with lun := lun } }

/-- `ufs->attributes.arry[UPIU_ATTR_ID_BOOTLUNEN] = enable` -/
def World.setBootLunEn (enable : U32) (w : World E) : World E :=
  let attributes := Function.update w.ufs.attributes .bootlunen enable
  { w with ufs := { w.ufs with attributes := attributes } }

@[simp] theorem World.setBootLunEn_bootlunen (enable : U32)
    (w : World E) :
    (w.setBootLunEn enable).ufs.attributes .bootlunen = enable := by
  simp [World.setBootLunEn]

/-- The host with another configuration descriptor. -/
def World.setConfigDesc (desc : UfsConfigDesc) (w : World E) : World E :=
  { w with ufs := { w.ufs with configDesc := desc } }

-- ============================================================ capacities

/-- The sectors of one allocation unit. -/
def allocUnitSize (geometry : UfsGeometryDesc) : U32 :=
  geometry.bAllocationUnitSize.setWidth 32 * swab32 geometry.dSegmentSize

/-- What all units are to share. -/
def totalUnits (geometry : UfsGeometryDesc) : U32 :=
  swab32 geometry.qTotalRawDeviceCapacityL / swab32 geometry.dSegmentSize

/-- The sectors of a capacity in MiB. -/
def capacitySectors (capacity : U32) : U32 := 2048 * capacity

/-- Those of a boot unit, scaled by the adjustment factor, which is read
in the device's byte order. -/
def bootSectors (geometry : UfsGeometryDesc) (capacity : U32) : U32 :=
  2048 * capacity * geometry.wEnhanced1CapAdjFac.setWidth 32

/-- The sum over all units of a configuration. -/
def sumUnits (desc : UfsConfigDesc) : U32 :=
  ∑ i, swab32 (desc.unit i).dNumAllocUnits

/-- The descriptor with another unit. -/
def UfsConfigDesc.setUnit (lun : Fin 8) (unit : UfsUnitDescParam)
    (desc : UfsConfigDesc) : UfsConfigDesc :=
  { desc with unit := Function.update desc.unit lun unit }

-- ============================================================== the edit

/-- The `dNumAllocUnits` that `ufs_edit_config_desc` writes, in the byte
order of the device; in `desc` the unit counts as empty. -/
def editAllocUnits (geometry : UfsGeometryDesc) (desc : UfsConfigDesc)
    (enable bootlun capacity : U32) : U32 :=
  if capacity ≠ 0 then
    if bootlun ≠ 0 then
      swab32 (bootSectors geometry capacity / allocUnitSize geometry)
    else
      let units := swab32 (capacitySectors capacity
        / allocUnitSize geometry)
      if capacitySectors capacity % allocUnitSize geometry ≠ 0 then
        -- the increment is made in the byte order of the device
        units + swab32 1
      else units
  else if enable ≠ 0 then swab32 (totalUnits geometry - sumUnits desc)
  else 0

/-- The unit that it assigns, with `units` for its size. -/
def editUnitParam (luConf : UfsConfigDesc) (lun : Fin 8)
    (enable bootlun writeprotect type units : U32) : UfsUnitDescParam where
  bLUEnable := enable.setWidth 8
  bBootLunID := bootlun.setWidth 8
  bLUWriteProtect := writeprotect.setWidth 8
  bMemoryType := type.setWidth 8
  dNumAllocUnits := units
  bDataReliability := (luConf.unit lun).bDataReliability
  bLogicalBlockSize := (luConf.unit lun).bLogicalBlockSize
  bProvisioningType := (luConf.unit lun).bProvisioningType
  wContextCapabilities := (luConf.unit lun).wContextCapabilities

/-- The configuration after the assignments of `ufs_edit_config_desc`. -/
def editConfigDesc (luConf : UfsConfigDesc) (geometry : UfsGeometryDesc)
    (lun : Fin 8) (enable bootlun writeprotect type capacity : U32)
    (desc : UfsConfigDesc) : UfsConfigDesc :=
  let unit := editUnitParam luConf lun enable bootlun writeprotect type
  let units := editAllocUnits geometry (desc.setUnit lun (unit 0)) enable
    bootlun capacity
  { desc.setUnit lun (unit units) with header := luConf.header }

/-- `ufs_edit_config_desc`, for the LUNs it is called with: its guard only
stops LUNs with bit 7 set. -/
def ufsEditConfigDesc (query : Query E) (luConf : UfsConfigDesc)
    (lun : Fin 8) (enable bootlun writeprotect type capacity : U32)
    (w : World E) : World E :=
  let w := w.setLun 0
  let (res, w) := query .descRDeviceDesc 1 w
  if res ≠ 0 then w
  else
    let (res, w) := query .descRGeometryDesc 1 w
    if res ≠ 0 then w
    else
      w.setConfigDesc (editConfigDesc luConf w.ufs.geometryDesc lun enable
        bootlun writeprotect type capacity w.ufs.configDesc)

-- ============================================================= the check

/-- The capacity test of `ufs_check_config_desc`, `sum` being the sum over
the units from this one up. For a unit without a capacity it accepts
whatever is not the rest. -/
def checkAllocUnits (geometry : UfsGeometryDesc)
    (conf unit : UfsUnitDescParam) (sum : U32) : Bool :=
  if conf.dNumAllocUnits = 0 then
    swab32 (totalUnits geometry - sum) != unit.dNumAllocUnits
  else if conf.bMemoryType > 0 then
    swab32 (bootSectors geometry conf.dNumAllocUnits
      / allocUnitSize geometry) == unit.dNumAllocUnits
  else
    let sectors := capacitySectors conf.dNumAllocUnits
    if sectors % allocUnitSize geometry ≠ 0 then
      sectors / allocUnitSize geometry + 1 == swab32 unit.dNumAllocUnits
    else sectors / allocUnitSize geometry == swab32 unit.dNumAllocUnits

/-- One turn of the loop of `ufs_check_config_desc`. -/
def checkUnit (geometry : UfsGeometryDesc) (conf unit : UfsUnitDescParam)
    (sum : U32) : Bool :=
  conf.bLUEnable == unit.bLUEnable
    && conf.bBootLunID == unit.bBootLunID
    && conf.bLUWriteProtect == unit.bLUWriteProtect
    && conf.bMemoryType == unit.bMemoryType
    && checkAllocUnits geometry conf unit sum
    && conf.bDataReliability == unit.bDataReliability
    && conf.bLogicalBlockSize == unit.bLogicalBlockSize
    && conf.bProvisioningType == unit.bProvisioningType
    && conf.wContextCapabilities == unit.wContextCapabilities

/-- The loop over the units below `n`, downwards. -/
def checkUnits (geometry : UfsGeometryDesc) (luConf desc : UfsConfigDesc) :
    (n : Nat) → n ≤ 8 → U32 → Bool
  | 0, _, _ => true
  | n + 1, hn, sum =>
      let lun : Fin 8 := ⟨n, hn⟩
      let sum := sum + swab32 (desc.unit lun).dNumAllocUnits
      checkUnit geometry (luConf.unit lun) (desc.unit lun) sum
        && checkUnits geometry luConf desc n (Nat.le_of_succ_le hn) sum

/-- What is compared after the queries. -/
def checkHost (luConf : UfsConfigDesc) (ufs : UfsHost) : Bool :=
  checkUnits ufs.geometryDesc luConf ufs.configDesc 8 (Nat.le_refl 8) 0
    && ufs.attributes .bootlunen != 0

/-- `ufs_check_config_desc` -/
def ufsCheckConfigDesc (codes : ProvisionCodes) (query : Query E)
    (luConf : UfsConfigDesc) (w : World E) : Int × World E :=
  let w := w.setLun 0
  let (res, w) := query .descRDeviceDesc 0 w
  if res ≠ 0 then (0, w)
  else
    let (res, w) := query .descRGeometryDesc 0 w
    if res ≠ 0 then (0, w)
    else
      let (res, w) := query .descRConfigDesc 0 w
      if res ≠ 0 then (0, w)
      else
        let (res, w) := query .attrRBootlunen 0 w
        if res ≠ 0 then (0, w)
        else if checkHost luConf w.ufs then (codes.retSuccess, w)
        else (codes.retFailure, w)

-- ====================================================== the provisioning

/-- `print_ufs_information`, of which only the queries matter. -/
def printUfsInformation (query : Query E) (w : World E) : World E :=
  let (res, w) := query .descRGeometryDesc 1 w
  if res ≠ 0 then w
  else
    let (res, w) := query .descRDeviceDesc 1 w
    if res ≠ 0 then w
    else (query .descRConfigDesc 1 w).2

/-- The loop over the units below `n`, downwards; true when it leaves for
`fail`. -/
def editUnits (query : Query E) (luConf : UfsConfigDesc) (ret : Int) :
    (n : Nat) → n ≤ 8 → World E → Bool × World E
  | 0, _, w => (false, w)
  | n + 1, hn, w =>
      let lun : Fin 8 := ⟨n, hn⟩
      let conf := luConf.unit lun
      let w := ufsEditConfigDesc query luConf lun
        (conf.bLUEnable.setWidth 32) (conf.bBootLunID.setWidth 32)
        (conf.bLUWriteProtect.setWidth 32) (conf.bMemoryType.setWidth 32)
        conf.dNumAllocUnits w
      if ret = 2 then (true, w)
      else editUnits query luConf ret n (Nat.le_of_succ_le hn) w

/-- `ret` is 0 throughout the edits, so they never leave for `fail`. -/
theorem editUnits_fst {query : Query E} {luConf : UfsConfigDesc} (n : Nat)
    (hn : n ≤ 8) (w : World E) :
    (editUnits query luConf 0 n hn w).1 = false := by
  induction n generalizing w with
  | zero => rfl
  | succ n ih =>
      unfold editUnits
      have hret : ¬ (0 : Int) = 2 := by decide
      simp only [if_neg hret]
      exact ih _ _

/-- The body of the loop of `ufs_set_configuration_descriptor`: whether it
leaves for `fail`, and `ret`. -/
def provisionAttempt (query : Query E) (luConf : UfsConfigDesc)
    (w : World E) : Bool × Int × World E :=
  let ret := 0
  let (fail, w) := editUnits query luConf ret 8 (Nat.le_refl 8) w
  if fail then (true, ret, w)
  else
    let (ret, w) := query .descWConfigDesc 0 w
    if ret ≠ 0 then (false, ret, w)
    else
      let w := w.setBootLunEn 1
      let (ret, w) := query .attrWBootlunen 0 w
      (false, ret, w)

theorem provisionAttempt_fst (query : Query E) (luConf : UfsConfigDesc)
    (w : World E) :
    (provisionAttempt query luConf w).1 = false := by
  unfold provisionAttempt
  simp only [editUnits_fst]
  split
  · contradiction
  · split
    · rfl
    · rfl

/-- A run of `ufs_set_configuration_descriptor`; `lastCheck` is what the
last check returned, and `fail` says that it left through `fail`. -/
structure ConfigRun (E : Type) where
  fail : Bool
  ret : Int
  retry : Nat
  lastCheck : Int
  world : World E

/-- The loop, with `left = retry_count - retry`. -/
def provisionLoop (codes : ProvisionCodes) (query : Query E)
    (luConf : UfsConfigDesc) : Nat → Nat → Int → World E → ConfigRun E
  | left, retry, ret, w =>
      let (res, w) := ufsCheckConfigDesc codes query luConf w
      if res ≠ codes.retFailure then ⟨false, ret, retry, res, w⟩
      else
        match left with
        | 0 => ⟨false, ret, retry, res, printUfsInformation query w⟩
        | left + 1 =>
            match provisionAttempt query luConf w with
            | (true, ret, w) => ⟨true, ret, retry + 1, res, w⟩
            | (false, ret, w) =>
                provisionLoop codes query luConf left (retry + 1) ret w

/-- `ufs_set_configuration_descriptor` -/
def ufsSetConfigurationDescriptor (codes : ProvisionCodes)
    (query : Query E) (luConf : UfsConfigDesc) (w : World E) :
    ConfigRun E :=
  let r := provisionLoop codes query luConf 3 0 0 w
  if r.fail then r
  else if r.retry ≠ 0 then { r with ret := 1 }
  else r

-- ========================================================== a small case

/-- 256 segments of 4096 sectors, which are the allocation units. -/
def smallGeometry : UfsGeometryDesc :=
  ⟨swab32 0x100000, swab32 0x1000, 1, 3⟩

/-- A layout whose only unit has 64 MiB. -/
def oneUnitConf : UfsConfigDesc where
  header := ⟨0x90, 1, 0, 1, 0, 1, 0x7F, 0, 0, 0⟩
  unit := Function.update (fun _ => ⟨0, 0, 0, 0, 0, 0, 0, 0, 0⟩) 0
    ⟨1, 0, 0, 0, 64, 0, 0x0C, 3, 0⟩

/-- Unit 1 has 64 MiB, unit 0 the rest. -/
def userUnitConf : UfsConfigDesc where
  header := oneUnitConf.header
  unit := Function.update (Function.update
    (fun _ => ⟨0, 0, 0, 0, 0, 0, 0, 0, 0⟩) 0 ⟨1, 0, 0, 0, 0, 0, 0x0C, 3, 0⟩)
    1 ⟨1, 0, 0, 0, 64, 0, 0x0C, 3, 0⟩

/-- The small geometry with two segments to an allocation unit. -/
def pairedGeometry : UfsGeometryDesc :=
  { smallGeometry with bAllocationUnitSize := 2 }

/-- Two return codes that differ. -/
def sampleCodes : ProvisionCodes := ⟨0, 1, by decide⟩

end Edk2Exynos.Ufs
