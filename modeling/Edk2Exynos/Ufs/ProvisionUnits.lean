/-
The configuration that provisioning writes, read back and checked.

# The device

A `Verbatim` device answers every query, reports its geometry, stores the
configuration descriptor it is sent and reports that one, and a boot unit
is enabled. Against it only the arithmetic of the writer and the checker
can disagree.

# The sizes

`ufs_edit_config_desc` runs through the units downwards. For a unit with
a capacity it writes a size that depends on nothing else; for an enabled
unit without one it writes what the total leaves after the units above,
already written, and the units below, which still hold the sizes from
before (`editedDesc_sizes`).

# Where they disagree

The writer tells boot units by the boot id and the checker by the memory
type; the writer rounds up by an increment in the byte order of the
device, where the carry goes the wrong way; and the checker refuses the
right rest for a unit without a capacity.
`provisionAttempt_verifies_iff` is the exact condition.
-/
import Edk2Exynos.Ufs.ProvisionCheck

namespace Edk2Exynos.Ufs

open Lib

variable {E : Type} {codes : ProvisionCodes} {query : Query E}
  {luConf : UfsConfigDesc} {geometry : UfsGeometryDesc}

-- ============================================================ the device

/-- A device that stores configurations as they are written. Reading one
back copies it over the host's, or as much of it as its own length field
says; over a copy of itself that makes no difference. -/
structure Verbatim (query : Query E) (geometry : UfsGeometryDesc)
    (stored : E → UfsConfigDesc) : Prop where
  succeeds : ∀ qry lun w, (query qry lun w).1 = 0
  geometry_read : ∀ lun w,
    (query .descRGeometryDesc lun w).2.ufs.geometryDesc = geometry
  geometry_keep : ∀ qry lun w, qry ≠ .descRGeometryDesc →
    (query qry lun w).2.ufs.geometryDesc = w.ufs.geometryDesc
  config_read : ∀ lun w, w.ufs.configDesc = stored w.env →
    (query .descRConfigDesc lun w).2.ufs.configDesc = stored w.env
  config_keep : ∀ qry lun w, qry ≠ .descRConfigDesc →
    (query qry lun w).2.ufs.configDesc = w.ufs.configDesc
  stored_write : ∀ lun w,
    stored (query .descWConfigDesc lun w).2.env = w.ufs.configDesc
  stored_keep : ∀ qry lun w, qry ≠ .descWConfigDesc →
    stored (query qry lun w).2.env = stored w.env
  bootLunEn : ∀ lun w,
    (query .attrRBootlunen lun w).2.ufs.attributes .bootlunen ≠ 0

-- ============================================================= the edits

/-- The edit of one unit to its wanted configuration. -/
def editUnit (luConf : UfsConfigDesc) (geometry : UfsGeometryDesc)
    (lun : Fin 8) (desc : UfsConfigDesc) : UfsConfigDesc :=
  let conf := luConf.unit lun
  editConfigDesc luConf geometry lun (conf.bLUEnable.setWidth 32)
    (conf.bBootLunID.setWidth 32) (conf.bLUWriteProtect.setWidth 32)
    (conf.bMemoryType.setWidth 32) conf.dNumAllocUnits desc

/-- The edits of the units below `n`, downwards. -/
def editedDesc (luConf : UfsConfigDesc) (geometry : UfsGeometryDesc) :
    (n : Nat) → n ≤ 8 → UfsConfigDesc → UfsConfigDesc
  | 0, _, desc => desc
  | n + 1, hn, desc =>
      editedDesc luConf geometry n (Nat.le_of_succ_le hn)
        (editUnit luConf geometry ⟨n, hn⟩ desc)

/-- The size written for a unit with a capacity. -/
def writtenUnits (geometry : UfsGeometryDesc) (conf : UfsUnitDescParam) :
    U32 :=
  if conf.bBootLunID ≠ 0 then
    bootSectors geometry conf.dNumAllocUnits / allocUnitSize geometry
  else
    let sectors := capacitySectors conf.dNumAllocUnits
    let units := sectors / allocUnitSize geometry
    if sectors % allocUnitSize geometry ≠ 0 then
      swab32 (swab32 units + swab32 1)
    else units

theorem setWidth_eq_zero_iff (x : U8) : x.setWidth 32 = 0 ↔ x = 0 := by
  constructor
  · intro h
    apply BitVec.eq_of_toNat_eq
    have hnat := congrArg BitVec.toNat h
    rw [BitVec.toNat_setWidth_of_le (by omega)] at hnat
    exact hnat
  · intro h
    rw [h]
    rfl

/-- The unit set is there. -/
theorem setUnit_self (lun : Fin 8) (unit : UfsUnitDescParam)
    (desc : UfsConfigDesc) : (desc.setUnit lun unit).unit lun = unit :=
  Function.update_self _ _ _

/-- The other units stay. -/
theorem setUnit_other {lun i : Fin 8} (hne : i ≠ lun)
    (unit : UfsUnitDescParam) (desc : UfsConfigDesc) :
    (desc.setUnit lun unit).unit i = desc.unit i :=
  Function.update_of_ne hne _ _

/-- The sum over a configuration in which one unit is empty. -/
theorem sumUnits_setUnit {lun : Fin 8} {unit : UfsUnitDescParam}
    (hunit : unit.dNumAllocUnits = 0) (desc : UfsConfigDesc) :
    sumUnits (desc.setUnit lun unit)
      = headSum (unitSizes desc) lun
        + tailSum (unitSizes desc) (lun + 1) := by
  have hother : ∀ i, i ≠ lun →
      unitSizes (desc.setUnit lun unit) i = unitSizes desc i := by
    intro i hne
    unfold unitSizes
    rw [setUnit_other hne]
  have hself : unitSizes (desc.setUnit lun unit) lun = 0 := by
    unfold unitSizes
    rw [setUnit_self, hunit]
    rfl
  have hsum : sumUnits (desc.setUnit lun unit)
      = ∑ i, unitSizes (desc.setUnit lun unit) i := rfl
  have hhead : headSum (unitSizes (desc.setUnit lun unit)) lun
      = headSum (unitSizes desc) lun :=
    headSum_congr fun i hi => hother i (Fin.ne_of_lt hi)
  have htail : tailSum (unitSizes (desc.setUnit lun unit)) (lun + 1)
      = tailSum (unitSizes desc) (lun + 1) :=
    tailSum_congr fun i hi => hother i (Fin.ne_of_gt hi)
  rw [hsum, sum_eq_headSum_add_tailSum _ lun.val, tailSum_eq _ lun.isLt,
    hself, zero_add, hhead, htail]

/-- The size written for a unit, given the sizes at the time. -/
theorem editUnit_size (lun : Fin 8) (desc : UfsConfigDesc) :
    unitSizes (editUnit luConf geometry lun desc) lun =
      if (luConf.unit lun).dNumAllocUnits ≠ 0 then
        writtenUnits geometry (luConf.unit lun)
      else if (luConf.unit lun).bLUEnable ≠ 0 then
        totalUnits geometry - (headSum (unitSizes desc) lun
          + tailSum (unitSizes desc) (lun + 1))
      else 0 := by
  unfold unitSizes editUnit editConfigDesc
  dsimp only
  rw [setUnit_self]
  unfold editUnitParam editAllocUnits writtenUnits
  dsimp only
  rw [sumUnits_setUnit rfl]
  by_cases hcap : (luConf.unit lun).dNumAllocUnits = 0
  · rw [if_neg (not_not.mpr hcap), if_neg (not_not.mpr hcap)]
    by_cases hen : (luConf.unit lun).bLUEnable = 0
    · rw [if_neg (not_not.mpr ((setWidth_eq_zero_iff _).mpr hen)),
        if_neg (not_not.mpr hen)]
      rfl
    · rw [if_pos fun h => hen ((setWidth_eq_zero_iff _).mp h), if_pos hen]
      exact byteSwap_byteSwap _
  · rw [if_pos hcap, if_pos hcap]
    by_cases hboot : (luConf.unit lun).bBootLunID = 0
    · rw [if_neg (not_not.mpr ((setWidth_eq_zero_iff _).mpr hboot)),
        if_neg (not_not.mpr hboot)]
      split
      · rfl
      · exact byteSwap_byteSwap _
    · rw [if_pos fun h => hboot ((setWidth_eq_zero_iff _).mp h),
        if_pos hboot]
      exact byteSwap_byteSwap _

/-- An edited unit has the table's settings. -/
theorem editUnit_settings (lun : Fin 8) (desc : UfsConfigDesc) :
    SameSettings (luConf.unit lun)
      ((editUnit luConf geometry lun desc).unit lun) := by
  have hwidth : ∀ x : U8, x = (x.setWidth 32).setWidth 8 := by
    intro x
    rw [BitVec.setWidth_setWidth_of_le _ (by omega), BitVec.setWidth_eq]
  unfold editUnit editConfigDesc
  dsimp only
  rw [setUnit_self]
  exact ⟨hwidth _, hwidth _, hwidth _, hwidth _, rfl, rfl, rfl, rfl⟩

/-- Editing a unit leaves the others. -/
theorem editUnit_other {lun i : Fin 8} (hne : i ≠ lun)
    (desc : UfsConfigDesc) :
    (editUnit luConf geometry lun desc).unit i = desc.unit i :=
  setUnit_other hne _ _

theorem editedDesc_succ (n : Nat) (hn : n + 1 ≤ 8) (desc : UfsConfigDesc) :
    editedDesc luConf geometry (n + 1) hn desc
      = editedDesc luConf geometry n (Nat.le_of_succ_le hn)
        (editUnit luConf geometry ⟨n, hn⟩ desc) := rfl

/-- Editing the lower units leaves the upper ones. -/
theorem editedDesc_above (n : Nat) (hn : n ≤ 8) (desc : UfsConfigDesc)
    {lun : Fin 8} (hlun : n ≤ lun.val) :
    (editedDesc luConf geometry n hn desc).unit lun = desc.unit lun := by
  induction n generalizing desc with
  | zero => rfl
  | succ n ih =>
      rw [editedDesc_succ, ih _ _ (Nat.le_of_succ_le hlun)]
      apply editUnit_other
      exact Fin.ne_of_gt hlun

/-- Every unit edited has the table's settings. -/
theorem editedDesc_settings (n : Nat) (hn : n ≤ 8) (desc : UfsConfigDesc)
    {lun : Fin 8} (hlun : lun.val < n) :
    SameSettings (luConf.unit lun)
      ((editedDesc luConf geometry n hn desc).unit lun) := by
  induction n generalizing desc with
  | zero => exact absurd hlun (Nat.not_lt_zero _)
  | succ n ih =>
      rw [editedDesc_succ]
      by_cases hlt : lun.val < n
      · exact ih _ _ hlt
      · have heq : lun = ⟨n, hn⟩ := Fin.ext
          (Nat.le_antisymm (Nat.le_of_lt_succ hlun) (Nat.le_of_not_lt hlt))
        rw [editedDesc_above _ _ _ (by omega), heq]
        exact editUnit_settings _ _

/-- The sizes after the edits: a unit without a capacity gets what is left
by the new sizes above it and the old ones below. -/
theorem editedDesc_sizes (luConf : UfsConfigDesc)
    (geometry : UfsGeometryDesc) (n : Nat) (hn : n ≤ 8)
    (desc : UfsConfigDesc) (lun : Fin 8) (hlun : lun.val < n) :
    unitSizes (editedDesc luConf geometry n hn desc) lun =
      if (luConf.unit lun).dNumAllocUnits ≠ 0 then
        writtenUnits geometry (luConf.unit lun)
      else if (luConf.unit lun).bLUEnable ≠ 0 then
        totalUnits geometry - (headSum (unitSizes desc) lun
          + tailSum (unitSizes (editedDesc luConf geometry n hn desc))
            (lun + 1))
      else 0 := by
  induction n generalizing desc with
  | zero => exact absurd hlun (Nat.not_lt_zero _)
  | succ n ih =>
      have habove : ∀ i : Fin 8, n ≤ i.val →
          unitSizes (editedDesc luConf geometry (n + 1) hn desc) i
            = unitSizes (editUnit luConf geometry ⟨n, hn⟩ desc) i := by
        intro i hi
        unfold unitSizes
        rw [editedDesc_succ, editedDesc_above _ _ _ hi]
      have hother : ∀ i, i ≠ ⟨n, hn⟩ →
          unitSizes (editUnit luConf geometry ⟨n, hn⟩ desc) i
            = unitSizes desc i := by
        intro i hne
        unfold unitSizes
        rw [editUnit_other hne]
      by_cases hlt : lun.val < n
      · have hhead : headSum (unitSizes (editUnit luConf geometry ⟨n, hn⟩
            desc)) lun = headSum (unitSizes desc) lun := by
          apply headSum_congr
          intro i hi
          exact hother i (Fin.ne_of_lt (Nat.lt_trans hi hlt))
        rw [← hhead]
        exact ih _ _ hlt
      · have heq : lun = ⟨n, hn⟩ := Fin.ext
          (Nat.le_antisymm (Nat.le_of_lt_succ hlun) (Nat.le_of_not_lt hlt))
        have htail : tailSum (unitSizes (editedDesc luConf geometry (n + 1)
            hn desc)) (lun + 1) = tailSum (unitSizes desc) (lun + 1) := by
          apply tailSum_congr
          intro i hi
          rw [habove i (by omega)]
          apply hother
          intro hcon
          rw [hcon, heq] at hi
          exact absurd hi (Nat.not_succ_le_self n)
        rw [htail, habove lun (by omega), heq]
        exact editUnit_size _ _

-- ==================================================== against the device

/-- A device that answers the queries of the edits and reports its
geometry; reading does not change the host's configuration. -/
structure ReportsGeometry (query : Query E) (geometry : UfsGeometryDesc) :
    Prop where
  device_ok : ∀ lun w, (query .descRDeviceDesc lun w).1 = 0
  geometry_ok : ∀ lun w, (query .descRGeometryDesc lun w).1 = 0
  geometry_read : ∀ lun w,
    (query .descRGeometryDesc lun w).2.ufs.geometryDesc = geometry
  device_keep : ∀ lun w,
    (query .descRDeviceDesc lun w).2.ufs.configDesc = w.ufs.configDesc
  geometry_keep : ∀ lun w,
    (query .descRGeometryDesc lun w).2.ufs.configDesc = w.ufs.configDesc

/-- Where the geometry is reported, the edit is `editUnit`. -/
theorem ReportsGeometry.editConfigDesc (hq : ReportsGeometry query geometry)
    (lun : Fin 8) (w : World E) :
    let conf := luConf.unit lun
    (ufsEditConfigDesc query luConf lun (conf.bLUEnable.setWidth 32)
      (conf.bBootLunID.setWidth 32) (conf.bLUWriteProtect.setWidth 32)
      (conf.bMemoryType.setWidth 32) conf.dNumAllocUnits w).ufs.configDesc
      = editUnit luConf geometry lun w.ufs.configDesc := by
  unfold ufsEditConfigDesc
  dsimp only
  rw [hq.device_ok, if_neg (not_not.mpr rfl), hq.geometry_ok,
    if_neg (not_not.mpr rfl)]
  unfold World.setConfigDesc
  dsimp only
  rw [hq.geometry_read, hq.geometry_keep, hq.device_keep]
  rfl

/-- Where the geometry is reported, the edits are `editedDesc`. -/
theorem ReportsGeometry.editUnits (hq : ReportsGeometry query geometry)
    (luConf : UfsConfigDesc) (n : Nat) (hn : n ≤ 8) (w : World E) :
    (editUnits query luConf 0 n hn w).2.ufs.configDesc
      = editedDesc luConf geometry n hn w.ufs.configDesc := by
  induction n generalizing w with
  | zero => rfl
  | succ n ih =>
      have hret : ¬ (0 : Int) = 2 := by decide
      unfold Ufs.editUnits
      simp only [if_neg hret]
      rw [editedDesc_succ, ← hq.editConfigDesc]
      exact ih _ _

variable {stored : E → UfsConfigDesc}

/-- A device that stores what is written reports its geometry. -/
theorem Verbatim.reportsGeometry (hq : Verbatim query geometry stored) :
    ReportsGeometry query geometry where
  device_ok := hq.succeeds _
  geometry_ok := hq.succeeds _
  geometry_read := hq.geometry_read
  device_keep := fun lun w => hq.config_keep _ lun w (by simp)
  geometry_keep := fun lun w => hq.config_keep _ lun w (by simp)

/-- An attempt whose queries succeed. -/
theorem Verbatim.attempt_eq (hq : Verbatim query geometry stored)
    (luConf : UfsConfigDesc) (w : World E) :
    (provisionAttempt query luConf w).2.2
      = (query .attrWBootlunen 0 ((query .descWConfigDesc 0
          (Ufs.editUnits query luConf 0 8 (Nat.le_refl 8) w).2).2.setBootLunEn
        1)).2 := by
  unfold provisionAttempt
  dsimp only
  rw [editUnits_fst, if_neg Bool.false_ne_true, hq.succeeds,
    if_neg (not_not.mpr rfl)]

/-- What the check sees after an attempt. -/
theorem Verbatim.attempt (hq : Verbatim query geometry stored)
    (luConf : UfsConfigDesc) (w : World E) :
    let w' := (provisionAttempt query luConf w).2.2
    QueriesSucceed query w'
      ∧ (checkedHost query w').geometryDesc = geometry
      ∧ (checkedHost query w').configDesc
        = editedDesc luConf geometry 8 (Nat.le_refl 8) w.ufs.configDesc
      ∧ (checkedHost query w').attributes .bootlunen ≠ 0 := by
  intro w'
  have hdesc := hq.reportsGeometry.editUnits luConf 8 (Nat.le_refl 8) w
  have hw' : w' = _ := hq.attempt_eq luConf w
  have hhost : w'.ufs.configDesc
      = editedDesc luConf geometry 8 (Nat.le_refl 8) w.ufs.configDesc := by
    rw [← hdesc, hw', hq.config_keep _ _ _ (by simp)]
    exact hq.config_keep _ _ _ (by simp)
  have hstored : stored w'.env
      = editedDesc luConf geometry 8 (Nat.le_refl 8) w.ufs.configDesc := by
    rw [← hdesc, hw', hq.stored_keep _ _ _ (by simp)]
    exact hq.stored_write _ _
  refine ⟨⟨hq.succeeds _ _ _, hq.succeeds _ _ _, hq.succeeds _ _ _,
    hq.succeeds _ _ _⟩, ?_, ?_, ?_⟩
  · unfold checkedHost readBootLunEn readConfig readGeometry
    rw [hq.geometry_keep _ _ _ (by simp),
      hq.geometry_keep _ _ _ (by simp), hq.geometry_read]
  · -- until the read back, the host has the configuration it sent
    have hbefore : (readGeometry query w').2.ufs.configDesc
        = w'.ufs.configDesc := by
      unfold readGeometry readDevice
      rw [hq.config_keep _ _ _ (by simp),
        hq.config_keep _ _ _ (by simp)]
      rfl
    have henv : stored (readGeometry query w').2.env = stored w'.env := by
      unfold readGeometry readDevice
      rw [hq.stored_keep _ _ _ (by simp),
        hq.stored_keep _ _ _ (by simp)]
      rfl
    have hsame := hbefore.trans (hhost.trans (hstored.symm.trans henv.symm))
    unfold checkedHost readBootLunEn readConfig
    rw [hq.config_keep _ _ _ (by simp), hq.config_read _ _ hsame, henv]
    exact hstored
  · exact hq.bootLunEn _ _

-- ========================================================= the condition

/-- What the units from `n` up have together after the edits: the sizes of
those with a capacity, up to the first enabled one without, which leaves
the total less the old sizes below it. -/
def sharedFrom (luConf : UfsConfigDesc) (geometry : UfsGeometryDesc)
    (old : Fin 8 → U32) (n : Nat) : U32 :=
  if hn : n < 8 then
    let conf := luConf.unit ⟨n, hn⟩
    if conf.dNumAllocUnits ≠ 0 then
      writtenUnits geometry conf + sharedFrom luConf geometry old (n + 1)
    else if conf.bLUEnable ≠ 0 then totalUnits geometry - headSum old n
    else sharedFrom luConf geometry old (n + 1)
  else 0
termination_by 8 - n

/-- Writer and checker agree on the size of a unit with a capacity. -/
def CapacityAgrees (geometry : UfsGeometryDesc) (conf : UfsUnitDescParam) :
    Prop :=
  let size := allocUnitSize geometry
  let sectors := capacitySectors conf.dNumAllocUnits
  let boot := bootSectors geometry conf.dNumAllocUnits / size
  let rounded := if sectors % size ≠ 0 then sectors / size + 1
    else sectors / size
  if conf.bBootLunID ≠ 0 then conf.bMemoryType > 0 ∨ boot = rounded
  else if conf.bMemoryType > 0 then writtenUnits geometry conf = boot
  else sectors % size = 0 ∨ (sectors / size).toNat % 256 ≠ 255

/-- The check passes the unit `lun`. -/
def UnitVerifies (luConf : UfsConfigDesc) (geometry : UfsGeometryDesc)
    (old : Fin 8 → U32) (lun : Fin 8) : Prop :=
  let conf := luConf.unit lun
  let above := sharedFrom luConf geometry old (lun + 1)
  if conf.dNumAllocUnits ≠ 0 then CapacityAgrees geometry conf
  else if conf.bLUEnable ≠ 0 then
    totalUnits geometry ≠ above + (headSum old lun + headSum old lun)
  else totalUnits geometry ≠ above

/-- When the writer's units are the checker's. -/
theorem capacityAgrees_iff (conf : UfsUnitDescParam) :
    writtenUnits geometry conf = expectedUnits geometry conf
      ↔ CapacityAgrees geometry conf := by
  unfold CapacityAgrees
  dsimp only
  by_cases hboot : conf.bBootLunID = 0
  · rw [if_neg (not_not.mpr hboot)]
    by_cases hmem : conf.bMemoryType > 0
    · rw [if_pos hmem]
      unfold expectedUnits
      rw [if_pos hmem]
    · rw [if_neg hmem]
      unfold writtenUnits expectedUnits
      rw [if_neg (not_not.mpr hboot), if_neg hmem]
      dsimp only
      by_cases hrem : capacitySectors conf.dNumAllocUnits
          % allocUnitSize geometry = 0
      · rw [if_neg (not_not.mpr hrem), if_neg (not_not.mpr hrem)]
        exact ⟨fun _ => Or.inl hrem, fun _ => rfl⟩
      · rw [if_pos hrem, if_pos hrem, or_iff_right hrem]
        exact byteSwap_add_one _
  · rw [if_pos hboot]
    unfold writtenUnits expectedUnits
    rw [if_pos hboot]
    by_cases hmem : conf.bMemoryType > 0
    · rw [if_pos hmem]
      exact ⟨fun _ => Or.inl hmem, fun _ => rfl⟩
    · rw [if_neg hmem, or_iff_right hmem]

/-- The running sum of the checker, in terms of what there was before. -/
theorem tailSum_editedDesc (old : UfsConfigDesc) (n : Nat) (hn : n ≤ 8) :
    tailSum (unitSizes (editedDesc luConf geometry 8 (Nat.le_refl 8) old)) n
      = sharedFrom luConf geometry (unitSizes old) n := by
  induction hleft : 8 - n generalizing n with
  | zero =>
      have h8 : n = 8 := by omega
      rw [h8, tailSum_end]
      unfold sharedFrom
      rw [dif_neg (Nat.lt_irrefl 8)]
  | succ left ih =>
      have hlt : n < 8 := by omega
      have htail := ih (n + 1) (by omega) (by omega)
      have hsize := editedDesc_sizes luConf geometry 8 (Nat.le_refl 8) old
        ⟨n, hlt⟩ hlt
      unfold sharedFrom
      rw [dif_pos hlt, tailSum_eq _ hlt, hsize, htail]
      dsimp only
      split
      · rfl
      · split
        · ring
        · exact zero_add _

/-- When the size of an edited unit is accepted. -/
theorem sizeAccepted_editedDesc_iff (old : UfsConfigDesc) (lun : Fin 8) :
    SizeAccepted geometry (luConf.unit lun)
        (unitSizes (editedDesc luConf geometry 8 (Nat.le_refl 8) old)) lun
      ↔ UnitVerifies luConf geometry (unitSizes old) lun := by
  have hsize := editedDesc_sizes luConf geometry 8 (Nat.le_refl 8) old lun
    lun.isLt
  have htail := tailSum_eq
    (unitSizes (editedDesc luConf geometry 8 (Nat.le_refl 8) old)) lun.isLt
  rw [tailSum_editedDesc old (lun + 1) lun.isLt] at hsize htail
  unfold SizeAccepted UnitVerifies
  dsimp only
  by_cases hcap : (luConf.unit lun).dNumAllocUnits = 0
  · rw [if_neg (not_not.mpr hcap)] at hsize
    rw [if_pos hcap, if_neg (not_not.mpr hcap), htail, Fin.eta, hsize]
    by_cases hen : (luConf.unit lun).bLUEnable = 0
    · rw [if_neg (not_not.mpr hen), if_neg (not_not.mpr hen), zero_add]
      exact sub_ne_zero
    · rw [if_pos hen, if_pos hen]
      apply not_congr
      constructor
      · intro h
        linear_combination -h
      · intro h
        linear_combination -h
  · rw [if_pos hcap] at hsize
    rw [if_neg hcap, if_pos hcap, hsize]
    exact capacityAgrees_iff _

-- ======================================================= the main result

/-- For every layout, geometry and earlier configuration: after an attempt
against a device that stores what it is sent, the check returns
RET_SUCCESS exactly when every unit verifies. -/
theorem provisionAttempt_verifies_iff (codes : ProvisionCodes)
    (luConf : UfsConfigDesc) (geometry : UfsGeometryDesc)
    {stored : E → UfsConfigDesc} {query : Query E}
    (hq : Verbatim query geometry stored) (w : World E) :
    (ufsCheckConfigDesc codes query luConf
        (provisionAttempt query luConf w).2.2).1 = codes.retSuccess
      ↔ ∀ lun, UnitVerifies luConf geometry (unitSizes w.ufs.configDesc)
        lun := by
  obtain ⟨hqueries, hgeo, hdesc, hboot⟩ := hq.attempt luConf w
  have hhost := checkHost_iff luConf
    (checkedHost query (provisionAttempt query luConf w).2.2)
  rw [hgeo, hdesc] at hhost
  have hcheck : checkHost luConf
        (checkedHost query (provisionAttempt query luConf w).2.2) = true
      ↔ ∀ lun, UnitVerifies luConf geometry (unitSizes w.ufs.configDesc)
        lun := by
    rw [hhost]
    constructor
    · intro hall lun
      exact (sizeAccepted_editedDesc_iff _ lun).mp (hall.1 lun).2
    · intro hall
      exact ⟨fun lun => ⟨editedDesc_settings 8 _ _ lun.isLt,
        (sizeAccepted_editedDesc_iff _ lun).mpr (hall lun)⟩, hboot⟩
  rw [ufsCheckConfigDesc_fst, if_pos hqueries, ← hcheck]
  split
  · next h => exact ⟨fun _ => h, fun _ => rfl⟩
  · next h => exact ⟨fun hcon => absurd hcon.symm codes.distinct,
      fun hcon => absurd hcon h⟩

-- =============================================== a device that remembers

/-- Its state is the stored configuration; booting is enabled. -/
def verbatimQuery : Query UfsConfigDesc := fun qry _ w =>
  match qry with
  | .descRGeometryDesc =>
      (0, { w with ufs := { w.ufs with geometryDesc := smallGeometry } })
  | .descRConfigDesc => (0, w.setConfigDesc w.env)
  | .descWConfigDesc => (0, { w with env := w.ufs.configDesc })
  | .attrRBootlunen => (0, w.setBootLunEn 1)
  | _ => (0, w)

/-- The sample device stores what is written. -/
theorem verbatimQuery_verbatim :
    Verbatim verbatimQuery smallGeometry id where
  succeeds := by
    intro qry lun w
    cases qry <;> rfl
  geometry_read := fun _ _ => rfl
  geometry_keep := by
    intro qry lun w hne
    cases qry <;> first | rfl | exact absurd rfl hne
  config_read := fun _ _ _ => rfl
  config_keep := by
    intro qry lun w hne
    cases qry <;> first | rfl | exact absurd rfl hne
  stored_write := fun _ _ => rfl
  stored_keep := by
    intro qry lun w hne
    cases qry <;> first | rfl | exact absurd rfl hne
  bootLunEn := by
    intro lun w
    have hone : (verbatimQuery .attrRBootlunen lun w).2.ufs.attributes
        .bootlunen = 1 := World.setBootLunEn_bootlunen 1 w
    rw [hone]
    decide

/-- On a blank device the layout with a rest verifies: unit 1 has 32
allocation units, and unit 0 the 224 that are left. -/
theorem provisionAttempt_verifies_iff_rest :
    let w : World UfsConfigDesc := ⟨blankHost, blankHost.configDesc⟩
    let w' := (provisionAttempt verbatimQuery userUnitConf w).2.2
    unitSizes w'.env 1 = 32 ∧ unitSizes w'.env 0 = 224
      ∧ (ufsCheckConfigDesc sampleCodes verbatimQuery userUnitConf w').1
        = sampleCodes.retSuccess := by
  intro w w'
  refine ⟨by decide +kernel, by decide +kernel, ?_⟩
  refine (provisionAttempt_verifies_iff sampleCodes userUnitConf
    smallGeometry verbatimQuery_verbatim w).mpr ?_
  unfold UnitVerifies CapacityAgrees
  decide +kernel

/-- 511 MiB take 255 allocation units and a half. -/
def halfUnitConf : UfsConfigDesc :=
  oneUnitConf.setUnit 0 { oneUnitConf.unit 0 with dNumAllocUnits := 511 }

/-- Rounding 255 up in the byte order of the device gives 0, and the check
fails. -/
theorem provisionAttempt_rounds_to_zero :
    let w : World UfsConfigDesc := ⟨blankHost, blankHost.configDesc⟩
    let w' := (provisionAttempt verbatimQuery halfUnitConf w).2.2
    unitSizes w'.env 0 = 0
      ∧ (ufsCheckConfigDesc sampleCodes verbatimQuery halfUnitConf w').1
        = sampleCodes.retFailure
      ∧ sampleCodes.retFailure ≠ sampleCodes.retSuccess := by
  decide +kernel

end Edk2Exynos.Ufs
