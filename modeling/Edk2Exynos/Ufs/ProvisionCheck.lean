/-
What `ufs_check_config_desc` accepts, and what it ought to accept.

# What RET_SUCCESS should mean

`Verified`: the header and every compared field of the units are those of
`LU_conf`, a unit with a capacity has the allocation units the capacity
takes, an enabled unit without one has the rest, and booting from a unit
is enabled. Sizes are taken in integers: `requiredUnits` for a capacity,
where a normal unit is rounded up and a boot unit, scaled by the whole
adjustment factor, is rounded down; and for the rest what the other units
leave of all the device has (`deviceUnits`), the capacity with the word
that the host's descriptor goes without.

# What it means

The queries' failures return 0, which may be RET_SUCCESS; a difference in
the header is only printed; the arithmetic wraps around at 32 bits, and
the factor is read in the wrong byte order (`FormulaExact`); and for a
unit without a capacity the comparison is the wrong way round, with the
unit itself in the sum and a total that leaves out `bAllocationUnitSize`.
`ufsCheckConfigDesc_sound_iff` says when a RET_SUCCESS is nevertheless
true.
-/
import Edk2Exynos.Lib.TailSums
import Edk2Exynos.Ufs.ProvisionExact

namespace Edk2Exynos.Ufs

open Lib

variable {E : Type} {codes : ProvisionCodes} {query : Query E}
  {luConf : UfsConfigDesc}

-- =========================================================== the queries

/-- The four queries of the check, one after the other. -/
def readDevice (query : Query E) (w : World E) : Int × World E :=
  query .descRDeviceDesc 0 (w.setLun 0)

/-- The second query of the check. -/
def readGeometry (query : Query E) (w : World E) : Int × World E :=
  query .descRGeometryDesc 0 (readDevice query w).2

/-- The third query of the check. -/
def readConfig (query : Query E) (w : World E) : Int × World E :=
  query .descRConfigDesc 0 (readGeometry query w).2

/-- The fourth query of the check. -/
def readBootLunEn (query : Query E) (w : World E) : Int × World E :=
  query .attrRBootlunen 0 (readConfig query w).2

/-- All queries of the check succeed. -/
structure QueriesSucceed (query : Query E) (w : World E) : Prop where
  device : (readDevice query w).1 = 0
  geometry : (readGeometry query w).1 = 0
  config : (readConfig query w).1 = 0
  bootLunEn : (readBootLunEn query w).1 = 0

instance (query : Query E) (w : World E) :
    Decidable (QueriesSucceed query w) :=
  decidable_of_iff ((readDevice query w).1 = 0
      ∧ (readGeometry query w).1 = 0 ∧ (readConfig query w).1 = 0
      ∧ (readBootLunEn query w).1 = 0)
    ⟨fun h => ⟨h.1, h.2.1, h.2.2.1, h.2.2.2⟩,
      fun h => ⟨h.device, h.geometry, h.config, h.bootLunEn⟩⟩

/-- The host the comparisons see. -/
def checkedHost (query : Query E) (w : World E) : UfsHost :=
  (readBootLunEn query w).2.ufs

theorem ufsCheckConfigDesc_fst (w : World E) :
    (ufsCheckConfigDesc codes query luConf w).1
      = if QueriesSucceed query w then
          if checkHost luConf (checkedHost query w) then codes.retSuccess
          else codes.retFailure
        else 0 := by
  have hcheck : (ufsCheckConfigDesc codes query luConf w).1
      = (if (readDevice query w).1 ≠ 0 then (0, (readDevice query w).2)
        else if (readGeometry query w).1 ≠ 0 then
          (0, (readGeometry query w).2)
        else if (readConfig query w).1 ≠ 0 then (0, (readConfig query w).2)
        else if (readBootLunEn query w).1 ≠ 0 then
          (0, (readBootLunEn query w).2)
        else if checkHost luConf (readBootLunEn query w).2.ufs then
          (codes.retSuccess, (readBootLunEn query w).2)
        else (codes.retFailure, (readBootLunEn query w).2)).1 := rfl
  rw [hcheck]
  by_cases hd : (readDevice query w).1 ≠ 0
  · rw [if_pos hd, if_neg fun h => hd h.device]
  · rw [if_neg hd]
    by_cases hg : (readGeometry query w).1 ≠ 0
    · rw [if_pos hg, if_neg fun h => hg h.geometry]
    · rw [if_neg hg]
      by_cases hc : (readConfig query w).1 ≠ 0
      · rw [if_pos hc, if_neg fun h => hc h.config]
      · rw [if_neg hc]
        by_cases hb : (readBootLunEn query w).1 ≠ 0
        · rw [if_pos hb, if_neg fun h => hb h.bootLunEn]
        · have hall : QueriesSucceed query w := ⟨not_not.mp hd,
            not_not.mp hg, not_not.mp hc, not_not.mp hb⟩
          rw [if_neg hb, if_pos hall]
          unfold checkedHost
          split
          · rfl
          · rfl

-- ============================================================= the units

/-- The compared fields of a unit, its size apart. -/
structure SameSettings (conf unit : UfsUnitDescParam) : Prop where
  bLUEnable : conf.bLUEnable = unit.bLUEnable
  bBootLunID : conf.bBootLunID = unit.bBootLunID
  bLUWriteProtect : conf.bLUWriteProtect = unit.bLUWriteProtect
  bMemoryType : conf.bMemoryType = unit.bMemoryType
  bDataReliability : conf.bDataReliability = unit.bDataReliability
  bLogicalBlockSize : conf.bLogicalBlockSize = unit.bLogicalBlockSize
  bProvisioningType : conf.bProvisioningType = unit.bProvisioningType
  wContextCapabilities :
    conf.wContextCapabilities = unit.wContextCapabilities

/-- The sizes of a configuration's units, as numbers. -/
def unitSizes (desc : UfsConfigDesc) (lun : Fin 8) : U32 :=
  swab32 (desc.unit lun).dNumAllocUnits

/-- The size the check expects of a unit with a capacity. -/
def expectedUnits (geometry : UfsGeometryDesc) (conf : UfsUnitDescParam) :
    U32 :=
  if conf.bMemoryType > 0 then
    bootSectors geometry conf.dNumAllocUnits / allocUnitSize geometry
  else
    let sectors := capacitySectors conf.dNumAllocUnits
    if sectors % allocUnitSize geometry ≠ 0 then
      sectors / allocUnitSize geometry + 1
    else sectors / allocUnitSize geometry

/-- A size passes the capacity test. -/
def SizeAccepted (geometry : UfsGeometryDesc) (conf : UfsUnitDescParam)
    (sizes : Fin 8 → U32) (lun : Fin 8) : Prop :=
  if conf.dNumAllocUnits = 0 then
    totalUnits geometry - tailSum sizes lun ≠ sizes lun
  else sizes lun = expectedUnits geometry conf

theorem checkAllocUnits_iff (geometry : UfsGeometryDesc)
    (conf : UfsUnitDescParam) (desc : UfsConfigDesc) (lun : Fin 8) :
    checkAllocUnits geometry conf (desc.unit lun)
        (tailSum (unitSizes desc) lun) = true
      ↔ SizeAccepted geometry conf (unitSizes desc) lun := by
  unfold checkAllocUnits SizeAccepted expectedUnits unitSizes
  by_cases hzero : conf.dNumAllocUnits = 0
  · rw [if_pos hzero, if_pos hzero, bne_iff_ne]
    exact not_congr byteSwap_eq_iff
  · rw [if_neg hzero, if_neg hzero]
    by_cases hboot : conf.bMemoryType > 0
    · rw [if_pos hboot, if_pos hboot, beq_iff_eq, byteSwap_eq_iff]
      exact eq_comm
    · rw [if_neg hboot, if_neg hboot]
      dsimp only
      split
      · rw [beq_iff_eq]
        exact eq_comm
      · rw [beq_iff_eq]
        exact eq_comm

theorem checkUnit_iff {geometry : UfsGeometryDesc}
    {conf unit : UfsUnitDescParam} {sum : U32} :
    checkUnit geometry conf unit sum = true
      ↔ SameSettings conf unit
        ∧ checkAllocUnits geometry conf unit sum = true := by
  unfold checkUnit
  simp only [Bool.and_eq_true, beq_iff_eq]
  constructor
  · rintro ⟨⟨⟨⟨⟨⟨⟨⟨h1, h2⟩, h3⟩, h4⟩, h5⟩, h6⟩, h7⟩, h8⟩, h9⟩
    exact ⟨⟨h1, h2, h3, h4, h6, h7, h8, h9⟩, h5⟩
  · rintro ⟨⟨h1, h2, h3, h4, h6, h7, h8, h9⟩, h5⟩
    exact ⟨⟨⟨⟨⟨⟨⟨⟨h1, h2⟩, h3⟩, h4⟩, h5⟩, h6⟩, h7⟩, h8⟩, h9⟩

/-- The loop keeps the sum of the units it has passed. -/
theorem checkUnits_iff (geometry : UfsGeometryDesc)
    (luConf desc : UfsConfigDesc) (n : Nat) (hn : n ≤ 8) :
    checkUnits geometry luConf desc n hn (tailSum (unitSizes desc) n) = true
      ↔ ∀ lun : Fin 8, lun.val < n →
        SameSettings (luConf.unit lun) (desc.unit lun)
        ∧ SizeAccepted geometry (luConf.unit lun) (unitSizes desc) lun := by
  induction n with
  | zero => exact ⟨fun _ lun hlun => absurd hlun (Nat.not_lt_zero _),
      fun _ => rfl⟩
  | succ n ih =>
      have hn8 : n < 8 := hn
      have hsum : tailSum (unitSizes desc) (n + 1)
          + swab32 (desc.unit ⟨n, hn8⟩).dNumAllocUnits
          = tailSum (unitSizes desc) n := by
        rw [tailSum_eq _ hn8, add_comm]
        rfl
      unfold checkUnits
      dsimp only
      rw [hsum, Bool.and_eq_true, checkUnit_iff]
      have hsize := checkAllocUnits_iff geometry (luConf.unit ⟨n, hn8⟩)
        desc ⟨n, hn8⟩
      rw [hsize, ih]
      constructor
      · rintro ⟨hlast, hbelow⟩ lun hlun
        by_cases heq : lun = ⟨n, hn8⟩
        · rw [heq]
          exact hlast
        · have hne : lun.val ≠ n := fun hval => heq (Fin.ext hval)
          exact hbelow lun (by omega)
      · intro hall
        exact ⟨hall ⟨n, hn8⟩ (Nat.lt_succ_self n),
          fun lun hlun => hall lun (Nat.lt_succ_of_lt hlun)⟩

/-- What the comparisons accept. -/
theorem checkHost_iff (luConf : UfsConfigDesc) (ufs : UfsHost) :
    checkHost luConf ufs = true ↔
      (∀ lun, SameSettings (luConf.unit lun) (ufs.configDesc.unit lun)
        ∧ SizeAccepted ufs.geometryDesc (luConf.unit lun)
          (unitSizes ufs.configDesc) lun)
      ∧ ufs.attributes .bootlunen ≠ 0 := by
  have hunits := checkUnits_iff ufs.geometryDesc luConf ufs.configDesc 8
    (Nat.le_refl 8)
  rw [tailSum_end] at hunits
  unfold checkHost
  rw [Bool.and_eq_true, bne_iff_ne, hunits]
  exact and_congr_left fun _ =>
    ⟨fun h lun => h lun lun.isLt, fun h lun _ => h lun⟩

-- ============================================================== verified

/-- A unit's size is what the others leave of the device. -/
def IsRest (high : U32) (geometry : UfsGeometryDesc)
    (sizes : Fin 8 → U32) (lun : Fin 8) : Prop :=
  (sizes lun).toNat + ∑ i with i ≠ lun, (sizes i).toNat
    = deviceUnits high geometry

/-- The configuration the host has read is the wanted one, on a device
with this high word of its capacity. -/
structure Verified (high : U32) (luConf : UfsConfigDesc)
    (ufs : UfsHost) : Prop where
  header : ufs.configDesc.header = luConf.header
  settings : ∀ lun,
    SameSettings (luConf.unit lun) (ufs.configDesc.unit lun)
  size : ∀ lun, (luConf.unit lun).dNumAllocUnits ≠ 0 →
    (unitSizes ufs.configDesc lun).toNat
      = requiredUnits ufs.geometryDesc (luConf.unit lun)
  rest : ∀ lun, (luConf.unit lun).dNumAllocUnits = 0 →
    (luConf.unit lun).bLUEnable ≠ 0 →
    IsRest high ufs.geometryDesc (unitSizes ufs.configDesc) lun
  bootLunEn : ufs.attributes .bootlunen ≠ 0

-- =========================================================== the condition

/-- The products and the factor as the check has them make no difference
to a size: those of a boot unit, or those of a normal one, have the exact
quotient. -/
def FormulaExact (geometry : UfsGeometryDesc) (conf : UfsUnitDescParam) :
    Prop :=
  let n := exactSectors conf.dNumAllocUnits
  let d := allocUnitSectors geometry % 2 ^ 32
  if conf.bMemoryType > 0 then
    n * geometry.wEnhanced1CapAdjFac.toNat % 2 ^ 32 / d
      = exactBootUnits geometry conf.dNumAllocUnits
  else
    (if d ∣ n % 2 ^ 32 then n % 2 ^ 32 / d else n % 2 ^ 32 / d + 1)
      = exactUnits geometry conf.dNumAllocUnits

/-- A quotient that leaves a rest has room for one more. -/
theorem succ_div_lt {n d b : Nat} (hdvd : ¬ d ∣ n) (hn : n < b) :
    n / d + 1 < b := by
  have hdiv := Nat.div_mul_le_self n d
  have hpos : 0 < n :=
    Nat.pos_of_ne_zero fun hzero => hdvd (hzero ▸ Nat.dvd_zero d)
  rcases Nat.lt_trichotomy d 1 with hzero | hone | htwo
  · rw [Nat.lt_one_iff.mp hzero, Nat.div_zero]
    omega
  · exact absurd (hone ▸ Nat.one_dvd n) (hone ▸ hdvd)
  · have hhalf : n / d ≤ n / 2 := Nat.div_le_div_left htwo (by decide)
    omega

/-- The size the check expects is the exact one in just that case. -/
theorem expectedUnits_exact_iff (geometry : UfsGeometryDesc)
    (conf : UfsUnitDescParam) :
    (expectedUnits geometry conf).toNat = requiredUnits geometry conf
      ↔ FormulaExact geometry conf := by
  have hn := capacitySectors_toNat conf.dNumAllocUnits
  have hd := allocUnitSize_toNat geometry
  unfold expectedUnits requiredUnits FormulaExact
  dsimp only
  by_cases hboot : conf.bMemoryType > 0
  · rw [if_pos hboot, if_pos hboot, if_pos hboot, BitVec.toNat_udiv,
      bootSectors_toNat, hd]
  · rw [if_neg hboot, if_neg hboot, if_neg hboot]
    generalize exactSectors conf.dNumAllocUnits % 2 ^ 32 = n at hn ⊢
    generalize allocUnitSectors geometry % 2 ^ 32 = d at hd ⊢
    have hquot : (capacitySectors conf.dNumAllocUnits
        / allocUnitSize geometry).toNat = n / d := by
      rw [BitVec.toNat_udiv, hn, hd]
    have hrest : capacitySectors conf.dNumAllocUnits
        % allocUnitSize geometry ≠ 0 ↔ ¬ d ∣ n := by
      rw [ne_eq, ← BitVec.toNat_inj, BitVec.toNat_umod, hn, hd,
        Nat.dvd_iff_mod_eq_zero]
      rfl
    by_cases hdvd : d ∣ n
    · rw [if_pos hdvd, if_neg fun h => hrest.mp h hdvd, hquot]
    · have hlt : n / d + 1 < 2 ^ 32 :=
        succ_div_lt hdvd (hn ▸ (capacitySectors conf.dNumAllocUnits).isLt)
      rw [if_neg hdvd, if_pos (hrest.mpr hdvd), BitVec.toNat_add, hquot,
        show ((1 : U32)).toNat = 1 from rfl, Nat.mod_eq_of_lt hlt]

/-- So it is where no product wraps around and the factor is whole. -/
theorem formulaExact_of_fits {geometry : UfsGeometryDesc}
    {conf : UfsUnitDescParam} (hpos : 0 < allocUnitSectors geometry)
    (hunit : allocUnitSectors geometry < 2 ^ 32)
    (hcap : exactSectors conf.dNumAllocUnits < 2 ^ 32)
    (hboot : conf.bMemoryType > 0 →
      geometry.wEnhanced1CapAdjFac.toNat < 256
        ∧ exactSectors conf.dNumAllocUnits
          * geometry.wEnhanced1CapAdjFac.toNat < 2 ^ 32) :
    FormulaExact geometry conf := by
  unfold FormulaExact
  dsimp only
  rw [Nat.mod_eq_of_lt hunit, Nat.mod_eq_of_lt hcap]
  split
  next htype =>
    obtain ⟨hwhole, hprod⟩ := hboot htype
    unfold exactBootUnits
    rw [Nat.mod_eq_of_lt hprod, capAdjFactor_eq, Nat.mod_eq_of_lt hwhole]
  next =>
    unfold exactUnits
    split
    next hdvd => exact (ceilDiv_of_dvd hpos hdvd).symm
    next hdvd => exact (ceilDiv_of_not_dvd hpos hdvd).symm

/-- The header is right, the 32-bit formulas are exact, and the units
without a capacity have the rest: what the comparisons do not see. -/
structure UncheckedRight (high : U32) (luConf : UfsConfigDesc)
    (ufs : UfsHost) : Prop where
  header : ufs.configDesc.header = luConf.header
  exact : ∀ lun, (luConf.unit lun).dNumAllocUnits ≠ 0 →
    FormulaExact ufs.geometryDesc (luConf.unit lun)
  rest : ∀ lun, (luConf.unit lun).dNumAllocUnits = 0 →
    (luConf.unit lun).bLUEnable ≠ 0 →
    IsRest high ufs.geometryDesc (unitSizes ufs.configDesc) lun

/-- What the device reports does not mislead the comparisons: a setting of
a unit differs, a size fails its test, the boot unit is disabled, or
there is nothing they miss. -/
def NotMisleading (high : U32) (luConf : UfsConfigDesc) (ufs : UfsHost) :
    Prop :=
  (∃ lun, ¬ SameSettings (luConf.unit lun) (ufs.configDesc.unit lun)
    ∨ ¬ SizeAccepted ufs.geometryDesc (luConf.unit lun)
      (unitSizes ufs.configDesc) lun)
  ∨ ufs.attributes .bootlunen = 0 ∨ UncheckedRight high luConf ufs

/-- The comparisons alone. -/
theorem checkHost_sound_iff (high : U32) (ufs : UfsHost) :
    (checkHost luConf ufs = true → Verified high luConf ufs)
      ↔ NotMisleading high luConf ufs := by
  have hhost := checkHost_iff luConf ufs
  constructor
  · intro hsound
    by_cases hcheck : checkHost luConf ufs = true
    · have hver := hsound hcheck
      refine Or.inr (Or.inr ⟨hver.header, fun lun hcap => ?_, hver.rest⟩)
      have hsize := ((hhost.mp hcheck).1 lun).2
      unfold SizeAccepted at hsize
      rw [if_neg hcap] at hsize
      rw [← expectedUnits_exact_iff, ← hsize]
      exact hver.size lun hcap
    · by_cases hboot : ufs.attributes .bootlunen = 0
      · exact Or.inr (Or.inl hboot)
      · have hnot : ¬ ∀ lun,
            SameSettings (luConf.unit lun) (ufs.configDesc.unit lun)
            ∧ SizeAccepted ufs.geometryDesc (luConf.unit lun)
              (unitSizes ufs.configDesc) lun :=
          fun hall => hcheck (hhost.mpr ⟨hall, hboot⟩)
        obtain ⟨lun, hlun⟩ := not_forall.mp hnot
        exact Or.inl ⟨lun, not_and_or.mp hlun⟩
  · intro hcases hcheck
    obtain ⟨hall, hboot⟩ := hhost.mp hcheck
    rcases hcases with ⟨lun, hset | hsize⟩ | hzero | hright
    · exact absurd (hall lun).1 hset
    · exact absurd (hall lun).2 hsize
    · exact absurd hzero hboot
    · refine ⟨hright.header, fun lun => (hall lun).1, fun lun hcap => ?_,
        hright.rest, hboot⟩
      have hsize := (hall lun).2
      unfold SizeAccepted at hsize
      rw [if_neg hcap] at hsize
      rw [hsize, expectedUnits_exact_iff]
      exact hright.exact lun hcap

-- ======================================================= the main result

/-- For every device, every report, every high word of the capacity and
every pattern of failures: a RET_SUCCESS is true exactly when, in case all
queries succeed, the report does not mislead the comparisons, and else
RET_SUCCESS is not the 0 that a failed query returns. -/
theorem ufsCheckConfigDesc_sound_iff (codes : ProvisionCodes)
    (query : Query E) (luConf : UfsConfigDesc) (high : U32)
    (w : World E) :
    ((ufsCheckConfigDesc codes query luConf w).1 = codes.retSuccess →
      QueriesSucceed query w ∧ Verified high luConf (checkedHost query w))
    ↔ if QueriesSucceed query w then
        NotMisleading high luConf (checkedHost query w)
      else codes.retSuccess ≠ 0 := by
  rw [ufsCheckConfigDesc_fst, ← checkHost_sound_iff high]
  by_cases hqueries : QueriesSucceed query w
  · rw [if_pos hqueries, if_pos hqueries]
    by_cases hcheck : checkHost luConf (checkedHost query w) = true
    · rw [if_pos hcheck]
      exact ⟨fun hsound _ => (hsound rfl).2,
        fun hsound _ => ⟨hqueries, hsound hcheck⟩⟩
    · rw [if_neg hcheck]
      exact ⟨fun _ hcon => absurd hcon hcheck,
        fun _ hcon => absurd hcon.symm codes.distinct⟩
  · rw [if_neg hqueries, if_neg hqueries]
    exact ⟨fun hsound hcon => hqueries (hsound hcon.symm).1,
      fun hne hcon => absurd hcon.symm hne⟩

-- ================================================= a header that differs

/-- The device reports the wanted layout, but booting is not enabled in
the header. -/
def unbootableHost : UfsHost :=
  let unit := fun lun => { oneUnitConf.unit lun with
    dNumAllocUnits := if lun = 0 then swab32 32 else 0 }
  { blankHost with
    configDesc :=
      { header := { oneUnitConf.header with bBootEnable := 0 }, unit }
    geometryDesc := smallGeometry
    attributes := fun _ => 1 }

theorem ufsCheckConfigDesc_ignores_header :
    let query : Query Unit := fun _ _ w => (0, w)
    let w : World Unit := ⟨unbootableHost, ()⟩
    (ufsCheckConfigDesc sampleCodes query oneUnitConf w).1
        = sampleCodes.retSuccess
      ∧ ∀ high, ¬ Verified high oneUnitConf (checkedHost query w) := by
  refine ⟨by decide +kernel, fun high hver => ?_⟩
  have hboot : (0 : U8) = 1 :=
    congrArg UfsConfigDescHeader.bBootEnable hver.header
  exact absurd hboot (by decide)

-- ==================================================== an overfull device

/-- Two segments to a unit, so 128 units; the device reports 240 for the
user unit and 16 for unit 1, which are all that `totalUnits` counts. -/
def overfullHost : UfsHost :=
  let unit := fun lun => { userUnitConf.unit lun with
    dNumAllocUnits :=
      if lun = 0 then swab32 240 else if lun = 1 then swab32 16 else 0 }
  { blankHost with
    configDesc := { header := userUnitConf.header, unit }
    geometryDesc := pairedGeometry
    attributes := fun _ => 1 }

example : checkHost userUnitConf overfullHost = true
    ∧ ¬ NotMisleading 0 userUnitConf overfullHost := by
  have hcheck : checkHost userUnitConf overfullHost = true := by
    decide +kernel
  refine ⟨hcheck, fun hcond => ?_⟩
  have hver := (checkHost_sound_iff 0 overfullHost).mpr hcond hcheck
  have hrest := hver.rest 0 (by decide) (by decide)
  unfold IsRest at hrest
  revert hrest
  decide +kernel

end Edk2Exynos.Ufs
