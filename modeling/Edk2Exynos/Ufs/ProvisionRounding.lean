/-
The size `ufs_edit_config_desc` gives to a unit with a capacity, against
the exact one (ufs.c).

# The exact size

The sectors of the capacity, divided by the sectors of an allocation unit
and rounded up, all in integers (`exactUnits`).

# Three things that wrap

The product of sectors, the product of the divisor and the increment that
rounds up are 32-bit. The increment is made in the byte order of the
device, so it wraps with the low byte of the quotient and not with the
word (`editedUnits_toNat`); `ufs_check_config_desc` makes the same
increment in the byte order of the host. `unitsRight_iff` is when the
written size is the exact one all the same, and `unitsRight_iff_small` what
is left of that when neither product wraps.
-/
import Edk2Exynos.Ufs.ProvisionCapacity

namespace Edk2Exynos.Ufs

open Lib

variable {E : Type}

-- ============================================================== the edit

/-- The size written for a unit of its own capacity that is no boot unit,
as the device reads it. -/
def editedUnits (geometry : UfsGeometryDesc) (desc : UfsConfigDesc)
    (enable capacity : U32) : Nat :=
  (swab32 (editAllocUnits geometry desc enable 0 capacity)).toNat

/-- The quotient of the wrapped products, and with a rest the increment,
which takes the low byte from 255 to 0. -/
theorem editedUnits_toNat (geometry : UfsGeometryDesc)
    (desc : UfsConfigDesc) (enable : U32) {capacity : U32}
    (hcap : capacity ≠ 0) :
    let n := exactSectors capacity % 2 ^ 32
    let d := allocUnitSectors geometry % 2 ^ 32
    editedUnits geometry desc enable capacity
      = if d ∣ n then n / d
        else if n / d % 256 = 255 then n / d - 255
        else n / d + 1 := by
  intro n d
  have hn := capacitySectors_toNat capacity
  have hd := allocUnitSize_toNat geometry
  have hquot : (capacitySectors capacity / allocUnitSize geometry).toNat
      = n / d := by
    rw [BitVec.toNat_udiv, hn, hd]
  have hrest : capacitySectors capacity % allocUnitSize geometry ≠ 0
      ↔ ¬ d ∣ n := by
    rw [ne_eq, ← BitVec.toNat_inj, BitVec.toNat_umod, hn, hd,
      Nat.dvd_iff_mod_eq_zero]
    rfl
  unfold editedUnits editAllocUnits
  rw [if_pos hcap, if_neg (not_not.mpr rfl)]
  dsimp only
  by_cases hdvd : d ∣ n
  · rw [if_pos hdvd, if_neg fun h => hrest.mp h hdvd]
    exact (congrArg BitVec.toNat (byteSwap_byteSwap _)).trans hquot
  · rw [if_neg hdvd, if_pos (hrest.mpr hdvd), byteSwap_add_one_toNat,
      hquot]

-- ========================================================= the exact size

/-- The divisor is not 0 in 32 bits, and one of these: the wrapped
products have a quotient that rounds up to the exact size, and it is
exact or its low byte is not 255; or it is not, its low byte is 255, and
the exact size is 255 below it. -/
structure UnitsRight (geometry : UfsGeometryDesc) (capacity : U32) :
    Prop where
  divisor : allocUnitSectors geometry % 2 ^ 32 ≠ 0
  size : let n := exactSectors capacity % 2 ^ 32
    let d := allocUnitSectors geometry % 2 ^ 32
    (n ⌈/⌉ d = exactUnits geometry capacity
        ∧ (d ∣ n ∨ n / d % 256 ≠ 255))
      ∨ (¬ d ∣ n ∧ n / d % 256 = 255
        ∧ n / d = exactUnits geometry capacity + 255)

/-- The division of the edit is defined, and its size is the exact one. -/
def EditsExactly (geometry : UfsGeometryDesc) (desc : UfsConfigDesc)
    (enable capacity : U32) : Prop :=
  allocUnitSize geometry ≠ 0
    ∧ editedUnits geometry desc enable capacity
      = exactUnits geometry capacity

theorem allocUnitSize_eq_zero_iff (geometry : UfsGeometryDesc) :
    allocUnitSize geometry = 0 ↔ allocUnitSectors geometry % 2 ^ 32 = 0 := by
  rw [← BitVec.toNat_inj, allocUnitSize_toNat]
  rfl

theorem unitsRight_iff (geometry : UfsGeometryDesc) (desc : UfsConfigDesc)
    (enable capacity : U32) (hcap : capacity ≠ 0) :
    EditsExactly geometry desc enable capacity
      ↔ UnitsRight geometry capacity := by
  have hsize := editedUnits_toNat geometry desc enable hcap
  have hzero := allocUnitSize_eq_zero_iff geometry
  dsimp only at hsize
  constructor
  · rintro ⟨hdiv, hexact⟩
    have hd : allocUnitSectors geometry % 2 ^ 32 ≠ 0 :=
      fun h => hdiv (hzero.mpr h)
    rw [hsize] at hexact
    refine ⟨hd, ?_⟩
    dsimp only
    by_cases hdvd : allocUnitSectors geometry % 2 ^ 32
        ∣ exactSectors capacity % 2 ^ 32
    · rw [if_pos hdvd] at hexact
      left
      rw [ceilDiv_of_dvd (Nat.pos_of_ne_zero hd) hdvd]
      exact ⟨hexact, Or.inl hdvd⟩
    · rw [if_neg hdvd] at hexact
      rw [ceilDiv_of_not_dvd (Nat.pos_of_ne_zero hd) hdvd]
      split at hexact
      · next hlow =>
        right
        have hle := Nat.mod_le (exactSectors capacity % 2 ^ 32
          / (allocUnitSectors geometry % 2 ^ 32)) 256
        rw [hlow] at hle
        exact ⟨hdvd, hlow, (Nat.sub_eq_iff_eq_add hle).mp hexact⟩
      · next hlow =>
        left
        exact ⟨hexact, Or.inr hlow⟩
  · rintro ⟨hd, hright⟩
    refine ⟨fun h => hd (hzero.mp h), ?_⟩
    rw [hsize]
    dsimp only at hright
    by_cases hdvd : allocUnitSectors geometry % 2 ^ 32
        ∣ exactSectors capacity % 2 ^ 32
    · rw [ceilDiv_of_dvd (Nat.pos_of_ne_zero hd) hdvd] at hright
      rw [if_pos hdvd]
      rcases hright with ⟨hexact, -⟩ | ⟨hno, -, -⟩
      · exact hexact
      · exact absurd hdvd hno
    · rw [ceilDiv_of_not_dvd (Nat.pos_of_ne_zero hd) hdvd] at hright
      rw [if_neg hdvd]
      rcases hright with ⟨hexact, hlow⟩ | ⟨-, hlow, hexact⟩
      · rw [if_neg (hlow.resolve_left hdvd)]
        exact hexact
      · rw [if_pos hlow, hexact, Nat.add_sub_cancel]

/-- When neither product wraps, only the carry of the low byte is left. -/
theorem unitsRight_iff_small (geometry : UfsGeometryDesc) (capacity : U32)
    (hsize : allocUnitSectors geometry ≠ 0)
    (hn : exactSectors capacity < 2 ^ 32)
    (hd : allocUnitSectors geometry < 2 ^ 32) :
    UnitsRight geometry capacity
      ↔ (allocUnitSectors geometry ∣ exactSectors capacity
        ∨ exactSectors capacity / allocUnitSectors geometry % 256 ≠ 255) := by
  have hn' := Nat.mod_eq_of_lt hn
  have hd' := Nat.mod_eq_of_lt hd
  constructor
  · rintro ⟨-, hright⟩
    dsimp only at hright
    rw [hn', hd'] at hright
    rcases hright with ⟨-, hlow⟩ | ⟨hdvd, hlow, hexact⟩
    · exact hlow
    · unfold exactUnits at hexact
      rw [ceilDiv_of_not_dvd (Nat.pos_of_ne_zero hsize) hdvd] at hexact
      omega
  · intro hlow
    refine ⟨?_, ?_⟩
    · rw [hd']
      exact hsize
    · dsimp only
      rw [hn', hd']
      exact Or.inl ⟨rfl, hlow⟩

-- ================================================== against the device

/-- Reading the device descriptor, the first query of the edit. -/
def editDeviceRead (query : Query E) (w : World E) : Int × World E :=
  query .descRDeviceDesc 1 (w.setLun 0)

/-- Reading the geometry, the second one. -/
def editGeometryRead (query : Query E) (w : World E) : Int × World E :=
  query .descRGeometryDesc 1 (editDeviceRead query w).2

/-- The geometry the edit works with. -/
def editGeometry (query : Query E) (w : World E) : UfsGeometryDesc :=
  (editGeometryRead query w).2.ufs.geometryDesc

section

variable (query : Query E) (luConf : UfsConfigDesc) (lun : Fin 8)
  (enable writeprotect type capacity : U32) (w : World E)

/-- The size that `ufs_edit_config_desc` leaves for a unit that is no boot
unit, as the device reads it. -/
def storedUnits : Nat :=
  (unitSizes (ufsEditConfigDesc query luConf lun enable 0 writeprotect type
    capacity w).ufs.configDesc lun).toNat

theorem storedUnits_eq (hdevice : (editDeviceRead query w).1 = 0)
    (hgeometry : (editGeometryRead query w).1 = 0) :
    ∃ desc, storedUnits query luConf lun enable writeprotect type capacity w
      = editedUnits (editGeometry query w) desc enable capacity := by
  unfold editGeometryRead editDeviceRead at hgeometry
  unfold editDeviceRead at hdevice
  unfold storedUnits ufsEditConfigDesc unitSizes
  dsimp only
  rw [if_neg (not_not.mpr hdevice), if_neg (not_not.mpr hgeometry)]
  unfold World.setConfigDesc editConfigDesc
  dsimp only
  rw [setUnit_self]
  exact ⟨_, rfl⟩

/-- For every capacity above 0 of a unit that is no boot unit, and every
geometry the device reports with a unit of at least one sector: the size
stored is the exact one, and its division defined, exactly in the case
`UnitsRight`. -/
theorem ufsEditConfigDesc_units_iff
    (hdevice : (editDeviceRead query w).1 = 0)
    (hgeometry : (editGeometryRead query w).1 = 0)
    (hcap : capacity ≠ 0) :
    (allocUnitSize (editGeometry query w) ≠ 0
        ∧ storedUnits query luConf lun enable writeprotect type capacity w
          = exactUnits (editGeometry query w) capacity)
      ↔ UnitsRight (editGeometry query w) capacity := by
  obtain ⟨desc, hdesc⟩ := storedUnits_eq query luConf lun enable
    writeprotect type capacity w hdevice hgeometry
  rw [hdesc]
  exact unitsRight_iff (editGeometry query w) desc enable capacity hcap

end

/-- 511 MiB in units of 2 MiB: the quotient 255 is rounded up to 0. -/
theorem ufsEditConfigDesc_lost_carry :
    ¬ ∀ (E : Type) (query : Query E) (luConf : UfsConfigDesc) (lun : Fin 8)
      (enable writeprotect type capacity : U32) (w : World E),
      (editDeviceRead query w).1 = 0 → (editGeometryRead query w).1 = 0 →
      capacity ≠ 0 → (editGeometry query w).bAllocationUnitSize ≠ 0 →
      (editGeometry query w).dSegmentSize ≠ 0 →
      exactUnits (editGeometry query w) capacity < 2 ^ 32 →
      storedUnits query luConf lun enable writeprotect type capacity w
        = exactUnits (editGeometry query w) capacity := by
  intro hall
  have hsize : exactUnits smallGeometry 511 = 256 := by
    unfold exactUnits
    rw [ceilDiv_of_not_dvd (by decide) (by decide)]
    decide
  have hstored := hall Unit (geometryDevice smallGeometry) userUnitConf 1 1
    0 0 511 ⟨blankHost, ()⟩ rfl rfl (by decide) (by decide) (by decide)
    (hsize.trans_lt (by decide))
  obtain ⟨desc, hdesc⟩ := storedUnits_eq (geometryDevice smallGeometry)
    userUnitConf 1 1 0 0 511 ⟨blankHost, ()⟩ rfl rfl
  rw [hdesc] at hstored
  have hright := (unitsRight_iff smallGeometry desc 1 511
    (by decide)).mp ⟨by decide, hstored⟩
  have hlow := (unitsRight_iff_small smallGeometry 511 (by decide)
    (by decide) (by decide)).mp hright
  revert hlow
  decide

/-- 3 MiB take two units. -/
theorem ufsEditConfigDesc_units_two :
    storedUnits (geometryDevice smallGeometry) userUnitConf 1 1 0 0 3
        ⟨blankHost, ()⟩
      = exactUnits smallGeometry 3 := by
  have hright := (unitsRight_iff_small smallGeometry 3 (by decide)
    (by decide) (by decide)).mpr (Or.inr (by decide))
  exact ((ufsEditConfigDesc_units_iff (geometryDevice smallGeometry)
    userUnitConf 1 1 0 0 3 ⟨blankHost, ()⟩ rfl rfl (by decide)).mpr
    hright).2

end Edk2Exynos.Ufs
