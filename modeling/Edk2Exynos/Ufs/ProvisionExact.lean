/-
The capacities of provisioning, in integers: what the sizes of units and
the total are when nothing wraps around.

# The adjustment factor

`wEnhanced1CapAdjFac` is a big-endian number of 256ths.
`ufs_check_available_blocks` takes it as `be16_to_cpu(...) / 256`, so as
its whole part (`capAdjFactor`), and that is what the exact size of a boot
unit is scaled by. The driver's other two formulas take the field as it
lies in memory. The whole part is the byte that is low there
(`capAdjFactor_eq`), so they agree where there is no fraction.

# The total

The capacity of the device is a number of 512-byte sectors with 64 bits,
of which the host keeps the low word. `ufs_check_available_blocks` divides
it by the segments in an allocation unit and the sectors in a segment, and
so does `deviceUnits`, with all 64 bits; `totalUnits` goes without the
segments.
-/
import Edk2Exynos.Ufs.Provision
import Mathlib.Algebra.Order.Floor.Div

namespace Edk2Exynos.Ufs

open Lib

-- =============================================================== rounding

/-- Rounding up does nothing to an exact quotient. -/
theorem ceilDiv_of_dvd {n d : Nat} (hd : 0 < d) (h : d ∣ n) :
    n ⌈/⌉ d = n / d := by
  obtain ⟨k, rfl⟩ := h
  rw [Nat.ceilDiv_eq_add_pred_div, Nat.mul_div_cancel_left k hd,
    Nat.add_sub_assoc hd, Nat.mul_add_div hd,
    Nat.div_eq_of_lt (Nat.sub_lt hd Nat.one_pos), Nat.add_zero]

/-- A quotient with a rest goes up by one. -/
theorem ceilDiv_of_not_dvd {n d : Nat} (hd : 0 < d) (h : ¬ d ∣ n) :
    n ⌈/⌉ d = n / d + 1 := by
  have hmod : 0 < n % d :=
    Nat.pos_of_ne_zero fun hz => h (Nat.dvd_of_mod_eq_zero hz)
  have hsplit := Nat.div_add_mod n d
  have hlt := Nat.mod_lt n hd
  have hnext : d * (n / d + 1) = d * (n / d) + d := Nat.mul_succ d (n / d)
  have hsum : n + d - 1 = d * (n / d + 1) + (n % d - 1) := by omega
  have hrest : (n % d - 1) / d = 0 := Nat.div_eq_of_lt (by omega)
  rw [Nat.ceilDiv_eq_add_pred_div, hsum, Nat.mul_add_div hd, hrest,
    Nat.add_zero]

-- ============================================================= the device

/-- `qTotalRawDeviceCapacity`: the word the host's descriptor goes
without, and the one it has. -/
def rawCapacity (high : U32) (geometry : UfsGeometryDesc) : Nat :=
  2 ^ 32 * (swab32 high).toNat
    + (swab32 geometry.qTotalRawDeviceCapacityL).toNat

/-- `bAllocationUnitSize` times `dSegmentSize`, in sectors. -/
def allocUnitSectors (geometry : UfsGeometryDesc) : Nat :=
  geometry.bAllocationUnitSize.toNat * (swab32 geometry.dSegmentSize).toNat

/-- The allocation units of the device. -/
def deviceUnits (high : U32) (geometry : UfsGeometryDesc) : Nat :=
  rawCapacity high geometry / allocUnitSectors geometry

/-- The sectors of an allocation unit, as the driver has them. -/
theorem allocUnitSize_toNat (geometry : UfsGeometryDesc) :
    (allocUnitSize geometry).toNat
      = allocUnitSectors geometry % 2 ^ 32 := by
  unfold allocUnitSize allocUnitSectors
  rw [BitVec.toNat_mul, BitVec.toNat_setWidth_of_le (by decide)]

-- ============================================================== the units

/-- `be16_to_cpu` -/
def be16ToCpu (x : U16) : U16 := x.extractLsb' 0 8 ++ x.extractLsb' 8 8

/-- The whole part of the adjustment factor of boot units. -/
def capAdjFactor (geometry : UfsGeometryDesc) : Nat :=
  (be16ToCpu geometry.wEnhanced1CapAdjFac).toNat / 256

/-- `2048 * capacity`, in integers. -/
def exactSectors (capacity : U32) : Nat := 2048 * capacity.toNat

/-- The allocation units a capacity takes, in integers. -/
def exactUnits (geometry : UfsGeometryDesc) (capacity : U32) : Nat :=
  exactSectors capacity ⌈/⌉ allocUnitSectors geometry

/-- Those it takes in a boot unit. -/
def exactBootUnits (geometry : UfsGeometryDesc) (capacity : U32) : Nat :=
  exactSectors capacity * capAdjFactor geometry / allocUnitSectors geometry

/-- The size the capacity of a unit requires. -/
def requiredUnits (geometry : UfsGeometryDesc) (conf : UfsUnitDescParam) :
    Nat :=
  if conf.bMemoryType > 0 then exactBootUnits geometry conf.dNumAllocUnits
  else exactUnits geometry conf.dNumAllocUnits

/-- The whole part of the factor is the low byte of the field as the
driver has it. -/
theorem capAdjFactor_eq (geometry : UfsGeometryDesc) :
    capAdjFactor geometry = geometry.wEnhanced1CapAdjFac.toNat % 256 := by
  have hlow : (geometry.wEnhanced1CapAdjFac.extractLsb' 0 8).toNat
      = geometry.wEnhanced1CapAdjFac.toNat % 256 := by
    rw [BitVec.extractLsb'_toNat, Nat.shiftRight_zero]
  have hhigh :=
    (geometry.wEnhanced1CapAdjFac.extractLsb' 8 8).isLt
  unfold capAdjFactor be16ToCpu
  rw [BitVec.toNat_append, hlow, ← Nat.shiftLeft_add_eq_or_of_lt hhigh,
    Nat.shiftLeft_eq]
  omega

/-- The sectors of a capacity, as the driver has them, -/
theorem capacitySectors_toNat (capacity : U32) :
    (capacitySectors capacity).toNat = exactSectors capacity % 2 ^ 32 := by
  unfold capacitySectors exactSectors
  rw [BitVec.toNat_mul]
  rfl

/-- and those of a boot unit. -/
theorem bootSectors_toNat (geometry : UfsGeometryDesc) (capacity : U32) :
    (bootSectors geometry capacity).toNat
      = exactSectors capacity * geometry.wEnhanced1CapAdjFac.toNat
        % 2 ^ 32 := by
  have hsectors := capacitySectors_toNat capacity
  unfold capacitySectors at hsectors
  unfold bootSectors
  rw [BitVec.toNat_mul, hsectors, BitVec.toNat_setWidth_of_le (by decide),
    Nat.mod_mul_mod]

end Edk2Exynos.Ufs
