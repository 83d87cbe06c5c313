/-
How much of the device the edited configuration gives away.

# Two totals

The 64-bit capacity of the device, divided by the sectors of an allocation
unit, is the number of allocation units there are (`deviceUnits`). The
edit takes the low word of the capacity and divides it by the sectors of a
segment only (`totalUnits`); a comment at `ufs_check_available_blocks` has
both divisions.

# The sum

Unit 0 is edited last and gets what `totalUnits` leaves after all others,
in 32 bits. So the sizes of all units add up to `totalUnits`, modulo
2^32, whatever they are; `editUnits_fills_device_iff` is when that is
what the device has.
-/
import Edk2Exynos.Ufs.ProvisionUnits

namespace Edk2Exynos.Ufs

open Lib

variable {E : Type}

-- ============================================================= what fits

/-- The allocation units a configuration gives away. -/
def givenUnits (desc : UfsConfigDesc) : Nat :=
  ∑ i, (unitSizes desc i).toNat

/-- The units given away fit the device, and less than one is left. -/
def FillsDevice (high : U32) (geometry : UfsGeometryDesc)
    (desc : UfsConfigDesc) : Prop :=
  givenUnits desc * allocUnitSectors geometry ≤ rawCapacity high geometry
    ∧ rawCapacity high geometry
        - givenUnits desc * allocUnitSectors geometry
      < allocUnitSectors geometry

/-- The size the edit gives to a unit. -/
def plannedSize (luConf : UfsConfigDesc) (geometry : UfsGeometryDesc)
    (old : Fin 8 → U32) (lun : Fin 8) : U32 :=
  let conf := luConf.unit lun
  if conf.dNumAllocUnits ≠ 0 then writtenUnits geometry conf
  else if conf.bLUEnable ≠ 0 then
    totalUnits geometry
      - (headSum old lun + sharedFrom luConf geometry old (lun + 1))
  else 0

/-- The allocation units of all units but unit 0. -/
def otherUnits (luConf : UfsConfigDesc) (geometry : UfsGeometryDesc)
    (old : Fin 8 → U32) : Nat :=
  tailSum (fun i => (plannedSize luConf geometry old i).toNat) 1

-- =============================================================== the sums

theorem toNat_sum_mod {w : Nat} {ι : Type} (s : Finset ι)
    (f : ι → BitVec w) :
    (∑ i ∈ s, f i).toNat = (∑ i ∈ s, (f i).toNat) % 2 ^ w := by
  induction s using Finset.cons_induction with
  | empty => simp
  | cons a s ha ih =>
      rw [Finset.sum_cons, Finset.sum_cons, BitVec.toNat_add, ih,
        Nat.add_mod_mod]

/-- A number of units fills the device if it is the quotient. -/
theorem fillsDevice_iff {high : U32} {geometry : UfsGeometryDesc}
    (hpos : 0 < allocUnitSectors geometry) (desc : UfsConfigDesc) :
    FillsDevice high geometry desc
      ↔ givenUnits desc = deviceUnits high geometry := by
  unfold FillsDevice deviceUnits
  generalize givenUnits desc = n
  generalize rawCapacity high geometry = cap
  generalize allocUnitSectors geometry = unit at hpos ⊢
  rw [eq_comm, Nat.div_eq_iff hpos]
  constructor
  · rintro ⟨hle, hlt⟩
    omega
  · rintro ⟨hle, hlt⟩
    omega

section Sizes

variable {luConf : UfsConfigDesc} {geometry : UfsGeometryDesc}

theorem unitSizes_editedDesc (old : UfsConfigDesc) (lun : Fin 8) :
    unitSizes (editedDesc luConf geometry 8 (Nat.le_refl 8) old) lun
      = plannedSize luConf geometry (unitSizes old) lun := by
  have hsize := editedDesc_sizes luConf geometry 8 (Nat.le_refl 8) old lun
    lun.isLt
  rw [tailSum_editedDesc old (lun + 1) lun.isLt] at hsize
  exact hsize

/-- Unit 0 gets what the total leaves after the others. -/
theorem unitSizes_user {old : UfsConfigDesc}
    (hcap : (luConf.unit 0).dNumAllocUnits = 0)
    (hen : (luConf.unit 0).bLUEnable ≠ 0) :
    unitSizes (editedDesc luConf geometry 8 (Nat.le_refl 8) old) 0
      = totalUnits geometry - BitVec.ofNat 32
          (otherUnits luConf geometry (unitSizes old)) := by
  have hsize := editedDesc_sizes luConf geometry 8 (Nat.le_refl 8) old 0
    (by decide)
  have hhead : headSum (unitSizes old) (0 : Fin 8).val = 0 :=
    headSum_zero _
  have htail : tailSum (unitSizes (editedDesc luConf geometry 8
      (Nat.le_refl 8) old)) ((0 : Fin 8).val + 1)
      = BitVec.ofNat 32 (otherUnits luConf geometry (unitSizes old)) := by
    apply BitVec.eq_of_toNat_eq
    unfold otherUnits tailSum
    rw [toNat_sum_mod, BitVec.toNat_ofNat]
    congr 1
    refine Finset.sum_congr rfl fun i _ => ?_
    rw [unitSizes_editedDesc]
  rw [if_neg (not_not.mpr hcap), if_pos hen, hhead, htail, zero_add]
    at hsize
  exact hsize

/-- What is given away: unit 0 and the others. -/
theorem givenUnits_editedDesc (old : UfsConfigDesc) :
    givenUnits (editedDesc luConf geometry 8 (Nat.le_refl 8) old)
      = (unitSizes (editedDesc luConf geometry 8 (Nat.le_refl 8) old)
          0).toNat
        + otherUnits luConf geometry (unitSizes old) := by
  have htail : tailSum (fun i => (unitSizes (editedDesc luConf geometry 8
      (Nat.le_refl 8) old) i).toNat) 1
      = otherUnits luConf geometry (unitSizes old) := by
    refine tailSum_congr fun i _ => ?_
    rw [unitSizes_editedDesc]
  rw [← htail]
  exact sum_eq_first_add_tailSum _

end Sizes

/-- For a layout whose unit 0 is enabled and has no capacity of its own:
the edits fill the device exactly when the other units fit, the rest has
a 32-bit size, and the device's number of units is, modulo 2^32, what the
edit computes without `bAllocationUnitSize` and the high word. -/
theorem editUnits_fills_device_iff (query : Query E)
    (luConf : UfsConfigDesc) (geometry : UfsGeometryDesc) (high : U32)
    (w : World E) (hq : ReportsGeometry query geometry)
    (hunit : geometry.bAllocationUnitSize ≠ 0)
    (hseg : geometry.dSegmentSize ≠ 0)
    (hcap : (luConf.unit 0).dNumAllocUnits = 0)
    (hen : (luConf.unit 0).bLUEnable ≠ 0) :
    let others := otherUnits luConf geometry (unitSizes w.ufs.configDesc)
    FillsDevice high geometry
        (editUnits query luConf 0 8 (Nat.le_refl 8) w).2.ufs.configDesc
      ↔ others ≤ deviceUnits high geometry
        ∧ deviceUnits high geometry - others < 2 ^ 32
        ∧ deviceUnits high geometry % 2 ^ 32
          = (totalUnits geometry).toNat := by
  intro others
  have hpos : 0 < allocUnitSectors geometry := by
    apply Nat.mul_pos
    · exact Nat.pos_of_ne_zero fun h => hunit (BitVec.eq_of_toNat_eq h)
    · refine Nat.pos_of_ne_zero fun h => hseg ?_
      have hzero : swab32 geometry.dSegmentSize = 0 :=
        BitVec.eq_of_toNat_eq h
      rw [← byteSwap_byteSwap geometry.dSegmentSize]
      exact congrArg byteSwap hzero
  have ht := (totalUnits geometry).isLt
  have hdesc := hq.editUnits luConf 8 (Nat.le_refl 8) w
  have huser : (unitSizes (editedDesc luConf geometry 8 (Nat.le_refl 8)
      w.ufs.configDesc) 0).toNat
      = ((totalUnits geometry).toNat + (2 ^ 32 - others % 2 ^ 32))
        % 2 ^ 32 := by
    rw [unitSizes_user hcap hen, BitVec.toNat_sub, BitVec.toNat_ofNat]
    omega
  rw [hdesc, fillsDevice_iff hpos, givenUnits_editedDesc, huser]
  show _ + others = _ ↔ _
  omega

-- ========================================================== a small case

/-- A device that reports a geometry and does nothing else. -/
def geometryDevice (geometry : UfsGeometryDesc) : Query Unit :=
  fun qry _ w =>
    match qry with
    | .descRGeometryDesc =>
        (0, { w with ufs := { w.ufs with geometryDesc := geometry } })
    | _ => (0, w)

theorem geometryDevice_reports (geometry : UfsGeometryDesc) :
    ReportsGeometry (geometryDevice geometry) geometry :=
  ⟨fun _ _ => rfl, fun _ _ => rfl, fun _ _ => rfl, fun _ _ => rfl,
    fun _ _ => rfl⟩

theorem editUnits_fills_device_iff_small :
    FillsDevice 0 smallGeometry
      (editUnits (geometryDevice smallGeometry) userUnitConf 0 8
        (Nat.le_refl 8) ⟨blankHost, ()⟩).2.ufs.configDesc :=
  (editUnits_fills_device_iff (geometryDevice smallGeometry) userUnitConf
    smallGeometry 0 ⟨blankHost, ()⟩ (geometryDevice_reports _) (by decide)
    (by decide) rfl (by decide)).mpr (by decide +kernel)

/-- With two segments to a unit, 256 units are given away of the 128 the
device has. -/
theorem editUnits_overfills_device :
    ¬ ∀ (E : Type) (query : Query E) (luConf : UfsConfigDesc)
      (geometry : UfsGeometryDesc) (high : U32) (w : World E),
      ReportsGeometry query geometry →
      geometry.bAllocationUnitSize ≠ 0 → geometry.dSegmentSize ≠ 0 →
      (luConf.unit 0).dNumAllocUnits = 0 → (luConf.unit 0).bLUEnable ≠ 0 →
      otherUnits luConf geometry (unitSizes w.ufs.configDesc)
        ≤ deviceUnits high geometry →
      FillsDevice high geometry
        (editUnits query luConf 0 8 (Nat.le_refl 8) w).2.ufs.configDesc := by
  intro hall
  have hfills := hall Unit (geometryDevice pairedGeometry) userUnitConf
    pairedGeometry 0 ⟨blankHost, ()⟩ (geometryDevice_reports _) (by decide)
    (by decide) rfl (by decide) (by decide +kernel)
  exact absurd hfills.1 (by decide +kernel)

end Edk2Exynos.Ufs
