/-
The search for the boot LUN (ufs.c, `ufs_identify_bootlun`), by which
`ufs_init` checks that boot LUs exist.

# The query table

A unit descriptor is asked for by the index that the function writes into
`ufs_query_params[DESC_R_UNIT_DESC]` before each query. The table is
static, so the entry is part of what a query meets: the environment of a
query holds it beside the device.

# What the search is worth

The function compares every unit descriptor with the attribute and prints
a line for each that matches, but its result is that of the last query
alone. `BootLunExists` is what the caller takes a 0 to mean; the function
is right about it exactly when it has another reason to fail, or when a
unit matches (`ufsIdentifyBootlun_iff`).
-/
import Edk2Exynos.Ufs.BusQuery

namespace Edk2Exynos.Ufs

open Lib

variable {E : Type}

-- ============================================================= the table

/-- `ufs_query_params[DESC_R_UNIT_DESC][3]`, the one entry that changes. -/
structure QueryTable where
  unitIndex : U8

/-- A host with the query table and the rest of the world. -/
abbrev TableWorld (E : Type) := World (QueryTable × E)

/-- `ufs_query_params[DESC_R_UNIT_DESC][3] = i` -/
def World.setUnitIndex (i : Nat) (w : TableWorld E) : TableWorld E :=
  { w with env := (⟨BitVec.ofNat 8 i⟩, w.env.2) }

/-- `bBootLunID` of a unit descriptor; `offset` is from the
missing header. -/
def unitBootLunId (offset : Nat) (i : Nat) (w : TableWorld E) : U8 :=
  w.ufs.unitDesc (BitVec.ofNat 8 i) offset

-- ============================================================ the search

/-- What the function returns and prints: `reported` are the LUNs of its
lines "Boot LUN is #%d". -/
structure BootlunScan (E : Type) where
  res : Int
  reported : List Nat
  world : TableWorld E

section

variable (query : Query (QueryTable × E)) (offset : Nat)

/-- The query for one unit descriptor. -/
def unitQuery (i : Nat) (w : TableWorld E) : Int × TableWorld E :=
  query .descRUnitDesc (BitVec.ofNat 32 i) (w.setUnitIndex i)

/-- The loop of `ufs_identify_bootlun`, with `n` units to go from unit `i`
on. -/
def identifyUnits (bootLunEn : U32) : Nat → Nat → TableWorld E →
    BootlunScan E
  | 0, _, w => ⟨0, [], w⟩
  | n + 1, i, w =>
      let (res, w) := unitQuery query i w
      if res ≠ 0 then ⟨res, [], w⟩
      else
        let rest := identifyUnits bootLunEn n (i + 1) w
        if bootLunEn = (unitBootLunId offset i w).setWidth 32 then
          { rest with reported := i :: rest.reported }
        else rest

/-- `ufs_identify_bootlun` -/
def ufsIdentifyBootlun (w : TableWorld E) : BootlunScan E :=
  let (res, w) := query .attrRBootlunen 0 w
  if res ≠ 0 then ⟨res, [], w⟩
  else
    let bootLunEn := w.ufs.attributes .bootlunen
    if bootLunEn = 0 then ⟨-1, [], w⟩
    else identifyUnits query offset bootLunEn 8 0 w

-- ======================================================== what it is for

/-- The world after the query for the attribute. -/
def attrWorld (w : TableWorld E) : TableWorld E :=
  (query .attrRBootlunen 0 w).2

/-- The world after the queries for the first `i` units. -/
def unitWorld (w : TableWorld E) (i : Nat) : TableWorld E :=
  (List.range i).foldl (fun w i => (unitQuery query i w).2)
    (attrWorld query w)

/-- The attribute, as it was read. -/
def bootLunEn (w : TableWorld E) : U32 :=
  (attrWorld query w).ufs.attributes .bootlunen

/-- The query for unit `i` succeeds, after those for the units before. -/
def UnitRead (w : TableWorld E) (i : Nat) : Prop :=
  (unitQuery query i (unitWorld query w i)).1 = 0

/-- Unit `i`, as it was read, is the enabled boot unit. -/
def UnitBoots (w : TableWorld E) (i : Nat) : Prop :=
  bootLunEn query w
    = (unitBootLunId offset i (unitWorld query w (i + 1))).setWidth 32

instance (w : TableWorld E) (i : Nat) :
    Decidable (UnitBoots query offset w i) :=
  inferInstanceAs (Decidable (_ = _))

/-- All queries succeed, a boot LUN is enabled, and one of the units that
were read is it. -/
structure BootLunExists (w : TableWorld E) : Prop where
  attrRead : (query .attrRBootlunen 0 w).1 = 0
  unitsRead : ∀ i < 8, UnitRead query w i
  enabled : bootLunEn query w ≠ 0
  boots : ∃ i < 8, UnitBoots query offset w i

-- ============================================================== the loop

theorem unitWorld_succ (w : TableWorld E) (i : Nat) :
    unitWorld query w (i + 1)
      = (unitQuery query i (unitWorld query w i)).2 := by
  unfold unitWorld
  rw [List.range_succ, List.foldl_append, List.foldl_cons, List.foldl_nil]

/-- One turn of the loop. -/
theorem identifyUnits_succ (w : TableWorld E) (n i : Nat) :
    identifyUnits query offset (bootLunEn query w) (n + 1) i
        (unitWorld query w i)
      = if (unitQuery query i (unitWorld query w i)).1 ≠ 0 then
          ⟨(unitQuery query i (unitWorld query w i)).1, [],
            unitWorld query w (i + 1)⟩
        else
          let rest := identifyUnits query offset (bootLunEn query w) n (i + 1)
            (unitWorld query w (i + 1))
          if UnitBoots query offset w i then
            { rest with reported := i :: rest.reported }
          else rest := by
  have hboots : UnitBoots query offset w i ↔ bootLunEn query w
      = (unitBootLunId offset i
        (unitQuery query i (unitWorld query w i)).2).setWidth 32 := by
    unfold UnitBoots
    rw [unitWorld_succ]
  rw [unitWorld_succ]
  dsimp only
  rw [if_congr hboots rfl rfl]
  rfl

/-- The loop from unit `i` on returns 0 exactly when every query does. -/
theorem identifyUnits_res_iff (w : TableWorld E) (n i : Nat) :
    (identifyUnits query offset (bootLunEn query w) n i
        (unitWorld query w i)).res = 0
      ↔ ∀ j < n, UnitRead query w (i + j) := by
  induction n generalizing i with
  | zero => simp [identifyUnits]
  | succ n ih =>
      rw [identifyUnits_succ, Nat.forall_lt_succ_left]
      have hshift : (∀ j < n, UnitRead query w (i + (j + 1)))
          ↔ ∀ j < n, UnitRead query w (i + 1 + j) := by
        simp only [Nat.add_assoc, Nat.add_comm 1]
      rw [hshift, ← ih, Nat.add_zero]
      unfold UnitRead
      by_cases hres : (unitQuery query i (unitWorld query w i)).1 = 0
      · rw [if_neg (not_not.mpr hres)]
        dsimp only
        split
        · exact ⟨fun h => ⟨hres, h⟩, fun h => h.2⟩
        · exact ⟨fun h => ⟨hres, h⟩, fun h => h.2⟩
      · rw [if_pos hres]
        exact ⟨fun h => absurd h hres, fun h => absurd h.1 hres⟩

/-- The lines it prints, when every query succeeds: one for each unit
that boots, in order. -/
theorem identifyUnits_reported {w : TableWorld E} {n i : Nat}
    (h : ∀ j < n, UnitRead query w (i + j)) :
    (identifyUnits query offset (bootLunEn query w) n i
        (unitWorld query w i)).reported
      = (List.range' i n).filter (UnitBoots query offset w) := by
  induction n generalizing i with
  | zero => rfl
  | succ n ih =>
      have hhead : (unitQuery query i (unitWorld query w i)).1 = 0 :=
        h 0 (Nat.succ_pos n)
      have hrest := ih (i := i + 1) fun j hj => by
        have hread := h (j + 1) (Nat.succ_lt_succ hj)
        rwa [Nat.add_comm j 1, ← Nat.add_assoc] at hread
      rw [identifyUnits_succ, if_neg (not_not.mpr hhead),
        List.range'_succ, List.filter_cons]
      dsimp only
      split
      · next hboots =>
          rw [if_pos (decide_eq_true hboots), ← hrest]
      · next hboots =>
          rw [if_neg (by simpa using hboots), ← hrest]

-- ========================================================== the function

theorem ufsIdentifyBootlun_eq (w : TableWorld E) :
    ufsIdentifyBootlun query offset w
      = if (query .attrRBootlunen 0 w).1 ≠ 0 then
          ⟨(query .attrRBootlunen 0 w).1, [], attrWorld query w⟩
        else if bootLunEn query w = 0 then ⟨-1, [], attrWorld query w⟩
        else identifyUnits query offset (bootLunEn query w) 8 0
          (unitWorld query w 0) := rfl

/-- It returns 0 exactly when all queries succeed and the attribute is not
0. -/
theorem ufsIdentifyBootlun_res_iff (w : TableWorld E) :
    (ufsIdentifyBootlun query offset w).res = 0
      ↔ (query .attrRBootlunen 0 w).1 = 0 ∧ bootLunEn query w ≠ 0
        ∧ ∀ i < 8, UnitRead query w i := by
  rw [ufsIdentifyBootlun_eq]
  by_cases hattr : (query .attrRBootlunen 0 w).1 = 0
  · rw [if_neg (not_not.mpr hattr)]
    by_cases hen : bootLunEn query w = 0
    · rw [if_pos hen]
      have hret : (-1 : Int) ≠ 0 := by decide
      exact ⟨fun h => absurd h hret, fun h => absurd hen h.2.1⟩
    · rw [if_neg hen]
      have hloop := identifyUnits_res_iff query offset w 8 0
      simp only [Nat.zero_add] at hloop
      exact hloop.trans ⟨fun h => ⟨hattr, hen, h⟩, fun h => h.2.2⟩
  · rw [if_pos hattr]
    exact ⟨fun h => absurd h hattr, fun h => absurd h.1 hattr⟩

/-- A search that returns 0 has printed the units that boot. -/
theorem ufsIdentifyBootlun_reported {w : TableWorld E}
    (h : (ufsIdentifyBootlun query offset w).res = 0) :
    (ufsIdentifyBootlun query offset w).reported
      = (List.range 8).filter (UnitBoots query offset w) := by
  obtain ⟨hattr, hen, hread⟩ := (ufsIdentifyBootlun_res_iff _ _ _).mp h
  rw [ufsIdentifyBootlun_eq, if_neg (not_not.mpr hattr), if_neg hen,
    List.range_eq_range']
  exact identifyUnits_reported query offset fun j hj => by
    simpa only [Nat.zero_add] using hread j hj

/-- For every device: the function returns 0 exactly when a boot LUN
exists, if and only if a query fails, or no boot LUN is enabled, or one of
the units is the enabled one. -/
theorem ufsIdentifyBootlun_iff (w : TableWorld E) :
    ((ufsIdentifyBootlun query offset w).res = 0
        ↔ BootLunExists query offset w)
      ↔ (query .attrRBootlunen 0 w).1 ≠ 0
        ∨ (∃ i < 8, ¬ UnitRead query w i)
        ∨ bootLunEn query w = 0
        ∨ ∃ i < 8, UnitBoots query offset w i := by
  rw [ufsIdentifyBootlun_res_iff]
  constructor
  · intro h
    by_contra hnone
    simp only [not_or, not_exists, not_and, not_not] at hnone
    obtain ⟨hattr, hread, hen, hboots⟩ := hnone
    obtain ⟨i, hi, hboot⟩ := (h.mp ⟨hattr, hen, hread⟩).boots
    exact hboots i hi hboot
  · rintro (hattr | ⟨i, hi, hread⟩ | hen | hboots)
    · exact ⟨fun h => absurd h.1 hattr, fun h => absurd h.attrRead hattr⟩
    · exact ⟨fun h => absurd (h.2.2 i hi) hread,
        fun h => absurd (h.unitsRead i hi) hread⟩
    · exact ⟨fun h => absurd hen h.2.1, fun h => absurd hen h.enabled⟩
    · exact ⟨fun h => ⟨h.1, h.2.2, h.2.1, hboots⟩,
        fun h => ⟨h.attrRead, h.enabled, h.unitsRead⟩⟩

end

-- ======================================================= no unit matches

/-- With the bytes of an attribute in the order in which they are sent. -/
def sentOrderDevUfs : DevUfs :=
  { sampleDevUfs with
    upiuHeaderDword := fun b₃ b₂ b₁ b₀ => b₃ ++ b₂ ++ b₁ ++ b₀ }

/-- A device whose boot LUN A is enabled and assigned to no unit. -/
def unassignedBus : Bus sentOrderDevUfs (QueryTable × Unit) where
  answer := fun req e =>
    let tsf : Mem := fun k => if k = 11 then 1 else 0
    let data : Mem := fun k =>
      if k = 0 then 0x23 else if k = 2 then e.1.unitIndex else 0
    (completedReply sentOrderDevUfs tsf data, e)
  notResponse := by
    intro req e
    exact (by decide : (0x36 : U8) ≠ 0x21)

/-- All nine queries succeed, the attribute reads 1, every unit descriptor
has a `bBootLunID` of 0, and the search returns 0. -/
theorem ufsIdentifyBootlun_unassigned :
    let w : TableWorld Unit := ⟨blankHost, (⟨0⟩, ())⟩
    let scan := ufsIdentifyBootlun (busQuery unassignedBus) 4 w
    scan.res = 0 ∧ scan.reported = []
      ∧ ¬ (scan.res = 0 ↔ BootLunExists (busQuery unassignedBus) 4 w) := by
  intro w scan
  have hrun : (ufsIdentifyBootlun (busQuery unassignedBus) 4
      ⟨blankHost, (⟨0⟩, ())⟩).res = 0
      ∧ (ufsIdentifyBootlun (busQuery unassignedBus) 4
        ⟨blankHost, (⟨0⟩, ())⟩).reported = [] := by
    decide +kernel
  have hres : scan.res = 0 := hrun.1
  have hrep : scan.reported = [] := hrun.2
  refine ⟨hres, hrep, fun h => ?_⟩
  obtain ⟨i, hi, hboots⟩ := (h.mp hres).boots
  have hlist := ufsIdentifyBootlun_reported _ _ hres
  have hmem : i ∈ (List.range 8).filter
      (UnitBoots (busQuery unassignedBus) 4 w) := by
    rw [List.mem_filter]
    exact ⟨List.mem_range.mpr hi, decide_eq_true hboots⟩
  rw [← hlist] at hmem
  cases hrep ▸ hmem

end Edk2Exynos.Ufs
