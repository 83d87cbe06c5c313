/-
The Type 19 records of PlatformSmbiosDxe: one for every memory node of
the device tree, all made from one structure.

# What they say

An address field counts KiB, and the end is inclusive. The driver stores
`base >> 10` and adds `size >> 10`, so the end it names is one KiB behind
the node (`record_last`). No node comes out right, not even as another
node's record: the node with the highest end would need the record of a
node with the same base (`no_top_record`).

# The device tree

`fdt_get_memory` belongs to a library that is not part of the
repository: it is a parameter, and gives the nodes by their index.
-/
import Edk2Exynos.Smbios.Record
import Mathlib.Order.CompletePartialOrder
import Mathlib.Order.Interval.Set.Basic

namespace Edk2Exynos.Smbios

open Lib
open BootSlot (efiError)

/-- A 16-bit word. -/
abbrev UINT16 := BitVec 16
/-- A 32-bit word. -/
abbrev UINT32 := BitVec 32
/-- A 64-bit word. -/
abbrev UINT64 := BitVec 64

-- =============================================================== the data

/-- A memory node: a nonempty range of whole KiB. -/
structure MemoryNode where
  base : UINT64
  size : UINT64
  base_kib : 1024 ∣ base.toNat
  size_kib : 1024 ∣ size.toNat
  size_pos : 0 < size.toNat

/-- Its addresses. -/
def MemoryNode.range (n : MemoryNode) : Set Nat :=
  Set.Ico n.base.toNat (n.base.toNat + n.size.toNat)

/-- `SMBIOS_TABLE_TYPE19`, behind the header. -/
structure Type19 where
  startingAddress : UINT32
  endingAddress : UINT32
  memoryArrayHandle : UINT16
  partitionWidth : Byte
  extendedStartingAddress : UINT64
  extendedEndingAddress : UINT64
  deriving DecidableEq

/-- `mMemArrMapInfoType19`, with the handle of the memory array. -/
def memArrMapInfoType19 (handle : UINT16) : Type19 :=
  ⟨0xFFFFFFFF, 0xFFFFFFFF, handle, 1, 0, 0⟩

-- ============================================================== the code

/-- What the loop stores for a node. -/
def mapMemory (r : Type19) (base size : UINT64) : Type19 :=
  let startingAddress : UINT32 := (base >>> 10).setWidth 32
  { r with
    startingAddress := startingAddress
    endingAddress :=
      (startingAddress.setWidth 64 + (size >>> 10)).setWidth 32 }

/-- The loop over the nodes: the records it logs. -/
def logMemory (fdtGetMemory : Nat → Option MemoryNode) :
    Nat → Nat → Type19 → Option (List Type19)
  | 0, _, _ => none
  | fuel + 1, node, r =>
    match fdtGetMemory node with
    | none => some []
    | some n =>
      let r := mapMemory r n.base n.size
      (logMemory fdtGetMemory fuel (node + 1) r).map (r :: ·)

-- ============================================================== the rule

/-- The first byte of a record's range, -/
def Type19.first (r : Type19) : Nat :=
  if r.startingAddress = 0xFFFFFFFF then r.extendedStartingAddress.toNat
  else r.startingAddress.toNat * 1024

/-- and the last. -/
def Type19.last (r : Type19) : Nat :=
  if r.endingAddress = 0xFFFFFFFF then r.extendedEndingAddress.toNat
  else r.endingAddress.toNat * 1024 + 1023

/-- The addresses a record denotes. -/
def Type19.range (r : Type19) : Set Nat := Set.Icc r.first r.last

/-- The records have the ranges of the nodes, and these are disjoint. -/
def Mapped (nodes : List MemoryNode) (records : List Type19) : Prop :=
  (∀ s : Set Nat, (∃ r ∈ records, r.range = s) ↔ ∃ n ∈ nodes, n.range = s)
    ∧ records.Pairwise fun r r' => Disjoint r.range r'.range

-- ============================================================= the loop

/-- The record of a node. -/
def recordOf (handle : UINT16) (n : MemoryNode) : Type19 :=
  mapMemory (memArrMapInfoType19 handle) n.base n.size

/-- The loop logs a record for every node from `node` on: what the one
structure held before does not matter. -/
theorem logMemory_eq {fdtGetMemory : Nat → Option MemoryNode}
    {nodes : List MemoryNode} (htree : ∀ i, fdtGetMemory i = nodes[i]?)
    (fuel node : Nat) (hfuel : nodes.length < fuel + node) (r : Type19)
    (hnode : node ≤ nodes.length) :
    logMemory fdtGetMemory fuel node r
      = some ((nodes.drop node).map fun n => mapMemory r n.base n.size) := by
  induction fuel generalizing node r with
  | zero => omega
  | succ fuel ih =>
    unfold logMemory
    rw [htree]
    rcases Nat.lt_or_ge node nodes.length with hlt | hge
    · rw [List.getElem?_eq_getElem hlt, List.drop_eq_getElem_cons hlt]
      simp only
      rw [ih (node + 1) (by omega) _ hlt]
      rfl
    · rw [List.getElem?_eq_none hge, List.drop_eq_nil_of_le hge]
      rfl

-- =========================================================== one record

section

variable (handle : UINT16) (n : MemoryNode)

/-- The first address a record stores, in KiB. -/
theorem recordOf_start :
    (recordOf handle n).startingAddress.toNat
      = n.base.toNat / 1024 % 2 ^ 32 := by
  simp [recordOf, mapMemory, BitVec.toNat_setWidth,
    BitVec.toNat_ushiftRight, Nat.shiftRight_eq_div_pow]

/-- The last address a record stores, in KiB. -/
theorem recordOf_end :
    (recordOf handle n).endingAddress.toNat
      = (n.base.toNat / 1024 + n.size.toNat / 1024) % 2 ^ 32 := by
  have hbase := n.base.isLt
  simp only [recordOf, mapMemory, BitVec.toNat_setWidth, BitVec.toNat_add,
    BitVec.toNat_ushiftRight, Nat.shiftRight_eq_div_pow]
  omega

/-- The first byte a record stands for. -/
theorem recordOf_first :
    (recordOf handle n).first
      = if n.base.toNat / 1024 % 2 ^ 32 = 2 ^ 32 - 1 then 0
        else n.base.toNat / 1024 % 2 ^ 32 * 1024 := by
  unfold Type19.first
  rw [← recordOf_start handle n]
  have hones : (recordOf handle n).startingAddress = 0xFFFFFFFF
      ↔ (recordOf handle n).startingAddress.toNat = 2 ^ 32 - 1 :=
    BitVec.toNat_inj.symm
  simp only [hones]
  rfl

/-- The last byte a record stands for. -/
theorem recordOf_last :
    (recordOf handle n).last
      = if (n.base.toNat / 1024 + n.size.toNat / 1024) % 2 ^ 32
          = 2 ^ 32 - 1 then 0
        else (n.base.toNat / 1024 + n.size.toNat / 1024) % 2 ^ 32 * 1024
          + 1023 := by
  unfold Type19.last
  rw [← recordOf_end handle n]
  have hones : (recordOf handle n).endingAddress = 0xFFFFFFFF
      ↔ (recordOf handle n).endingAddress.toNat = 2 ^ 32 - 1 :=
    BitVec.toNat_inj.symm
  simp only [hones]
  rfl

/-- Below 4 TiB less one KiB, a record names one KiB too many. -/
theorem recordOf_below (h : n.base.toNat + n.size.toNat + 1024 < 2 ^ 42) :
    (recordOf handle n).first = n.base.toNat
      ∧ (recordOf handle n).last
        = n.base.toNat + n.size.toNat + 1023 := by
  obtain ⟨b, hb⟩ := n.base_kib
  obtain ⟨k, hk⟩ := n.size_kib
  rw [recordOf_first, recordOf_last, hb, hk,
    Nat.mul_div_cancel_left b (by decide),
    Nat.mul_div_cancel_left k (by decide)]
  split <;> split <;> omega

end

-- ========================================================== all records

/-- An inclusive range and one that excludes its end. -/
theorem ends_of_Icc_eq_Ico {a b c d : Nat} (hcd : c < d)
    (h : Set.Icc a b = Set.Ico c d) : a = c ∧ b + 1 = d := by
  have hmem : ∀ x, (a ≤ x ∧ x ≤ b) ↔ (c ≤ x ∧ x < d) := fun x =>
    Set.ext_iff.mp h x
  have hc := (hmem c).mpr ⟨Nat.le_refl c, hcd⟩
  have hd := (hmem (d - 1)).mpr (by omega)
  have ha := (hmem a).mp (by omega)
  have hb := (hmem b).mp (by omega)
  omega

/-- A record with the range of a node that ends no earlier than its own is
that of a shorter node at the same base. -/
theorem shorter_of_range_eq {handle : UINT16} {m n : MemoryNode}
    (hle : m.base.toNat + m.size.toNat ≤ n.base.toNat + n.size.toNat)
    (h : (recordOf handle m).range = n.range) :
    m.base.toNat = n.base.toNat ∧ m.size.toNat < n.size.toNat := by
  have hpos := n.size_pos
  obtain ⟨hfirst, hlast⟩ := ends_of_Icc_eq_Ico (by omega) h
  rw [recordOf_first] at hfirst
  rw [recordOf_last] at hlast
  obtain ⟨b, hb⟩ := m.base_kib
  obtain ⟨k, hk⟩ := m.size_kib
  obtain ⟨b', hb'⟩ := n.base_kib
  obtain ⟨k', hk'⟩ := n.size_kib
  rw [hb, Nat.mul_div_cancel_left b (by decide)] at hfirst hlast
  rw [hk, Nat.mul_div_cancel_left k (by decide)] at hlast
  have hk0 := m.size_pos
  -- the last byte of a KiB is not the first one, so no field is all ones
  split at hlast
  · omega
  split at hfirst <;> omega

/-- So the node with the highest end has no record. -/
theorem no_top_record {handle : UINT16} {nodes : List MemoryNode}
    (hdisj : nodes.Pairwise fun m n => Disjoint m.range n.range)
    (hne : nodes ≠ []) :
    ∃ n ∈ nodes, ∀ m ∈ nodes, (recordOf handle m).range ≠ n.range := by
  obtain ⟨n, hn, hmax⟩ := Set.exists_max_image {m | m ∈ nodes}
    (fun m => m.base.toNat + m.size.toNat) nodes.finite_toSet
    (List.exists_mem_of_ne_nil nodes hne)
  refine ⟨n, hn, fun m hm heq => ?_⟩
  obtain ⟨hbase, hsize⟩ := shorter_of_range_eq (hmax m hm) heq
  have hmn : m ≠ n := by
    intro h
    rw [h] at hsize
    exact Nat.lt_irrefl _ hsize
  have hsymm : Std.Symm fun m n : MemoryNode => Disjoint m.range n.range :=
    ⟨fun _ _ h => h.symm⟩
  have hpos := m.size_pos
  have hmem : m.base.toNat ∈ m.range := ⟨Nat.le_refl _, by omega⟩
  have hmem' : m.base.toNat ∈ n.range := by
    rw [hbase]
    exact ⟨Nat.le_refl _, by omega⟩
  exact Set.disjoint_left.mp (hdisj.forall hm hn hmn) hmem hmem'

/-- The records of two nodes next to each other overlap. -/
theorem adjacent_overlap {handle : UINT16} {m n : MemoryNode}
    (hnext : m.base.toNat + m.size.toNat = n.base.toNat)
    (hlow : n.base.toNat + n.size.toNat + 1024 < 2 ^ 42) :
    n.base.toNat
      ∈ (recordOf handle m).range ∩ (recordOf handle n).range := by
  obtain ⟨hm, hm'⟩ := recordOf_below handle m (by omega)
  obtain ⟨hn, hn'⟩ := recordOf_below handle n hlow
  refine ⟨⟨?_, ?_⟩, ⟨?_, ?_⟩⟩
  · rw [hm]
    omega
  · rw [hm']
    omega
  · rw [hn]
  · rw [hn']
    omega

-- ======================================================== what is logged

/-- A record as `LogSmbiosData` gets it. -/
def Type19.template (r : Type19) : Template where
  bytes := [19, 31, 0, 0] ++ bytesOfLong r.startingAddress
    ++ bytesOfLong r.endingAddress
    ++ [byteOf r.memoryArrayHandle 0, byteOf r.memoryArrayHandle 1,
      r.partitionWidth]
    ++ bytesOfLongLong r.extendedStartingAddress
    ++ bytesOfLongLong r.extendedEndingAddress
  header := Nat.le_of_ble_eq_true rfl
  length_eq := rfl

/-- Every record reaches the SMBIOS table as it is. -/
theorem type19_logged (r : Type19) (heap : Mem) (record : Nat) :
    (logSmbiosData 0 (fun _ => some record) heap r.template
      (some [])).Right heap r.template (some []) := by
  refine (added_right_iff heap record r.template []).mpr ⟨?_, by decide⟩
  exact Nat.lt_of_lt_of_eq (show 33 < 2 ^ 64 by decide) rfl

-- ============================================================== the result

/-- The records are right only where there are none. -/
theorem logMemory_mapped_iff {nodes : List MemoryNode}
    (fdtGetMemory : Nat → Option MemoryNode) (handle : UINT16) (fuel : Nat)
    (htree : ∀ i, fdtGetMemory i = nodes[i]?)
    (hdisj : nodes.Pairwise fun m n => Disjoint m.range n.range)
    (hfuel : nodes.length < fuel) :
    ∃ records, logMemory fdtGetMemory fuel 0 (memArrMapInfoType19 handle)
        = some records
      ∧ (Mapped nodes records ↔ nodes = []) := by
  refine ⟨_, logMemory_eq htree fuel 0 hfuel _ (Nat.zero_le _), ?_⟩
  rw [List.drop_zero]
  constructor
  · rintro ⟨hranges, -⟩
    by_contra hne
    obtain ⟨n, hn, hbad⟩ := no_top_record hdisj hne
    obtain ⟨r, hr, heq⟩ := (hranges n.range).mpr ⟨n, hn, rfl⟩
    obtain ⟨m, hm, rfl⟩ := List.mem_map.mp hr
    exact hbad m hm heq
  · rintro rfl
    refine ⟨fun s => ?_, List.Pairwise.nil⟩
    simp

/-- One GiB at `0x80000000`. -/
def dramNode : MemoryNode where
  base := 0x80000000
  size := 0x40000000
  base_kib := by decide
  size_kib := by decide
  size_pos := by decide

/-- A tree with one node is not mapped. -/
theorem logMemory_mapped_iff_dram :
    ∃ records, logMemory (fun i => [dramNode][i]?) 2 0
        (memArrMapInfoType19 0) = some records
      ∧ (Mapped [dramNode] records ↔ [dramNode] = []) :=
  logMemory_mapped_iff (fun i => [dramNode][i]?) 0 2 (fun _ => rfl)
    (List.pairwise_singleton _ _) (by decide)

/-- Its record ends one KiB behind it. -/
theorem logMemory_ends_late :
    ∃ records, logMemory (fun i => [dramNode][i]?) 2 0
        (memArrMapInfoType19 0) = some records
      ∧ ¬ Mapped [dramNode] records := by
  refine ⟨[recordOf 0 dramNode], rfl, fun h => ?_⟩
  obtain ⟨n, hn, heq⟩ := (h.1 (recordOf 0 dramNode).range).mp
    ⟨_, List.mem_singleton_self _, rfl⟩
  rw [List.mem_singleton.mp hn] at heq
  obtain ⟨hfirst, hlast⟩ := recordOf_below 0 dramNode (by decide)
  have hbehind : 0xC0000000 ∈ (recordOf 0 dramNode).range := by
    refine ⟨?_, ?_⟩
    · rw [hfirst]
      decide
    · rw [hlast]
      decide
  rw [← heq] at hbehind
  exact absurd hbehind.2 (by decide)

end Edk2Exynos.Smbios
