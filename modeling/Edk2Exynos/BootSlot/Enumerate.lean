/-
From the block I/O handles of the firmware to the partition table:
`GetBlkIOHandles`, `EnumeratePartitions` and `UpdatePartitionEntries`.

# Capacity and count in one variable

`GetBlkIOHandles` takes the capacity of the caller's list in
`*MaxBlkIopCnt` and returns the number of handles there, but only when it
succeeds: on every error the variable keeps the capacity. In
`EnumeratePartitions` that variable is `Ptable[i].MaxHandles`, so a LUN
whose lookup failed counts as one with 128 handles, whatever its list
held: the handles stored before the error, and null handles, for which
`GetPartitionEntry` finds nothing.

# What that does to the table

The loop passes over errors of single LUNs as its comment says, but its
status is the last LUN's, and the first LUN that failed fills the rest of
the table. `enumeratePartitions_skips_failed_iff` is the exact condition
under which neither shows.
-/
import Edk2Exynos.BootSlot.WriteBack

namespace Edk2Exynos.BootSlot

open Lib

-- ======================================================= GetBlkIOHandles

/-- An 8-bit word. -/
abbrev UINT8 := BitVec 8
/-- A 16-bit word. -/
abbrev UINT16 := BitVec 16

/-- `EFI_UNSUPPORTED` -/
def efiUnsupported : EfiStatus := 0x8000000000000003

/-- A device path node, with the GUID of a vendor node. -/
structure DevicePathNode where
  type : UINT8
  subType : UINT8
  length : UINT16
  guid : EfiGuid

/-- `HARDWARE_DEVICE_PATH` -/
def hardwareDevicePath : UINT8 := 0x01
/-- `HW_VENDOR_DP` -/
def hwVendorDp : UINT8 := 0x04
/-- `sizeof(VENDOR_DEVICE_PATH)` -/
def vendorDevicePathSize : UINT16 := 20

/-- What the firmware says of a handle: `HandleProtocol` for block I/O,
its device path up to the end node, and `GetPartitionEntry`. -/
structure BlkIoHandle where
  blockIo : EfiStatus
  devicePath : Option (List DevicePathNode)
  partEntry : HandleEntry

/-- A handle on the root device asked for; with
`BLK_IO_SEL_SELECT_ROOT_DEVICE_ONLY`, the root device itself. -/
def BlkIoHandle.onRootDevice (rootOnly : Bool) (rootDeviceType : EfiGuid)
    (h : BlkIoHandle) : Bool :=
  match h.devicePath with
  | none | some [] => false
  | some (root :: rest) =>
      root.type == hardwareDevicePath && root.subType == hwVendorDp
        && root.length == vendorDevicePathSize
        && root.guid == rootDeviceType
        && !(rootOnly && decide (1 < (root :: rest).length))

/-- The loop of `GetBlkIOHandles`, with the handles stored so far. -/
def selectHandles (rootOnly : Bool) (rootDeviceType : EfiGuid)
    (maxBlkIopCnt : Nat) :
    List BlkIoHandle → List BlkIoHandle → EfiStatus × List BlkIoHandle
  | [], stored => (efiSuccess, stored)
  | h :: hs, stored =>
      if h.blockIo = efiUnsupported then
        selectHandles rootOnly rootDeviceType maxBlkIopCnt hs stored
      else if h.blockIo ≠ efiSuccess then (h.blockIo, stored)
      else if ¬ h.onRootDevice rootOnly rootDeviceType then
        selectHandles rootOnly rootDeviceType maxBlkIopCnt hs stored
      else if maxBlkIopCnt ≤ (stored ++ [h]).length then
        (efiSuccess, stored ++ [h])
      else
        selectHandles rootOnly rootDeviceType maxBlkIopCnt hs
          (stored ++ [h])

/-- `GetBlkIOHandles` for a root device, with the answer of
`LocateHandleBuffer`: the status, the handles stored and
`*MaxBlkIopCnt`. -/
def getBlkIOHandles (rootOnly : Bool) (rootDeviceType : EfiGuid)
    (maxBlkIopCnt : Nat) (located : EfiStatus × List BlkIoHandle) :
    EfiStatus × List BlkIoHandle × Nat :=
  if located.1 ≠ efiSuccess then (located.1, [], maxBlkIopCnt)
  else
    match selectHandles rootOnly rootDeviceType maxBlkIopCnt located.2 []
    with
    | (status, stored) =>
      (status, stored,
        if status = efiSuccess then stored.length else maxBlkIopCnt)

-- =================================================== EnumeratePartitions

/-- What `GetBlkIOHandles` answers for a root device, of a LUN or the
eMMC user partition: a status and, for each handle it stored, what
`GetPartitionEntry` will find on it. -/
abbrev BlkIoHandles := Option Nat → EfiStatus × List HandleEntry

/-- The handles of a `Ptable` slot, up to `MaxHandles`, after an answer
was stored over the handles `before`. On an error `MaxHandles` is the
size of the array; past the stored handles its slots are null. -/
def handleInfoList (before : List HandleEntry) :
    EfiStatus × List HandleEntry → List HandleEntry
  | (status, handles) =>
      if status = efiSuccess then handles
      else
        let stored := handles ++ before.drop handles.length
        stored ++ List.replicate (maxNumPartitions - stored.length) none

/-- `EnumeratePartitions`: the status, `Ptable` and `MaxLuns`. Errors of
single LUNs are passed over, but the last LUN's status is returned. -/
def enumeratePartitions (handles : BlkIoHandles) (s : St) :
    EfiStatus × List (List HandleEntry) × St :=
  let emmc := handleInfoList [] (handles none)
  let status := (handles none).1
  if status = efiSuccess ∧ 0 < emmc.length then
    (status, [emmc], { s with maxLuns := 1 })
  else if efiError status ∨ emmc.length = 0 then
    ((handles (some (maxLuns - 1))).1,
      (List.range maxLuns).map fun i =>
        -- the eMMC lookup used the list of LUN 0
        handleInfoList (if i = 0 then (handles none).2 else [])
          (handles (some i)),
      { s with maxLuns := maxLuns })
  else (efiNotFound, [emmc], s)

/-- The state after `EnumeratePartitions` and `UpdatePartitionEntries`. -/
def enumeratedState (handles : BlkIoHandles) (s : St) : St :=
  updatePartitionEntries (enumeratePartitions handles s).2.1
    (enumeratePartitions handles s).2.2

/-- With working block I/O the enumeration succeeds. -/
theorem enumeratePartitions_ok {handles : BlkIoHandles}
    (hio : ∀ d, (handles d).1 = efiSuccess) (s : St) :
    (enumeratePartitions handles s).1 = efiSuccess := by
  unfold enumeratePartitions
  dsimp only
  by_cases hlen : 0 < (handleInfoList [] (handles none)).length
  · rw [if_pos ⟨hio none, hlen⟩]
    exact hio none
  · have hzero : (handleInfoList [] (handles none)).length = 0 := by omega
    rw [if_neg fun hcon => hlen hcon.2, if_pos (Or.inr hzero)]
    exact hio _

-- ============================================== the lookup and its count

section Lookup

variable {rootOnly : Bool} {rootDeviceType : EfiGuid} {max : Nat}

/-- The list never holds more than its capacity. -/
theorem selectHandles_length : ∀ {hs stored : List BlkIoHandle},
    stored.length < max →
    (selectHandles rootOnly rootDeviceType max hs stored).2.length
      ≤ max := by
  intro hs
  induction hs with
  | nil => exact fun hlt => Nat.le_of_lt hlt
  | cons h hs ih =>
      intro stored hlt
      have hlen : (stored ++ [h]).length = stored.length + 1 := by simp
      unfold selectHandles
      split
      · exact ih hlt
      · split
        · exact Nat.le_of_lt hlt
        · split
          · exact ih hlt
          · split
            · rw [hlen]
              exact hlt
            · exact ih (by omega)

/-- A lookup for `Ptable` as `EnumeratePartitions` sees it. -/
def blkIoAnswer (rootDeviceType : EfiGuid)
    (located : EfiStatus × List BlkIoHandle) : EfiStatus × List HandleEntry :=
  let r := getBlkIOHandles false rootDeviceType maxNumPartitions located
  (r.1, r.2.1.map BlkIoHandle.partEntry)

/-- `handleInfoList` has `MaxHandles` handles, whether the lookup
succeeded or not. -/
theorem handleInfoList_length (located : EfiStatus × List BlkIoHandle) :
    (handleInfoList [] (blkIoAnswer rootDeviceType located)).length
      = (getBlkIOHandles false rootDeviceType maxNumPartitions
          located).2.2 := by
  have hle : (selectHandles false rootDeviceType maxNumPartitions located.2
      []).2.length ≤ maxNumPartitions := selectHandles_length (by decide)
  have hlist : ∀ (status : EfiStatus) (stored : List BlkIoHandle),
      stored.length ≤ maxNumPartitions →
      (handleInfoList [] (status,
          stored.map BlkIoHandle.partEntry)).length
        = if status = efiSuccess then stored.length
          else maxNumPartitions := by
    intro status stored hs
    unfold handleInfoList
    dsimp only
    split
    · simp
    · simp
      omega
  unfold blkIoAnswer getBlkIOHandles
  by_cases herr : located.1 ≠ efiSuccess
  · rw [if_pos herr]
    dsimp only
    rw [hlist _ _ (Nat.zero_le _), if_neg herr]
  · rw [if_neg herr]
    exact hlist _ _ hle

end Lookup

-- ======================================================== the whole table

/-- `PartitionCount` -/
def partitionCount (s : St) : Nat := s.ptnEntries.length

/-- The entries of the LUNs whose lookup succeeded, in order. -/
def succeedingEntries (handles : BlkIoHandles) (lun n : Nat) :
    List PartitionEntry :=
  (List.range' lun n).flatMap fun i =>
    if (handles (some i)).1 = efiSuccess then
      (handles (some i)).2.map (handleEntry i)
    else []

/-- No handle belongs to an eMMC root device, whether the lookup says so
by an error or by an empty list. -/
structure NoEmmcRoot (handles : BlkIoHandles) : Prop where
  nothing : (handles none).2 = []
  status : (handles none).1 = efiSuccess ∨ efiError (handles none).1

/-- What the comment in the loop promises: LUNs that fail are ignored. -/
structure SkipsFailed (handles : BlkIoHandles) (s : St) : Prop where
  status : (∃ i, i < maxLuns ∧ (handles (some i)).1 = efiSuccess) →
    (enumeratePartitions handles s).1 = efiSuccess
  table : (enumeratedState handles s).ptnEntries
    = (succeedingEntries handles 0 maxLuns).take maxNumPartitions
  count : partitionCount (enumeratedState handles s)
    = min maxNumPartitions (succeedingEntries handles 0 maxLuns).length

section Table

variable {handles : BlkIoHandles}

/-- The handles of LUN `i` as `UpdatePartitionEntries` finds them. -/
def lunHandles (handles : BlkIoHandles) (i : Nat) : List HandleEntry :=
  handleInfoList (if i = 0 then (handles none).2 else []) (handles (some i))

/-- Without an eMMC root device every LUN is asked, and the status is the last
one's. -/
theorem enumeratePartitions_ufs (h : NoEmmcRoot handles) (s : St) :
    enumeratePartitions handles s
      = ((handles (some (maxLuns - 1))).1,
          (List.range maxLuns).map (lunHandles handles),
          { s with maxLuns := maxLuns }) := by
  unfold enumeratePartitions
  dsimp only
  rcases h.status with hok | herr
  · have hlen : (handleInfoList [] (handles none)).length = 0 := by
      unfold handleInfoList
      simp [hok, h.nothing]
    rw [if_neg (by omega), if_pos (Or.inr hlen)]
    rfl
  · have hne : (handles none).1 ≠ efiSuccess := by
      intro hcon
      rw [hcon] at herr
      exact not_efiError_efiSuccess herr
    rw [if_neg fun hcon => hne hcon.1, if_pos (Or.inl herr)]
    rfl

/-- The table: the handles of all LUNs, with whatever lookups left. -/
theorem enumeratedState_entries (h : NoEmmcRoot handles) (s : St) :
    (enumeratedState handles s).ptnEntries
      = ((List.range' 0 maxLuns).flatMap fun i =>
          (lunHandles handles i).map (handleEntry i)).take
            maxNumPartitions := by
  unfold enumeratedState
  rw [enumeratePartitions_ufs h]
  rfl

/-- A LUN that succeeded is in the table with its own handles. -/
theorem lunHandles_ok {i : Nat} (h : (handles (some i)).1 = efiSuccess) :
    lunHandles handles i = (handles (some i)).2 := by
  unfold lunHandles handleInfoList
  exact if_pos h

/-- A LUN that failed fills what is left of the table. -/
theorem lunHandles_failed {i : Nat}
    (h : (handles (some i)).1 ≠ efiSuccess) :
    maxNumPartitions ≤ (lunHandles handles i).length := by
  unfold lunHandles handleInfoList
  dsimp only
  rw [if_neg h]
  simp
  omega

/-- The entries come from the LUNs that were asked. -/
theorem le_lun_of_mem_succeedingEntries {lun n : Nat} {p : PartitionEntry}
    (h : p ∈ succeedingEntries handles lun n) : lun ≤ p.lun := by
  unfold succeedingEntries at h
  obtain ⟨i, hi, hp⟩ := List.mem_flatMap.mp h
  have hle := (List.mem_range'_1.mp hi).1
  split at hp
  · obtain ⟨e, -, rfl⟩ := List.mem_map.mp hp
    rw [handleEntry_lun]
    exact hle
  · cases hp

/-- The first `m` places of the table are right exactly when every LUN
that failed comes after `m` entries of LUNs that did not. -/
theorem take_lunHandles_iff (handles : BlkIoHandles) :
    ∀ (n lun m : Nat), m ≤ maxNumPartitions →
    (((List.range' lun n).flatMap fun i =>
        (lunHandles handles i).map (handleEntry i)).take m
          = (succeedingEntries handles lun n).take m
      ↔ ∀ f, lun ≤ f → f < lun + n → (handles (some f)).1 ≠ efiSuccess →
          m ≤ (succeedingEntries handles lun (f - lun)).length) := by
  intro n
  induction n with
  | zero =>
      intro lun m _
      refine ⟨fun _ f h1 h2 => by omega, fun _ => rfl⟩
  | succ n ih =>
      intro lun m hm
      have hcode : ((List.range' lun (n + 1)).flatMap fun i =>
          (lunHandles handles i).map (handleEntry i))
          = (lunHandles handles lun).map (handleEntry lun)
            ++ (List.range' (lun + 1) n).flatMap fun i =>
              (lunHandles handles i).map (handleEntry i) := rfl
      have hspec : ∀ k, succeedingEntries handles lun (k + 1)
          = (if (handles (some lun)).1 = efiSuccess then
              (handles (some lun)).2.map (handleEntry lun) else [])
            ++ succeedingEntries handles (lun + 1) k := fun k => rfl
      rw [hcode, hspec]
      by_cases hok : (handles (some lun)).1 = efiSuccess
      · -- the LUN's own handles on both sides
        rw [lunHandles_ok hok, if_pos hok, List.take_append,
          List.take_append, List.append_cancel_left_eq, ih _ _ (by omega)]
        constructor
        · intro h f hf hf' herr
          rcases Nat.eq_or_lt_of_le hf with rfl | hlt
          · exact absurd hok herr
          · have := h f (by omega) (by omega) herr
            rw [show f - lun = (f - (lun + 1)) + 1 by omega, hspec,
              if_pos hok, List.length_append]
            omega
        · intro h f hf hf' herr
          have := h f (by omega) (by omega) herr
          rw [show f - lun = (f - (lun + 1)) + 1 by omega, hspec,
            if_pos hok, List.length_append] at this
          omega
      · -- the failed LUN fills the rest, and no later LUN shows
        have hlen := lunHandles_failed hok
        rw [if_neg hok, List.nil_append, List.take_append_of_le_length (by
          rw [List.length_map]
          omega)]
        constructor
        · intro heq f hf hf' _
          suffices hm0 : m = 0 by omega
          by_contra hne
          obtain ⟨k, rfl⟩ := Nat.exists_eq_succ_of_ne_zero hne
          cases hl : lunHandles handles lun with
          | nil =>
              rw [hl] at hlen
              exact absurd hlen (by decide)
          | cons e es =>
              rw [hl, List.map_cons, List.take_succ_cons] at heq
              have hmem : handleEntry lun e
                  ∈ succeedingEntries handles (lun + 1) n := by
                refine List.mem_of_mem_take (i := k + 1) ?_
                rw [← heq]
                exact List.mem_cons_self
              have hle := le_lun_of_mem_succeedingEntries hmem
              rw [handleEntry_lun] at hle
              omega
        · intro h
          have hm0 := h lun (Nat.le_refl _) (by omega) hok
          rw [Nat.sub_self] at hm0
          have : m = 0 := Nat.le_zero.mp hm0
          rw [this, List.take_zero, List.take_zero]

end Table

/-- The enumeration ignores LUNs that fail exactly when the last one
succeeds and no LUN fails before the entries of earlier ones fill the
table. -/
theorem enumeratePartitions_skips_failed_iff (handles : BlkIoHandles)
    (s : St) (h : NoEmmcRoot handles) :
    SkipsFailed handles s
      ↔ (handles (some (maxLuns - 1))).1 = efiSuccess
        ∧ ∀ f, f < maxLuns → (handles (some f)).1 ≠ efiSuccess →
          maxNumPartitions
            ≤ (succeedingEntries handles 0 f).length := by
  have htable := take_lunHandles_iff handles maxLuns 0
    maxNumPartitions (Nat.le_refl _)
  rw [← enumeratedState_entries h s] at htable
  constructor
  · intro hskip
    have hall := htable.mp hskip.table
    have hfail : ∀ f, f < maxLuns → (handles (some f)).1 ≠ efiSuccess →
        maxNumPartitions ≤ (succeedingEntries handles 0 f).length :=
      fun f hf herr => hall f (Nat.zero_le f) (by omega) herr
    refine ⟨?_, hfail⟩
    -- LUN 0 succeeded: nothing can fill the table before it
    have h0 : (handles (some 0)).1 = efiSuccess := by
      by_contra hcon
      have hle := hfail 0 (by decide) hcon
      rw [show succeedingEntries handles 0 0 = [] from rfl] at hle
      exact absurd hle (by decide)
    have hstatus := hskip.status ⟨0, by decide, h0⟩
    rw [enumeratePartitions_ufs h] at hstatus
    exact hstatus
  · rintro ⟨hlast, hfail⟩
    have heq := htable.mpr fun f _ hf herr => hfail f (by omega) herr
    refine ⟨fun _ => ?_, heq, ?_⟩
    · rw [enumeratePartitions_ufs h]
      exact hlast
    · unfold partitionCount
      rw [heq, List.length_take]

/-- A UFS device with one handle on LUN 0, and a last LUN whose lookup
ends with a given status. -/
def lastLunHandles (status : EfiStatus) : BlkIoHandles := fun lun =>
  if lun = some 0 then (efiSuccess, [none])
  else if lun = some (maxLuns - 1) then (status, [])
  else (efiSuccess, [])

/-- The sample has no eMMC root device. -/
theorem lastLunHandles_noEmmc (status : EfiStatus) :
    NoEmmcRoot (lastLunHandles status) := ⟨rfl, Or.inl rfl⟩

/-- A UFS device with a full LUN 0, its root device and 127 partitions, and
a LUN 3 whose lookup fails. -/
def fullLunHandles : BlkIoHandles := fun lun =>
  if lun = some 0 then
    (efiSuccess, none :: List.replicate 127 (some EfiPartitionEntry.zero))
  else if lun = some 3 then (efiOutOfResources, [])
  else (efiSuccess, [])

/-- LUN 3 is ignored: the table is full before it. -/
theorem enumeratePartitions_skips_failed_iff_full :
    (fullLunHandles (some 3)).1 ≠ efiSuccess
      ∧ SkipsFailed fullLunHandles sampleState
      ∧ (enumeratePartitions fullLunHandles sampleState).1 = efiSuccess
      ∧ partitionCount (enumeratedState fullLunHandles sampleState) = 128 := by
  have hskip := (enumeratePartitions_skips_failed_iff fullLunHandles
    sampleState ⟨rfl, Or.inl rfl⟩).mpr ⟨rfl, by decide +kernel⟩
  refine ⟨by decide, hskip, hskip.status ⟨0, by decide, rfl⟩, ?_⟩
  rw [hskip.count]
  decide +kernel

/-- A last LUN that fails is not ignored: the enumeration fails with it,
and the table is filled up with 127 entries of that LUN. -/
theorem enumeratePartitions_keeps_failed :
    ¬ (∀ (handles : BlkIoHandles) (s : St), NoEmmcRoot handles →
        SkipsFailed handles s)
      ∧ (enumeratePartitions (lastLunHandles efiOutOfResources)
          sampleState).1 = efiOutOfResources
      ∧ partitionCount (enumeratedState (lastLunHandles efiOutOfResources)
          sampleState) = 128 := by
  refine ⟨fun hall => ?_, rfl, by decide +kernel⟩
  have hskip := hall (lastLunHandles efiOutOfResources) sampleState
    (lastLunHandles_noEmmc _)
  have hstatus := hskip.status ⟨0, by decide, rfl⟩
  exact absurd hstatus (by decide)

end Edk2Exynos.BootSlot
