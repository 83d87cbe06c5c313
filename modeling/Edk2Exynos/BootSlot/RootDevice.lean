/-
Lookups of a root device, and the type of the device the system boots
from: `GetDeviceHandleInfo`, `GetCompatibleRootDeviceType` and
`CheckRootDeviceType`.

`getBlkIOHandles_root` identifies such a lookup with the one the partition
table is built on.

# No match is a success

`GetBlkIOHandles` reports that nothing matched by a count of zero.
`GetDeviceHandleInfo` gets that count in its own copy of `MaxHandles` and
returns the status alone, so the first type probed is found wherever block
I/O works: the answer is eMMC on a device that has none.
`checkRootDeviceType_iff` is the exact condition under which the answer is
right.
-/
import Edk2Exynos.BootSlot.BlkIoSelect

namespace Edk2Exynos.BlkIo

open Lib BootSlot

-- ================================================ lookups by root device

/-- `BLK_IO_SEL_MATCH_ROOT_DEVICE`, or the root device only. -/
def rootMask (rootOnly : Bool) : UINT32 :=
  if rootOnly then blkIoSelSelectRootDeviceOnly
  else blkIoSelMatchRootDevice

/-- The handle as a lookup by root device sees it. -/
def Handle.toBlkIoHandle (h : Handle) : BlkIoHandle where
  blockIo := h.blockIo
  devicePath := h.devicePath.map (·.map Node.toDevicePathNode)
  partEntry := h.partEntry

section RootLookup

variable {rootOnly : Bool} {f : PartiSelectFilter} {g : EfiGuid}

/-- The two models of a handle agree on the root device. -/
theorem onRootDevice_toBlkIoHandle (h : Handle) :
    h.toBlkIoHandle.onRootDevice rootOnly g
      = h.devicePath.any fun path =>
        onRootDevice (some g) path
          && (!rootOnly || decide (path.length ≤ 1)) := by
  unfold BlkIoHandle.onRootDevice Handle.toBlkIoHandle
  dsimp only
  cases h.devicePath with
  | none => rfl
  | some path =>
      cases path with
      | nil => rfl
      | cons root rest =>
          simp only [Option.map_some, List.map_cons, Option.any_some,
            onRootDevice, Option.all_some, List.length_cons,
            List.length_map]
          congr 1
          cases rootOnly with
          | false => rfl
          | true =>
              rw [Bool.eq_iff_iff]
              simp only [Bool.true_and, Bool.not_true, Bool.false_or,
                Bool.not_eq_true', decide_eq_false_iff_not,
                decide_eq_true_eq, Nat.not_lt]

/-- For a root device the body asks for block I/O and the path only. -/
theorem check_root (hf : f.rootDeviceType = some g) (h : Handle) :
    check (adjustDefaults (rootMask rootOnly)) (some f) h
      = (openBlockIo h).andThen
        (.need (h.toBlkIoHandle.onRootDevice rootOnly g)) := by
  rw [onRootDevice_toBlkIoHandle]
  unfold check
  congr 1
  have hmedia : mediaType (adjustDefaults (rootMask rootOnly)) h = .pass := by
    unfold mediaType
    cases rootOnly <;> split <;> rfl
  have hfs : fileSystem (adjustDefaults (rootMask rootOnly)) (some f) h
      = .pass := by
    unfold fileSystem
    cases rootOnly <;> rfl
  have hlabel : partitionLabel (adjustDefaults (rootMask rootOnly)) (some f)
      h = .pass := by
    unfold partitionLabel
    cases rootOnly <;> rfl
  have hpart : ∀ path, partition (adjustDefaults (rootMask rootOnly))
      (some f) h path = .pass := by
    intro path
    unfold partition
    cases harddrive path with
    | none => cases rootOnly <;> rfl
    | some p => cases rootOnly <;> rfl
  rw [hmedia, hfs, hlabel]
  unfold devicePath
  have hneed : has (adjustDefaults (rootMask rootOnly))
      filtersNeedingDevicePath = true := by
    cases rootOnly <;> rfl
  have hroot : has (adjustDefaults (rootMask rootOnly))
      (blkIoSelSelectRootDeviceOnly ||| blkIoSelMatchRootDevice) = true := by
    cases rootOnly <;> rfl
  have honly : has (adjustDefaults (rootMask rootOnly))
      blkIoSelSelectRootDeviceOnly = rootOnly := by
    cases rootOnly <;> rfl
  rw [if_pos hneed]
  cases h.devicePath with
  | none => rfl
  | some path =>
      simp only [hpart, rootDevice, rootDeviceOnly, hroot, honly, if_true,
        hf, Option.any_some]
      cases onRootDevice (some g) path with
      | false => rfl
      | true =>
          cases rootOnly with
          | false => rfl
          | true => cases decide (path.length ≤ 1) <;> rfl

/-- The search for root devices is one of the whole database. -/
theorem located_root (fw : Firmware) :
    fw.located (adjustDefaults (rootMask rootOnly)) = fw.located 0 := by
  unfold Firmware.located
  cases rootOnly <;> rfl

/-- The loop with its selections is the loop by root device. -/
theorem select_root (hf : f.rootDeviceType = some g) (n : Nat)
    (hs stored : List Handle) :
    ∃ e : Option EfiStatus, e ≠ some efiSuccess
      ∧ (select (check (adjustDefaults (rootMask rootOnly)) (some f)) n hs
          stored).1 = e.map Exit.returned
      ∧ selectHandles rootOnly g n (hs.map Handle.toBlkIoHandle)
          (stored.map Handle.toBlkIoHandle)
        = (e.getD efiSuccess,
          (select (check (adjustDefaults (rootMask rootOnly)) (some f)) n hs
            stored).2.map Handle.toBlkIoHandle) := by
  induction hs generalizing stored with
  | nil => exact ⟨none, nofun, rfl, rfl⟩
  | cons h hs ih =>
      have hio : h.toBlkIoHandle.blockIo = h.blockIo := rfl
      have happ : stored.map Handle.toBlkIoHandle ++ [h.toBlkIoHandle]
          = (stored ++ [h]).map Handle.toBlkIoHandle := by
        rw [List.map_append]
        rfl
      rw [List.map_cons]
      unfold select selectHandles
      rw [check_root hf, hio, happ, List.length_map]
      unfold openBlockIo
      by_cases hun : h.blockIo = efiUnsupported
      · rw [if_pos hun, if_pos hun]
        exact ih stored
      · rw [if_neg hun, if_neg hun]
        by_cases herr : h.blockIo ≠ efiSuccess
        · rw [if_pos herr, if_pos herr]
          refine ⟨some h.blockIo, ?_, rfl, rfl⟩
          intro hcon
          exact herr (Option.some.inj hcon)
        · rw [if_neg herr, if_neg herr]
          cases h.toBlkIoHandle.onRootDevice rootOnly g with
          | false => exact ih stored
          | true =>
              have htaken : ¬ ¬ (true = true) := not_not.2 rfl
              rw [if_neg htaken]
              simp only [Verdict.andThen, Verdict.need, if_true]
              by_cases hfull : n ≤ (stored ++ [h]).length
              · rw [if_pos hfull, if_pos hfull]
                exact ⟨none, nofun, rfl, rfl⟩
              · rw [if_neg hfull, if_neg hfull]
                exact ih (stored ++ [h])

/-- `GetBlkIOHandles` for a root device is the lookup the partition table
is enumerated with. -/
theorem getBlkIOHandles_root (hf : f.rootDeviceType = some g) (n : Nat)
    (fw : Firmware) :
    ∃ r, BlkIo.getBlkIOHandles (rootMask rootOnly) (some f) true (some n) fw
        = some r
      ∧ BootSlot.getBlkIOHandles rootOnly g n
          ((fw.locate 0).1, (fw.locate 0).2.map Handle.toBlkIoHandle)
        = (r.status, r.stored.map (fun i => i.handle.toBlkIoHandle),
          r.maxBlkIopCnt.getD 0) := by
  have hloc : fw.locate (adjustDefaults (rootMask rootOnly))
      = fw.locate 0 := by
    unfold Firmware.locate
    rw [located_root]
  unfold BootSlot.getBlkIOHandles
  dsimp only
  by_cases herr : (fw.locate 0).1 ≠ efiSuccess
  · rw [if_pos herr, getBlkIOHandles_not_located (by rwa [hloc]), hloc]
    exact ⟨_, rfl, rfl⟩
  · have hok := not_not.1 herr
    rw [if_neg herr, getBlkIOHandles_located (by rwa [hloc]), located_root,
      locate_ok hok]
    obtain ⟨e, hne, h1, h2⟩ := @select_root rootOnly f g hf n
      (fw.located 0) []
    rw [List.map_nil] at h2
    rw [h2]
    generalize select (check (adjustDefaults (rootMask rootOnly)) (some f)) n
      (fw.located 0) [] = res at h1
    obtain ⟨error, stored⟩ := res
    dsimp only at h1
    rw [h1]
    cases e with
    | none => exact ⟨_, rfl, by simp [handleInfo]⟩
    | some status =>
        refine ⟨_, rfl, ?_⟩
        rw [Option.getD_some, if_neg fun hcon => hne (congrArg some hcon)]
        simp [handleInfo]

end RootLookup

-- =================================================== the type of the disk

/-- The GUIDs of the root devices: `gEfiEmmcUserPartitionGuid` and
`gEfiUfsLU0Guid`. -/
structure RootGuids where
  emmcUserPartition : EfiGuid
  ufsLU0 : EfiGuid

/-- The GUID that `RootDeviceType` points to for a type of root device. -/
def RootGuids.rootDeviceType (guids : RootGuids) :
    MemCardType → Option EfiGuid
  | .ufs => some guids.ufsLU0
  | .emmc => some guids.emmcUserPartition
  | .unknown => none

/-- The length of `HandleInfoList`. -/
def handleMaxInfoList : Nat := 128

/-- The filter of `GetDeviceHandleInfo`; it leaves the label unset, which
its mask does not read. -/
def deviceFilter (rootDeviceType : EfiGuid) : PartiSelectFilter where
  rootDeviceType := some rootDeviceType
  partitionType := none
  volumeName := none
  partitionLabel := none

/-- `GetDeviceHandleInfo`: the status and the list. `MaxHandles` is passed
by value, so the count stays behind; that it is zero is only printed. -/
def getDeviceHandleInfo (guids : RootGuids) (fw : Firmware)
    (maxHandles : Nat) (type : MemCardType) :
    Option (EfiStatus × List HandleInfo) :=
  match guids.rootDeviceType type with
  | none => some (efiInvalidParameter, [])
  | some g =>
      (getBlkIOHandles blkIoSelMatchRootDevice (some (deviceFilter g)) true
        (some maxHandles) fw).map fun r => (r.status, r.stored)

/-- The loop of `GetCompatibleRootDeviceType` over the types before
`UNKNOWN`. -/
def firstDeviceType (guids : RootGuids) (fw : Firmware) :
    List MemCardType → Option MemCardType
  | [] => some .unknown
  | type :: types =>
      match getDeviceHandleInfo guids fw handleMaxInfoList type with
      | none => none
      | some (status, _) =>
          if status = efiSuccess then some type
          else firstDeviceType guids fw types

/-- `GetCompatibleRootDeviceType` -/
def getCompatibleRootDeviceType (guids : RootGuids) (fw : Firmware) :
    Option MemCardType :=
  firstDeviceType guids fw [.emmc, .ufs]

/-- `EFI_MEM_CARDINFO_PROTOCOL` as it is located and asked, with the
`card_type` it fills in. -/
structure MemCardInfo where
  locateProtocol : EfiStatus
  getCardInfo : EfiStatus
  cardType : List CHAR8

/-- `AsciiStrnCmp` -/
def asciiStrnCmp (first second : List CHAR8) (length : Nat) : Int :=
  strnCmp (first.map (·.setWidth 16)) (second.map (·.setWidth 16)) length

/-- `"UFS"` -/
def ufsName : List CHAR8 := [0x55, 0x46, 0x53]
/-- `"EMMC"` -/
def emmcName : List CHAR8 := [0x45, 0x4d, 0x4d, 0x43]

/-- `CheckRootDeviceType`, with its static `Type`: what it returns is what
it keeps. -/
def checkRootDeviceType (guids : RootGuids) (fw : Firmware)
    (card : MemCardInfo) (type : MemCardType) : Option MemCardType :=
  if type ≠ .unknown then some type
  else if efiError card.locateProtocol then some type
  else if efiError card.getCardInfo then some type
  else if asciiStrnCmp card.cardType ufsName ufsName.length = 0 then
    some .ufs
  else if asciiStrnCmp card.cardType emmcName emmcName.length = 0 then
    some .emmc
  else getCompatibleRootDeviceType guids fw

-- ==================================================== devices that exist

/-- A block device on a root device. -/
def isDevice (g : EfiGuid) (h : Handle) : Bool :=
  h.blockIo == efiSuccess && h.devicePath.any (onRootDevice (some g))

/-- There is a block device of the type. -/
def HasDevice (guids : RootGuids) (fw : Firmware) (type : MemCardType) :
    Prop :=
  ∃ g, guids.rootDeviceType type = some g
    ∧ ∃ h ∈ fw.handles, isDevice g h = true

/-- The answer names a device there is, the only one if there is one type
only, and none if there is none. -/
structure TypeRight (guids : RootGuids) (fw : Firmware)
    (type : MemCardType) : Prop where
  exists_device : type ≠ .unknown → HasDevice guids fw type
  ufs : HasDevice guids fw .ufs → ¬ HasDevice guids fw .emmc → type = .ufs
  emmc : HasDevice guids fw .emmc → ¬ HasDevice guids fw .ufs →
    type = .emmc
  neither : ¬ HasDevice guids fw .ufs → ¬ HasDevice guids fw .emmc →
    type = .unknown

/-- Block I/O can be opened on every handle that has it, up to the 128th
device of the type. -/
def Opens (guids : RootGuids) (fw : Firmware) (type : MemCardType) : Prop :=
  ∀ g, guids.rootDeviceType type = some g →
    ∀ h ∈ reached (isDevice g) handleMaxInfoList (fw.located 0),
      h.blockIo = efiSuccess

/-- The card information is there and can be asked. -/
def MemCardInfo.Answers (card : MemCardInfo) : Prop :=
  efiError card.locateProtocol = false ∧ efiError card.getCardInfo = false

/-- The card information names a type. -/
def MemCardInfo.Names (card : MemCardInfo) (name : List CHAR8) : Prop :=
  card.Answers ∧ asciiStrnCmp card.cardType name name.length = 0

/-- The first type whose handles all open, eMMC before UFS, has a device;
with no such type, or none asked for, both types have one or neither. -/
structure ProbeFinds (guids : RootGuids) (fw : Firmware)
    (card : MemCardInfo) : Prop where
  emmc : card.Answers → Opens guids fw .emmc → HasDevice guids fw .emmc
  ufs : card.Answers → ¬ Opens guids fw .emmc → Opens guids fw .ufs →
    HasDevice guids fw .ufs
  neither : ¬ (card.Answers
      ∧ (Opens guids fw .emmc ∨ Opens guids fw .ufs)) →
    (HasDevice guids fw .emmc ↔ HasDevice guids fw .ufs)

section Probe

variable {guids : RootGuids} {fw : Firmware}

/-- The check for a root device finds the handles that begin with it. -/
theorem isDevice_eq (g : EfiGuid) (h : Handle) :
    (check (adjustDefaults blkIoSelMatchRootDevice)
      (some (deviceFilter g)) h).passes = isDevice g h := by
  rw [show blkIoSelMatchRootDevice = rootMask false from rfl,
    check_root (g := g) rfl, Verdict.andThen_passes, openBlockIo_passes,
    Verdict.need_passes, onRootDevice_toBlkIoHandle]
  unfold isDevice
  simp

/-- The check stops only where the protocol cannot be opened. -/
theorem check_device_error {g : EfiGuid} {h : Handle}
    (hh : h ∈ fw.located 0) :
    (check (adjustDefaults blkIoSelMatchRootDevice)
      (some (deviceFilter g)) h).error = none
        ↔ h.blockIo = efiSuccess := by
  have hun : h.blockIo ≠ efiUnsupported := by
    have hmem := (List.mem_filter.1 hh).2
    simpa using hmem
  rw [show blkIoSelMatchRootDevice = rootMask false from rfl,
    check_root (g := g) rfl, Verdict.andThen_error, Verdict.need_error]
  unfold openBlockIo
  rw [if_neg hun]
  by_cases herr : h.blockIo ≠ efiSuccess
  · rw [if_pos herr]
    simp [Verdict.error, Verdict.passes, herr]
  · rw [if_neg herr]
    simpa [Verdict.error, Verdict.passes] using herr

/-- A probe succeeds exactly when nothing it looks at fails to open;
whether anything matched does not matter. -/
theorem getDeviceHandleInfo_ok (guids : RootGuids)
    (hloc : (fw.locate 0).1 = efiSuccess) (type : MemCardType)
    (htype : type ≠ .unknown) :
    ∃ status stored,
      getDeviceHandleInfo guids fw handleMaxInfoList type
          = some (status, stored)
        ∧ (status = efiSuccess ↔ Opens guids fw type) := by
  obtain ⟨g, hg⟩ : ∃ g, guids.rootDeviceType type = some g := by
    cases type with
    | emmc => exact ⟨_, rfl⟩
    | ufs => exact ⟨_, rfl⟩
    | unknown => exact absurd rfl htype
  have herror := select_error (check (adjustDefaults
    blkIoSelMatchRootDevice) (some (deviceFilter g))) handleMaxInfoList
      (fw.located 0) []
  have hopens : (select (check (adjustDefaults blkIoSelMatchRootDevice)
      (some (deviceFilter g))) handleMaxInfoList (fw.located 0) []).1 = none
        ↔ Opens guids fw type := by
    rw [herror, List.findSome?_eq_none_iff]
    unfold Opens
    rw [hg]
    simp only [Option.some.injEq, forall_eq', isDevice_eq]
    apply forall_congr'
    intro h
    apply forall_congr'
    intro hh
    exact check_device_error (reached_subset _ _ _ h hh)
  obtain ⟨e, hne, h1, -⟩ := @select_root false (deviceFilter g) g rfl
    handleMaxInfoList (fw.located 0) []
  have hlookup := @getBlkIOHandles_located blkIoSelMatchRootDevice
    (some (deviceFilter g)) handleMaxInfoList fw hloc
  rw [show fw.located (adjustDefaults blkIoSelMatchRootDevice)
    = fw.located 0 from rfl] at hlookup
  unfold getDeviceHandleInfo
  rw [hg]
  dsimp only
  rw [hlookup, ← hopens]
  rw [show rootMask false = blkIoSelMatchRootDevice from rfl] at h1
  generalize select (check (adjustDefaults blkIoSelMatchRootDevice)
    (some (deviceFilter g))) handleMaxInfoList (fw.located 0) [] = res
      at h1
  obtain ⟨error, stored⟩ := res
  dsimp only at h1
  rw [h1]
  cases e with
  | none => exact ⟨_, _, rfl, iff_of_true rfl rfl⟩
  | some status =>
      refine ⟨_, _, rfl, iff_of_false ?_ nofun⟩
      intro hcon
      exact hne (congrArg some hcon)

/-- The first type whose probe succeeds is the answer. -/
theorem getCompatibleRootDeviceType_eq
    (hloc : (fw.locate 0).1 = efiSuccess) :
    (Opens guids fw .emmc →
        getCompatibleRootDeviceType guids fw = some .emmc)
      ∧ (¬ Opens guids fw .emmc → Opens guids fw .ufs →
        getCompatibleRootDeviceType guids fw = some .ufs)
      ∧ (¬ Opens guids fw .emmc → ¬ Opens guids fw .ufs →
        getCompatibleRootDeviceType guids fw = some .unknown) := by
  obtain ⟨_, _, h1, hok1⟩ := getDeviceHandleInfo_ok guids hloc .emmc nofun
  obtain ⟨_, _, h2, hok2⟩ := getDeviceHandleInfo_ok guids hloc .ufs nofun
  unfold getCompatibleRootDeviceType firstDeviceType firstDeviceType
    firstDeviceType
  rw [h1, h2]
  dsimp only
  refine ⟨fun he => ?_, fun he hu => ?_, fun he hu => ?_⟩
  · rw [if_pos (hok1.2 he)]
  · rw [if_neg (mt hok1.1 he), if_pos (hok2.2 hu)]
  · rw [if_neg (mt hok1.1 he), if_neg (mt hok2.1 hu)]

/-- An answer that names a type is right when there is such a device. -/
theorem typeRight_of_named {type : MemCardType} (htype : type ≠ .unknown) :
    TypeRight guids fw type ↔ HasDevice guids fw type := by
  refine ⟨fun h => h.exists_device htype, fun h => ⟨fun _ => h, ?_, ?_, ?_⟩⟩
  · intro hu he
    cases type with
    | ufs => rfl
    | emmc => exact absurd h he
    | unknown => exact absurd rfl htype
  · intro he hu
    cases type with
    | ufs => exact absurd h hu
    | emmc => rfl
    | unknown => exact absurd rfl htype
  · intro hu he
    cases type with
    | ufs => exact absurd h hu
    | emmc => exact absurd h he
    | unknown => rfl

/-- The answer `UNKNOWN` is right when both types exist or neither. -/
theorem typeRight_unknown :
    TypeRight guids fw .unknown
      ↔ (HasDevice guids fw .emmc ↔ HasDevice guids fw .ufs) := by
  constructor
  · intro h
    constructor
    · intro he
      by_contra hu
      cases h.emmc he hu
    · intro hu
      by_contra he
      cases h.ufs hu he
  · intro h
    refine ⟨fun hcon => absurd rfl hcon, ?_, ?_, fun _ _ => rfl⟩
    · intro hu he
      exact absurd (h.2 hu) he
    · intro he hu
      exact absurd (h.1 he) hu

end Probe

/-- With a card information that names no type the answer is right
exactly when there is a device of the type it remembers, or it remembers
none and the probe finds what there is. -/
theorem checkRootDeviceType_right_iff (guids : RootGuids) (fw : Firmware)
    (card : MemCardInfo) (type : MemCardType)
    (hloc : (fw.locate 0).1 = efiSuccess)
    (hufs : ¬ card.Names ufsName) (hemmc : ¬ card.Names emmcName) :
    (∃ t, checkRootDeviceType guids fw card type = some t
        ∧ TypeRight guids fw t)
      ↔ (type ≠ .unknown → HasDevice guids fw type)
        ∧ (type = .unknown → ProbeFinds guids fw card) := by
  have hanswer : ∀ {x : Option MemCardType} {t : MemCardType},
      x = some t → ((∃ t, x = some t ∧ TypeRight guids fw t)
        ↔ TypeRight guids fw t) := by
    intro x t hx
    rw [hx]
    simp
  unfold checkRootDeviceType
  by_cases htype : type ≠ .unknown
  · -- a remembered type
    rw [if_pos htype, hanswer rfl, typeRight_of_named htype]
    exact ⟨fun h => ⟨fun _ => h, fun hcon => absurd hcon htype⟩,
      fun h => h.1 htype⟩
  · rw [if_neg htype]
    rw [not_not] at htype
    have hfirst : (type ≠ .unknown → HasDevice guids fw type)
        ∧ (type = .unknown → ProbeFinds guids fw card)
          ↔ ProbeFinds guids fw card :=
      ⟨fun h => h.2 htype, fun h => ⟨absurd htype, fun _ => h⟩⟩
    rw [hfirst]
    by_cases hans : card.Answers
    · rw [if_neg (by simp [hans.1]), if_neg (by simp [hans.2]),
        if_neg fun hcon => hufs ⟨hans, hcon⟩,
        if_neg fun hcon => hemmc ⟨hans, hcon⟩]
      obtain ⟨hprobe1, hprobe2, hprobe3⟩ :=
        @getCompatibleRootDeviceType_eq guids fw hloc
      have hne1 : MemCardType.emmc ≠ .unknown := nofun
      have hne2 : MemCardType.ufs ≠ .unknown := nofun
      by_cases he : Opens guids fw .emmc
      · rw [hanswer (hprobe1 he), typeRight_of_named hne1]
        exact ⟨fun h => ⟨fun _ _ => h, fun _ hcon => absurd he hcon,
          fun hcon => absurd ⟨hans, Or.inl he⟩ hcon⟩,
          fun h => h.emmc hans he⟩
      · by_cases hu : Opens guids fw .ufs
        · rw [hanswer (hprobe2 he hu), typeRight_of_named hne2]
          exact ⟨fun h => ⟨fun _ hcon => absurd hcon he, fun _ _ _ => h,
            fun hcon => absurd ⟨hans, Or.inr hu⟩ hcon⟩,
            fun h => h.ufs hans he hu⟩
        · rw [hanswer (hprobe3 he hu), typeRight_unknown]
          exact ⟨fun h => ⟨fun _ hcon => absurd hcon he,
            fun _ _ hcon => absurd hcon hu, fun _ => h⟩,
            fun h => h.neither fun hcon => hcon.2.elim he hu⟩
    · -- the card information cannot be asked: the type stays unknown
      have hstays : ∀ x : Option MemCardType,
          (if efiError card.locateProtocol then some type
            else if efiError card.getCardInfo then some type
            else x) = some .unknown := by
        intro x
        rw [htype]
        by_cases hl : efiError card.locateProtocol = true
        · rw [if_pos hl]
        · by_cases hc : efiError card.getCardInfo = true
          · rw [if_neg hl, if_pos hc]
          · rw [Bool.not_eq_true] at hl hc
            exact absurd ⟨hl, hc⟩ hans
      rw [hanswer (hstays _), typeRight_unknown]
      exact ⟨fun h => ⟨fun hcon => absurd hcon hans,
        fun hcon => absurd hcon hans, fun _ => h⟩,
        fun h => h.neither fun hcon => hans hcon.1⟩

/-- A system whose handles are given. -/
def firmwareWith (handles : List Handle) : Firmware where
  handles := handles
  locateHandleBuffer := efiSuccess

/-- Two different GUIDs. -/
def sampleGuids : RootGuids where
  emmcUserPartition := EfiGuid.zero
  ufsLU0 := { bytes := 1 :: List.replicate 15 0, size := rfl }

/-- A whole disk on a root device. -/
def diskHandle (g : EfiGuid) : Handle where
  blockIo := efiSuccess
  removableMedia := false
  devicePath := some [⟨⟨1, 4, 20, g⟩, 0⟩]
  protocols := fun _ => false
  partEntry := none
  fileSystem := none

/-- The documented name of the other card type, `MMC`. -/
def mmcCard : MemCardInfo where
  locateProtocol := efiSuccess
  getCardInfo := efiSuccess
  cardType := [0x4d, 0x4d, 0x43, 0]

/-- An eMMC disk is found. -/
theorem checkRootDeviceType_right_iff_sample :
    ∃ t, checkRootDeviceType sampleGuids
        (firmwareWith [diskHandle EfiGuid.zero]) mmcCard .unknown = some t
      ∧ TypeRight sampleGuids (firmwareWith [diskHandle EfiGuid.zero]) t :=
  (checkRootDeviceType_right_iff _ _ _ _ rfl
    (fun h => absurd h.2 (by decide +kernel))
    (fun h => absurd h.2 (by decide +kernel))).2
    ⟨fun h => absurd rfl h, fun _ => by
      have hdev : HasDevice sampleGuids
          (firmwareWith [diskHandle EfiGuid.zero]) .emmc :=
        ⟨_, rfl, _, List.mem_singleton_self _, rfl⟩
      have hopens : Opens sampleGuids
          (firmwareWith [diskHandle EfiGuid.zero]) .emmc := by
        intro g _ h hh
        have hmem := (List.mem_filter.1 (reached_subset _ _ _ h hh)).1
        rw [List.mem_singleton.1 hmem]
        rfl
      exact ⟨fun _ _ => hdev, fun _ hcon => absurd hopens hcon,
        fun hcon => absurd ⟨⟨rfl, rfl⟩, Or.inl hopens⟩ hcon⟩⟩

/-- A device with a UFS disk only is taken for an eMMC device. -/
theorem checkRootDeviceType_ufs_only :
    checkRootDeviceType sampleGuids
        (firmwareWith [diskHandle sampleGuids.ufsLU0]) mmcCard .unknown
      = some .emmc
    ∧ ¬ ∀ guids fw card type, (fw.locate 0).1 = efiSuccess →
        ¬ card.Names ufsName → ¬ card.Names emmcName →
        ∃ t, checkRootDeviceType guids fw card type = some t
          ∧ TypeRight guids fw t := by
  refine ⟨rfl, fun hall => ?_⟩
  obtain ⟨t, ht, hright⟩ := hall sampleGuids
    (firmwareWith [diskHandle sampleGuids.ufsLU0]) mmcCard .unknown rfl
    (fun h => absurd h.2 (by decide +kernel))
    (fun h => absurd h.2 (by decide +kernel))
  cases (show some MemCardType.emmc = some t from ht)
  obtain ⟨g, hg, h, hh, hdev⟩ := hright.exists_device nofun
  cases hg
  rw [List.mem_singleton.1 hh] at hdev
  exact absurd hdev (by decide)

end Edk2Exynos.BlkIo
