/-
A/B slot handling (PartitionTableUpdate.c): the attribute words of
`boot_a` and `boot_b`, the exchange of type GUIDs when the slot changes,
and the boot LU that goes with it.

# Which slot is active

A slot is active when its boot entry has the ACTIVE bit and the greater
nonzero priority; on a table whose `boot_a` has never been used
`GetActiveSlot` makes it active (first boot). `SetActiveSlot` writes both
boot entries first and then asks whether the slot changed: only then are
the type GUIDs of all slot pairs exchanged and every partition's ACTIVE
bit rewritten by a substring match on its name.

# The list of pairs

`GetMultiSlotPartsList` builds the list of slotted base names once; it is
kept for the lifetime of the driver, also when an allocation failed on
the way. A node's name field is followed in memory by its `Next` pointer,
and reading the name may run into it.
-/
import Edk2Exynos.BootSlot.Strings
import Edk2Exynos.BootSlot.Update

namespace Edk2Exynos.BootSlot

open Lib

-- ============================================================ attributes

/-- `PART_ATT_PRIORITY_BIT` -/
def partAttPriorityBit : Nat := 48
/-- `PART_ATT_ACTIVE_BIT` -/
def partAttActiveBit : Nat := 50
/-- `PART_ATT_MAX_RETRY_CNT_BIT` -/
def partAttMaxRetryCntBit : Nat := 51
/-- `PART_ATT_SUCCESS_BIT` -/
def partAttSuccessBit : Nat := 54
/-- `PART_ATT_UNBOOTABLE_BIT` -/
def partAttUnbootableBit : Nat := 55

/-- `PART_ATT_PRIORITY_VAL` -/
def partAttPriorityVal : UINT64 := 0x3 <<< partAttPriorityBit
/-- `PART_ATT_ACTIVE_VAL` -/
def partAttActiveVal : UINT64 := 0x1 <<< partAttActiveBit
/-- `PART_ATT_MAX_RETRY_COUNT_VAL` -/
def partAttMaxRetryCountVal : UINT64 := 0x7 <<< partAttMaxRetryCntBit
/-- `PART_ATT_SUCCESSFUL_VAL` -/
def partAttSuccessfulVal : UINT64 := 0x1 <<< partAttSuccessBit
/-- `PART_ATT_UNBOOTABLE_VAL` -/
def partAttUnbootableVal : UINT64 := 0x1 <<< partAttUnbootableBit

/-- `MAX_PRIORITY` -/
def maxPriority : UINT64 := 3

/-- The priority field of an attribute word. -/
def priority (a : UINT64) : UINT64 :=
  (a &&& partAttPriorityVal) >>> partAttPriorityBit

-- ======================================================= names and slots

/-- `BOOT_PART_SIZE` -/
def bootPartSize : Nat := 32
/-- `MAX_SLOT_SUFFIX_SZ` -/
def maxSlotSuffixSz : Nat := 3
/-- The length of `PartitionName`. -/
def partitionNameSize : Nat := 36
/-- `MIN_SLOTS` -/
def minSlots : Nat := 1

/-- `Slot`, by the content of its suffix buffer. -/
structure Slot where
  suffix : List CHAR16
  deriving DecidableEq

/-- `{{0}}` -/
def Slot.zero : Slot where
  suffix := []

/-- `_a` -/
def suffixA : List CHAR16 := [0x5f, 0x61]
/-- `_b` -/
def suffixB : List CHAR16 := [0x5f, 0x62]
/-- `boot` -/
def bootName : List CHAR16 := [0x62, 0x6f, 0x6f, 0x74]

/-- The slot with the suffix `_a`. -/
def slotA : Slot where
  suffix := suffixA

/-- The slot with the suffix `_b`. -/
def slotB : Slot where
  suffix := suffixB

/-- The units from a `PartitionName` on: the field, then `lun`. -/
def PartitionEntry.name (p : PartitionEntry) : List CHAR16 :=
  p.partEntry.partitionName
    ++ [BitVec.ofNat 16 p.lun, BitVec.ofNat 16 (p.lun / 2 ^ 16)]

/-- `GetPartitionIndex` -/
def getPartitionIndex (pname : List CHAR16) (t : List PartitionEntry) :
    Option Nat :=
  t.findIdx? fun p => strnCmp p.name pname partitionNameSize == 0

/-- `GetBootPartitionEntry`: the index of the entry. -/
def getBootPartitionEntry (bootSlot : Slot) (t : List PartitionEntry) :
    Option Nat :=
  if strnCmp suffixA bootSlot.suffix (strLen bootSlot.suffix) = 0 then
    getPartitionIndex (bootName ++ suffixA) t
  else if strnCmp suffixB bootSlot.suffix (strLen bootSlot.suffix) = 0 then
    getPartitionIndex (bootName ++ suffixB) t
  else none

/-- The attribute word of entry `i`. -/
def attributesAt (t : List PartitionEntry) (i : Nat) : UINT64 :=
  (t.getD i PartitionEntry.zero).partEntry.attributes

/-- An assignment to the attribute word of entry `i`. -/
def modifyAttributes (i : Nat) (f : UINT64 → UINT64)
    (t : List PartitionEntry) : List PartitionEntry :=
  t.modify i fun p => p.withAttributes (f p.partEntry.attributes)

/-- The state with another table. -/
def St.withEntries (t : List PartitionEntry) (s : St) : St :=
  { s with ptnEntries := t }

@[simp] theorem St.withEntries_ptnEntries (t : List PartitionEntry)
    (s : St) : (s.withEntries t).ptnEntries = t := rfl

@[simp] theorem St.withEntries_withEntries (t t' : List PartitionEntry)
    (s : St) : (s.withEntries t).withEntries t' = s.withEntries t' := rfl

/-- The state after one more call about the boot LUN. -/
def St.logBootLun (c : BootLunCall) (s : St) : St :=
  { s with bootLunCalls := s.bootLunCalls ++ [c] }

/-- `IsSuffixEmpty` -/
def isSuffixEmpty (slot : Slot) : Bool := strLen slot.suffix == 0

/-- `PartitionHasMultiSlot` -/
def partitionHasMultiSlot (pname : List CHAR16) (t : List PartitionEntry) :
    Bool :=
  let len := strLen pname
  let hasSuffix := fun (p : PartitionEntry) =>
    strnCmp p.name pname len == 0
      && p.name.getD len 0 == 0x5f
      && (p.name.getD (len + 1) 0 == 0x61
        || p.name.getD (len + 1) 0 == 0x62)
  decide (minSlots < t.countP hasSuffix)

-- ======================================================= the active slot

/-- `IsSlotBootable` -/
def isSlotBootable (bootSlot : Slot) (t : List PartitionEntry) : Bool :=
  match getBootPartitionEntry bootSlot t with
  | none => false
  | some i =>
      attributesAt t i &&& partAttUnbootableVal == 0
        && attributesAt t i &&& partAttSuccessfulVal != 0

/-- What `ClearUnbootable` does to a boot entry. -/
def clearAttributes (a : UINT64) : UINT64 :=
  (a &&& ~~~partAttUnbootableVal) ||| partAttMaxRetryCountVal

/-- `ClearUnbootable` -/
def clearUnbootable (env : Env) (bootSlot : Slot) (s : St) :
    EfiStatus × St :=
  match getBootPartitionEntry bootSlot s.ptnEntries with
  | none => (efiNotFound, s)
  | some i =>
      (efiSuccess, updatePartitionAttributes env .partitionAttributes
        (s.withEntries (modifyAttributes i clearAttributes s.ptnEntries)))

/-- The loop of `GetActiveSlot`. What it stored stays stored when a later
boot entry is missing. -/
def findActiveSlot (t : List PartitionEntry) :
    List Slot → Slot → UINT64 → EfiStatus × Slot
  | [], activeSlot, _ => (efiSuccess, activeSlot)
  | slot :: slots, activeSlot, prio =>
      match getBootPartitionEntry slot t with
      | none => (efiNotFound, activeSlot)
      | some i =>
          let bootPriority := priority (attributesAt t i)
          if attributesAt t i &&& partAttActiveVal ≠ 0
              ∧ prio < bootPriority then
            let (status, suffix) := strnCpyS activeSlot.suffix
              maxSlotSuffixSz slot.suffix (strLen slot.suffix)
            if status ≠ efiSuccess then (status, activeSlot)
            else findActiveSlot t slots { suffix := suffix } bootPriority
          else findActiveSlot t slots activeSlot prio

/-- `boot_a` has never been touched. -/
def IsFirstBoot (a : UINT64) : Prop :=
  a &&& partAttActiveVal = 0 ∧ a &&& partAttSuccessfulVal = 0
    ∧ a &&& partAttUnbootableVal = 0 ∧ priority a = 0

instance (a : UINT64) : Decidable (IsFirstBoot a) :=
  inferInstanceAs (Decidable (_ ∧ _ ∧ _ ∧ _))

/-- What the first boot does to `boot_a`. -/
def firstBootAttributes (a : UINT64) : UINT64 :=
  (a &&& (~~~partAttSuccessfulVal &&& ~~~partAttUnbootableVal))
    ||| (partAttPriorityVal ||| partAttActiveVal
      ||| partAttMaxRetryCountVal)

/-- `GetActiveSlot`, with the in-out parameter as argument and result. -/
def getActiveSlot (env : Env) (activeSlot : Slot) (s : St) :
    EfiStatus × Slot × St :=
  match findActiveSlot s.ptnEntries [slotA, slotB] activeSlot 0 with
  | (status, activeSlot) =>
  if status ≠ efiSuccess then (status, activeSlot, s)
  else if isSuffixEmpty activeSlot then
    match getBootPartitionEntry slotA s.ptnEntries with
    | none => (efiNotFound, activeSlot, s)
    | some i =>
        if IsFirstBoot (attributesAt s.ptnEntries i) then
          let s := s.withEntries
            (modifyAttributes i firstBootAttributes s.ptnEntries)
          let (status, suffix) := strnCpyS activeSlot.suffix
            maxSlotSuffixSz slotA.suffix (strLen slotA.suffix)
          if status ≠ efiSuccess then (status, activeSlot, s)
          else (efiSuccess, { suffix := suffix },
            updatePartitionAttributes env .partitionAttributes s)
        else (efiNotFound, activeSlot, s)
  else (efiSuccess, activeSlot, s)

/-- `GetCurrentSlotSuffix` -/
def getCurrentSlotSuffix (env : Env) (s : St) : Slot × St :=
  if partitionHasMultiSlot bootName s.ptnEntries then
    (getActiveSlot env Slot.zero s).2
  else (Slot.zero, s)

/-- `MarkPtnActive` -/
def markPtnActive (env : Env) (activeSlot : List CHAR16) (s : St) : St :=
  updatePartitionAttributes env .partitionAttributes
    (s.withEntries (s.ptnEntries.map fun p =>
      if strStr p.name activeSlot then
        p.withAttributes (p.partEntry.attributes ||| partAttActiveVal)
      else
        p.withAttributes (p.partEntry.attributes &&& ~~~partAttActiveVal)))

-- ======================================================== the slot pairs

/-- The units from a node's `PartName` on: the field, then `Next`. -/
def BootPartsNode.name (n : BootPartsNode) : List CHAR16 :=
  n.partName ++ [n.next.setWidth 16, (n.next >>> 16).setWidth 16,
    (n.next >>> 32).setWidth 16, (n.next >>> 48).setWidth 16]

/-- The inner test of `GetMultiSlotPartsList`: `q` is the other slot of
the partition named `searchString`. -/
def isOtherSlot (searchString : List CHAR16) (q : PartitionEntry) : Bool :=
  let len := strLen searchString
  q.name.headD 0 != 0
    && strLen q.name == len
    && strnCmp q.name searchString (len - 1) == 0
    && (strStr searchString suffixA || strStr searchString suffixB)

/-- The node of a partition name, put before the list `nodes`. The size
given to `StrnCpyS` is the field's in bytes, twice its units. -/
def newNode (addr : UINT64) (searchString : List CHAR16)
    (nodes : List BootPartsNode) : BootPartsNode where
  addr := addr
  partName := ((strnCpyS [] (2 * bootPartSize) searchString
    (strLen searchString - 2)).2 ++ List.replicate bootPartSize 0).take
      bootPartSize
  next := match nodes with
    | [] => 0
    | n :: _ => n.addr

/-- The loops of `GetMultiSlotPartsList`, over the rest of the table. -/
def multiSlotParts (env : Env) : List PartitionEntry → St → EfiStatus × St
  | [], s => (efiSuccess, s)
  | p :: ps, s =>
      if p.name.headD 0 = 0 then multiSlotParts env ps s
      else if ps.any (isOtherSlot p.name) then
        let addr := env.nodeAddr s.nodeTick
        let s := { s with nodeTick := s.nodeTick + 1 }
        if addr = 0 then (efiOutOfResources, s)
        else
          let node := newNode addr p.name s.headNode
          multiSlotParts env ps { s with headNode := node :: s.headNode }
      else multiSlotParts env ps s

/-- `GetMultiSlotPartsList` -/
def getMultiSlotPartsList (env : Env) (s : St) : EfiStatus × St :=
  multiSlotParts env s.ptnEntries s

/-- A base name with a suffix, built in a `CHAR16[BOOT_PART_SIZE]`. -/
def slotName (base suffix : List CHAR16) : List CHAR16 :=
  let name := (strnCpyS [] bootPartSize base (strLen base)).2
  (strnCatS name bootPartSize suffix (strLen suffix)).2

/-- The search of `SwitchPtnSlots`: the last entries of the two names. -/
def findPair (curSlot newSlot : List CHAR16) (t : List PartitionEntry) :
    Option Nat × Option Nat :=
  t.zipIdx.foldl (fun (cur, new) (p, i) =>
    if strnCmp p.name curSlot (strLen curSlot) = 0 then (some i, new)
    else if strnCmp p.name newSlot (strLen newSlot) = 0 then (cur, some i)
    else (cur, new)) (none, none)

/-- The type GUID of an entry. -/
def guidAtIndex (t : List PartitionEntry) (i : Nat) : EfiGuid :=
  (t.getD i PartitionEntry.zero).partEntry.partitionTypeGuid

/-- The entry with another type GUID. -/
def PartitionEntry.withGuid (g : EfiGuid) (p : PartitionEntry) :
    PartitionEntry :=
  { p with partEntry := { p.partEntry with partitionTypeGuid := g } }

/-- `SwapPtnGuid`, which ignores a missing entry. -/
def swapPtnGuid (p1 p2 : Option Nat) (t : List PartitionEntry) :
    List PartitionEntry :=
  match p1, p2 with
  | some i, some j =>
      let temp := guidAtIndex t i
      let t := t.modify i (PartitionEntry.withGuid (guidAtIndex t j))
      t.modify j (PartitionEntry.withGuid temp)
  | _, _ => t

/-- The loop of `SwitchPtnSlots` over the list of pairs. -/
def swapPairs (setInactive setActive : List CHAR16)
    (nodes : List BootPartsNode) (t : List PartitionEntry) :
    List PartitionEntry :=
  nodes.foldl (fun t n =>
    let (cur, new) := findPair (slotName n.name setInactive)
      (slotName n.name setActive) t
    swapPtnGuid cur new t) t

-- =========================================================== the boot LU

/-- `UfsGetSetBootLun`: the status, and the LU number left in the
caller's variable. The status of the protocol call itself is dropped. -/
def ufsGetSetBootLun (env : Env) (ufsBootlun : UINT32) (isGet : Bool)
    (s : St) : EfiStatus × UINT32 × St :=
  let r := env.cardInfo s.cardTick
  let s := { s with cardTick := s.cardTick + 1 }
  if efiError r.blkIoHandles then (efiNotFound, ufsBootlun, s)
  else if r.handleProtocol ≠ efiSuccess then
    (r.handleProtocol, ufsBootlun, s)
  else if ¬ r.revisionOk then (efiNotFound, ufsBootlun, s)
  else if isGet then
    let lun := r.bootLun.getD ufsBootlun
    (efiSuccess, lun, s.logBootLun (.getBootLU r.result lun))
  else (efiSuccess, ufsBootlun, s.logBootLun (.setBootLU ufsBootlun))

/-- The boot-LU part of `SwitchPtnSlots`. -/
def switchBootLun (env : Env) (setActive : List CHAR16) (s : St) : St :=
  let (_, lun, s) := ufsGetSetBootLun env 0 true s
  let lun :=
    if lun = 1 ∧ strnCmp setActive suffixB (strLen suffixB) = 0 then 2
    else if lun = 2 ∧ strnCmp setActive suffixA (strLen suffixA) = 0 then 1
    else lun
  (ufsGetSetBootLun env lun false s).2.2

/-- The boot-LU part of `SetActiveSlot` when the slot is active already. -/
def checkBootLun (env : Env) (currentSlot : Slot) (s : St) : St :=
  let (_, lun, s) := ufsGetSetBootLun env 0 true s
  if lun = 1
      ∧ strnCmp currentSlot.suffix suffixB (strLen suffixB) = 0 then
    (ufsGetSetBootLun env 2 false s).2.2
  else if lun = 2
      ∧ strnCmp currentSlot.suffix suffixA (strLen suffixA) = 0 then
    (ufsGetSetBootLun env 1 false s).2.2
  else s

-- ======================================================= the slot switch

/-- The inactive suffix for a newly active one. -/
def inactiveSuffix (setActive : List CHAR16) : List CHAR16 :=
  if strnCmp setActive suffixA (strLen suffixA) = 0 then
    (strnCpyS [] maxSlotSuffixSz suffixB (strLen suffixB)).2
  else (strnCpyS [] maxSlotSuffixSz suffixA (strLen suffixA)).2

/-- `SwitchPtnSlots` -/
def switchPtnSlots (env : Env) (setActive : List CHAR16) (s : St) : St :=
  match (if s.headNode = [] then getMultiSlotPartsList env s
    else (efiSuccess, s)) with
  | (status, s) =>
  if status ≠ efiSuccess then s else
  let s := s.withEntries (swapPairs (inactiveSuffix setActive) setActive
    s.headNode s.ptnEntries)
  let s := if env.rootDeviceType = .ufs then switchBootLun env setActive s
    else s
  updatePartitionAttributes env .partitionGuid s

/-- What `SetActiveSlot` does to the boot entry of the new slot. -/
def activateAttributes (resetSuccessBit setSuccessBit : Bool)
    (a : UINT64) : UINT64 :=
  let a := a ||| (partAttPriorityVal ||| partAttActiveVal
    ||| partAttMaxRetryCountVal)
  let a := a &&& ~~~partAttUnbootableVal
  let a := if resetSuccessBit ∧ a &&& partAttSuccessfulVal ≠ 0 then
    a &&& ~~~partAttSuccessfulVal else a
  if setSuccessBit ∧ a &&& partAttSuccessfulVal = 0 then
    a ||| partAttSuccessfulVal else a

/-- What it does to the boot entry of the alternate slot. -/
def retireAttributes (a : UINT64) : UINT64 :=
  (a &&& (~~~partAttPriorityVal &&& ~~~partAttActiveVal))
    ||| ((maxPriority - 1) <<< partAttPriorityBit)

/-- `SetActiveSlot` -/
def setActiveSlot (env : Env) (newSlot : Slot)
    (resetSuccessBit setSuccessBit : Bool) (s : St) : EfiStatus × St :=
  match getActiveSlot env Slot.zero s with
  | (status, currentSlot, s) =>
  if status ≠ efiSuccess then (status, s) else
  let alternateSlot :=
    if strnCmp newSlot.suffix suffixA (strLen suffixA) = 0 then slotB
    else slotA
  match getBootPartitionEntry newSlot s.ptnEntries with
  | none => (efiNotFound, s)
  | some i =>
  let s := s.withEntries (modifyAttributes i
    (activateAttributes resetSuccessBit setSuccessBit) s.ptnEntries)
  match getBootPartitionEntry alternateSlot s.ptnEntries with
  | none => (efiNotFound, s)
  | some j =>
  let s := s.withEntries (modifyAttributes j retireAttributes s.ptnEntries)
  let s := updatePartitionAttributes env .partitionAttributes s
  if strnCmp currentSlot.suffix newSlot.suffix
      (strLen currentSlot.suffix) = 0 then
    if env.rootDeviceType = .ufs then
      (efiSuccess, checkBootLun env currentSlot s)
    else (efiSuccess, s)
  else
    let s := switchPtnSlots env newSlot.suffix s
    (efiSuccess, markPtnActive env newSlot.suffix s)

end Edk2Exynos.BootSlot
