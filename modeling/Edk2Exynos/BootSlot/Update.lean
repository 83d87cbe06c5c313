/-
`UpdatePartitionAttributes` (PartitionTableUpdate.c): the write-back of
the in-memory partition table into the two GPT copies of every LUN.

# The walk

For one copy the function reads header and entry array into one buffer
and then walks the whole in-memory table, advancing a pointer through
the buffer's entry array as it goes. The pointer starts at slot 0 and
moves on by one slot per table entry it handles; nothing but that count
ties a table entry to a slot. Three branches do not move it: an entry
whose type GUID has `Data1 = 0` (taken for the LUN's own handle), an
entry of an earlier LUN, and, when attributes are to be written, a slot
whose nonzero type GUID differs from the entry's.

# Failures

Every read, CRC, write and allocation has an outcome from `Env.io`. A
failed call ends the function; a failed `WriteBlocks` leaves the medium
as it was. The result `false` of a step means the function ended there
(`return` or `goto Exit`), `true` that the loop goes on.
-/
import Edk2Exynos.BootSlot.Base
import Edk2Exynos.Lib.Crc32

namespace Edk2Exynos.BootSlot

open Lib

-- ========================================================= what to write

/-- `UPDATE_TYPE`. -/
inductive UpdateType where
  | partitionAttributes
  | partitionGuid
  | partitionAll
  deriving DecidableEq

/-- `UpdateType & PARTITION_ATTRIBUTES_MASK`. -/
def UpdateType.attributesMask : UpdateType → Bool
  | .partitionGuid => false
  | _ => true

/-- `UpdateType & PARTITION_GUID_MASK`. -/
def UpdateType.guidMask : UpdateType → Bool
  | .partitionAttributes => false
  | _ => true

-- ======================================================= one table entry

/-- The loop's local variables: `PtnEntriesPtr` as an offset into the
buffer, the buffer, and `SkipUpdation`. -/
structure Walk where
  ptr : Nat
  buf : Mem
  skipUpdation : Bool

/-- The GUID half of the loop body, with the entry of `PtnEntriesBak`. -/
def updateGuid (u : UpdateType) (p b : PartitionEntry) (w : Walk) :
    Walk × PartitionEntry :=
  if u.guidMask
      ∧ guidAt w.buf w.ptr ≠ p.partEntry.partitionTypeGuid then
    ({ w with
        buf := writeBytes w.buf w.ptr p.partEntry.partitionTypeGuid.bytes
        skipUpdation := false },
      { b with partEntry := { b.partEntry with
          partitionTypeGuid := p.partEntry.partitionTypeGuid } })
  else (w, b)

/-- The attribute half of the loop body; `attr` was read from the slot
before the GUID half ran. A slot with another partition's GUID is left
alone and the pointer stays. -/
def updateAttributes (u : UpdateType) (attr : UINT64)
    (p b : PartitionEntry) (w : Walk) : Walk × PartitionEntry :=
  if u.attributesMask then
    if (guidAt w.buf w.ptr).data1 = 0
        ∨ guidAt w.buf w.ptr = p.partEntry.partitionTypeGuid then
      if attr ≠ p.partEntry.attributes then
        ({ ptr := w.ptr + partitionEntrySize
           buf := putLongLong w.buf (w.ptr + attributeFlagOffset)
             p.partEntry.attributes
           skipUpdation := false },
          { b with partEntry := { b.partEntry with
              attributes := p.partEntry.attributes } })
      else ({ w with ptr := w.ptr + partitionEntrySize }, b)
    else (w, b)
  else ({ w with ptr := w.ptr + partitionEntrySize }, b)

/-- The loop body for a table entry of the current LUN. -/
def updateEntry (u : UpdateType) (p b : PartitionEntry) (w : Walk) :
    Walk × PartitionEntry :=
  let attr := getLlword w.buf (w.ptr + attributeFlagOffset)
  let (w, b) := updateGuid u p b w
  updateAttributes u attr p b w

/-- The loop over `PtnEntries` and `PtnEntriesBak`. -/
def walkEntries (ufs : Bool) (lun : Nat) (u : UpdateType) :
    List PartitionEntry → List PartitionEntry → Walk →
      Walk × List PartitionEntry
  | p :: ps, b :: bs, w =>
      if p.partEntry.partitionTypeGuid.data1 = 0 then
        let (w, bs) := walkEntries ufs lun u ps bs w
        (w, b :: bs)
      else if ufs ∧ lun < p.lun then (w, b :: bs)
      else if ufs ∧ p.lun ≠ lun then
        let (w, bs) := walkEntries ufs lun u ps bs w
        (w, b :: bs)
      else
        let (w, b) := updateEntry u p b w
        let (w, bs) := walkEntries ufs lun u ps bs w
        (w, b :: bs)
  | _, bs, w => (w, bs)

-- ============================================================== geometry

/-- `GetPartitionSize` -/
def getPartitionSize (g : BlockIoMedia) : UINT64 :=
  if BitVec.allOnes 64 - 1 < g.lastBlock then 0
  else if BitVec.allOnes 64 / (g.lastBlock + 1) < g.blockSize.setWidth 64
    then 0
  else (g.lastBlock + 1) * g.blockSize.setWidth 64

/-- `PartEntriesblocks` -/
def partEntriesBlocks (g : BlockIoMedia) : UINT32 :=
  BitVec.ofNat 32 maxPartitionEntriesSz / g.blockSize

/-- `MaxGptPartEntrySzBytes`, computed in 32 bits. -/
def maxGptPartEntrySzBytes (g : BlockIoMedia) : UINT64 :=
  ((BitVec.ofNat 32 gptHdrBlocks + partEntriesBlocks g)
    * g.blockSize).setWidth 64

/-- `CardSizeSec` -/
def cardSizeSec (g : BlockIoMedia) : UINT64 :=
  getPartitionSize g / g.blockSize.setWidth 64

/-- The two passes of the loop over `Iter`. -/
inductive GptCopy where
  | primary
  | backup
  deriving DecidableEq

/-- `Offset`, the first block of a pass, kept in 32 bits. -/
def gptOffset (g : BlockIoMedia) : GptCopy → UINT32
  | .primary => primaryHdrLba
  | .backup => (cardSizeSec g
      - maxGptPartEntrySzBytes g / g.blockSize.setWidth 64).setWidth 32

/-- Byte address of a pass on the medium. -/
def gptAddr (g : BlockIoMedia) (c : GptCopy) : Nat :=
  (gptOffset g c).toNat * g.blockSize.toNat

/-- Offset of the entry array in the buffer of a pass. -/
def ptnEntriesOff (g : BlockIoMedia) : GptCopy → Nat
  | .primary => g.blockSize.toNat
  | .backup => 0

/-- Offset of the header in the buffer of a pass. -/
def gptHdrOff (g : BlockIoMedia) : GptCopy → Nat
  | .primary => 0
  | .backup => (partEntriesBlocks g * g.blockSize).toNat

-- ============================================================== one copy

/-- The outcome of the next block I/O, CRC or allocation call. -/
def nextIo (env : Env) (s : St) : EfiStatus × St :=
  (env.io s.ioTick, { s with ioTick := s.ioTick + 1 })

/-- `CalculateCrc32`, which refuses an empty range. -/
def calculateCrc32 (env : Env) (bs : List Byte) (s : St) :
    EfiStatus × UINT32 × St :=
  let (status, s) := nextIo env s
  if bs.length = 0 then (efiInvalidParameter, 0, s)
  else (status, crc32 bs, s)

/-- The checksum of some bytes is one call, whatever comes of it. -/
theorem calculateCrc32_nonempty (env : Env) {bs : List Byte}
    (h : bs.length ≠ 0) (s : St) : calculateCrc32 env bs s
      = ((nextIo env s).1, crc32 bs, (nextIo env s).2) := by
  unfold calculateCrc32
  exact if_neg h

/-- `ReadBlocks` of `n` bytes into the zeroed buffer. -/
def loadBlocks (m : Mem) (addr n : Nat) : Mem := fun x =>
  if x < n then m (addr + x) else 0

/-- A successful `WriteBlocks`. -/
def St.writeBlocks (s : St) (w : Write Nat) : St :=
  { s with
    disk := applyWrite s.disk w
    writes := s.writes ++ [w] }

/-- The tail of a pass: both checksums, then the write. -/
def storeGpt (env : Env) (lun : Nat) (c : GptCopy) (buf : Mem) (s : St) :
    Bool × St :=
  let g := env.media lun
  let hdr := gptHdrOff g c
  let maxPtnCount := getLword buf (hdr + partitionCountOffset)
  let ptnEntrySz := getLword buf (hdr + pentrySizeOffset)
  if BitVec.ofNat 64 maxPartitionEntriesSz
      < maxPtnCount.setWidth 64 * ptnEntrySz.setWidth 64 then (false, s)
  else
    let (status, crcVal, s) := calculateCrc32 env (readBytes buf
      (ptnEntriesOff g c) (maxPtnCount * ptnEntrySz).toNat) s
    if status ≠ efiSuccess then (false, s) else
    let buf := putLong buf (hdr + partitionCrcOffset) crcVal
    -- the header CRC is taken over a header whose own CRC field is zero
    let buf := putLong buf (hdr + headerCrcOffset) 0
    let (status, crcVal, s) := calculateCrc32 env
      (readBytes buf hdr gptHeaderSize) s
    if status ≠ efiSuccess then (false, s) else
    let buf := putLong buf (hdr + headerCrcOffset) crcVal
    let (status, s) := nextIo env s
    if efiError status then (false, s)
    else (true, s.writeBlocks
      { dev := lun
        addr := gptAddr g c
        data := readBytes buf 0 (maxGptPartEntrySzBytes g).toNat })

/-- One pass of the loop over `Iter`. -/
def updateCopy (env : Env) (lun : Nat) (u : UpdateType) (c : GptCopy)
    (s : St) : Bool × St :=
  let g := env.media lun
  let (status, s) := nextIo env s
  if efiError status then (false, s) else
  let buf := loadBlocks (s.disk lun) (gptAddr g c)
    (maxGptPartEntrySzBytes g).toNat
  let (w, bak) := walkEntries (env.rootDeviceType == .ufs) lun u
    s.ptnEntries s.ptnEntriesBak
    { ptr := ptnEntriesOff g c, buf := buf, skipUpdation := true }
  let s := { s with ptnEntriesBak := bak }
  if w.skipUpdation then (true, s) else storeGpt env lun c w.buf s

-- ============================================================== all LUNs

/-- `GetStorageHandle`: the status and the number of handles returned
into a list of capacity `cap`. `GetBlkIOHandles` stores the first match
before it looks at the capacity. -/
def getStorageHandle (env : Env) (lun : Option Nat) (cap : Nat) :
    EfiStatus × Nat :=
  let (status, k) := env.rootHandles lun
  (status, if k = 0 then 0 else min k (max cap 1))

/-- The device behind `BlockIoHandle[0]`: the eMMC has one. -/
def storageDev (env : Env) (lun : Nat) : Nat :=
  match env.rootDeviceType with
  | .emmc => 0
  | _ => lun

/-- The loop body for one LUN with a single root device. -/
def updateLun (env : Env) (lun : Nat) (u : UpdateType) (s : St) :
    Bool × St :=
  if getPartitionSize (env.media lun) = 0 then (false, s) else
  -- AllocateZeroPool for the buffer
  let (status, s) := nextIo env s
  if status ≠ efiSuccess then (false, s) else
  match updateCopy env lun u .primary s with
  | (false, s) => (false, s)
  | (true, s) => updateCopy env lun u .backup s

/-- The loop over `Lun`: `n` LUNs left, `maxHandles` carried over. -/
def updateLuns (env : Env) (u : UpdateType) :
    Nat → Nat → Nat → St → St
  | 0, _, _, s => s
  | n + 1, lun, maxHandles, s =>
      match (match env.rootDeviceType with
        | .emmc => some (getStorageHandle env none maxHandles)
        | .ufs => some (getStorageHandle env (some lun) maxHandles)
        | .unknown => none) with
      | none => s
      | some (status, maxHandles) =>
          if status ≠ efiSuccess then s
          else if maxHandles ≠ 1 then
            updateLuns env u n (lun + 1) maxHandles s
          else
            match updateLun env (storageDev env lun) u s with
            | (false, s) => s
            | (true, s) => updateLuns env u n (lun + 1) maxHandles s

/-- `IsUpdatePartitionAttributes` -/
def isUpdatePartitionAttributes (s : St) : Bool :=
  s.ptnEntries != s.ptnEntriesBak

/-- `UpdatePartitionAttributes` -/
def updatePartitionAttributes (env : Env) (u : UpdateType) (s : St) : St :=
  if isUpdatePartitionAttributes s then
    updateLuns env u s.maxLuns 0 maxHandleinfLstSize s
  else s

-- =========================================================== whole calls

/-- A LUN the update visits: it has a root device. -/
def HasRoot (env : Env) (d : Nat) : Prop :=
  match env.rootDeviceType with
  | .emmc => d = 0
  | .ufs => (env.rootHandles (some d)).2 ≠ 0
  | .unknown => False

/-- A LUN whose handle lookup succeeds with one handle has a root
device. -/
theorem hasRoot_of_handle {env : Env} {lun cap k : Nat}
    {status : EfiStatus}
    (h : (match env.rootDeviceType with
      | .emmc => some (getStorageHandle env none cap)
      | .ufs => some (getStorageHandle env (some lun) cap)
      | .unknown => none) = some (status, k)) (hk : k = 1) :
    HasRoot env (storageDev env lun) := by
  unfold HasRoot storageDev
  cases ht : env.rootDeviceType with
  | emmc => rfl
  | ufs =>
      rw [ht] at h
      simp only [getStorageHandle, Option.some.injEq, Prod.mk.injEq] at h
      intro hcon
      rw [show (env.rootHandles (some lun)).2 = 0 from hcon] at h
      simp at h
      omega
  | unknown =>
      rw [ht] at h
      cases h

/-- A relation of states that every step of a call keeps, whatever comes
of the step, and steps in a row. -/
structure StepRule (env : Env) (u : UpdateType) (R : St → St → Prop) :
    Prop where
  refl : ∀ s, R s s
  trans : ∀ {s s' s''}, R s s' → R s' s'' → R s s''
  call : ∀ s, R s (nextIo env s).2
  copy : ∀ {lun}, HasRoot env lun → ∀ c s,
    R s (updateCopy env lun u c s).2

namespace StepRule

variable {env : Env} {u : UpdateType} {R : St → St → Prop}

/-- What every step keeps, the update of a LUN keeps. -/
theorem updateLun (h : StepRule env u R) {lun : Nat}
    (hroot : HasRoot env lun) (s : St) :
    R s (updateLun env lun u s).2 := by
  unfold BootSlot.updateLun
  split
  · exact h.refl s
  · dsimp only
    split
    · exact h.call s
    · have hprim := h.copy hroot .primary (nextIo env s).2
      split
      next s' heq =>
        rw [heq] at hprim
        exact h.trans (h.call s) hprim
      next s' heq =>
        rw [heq] at hprim
        exact h.trans (h.trans (h.call s) hprim) (h.copy hroot .backup s')

/-- What every step keeps, the loop over the LUNs keeps. -/
theorem updateLuns (h : StepRule env u R) :
    ∀ (n lun maxHandles : Nat) (s : St),
      R s (updateLuns env u n lun maxHandles s) := by
  intro n
  induction n with
  | zero => exact fun lun maxHandles s => h.refl s
  | succ n ih =>
      intro lun maxHandles s
      unfold BootSlot.updateLuns
      split
      next => exact h.refl s
      next status k heq =>
        split
        · exact h.refl s
        · split
          · exact ih _ _ _
          next hk =>
            have hroot := hasRoot_of_handle heq (not_not.mp hk)
            have hlun := h.updateLun hroot s
            split
            next s' heq' =>
              rw [heq'] at hlun
              exact hlun
            next s' heq' =>
              rw [heq'] at hlun
              exact h.trans hlun (ih _ _ _)

/-- What every step keeps the call keeps. -/
theorem updatePartitionAttributes (h : StepRule env u R) (s : St) :
    R s (updatePartitionAttributes env u s) := by
  unfold BootSlot.updatePartitionAttributes
  split
  · exact h.updateLuns _ _ _ s
  · exact h.refl s

end StepRule

-- ================================================= what an update leaves

/-- Everything but the media, their journal, the I/O counter and the
backup table is as it was. -/
structure IoFrame (s s' : St) : Prop where
  ptnEntries : s'.ptnEntries = s.ptnEntries
  maxLuns : s'.maxLuns = s.maxLuns
  headNode : s'.headNode = s.headNode
  bootLunCalls : s'.bootLunCalls = s.bootLunCalls
  nodeTick : s'.nodeTick = s.nodeTick
  cardTick : s'.cardTick = s.cardTick

theorem IoFrame.refl (s : St) : IoFrame s s := ⟨rfl, rfl, rfl, rfl, rfl, rfl⟩

/-- What two steps leave alone, both do. -/
theorem IoFrame.trans {s s' s'' : St} (h : IoFrame s s')
    (h' : IoFrame s' s'') : IoFrame s s'' where
  ptnEntries := h'.ptnEntries.trans h.ptnEntries
  maxLuns := h'.maxLuns.trans h.maxLuns
  headNode := h'.headNode.trans h.headNode
  bootLunCalls := h'.bootLunCalls.trans h.bootLunCalls
  nodeTick := h'.nodeTick.trans h.nodeTick
  cardTick := h'.cardTick.trans h.cardTick

/-- A checksum counts as a call and changes nothing else. -/
theorem calculateCrc32_state (env : Env) (bs : List Byte) (s : St) :
    (calculateCrc32 env bs s).2.2 = { s with ioTick := s.ioTick + 1 } := by
  unfold calculateCrc32 nextIo
  dsimp only
  split <;> rfl

/-- The loop steps over an entry, leaves at it, or updates it in the slot
the pointer has come to. -/
theorem walkEntries_cases (ufs : Bool) (lun : Nat) (u : UpdateType)
    (p b : PartitionEntry) (ps bs : List PartitionEntry) (w : Walk) :
    (walkEntries ufs lun u (p :: ps) (b :: bs) w
          = ((walkEntries ufs lun u ps bs w).1,
            b :: (walkEntries ufs lun u ps bs w).2)
        ∧ (p.partEntry.partitionTypeGuid.data1 ≠ 0 → ufs ∧ p.lun < lun))
      ∨ (walkEntries ufs lun u (p :: ps) (b :: bs) w = (w, b :: bs)
        ∧ p.partEntry.partitionTypeGuid.data1 ≠ 0 ∧ ufs ∧ lun < p.lun)
      ∨ (walkEntries ufs lun u (p :: ps) (b :: bs) w
          = ((walkEntries ufs lun u ps bs (updateEntry u p b w).1).1,
            (updateEntry u p b w).2
              :: (walkEntries ufs lun u ps bs (updateEntry u p b w).1).2)
        ∧ p.partEntry.partitionTypeGuid.data1 ≠ 0
        ∧ (ufs → p.lun = lun)) := by
  by_cases hz : p.partEntry.partitionTypeGuid.data1 = 0
  · left
    exact ⟨if_pos hz, fun hcon => absurd hz hcon⟩
  · by_cases hlater : ufs ∧ lun < p.lun
    · right
      left
      refine ⟨?_, hz, hlater⟩
      exact (if_neg hz).trans (if_pos hlater)
    · by_cases hne : ufs ∧ p.lun ≠ lun
      · left
        refine ⟨?_, fun _ => ⟨hne.1, ?_⟩⟩
        · exact (if_neg hz).trans ((if_neg hlater).trans (if_pos hne))
        · have hnot : ¬ lun < p.lun := fun hcon => hlater ⟨hne.1, hcon⟩
          omega
      · right
        right
        refine ⟨?_, hz, fun hu => ?_⟩
        · exact (if_neg hz).trans ((if_neg hlater).trans (if_neg hne))
        · by_contra hcon
          exact hne ⟨hu, hcon⟩

/-- What the tail of a pass can do: fail, or write the range of its copy
from some buffer. -/
theorem storeGpt_cases (env : Env) (lun : Nat) (c : GptCopy) (buf : Mem)
    (s : St) :
    (∃ n, storeGpt env lun c buf s = (false, { s with ioTick := n }))
      ∨ ∃ n m, storeGpt env lun c buf s
        = (true, St.writeBlocks { s with ioTick := n }
          { dev := lun
            addr := gptAddr (env.media lun) c
            data := readBytes m 0
              (maxGptPartEntrySzBytes (env.media lun)).toNat }) := by
  unfold storeGpt
  dsimp only
  split
  · exact Or.inl ⟨s.ioTick, rfl⟩
  -- a checksum takes one call and changes nothing else
  generalize hr : calculateCrc32 env _ s = r
  have hfirst : r.2.2 = { s with ioTick := s.ioTick + 1 } := by
    rw [← hr]
    exact calculateCrc32_state env _ s
  obtain ⟨status, crcVal, s1⟩ := r
  dsimp only at hfirst ⊢
  subst hfirst
  split
  · exact Or.inl ⟨_, rfl⟩
  generalize hr' : calculateCrc32 env _ _ = r
  have hsecond : r.2.2 = { s with ioTick := s.ioTick + 2 } := by
    rw [← hr']
    exact calculateCrc32_state env _ _
  obtain ⟨status, crcVal', s2⟩ := r
  dsimp only at hsecond ⊢
  subst hsecond
  split
  · exact Or.inl ⟨_, rfl⟩
  unfold nextIo
  split
  · exact Or.inl ⟨_, rfl⟩
  · exact Or.inr ⟨_, _, rfl⟩

/-- Sealing and writing a copy leaves the tables alone. -/
theorem storeGpt_frame (env : Env) (lun : Nat) (c : GptCopy) (buf : Mem)
    (s : St) : IoFrame s (storeGpt env lun c buf s).2 := by
  rcases storeGpt_cases env lun c buf s with ⟨n, heq⟩ | ⟨n, m, heq⟩
  · rw [heq]
    exact ⟨rfl, rfl, rfl, rfl, rfl, rfl⟩
  · rw [heq]
    exact ⟨rfl, rfl, rfl, rfl, rfl, rfl⟩

/-- A pass leaves the table and what is not its own alone. -/
theorem updateCopy_frame (env : Env) (lun : Nat) (u : UpdateType)
    (c : GptCopy) (s : St) :
    IoFrame s (updateCopy env lun u c s).2 := by
  unfold updateCopy nextIo
  dsimp only
  split
  · exact ⟨rfl, rfl, rfl, rfl, rfl, rfl⟩
  · split
    · exact ⟨rfl, rfl, rfl, rfl, rfl, rfl⟩
    · refine IoFrame.trans ?_ (storeGpt_frame env lun c _ _)
      exact ⟨rfl, rfl, rfl, rfl, rfl, rfl⟩

/-- So does every step of an update. -/
theorem ioFrame_rule (env : Env) (u : UpdateType) :
    StepRule env u IoFrame where
  refl := IoFrame.refl
  trans := IoFrame.trans
  call := fun _ => ⟨rfl, rfl, rfl, rfl, rfl, rfl⟩
  copy := fun _ c s => updateCopy_frame env _ u c s

/-- So does the update of a LUN. -/
theorem updateLun_frame {env : Env} {lun : Nat} (hroot : HasRoot env lun)
    (u : UpdateType) (s : St) : IoFrame s (updateLun env lun u s).2 :=
  (ioFrame_rule env u).updateLun hroot s

/-- An update reads the partition table; it never changes it. -/
theorem updatePartitionAttributes_frame (env : Env) (u : UpdateType)
    (s : St) : IoFrame s (updatePartitionAttributes env u s) :=
  (ioFrame_rule env u).updatePartitionAttributes s

end Edk2Exynos.BootSlot
