/-
A partitioner: the standard image of a GPT disk with a given entry
array, and that it is valid. The code under verification never formats
a disk; the concrete media and tables that theorems are applied to come
from here.
-/
import Edk2Exynos.BootSlot.Gpt

namespace Edk2Exynos.BootSlot

open Lib

/-- The 92 header bytes of a copy, both CRC fields zero. -/
def headerBytes (g : BlockIoMedia) (c : GptCopy) : List Byte :=
  bytesOfLongLong 0x5452415020494645 ++ [0, 0, 1, 0] ++ bytesOfLong 92
    ++ List.replicate 8 0
    ++ bytesOfLongLong (BitVec.ofNat 64 (hdrLba g c))
    ++ List.replicate 40 0
    ++ bytesOfLongLong (BitVec.ofNat 64 (entriesLba g c))
    ++ bytesOfLong 128 ++ bytesOfLong 128 ++ List.replicate 4 0

/-- Write one copy: the array (the first bytes of `e`), the header, the
checksums. -/
def formatCopy (g : BlockIoMedia) (e : Mem) (c : GptCopy) (m : Mem) : Mem :=
  sealGpt (writeBytes (writeBytes m (entriesAddr g c)
      (readBytes e 0 maxPartitionEntriesSz))
    (hdrAddr g c) (headerBytes g c)) (hdrAddr g c) (entriesAddr g c)

/-- A freshly partitioned disk. -/
def formatGpt (g : BlockIoMedia) (e : Mem) : Mem :=
  formatCopy g e .backup (formatCopy g e .primary fun _ => 0)

variable {g : BlockIoMedia} {e : Mem}

/-- A header has 92 bytes. -/
theorem headerBytes_length (g : BlockIoMedia) (c : GptCopy) :
    (headerBytes g c).length = gptHeaderSize := rfl

/-- Formatting a copy stays in its region. -/
theorem formatCopy_agree (hm : StdMedia g) (c : GptCopy) (m : Mem) :
    AgreeOutside (gptRegion g c) m (formatCopy g e c m) := by
  have hseal := sealGpt_agree (writeBytes (writeBytes m (entriesAddr g c)
    (readBytes e 0 maxPartitionEntriesSz)) (hdrAddr g c)
    (headerBytes g c)) (hdrAddr g c) (entriesAddr g c)
  refine AgreeOutside.trans ?_ (hseal.mono ?_)
  · refine ((AgreeOutside.refl _ _).write ?_).write ?_
    · intro x hx hx'
      rw [readBytes_length] at hx'
      exact hm.image_in_region (Or.inr ⟨hx, hx'⟩)
    · intro x hx hx'
      rw [headerBytes_length] at hx'
      exact hm.image_in_region (Or.inl ⟨hx, hx'⟩)
  · intro x hx
    refine hm.image_in_region (Or.inl ?_)
    simp only [CrcField, headerCrcOffset, partitionCrcOffset] at hx
    rw [show gptHeaderSize = 92 from rfl]
    omega

/-- The array of a formatted copy is the one given. -/
theorem formatCopy_entries (hm : StdMedia g) (c : GptCopy) (m : Mem) :
    readBytes (formatCopy g e c m) (entriesAddr g c)
        maxPartitionEntriesSz
      = readBytes e 0 maxPartitionEntriesSz := by
  have hd := hm.image_disjoint c
  unfold ImageDisjoint at hd
  unfold formatCopy
  rw [(sealGpt_agree _ _ _).readBytes, readBytes_writeBytes_disjoint,
    readBytes_writeBytes_same (readBytes_length _ _ _)]
  · rw [headerBytes_length]
    omega
  · intro i hi hcrc
    simp only [CrcField, headerCrcOffset, partitionCrcOffset] at hcrc
    rw [show gptHeaderSize = 92 from rfl] at hd
    omega

/-- A formatted copy is valid. -/
theorem formatCopy_valid (hm : StdMedia g) (c : GptCopy) (m : Mem) :
    GptValid g c (formatCopy g e c m) := by
  have hs := hm.small
  have hk := hm.entryBlocks_bounds
  have hlba : hdrLba g c < 2 ^ 64 ∧ entriesLba g c < 2 ^ 64 := by
    cases c <;> simp only [hdrLba, entriesLba] <;> omega
  -- header fields away from the CRC fields are those written
  have hfield : ∀ f n, f + n ≤ gptHeaderSize →
      (f + n ≤ headerCrcOffset ∨ headerCrcOffset + 4 ≤ f) →
      f + n ≤ partitionCrcOffset →
      readBytes (formatCopy g e c m) (hdrAddr g c + f) n
        = ((headerBytes g c).drop f).take n := by
    intro f n hfn h16 h88
    unfold formatCopy
    rw [(sealGpt_agree _ _ _).readBytes]
    · exact readBytes_writeBytes_inside (by
        rw [headerBytes_length]
        exact hfn)
    · intro i hi hcrc
      simp only [CrcField, headerCrcOffset, partitionCrcOffset] at *
      omega
  refine ⟨?_, ?_, sealGpt_headerCrc _ _ _, ?_, ?_, ?_, ?_,
    sealGpt_entriesCrc (hm.image_disjoint c)⟩
  · exact getLlword_of_readBytes
      ((hfield 0 8 (by decide) (by decide) (by decide)).trans rfl)
  · exact getLword_of_readBytes
      ((hfield 12 4 (by decide) (by decide) (by decide)).trans rfl)
  · rw [getLlword_of_readBytes (y := BitVec.ofNat 64 (hdrLba g c))
      ((hfield 24 8 (by decide) (by decide) (by decide)).trans rfl),
      BitVec.toNat_ofNat, Nat.mod_eq_of_lt hlba.1]
  · rw [getLlword_of_readBytes (y := BitVec.ofNat 64 (entriesLba g c))
      ((hfield 72 8 (by decide) (by decide) (by decide)).trans rfl),
      BitVec.toNat_ofNat, Nat.mod_eq_of_lt hlba.2]
  · exact getLword_of_readBytes
      ((hfield 80 4 (by decide) (by decide) (by decide)).trans rfl)
  · exact getLword_of_readBytes
      ((hfield 84 4 (by decide) (by decide) (by decide)).trans rfl)

/-- The backup's region is not the primary's. -/
theorem StdMedia.not_both (hm : StdMedia g) {x : Nat}
    (hx : gptRegion g .primary x) : ¬ gptRegion g .backup x := by
  have hdis := hm.passes_disjoint
  unfold gptRegion at *
  omega

/-- Both copies of a formatted disk are valid. -/
theorem formatGpt_valid (hm : StdMedia g)
    (c : GptCopy) : GptValid g c (formatGpt g e) := by
  cases c with
  | backup => exact formatCopy_valid hm .backup _
  | primary =>
      have hprim : GptValid g .primary
          (formatCopy g e .primary fun _ => 0) :=
        formatCopy_valid hm .primary _
      refine hprim.of_region hm ?_
      intro x hx
      exact formatCopy_agree hm .backup _ x (hm.not_both hx)

/-- Both arrays of a formatted disk are the one given. -/
theorem formatGpt_entries (hm : StdMedia g) (c : GptCopy) :
    readBytes (formatGpt g e) (entriesAddr g c) maxPartitionEntriesSz
      = readBytes e 0 maxPartitionEntriesSz := by
  cases c with
  | backup => exact formatCopy_entries hm .backup _
  | primary =>
      refine Eq.trans ?_
        (formatCopy_entries hm .primary fun _ => 0)
      refine (formatCopy_agree hm .backup _).readBytes ?_
      intro i hi
      exact hm.not_both
        (hm.image_in_region (Or.inr ⟨by omega, by omega⟩))

-- ============================================================== a sample

/-- A medium of a hundred blocks of 512 bytes. -/
def sampleMedia : BlockIoMedia where
  blockSize := 512
  lastBlock := 99

/-- The sample is a standard medium. -/
theorem sampleMedia_std : StdMedia sampleMedia :=
  ⟨⟨9, by decide, by decide, rfl⟩, by decide, by decide⟩

/-- An entry array with one partition, `boot_a`, in its second slot. -/
def sampleImage : Mem :=
  writeBytes (fun _ => 0) partitionEntrySize
    (List.replicate 16 0x11 ++ List.replicate 16 0x22
      ++ bytesOfLongLong 70 ++ bytesOfLongLong 80 ++ bytesOfLongLong 0
      ++ [0x62, 0, 0x6f, 0, 0x6f, 0, 0x74, 0, 0x5f, 0, 0x61, 0])

/-- The entry in the second slot of `sampleImage`. -/
def samplePartition : EfiPartitionEntry :=
  entryAt sampleImage partitionEntrySize

/-- UFS with working services and a root device on LUN 0 only. -/
def sampleEnv : Env where
  rootDeviceType := .ufs
  rootHandles := fun lun => (efiSuccess, if lun = some 0 then 1 else 0)
  media := fun _ => sampleMedia
  io := fun _ => efiSuccess
  nodeAddr := fun n => BitVec.ofNat 64 (4096 + 128 * n)
  cardInfo := fun _ =>
    { blkIoHandles := efiSuccess
      handleProtocol := efiSuccess
      revisionOk := true
      result := efiSuccess
      bootLun := some 1 }

/-- The sample disk, read, with the attributes of `boot_a` set to 1. -/
def sampleState : St where
  ptnEntries := [handleEntry 0 none, handleEntry 0 (some
    { samplePartition with attributes := 1 })]
  ptnEntriesBak := [handleEntry 0 none, handleEntry 0 (some samplePartition)]
  maxLuns := 8
  headNode := []
  disk := fun _ => formatGpt sampleMedia sampleImage
  writes := []
  bootLunCalls := []
  ioTick := 0
  nodeTick := 0
  cardTick := 0

end Edk2Exynos.BootSlot
