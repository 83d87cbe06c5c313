/-
Which blocks `UpdatePartitionAttributes` touches: every `ReadBlocks` and
`WriteBlocks` of a pass covers its own copy of the GPT and nothing else,
as long as the backup's position fits the 32-bit `Offset`.

# What is counted as touched

A pass makes one `ReadBlocks` call, always, and at most one `WriteBlocks`
call with the same first block and size. `passIo` lists both, with byte
addresses; `PassInBlocks` also says that what a pass does depends on
nothing it did not read.

# The backup's position

`CardSizeSec` has 64 bits and the block number a device takes has 64
bits, but `Offset` between them has 32. With 2^32 or more blocks before
the backup copy, the second pass works on the blocks of that number
modulo 2^32.
-/
import Edk2Exynos.BootSlot.Format

namespace Edk2Exynos.BootSlot

open Lib

-- =============================================== the accesses of a pass

/-- A range of bytes on a device. -/
structure IoRange where
  dev : Nat
  addr : Nat
  size : Nat
  deriving DecidableEq

/-- What the `ReadBlocks` call of a pass covers. -/
def passRead (env : Env) (lun : Nat) (c : GptCopy) : IoRange where
  dev := lun
  addr := gptAddr (env.media lun) c
  size := (maxGptPartEntrySzBytes (env.media lun)).toNat

/-- What a `WriteBlocks` call covered. -/
def writeRange (w : Write Nat) : IoRange where
  dev := w.dev
  addr := w.addr
  size := w.data.length

/-- The block I/O of a pass: the read, then the writes it adds. -/
def passIo (env : Env) (lun : Nat) (u : UpdateType) (c : GptCopy) (s : St) :
    List IoRange :=
  passRead env lun c
    :: ((updateCopy env lun u c s).2.writes.drop s.writes.length).map
      writeRange

/-- The first of the blocks of a copy: from block 1 on, or the last ones
of the device. -/
def copyFirstBlock (g : BlockIoMedia) : GptCopy → Nat
  | .primary => 1
  | .backup => g.lastBlock.toNat + 1 - (1 + entryBlocks g)

/-- Two passes came to the same end, wrote the same and left the same
backup table. -/
def SameOutcome (r r' : Bool × St) : Prop :=
  r'.1 = r.1 ∧ r'.2.writes = r.2.writes
    ∧ r'.2.ptnEntriesBak = r.2.ptnEntriesBak

/-- A pass reads and writes the `n` blocks from `first` on, and what it
does is decided by what these held. -/
structure PassInBlocks (env : Env) (lun : Nat) (u : UpdateType)
    (c : GptCopy) (s : St) (first n : Nat) : Prop where
  io : ∀ r ∈ passIo env lun u c s, r =
    { dev := lun
      addr := first * (env.media lun).blockSize.toNat
      size := n * (env.media lun).blockSize.toNat }
  depends : ∀ m : Mem,
    (∀ x, first * (env.media lun).blockSize.toNat ≤ x →
      x < (first + n) * (env.media lun).blockSize.toNat →
      m x = s.disk lun x) →
    SameOutcome (updateCopy env lun u c s) (updateCopy env lun u c
      { s with disk := Function.update s.disk lun m })

/-- Two branches with the same outcomes have the same outcome. -/
theorem SameOutcome.ite {p : Prop} [Decidable p] {a a' b b' : Bool × St}
    (ha : p → SameOutcome a a') (hb : ¬ p → SameOutcome b b') :
    SameOutcome (if p then a else b) (if p then a' else b') := by
  by_cases h : p
  · rw [if_pos h, if_pos h]
    exact ha h
  · rw [if_neg h, if_neg h]
    exact hb h

section Passes

variable (env : Env) (lun : Nat) (u : UpdateType) (c : GptCopy)

/-- The tail of a pass writes the range the pass read, or nothing. -/
theorem storeGpt_writes (buf : Mem) (s : St) :
    (storeGpt env lun c buf s).2.writes = s.writes
      ∨ ∃ w, (storeGpt env lun c buf s).2.writes = s.writes ++ [w]
        ∧ writeRange w = passRead env lun c := by
  rcases storeGpt_cases env lun c buf s with ⟨n, heq⟩ | ⟨n, m, heq⟩
  · rw [heq]
    exact Or.inl rfl
  · rw [heq]
    refine Or.inr ⟨_, rfl, ?_⟩
    unfold writeRange passRead
    rw [readBytes_length]

/-- The checksum does not look at the disks. -/
theorem calculateCrc32_disk (bs : List Byte) (s : St) (disk : Nat → Mem) :
    calculateCrc32 env bs { s with disk := disk }
      = ((calculateCrc32 env bs s).1, (calculateCrc32 env bs s).2.1,
          { (calculateCrc32 env bs s).2.2 with disk := disk }) := by
  unfold calculateCrc32 nextIo
  dsimp only
  split <;> rfl

/-- The tail of a pass does not look at the media. -/
theorem storeGpt_disk (buf : Mem) (s : St) (disk : Nat → Mem) :
    SameOutcome (storeGpt env lun c buf s)
      (storeGpt env lun c buf { s with disk := disk }) := by
  have hsame : ∀ (b : Bool) (s : St),
      SameOutcome (b, s) (b, { s with disk := disk }) :=
    fun b s => ⟨rfl, rfl, rfl⟩
  unfold storeGpt
  dsimp only
  apply SameOutcome.ite
  · exact fun _ => hsame _ _
  intro _
  rw [calculateCrc32_disk env _ s disk]
  generalize calculateCrc32 env _ s = r
  obtain ⟨status, crcVal, s1⟩ := r
  dsimp only
  apply SameOutcome.ite
  · exact fun _ => hsame _ _
  intro _
  rw [calculateCrc32_disk env _ s1 disk]
  generalize calculateCrc32 env _ s1 = r
  obtain ⟨status, crcVal', s2⟩ := r
  dsimp only
  apply SameOutcome.ite
  · exact fun _ => hsame _ _
  intro _
  unfold nextIo
  apply SameOutcome.ite
  · exact fun _ => hsame _ _
  · exact fun _ => ⟨rfl, rfl, rfl⟩

/-- A pass adds no write, or one of the range it read. -/
theorem updateCopy_writes (s : St) :
    (updateCopy env lun u c s).2.writes = s.writes
      ∨ ∃ w, (updateCopy env lun u c s).2.writes = s.writes ++ [w]
        ∧ writeRange w = passRead env lun c := by
  unfold updateCopy nextIo
  dsimp only
  split
  · exact Or.inl rfl
  · split
    · exact Or.inl rfl
    · exact storeGpt_writes env lun c _ _

/-- A pass reads and writes the blocks it has read, and no others. -/
theorem passIo_eq (s : St) :
    ∀ r ∈ passIo env lun u c s, r = passRead env lun c := by
  intro r hr
  unfold passIo at hr
  rcases List.mem_cons.mp hr with rfl | hr
  · rfl
  · obtain ⟨w, hw, rfl⟩ := List.mem_map.mp hr
    rcases updateCopy_writes env lun u c s with heq | ⟨v, heq, hv⟩
    · rw [heq, List.drop_length] at hw
      cases hw
    · rw [heq, List.drop_left] at hw
      rw [List.mem_singleton.mp hw]
      exact hv

/-- What a pass does is decided by the range it reads. -/
theorem updateCopy_depends (s : St) (m : Mem)
    (hm : ∀ i, i < (passRead env lun c).size →
      m ((passRead env lun c).addr + i)
        = s.disk lun ((passRead env lun c).addr + i)) :
    SameOutcome (updateCopy env lun u c s) (updateCopy env lun u c
      { s with disk := Function.update s.disk lun m }) := by
  have hload : loadBlocks (Function.update s.disk lun m lun)
      (gptAddr (env.media lun) c)
        (maxGptPartEntrySzBytes (env.media lun)).toNat
      = loadBlocks (s.disk lun) (gptAddr (env.media lun) c)
        (maxGptPartEntrySzBytes (env.media lun)).toNat := by
    funext x
    unfold loadBlocks
    rw [Function.update_self]
    split
    next hx => exact hm x hx
    next => rfl
  unfold updateCopy nextIo
  dsimp only
  rw [hload]
  apply SameOutcome.ite
  · exact fun _ => ⟨rfl, rfl, rfl⟩
  intro _
  apply SameOutcome.ite
  · exact fun _ => ⟨rfl, rfl, rfl⟩
  intro _
  exact storeGpt_disk env lun c _
    { s with
      ioTick := s.ioTick + 1
      ptnEntriesBak := _ } _

end Passes

-- ======================================================== the whole call

/-- What a piece of the run added to the journal: ranges of passes. -/
def AddsPassWrites (env : Env) (s s' : St) : Prop :=
  ∃ ws, s'.writes = s.writes ++ ws
    ∧ ∀ w ∈ ws, ∃ lun c, writeRange w = passRead env lun c

section Run

variable {env : Env}

/-- Where nothing is written, nothing is added. -/
theorem AddsPassWrites.quiet {s s' : St} (h : s'.writes = s.writes) :
    AddsPassWrites env s s' := by
  refine ⟨[], ?_, fun w hw => ?_⟩
  · rw [h, List.append_nil]
  · cases hw

/-- What two steps add, both add. -/
theorem AddsPassWrites.trans {s s' s'' : St} (h : AddsPassWrites env s s')
    (h' : AddsPassWrites env s' s'') : AddsPassWrites env s s'' := by
  obtain ⟨ws, hw, hr⟩ := h
  obtain ⟨vs, hv, hr'⟩ := h'
  refine ⟨ws ++ vs, ?_, fun w hmem => ?_⟩
  · rw [hv, hw, List.append_assoc]
  · rcases List.mem_append.mp hmem with hmem | hmem
    · exact hr w hmem
    · exact hr' w hmem

/-- A pass adds no write but its own. -/
theorem updateCopy_adds (lun : Nat) (u : UpdateType) (c : GptCopy)
    (s : St) : AddsPassWrites env s (updateCopy env lun u c s).2 := by
  rcases updateCopy_writes env lun u c s with h | ⟨w, h, hw⟩
  · exact AddsPassWrites.quiet h
  · refine ⟨[w], h, fun v hv => ⟨lun, c, ?_⟩⟩
    rw [List.mem_singleton.mp hv]
    exact hw

/-- An update adds no writes but those of its passes. -/
theorem adds_rule (u : UpdateType) :
    StepRule env u (AddsPassWrites env) where
  refl := fun _ => AddsPassWrites.quiet rfl
  trans := AddsPassWrites.trans
  call := fun _ => AddsPassWrites.quiet rfl
  copy := fun _ c s => updateCopy_adds _ u c s

/-- Every write of a call covers the range of a pass. -/
theorem updatePartitionAttributes_adds (u : UpdateType) (s : St) :
    AddsPassWrites env s (updatePartitionAttributes env u s) :=
  (adds_rule u).updatePartitionAttributes s

end Run

-- ====================================================== where a pass works

namespace GptMedia

variable {env : Env} {lun : Nat}

/-- The range of a pass, in blocks. -/
theorem passRead_eq (h : GptMedia (env.media lun)) (c : GptCopy) :
    passRead env lun c =
      { dev := lun
        addr := (gptOffset (env.media lun) c).toNat
          * (env.media lun).blockSize.toNat
        size := (1 + entryBlocks (env.media lun))
          * (env.media lun).blockSize.toNat } := by
  have hsize : (maxGptPartEntrySzBytes (env.media lun)).toNat
      = (1 + entryBlocks (env.media lun))
        * (env.media lun).blockSize.toNat := by
    rw [h.maxGptPartEntrySzBytes_toNat, Nat.add_mul, h.entryBlocks_mul,
      Nat.one_mul]
  unfold passRead gptAddr
  rw [hsize]

/-- A pass starts at the first block of its copy, unless the position of
the backup is cut to 32 bits. -/
theorem gptOffset_eq_iff {g : BlockIoMedia} (h : GptMedia g) :
    (∀ c, (gptOffset g c).toNat = copyFirstBlock g c)
      ↔ g.lastBlock.toNat - entryBlocks g < 2 ^ 32 := by
  have hback : copyFirstBlock g .backup
      = g.lastBlock.toNat - entryBlocks g := by
    show g.lastBlock.toNat + 1 - (1 + entryBlocks g) = _
    omega
  constructor
  · intro hall
    have hb := hall .backup
    rw [h.gptOffset_backup_toNat, hback] at hb
    exact hb ▸ Nat.mod_lt _ (by decide)
  · intro hlt c
    cases c with
    | primary => rfl
    | backup =>
        rw [h.gptOffset_backup_toNat, hback]
        exact Nat.mod_eq_of_lt hlt

end GptMedia

/-- On such media a call writes GPT copies only. -/
theorem updatePartitionAttributes_in_blocks {env : Env}
    (hmed : ∀ lun, GptMedia (env.media lun)
      ∧ (env.media lun).lastBlock.toNat - entryBlocks (env.media lun)
        < 2 ^ 32) (u : UpdateType) (s : St) :
    ∃ ws, (updatePartitionAttributes env u s).writes = s.writes ++ ws
      ∧ ∀ w ∈ ws, ∃ c, writeRange w =
        { dev := w.dev
          addr := copyFirstBlock (env.media w.dev) c
            * (env.media w.dev).blockSize.toNat
          size := (1 + entryBlocks (env.media w.dev))
            * (env.media w.dev).blockSize.toNat } := by
  have hadds : AddsPassWrites env s (updatePartitionAttributes env u s) :=
    updatePartitionAttributes_adds u s
  obtain ⟨ws, hws, hr⟩ := hadds
  refine ⟨ws, hws, fun w hw => ?_⟩
  obtain ⟨lun, c, hrange⟩ := hr w hw
  obtain ⟨hgpt, hsmall⟩ := hmed lun
  have hdev : w.dev = lun := congrArg IoRange.dev hrange
  refine ⟨c, ?_⟩
  rw [hrange, hgpt.passRead_eq, (hgpt.gptOffset_eq_iff.mpr hsmall) c, hdev]

/-- On a medium `GetPartitionSize` accepts, with blocks that divide the
entry array and room for both GPTs, the passes stay in the blocks of
their copies exactly when the backup's first block has a 32-bit number. -/
theorem updateCopy_in_blocks_iff (env : Env) (lun : Nat)
    (hacc : getPartitionSize (env.media lun) ≠ 0)
    (hdvd : (env.media lun).blockSize.toNat ∣ 16384)
    (hroom : 2 + 2 * (1 + 16384 / (env.media lun).blockSize.toNat)
      ≤ (env.media lun).lastBlock.toNat + 1) :
    (∀ u c s, PassInBlocks env lun u c s
        (copyFirstBlock (env.media lun) c)
        (1 + 16384 / (env.media lun).blockSize.toNat))
      ↔ (env.media lun).lastBlock.toNat
          - 16384 / (env.media lun).blockSize.toNat < 2 ^ 32 := by
  have hentry : entryBlocks (env.media lun)
      = 16384 / (env.media lun).blockSize.toNat := rfl
  have hmed : GptMedia (env.media lun) :=
    { accepted := hacc
      dvd := hdvd
      room := by omega }
  have hpos := hmed.blockSize_bounds.1
  rw [← hentry, ← hmed.gptOffset_eq_iff]
  constructor
  · intro hall c
    -- the read alone shows where the pass works
    have hio := (hall .partitionAll c
      { ptnEntries := [], ptnEntriesBak := [], maxLuns := 0, headNode := []
        disk := fun _ _ => 0, writes := [], bootLunCalls := []
        ioTick := 0, nodeTick := 0, cardTick := 0 }).io _ List.mem_cons_self
    rw [hmed.passRead_eq] at hio
    exact Nat.eq_of_mul_eq_mul_right hpos (congrArg IoRange.addr hio)
  · intro hoff u c s
    have hread := hmed.passRead_eq c
    rw [hoff c] at hread
    refine ⟨fun r hr => ?_, fun m hm => ?_⟩
    · rw [passIo_eq env lun u c s r hr]
      exact hread
    · refine updateCopy_depends env lun u c s m fun i hi => ?_
      rw [hread] at hi ⊢
      dsimp only at hi ⊢
      refine hm _ (Nat.le_add_right _ _) ?_
      rw [Nat.add_mul]
      omega

/-- The environment of the sample device, with another medium. -/
def mediumEnv (g : BlockIoMedia) : Env :=
  { sampleEnv with media := fun _ => g }

/-- The backup copy of a medium of a hundred blocks. -/
theorem updateCopy_in_blocks_iff_sample :
    PassInBlocks (mediumEnv ⟨512, 99⟩) 0 .partitionAll .backup sampleState
      (copyFirstBlock ⟨512, 99⟩ .backup) 33 :=
  (updateCopy_in_blocks_iff (mediumEnv ⟨512, 99⟩) 0 (by decide) (by decide)
    (by decide)).mpr (by decide) .partitionAll .backup sampleState

/-- On a device of 4 TiB the second pass works in the middle of the data:
from 33 blocks before block 2^32 on, not at the end. -/
theorem updateCopy_leaves_blocks :
    ¬ ∀ (env : Env) (lun : Nat), getPartitionSize (env.media lun) ≠ 0 →
      (env.media lun).blockSize.toNat ∣ 16384 →
      2 + 2 * (1 + 16384 / (env.media lun).blockSize.toNat)
        ≤ (env.media lun).lastBlock.toNat + 1 →
      ∀ u c s, PassInBlocks env lun u c s
        (copyFirstBlock (env.media lun) c)
        (1 + 16384 / (env.media lun).blockSize.toNat) := by
  intro hall
  have hpass := hall (mediumEnv ⟨512, 0x1FFFFFFFF⟩) 0 (by decide)
    (by decide) (by decide) .partitionAll .backup sampleState
  have hio := hpass.io _ List.mem_cons_self
  exact absurd (congrArg IoRange.addr hio) (by decide)

end Edk2Exynos.BootSlot
