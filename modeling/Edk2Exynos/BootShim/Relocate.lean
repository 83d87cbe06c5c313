/-
What the shim leaves at `UEFI_BASE`.

# The run

- `run_prologue`: to the copy loop, or straight to `_Entry` when the
  image is there already.
- `loop_step`, `run_loop`: four instructions are one chunk of a forward
  copy; the invariant is that the two pointers and the memory are those
  after `j` chunks.
- `run_epilogue`: the destination is no part of the shim, so the literal
  loaded behind the loop is still `UEFI_BASE`.

The rest is the copy's: downwards it is always right, upwards only where
the image repeats, and it is the shim in between that decides which of the
two an overlap is (`overlap_upwards`).
-/
import Edk2Exynos.BootShim.Shim
import Edk2Exynos.Lib.ForwardCopy

namespace Edk2Exynos.BootShim

open Lib

/-- A shim at `load` with its two literals, and the ranges they give: the
destination is no part of the shim, and neither range wraps. -/
structure Loaded (load uefiBase uefiSize : UINT64) (m : Mem) : Prop where
  load_aligned : 16 ∣ load.toNat
  base_aligned : 16 ∣ uefiBase.toNat
  size_aligned : 16 ∣ uefiSize.toNat
  size_pos : 0 < uefiSize.toNat
  source_fits : load.toNat + labelPayload + uefiSize.toNat ≤ 2 ^ 64
  dest_fits : uefiBase.toNat + uefiSize.toNat ≤ 2 ^ 64
  shim_outside : uefiBase.toNat + uefiSize.toNat ≤ load.toNat
    ∨ load.toNat + labelPayload ≤ uefiBase.toNat
  base_literal : getLlword m (load.toNat + labelStackBase) = uefiBase
  size_literal : getLlword m (load.toNat + labelStackSize) = uefiSize

/-- Where the image starts. -/
def payload (load : UINT64) : Nat := load.toNat + labelPayload

-- ============================================================ one chunk

/-- Two words loaded and stored are sixteen bytes. -/
theorem putLongLong_pair (m : Mem) (a s : Nat) :
    putLongLong (putLongLong m a (getLlword m s)) (a + 8)
        (getLlword m (s + 8))
      = writeBytes m a (readBytes m s 16) := by
  have hlen := bytesOfLongLong_length (getLlword m s)
  unfold putLongLong
  rw [← hlen, writeBytes_append, hlen, bytesOfLongLong_getLlword,
    bytesOfLongLong_getLlword, ← readBytes_add]

/-- A pointer of a loop, a turn further. -/
theorem pointer_next (a k j : Nat) :
    BitVec.ofNat 64 (a + k * j) + BitVec.ofNat 64 k
      = BitVec.ofNat 64 (a + k * (j + 1)) := by
  rw [Nat.mul_succ, ← Nat.add_assoc]
  exact (BitVec.ofNat_add _ k).symm

/-- A counter of a loop, a turn further. It is zero at the end. -/
theorem counter_next {n a k : Nat} (ha : a + k ≤ n) (hn : n < 2 ^ 64) :
    BitVec.ofNat 64 (n - a) - BitVec.ofNat 64 k
        = BitVec.ofNat 64 (n - (a + k))
      ∧ (BitVec.ofNat 64 (n - (a + k)) = 0 ↔ ¬ a + k < n) := by
  have hturn : n - a = n - (a + k) + k := by omega
  constructor
  · rw [hturn, BitVec.ofNat_add]
    exact BitVec.add_sub_cancel _ _
  · rw [← BitVec.toNat_inj, BitVec.toNat_ofNat, Nat.mod_eq_of_lt (by omega)]
    exact Nat.sub_eq_zero_iff_le.trans Nat.not_lt.symm

/-- The four instructions of the loop. -/
theorem execute_body (load : UINT64) (reg : Reg → UINT64) (zero : Bool)
    (mem : Mem) :
    ∃ c, execute load 4 ⟨labelCopyLoop, reg, zero, mem⟩ = .next c
      ∧ c.pc = (if reg .x6 - 16 = 0 then 0x7C else labelCopyLoop)
      ∧ c.reg .x4 = reg .x4 + 16
      ∧ c.reg .x5 = reg .x5 + 16
      ∧ c.reg .x6 = reg .x6 - 16
      ∧ c.mem = putLongLong (putLongLong mem (reg .x5).toNat
          (getLlword mem (reg .x4).toNat)) (reg .x5 + 8).toNat
          (getLlword mem (reg .x4 + 8).toNat) := by
  refine ⟨_, rfl, ?_, rfl, rfl, rfl, rfl⟩
  exact if_congr beq_iff_eq rfl rfl

-- ============================================================== the loop

section

variable {load uefiBase uefiSize : UINT64} {m : Mem}

/-- The processor after `j` chunks. -/
structure LoopState (load uefiBase uefiSize : UINT64) (m : Mem) (j : Nat)
    (c : Cpu) : Prop where
  pc : c.pc = if 16 * j < uefiSize.toNat then labelCopyLoop else 0x7C
  source : c.reg .x4 = BitVec.ofNat 64 (payload load + 16 * j)
  dest : c.reg .x5 = BitVec.ofNat 64 (uefiBase.toNat + 16 * j)
  left : c.reg .x6 = BitVec.ofNat 64 (uefiSize.toNat - 16 * j)
  mem : c.mem = copied 16 (payload load) uefiBase.toNat m j

/-- The addresses of the two words of a chunk. -/
theorem chunk_addresses {a : Nat} (ha : a + 16 ≤ 2 ^ 64) :
    (BitVec.ofNat 64 a).toNat = a
      ∧ (BitVec.ofNat 64 a + 8).toNat = a + 8 := by
  have hfirst : (BitVec.ofNat 64 a).toNat = a := by
    rw [BitVec.toNat_ofNat, Nat.mod_eq_of_lt (by omega)]
  refine ⟨hfirst, ?_⟩
  rw [BitVec.toNat_add, hfirst]
  exact Nat.mod_eq_of_lt (Nat.lt_of_lt_of_le (Nat.lt_succ_of_le
    (Nat.add_le_add_left (by decide) a)) ha)

/-- One turn of the loop is one chunk. -/
theorem loop_step (h : Loaded load uefiBase uefiSize m) {j : Nat}
    {c : Cpu} (hc : LoopState load uefiBase uefiSize m j c)
    (hj : 16 * j < uefiSize.toNat) :
    ∃ c', execute load 4 c = .next c'
      ∧ LoopState load uefiBase uefiSize m (j + 1) c' := by
  obtain ⟨pc, reg, zero, mem⟩ := c
  obtain ⟨hpc, hsource, hdest, hleft, hmem⟩ := hc
  simp only at hpc hsource hdest hleft hmem
  rw [if_pos hj] at hpc
  subst hpc
  obtain ⟨c', hrun, hpc', h4, h5, h6, hmem'⟩ :=
    execute_body load reg zero mem
  have hsize := h.size_aligned
  have hfits : payload load + uefiSize.toNat ≤ 2 ^ 64 := h.source_fits
  have hfits' := h.dest_fits
  have hlt := uefiSize.isLt
  obtain ⟨hcount, hzero⟩ := counter_next (n := uefiSize.toNat) (a := 16 * j)
    (k := 16) (by omega) hlt
  have hleft' := (congrArg (· - 16) hleft).trans hcount
  refine ⟨c', hrun, ?_, ?_, ?_, h6.trans hleft', ?_⟩
  · rw [hpc', hleft']
    simp only [hzero]
    exact ite_not ..
  · rw [h4, hsource]
    exact pointer_next _ 16 j
  · rw [h5, hdest]
    exact pointer_next _ 16 j
  · have hsrc := chunk_addresses (a := payload load + 16 * j) (by omega)
    have hdst := chunk_addresses (a := uefiBase.toNat + 16 * j) (by omega)
    rw [← hsource] at hsrc
    rw [← hdest] at hdst
    rw [hmem', hsrc.1, hsrc.2, hdst.1, hdst.2, putLongLong_pair, hmem]
    rfl

/-- The loop ends after all chunks. -/
theorem run_loop (h : Loaded load uefiBase uefiSize m) {c : Cpu}
    (hc : LoopState load uefiBase uefiSize m 0 c) (j : Nat)
    (hj : 16 * j ≤ uefiSize.toNat) :
    ∃ c', execute load (4 * j) c = .next c'
      ∧ LoopState load uefiBase uefiSize m j c' := by
  induction j with
  | zero => exact ⟨c, rfl, hc⟩
  | succ j ih =>
    obtain ⟨c1, hrun, hc1⟩ := ih (by omega)
    obtain ⟨c', hturn, hc'⟩ := loop_step h hc1 (by omega)
    exact ⟨c', (execute_add hrun 4).trans hturn, hc'⟩

-- ========================================================== around the loop

/-- The address of a label. -/
theorem label_toNat (h : Loaded load uefiBase uefiSize m) {k : Nat}
    (hk : k ≤ labelPayload) :
    (load + BitVec.ofNat 64 k).toNat = load.toNat + k := by
  have hfits := h.source_fits
  have hpos := h.size_pos
  have hlabel : labelPayload = 0x90 := rfl
  rw [BitVec.toNat_add, BitVec.toNat_ofNat, Nat.mod_eq_of_lt (by omega),
    Nat.mod_eq_of_lt (by omega)]

/-- The first five instructions: both addresses, compared. -/
theorem execute_compare (load : UINT64) (reg : Reg → UINT64)
    (zero : Bool) (m : Mem) :
    ∃ reg', execute load 5 ⟨0, reg, zero, m⟩
        = .next ⟨0x64, reg', reg' .x4 == reg' .x5, m⟩
      ∧ reg' .x4 = load + BitVec.ofNat 64 labelPayload
      ∧ reg' .x5 = getLlword m
          (load + BitVec.ofNat 64 labelStackBase).toNat :=
  ⟨_, rfl, rfl, rfl⟩

/-- An image in place is not copied. -/
theorem run_prologue (h : Loaded load uefiBase uefiSize m)
    (reg : Reg → UINT64) (zero : Bool) :
    (payload load = uefiBase.toNat →
      execute load 7 ⟨0, reg, zero, m⟩ = .left uefiBase m)
    ∧ (payload load ≠ uefiBase.toNat →
      ∃ c, execute load 7 ⟨0, reg, zero, m⟩ = .next c
        ∧ LoopState load uefiBase uefiSize m 0 c) := by
  obtain ⟨reg', hrun, h4, h5⟩ := execute_compare load reg zero m
  have hpayload : (reg' .x4).toNat = payload load := by
    rw [h4]
    exact label_toNat h (Nat.le_refl _)
  rw [label_toNat h (by decide), h.base_literal] at h5
  have hcmp : reg' .x4 = reg' .x5 ↔ payload load = uefiBase.toNat := by
    rw [← BitVec.toNat_inj, hpayload, h5]
  constructor
  · intro hsame
    rw [beq_iff_eq.mpr (hcmp.mpr hsame)] at hrun
    rw [execute_add hrun 2, ← h5]
    rfl
  · intro hother
    rw [beq_eq_false_iff_ne.mpr fun heq => hother (hcmp.mp heq)] at hrun
    have hsize : execute load 2 ⟨0x64, reg', false, m⟩
        = .next ⟨labelCopyLoop, Function.update reg' .x6 (getLlword m
            (load + BitVec.ofNat 64 labelStackSize).toNat), false, m⟩ := rfl
    rw [label_toNat h (by decide), h.size_literal] at hsize
    refine ⟨_, (execute_add hrun 2).trans hsize, ?_⟩
    constructor
    case pc => exact (if_pos h.size_pos).symm
    case source =>
      apply BitVec.eq_of_toNat_eq
      have hfits : payload load + uefiSize.toNat ≤ 2 ^ 64 := h.source_fits
      have hpos := h.size_pos
      rw [BitVec.toNat_ofNat, Nat.mod_eq_of_lt (by omega)]
      exact hpayload
    case dest =>
      rw [Nat.mul_zero, Nat.add_zero, BitVec.ofNat_toNat,
        BitVec.setWidth_eq]
      exact h5
    case left =>
      rw [Nat.mul_zero, Nat.sub_zero, BitVec.ofNat_toNat,
        BitVec.setWidth_eq]
      rfl
    case mem => rfl

/-- Behind the loop, the literal is loaded again. -/
theorem run_epilogue (h : Loaded load uefiBase uefiSize m) {j : Nat}
    {c : Cpu} (hc : LoopState load uefiBase uefiSize m j c)
    (hj : uefiSize.toNat = 16 * j) :
    execute load 2 c
      = .left uefiBase (copied 16 (payload load) uefiBase.toNat m j) := by
  obtain ⟨pc, reg, zero, mem⟩ := c
  have hpc := hc.pc
  have hmem := hc.mem
  rw [if_neg (by omega)] at hpc
  simp only at hpc hmem
  subst hpc
  have hrun : execute load 2 ⟨0x7C, reg, zero, mem⟩
      = .left (getLlword mem
          (load + BitVec.ofNat 64 labelStackBase).toNat) mem := rfl
  have houtside := h.shim_outside
  have hlabels : labelStackBase = 0x48 ∧ labelPayload = 0x90 := ⟨rfl, rfl⟩
  have hliteral : getLlword mem (load.toNat + labelStackBase)
      = uefiBase := by
    refine (getLlword_congr (readBytes_congr fun i hi => ?_)).trans
      h.base_literal
    rw [hmem]
    exact copied_outside _ _ _ m j (by omega)
  rw [hrun, label_toNat h (by decide), hliteral, hmem]

-- ============================================================== the result

/-- The copy does not read what it has stored: the destination starts no
higher than the image, or behind it; or it does, and the image repeats
with the distance between the two. -/
def Undamaged (source dest size : Nat) (m : Mem) : Prop :=
  dest ≤ source ∨ source + size ≤ dest
    ∨ ∀ i < size, m (source + i % (dest - source)) = m (source + i)

/-- A destination beside the shim that overlaps the image is above it. -/
theorem overlap_upwards (h : Loaded load uefiBase uefiSize m)
    (hne : payload load ≠ uefiBase.toNat) :
    uefiBase.toNat + uefiSize.toNat ≤ payload load
      ∨ payload load + 16 ≤ uefiBase.toNat := by
  have hload := h.load_aligned
  have hbase := h.base_aligned
  have hlabel : payload load = load.toNat + 0x90 := rfl
  rcases h.shim_outside with hlow | hhigh
  · exact Or.inl (by omega)
  · have hge : payload load ≤ uefiBase.toNat := hhigh
    exact Or.inr (by omega)

/-- What the chunks leave at the destination. -/
theorem copied_undamaged_iff {source dest size j : Nat} (m : Mem)
    (hapart : dest ≤ source ∨ source + 16 ≤ dest) (hj : size = 16 * j) :
    readBytes (copied 16 source dest m j) dest size
        = readBytes m source size
      ↔ Undamaged source dest size m := by
  rw [hj]
  rcases hapart with hbelow | habove
  · refine iff_of_true (readBytes_congr fun i hi => ?_) (Or.inl hbelow)
    exact copied_of_le 16 _ _ m hbelow j hi
  · obtain ⟨d, hd⟩ := Nat.exists_eq_add_of_le
      (Nat.le_trans (Nat.le_add_right _ 16) habove)
    have hsub : source + d - source = d := Nat.add_sub_cancel_left _ _
    unfold Undamaged
    rw [hd, copied_eq_iff 16 _ m (by omega) j, hsub]
    constructor
    · exact fun hrep => Or.inr (Or.inr hrep)
    · rintro (hle | hle | hrep) i hi
      · omega
      · rw [Nat.mod_eq_of_lt (by omega)]
      · exact hrep i hi

/-- The run of the shim, to its end. -/
theorem bootShim_runs (h : Loaded load uefiBase uefiSize m)
    (reg : Reg → UINT64) (zero : Bool) :
    ∃ n m', execute load n ⟨0, reg, zero, m⟩ = .left uefiBase m'
      ∧ (readBytes m' uefiBase.toNat uefiSize.toNat
          = readBytes m (payload load) uefiSize.toNat
        ↔ Undamaged (payload load) uefiBase.toNat uefiSize.toNat m) := by
  obtain ⟨hplace, hcopy⟩ := run_prologue h reg zero
  by_cases hsame : payload load = uefiBase.toNat
  · refine ⟨7, m, hplace hsame, iff_of_true ?_ (Or.inl (by omega))⟩
    rw [hsame]
  · obtain ⟨j, hj⟩ := h.size_aligned
    obtain ⟨c, hrun, hc⟩ := hcopy hsame
    obtain ⟨c', hloop, hc'⟩ := run_loop h hc j (by omega)
    have hapart := (overlap_upwards h hsame).imp_left
      (Nat.le_trans (Nat.le_add_right _ _))
    refine ⟨7 + (4 * j + 2), _, ?_,
      copied_undamaged_iff m hapart hj⟩
    rw [execute_add hrun, execute_add hloop]
    exact run_epilogue h hc' hj

end

/-- The shim comes to its branch to `UEFI_BASE`, and the image is there
exactly when the copy has not damaged it. -/
theorem bootShim_image_iff (load uefiBase uefiSize : UINT64) (m : Mem)
    (reg : Reg → UINT64) (zero : Bool)
    (h : Loaded load uefiBase uefiSize m) :
    (∃ n m', execute load n ⟨0, reg, zero, m⟩ = .left uefiBase m')
      ∧ ∀ n target m', execute load n ⟨0, reg, zero, m⟩ = .left target m' →
        target = uefiBase
          ∧ (readBytes m' uefiBase.toNat uefiSize.toNat
              = readBytes m (payload load) uefiSize.toNat
            ↔ Undamaged (payload load) uefiBase.toNat uefiSize.toNat
                m) := by
  obtain ⟨n, m', hrun, hiff⟩ := bootShim_runs h reg zero
  refine ⟨⟨n, m', hrun⟩, fun n' target m'' hrun' => ?_⟩
  obtain ⟨rfl, rfl⟩ := execute_left_unique hrun hrun'
  exact ⟨rfl, hiff⟩

-- ========================================================= one chunk above

/-- A shim at `0x1000` whose image of two chunks, zeros and ones, goes to
one chunk above where it is. -/
def nearMemory : Mem := fun a =>
  if a = 0x1048 then 0xA0
  else if a = 0x1049 then 0x10
  else if a = 0x1050 then 0x20
  else if 0x10A0 ≤ a ∧ a < 0x10B0 then 1
  else 0

/-- The firmware is loaded next to where it belongs. -/
theorem nearMemory_loaded : Loaded 0x1000 0x10A0 0x20 nearMemory where
  load_aligned := by decide
  base_aligned := by decide
  size_aligned := by decide
  size_pos := by decide
  source_fits := by decide
  dest_fits := by decide
  shim_outside := by decide
  base_literal := by decide
  size_literal := by decide

/-- The condition for the firmware of `nearMemory`, whose two places overlap.
-/
theorem bootShim_image_iff_near :
    (∃ n m', execute 0x1000 n ⟨0, fun _ => 0, false, nearMemory⟩
        = .left 0x10A0 m')
      ∧ ∀ n target m',
        execute 0x1000 n ⟨0, fun _ => 0, false, nearMemory⟩
            = .left target m' →
          target = 0x10A0
            ∧ (readBytes m' 0x10A0 0x20
                = readBytes nearMemory (payload 0x1000) 0x20
              ↔ Undamaged (payload 0x1000) 0x10A0 0x20 nearMemory) :=
  bootShim_image_iff 0x1000 0x10A0 0x20 nearMemory (fun _ => 0) false
    nearMemory_loaded

/-- The second chunk is overwritten before it is loaded. -/
theorem bootShim_damages :
    Loaded 0x1000 0x10A0 0x20 nearMemory
      ∧ ∃ n m', execute 0x1000 n ⟨0, fun _ => 0, false, nearMemory⟩
          = .left 0x10A0 m'
        ∧ readBytes m' 0x10A0 0x20
          ≠ readBytes nearMemory (payload 0x1000) 0x20 := by
  obtain ⟨n, m', hrun, hiff⟩ :=
    bootShim_runs nearMemory_loaded (fun _ => 0) false
  refine ⟨nearMemory_loaded, n, m', hrun, fun himage => ?_⟩
  have hrep := hiff.mp himage
  unfold Undamaged at hrep
  exact absurd hrep (by decide)

end Edk2Exynos.BootShim
