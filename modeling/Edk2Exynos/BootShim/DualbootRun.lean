/-
The run of the dual boot shim, from `_Head` until it is left.

# Three loops

- `_TestLoop` looks at 128 halfwords for the message. It is a search
  (`steps_loop_until`): up to the first message, or through all of them.
- `_ClearLoop` stores 32 words of zeros, and so the whole piece of memory.
- `_CopyLoop` is a forward copy by chunks of sixteen bytes. It is called,
  and the return address must bring it back to `_Entry`.

# The result

With a message the shim leaves for the kernel, and there is none any more
(`execute_requested`). Without, it leaves for the firmware, which has been
copied to where it belongs (`execute_plain`). `LeftRight` says both, and
what is not changed.
-/
import Edk2Exynos.BootShim.Dualboot
import Edk2Exynos.BootShim.Relocate

namespace Edk2Exynos.BootShim.Dualboot

open Lib

/-- What was put together by the installer and where it is loaded: the
firmware image starts `kernelSize` behind the shim and belongs at
`uefiBase`, which is no part of the shim, and nothing wraps. -/
structure Image where
  load : UINT64
  kernel : UINT64
  kernelSize : UINT64
  uefiBase : UINT64
  uefiSize : UINT64
  source_aligned : 16 ∣ load.toNat + kernelSize.toNat
  base_aligned : 16 ∣ uefiBase.toNat
  size_aligned : 16 ∣ uefiSize.toNat
  size_pos : 0 < uefiSize.toNat
  shim_fits : load.toNat + shimLength ≤ 2 ^ 64
  source_fits : load.toNat + kernelSize.toNat + uefiSize.toNat ≤ 2 ^ 64
  dest_fits : uefiBase.toNat + uefiSize.toNat ≤ 2 ^ 64
  shim_outside : uefiBase.toNat + uefiSize.toNat ≤ load.toNat
    ∨ load.toNat + shimLength ≤ uefiBase.toNat
  -- the cleared memory and the stored firmware are no code of the shim
  flags_outside : flags + 256 ≤ load.toNat
    ∨ load.toNat + shimLength ≤ flags

/-- Where the firmware image starts. -/
def Image.source (img : Image) : Nat :=
  img.load.toNat + img.kernelSize.toNat

/-- The shim is in memory, with its literals. -/
structure Loaded (img : Image) (m : Mem) : Prop where
  base_literal :
    getLlword m (img.load.toNat + labelStackBase) = img.uefiBase
  size_literal :
    getLlword m (img.load.toNat + labelStackSize) = img.uefiSize
  kernelSize_literal :
    getLlword m (img.load.toNat + labelKernelSize) = img.kernelSize

variable {img : Image} {m : Mem}

/-- A label of the shim, as an address. -/
theorem Image.label_toNat (img : Image) {k : Nat} (hk : k < shimLength) :
    (img.load + BitVec.ofNat 64 k).toNat = img.load.toNat + k := by
  have hfits := img.shim_fits
  have hlength : shimLength = 0xC8 := rfl
  rw [BitVec.toNat_add, BitVec.toNat_ofNat, Nat.mod_eq_of_lt (by omega),
    Nat.mod_eq_of_lt (by omega)]

-- ============================================================= _TestLoop

/-- Before the `j`-th halfword is looked at. -/
structure TestState (m : Mem) (j : Nat) (c : Cpu) : Prop where
  pc : c.pc = if j < 128 then labelTestLoop else labelCopyUEFI
  address : c.reg .x4 = BitVec.ofNat 64 (flags + 2 * j)
  left : c.reg .x6 = BitVec.ofNat 64 (128 - j)
  magic : c.reg .x7 = 0x5241
  mem : c.mem = m

/-- The `j`-th halfword is the message. -/
def RequestedAt (m : Mem) (j : Nat) : Prop :=
  getHword m (flags + 2 * j) = linuxBootAcquiredMagic

instance (m : Mem) : DecidablePred (RequestedAt m) :=
  fun _ => inferInstanceAs (Decidable (_ = _))

/-- The address, as the two instructions put it together. -/
theorem flags_movk :
    (BitVec.ofNat 64 0x7FE0 <<< 16 &&& ~~~ (0xFFFF#64 <<< 32))
      ||| BitVec.ofNat 64 0x1 <<< 32 = BitVec.ofNat 64 flags := by
  decide

/-- The instructions up to `_TestLoop`. -/
theorem execute_start (load kernel : UINT64) (reg : Reg → UINT64)
    (zero : Bool) (m : Mem) :
    ∃ c, execute load kernel 5 ⟨0, reg, zero, m⟩ = .next c
      ∧ TestState m 0 c :=
  ⟨_, rfl, rfl, flags_movk, rfl, rfl, rfl⟩

/-- A halfword is loaded and compared. -/
theorem execute_test (load kernel : UINT64) (reg : Reg → UINT64)
    (zero : Bool) (m : Mem) :
    ∃ reg', execute load kernel 4 ⟨labelTestLoop, reg, zero, m⟩
        = .next ⟨if ((getHword m (reg .x4).toNat).setWidth 64).setWidth 32
              == (reg .x7).setWidth 32 then labelClearFlags else 0x68,
            reg',
            ((getHword m (reg .x4).toNat).setWidth 64).setWidth 32
              == (reg .x7).setWidth 32, m⟩
      ∧ reg' .x4 = reg .x4 + 2 ∧ reg' .x6 = reg .x6
      ∧ reg' .x7 = reg .x7 :=
  ⟨_, rfl, rfl, rfl, rfl⟩

/-- The end of a turn. -/
theorem execute_test_next (load kernel : UINT64) (reg : Reg → UINT64)
    (zero : Bool) (m : Mem) :
    ∃ reg', execute load kernel 2 ⟨0x68, reg, zero, m⟩
        = .next ⟨if reg .x6 - 1 == 0 then labelCopyUEFI else labelTestLoop,
            reg', reg .x6 - 1 == 0, m⟩
      ∧ reg' .x4 = reg .x4 ∧ reg' .x6 = reg .x6 - 1
      ∧ reg' .x7 = reg .x7 :=
  ⟨_, rfl, rfl, rfl, rfl⟩

/-- The comparison finds the message. -/
theorem cmpW_iff (h : UINT16) :
    ((h.setWidth 64).setWidth 32 == (0x5241#64).setWidth 32) = true
      ↔ h = linuxBootAcquiredMagic := by
  have hlt := h.isLt
  have hmagic : linuxBootAcquiredMagic.toNat = 0x5241 := rfl
  have hword : ((0x5241#64).setWidth 32).toNat = 0x5241 := rfl
  rw [beq_iff_eq, ← BitVec.toNat_inj, ← BitVec.toNat_inj, hword, hmagic,
    BitVec.toNat_setWidth, BitVec.toNat_setWidth]
  omega

/-- What is compared in the `j`-th turn. -/
theorem TestState.compared {j : Nat} {c : Cpu} (hj : j < 128)
    (hc : TestState m j c) :
    ((getHword m (c.reg .x4).toNat).setWidth 64).setWidth 32
        == (c.reg .x7).setWidth 32
      ↔ RequestedAt m j := by
  have haddress : (c.reg .x4).toNat = flags + 2 * j := by
    have hflags : flags = 0x17FE00000 := rfl
    rw [hc.address, BitVec.toNat_ofNat]
    exact Nat.mod_eq_of_lt (by omega)
  rw [haddress, hc.magic]
  exact cmpW_iff _

/-- A turn that does not find the message. -/
theorem test_turn (load kernel : UINT64) {j : Nat} {c : Cpu} (hj : j < 128)
    (hno : ¬ RequestedAt m j) (hc : TestState m j c) :
    ∃ c', execute load kernel 6 c = .next c' ∧ TestState m (j + 1) c' := by
  have hcmp := Bool.eq_false_iff.2 fun h => hno ((hc.compared hj).1 h)
  obtain ⟨pc, reg, zero, mem⟩ := c
  obtain ⟨hpc, haddress, hleft, hmagic, hmem⟩ := hc
  simp only at hpc haddress hleft hmagic hmem hcmp
  rw [if_pos hj] at hpc
  subst hpc hmem
  obtain ⟨reg₁, hrun, h4, h6, h7⟩ := execute_test load kernel reg zero mem
  rw [hcmp] at hrun
  obtain ⟨reg₂, hrun', h4', h6', h7'⟩ :=
    execute_test_next load kernel reg₁ false mem
  obtain ⟨hcount, hzero⟩ := counter_next (k := 1) hj (by decide)
  have hleft' : reg₁ .x6 - 1 = BitVec.ofNat 64 (128 - (j + 1)) :=
    (congrArg (· - 1) (h6.trans hleft)).trans hcount
  rw [hleft'] at h6' hrun'
  refine ⟨_, (steps_add hrun 2).trans hrun', ?_, ?_, h6', ?_, rfl⟩
  · show (if BitVec.ofNat 64 (128 - (j + 1)) == 0 then labelCopyUEFI
      else labelTestLoop) = _
    simp only [beq_iff_eq, hzero]
    exact ite_not ..
  · show reg₂ .x4 = _
    rw [h4', h4, haddress]
    exact pointer_next flags 2 j
  · show reg₂ .x7 = _
    rw [h7', h7, hmagic]

/-- A turn that finds it. -/
theorem test_found (load kernel : UINT64) {j : Nat} {c : Cpu} (hj : j < 128)
    (hyes : RequestedAt m j) (hc : TestState m j c) :
    ∃ reg zero, execute load kernel 4 c
      = .next ⟨labelClearFlags, reg, zero, m⟩ := by
  have hcmp := (hc.compared hj).2 hyes
  obtain ⟨pc, reg, zero, mem⟩ := c
  obtain ⟨hpc, -, -, -, hmem⟩ := hc
  simp only at hpc hmem hcmp
  rw [if_pos hj] at hpc
  subst hpc hmem
  obtain ⟨reg₁, hrun, -⟩ := execute_test load kernel reg zero mem
  rw [hcmp] at hrun
  exact ⟨reg₁, true, hrun⟩

-- ============================================================ _ClearLoop

/-- After `j` words of zeros. -/
structure ClearState (m : Mem) (j : Nat) (c : Cpu) : Prop where
  pc : c.pc = if j < 32 then labelClearLoop else 0xC0
  address : c.reg .x4 = BitVec.ofNat 64 (flags + 8 * j)
  left : c.reg .x6 = BitVec.ofNat 64 (32 - j)
  mem : c.mem = writeBytes m flags (List.replicate (8 * j) 0)

/-- The instructions up to `_ClearLoop`. -/
theorem execute_clear (load kernel : UINT64) (reg : Reg → UINT64)
    (zero : Bool) (m : Mem) :
    ∃ c, execute load kernel 3 ⟨labelClearFlags, reg, zero, m⟩ = .next c
      ∧ ClearState m 0 c :=
  ⟨_, rfl, rfl, flags_movk, rfl, (writeBytes_nil m flags).symm⟩

/-- A turn of `_ClearLoop`, instruction by instruction. -/
theorem execute_clear_turn (load kernel : UINT64) (reg : Reg → UINT64)
    (zero : Bool) (m : Mem) :
    ∃ reg', execute load kernel 4 ⟨labelClearLoop, reg, zero, m⟩
        = .next ⟨if reg .x6 - 1 == 0 then 0xC0 else labelClearLoop, reg',
            reg .x6 - 1 == 0, putLongLong m (reg .x4).toNat 0⟩
      ∧ reg' .x4 = reg .x4 + 8 ∧ reg' .x6 = reg .x6 - 1 :=
  ⟨_, rfl, rfl, rfl⟩

/-- Zeros behind zeros. -/
theorem putLongLong_zeros (m : Mem) (a j : Nat) :
    putLongLong (writeBytes m a (List.replicate (8 * j) 0)) (a + 8 * j) 0
      = writeBytes m a (List.replicate (8 * (j + 1)) 0) := by
  have hzeros : bytesOfLongLong 0 = List.replicate 8 0 := by decide
  have hlen : (List.replicate (8 * j) (0 : Byte)).length = 8 * j :=
    List.length_replicate
  unfold putLongLong
  rw [hzeros]
  nth_rewrite 2 [← hlen]
  rw [writeBytes_append, List.replicate_append_replicate, ← Nat.mul_succ]

/-- A turn of `_ClearLoop` clears a word. -/
theorem clear_turn (load kernel : UINT64) {j : Nat} {c : Cpu} (hj : j < 32)
    (hc : ClearState m j c) :
    ∃ c', execute load kernel 4 c = .next c' ∧ ClearState m (j + 1) c' := by
  obtain ⟨pc, reg, zero, mem⟩ := c
  obtain ⟨hpc, haddress, hleft, hmem⟩ := hc
  simp only at hpc haddress hleft hmem
  rw [if_pos hj] at hpc
  subst hpc hmem
  obtain ⟨reg₁, hrun, h4, h6⟩ := execute_clear_turn load kernel reg zero
    (writeBytes m flags (List.replicate (8 * j) 0))
  obtain ⟨hcount, hzero⟩ := counter_next (k := 1) hj (by decide)
  have hleft' : reg .x6 - 1 = BitVec.ofNat 64 (32 - (j + 1)) :=
    (congrArg (· - 1) hleft).trans hcount
  have hflags : flags = 0x17FE00000 := rfl
  have hto : (reg .x4).toNat = flags + 8 * j := by
    rw [haddress, BitVec.toNat_ofNat]
    exact Nat.mod_eq_of_lt (by omega)
  rw [hleft'] at h6 hrun
  rw [hto, putLongLong_zeros] at hrun
  refine ⟨_, hrun, ?_, ?_, h6, rfl⟩
  · show (if BitVec.ofNat 64 (32 - (j + 1)) == 0 then 0xC0
      else labelClearLoop) = _
    simp only [beq_iff_eq, hzero]
    exact ite_not ..
  · show reg₁ .x4 = _
    rw [h4, haddress]
    exact pointer_next flags 8 j

/-- Back to `_KernelStart`, and out. -/
theorem execute_kernel (load kernel : UINT64) (reg : Reg → UINT64)
    (zero : Bool) (m : Mem) :
    execute load kernel 2 ⟨0xC0, reg, zero, m⟩ = .done ⟨kernel, m⟩ := rfl

/-- The whole piece of memory is cleared, and the kernel is started. -/
theorem execute_clearFlags (load kernel : UINT64) (reg : Reg → UINT64)
    (zero : Bool) (m : Mem) :
    execute load kernel 133 ⟨labelClearFlags, reg, zero, m⟩
      = .done ⟨kernel, writeBytes m flags (List.replicate 256 0)⟩ := by
  obtain ⟨c, hrun, hc⟩ := execute_clear load kernel reg zero m
  obtain ⟨c', hloop, hc'⟩ := steps_loop (k := 4) (n := 32)
    (fun j c hj => clear_turn load kernel hj) hc
  obtain ⟨pc, reg', zero', mem⟩ := c'
  obtain ⟨hpc, -, -, hmem⟩ := hc'
  simp only at hpc hmem
  rw [if_neg (Nat.lt_irrefl 32)] at hpc
  subst hpc hmem
  have hlast := execute_kernel load kernel reg' zero'
    (writeBytes m flags (List.replicate (8 * 32) 0))
  have htail : execute load kernel (4 * 32 + 2) c = _ :=
    (steps_add hloop 2).trans hlast
  have hall : execute load kernel (3 + (4 * 32 + 2))
      ⟨labelClearFlags, reg, zero, m⟩ = _ :=
    (steps_add hrun (4 * 32 + 2)).trans htail
  exact hall

-- ============================================================== _CopyLoop

/-- After `j` chunks; the loop was called from in front of `_Entry`. -/
structure CopyState (img : Image) (m : Mem) (j : Nat) (c : Cpu) : Prop where
  pc : c.pc = if 16 * j < img.uefiSize.toNat then labelCopyLoop else 0xA0
  source : c.reg .x4 = BitVec.ofNat 64 (img.source + 16 * j)
  dest : c.reg .x5 = BitVec.ofNat 64 (img.uefiBase.toNat + 16 * j)
  left : c.reg .x6 = BitVec.ofNat 64 (img.uefiSize.toNat - 16 * j)
  link : c.reg .x30 = img.load + BitVec.ofNat 64 labelEntry
  mem : c.mem = copied 16 img.source img.uefiBase.toNat m j

/-- The instructions from `_CopyUEFI` up to the copy. -/
theorem execute_copyUEFI (load kernel : UINT64) (reg : Reg → UINT64)
    (zero : Bool) (m : Mem) :
    ∃ reg', execute load kernel 6 ⟨labelCopyUEFI, reg, zero, m⟩
        = .next ⟨labelCopyLoop, reg', zero, m⟩
      ∧ reg' .x4 = load + BitVec.ofNat 64 labelHead
          + getLlword m (load + BitVec.ofNat 64 labelKernelSize).toNat
      ∧ reg' .x5 = getLlword m
          (load + BitVec.ofNat 64 labelStackBase).toNat
      ∧ reg' .x6 = getLlword m
          (load + BitVec.ofNat 64 labelStackSize).toNat
      ∧ reg' .x30 = load + BitVec.ofNat 64 labelEntry :=
  ⟨_, rfl, rfl, rfl, rfl, rfl⟩

/-- The literals give the addresses and the size of the copy. -/
theorem copyUEFI_start (h : Loaded img m) (kernel : UINT64)
    (reg : Reg → UINT64) (zero : Bool) :
    ∃ c, execute img.load kernel 6 ⟨labelCopyUEFI, reg, zero, m⟩ = .next c
      ∧ CopyState img m 0 c := by
  obtain ⟨reg', hrun, h4, h5, h6, h30⟩ :=
    execute_copyUEFI img.load kernel reg zero m
  rw [img.label_toNat (by decide), h.kernelSize_literal] at h4
  rw [img.label_toNat (by decide), h.base_literal] at h5
  rw [img.label_toNat (by decide), h.size_literal] at h6
  refine ⟨_, hrun, ?_⟩
  constructor
  case pc => exact (if_pos img.size_pos).symm
  case source =>
    apply BitVec.eq_of_toNat_eq
    have hfits := img.source_fits
    have hpos := img.size_pos
    have hsource : img.source = img.load.toNat + img.kernelSize.toNat := rfl
    have hhead : (img.load + BitVec.ofNat 64 labelHead).toNat
        = img.load.toNat := img.label_toNat (by decide)
    show (reg' .x4).toNat = _
    rw [h4, BitVec.toNat_add, hhead, BitVec.toNat_ofNat,
      Nat.mod_eq_of_lt (by omega), Nat.mod_eq_of_lt (by omega)]
    exact hsource.symm
  case dest =>
    rw [Nat.mul_zero, Nat.add_zero, BitVec.ofNat_toNat,
      BitVec.setWidth_eq]
    exact h5
  case left =>
    rw [Nat.mul_zero, Nat.sub_zero, BitVec.ofNat_toNat,
      BitVec.setWidth_eq]
    exact h6
  case link => exact h30
  case mem => rfl

/-- The four instructions of the loop. -/
theorem execute_copy_turn (load kernel : UINT64) (reg : Reg → UINT64)
    (zero : Bool) (m : Mem) :
    ∃ reg', execute load kernel 4 ⟨labelCopyLoop, reg, zero, m⟩
        = .next ⟨if reg .x6 - 16 == 0 then 0xA0 else labelCopyLoop, reg',
            reg .x6 - 16 == 0,
            putLongLong (putLongLong m (reg .x5).toNat
              (getLlword m (reg .x4).toNat)) (reg .x5 + 8).toNat
              (getLlword m (reg .x4 + 8).toNat)⟩
      ∧ reg' .x4 = reg .x4 + 16 ∧ reg' .x5 = reg .x5 + 16
      ∧ reg' .x6 = reg .x6 - 16 ∧ reg' .x30 = reg .x30 :=
  ⟨_, rfl, rfl, rfl, rfl, rfl⟩

/-- One turn of the loop is one chunk. -/
theorem copy_turn (img : Image) (m : Mem) (kernel : UINT64) {j : Nat}
    {c : Cpu} (hj : 16 * j < img.uefiSize.toNat)
    (hc : CopyState img m j c) :
    ∃ c', execute img.load kernel 4 c = .next c'
      ∧ CopyState img m (j + 1) c' := by
  obtain ⟨pc, reg, zero, mem⟩ := c
  obtain ⟨hpc, hsource, hdest, hleft, hlink, hmem⟩ := hc
  simp only at hpc hsource hdest hleft hlink hmem
  rw [if_pos hj] at hpc
  subst hpc hmem
  obtain ⟨reg', hrun, h4, h5, h6, h30⟩ := execute_copy_turn img.load kernel
    reg zero (copied 16 img.source img.uefiBase.toNat m j)
  have haligned := img.size_aligned
  have hfits : img.source + img.uefiSize.toNat ≤ 2 ^ 64 := img.source_fits
  have hfits' := img.dest_fits
  obtain ⟨hcount, hzero⟩ := counter_next (n := img.uefiSize.toNat)
    (a := 16 * j) (k := 16) (by omega) img.uefiSize.isLt
  have hleft' : reg .x6 - 16
      = BitVec.ofNat 64 (img.uefiSize.toNat - (16 * j + 16)) :=
    (congrArg (· - 16) hleft).trans hcount
  have hsrc := chunk_addresses (a := img.source + 16 * j) (by omega)
  have hdst := chunk_addresses (a := img.uefiBase.toNat + 16 * j) (by omega)
  rw [← hsource] at hsrc
  rw [← hdest] at hdst
  rw [hleft'] at h6 hrun
  rw [hsrc.1, hsrc.2, hdst.1, hdst.2, putLongLong_pair] at hrun
  refine ⟨_, hrun, ?_, ?_, ?_, h6, h30.trans hlink, rfl⟩
  · show (if BitVec.ofNat 64 (img.uefiSize.toNat - (16 * j + 16)) == 0
      then 0xA0 else labelCopyLoop) = _
    simp only [beq_iff_eq, hzero]
    exact ite_not ..
  · show reg' .x4 = _
    rw [h4, hsource]
    exact pointer_next _ 16 j
  · show reg' .x5 = _
    rw [h5, hdest]
    exact pointer_next _ 16 j

/-- Back behind the call, the base is loaded again and branched to. -/
theorem execute_return (load kernel : UINT64) (reg : Reg → UINT64)
    (zero : Bool) (m : Mem)
    (hlink : reg .x30 = load + BitVec.ofNat 64 labelEntry) :
    execute load kernel 3 ⟨0xA0, reg, zero, m⟩
      = .done ⟨getLlword m (load + BitVec.ofNat 64 labelStackBase).toNat,
          m⟩ := by
  have hret : execute load kernel 1 ⟨0xA0, reg, zero, m⟩
      = .next ⟨(reg .x30 - load).toNat, reg, zero, m⟩ := rfl
  have hentry : (reg .x30 - load).toNat = labelEntry := by
    rw [hlink, BitVec.add_comm, BitVec.add_sub_cancel]
    rfl
  rw [hentry] at hret
  exact (steps_add hret 2).trans rfl

/-- The firmware is copied, and started. -/
theorem execute_copied (h : Loaded img m) (kernel : UINT64)
    (reg : Reg → UINT64) (zero : Bool) {j : Nat}
    (hj : img.uefiSize.toNat = 16 * j) :
    execute img.load kernel (6 + (4 * j + 3))
        ⟨labelCopyUEFI, reg, zero, m⟩
      = .done ⟨img.uefiBase,
          copied 16 img.source img.uefiBase.toNat m j⟩ := by
  obtain ⟨c, hrun, hc⟩ := copyUEFI_start h kernel reg zero
  obtain ⟨c', hloop, hc'⟩ := steps_loop (k := 4) (n := j)
    (fun i c hi => copy_turn img m kernel (by omega)) hc
  obtain ⟨pc, reg', zero', mem⟩ := c'
  obtain ⟨hpc, -, -, -, hlink, hmem⟩ := hc'
  simp only at hpc hlink hmem
  rw [if_neg (by omega)] at hpc
  subst hpc hmem
  have hlast := execute_return img.load kernel reg' zero'
    (copied 16 img.source img.uefiBase.toNat m j) hlink
  -- the literal has not been copied over
  have houtside := img.shim_outside
  have hlabels : labelStackBase = 0x20 ∧ shimLength = 0xC8 := ⟨rfl, rfl⟩
  have hliteral : getLlword
      (copied 16 img.source img.uefiBase.toNat m j)
      (img.load.toNat + labelStackBase) = img.uefiBase := by
    refine (getLlword_congr (readBytes_congr fun i hi => ?_)).trans
      h.base_literal
    exact copied_outside _ _ _ m j (by omega)
  rw [img.label_toNat (by decide), hliteral] at hlast
  have htail : execute img.load kernel (4 * j + 3) c = _ :=
    (steps_add hloop 3).trans hlast
  exact (steps_add hrun (4 * j + 3)).trans htail

-- ============================================================= the result

/-- The memory for messages, cleared. -/
def cleared (m : Mem) : Mem :=
  writeBytes m flags (List.replicate 256 0)

/-- Started in the memory `m`, the shim is left so. -/
def Boots (img : Image) (m : Mem) (left : Left) : Prop :=
  ∃ reg zero n, execute img.load img.kernel n ⟨0, reg, zero, m⟩ = .done left

/-- With a message the shim is left for the kernel. -/
theorem execute_requested (img : Image) (hyes : Requested m)
    (reg : Reg → UINT64) (zero : Bool) :
    ∃ n, execute img.load img.kernel n ⟨0, reg, zero, m⟩
      = .done ⟨img.kernel, cleared m⟩ := by
  obtain ⟨c, hrun, hc⟩ := execute_start img.load img.kernel reg zero m
  rcases steps_loop_until (k := 6) (n := 128) (P := RequestedAt m)
      (fun j c hj hno hc => test_turn img.load img.kernel hj hno hc) hc
    with ⟨j, hj, hfound, c', hloop, hc'⟩ | ⟨hnone, -⟩
  · obtain ⟨reg', zero', hbreak⟩ :=
      test_found img.load img.kernel hj hfound hc'
    have hclear := execute_clearFlags img.load img.kernel reg' zero' m
    exact ⟨_, (steps_add hrun _).trans ((steps_add hloop _).trans
      ((steps_add hbreak 133).trans hclear))⟩
  · obtain ⟨i, hi, hmagic⟩ := hyes
    exact absurd hmagic (hnone i hi)

/-- Without a message the shim is left for the firmware, which has been
copied. -/
theorem execute_plain (h : Loaded img m) (hno : ¬ Requested m)
    (reg : Reg → UINT64) (zero : Bool) {j : Nat}
    (hj : img.uefiSize.toNat = 16 * j) :
    ∃ n, execute img.load img.kernel n ⟨0, reg, zero, m⟩
      = .done ⟨img.uefiBase,
          copied 16 img.source img.uefiBase.toNat m j⟩ := by
  obtain ⟨c, hrun, hc⟩ := execute_start img.load img.kernel reg zero m
  rcases steps_loop_until (k := 6) (n := 128) (P := RequestedAt m)
      (fun j c hj hno hc => test_turn img.load img.kernel hj hno hc) hc
    with ⟨i, hi, hfound, -⟩ | ⟨-, c', hloop, hc'⟩
  · exact absurd ⟨i, hi, hfound⟩ hno
  · obtain ⟨pc, reg', zero', mem⟩ := c'
    obtain ⟨hpc, -, -, -, hmem⟩ := hc'
    simp only at hpc hmem
    rw [if_neg (Nat.lt_irrefl 128)] at hpc
    subst hpc hmem
    have hcopy := execute_copied h img.kernel reg' zero' hj
    exact ⟨_, (steps_add hrun _).trans ((steps_add hloop _).trans hcopy)⟩

/-- The image and its place are a chunk apart, if it goes upwards. -/
theorem Image.apart (img : Image) :
    img.uefiBase.toNat ≤ img.source
      ∨ img.source + 16 ≤ img.uefiBase.toNat := by
  have hsource : 16 ∣ img.source := img.source_aligned
  have hbase := img.base_aligned
  omega

/-- How the shim is left, by the memory it starts in: for the kernel with
the message cleared, or for the firmware, with nothing else changed than
the place it is copied to. -/
structure LeftRight (img : Image) (m : Mem) (left : Left) : Prop where
  requested : Requested m → left = ⟨img.kernel, cleared m⟩
  target : ¬ Requested m → left.target = img.uefiBase
  copied_iff : ¬ Requested m →
    (readBytes left.mem img.uefiBase.toNat img.uefiSize.toNat
        = readBytes m img.source img.uefiSize.toNat
      ↔ Undamaged img.source img.uefiBase.toNat img.uefiSize.toNat m)
  outside : ¬ Requested m →
    AgreeOutside (fun a => img.uefiBase.toNat ≤ a
      ∧ a < img.uefiBase.toNat + img.uefiSize.toNat) m left.mem

/-- The shim is left, and rightly. -/
theorem boots_leftRight (h : Loaded img m) (reg : Reg → UINT64)
    (zero : Bool) :
    ∃ n left, execute img.load img.kernel n ⟨0, reg, zero, m⟩ = .done left
      ∧ LeftRight img m left := by
  by_cases hreq : Requested m
  · obtain ⟨n, hrun⟩ := execute_requested img hreq reg zero
    exact ⟨n, _, hrun, fun _ => rfl, absurd hreq, absurd hreq,
      absurd hreq⟩
  · obtain ⟨j, hj⟩ := img.size_aligned
    obtain ⟨n, hrun⟩ := execute_plain h hreq reg zero hj
    refine ⟨n, _, hrun, fun hyes => absurd hyes hreq, fun _ => rfl,
      fun _ => copied_undamaged_iff m img.apart hj, fun _ a ha => ?_⟩
    exact copied_outside _ _ _ m j (by omega)

/-- However the shim is left, it is left rightly. -/
theorem Boots.leftRight {left : Left} (hboots : Boots img m left)
    (h : Loaded img m) : LeftRight img m left := by
  obtain ⟨reg, zero, n, hrun⟩ := hboots
  obtain ⟨n', left', hrun', hright⟩ := boots_leftRight h reg zero
  obtain rfl := steps_done_unique hrun hrun'
  exact hright

/-- From any state of the registers the shim is left, and however it is
left, rightly. -/
theorem dualboot_leaves (img : Image) (m : Mem) (h : Loaded img m) :
    (∀ reg zero, ∃ n left,
        execute img.load img.kernel n ⟨0, reg, zero, m⟩ = .done left)
      ∧ ∀ left, Boots img m left → LeftRight img m left := by
  refine ⟨fun reg zero => ?_, fun left hboots => hboots.leftRight h⟩
  obtain ⟨n, left, hrun, -⟩ := boots_leftRight h reg zero
  exact ⟨n, left, hrun⟩

/-- A firmware of two chunks, behind a kernel at `0x80080000`. -/
def sampleImage : Image where
  load := 0x80080000
  kernel := 0x82080004
  kernelSize := 0x1000
  uefiBase := 0x90000000
  uefiSize := 0x20
  source_aligned := by decide
  base_aligned := by decide
  size_aligned := by decide
  size_pos := by decide
  shim_fits := by decide
  source_fits := by decide
  dest_fits := by decide
  shim_outside := by decide
  flags_outside := by decide

/-- The shim of `sampleImage` in memory, with a firmware of `0x55`. -/
def sampleMemory : Mem :=
  putLongLong (putLongLong (putLongLong (fun _ => 0x55)
    (0x80080000 + labelStackBase) 0x90000000)
    (0x80080000 + labelStackSize) 0x20)
    (0x80080000 + labelKernelSize) 0x1000

/-- The sample's shim is loaded. -/
theorem sampleMemory_loaded : Loaded sampleImage sampleMemory := by
  constructor <;> decide +kernel

/-- There is no message, and the firmware is started. -/
theorem dualboot_leaves_sample :
    (∃ left, Boots sampleImage sampleMemory left)
      ∧ ∀ left, Boots sampleImage sampleMemory left →
        left.target = 0x90000000 := by
  have hnone : ¬ Requested sampleMemory := by decide +kernel
  obtain ⟨hleaves, hright⟩ :=
    dualboot_leaves sampleImage sampleMemory sampleMemory_loaded
  obtain ⟨n, left, hrun⟩ := hleaves (fun _ => 0) false
  exact ⟨⟨left, _, _, n, hrun⟩, fun left hboots =>
    (hright left hboots).target hnone⟩

end Edk2Exynos.BootShim.Dualboot
