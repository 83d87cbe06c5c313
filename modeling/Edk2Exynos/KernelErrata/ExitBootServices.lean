/-
The hook of ExitBootServices (KernelErrataPatcher.c): it patches the
loader and the kernel and calls the original service.

# Contexts

winload runs with two address spaces, the firmware's (physical) and the
application's (virtual). The hook is entered in the first and reads the
loader block in the second, so the memory it scans for the loader and
the one that holds the kernel are separate here, and what the loader
block and its module list contain is given for each address. The
driver's own variables lie outside both.

# Actions

The trace records what the hook does to the world besides patching: a
context switch, with the address it calls; the use of a pointer to a
loader block or a module entry; the call of the service. A null module
entry ends the run where it is used.

# What the hook promises

`UnharmedBoot` is what a boot may expect of it. One thing breaks it: the
result of `GetModule` is used unseen (`exitBootServices_unharmed_iff`).
-/
import Edk2Exynos.KernelErrata.Patches
import Edk2Exynos.BootSlot.Strings

namespace Edk2Exynos.KernelErrata

open Lib
open BootSlot (CHAR16 strnCmp)

-- ============================================================= structures

/-- `KLDR_DATA_TABLE_ENTRY`, as far as the patcher looks. -/
structure KldrDataTableEntry where
  dllBase : UINT64
  sizeOfImage : UINT32
  baseDllNameLength : BitVec 16
  baseDllName : List CHAR16
  deriving DecidableEq

/-- `LOADER_PARAMETER_BLOCK`, with the modules in load order. -/
structure LoaderParameterBlock where
  osMajorVersion : UINT32
  osMinorVersion : UINT32
  size : UINT32
  loadOrderList : List KldrDataTableEntry

/-- `WinloadContext`, the two contexts of the boot loader. -/
inductive WinloadContext where
  | applicationContext
  | firmwareContext
  deriving DecidableEq

/-- What `gBS->ExitBootServices` points to. -/
inductive ExitHook where
  | original
  | wrapper
  deriving DecidableEq

/-- What the hook does besides patching, in order. -/
inductive Action where
  | switchContext (fn : UINT64) (target : WinloadContext)
  | useLoaderBlock (p : UINT64)
  | useModule (entry : Option KldrDataTableEntry)
  | exitBootServices (hook : ExitHook) (imageHandle mapKey : UINT64)
  deriving DecidableEq

/-- The memory of both contexts, the globals of the patcher, and what it has
done. -/
structure PatcherState where
  phys : Mem
  virt : Mem
  blpArchSwitchContext : UINT64
  exitBootServices : ExitHook
  trace : List Action

/-- One more action is recorded. -/
def PatcherState.act (a : Action) (s : PatcherState) : PatcherState :=
  { s with trace := s.trace ++ [a] }

/-- The state in which winload calls the hook for the first time. -/
def hookedState (phys virt : Mem) : PatcherState where
  phys := phys
  virt := virt
  blpArchSwitchContext := 0
  exitBootServices := .wrapper
  trace := []

-- ============================================================== the hook

/-- `GetModule` -/
def getModule (list : List KldrDataTableEntry) (name : List CHAR16) :
    Option KldrDataTableEntry :=
  list.find? fun entry =>
    strnCmp name entry.baseDllName entry.baseDllNameLength.toNat = 0

/-- `NT_OS_KERNEL_IMAGE_NAME`, `ntoskrnl.exe` -/
def ntOsKernelImageName : List CHAR16 :=
  [0x6E, 0x74, 0x6F, 0x73, 0x6B, 0x72, 0x6E, 0x6C, 0x2E, 0x65, 0x78, 0x65]

/-- `SCAN_MAX` -/
def scanMax : UINT64 := 0x5f5e100

/-- `ARM64_TOTAL_INSTRUCTION_LENGTH` -/
def arm64TotalInstructionLength (x : UINT64) : UINT64 := 4 * x

/-- An address that no loader block has. -/
def notLoaderBlock (p : UINT64) : Bool :=
  p = 0 ∨ p &&& 0xFFFFFFF000000000 = 0

/-- The candidate the hook settles on. -/
def pickLoaderBlock (x19 x20 : UINT64) : UINT64 :=
  if notLoaderBlock x19 then x20 else x19

/-- The code before winload's call of BlpArchSwitchContext. -/
def switchPattern : List Nat :=
  chars "1F 04 00 71 33 11 88 9A 28 00 40 B9 1F 01 00 6B"

/-- A place where that code cannot be. -/
def notSwitchMatch (patternMatch : UINT64) : Bool :=
  patternMatch = 0 ∨ patternMatch &&& 0xFFFFFFF000000000 ≠ 0

/-- An operating system the patches are not made for. -/
def LoaderParameterBlock.incompatible (b : LoaderParameterBlock) : Bool :=
  b.osMajorVersion ≠ 10 ∨ b.osMinorVersion ≠ 0 ∨ b.size = 0

/-- The patches of the kernel. -/
def patchKernel (mem : Mem) (kernelBase kernelSize : UINT64) : Mem :=
  let mem := applyReadACTLREL1Patches mem kernelBase kernelSize false
  let mem := applyWriteACTLREL1Patches mem kernelBase kernelSize
  let mem :=
    applyIncoherentCacheConfigurationPatches mem kernelBase kernelSize
  applyPsciMemoryProtectionPatches mem kernelBase kernelSize

/-- The hook in the application context. The flag tells that it comes to
`exitToFirmware`. -/
def inApplicationContext (blockAt : UINT64 → LoaderParameterBlock)
    (loaderBlock : UINT64) (s : PatcherState) : Bool × PatcherState :=
  let s := s.act (.useLoaderBlock loaderBlock)
  let b := blockAt loaderBlock
  if b.incompatible then (true, s)
  else
    let kernelModule := getModule b.loadOrderList ntOsKernelImageName
    let s := s.act (.useModule kernelModule)
    match kernelModule with
    | none => (false, s)
    | some kernelModule =>
        let kernelBase := kernelModule.dllBase
        let kernelSize := kernelModule.sizeOfImage.setWidth 64
        if kernelBase = 0 then (true, s)
        else if kernelBase ≠ 0 ∧ kernelSize ≠ 0 then
          (true, { s with virt := patchKernel s.virt kernelBase kernelSize })
        else (true, s)

section

variable (blockAt : UINT64 → LoaderParameterBlock)
  (imageHandle mapKey x19 x20 returnAddress : UINT64)

/-- `exit`: the call of the service. -/
def exitBoot (s : PatcherState) : PatcherState :=
  s.act (.exitBootServices s.exitBootServices imageHandle mapKey)

/-- `KernelErrataPatcherExitBootServices` -/
def kernelErrataPatcherExitBootServices (s : PatcherState) :
    PatcherState :=
  let s := { s with exitBootServices := .original }
  let loaderBlock := pickLoaderBlock x19 x20
  if notLoaderBlock loaderBlock then exitBoot imageHandle mapKey s
  else
    let patternMatch :=
      findPattern s.phys returnAddress scanMax switchPattern
    let s := { s with
      blpArchSwitchContext :=
        patternMatch - arm64TotalInstructionLength 9 }
    if notSwitchMatch patternMatch then exitBoot imageHandle mapKey s
    else
      let s := { s with
        phys := applyReadACTLREL1Patches s.phys returnAddress scanMax true }
      let s := s.act
        (.switchContext s.blpArchSwitchContext .applicationContext)
      match inApplicationContext blockAt loaderBlock s with
      | (false, s) => s
      | (true, s) =>
          exitBoot imageHandle mapKey <| s.act
            (.switchContext s.blpArchSwitchContext .firmwareContext)

-- ======================================================= unharmed boots

/-- What the trace of a call of the hook must look like. -/
structure UnharmedBoot (trace : List Action) : Prop where
  /-- The original service is called last, and only then. -/
  exits : ∃ pre,
    trace = pre ++ [.exitBootServices .original imageHandle mapKey]
      ∧ ∀ hook handle key, .exitBootServices hook handle key ∉ pre
  /-- Every switch away from the firmware is followed by one back. -/
  returns : ∀ pre fn post,
    trace = pre ++ .switchContext fn .applicationContext :: post →
    ∃ fn', .switchContext fn' .firmwareContext ∈ post
  /-- There is none back without one away. -/
  switched : ∀ fn, .switchContext fn .firmwareContext ∈ trace →
    ∃ fn', .switchContext fn' .applicationContext ∈ trace
  /-- Only a candidate that can be a loader block is used. -/
  blockFound : ∀ p, .useLoaderBlock p ∈ trace →
    (p = x19 ∨ p = x20) ∧ notLoaderBlock p = false
  /-- Only a module that was found is used. -/
  moduleFound : ∀ m, .useModule m ∈ trace →
    ∃ entry ∈ (blockAt (pickLoaderBlock x19 x20)).loadOrderList,
      m = some entry

/-- The loader is as expected, for a system the patches are made for, but
its module list does not have the kernel. -/
structure KernelMissing (phys : Mem) : Prop where
  block : notLoaderBlock (pickLoaderBlock x19 x20) = false
  switch : notSwitchMatch
    (findPattern phys returnAddress scanMax switchPattern) = false
  compatible : (blockAt (pickLoaderBlock x19 x20)).incompatible = false
  missing : getModule (blockAt (pickLoaderBlock x19 x20)).loadOrderList
    ntOsKernelImageName = none

-- ====================================================== the four traces

/-- A call of the service, as the hook makes it. -/
def originalExit : Action := .exitBootServices .original imageHandle mapKey

variable {blockAt imageHandle mapKey x19 x20 returnAddress}

@[simp] theorem act_trace (a : Action) (s : PatcherState) :
    (s.act a).trace = s.trace ++ [a] := rfl

theorem inApplicationContext_incompatible {p : UINT64}
    (h : (blockAt p).incompatible = true) (s : PatcherState) :
    inApplicationContext blockAt p s = (true, s.act (.useLoaderBlock p)) :=
  if_pos h

theorem inApplicationContext_missing {p : UINT64}
    (h : (blockAt p).incompatible = false)
    (hm : getModule (blockAt p).loadOrderList ntOsKernelImageName = none)
    (s : PatcherState) :
    inApplicationContext blockAt p s
      = (false, (s.act (.useLoaderBlock p)).act (.useModule none)) := by
  unfold inApplicationContext
  simp only [h, hm, Bool.false_eq_true, if_false]

/-- With the kernel found it comes to `exitToFirmware`. -/
theorem inApplicationContext_found {p : UINT64} {e : KldrDataTableEntry}
    (h : (blockAt p).incompatible = false)
    (hm : getModule (blockAt p).loadOrderList ntOsKernelImageName = some e)
    (s : PatcherState) :
    ∃ virt, inApplicationContext blockAt p s = (true,
      { (s.act (.useLoaderBlock p)).act (.useModule (some e)) with
        virt := virt }) := by
  unfold inApplicationContext
  simp only [h, hm, Bool.false_eq_true, if_false]
  split
  · exact ⟨s.virt, rfl⟩
  split
  · exact ⟨_, rfl⟩
  · exact ⟨s.virt, rfl⟩

/-- The hook does nothing but call the service when it does not find what
it expects of the loader. -/
theorem hook_trace_of_unexpected {phys virt : Mem}
    (h : notLoaderBlock (pickLoaderBlock x19 x20) = true
      ∨ notSwitchMatch
        (findPattern phys returnAddress scanMax switchPattern) = true) :
    (kernelErrataPatcherExitBootServices blockAt imageHandle mapKey x19 x20
      returnAddress (hookedState phys virt)).trace
      = [originalExit imageHandle mapKey] := by
  unfold kernelErrataPatcherExitBootServices
  by_cases hb : notLoaderBlock (pickLoaderBlock x19 x20) = true
  · simp only [hb, if_true]
    rfl
  · have hs : notSwitchMatch (findPattern (hookedState phys virt).phys
        returnAddress scanMax switchPattern) = true := h.resolve_left hb
    simp only [hb, hs, if_true]
    rfl

variable (blockAt imageHandle mapKey) in
/-- Otherwise the trace is that of the application context, between the
two switches if it comes back. -/
theorem hook_trace_of_expected {phys : Mem} (virt : Mem)
    (hb : notLoaderBlock (pickLoaderBlock x19 x20) = false)
    (hs : notSwitchMatch
      (findPattern phys returnAddress scanMax switchPattern) = false) :
    ∃ s fn, s.trace = [.switchContext fn .applicationContext]
      ∧ s.blpArchSwitchContext = fn ∧ s.exitBootServices = .original
      ∧ kernelErrataPatcherExitBootServices blockAt imageHandle mapKey x19
          x20 returnAddress (hookedState phys virt)
        = match inApplicationContext blockAt (pickLoaderBlock x19 x20) s with
          | (false, s) => s
          | (true, s) =>
              exitBoot imageHandle mapKey <| s.act
                (.switchContext s.blpArchSwitchContext
                  .firmwareContext) := by
  have hs' : notSwitchMatch (findPattern (hookedState phys virt).phys
      returnAddress scanMax switchPattern) = false := hs
  unfold kernelErrataPatcherExitBootServices
  simp only [hb, hs', Bool.false_eq_true, if_false]
  exact ⟨_, _, rfl, rfl, rfl, rfl⟩

/-- A trace that leaves the firmware once, at its start. -/
theorem returns_of_head {x : Action} {rest : List Action}
    (hnone : ∀ fn, .switchContext fn .applicationContext ∉ rest)
    (hback : ∃ fn, .switchContext fn .firmwareContext ∈ rest)
    (pre : List Action) (fn : UINT64) (post : List Action)
    (h : x :: rest
      = pre ++ .switchContext fn .applicationContext :: post) :
    ∃ fn', .switchContext fn' .firmwareContext ∈ post := by
  cases pre with
  | nil =>
      injection h with _ hrest
      rw [← hrest]
      exact hback
  | cons a pre =>
      injection h with _ hrest
      have hmem : .switchContext fn .applicationContext ∈ rest := by
        rw [hrest]
        simp
      exact absurd hmem (hnone fn)

/-- The hook does nothing but call the service. -/
theorem unharmed_exit : UnharmedBoot blockAt imageHandle mapKey x19 x20
    [originalExit imageHandle mapKey] where
  exits := ⟨[], rfl, by simp⟩
  returns := by
    intro pre fn post h
    have hmem : Action.switchContext fn .applicationContext
        ∈ [originalExit imageHandle mapKey] := by
      rw [h]
      simp
    simp [originalExit] at hmem
  switched := by simp [originalExit]
  blockFound := by simp [originalExit]
  moduleFound := by simp [originalExit]

/-- It goes to the application context and comes back, having used a
block that was found and only modules that were found. -/
theorem unharmed_visit (fn : UINT64) {uses : List Action}
    (hb : notLoaderBlock (pickLoaderBlock x19 x20) = false)
    (huses : ∀ a ∈ uses,
      ∃ e ∈ (blockAt (pickLoaderBlock x19 x20)).loadOrderList,
        a = .useModule (some e)) :
    UnharmedBoot blockAt imageHandle mapKey x19 x20
      (.switchContext fn .applicationContext
        :: .useLoaderBlock (pickLoaderBlock x19 x20) :: uses
        ++ [.switchContext fn .firmwareContext,
          originalExit imageHandle mapKey]) := by
  have hpick : pickLoaderBlock x19 x20 = x19
      ∨ pickLoaderBlock x19 x20 = x20 := by
    unfold pickLoaderBlock
    split
    · exact Or.inr rfl
    · exact Or.inl rfl
  -- no other action is among the uses
  have hother : ∀ a, (∀ e, a ≠ .useModule (some e)) → a ∉ uses := by
    intro a hne ha
    obtain ⟨e, -, heq⟩ := huses a ha
    exact hne e heq
  constructor
  · refine ⟨.switchContext fn .applicationContext
      :: .useLoaderBlock (pickLoaderBlock x19 x20) :: uses
      ++ [.switchContext fn .firmwareContext], by simp [originalExit], ?_⟩
    intro hook handle key
    have hnot := hother (.exitBootServices hook handle key) (by simp)
    simp [hnot]
  · apply returns_of_head
    · intro fn'
      have hnot := hother (.switchContext fn' .applicationContext) (by simp)
      simp [hnot, originalExit]
    · exact ⟨fn, by simp⟩
  · intro fn' _
    exact ⟨fn, by simp⟩
  · intro p hp
    have hnot := hother (.useLoaderBlock p) (by simp)
    have hp' : p = pickLoaderBlock x19 x20 := by
      simpa [originalExit, hnot] using hp
    rw [hp']
    exact ⟨hpick, hb⟩
  · intro m hm
    have hm' : Action.useModule m ∈ uses := by
      simpa [originalExit] using hm
    obtain ⟨e, he, heq⟩ := huses _ hm'
    injection heq with heq
    exact ⟨e, he, heq⟩

/-- A boot is unharmed, whatever the loader hands the hook and whatever
memory holds, unless everything is as expected and the module list does
not have the kernel: its missing entry is used then. -/
theorem exitBootServices_unharmed_iff (phys virt : Mem) :
    UnharmedBoot blockAt imageHandle mapKey x19 x20
        (kernelErrataPatcherExitBootServices blockAt imageHandle mapKey x19
          x20 returnAddress (hookedState phys virt)).trace
      ↔ ¬ KernelMissing blockAt x19 x20 returnAddress phys := by
  cases hb : notLoaderBlock (pickLoaderBlock x19 x20) with
  | true =>
      rw [hook_trace_of_unexpected (Or.inl hb)]
      refine ⟨fun _ hm => ?_, fun _ => unharmed_exit⟩
      rw [hm.block] at hb
      cases hb
  | false =>
      cases hs : notSwitchMatch
          (findPattern phys returnAddress scanMax switchPattern) with
      | true =>
          rw [hook_trace_of_unexpected (Or.inr hs)]
          refine ⟨fun _ hm => ?_, fun _ => unharmed_exit⟩
          rw [hm.switch] at hs
          cases hs
      | false =>
          obtain ⟨s, fn, htrace, hfn, hhook, hrun⟩ :=
            hook_trace_of_expected blockAt imageHandle mapKey virt hb hs
          rw [hrun]
          cases hc : (blockAt (pickLoaderBlock x19 x20)).incompatible with
          | true =>
              rw [inApplicationContext_incompatible hc]
              refine ⟨fun _ hm => ?_, fun _ => ?_⟩
              · rw [hm.compatible] at hc
                cases hc
              · have hvisit : UnharmedBoot blockAt imageHandle mapKey x19
                    x20 _ := unharmed_visit fn hb (List.forall_mem_nil _)
                simpa [exitBoot, originalExit, PatcherState.act, htrace, hfn,
                  hhook] using hvisit
          | false =>
              cases hm : getModule
                  (blockAt (pickLoaderBlock x19 x20)).loadOrderList
                  ntOsKernelImageName with
              | none =>
                  rw [inApplicationContext_missing hc hm]
                  refine ⟨fun h => ?_, fun h => ?_⟩
                  · obtain ⟨_, _, heq⟩ := h.moduleFound none (by simp)
                    cases heq
                  · exact absurd ⟨hb, hs, hc, hm⟩ h
              | some e =>
                  obtain ⟨virt', happ⟩ := inApplicationContext_found hc hm s
                  rw [happ]
                  refine ⟨fun _ hmiss => ?_, fun _ => ?_⟩
                  · rw [hmiss.missing] at hm
                    cases hm
                  · have hmem := List.mem_of_find?_eq_some hm
                    have hvisit : UnharmedBoot blockAt imageHandle mapKey
                        x19 x20 _ :=
                      unharmed_visit fn hb (by
                        intro a ha
                        exact ⟨e, hmem, List.mem_singleton.mp ha⟩)
                    simpa [exitBoot, originalExit, PatcherState.act, htrace,
                      hfn, hhook] using hvisit

end

-- ================================================= a list with no kernel

/-- The code the hook looks for, at 0x1000. -/
def sampleLoader : Mem := writeBytes (fun _ => 0) 0x1000
  [0x1F, 0x04, 0x00, 0x71, 0x33, 0x11, 0x88, 0x9A,
    0x28, 0x00, 0x40, 0xB9, 0x1F, 0x01, 0x00, 0x6B]

/-- A module list with `hal.dll` only. -/
def sampleBlock : LoaderParameterBlock where
  osMajorVersion := 10
  osMinorVersion := 0
  size := 0x160
  loadOrderList :=
    [{ dllBase := 0xFFFFF80100000000
       sizeOfImage := 0x6000
       baseDllNameLength := 14
       baseDllName := [0x68, 0x61, 0x6C, 0x2E, 0x64, 0x6C, 0x6C] }]

/-- The hook uses the null entry in the application context, and the
service is not called. -/
theorem exitBootServices_uses_null :
    let trace := (kernelErrataPatcherExitBootServices (fun _ => sampleBlock)
      1 2 0xFFFFF80200000000 0 0x1000
      (hookedState sampleLoader fun _ => 0)).trace
    trace = [.switchContext 0xFDC .applicationContext,
        .useLoaderBlock 0xFFFFF80200000000, .useModule none]
      ∧ ¬ UnharmedBoot (fun _ => sampleBlock) 1 2 0xFFFFF80200000000 0
        trace := by
  intro trace
  have htrace : trace = [.switchContext 0xFDC .applicationContext,
      .useLoaderBlock 0xFFFFF80200000000, .useModule none] := rfl
  refine ⟨htrace, fun h => ?_⟩
  obtain ⟨_, _, heq⟩ := h.moduleFound none (by simp [htrace])
  cases heq

end Edk2Exynos.KernelErrata
