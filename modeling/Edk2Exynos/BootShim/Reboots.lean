/-
A phone with the dual boot shim, over any number of boots.

# The message

`Reboot2PayloadApp` fills the memory for messages and resets the phone,
and the shim clears it when it has read a message. What else runs on the
phone does not store there, nor is the firmware copied there
(`Image.PlaceApart`). So one bit is what the memory says (`pendingStep`):
there was a request since the boot before.

# The result

The boots follow the requests: each starts what the bit says, and spends
it (`boots_follow_requests`). Hence the kernel is started no more often
than it was asked for (`asked_kernel_count`).
-/
import Edk2Exynos.BootShim.DualbootRun
import Edk2Exynos.Lib.Runs

namespace Edk2Exynos.BootShim.Dualboot

open Lib

-- ============================================================ the message

/-- What the memory for messages holds. -/
def message (m : Mem) : List Byte := readBytes m flags 256

/-- Equal bytes are equal halfwords. -/
theorem getHword_congr {m m' : Mem} {a : Nat}
    (h : ∀ k < 2, m' (a + k) = m (a + k)) :
    getHword m' a = getHword m a := by
  have hlow : m' a = m a := h 0 (by decide)
  have hhigh : m' (a + 1) = m (a + 1) := h 1 (by decide)
  rw [getHword, getHword, hlow, hhigh]

/-- Whether there is a message depends on the memory for it. -/
theorem requested_congr {m m' : Mem} (h : message m' = message m) :
    Requested m' ↔ Requested m := by
  have hbyte : ∀ k < 256, m' (flags + k) = m (flags + k) := fun k hk =>
    eq_of_readBytes_eq h hk
  have hword : ∀ i < 128,
      getHword m' (flags + 2 * i) = getHword m (flags + 2 * i) := by
    intro i hi
    refine getHword_congr fun k hk => ?_
    rw [Nat.add_assoc]
    exact hbyte (2 * i + k) (by omega)
  constructor
  · rintro ⟨i, hi, hmagic⟩
    exact ⟨i, hi, (hword i hi).symm.trans hmagic⟩
  · rintro ⟨i, hi, hmagic⟩
    exact ⟨i, hi, (hword i hi).trans hmagic⟩

/-- A halfword is its two bytes. -/
theorem byteOf_append (v : UINT16) : byteOf v 1 ++ byteOf v 0 = v := by
  apply BitVec.eq_of_getLsbD_eq
  intro i hi
  rw [BitVec.getLsbD_append]
  by_cases hlow : i < 8
  · rw [if_pos hlow, byteOf_getLsbD, decide_eq_true hlow, Bool.true_and,
      Nat.mul_zero, Nat.zero_add]
  · rw [if_neg hlow, byteOf_getLsbD, decide_eq_true (by omega),
      Bool.true_and, Nat.mul_one, Nat.add_sub_cancel' (Nat.le_of_not_lt hlow)]

/-- A halfword that was stored is read. -/
theorem getHword_putHword (m : Mem) (a : Nat) (v : UINT16) :
    getHword (putHword m a v) a = v := by
  have hlow : putHword m a v a = byteOf v 0 :=
    writeBytes_inside (i := 0) (by simp)
  have hhigh : putHword m a v (a + 1) = byteOf v 1 :=
    writeBytes_inside (i := 1) (by simp)
  rw [getHword, hlow, hhigh]
  exact byteOf_append v

/-- The application leaves a message. -/
theorem reboot2PayloadApp_requested (m : Mem) :
    Requested (reboot2PayloadApp m) := by
  refine ⟨127, by decide, ?_⟩
  unfold reboot2PayloadApp
  rw [List.range_succ, List.foldl_append]
  exact getHword_putHword _ _ _

/-- Cleared memory has none. -/
theorem cleared_not_requested (m : Mem) : ¬ Requested (cleared m) := by
  rintro ⟨i, hi, hmagic⟩
  have hzero : ∀ k < 256, cleared m (flags + k) = 0 := by
    intro k hk
    have hlen : k < (List.replicate 256 (0 : Byte)).length :=
      List.length_replicate.symm ▸ hk
    exact (writeBytes_inside hlen).trans (List.getElem_replicate _)
  have hlow := hzero (2 * i) (by omega)
  have hhigh := hzero (2 * i + 1) (by omega)
  rw [← Nat.add_assoc] at hhigh
  rw [getHword, hlow, hhigh] at hmagic
  exact absurd hmagic (by decide)

-- ================================================================= events

/-- What happens to the phone. -/
inductive Event where
  /-- a reset: the shim is started, and left -/
  | boot (left : Left)
  /-- `Reboot2PayloadApp` is started in the firmware -/
  | request
  /-- what runs on the phone otherwise, up to this memory: the boot loader,
  the firmware, the kernel -/
  | work (mem : Mem)

/-- The memory after an event. -/
def eventStep : Event → Mem → Mem
  | .boot left, _ => left.mem
  | .request, m => reboot2PayloadApp m
  | .work mem, _ => mem

/-- What an event starts. -/
def started : Event → Mem → Option UINT64
  | .boot left, _ => some left.target
  | .request, _ => none
  | .work _, _ => none

/-- A boot is one of the shim, which the boot loader has loaded; what else
runs stores no message and takes none away. -/
def Happens (img : Image) : Event → Mem → Prop
  | .boot left, m => Loaded img m ∧ Boots img m left
  | .request, _ => True
  | .work mem, m => message mem = message m

/-- The firmware is not copied over the message. -/
def Image.PlaceApart (img : Image) : Prop :=
  img.uefiBase.toNat + img.uefiSize.toNat ≤ flags
    ∨ flags + 256 ≤ img.uefiBase.toNat

-- ============================================================ what it means

/-- There is a request that no boot has served. -/
def pendingStep : Event → Bool → Bool
  | .boot _, _ => false
  | .request, _ => true
  | .work _, pending => pending

/-- What is to be started. -/
def asked (img : Image) : Event → Bool → Option UINT64
  | .boot _, pending => some (if pending then img.kernel else img.uefiBase)
  | .request, _ => none
  | .work _, _ => none

/-- A boot leaves no message. -/
theorem boot_not_requested {img : Image} (hplace : img.PlaceApart)
    {m : Mem} {left : Left} (h : LeftRight img m left) :
    ¬ Requested left.mem := by
  by_cases hreq : Requested m
  · rw [h.requested hreq]
    exact cleared_not_requested m
  · have hsame : message left.mem = message m := by
      refine readBytes_congr fun i hi => ?_
      refine h.outside hreq _ ?_
      rcases hplace with hlow | hhigh
      · omega
      · omega
    exact mt (requested_congr hsame).1 hreq

/-- The bit is kept right by every event, and says what it starts. -/
theorem event_simulates {img : Image} (hplace : img.PlaceApart)
    (e : Event) (m : Mem) (pending : Bool) (he : Happens img e m)
    (hpending : pending = true ↔ Requested m) :
    (pendingStep e pending = true ↔ Requested (eventStep e m))
      ∧ started e m = asked img e pending := by
  cases e with
  | boot left =>
      have hright := he.2.leftRight he.1
      refine ⟨iff_of_false Bool.false_ne_true
        (boot_not_requested hplace hright), congrArg some ?_⟩
      by_cases hreq : Requested m
      · rw [hright.requested hreq, if_pos (hpending.2 hreq)]
      · rw [hright.target hreq, if_neg (mt hpending.1 hreq)]
  | request =>
      exact ⟨iff_of_true rfl (reboot2PayloadApp_requested m), rfl⟩
  | work mem =>
      exact ⟨hpending.trans (requested_congr he).symm, rfl⟩

-- ================================================================ the runs

/-- The event is a start of the application. -/
def Event.isRequest : Event → Bool
  | .request => true
  | _ => false

/-- The kernel is to be started no more often than there were requests,
the one before the run among them. -/
theorem asked_kernel_count {img : Image} (hother : img.kernel ≠ img.uefiBase)
    (es : List Event) (pending : Bool) :
    (answers pendingStep (asked img) es pending).count (some img.kernel)
      ≤ es.countP Event.isRequest + pending.toNat := by
  induction es generalizing pending with
  | nil => exact Nat.zero_le _
  | cons e es ih =>
      rw [answers]
      cases e with
      | boot left =>
          have hrest := ih false
          rw [List.countP_cons_of_neg Bool.false_ne_true]
          cases pending with
          | false =>
              rw [asked, List.count_cons_of_ne]
              · exact hrest
              · exact fun heq => hother (Option.some.inj heq).symm
          | true =>
              rw [asked, if_pos rfl, List.count_cons_self]
              exact Nat.succ_le_succ hrest
      | request =>
          have hrest := ih true
          rw [asked, List.count_cons_of_ne (Option.some_ne_none _).symm,
            List.countP_cons_of_pos rfl]
          exact Nat.le_add_right_of_le hrest
      | work mem =>
          rw [asked, List.count_cons_of_ne (Option.some_ne_none _).symm,
            List.countP_cons_of_neg Bool.false_ne_true]
          exact ih pending

/-- In any run of boots, requests and other work each boot starts the
kernel if there was a request since the boot before, and the firmware if
not; so the kernel is started no more often than it was asked for. -/
theorem boots_follow_requests (img : Image) (hplace : img.PlaceApart)
    (hother : img.kernel ≠ img.uefiBase) (es : List Event) (m : Mem)
    (hes : EveryStep eventStep (Happens img) es m) :
    answers eventStep started es m
        = answers pendingStep (asked img) es (decide (Requested m))
      ∧ (Requested (run eventStep es m)
        ↔ run pendingStep es (decide (Requested m)) = true)
      ∧ (answers eventStep started es m).count (some img.kernel)
        ≤ es.countP Event.isRequest + (decide (Requested m)).toNat := by
  obtain ⟨hlast, hstarted⟩ := hes.simulates
    (R := fun m pending => pending = true ↔ Requested m)
    (event_simulates hplace) decide_eq_true_iff
  refine ⟨hstarted, hlast.symm, ?_⟩
  rw [hstarted]
  exact asked_kernel_count hother es _

/-- A request, and two boots. -/
def sampleEvents : List Event :=
  let asked := reboot2PayloadApp sampleMemory
  [.request, .boot ⟨sampleImage.kernel, cleared asked⟩,
    .boot ⟨sampleImage.uefiBase, copied 16 sampleImage.source
      sampleImage.uefiBase.toNat (cleared asked) 2⟩]

/-- One request is followed once. -/
theorem boots_follow_requests_once :
    answers eventStep started sampleEvents sampleMemory
      = [none, some 0x82080004, some 0x90000000] := by
  have hasked : Loaded sampleImage (reboot2PayloadApp sampleMemory) := by
    constructor <;> decide +kernel
  have hcleared :
      Loaded sampleImage (cleared (reboot2PayloadApp sampleMemory)) := by
    constructor <;> decide +kernel
  have hfirst := execute_requested sampleImage
    (reboot2PayloadApp_requested sampleMemory) (fun _ => 0) false
  have hsecond := execute_plain hcleared (cleared_not_requested _)
    (fun _ => 0) false (j := 2) rfl
  have hes :
      EveryStep eventStep (Happens sampleImage) sampleEvents sampleMemory :=
    ⟨trivial, ⟨hasked, _, _, hfirst⟩, ⟨hcleared, _, _, hsecond⟩, trivial⟩
  have hnone : ¬ Requested sampleMemory := by decide +kernel
  have hrun := (boots_follow_requests sampleImage (.inl (by decide))
    (by decide) sampleEvents sampleMemory hes).1
  rw [decide_eq_false hnone] at hrun
  exact hrun

end Edk2Exynos.BootShim.Dualboot
