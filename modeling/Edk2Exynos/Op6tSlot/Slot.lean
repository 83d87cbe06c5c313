/-
The slot driver of Op6tSlotDxe (slot.c): it looks through the handles
that carry a DiskIo for the disk with the boot partition, marks a slot
active there, and repairs that GPT's checksums.

# Lookups

`HandleProtocol` answers a protocol, or clears the caller's pointer when
the handle has none (`EFI_UNSUPPORTED`), or fails and leaves the pointer
alone. The two pointers outlive the loop: what they hold after it is
what the last lookups left (`diskIoLeft`, `blockIoLeft`), whether or not
the handle was the one looked for.

# Null pointers

The repair runs when the BlockIo pointer is not null and goes through
the DiskIo pointer unchecked; a null one ends the run without a status,
as a repair does that goes on without its second buffer. The repair's own
status only decides which text is printed.
-/
import Edk2Exynos.Op6tSlot.FixGpt

namespace Edk2Exynos.Op6tSlot

open Lib
open BootSlot (EfiStatus efiError efiSuccess)

-- ============================================================== handles

/-- What `HandleProtocol` answers. -/
inductive Lookup (α : Type) where
  | found (p : α)
  | unsupported
  | failed

/-- The caller's pointer afterwards. -/
def Lookup.pointer {α : Type} (old : Option α) : Lookup α → Option α
  | .found p => some p
  | .unsupported => none
  | .failed => old

/-- A handle, and the statuses of the calls the loop makes on it. -/
structure DiskHandle where
  diskIo : Lookup Nat
  blockIo : Lookup Media
  readName : EfiStatus
  readFlagA : EfiStatus
  readFlagB : EfiStatus
  writeFlag : EfiStatus

-- ================================================================ slot.h

/-- `OP6T_SLOT_FLAG_ACTIVE` -/
def op6tSlotFlagActive : Byte := 0x6F
/-- `OP6T_SLOT_FLAG_UNBOOTABLE` -/
def op6tSlotFlagUnbootable : Byte := 0xBA
/-- `OP6T_SLOT_FLAG_SIZE` -/
def op6tSlotFlagSize : Nat := 1
/-- `OP6T_SLOT_BOOT_BUFFER_LEN` -/
def op6tSlotBootBufferLen : Nat := 11

/-- `boot_a`, as a partition entry spells it -/
def op6tSlotABootBuffer : List Byte :=
  [0x62, 0x00, 0x6F, 0x00, 0x6F, 0x00, 0x74, 0x00, 0x5F, 0x00, 0x61]

/-- Where the name of slot A's boot partition lies. -/
def nameOffset (blockSize : UINT32) : UINT64 :=
  (2 * blockSize + 0x538).setWidth 64

/-- Where the loop reads the flags; it widens the unsigned offset. -/
def flagReadOffset (blockSize : UINT32) (slotB : Bool) : UINT64 :=
  if slotB then (3 * blockSize + 0x336).setWidth 64
  else (2 * blockSize + 0x536).setWidth 64

/-- The flag to set, if any is to be set. -/
def chooseFlag (currentSlotA currentSlotB : Byte) : Option SlotPlace :=
  if currentSlotA = op6tSlotFlagActive then none
  else if currentSlotA = op6tSlotFlagUnbootable then
    if currentSlotB = op6tSlotFlagActive then none
    else if currentSlotB = op6tSlotFlagUnbootable then some .flagA
    else some .flagB
  else some .flagA

-- ============================================================== the loop

/-- What the loop over the disks has found, and the disks. -/
structure LoopState where
  diskIo : Option Nat
  blockIo : Option Media
  s : SlotState

/-- How an iteration ends. -/
inductive Turn where
  | next
  | stop
  | leave (status : EfiStatus)

/-- An iteration from the point where the disk is the one looked for. -/
def visitTarget (h : DiskHandle) (disk : Nat) (media : Media)
    (s : SlotState) : Turn × SlotState :=
  let flag := fun slotB =>
    (s.readDisk disk (flagReadOffset media.blockSize slotB)
      op6tSlotFlagSize).getD 0 0
  if efiError h.readFlagA then (.leave h.readFlagA, s)
  else if efiError h.readFlagB then (.leave h.readFlagB, s)
  else
    match chooseFlag (flag false) (flag true) with
    | none => (.leave efiSuccess, s)
    | some place =>
        let s := s.writeDisk h.writeFlag
          (place.writeOn disk media [op6tSlotFlagActive])
        if efiError h.writeFlag then (.next, s) else (.stop, s)

/-- An iteration of the loop in `SlotMain`. -/
def visit (h : DiskHandle) (l : LoopState) : Turn × LoopState :=
  let l := { l with diskIo := h.diskIo.pointer l.diskIo }
  match h.diskIo with
  | .unsupported | .failed => (.next, l)
  | .found disk =>
      let l := { l with blockIo := h.blockIo.pointer l.blockIo }
      match h.blockIo with
      | .unsupported | .failed => (.next, l)
      | .found media =>
          if media.logicalPartition then (.next, l)
          else if efiError h.readName then (.next, l)
          else if l.s.readDisk disk (nameOffset media.blockSize)
              op6tSlotBootBufferLen ≠ op6tSlotABootBuffer then (.next, l)
          else
            let r := visitTarget h disk media l.s
            (r.1, { l with s := r.2 })

/-- The loop over the handles. -/
def slotLoop : List DiskHandle → LoopState → Turn × LoopState
  | [], l => (.next, l)
  | h :: hs, l =>
      match visit h l with
      | (.next, l') => slotLoop hs l'
      | r => r

/-- `SlotMain` after the loop; the status is missing when it goes through
a null pointer, or the repair through an unset one. -/
def finish (fix : FixStatuses) (r : Turn × LoopState) :
    Option EfiStatus × SlotState :=
  match r.1 with
  | .leave status => (some status, r.2.s)
  | .next | .stop =>
      match r.2.blockIo with
      | none => (some efiSuccess, r.2.s)
      | some media =>
          match r.2.diskIo with
          | none => (none, r.2.s)
          | some disk =>
              let repair := fixGptCRC32 fix media disk r.2.s
              (repair.1.map fun _ => efiSuccess, repair.2)

/-- `SlotMain` -/
def slotMain (locate : EfiStatus) (hs : List DiskHandle)
    (fix : FixStatuses) (s : SlotState) : Option EfiStatus × SlotState :=
  if efiError locate then (some locate, s)
  else finish fix (slotLoop hs ⟨none, none, s⟩)

-- ==================================================== the handle's target

/-- The disk a handle leads to, with its media, when it is the whole disk
that carries the boot partition's name. -/
def DiskHandle.target (disks : Nat → Mem) (h : DiskHandle) :
    Option (Nat × Media) :=
  match h.diskIo, h.blockIo with
  | .found disk, .found media =>
      if media.logicalPartition = false ∧ efiError h.readName = false
          ∧ readBytes (disks disk) (nameOffset media.blockSize).toNat
            op6tSlotBootBufferLen = op6tSlotABootBuffer then
        some (disk, media)
      else none
  | _, _ => none

/-- The flag the handle's disk asks for. -/
def flagWanted (disks : Nat → Mem) (disk : Nat) (media : Media) :
    Option SlotPlace :=
  let flag := fun slotB =>
    (readBytes (disks disk) (flagReadOffset media.blockSize slotB).toNat
      op6tSlotFlagSize).getD 0 0
  chooseFlag (flag false) (flag true)

/-- The loop ends at a handle: it is the one looked for, and its flags
cannot be read, or need no change, or the change succeeds. -/
def DiskHandle.Ends (disks : Nat → Mem) (h : DiskHandle) : Prop :=
  ∃ t, h.target disks = some t
    ∧ (efiError h.readFlagA = true ∨ efiError h.readFlagB = true
      ∨ flagWanted disks t.1 t.2 = none
      ∨ efiError h.writeFlag = false)

/-- The DiskIo pointer after the lookups of all handles. -/
def diskIoLeft (hs : List DiskHandle) (old : Option Nat) : Option Nat :=
  hs.foldl (fun p h => h.diskIo.pointer p) old

/-- The BlockIo pointer after them; a handle without DiskIo is not asked
for it. -/
def blockIoLeft (hs : List DiskHandle) (old : Option Media) :
    Option Media :=
  hs.foldl (fun p h =>
    match h.diskIo with
    | .found _ => h.blockIo.pointer p
    | _ => p) old

/-- A write is the target's own: through its DiskIo, with its media id
and by its block size. -/
def OwnWrite (t : Nat × Media) (w : SlotWrite) : Prop :=
  w.disk = t.1 ∧ w.mediaId = t.2.mediaId
    ∧ w.offset = w.place.offset t.2.blockSize

/-- Every write is the own write of a handle whose disk carries the
name. -/
def ToTarget (disks : Nat → Mem) (hs : List DiskHandle) (w : SlotWrite) :
    Prop :=
  ∃ h ∈ hs, ∃ t, h.target disks = some t ∧ OwnWrite t w

end Edk2Exynos.Op6tSlot
