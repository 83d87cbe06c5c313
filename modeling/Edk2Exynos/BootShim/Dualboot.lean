/-
BootShim.Dualboot.S: the code in front of a kernel that has the firmware
image behind it. It looks for a message of the last boot in a fixed piece
of memory, and starts the kernel if it finds one, the firmware otherwise.

# The machine

What this shim uses of an ARM64 processor, in the way of `Shim`: offsets
from `_Head` for labels and for `pc`, the literals in memory. A word
register is the low half of the other and clears the high one when it is
written. `_KernelStart` is filled in when the shim is patched in front of a
kernel, and leaves it for `kernel`.
-/
import Edk2Exynos.Lib.Bytes
import Edk2Exynos.Lib.Stepping

namespace Edk2Exynos.BootShim.Dualboot

open Lib

/-- A halfword. -/
abbrev UINT16 := BitVec 16
/-- A doubleword, as a register holds it. -/
abbrev UINT64 := BitVec 64

-- ============================================================ the machine

/-- The registers the shim uses; `x30` is the link register. -/
inductive Reg where
  | x2
  | x3
  | x4
  | x5
  | x6
  | x7
  | x30
  deriving DecidableEq

/-- The instructions the shim is made of. -/
inductive Instr where
  | adr (rd : Reg) (label : Nat)
  | b (label : Nat)
  | bl (label : Nat)
  | ret
  /-- the branch that is patched -/
  | bKernel
  | movz (rd : Reg) (imm shift : Nat)
  | movk (rd : Reg) (imm shift : Nat)
  | ldrLiteral (rd : Reg) (label : Nat)
  | ldrh (rt rn : Reg)
  | addImm (rd rn : Reg) (imm : Nat)
  | add (rd rn rm : Reg)
  /-- of word registers -/
  | cmpW (rn rm : Reg)
  | beq (label : Nat)
  | bne (label : Nat)
  | ldpPost (rt rt2 rn : Reg) (imm : Nat)
  | stpPost (rt rt2 rn : Reg) (imm : Nat)
  | strZero (rn : Reg)
  | subs (rd rn : Reg) (imm : Nat)
  | br (rn : Reg)

/-- The state of the processor: where in the shim it is, the registers, the
zero flag and the memory. -/
structure Cpu where
  pc : Nat
  reg : Reg → UINT64
  zero : Bool
  mem : Mem

/-- Where the shim was left for, and the memory then. -/
structure Left where
  target : UINT64
  mem : Mem

/-- A register written, and on to the next instruction. -/
def Cpu.write (c : Cpu) (rd : Reg) (v : UINT64) : Cpu where
  pc := c.pc + 4
  reg := Function.update c.reg rd v
  zero := c.zero
  mem := c.mem

/-- The halfword at `a`. -/
def getHword (m : Mem) (a : Nat) : UINT16 := m (a + 1) ++ m a

/-- One instruction, of a shim that was loaded at `load` in front of the
kernel at `kernel`. -/
def Instr.exec (load kernel : UINT64) (c : Cpu) :
    Instr → Stepped Cpu Left
  | .adr rd label => .next (c.write rd (load + BitVec.ofNat 64 label))
  | .b label => .next { c with pc := label }
  | .bl label =>
      .next { c with
        pc := label
        reg := Function.update c.reg .x30
          (load + BitVec.ofNat 64 (c.pc + 4)) }
  | .ret => .next { c with pc := (c.reg .x30 - load).toNat }
  | .bKernel => .done ⟨kernel, c.mem⟩
  | .movz rd imm shift =>
      .next (c.write rd (BitVec.ofNat 64 imm <<< shift))
  | .movk rd imm shift =>
      .next (c.write rd ((c.reg rd &&& ~~~ (0xFFFF#64 <<< shift))
        ||| BitVec.ofNat 64 imm <<< shift))
  | .ldrLiteral rd label =>
      .next (c.write rd
        (getLlword c.mem (load + BitVec.ofNat 64 label).toNat))
  | .ldrh rt rn =>
      .next (c.write rt ((getHword c.mem (c.reg rn).toNat).setWidth 64))
  | .addImm rd rn imm =>
      .next (c.write rd (c.reg rn + BitVec.ofNat 64 imm))
  | .add rd rn rm => .next (c.write rd (c.reg rn + c.reg rm))
  | .cmpW rn rm =>
      .next { c with
        pc := c.pc + 4
        zero := (c.reg rn).setWidth 32 == (c.reg rm).setWidth 32 }
  | .beq label => .next { c with pc := if c.zero then label else c.pc + 4 }
  | .bne label => .next { c with pc := if c.zero then c.pc + 4 else label }
  | .ldpPost rt rt2 rn imm =>
      let a := c.reg rn
      let v := getLlword c.mem a.toNat
      let v2 := getLlword c.mem (a + 8).toNat
      .next { c with
        pc := c.pc + 4
        reg := Function.update (Function.update (Function.update c.reg
          rt v) rt2 v2) rn (a + BitVec.ofNat 64 imm) }
  | .stpPost rt rt2 rn imm =>
      let a := c.reg rn
      let mem := putLongLong c.mem a.toNat (c.reg rt)
      .next { c with
        pc := c.pc + 4
        reg := Function.update c.reg rn (a + BitVec.ofNat 64 imm)
        mem := putLongLong mem (a + 8).toNat (c.reg rt2) }
  | .strZero rn =>
      .next { c with
        pc := c.pc + 4
        mem := putLongLong c.mem (c.reg rn).toNat 0 }
  | .subs rd rn imm =>
      let v := c.reg rn - BitVec.ofNat 64 imm
      .next { c.write rd v with zero := v == 0 }
  | .br rn => .done ⟨c.reg rn, c.mem⟩

-- ============================================================ the program

/-- `_Head` -/
def labelHead : Nat := 0x00
/-- `_KernelStart` -/
def labelKernelStart : Nat := 0x04
/-- `_StackBase` -/
def labelStackBase : Nat := 0x20
/-- `_StackSize` -/
def labelStackSize : Nat := 0x28
/-- `_KernelSize` -/
def labelKernelSize : Nat := 0x30
/-- `_Start` -/
def labelStart : Nat := 0x48
/-- `_TestLoop` -/
def labelTestLoop : Nat := 0x58
/-- `_CopyUEFI` -/
def labelCopyUEFI : Nat := 0x70
/-- `_Entry` -/
def labelEntry : Nat := 0x88
/-- `_CopyLoop` -/
def labelCopyLoop : Nat := 0x90
/-- `_ClearFlags` -/
def labelClearFlags : Nat := 0xA4
/-- `_ClearLoop` -/
def labelClearLoop : Nat := 0xB0
/-- `_Dead` -/
def labelDead : Nat := 0xC4
/-- behind `_Dead` -/
def shimLength : Nat := 0xC8

/-- The instructions of BootShim.Dualboot.S; between `_KernelStart` and
`_Start` there is the header of a kernel image. -/
def dualboot : Nat → Option Instr
  | 0x00 => some (.b labelStart)
  | 0x04 => some .bKernel
  -- _Start
  | 0x48 => some (.movz .x4 0x7FE0 16)
  | 0x4C => some (.movk .x4 0x1 32)
  | 0x50 => some (.movz .x6 128 0)
  | 0x54 => some (.movz .x7 0x5241 0)
  -- _TestLoop
  | 0x58 => some (.ldrh .x5 .x4)
  | 0x5C => some (.addImm .x4 .x4 2)
  | 0x60 => some (.cmpW .x5 .x7)
  | 0x64 => some (.beq labelClearFlags)
  | 0x68 => some (.subs .x6 .x6 1)
  | 0x6C => some (.bne labelTestLoop)
  -- _CopyUEFI
  | 0x70 => some (.adr .x4 labelHead)
  | 0x74 => some (.ldrLiteral .x5 labelKernelSize)
  | 0x78 => some (.add .x4 .x4 .x5)
  | 0x7C => some (.ldrLiteral .x5 labelStackBase)
  | 0x80 => some (.ldrLiteral .x6 labelStackSize)
  | 0x84 => some (.bl labelCopyLoop)
  -- _Entry
  | 0x88 => some (.ldrLiteral .x5 labelStackBase)
  | 0x8C => some (.br .x5)
  -- _CopyLoop
  | 0x90 => some (.ldpPost .x2 .x3 .x4 16)
  | 0x94 => some (.stpPost .x2 .x3 .x5 16)
  | 0x98 => some (.subs .x6 .x6 16)
  | 0x9C => some (.bne labelCopyLoop)
  | 0xA0 => some .ret
  -- _ClearFlags
  | 0xA4 => some (.movz .x4 0x7FE0 16)
  | 0xA8 => some (.movk .x4 0x1 32)
  | 0xAC => some (.movz .x6 32 0)
  -- _ClearLoop
  | 0xB0 => some (.strZero .x4)
  | 0xB4 => some (.addImm .x4 .x4 8)
  | 0xB8 => some (.subs .x6 .x6 1)
  | 0xBC => some (.bne labelClearLoop)
  | 0xC0 => some (.b labelKernelStart)
  | 0xC4 => some (.b labelDead)
  | _ => none

/-- Where there is no instruction the processor stays, and does not get out
of the shim. -/
def step (load kernel : UINT64) (c : Cpu) : Stepped Cpu Left :=
  match dualboot c.pc with
  | some i => i.exec load kernel c
  | none => .next c

/-- `n` instructions of the shim. -/
def execute (load kernel : UINT64) : Nat → Cpu → Stepped Cpu Left :=
  steps (step load kernel)

-- ============================================================ the message

/-- The piece of memory for messages, `0x17FE00000`. -/
def flags : Nat := 0x17FE00000

/-- `LINUX_BOOT_ACQUIRED_MAGIC` -/
def linuxBootAcquiredMagic : UINT16 := 0x5241

/-- There is a message. -/
def Requested (m : Mem) : Prop :=
  ∃ i < 128, getHword m (flags + 2 * i) = linuxBootAcquiredMagic

instance (m : Mem) : Decidable (Requested m) :=
  inferInstanceAs (Decidable (∃ i, i < 128 ∧ _))

/-- A halfword stored in memory, the low byte first. -/
def putHword (m : Mem) (a : Nat) (v : UINT16) : Mem :=
  writeBytes m a [byteOf v 0, byteOf v 1]

/-- The stores of `Reboot2PayloadAppEntryPoint`. -/
def reboot2PayloadApp (m : Mem) : Mem :=
  (List.range 128).foldl
    (fun m i => putHword m (flags + 2 * i) linuxBootAcquiredMagic) m

end Edk2Exynos.BootShim.Dualboot
