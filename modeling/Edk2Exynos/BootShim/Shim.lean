/-
BootShim.S: the code in front of the firmware image. It copies the image
from behind itself to `UEFI_BASE` and branches there.

# The machine

Only what the shim uses of an ARM64 processor: six registers, the zero
flag, and a memory of bytes. The instructions are fetched from the
program as it is assembled, by their offset from `_Head`; the two literals
are loaded from memory.
-/
import Edk2Exynos.Lib.Bytes

namespace Edk2Exynos.BootShim

open Lib

/-- A doubleword, as a register holds it. -/
abbrev UINT64 := BitVec 64

-- ============================================================ the machine

/-- The registers the shim uses. -/
inductive Reg where
  | x1
  | x2
  | x3
  | x4
  | x5
  | x6
  deriving DecidableEq

/-- The instructions of the shim. A label is its offset from `_Head`. -/
inductive Instr where
  | adr (rd : Reg) (label : Nat)
  | b (label : Nat)
  | mov (rd rn : Reg)
  | ldrLiteral (rd : Reg) (label : Nat)
  | cmp (rn rm : Reg)
  | beq (label : Nat)
  | bne (label : Nat)
  | ldpPost (rt rt2 rn : Reg) (imm : Nat)
  | stpPost (rt rt2 rn : Reg) (imm : Nat)
  | subs (rd rn : Reg) (imm : Nat)
  | br (rn : Reg)

/-- The processor; `pc` is an offset from `_Head` as well. -/
structure Cpu where
  pc : Nat
  reg : Reg → UINT64
  zero : Bool
  mem : Mem

/-- What a step leads to. -/
inductive Outcome where
  | next (c : Cpu)
  /-- a branch out of the shim, with the memory as it is then -/
  | left (target : UINT64) (mem : Mem)
  /-- no instruction there -/
  | fault

/-- A register written, and on to the next instruction. -/
def Cpu.write (c : Cpu) (rd : Reg) (v : UINT64) : Cpu where
  pc := c.pc + 4
  reg := Function.update c.reg rd v
  zero := c.zero
  mem := c.mem

/-- One instruction, of a shim that was loaded at `load`. -/
def Instr.exec (load : UINT64) (c : Cpu) : Instr → Outcome
  | .adr rd label => .next (c.write rd (load + BitVec.ofNat 64 label))
  | .b label => .next { c with pc := label }
  | .mov rd rn => .next (c.write rd (c.reg rn))
  | .ldrLiteral rd label =>
    .next (c.write rd
      (getLlword c.mem (load + BitVec.ofNat 64 label).toNat))
  | .cmp rn rm =>
    .next { c with pc := c.pc + 4, zero := c.reg rn == c.reg rm }
  | .beq label => .next { c with pc := if c.zero then label else c.pc + 4 }
  | .bne label => .next { c with pc := if c.zero then c.pc + 4 else label }
  | .ldpPost rt rt2 rn imm =>
    let a := c.reg rn
    let v := getLlword c.mem a.toNat
    let v2 := getLlword c.mem (a + 8).toNat
    .next {
      pc := c.pc + 4
      reg := Function.update (Function.update (Function.update c.reg
        rt v) rt2 v2) rn (a + BitVec.ofNat 64 imm)
      zero := c.zero
      mem := c.mem }
  | .stpPost rt rt2 rn imm =>
    let a := c.reg rn
    let mem := putLongLong c.mem a.toNat (c.reg rt)
    .next {
      pc := c.pc + 4
      reg := Function.update c.reg rn (a + BitVec.ofNat 64 imm)
      zero := c.zero
      mem := putLongLong mem (a + 8).toNat (c.reg rt2) }
  | .subs rd rn imm =>
    let v := c.reg rn - BitVec.ofNat 64 imm
    .next { c.write rd v with zero := v == 0 }
  | .br rn => .left (c.reg rn) c.mem

-- ============================================================ the program

/-- `_StackBase` -/
def labelStackBase : Nat := 0x48
/-- `_StackSize` -/
def labelStackSize : Nat := 0x50
/-- `_Start` -/
def labelStart : Nat := 0x58
/-- `_CopyLoop` -/
def labelCopyLoop : Nat := 0x6C
/-- `_Entry` -/
def labelEntry : Nat := 0x80
/-- `_Dead` -/
def labelDead : Nat := 0x84
/-- behind `_Dead`, at the next multiple of 16 -/
def labelPayload : Nat := 0x90

/-- The instructions of BootShim.S. From offset 8 to `_Start` there is the
header of a kernel image, which ends with the two literals. -/
def bootShim : Nat → Option Instr
  | 0x00 => some (.adr .x1 labelPayload)
  | 0x04 => some (.b labelStart)
  | 0x58 => some (.mov .x4 .x1)
  | 0x5C => some (.ldrLiteral .x5 labelStackBase)
  | 0x60 => some (.cmp .x4 .x5)
  | 0x64 => some (.beq labelEntry)
  | 0x68 => some (.ldrLiteral .x6 labelStackSize)
  | 0x6C => some (.ldpPost .x2 .x3 .x4 16)
  | 0x70 => some (.stpPost .x2 .x3 .x5 16)
  | 0x74 => some (.subs .x6 .x6 16)
  | 0x78 => some (.bne labelCopyLoop)
  | 0x7C => some (.ldrLiteral .x5 labelStackBase)
  | 0x80 => some (.br .x5)
  | 0x84 => some (.b labelDead)
  | _ => none

/-- One instruction of the shim. -/
def step (load : UINT64) (c : Cpu) : Outcome :=
  match bootShim c.pc with
  | some i => i.exec load c
  | none => .fault

/-- At most `n` steps. -/
def execute (load : UINT64) : Nat → Cpu → Outcome
  | 0, c => .next c
  | n + 1, c =>
    match step load c with
    | .next c => execute load n c
    | o => o

/-- The first of some instructions. -/
theorem execute_next {load : UINT64} {c c' : Cpu}
    (h : step load c = .next c') (n : Nat) :
    execute load (n + 1) c = execute load n c' := by
  rw [execute, h]

/-- Instructions after other instructions. -/
theorem execute_add {load : UINT64} {n : Nat} {c c' : Cpu}
    (h : execute load n c = .next c') (k : Nat) :
    execute load (n + k) c = execute load k c' := by
  induction n generalizing c with
  | zero =>
    rw [Nat.zero_add]
    cases h
    rfl
  | succ n ih =>
    cases hstep : step load c with
    | next c1 =>
      rw [execute_next hstep] at h
      rw [Nat.add_right_comm, execute_next hstep]
      exact ih h
    | left target mem =>
      rw [execute, hstep] at h
      cases h
    | fault =>
      rw [execute, hstep] at h
      cases h

/-- The shim is left at one place only. -/
theorem execute_left_unique {load t t' : UINT64} {m m' : Mem}
    {n n' : Nat} {c : Cpu} (h : execute load n c = .left t m)
    (h' : execute load n' c = .left t' m') : t = t' ∧ m = m' := by
  induction n generalizing n' c with
  | zero => cases h
  | succ n ih =>
    cases n' with
    | zero => cases h'
    | succ n' =>
      cases hstep : step load c with
      | next c1 =>
        rw [execute_next hstep] at h h'
        exact ih h h'
      | left target mem =>
        rw [execute, hstep] at h h'
        cases h
        cases h'
        exact ⟨rfl, rfl⟩
      | fault =>
        rw [execute, hstep] at h
        cases h

end Edk2Exynos.BootShim
