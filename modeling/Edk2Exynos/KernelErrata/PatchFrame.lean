/-
Which bytes the patches change (KernelErrataPatcher.c).

# The occurrence

Unless the pattern stands at address 0, the result of `FindPattern` is an
occurrence inside the range (`findPattern_occurrence`). What is stored
there is as long as the pattern for the two ACTLR_EL1 patches, four bytes
longer for KiCacheInitialize, whose last NOP replaces the call that the
matched instructions prepare, and 32 bytes in front of it for
PsciMemProtect.

# Searching again

The read patch searches the memory it has patched. Its replacement has no
byte of the pattern, so no new occurrence arises and each one found is one
of the image as it was (`occursAt_of_write`, `readACTLREL1Loop_changes`).

# The ends of the image

The store behind the match and the one before it are not checked against
the image. `applyPatches_confined` has the two bounds as conditions.
-/
import Edk2Exynos.KernelErrata.FindPattern

namespace Edk2Exynos.KernelErrata

open Lib

-- ============================================================== patterns

/-- `msr actlr_el1, x9` -/
def msrActlr : List HexByte := hexBytes (chars "29 10 18 D5")

/-- The three instructions before the first bugcheck call of
KiCacheInitialize. -/
def kiCacheInitializeBC1 : List HexByte :=
  hexBytes (chars "04 00 80 D2 03 00 80 D2 C0 07 80 52")

/-- Four instructions of PsciMemProtect, from the ninth on. -/
def psciMemProtect : List HexByte :=
  hexBytes (chars "D5 02 00 18 03 00 80 D2 02 00 80 D2 01 00 80 D2")

-- =========================================================== occurrences

/-- The address lies in the image. -/
def InImage (base size : UINT64) (a : Nat) : Prop :=
  base.toNat ≤ a ∧ a < base.toNat + size.toNat

/-- The pattern stands at `x`, inside the image. -/
structure Occurrence (mem : Mem) (base size : UINT64) (p : List HexByte)
    (x : Nat) : Prop where
  start : base.toNat ≤ x
  inside : x + p.length ≤ base.toNat + size.toNat
  occurs : PatternAt mem p x

/-- The pattern is not met at address 0, which the search would take for
no match. -/
def NotAtZero (mem : Mem) (base : UINT64) (p : List HexByte) : Prop :=
  base ≠ 0 ∨ ¬ PatternAt mem p 0

/-- Where `FindPattern` finds the pattern, 0 if nowhere. -/
def matchOf (mem : Mem) (base size : UINT64) (p : List HexByte) : Nat :=
  (findPattern mem base size (patternText p)).toNat

section

variable {mem : Mem} {base size : UINT64} {p : List HexByte}

/-- What is found is an occurrence. -/
theorem findPattern_occurrence (hp : p ≠ []) (hzero : NotAtZero mem base p)
    (hfound : matchOf mem base size p ≠ 0) :
    Occurrence mem base size p (matchOf mem base size p) := by
  have hpos : 0 < p.length := List.length_pos_of_ne_nil hp
  have hbytes : patternBytes p ≠ [] := fun h => hp (List.map_eq_nil_iff.mp h)
  have hlen : (patternBytes p).length = p.length := List.length_map _
  have hleft : (base + size).toNat - base.toNat ≤ size.toNat := by
    have hadd := BitVec.toNat_add base size
    have hmod := Nat.mod_le (base.toNat + size.toNat) (2 ^ 64)
    omega
  have hend := (base + size).isLt
  unfold matchOf at hfound ⊢
  rw [findPattern_eq mem base size hp] at hfound ⊢
  cases hres : onePass (patternBytes p) mem
      ((base + size).toNat - base.toNat) base.toNat (patternBytes p)
      base.toNat with
  | none =>
    rw [hres] at hfound
    exact absurd rfl hfound
  | some x =>
    obtain ⟨hatt, hocc, hin⟩ := (onePass_eq_some_iff hbytes _ _).mp hres
    have hge := hatt.le
    have hx : 0 < x := by
      rcases hzero with hbase | hnot
      · have hb := BitVec.toNat_pos_of_ne_zero hbase
        omega
      · refine Nat.pos_of_ne_zero fun hx0 => hnot ?_
        rw [← hx0]
        exact hocc
    have hval : (BitVec.ofNat 64 (foundAddress p.length (some x))).toNat
        = x := by
      rw [foundAddress_some hpos hx, BitVec.toNat_ofNat]
      exact Nat.mod_eq_of_lt (by omega)
    rw [hval]
    exact ⟨hge, by omega, hocc⟩

/-- Where none of its bytes is stored, no occurrence arises. -/
theorem occursAt_of_write {w : List Byte} {a x : Nat} {bs : List Byte}
    (hbs : ∀ b ∈ bs, b ∉ w) (h : OccursAt (writeBytes mem a bs) w x) :
    OccursAt mem w x := by
  rw [occursAt_iff] at h ⊢
  intro i hi
  have hletter := h i hi
  have hmem := List.mem_of_getElem? hletter
  rw [hletter]
  congr 1
  by_cases hin : a ≤ x + i ∧ x + i < a + bs.length
  · obtain ⟨k, hk⟩ := Nat.exists_eq_add_of_le hin.1
    have hlt : k < bs.length := by omega
    rw [hk, writeBytes_inside hlt] at hmem
    exact absurd hmem (hbs _ (List.getElem_mem hlt))
  · exact writeBytes_outside (by omega)

theorem mrsActlr_ne_nil : mrsActlr ≠ [] := by decide

/-- The replacement of the read has no byte of the pattern. -/
theorem fixedInstruction0_apart :
    ∀ b ∈ fixedInstruction0, b ∉ patternBytes mrsActlr := by decide

theorem Occurrence.of_write {a x : Nat}
    (h : Occurrence (writeBytes mem a fixedInstruction0) base size mrsActlr
      x) : Occurrence mem base size mrsActlr x :=
  ⟨h.start, h.inside, occursAt_of_write fixedInstruction0_apart h.occurs⟩

theorem NotAtZero.write (h : NotAtZero mem base mrsActlr) (a : Nat) :
    NotAtZero (writeBytes mem a fixedInstruction0) base mrsActlr := by
  rcases h with hbase | hnot
  · exact Or.inl hbase
  · exact Or.inr fun hocc =>
      hnot (occursAt_of_write fixedInstruction0_apart hocc)

-- =============================================================== changes

/-- The `n` addresses from one of `l` on. -/
def Covered (n : Nat) (l : List Nat) (a : Nat) : Prop :=
  ∃ x ∈ l, x ≤ a ∧ a < x + n

/-- The loop changes as many occurrences of the image it began with as it
has patches to make, or fewer. -/
theorem readACTLREL1Loop_changes (left : Nat)
    (hzero : NotAtZero mem base mrsActlr) :
    ∃ l : List Nat, l.length ≤ left
      ∧ (∀ x ∈ l, Occurrence mem base size mrsActlr x)
      ∧ AgreeOutside (Covered 4 l) mem
        (readACTLREL1Loop base size left mem) := by
  induction left generalizing mem with
  | zero =>
    exact ⟨[], Nat.le_refl 0, List.forall_mem_nil _,
      AgreeOutside.refl _ mem⟩
  | succ left ih =>
    unfold readACTLREL1Loop
    dsimp only
    have htext := patternText_mrsActlr
    by_cases hfound : findPattern mem base size illegalInstruction0 = 0
    · rw [if_neg (not_not.mpr hfound)]
      exact ⟨[], Nat.zero_le _, List.forall_mem_nil _,
        AgreeOutside.refl _ mem⟩
    · rw [if_pos hfound]
      rw [← htext] at hfound ⊢
      have hocc : Occurrence mem base size mrsActlr
          (matchOf mem base size mrsActlr) :=
        findPattern_occurrence mrsActlr_ne_nil hzero
          (fun h => hfound (BitVec.eq_of_toNat_eq h))
      obtain ⟨l, hlen, hall, hagree⟩ := ih (hzero.write
        (matchOf mem base size mrsActlr))
      refine ⟨matchOf mem base size mrsActlr :: l,
        Nat.succ_le_succ hlen, ?_, ?_⟩
      · intro x hx
        rcases List.mem_cons.mp hx with rfl | hx
        · exact hocc
        · exact (hall x hx).of_write
      · have hhead : AgreeOutside
            (Covered 4 (matchOf mem base size mrsActlr :: l)) mem
            (writeBytes mem (matchOf mem base size mrsActlr)
              fixedInstruction0) :=
          (AgreeOutside.refl _ mem).write fun a hle hlt =>
            ⟨_, List.mem_cons_self, hle, hlt⟩
        refine hhead.trans (hagree.mono ?_)
        rintro a ⟨x, hx, hin⟩
        exact ⟨x, List.mem_cons_of_mem _ hx, hin⟩

/-- A patch made once changes what it stores, `back` bytes before the
match. -/
theorem applyPatch_changes {back : UINT64} {bytes : List Byte}
    (hback : matchOf mem base size p ≠ 0 →
      back.toNat ≤ matchOf mem base size p) :
    AgreeOutside
      (fun a => matchOf mem base size p ≠ 0
        ∧ matchOf mem base size p - back.toNat ≤ a
        ∧ a < matchOf mem base size p - back.toNat + bytes.length)
      mem (applyPatch (patternText p) back bytes mem base size) := by
  unfold applyPatch
  dsimp only
  split
  · next hfound =>
    have hne : matchOf mem base size p ≠ 0 :=
      fun h => hfound (BitVec.eq_of_toNat_eq h)
    have hsub : (findPattern mem base size (patternText p) - back).toNat
        = matchOf mem base size p - back.toNat :=
      BitVec.toNat_sub_of_le (BitVec.le_def.mpr (hback hne))
    unfold copyMemory
    rw [hsub]
    exact (AgreeOutside.refl _ mem).write fun a hle hlt => ⟨hne, hle, hlt⟩
  · exact AgreeOutside.refl _ mem

end

-- ============================================================ confinement

/-- What changes from `mem` to `mem'` is in `P`, and in the image. -/
structure Confined (mem mem' : Mem) (base size : UINT64)
    (P : Nat → Prop) : Prop where
  changes : AgreeOutside P mem mem'
  image : AgreeOutside (InImage base size) mem mem'

theorem Confined.of_inside {mem mem' : Mem} {base size : UINT64}
    {P : Nat → Prop} (h : AgreeOutside P mem mem')
    (hin : ∀ a, P a → InImage base size a) :
    Confined mem mem' base size P := ⟨h, h.mono hin⟩

section

variable (mem : Mem) (base size : UINT64)

/-- The read patch: at most three occurrences, one in the firmware
context. -/
theorem readACTLREL1_confined (isInFirmwareContext : Bool)
    (hzero : NotAtZero mem base mrsActlr) :
    ∃ l : List Nat, l.length ≤ (if isInFirmwareContext then 1 else 3)
      ∧ (∀ x ∈ l, Occurrence mem base size mrsActlr x)
      ∧ Confined mem
        (applyReadACTLREL1Patches mem base size isInFirmwareContext)
        base size (Covered 4 l) := by
  obtain ⟨l, hlen, hall, hagree⟩ : ∃ l : List Nat,
      l.length ≤ (if isInFirmwareContext then 1 else 3)
        ∧ (∀ x ∈ l, Occurrence mem base size mrsActlr x)
        ∧ AgreeOutside (Covered 4 l) mem (readACTLREL1Loop base size
          (if isInFirmwareContext then 1 else 3) mem) :=
    readACTLREL1Loop_changes _ hzero
  refine ⟨l, hlen, hall, Confined.of_inside hagree ?_⟩
  rintro a ⟨x, hx, hle, hlt⟩
  have hstart := (hall x hx).start
  have hinside := (hall x hx).inside
  have hfour : mrsActlr.length = 4 := by decide
  exact ⟨by omega, by omega⟩

/-- The bytes from `back` bytes before the match on. -/
def AtMatch (p : List HexByte) (back n a : Nat) : Prop :=
  matchOf mem base size p ≠ 0
    ∧ matchOf mem base size p - back ≤ a
    ∧ a < matchOf mem base size p - back + n

/-- A patch made once: where its store lies in the image, that is all it
changes. -/
theorem applyPatch_confined {p : List HexByte} {back : UINT64}
    {bytes : List Byte}
    (hin : matchOf mem base size p ≠ 0 →
      base.toNat + back.toNat ≤ matchOf mem base size p
      ∧ matchOf mem base size p - back.toNat + bytes.length
        ≤ base.toNat + size.toNat) :
    Confined mem (applyPatch (patternText p) back bytes mem base size) base
      size (AtMatch mem base size p back.toNat bytes.length) := by
  have hback : matchOf mem base size p ≠ 0 →
      back.toNat ≤ matchOf mem base size p :=
    fun hne => Nat.le_trans (Nat.le_add_left _ _) (hin hne).1
  refine Confined.of_inside (applyPatch_changes hback) ?_
  rintro a ⟨hne, hle, hlt⟩
  obtain ⟨hstart, hend⟩ := hin hne
  exact ⟨by omega, by omega⟩

/-- For every image in which a pattern is not met at address 0. The read
patch changes the four bytes of at most three occurrences in the image as
it was (one in the firmware context), the write patch those of the match.
The KiCacheInitialize patch changes the twelve bytes of the match and the
instruction after it, if that lies in the image; the PsciMemProtect patch
the instruction eight before the match, if that does. None changes a byte
outside the image then. -/
theorem applyPatches_confined (isInFirmwareContext : Bool) :
    (NotAtZero mem base mrsActlr →
      ∃ l : List Nat, l.length ≤ (if isInFirmwareContext then 1 else 3)
        ∧ (∀ x ∈ l, Occurrence mem base size mrsActlr x)
        ∧ Confined mem
          (applyReadACTLREL1Patches mem base size isInFirmwareContext)
          base size (Covered 4 l))
    ∧ (NotAtZero mem base msrActlr →
      (matchOf mem base size msrActlr ≠ 0 → Occurrence mem base size
          msrActlr (matchOf mem base size msrActlr))
        ∧ Confined mem (applyWriteACTLREL1Patches mem base size) base size
          (AtMatch mem base size msrActlr 0 4))
    ∧ (NotAtZero mem base kiCacheInitializeBC1 →
      (matchOf mem base size kiCacheInitializeBC1 ≠ 0 →
        Occurrence mem base size kiCacheInitializeBC1
          (matchOf mem base size kiCacheInitializeBC1))
        ∧ ((matchOf mem base size kiCacheInitializeBC1 ≠ 0 →
            matchOf mem base size kiCacheInitializeBC1 + (12 + 4)
              ≤ base.toNat + size.toNat) →
          Confined mem
            (applyIncoherentCacheConfigurationPatches mem base size) base
            size (AtMatch mem base size kiCacheInitializeBC1 0 (12 + 4))))
    ∧ (NotAtZero mem base psciMemProtect →
      (matchOf mem base size psciMemProtect ≠ 0 →
        Occurrence mem base size psciMemProtect
          (matchOf mem base size psciMemProtect))
        ∧ ((matchOf mem base size psciMemProtect ≠ 0 →
            base.toNat + 4 * 8 ≤ matchOf mem base size psciMemProtect) →
          Confined mem
            (applyPsciMemoryProtectionPatches mem base size) base size
            (AtMatch mem base size psciMemProtect (4 * 8) 4))) := by
  refine ⟨readACTLREL1_confined mem base size isInFirmwareContext, ?_, ?_, ?_⟩
  · intro hzero
    have hocc : matchOf mem base size msrActlr ≠ 0 →
        Occurrence mem base size msrActlr
          (matchOf mem base size msrActlr) :=
      findPattern_occurrence (by decide) hzero
    refine ⟨hocc, ?_⟩
    have hlen : msrActlr.length = 4 := by decide
    have htext : patternText msrActlr = chars "29 10 18 D5" := by decide
    unfold applyWriteACTLREL1Patches
    rw [← htext]
    refine applyPatch_confined mem base size fun hne => ⟨(hocc hne).start, ?_⟩
    have hinside := (hocc hne).inside
    rw [hlen] at hinside
    exact hinside
  · intro hzero
    have hocc : matchOf mem base size kiCacheInitializeBC1 ≠ 0 →
        Occurrence mem base size kiCacheInitializeBC1
          (matchOf mem base size kiCacheInitializeBC1) :=
      findPattern_occurrence (by decide) hzero
    refine ⟨hocc, fun hend => ?_⟩
    have htext : patternText kiCacheInitializeBC1
        = chars "04 00 80 D2 03 00 80 D2 C0 07 80 52" := by decide
    unfold applyIncoherentCacheConfigurationPatches
    rw [← htext]
    exact applyPatch_confined mem base size fun hne =>
      ⟨(hocc hne).start, hend hne⟩
  · intro hzero
    have hocc : matchOf mem base size psciMemProtect ≠ 0 →
        Occurrence mem base size psciMemProtect
          (matchOf mem base size psciMemProtect) :=
      findPattern_occurrence (by decide) hzero
    refine ⟨hocc, fun hstart => ?_⟩
    have hlen : psciMemProtect.length = 16 := by decide
    have htext : patternText psciMemProtect
        = chars "D5 02 00 18 03 00 80 D2 02 00 80 D2 01 00 80 D2" := by
      decide
    unfold applyPsciMemoryProtectionPatches
    rw [← htext]
    refine applyPatch_confined mem base size fun hne => ⟨hstart hne, ?_⟩
    have hinside := (hocc hne).inside
    rw [hlen] at hinside
    show matchOf mem base size psciMemProtect - 32 + 4 ≤ _
    omega

end

/-- An image at 0x1000 in which every pattern stands: the read of
ACTLR_EL1, the write, the beginning of the bugcheck with its call, and
PsciMemProtect eight instructions after its entry. -/
def allPatterns : Mem :=
  writeBytes (fun _ => 0) 0x1000
    (patternBytes mrsActlr ++ List.replicate 4 0
      ++ patternBytes msrActlr ++ List.replicate 4 0
      ++ patternBytes kiCacheInitializeBC1 ++ [0x11, 0x22, 0x33, 0x94]
      ++ List.replicate 32 0 ++ patternBytes psciMemProtect)

/-- Each patch finds its pattern there and stores inside the image. -/
theorem applyPatches_confined_all :
    let base : UINT64 := 0x1000
    matchOf allPatterns base 80 mrsActlr = 0x1000
      ∧ matchOf allPatterns base 80 msrActlr = 0x1008
      ∧ matchOf allPatterns base 80 kiCacheInitializeBC1 = 0x1010
      ∧ matchOf allPatterns base 80 psciMemProtect = 0x1040
      ∧ (∃ l : List Nat, l.length ≤ 3
        ∧ (∀ x ∈ l, Occurrence allPatterns base 80 mrsActlr x)
        ∧ Confined allPatterns
          (applyReadACTLREL1Patches allPatterns base 80 false) base 80
          (Covered 4 l))
      ∧ Confined allPatterns
        (applyWriteACTLREL1Patches allPatterns base 80) base 80
        (AtMatch allPatterns base 80 msrActlr 0 4)
      ∧ Confined allPatterns
        (applyIncoherentCacheConfigurationPatches allPatterns base 80) base
        80 (AtMatch allPatterns base 80 kiCacheInitializeBC1 0 (12 + 4))
      ∧ Confined allPatterns
        (applyPsciMemoryProtectionPatches allPatterns base 80) base 80
        (AtMatch allPatterns base 80 psciMemProtect (4 * 8) 4) := by
  intro base
  have hbase : ∀ p, NotAtZero allPatterns base p :=
    fun p => Or.inl (by decide)
  have hki : matchOf allPatterns base 80 kiCacheInitializeBC1 = 0x1010 := by
    decide +kernel
  have hpsci : matchOf allPatterns base 80 psciMemProtect = 0x1040 := by
    decide +kernel
  obtain ⟨hread, hwrite, hcache, hprotect⟩ :=
    applyPatches_confined allPatterns base 80 false
  refine ⟨by decide +kernel, by decide +kernel, hki, hpsci,
    hread (hbase _), (hwrite (hbase _)).2, (hcache (hbase _)).2 fun _ => ?_,
    (hprotect (hbase _)).2 fun _ => ?_⟩
  · rw [hki]
    decide
  · rw [hpsci]
    decide

/-- The call that follows the matched instructions is overwritten with
them. At the end of the image that is the instruction behind it, and with
PsciMemProtect matched at the start of the image the one 32 bytes before
it. -/
theorem applyPatches_beyond_match :
    let ki := writeBytes (fun _ => 0) 0x1000
      (patternBytes kiCacheInitializeBC1 ++ [0x11, 0x22, 0x33, 0x94])
    let psci := writeBytes (fun _ => 0) 0x1000 (patternBytes psciMemProtect)
    matchOf ki 0x1000 16 kiCacheInitializeBC1 = 0x1000
      ∧ ¬ AgreeOutside (AtMatch ki 0x1000 16 kiCacheInitializeBC1 0 12) ki
        (applyIncoherentCacheConfigurationPatches ki 0x1000 16)
      ∧ ¬ AgreeOutside (InImage 0x1000 12) ki
        (applyIncoherentCacheConfigurationPatches ki 0x1000 12)
      ∧ ¬ AgreeOutside (InImage 0x1000 16) psci
        (applyPsciMemoryProtectionPatches psci 0x1000 16) := by
  intro ki psci
  have hmatch : matchOf ki 0x1000 16 kiCacheInitializeBC1 = 0x1000 := by
    decide
  refine ⟨hmatch, fun h => ?_, fun h => ?_, fun h => ?_⟩
  · have hkeep := h 0x100C (by
      unfold AtMatch
      rw [hmatch]
      omega)
    revert hkeep
    decide
  · have hkeep := h 0x100C (by
      unfold InImage
      decide)
    revert hkeep
    decide
  · have hkeep := h 0xFE0 (by
      unfold InImage
      decide)
    revert hkeep
    decide

end Edk2Exynos.KernelErrata
