/-
What `FindPattern` finds (Utilities.c).

# Patterns of hexadecimal bytes

A `HexByte` is two digits of either case. For a pattern of such bytes the
cursor into the string, the byte it stands before and the attempt's first
address move together, so the loop is the one-pass search over memory
(`findPatternLoop_eq`).

# Address 0

The loop takes a first match at 0 for none. A pattern found at 0 is
reported at 1, or not at all if it has one byte (`foundAddress`).

# The first occurrence

Elsewhere the result is right exactly when the first occurrence is an
attempt of the search, and so on every memory for patterns of equal bytes
only (`findPattern_right_iff`).
-/
import Edk2Exynos.KernelErrata.Patches
import Edk2Exynos.Lib.OnePass

namespace Edk2Exynos.KernelErrata

open Lib

-- ===================================================== hexadecimal bytes

/-- One of `0` to `9`, `A` to `F`, `a` to `f`. -/
def IsHexDigit (x : Nat) : Prop :=
  (0x30 ≤ x ∧ x ≤ 0x39) ∨ (0x41 ≤ x ∧ x ≤ 0x46) ∨ (0x61 ≤ x ∧ x ≤ 0x66)

instance : DecidablePred IsHexDigit :=
  fun _ => inferInstanceAs (Decidable (_ ∨ _ ∨ _))

/-- The value of a hexadecimal digit. -/
def hexDigitValue (x : Nat) : Nat :=
  if x ≤ 0x39 then x - 0x30 else if x ≤ 0x46 then x - 0x37 else x - 0x57

/-- Two hexadecimal digits. -/
structure HexByte where
  high : Nat
  low : Nat
  high_digit : IsHexDigit high
  low_digit : IsHexDigit low

/-- The byte they stand for. -/
def HexByte.byte (b : HexByte) : Byte :=
  BitVec.ofNat 8 (16 * hexDigitValue b.high + hexDigitValue b.low)

/-- The bytes of a pattern, separated by blanks. -/
def patternText : List HexByte → List Nat
  | [] => []
  | [b] => [b.high, b.low]
  | b :: bs => b.high :: b.low :: 0x20 :: patternText bs

/-- The bytes of a pattern, read back from its characters. -/
def hexBytes : List Nat → List HexByte
  | [a, b] => if h : IsHexDigit a ∧ IsHexDigit b then [⟨a, b, h.1, h.2⟩]
      else []
  | a :: b :: _ :: rest =>
      if h : IsHexDigit a ∧ IsHexDigit b then
        ⟨a, b, h.1, h.2⟩ :: hexBytes rest
      else []
  | _ => []

/-- The bytes it stands for. -/
def patternBytes (p : List HexByte) : List Byte := p.map HexByte.byte

/-- `mrs x8, actlr_el1` -/
def mrsActlr : List HexByte := hexBytes illegalInstruction0

theorem patternText_mrsActlr :
    patternText mrsActlr = illegalInstruction0 := by decide

theorem getBits_digit {x : Nat} (h : IsHexDigit x) :
    getBits x = hexDigitValue x ∧ hexDigitValue x < 16 := by
  have hall : ∀ y < 0x67, IsHexDigit y →
      getBits y = hexDigitValue y ∧ hexDigitValue y < 16 := by decide
  refine hall x ?_ h
  unfold IsHexDigit at h
  omega

theorem HexByte.high_ne (b : HexByte) :
    b.high ≠ 0 ∧ b.high ≠ questionMark := by
  have h := b.high_digit
  unfold IsHexDigit at h
  unfold questionMark
  omega

/-- `GET_BYTE` is the byte of the two digits. -/
theorem HexByte.matches_iff (b : HexByte) (x : Byte) :
    x.toNat = getByte b.high b.low ↔ x = b.byte := by
  obtain ⟨hhigh, hhigh_lt⟩ := getBits_digit b.high_digit
  obtain ⟨hlow, hlow_lt⟩ := getBits_digit b.low_digit
  have hvalue : getByte b.high b.low
      = 16 * hexDigitValue b.high + hexDigitValue b.low := by
    unfold getByte
    rw [hhigh, hlow, ← Nat.shiftLeft_add_eq_or_of_lt hlow_lt,
      Nat.shiftLeft_eq, Nat.mul_comm]
  rw [hvalue, ← BitVec.toNat_inj]
  unfold HexByte.byte
  rw [BitVec.toNat_ofNat, Nat.mod_eq_of_lt (by omega)]

section

variable (b : HexByte) (rest : List HexByte)

theorem patternText_high : (patternText (b :: rest)).getD 0 0 = b.high := by
  cases rest <;> rfl

theorem patternText_low : (patternText (b :: rest)).getD 1 0 = b.low := by
  cases rest <;> rfl

/-- The third character ends the pattern or separates two bytes. -/
theorem patternText_end :
    (patternText (b :: rest)).getD 2 0 = 0 ↔ rest = [] := by
  cases rest with
  | nil => exact ⟨fun _ => rfl, fun _ => rfl⟩
  | cons a rest =>
    constructor
    · intro h
      exact absurd h (by decide : (0x20 : Nat) ≠ 0)
    · intro h
      cases h

theorem patternText_next (hrest : rest ≠ []) :
    (patternText (b :: rest)).drop 3 = patternText rest := by
  cases rest with
  | nil => exact absurd rfl hrest
  | cons a rest => rfl

end

-- ============================================================== the search

/-- The value of `firstMatch` before `pos`, in an attempt from `start`
on. -/
def firstMatchAt (start pos : Nat) : Nat :=
  if start = pos then 0
  else if start = 0 then if pos = 1 then 0 else 1
  else start

/-- What is returned for a pattern of `n` bytes found at an address. -/
def foundAddress (n : Nat) : Option Nat → Nat
  | none => 0
  | some x => firstMatchAt x (x + n)

theorem firstMatchAt_self (pos : Nat) : firstMatchAt pos pos = 0 := if_pos rfl

/-- The flag after one more matching byte. -/
theorem firstMatchAt_succ {start pos : Nat} (h : start ≤ pos) :
    firstMatchAt start (pos + 1)
      = if firstMatchAt start pos = 0 then pos
        else firstMatchAt start pos := by
  by_cases hsame : start = pos
  · rw [hsame, firstMatchAt_self, if_pos rfl]
    unfold firstMatchAt
    rw [if_neg (Nat.succ_ne_self pos).symm]
    split
    · next hzero => rw [hzero, if_pos rfl]
    · rfl
  · by_cases hzero : start = 0
    · -- the address 1 is taken for the first one
      have hnext : ¬ start = pos + 1 := by omega
      unfold firstMatchAt
      rw [if_neg hsame, if_neg hnext, if_pos hzero, if_pos hzero]
      by_cases hone : pos = 1
      · rw [hone]
        rfl
      · rw [if_neg (by omega), if_neg hone, if_neg Nat.one_ne_zero]
    · have hflag : firstMatchAt start pos = start := by
        unfold firstMatchAt
        rw [if_neg hsame, if_neg hzero]
      rw [hflag, if_neg hzero]
      unfold firstMatchAt
      rw [if_neg (by omega), if_neg hzero]

theorem firstMatchAt_le {start pos : Nat} (h : start ≤ pos) :
    firstMatchAt start pos ≤ pos := by
  unfold firstMatchAt
  split
  · exact Nat.zero_le pos
  · split
    · split
      · exact Nat.zero_le pos
      · omega
    · exact h

/-- The assignment to `firstMatch`. -/
theorem firstMatch_assign {start : Nat} {current : UINT64}
    (h : start ≤ current.toNat) :
    (if BitVec.ofNat 64 (firstMatchAt start current.toNat) = 0 then current
      else BitVec.ofNat 64 (firstMatchAt start current.toNat))
      = BitVec.ofNat 64 (firstMatchAt start (current.toNat + 1)) := by
  have hlt : firstMatchAt start current.toNat < 2 ^ 64 :=
    Nat.lt_of_le_of_lt (firstMatchAt_le h) current.isLt
  have hzero : BitVec.ofNat 64 (firstMatchAt start current.toNat) = 0
      ↔ firstMatchAt start current.toNat = 0 := by
    rw [← BitVec.toNat_inj, BitVec.toNat_ofNat, Nat.mod_eq_of_lt hlt]
    rfl
  rw [firstMatchAt_succ h]
  split
  · next hflag =>
    rw [if_pos (hzero.mp hflag), BitVec.ofNat_toNat, BitVec.setWidth_eq]
  · next hflag => rw [if_neg fun h => hflag (hzero.mpr h)]

/-- The loop is the one-pass search, with `rest` left of the pattern. -/
theorem findPatternLoop_eq (mem : Mem) (p : List HexByte) (left : Nat)
    (current : UINT64) (rest : List HexByte) (start : Nat)
    (hrest : rest ≠ []) (hwrap : current.toNat + left < 2 ^ 64)
    (hstart : start ≤ current.toNat)
    (hpos : current.toNat + rest.length = start + p.length) :
    findPatternLoop mem (patternText p) left current (patternText rest)
        (BitVec.ofNat 64 (firstMatchAt start current.toNat))
      = BitVec.ofNat 64 (foundAddress p.length
          (onePass (patternBytes p) mem left current.toNat
            (patternBytes rest) start)) := by
  induction left generalizing current rest start with
  | zero => rfl
  | succ left ih =>
    obtain ⟨b, rest, rfl⟩ := List.exists_cons_of_ne_nil hrest
    have hnext : (current + 1).toNat = current.toNat + 1 := by
      rw [BitVec.toNat_add]
      exact Nat.mod_eq_of_lt (by
        show current.toNat + 1 < 2 ^ 64
        omega)
    have hbytes : patternBytes (b :: rest) = b.byte :: patternBytes rest :=
      rfl
    unfold findPatternLoop
    rw [patternText_high, patternText_low]
    dsimp only
    rw [if_neg b.high_ne.1, hbytes]
    by_cases hbyte : mem current.toNat = b.byte
    · rw [if_pos (Or.inr ((b.matches_iff _).mpr hbyte)),
        firstMatch_assign hstart, onePass_match hbyte,
        if_neg b.high_ne.2]
      by_cases hnil : rest = []
      · have hlast : patternBytes rest = [] := by rw [hnil]; rfl
        have hlen : current.toNat + 1 = start + p.length := by
          rw [← hpos, hnil]
          rfl
        rw [if_pos ((patternText_end b rest).mpr hnil), if_pos hlast, hlen]
        rfl
      · have hmore : patternBytes rest ≠ [] :=
          fun h => hnil (List.map_eq_nil_iff.mp h)
        rw [if_neg fun h => hnil ((patternText_end b rest).mp h),
          if_neg hmore, patternText_next b rest hnil, ← hnext]
        refine ih (current + 1) rest start hnil ?_ ?_ ?_
        · omega
        · omega
        · rw [List.length_cons] at hpos
          omega
    · have hmiss : ¬ (b.high = questionMark
          ∨ (mem current.toNat).toNat = getByte b.high b.low) :=
        not_or.mpr ⟨b.high_ne.2, fun h => hbyte ((b.matches_iff _).mp h)⟩
      have hp : p ≠ [] := by
        rintro rfl
        simp only [List.length_cons, List.length_nil] at hpos
        omega
      rw [if_neg hmiss, onePass_mismatch hbyte, ← hnext]
      have hrec := ih (current + 1) p (current + 1).toNat hp (by omega)
        (Nat.le_refl _) rfl
      rw [firstMatchAt_self] at hrec
      exact hrec

/-- `FindPattern` is the one-pass search over the range, if that does not
wrap around; else it finds nothing. -/
theorem findPattern_eq (mem : Mem) (base size : UINT64) {p : List HexByte}
    (hp : p ≠ []) :
    findPattern mem base size (patternText p)
      = BitVec.ofNat 64 (foundAddress p.length
          (onePass (patternBytes p) mem ((base + size).toNat - base.toNat)
            base.toNat (patternBytes p) base.toNat)) := by
  have hend := (base + size).isLt
  have hbase := base.isLt
  have hloop := findPatternLoop_eq mem p ((base + size).toNat - base.toNat)
    base p base.toNat hp (by omega) (Nat.le_refl _) rfl
  rw [firstMatchAt_self] at hloop
  exact hloop

theorem foundAddress_some {n x : Nat} (hn : 0 < n) (hx : 0 < x) :
    foundAddress n (some x) = x := by
  have hend : ¬ x = x + n := by omega
  unfold foundAddress firstMatchAt
  dsimp only
  rw [if_neg hend, if_neg (Nat.ne_of_gt hx)]

-- ====================================================== the first occurrence

/-- The pattern stands at `x`. -/
abbrev PatternAt (mem : Mem) (p : List HexByte) (x : Nat) : Prop :=
  OccursAt mem (patternBytes p) x

/-- `result` is the smallest address in the range at which the pattern
stands, or 0 if there is none. -/
structure FindsPattern (mem : Mem) (base size : UINT64) (p : List HexByte)
    (result : UINT64) : Prop where
  found : ∀ x, IsFirstOccurrence (patternBytes p) mem base.toNat size.toNat x
    → result.toNat = x
  absent : (∀ x, base.toNat ≤ x →
      x + p.length ≤ base.toNat + size.toNat → ¬ PatternAt mem p x)
    → result = 0

/-- `FindPattern` is right exactly when the first occurrence, if there is
one, is where an attempt of its one pass begins. -/
theorem findsPattern_iff (mem : Mem) (base size : UINT64)
    (p : List HexByte) (hp : p ≠ []) (hbase : 0 < base.toNat)
    (hwrap : base.toNat + size.toNat < 2 ^ 64) :
    FindsPattern mem base size p (findPattern mem base size (patternText p))
      ↔ ∀ x,
        IsFirstOccurrence (patternBytes p) mem base.toNat size.toNat x →
        Attempts (patternBytes p) mem base.toNat x := by
  have hpos : 0 < p.length := List.length_pos_of_ne_nil hp
  have hbytes : patternBytes p ≠ [] := fun h => hp (List.map_eq_nil_iff.mp h)
  have hleft : (base + size).toNat - base.toNat = size.toNat := by
    rw [BitVec.toNat_add, Nat.mod_eq_of_lt hwrap, Nat.add_sub_cancel_left]
  have heq := findPattern_eq mem base size hp
  rw [hleft] at heq
  have hsome := fun x => onePass_eq_some_iff (t := mem) (x := x) hbytes
    base.toNat size.toNat
  rw [heq]
  cases hres : onePass (patternBytes p) mem size.toNat base.toNat
      (patternBytes p) base.toNat with
  | none =>
    have hzero : (BitVec.ofNat 64 (foundAddress p.length none)).toNat = 0 :=
      rfl
    constructor
    · rintro ⟨hfound, -⟩ x hx
      have hx0 := hfound x hx
      have hge := hx.start
      omega
    · intro h
      refine ⟨fun x hx => ?_, fun _ => rfl⟩
      have hx' := (hsome x).mpr ⟨h x hx, hx.occurs, hx.inside⟩
      rw [hres] at hx'
      cases hx'
  | some y =>
    obtain ⟨hatt, hocc, hin⟩ := (hsome y).mp hres
    have hlen : (patternBytes p).length = p.length := List.length_map _
    have hge := hatt.le
    have hy : (BitVec.ofNat 64 (foundAddress p.length (some y))).toNat
        = y := by
      rw [foundAddress_some hpos (by omega), BitVec.toNat_ofNat]
      exact Nat.mod_eq_of_lt (by omega)
    constructor
    · rintro ⟨hfound, -⟩ x hx
      rw [← hfound x hx, hy]
      exact hatt
    · intro h
      refine ⟨fun x hx => ?_, fun hnone => ?_⟩
      · have hx' := (hsome x).mpr ⟨h x hx, hx.occurs, hx.inside⟩
        rw [hres] at hx'
        rw [hy]
        exact Option.some.inj hx'
      · rw [hlen] at hin
        exact absurd hocc (hnone y hge hin)

/-- On every memory `FindPattern` is right for the patterns of equal bytes
only. -/
theorem findsPattern_always_iff (p : List HexByte) (hp : p ≠ [])
    (hlen : p.length + 2 < 2 ^ 64) :
    (∀ (mem : Mem) (base size : UINT64), 0 < base.toNat →
      base.toNat + size.toNat < 2 ^ 64 →
      FindsPattern mem base size p
        (findPattern mem base size (patternText p)))
      ↔ ∀ a ∈ patternBytes p, ∀ b ∈ patternBytes p, b = a := by
  constructor
  · intro hall
    obtain ⟨c, q, rfl⟩ := List.exists_cons_of_ne_nil hp
    rw [List.length_cons] at hlen
    have hsize : (BitVec.ofNat 64 (q.length + 2)).toNat = q.length + 2 := by
      rw [BitVec.toNat_ofNat]
      exact Nat.mod_eq_of_lt (by omega)
    have hone : (1 : UINT64).toNat = 1 := rfl
    have hwrap : (1 : UINT64).toNat + (BitVec.ofNat 64 (q.length + 2)).toNat
        < 2 ^ 64 := by
      rw [hsize, hone]
      omega
    have hqlen : (patternBytes q).length = q.length := List.length_map _
    have hequal : ∀ b ∈ patternBytes q, b = c.byte := by
      intro b hb
      by_contra hne
      obtain ⟨hfirst, hmissed⟩ := missed_of_ne hb hne 1
      have hright := hall (doubled (c.byte :: patternBytes q) c.byte 1) 1
        (BitVec.ofNat 64 (q.length + 2)) (by decide) hwrap
      rw [findsPattern_iff _ _ _ _ hp (by decide) hwrap] at hright
      refine hmissed (hright 2 ?_)
      rw [hsize, ← hqlen]
      exact hfirst
    have hsame : ∀ x ∈ patternBytes (c :: q), x = c.byte := by
      intro x hx
      rcases List.mem_cons.mp hx with rfl | hx
      · rfl
      · exact hequal x hx
    intro a ha b hb
    rw [hsame a ha, hsame b hb]
  · intro heq mem base size hbase hwrap
    rw [findsPattern_iff mem base size p hp hbase hwrap]
    intro x hx
    have hne : patternBytes p ≠ [] := fun h => hp (List.map_eq_nil_iff.mp h)
    obtain ⟨a, ha⟩ := List.exists_mem_of_ne_nil _ hne
    exact attempts_of_equal (heq a ha) hx.occurs base.toNat hx.start
      hx.first

/-- For every pattern of bytes: on a range that starts above 0 and does
not wrap around, `FindPattern` is right exactly when the first occurrence,
if there is one, is where an attempt of its one pass begins; and it is
right on every such range of every memory exactly when all bytes of the
pattern are equal. -/
theorem findPattern_right_iff (p : List HexByte) (hp : p ≠ []) :
    (∀ (mem : Mem) (base size : UINT64), 0 < base.toNat →
      base.toNat + size.toNat < 2 ^ 64 →
      (FindsPattern mem base size p
          (findPattern mem base size (patternText p))
        ↔ ∀ x,
          IsFirstOccurrence (patternBytes p) mem base.toNat size.toNat x →
          Attempts (patternBytes p) mem base.toNat x))
    ∧ (p.length + 2 < 2 ^ 64 →
      ((∀ (mem : Mem) (base size : UINT64), 0 < base.toNat →
          base.toNat + size.toNat < 2 ^ 64 →
          FindsPattern mem base size p
            (findPattern mem base size (patternText p)))
        ↔ ∀ a ∈ patternBytes p, ∀ b ∈ patternBytes p, b = a)) :=
  ⟨fun mem base size => findsPattern_iff mem base size p hp,
    findsPattern_always_iff p hp⟩

/-- The byte 0x28 stands in front of the instruction: it begins an
attempt, the instruction's own first byte ends that, and the rest is no
occurrence. -/
theorem findPattern_missed :
    let mem := writeBytes (fun _ => 0) 0x1000 [0x28, 0x28, 0x10, 0x38, 0xD5]
    findPattern mem 0x1000 5 (patternText mrsActlr) = 0
      ∧ IsFirstOccurrence (patternBytes mrsActlr) mem 0x1000 5 0x1001
      ∧ ¬ FindsPattern mem 0x1000 5 mrsActlr
        (findPattern mem 0x1000 5 (patternText mrsActlr)) := by
  intro mem
  have hres : findPattern mem 0x1000 5 (patternText mrsActlr) = 0 := by
    decide
  have hfirst : IsFirstOccurrence (patternBytes mrsActlr) mem 0x1000 5
      0x1001 := by
    refine ⟨by decide, by decide, by decide, fun y hy hlt => ?_⟩
    have heq : y = 0x1000 := by omega
    rw [heq]
    decide
  refine ⟨hres, hfirst, fun h => ?_⟩
  have hfound := h.found 0x1001 hfirst
  rw [hres] at hfound
  exact absurd hfound (by decide)

/-- Behind another byte it is found. -/
theorem findPattern_right_iff_instruction :
    let mem := writeBytes (fun _ => 0) 0x1000 [0x27, 0x28, 0x10, 0x38, 0xD5]
    FindsPattern mem 0x1000 5 mrsActlr
      (findPattern mem 0x1000 5 (patternText mrsActlr)) := by
  intro mem
  refine ((findPattern_right_iff mrsActlr (by decide)).1 mem 0x1000 5
    (by decide) (by decide)).mpr fun x hx => ?_
  have hstart : 0x1000 ≤ x := hx.start
  have hin : x + 4 ≤ 0x1000 + 5 := hx.inside
  have hno : ¬ OccursAt mem (patternBytes mrsActlr) 0x1000 := by decide
  have hnext : agreeing mem (patternBytes mrsActlr) 0x1000 = 0 := by decide
  rcases Nat.lt_or_ge 0x1000 x with hlt | hle
  · have heq : x = 0x1001 := by omega
    refine Relation.ReflTransGen.single ⟨hno, ?_⟩
    rw [heq]
    show 0x1001 = 0x1000 + agreeing mem (patternBytes mrsActlr) 0x1000 + 1
    rw [hnext]
  · have heq : x = 0x1000 := by omega
    rw [heq]
    exact Relation.ReflTransGen.refl

end Edk2Exynos.KernelErrata
