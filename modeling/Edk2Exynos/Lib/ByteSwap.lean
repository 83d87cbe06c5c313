/-
Reversing the bytes of a 32-bit word, and big-endian numbers.

`IsBytes` splits a word into its bytes; reversing the word reverses the
split (`IsBytes.byteSwap`), and that is all the arithmetic of swapped
words needs. In particular an addition in the reversed form carries the
wrong way, which `byteSwap_add_one` makes precise.
-/
import Mathlib.Tactic

namespace Edk2Exynos.Lib

/-- The bytes of `x` in reverse order. -/
def byteSwap (x : BitVec 32) : BitVec 32 :=
  x.extractLsb' 0 8 ++ x.extractLsb' 8 8 ++ x.extractLsb' 16 8
    ++ x.extractLsb' 24 8

/-- `a`, `b`, `c` and `d` are the bytes of `x`, lowest first. -/
structure IsBytes (x : BitVec 32) (a b c d : Nat) : Prop where
  eq : x.toNat = a + 2 ^ 8 * b + 2 ^ 16 * c + 2 ^ 24 * d
  a_lt : a < 256
  b_lt : b < 256
  c_lt : c < 256
  d_lt : d < 256

theorem exists_isBytes (x : BitVec 32) : ∃ a b c d, IsBytes x a b c d := by
  have hx := x.isLt
  have h16 : x.toNat / 2 ^ 8 / 2 ^ 8 = x.toNat / 2 ^ 16 :=
    Nat.div_div_eq_div_mul _ _ _
  have h24 : x.toNat / 2 ^ 16 / 2 ^ 8 = x.toNat / 2 ^ 24 :=
    Nat.div_div_eq_div_mul _ _ _
  refine ⟨x.toNat % 2 ^ 8, x.toNat / 2 ^ 8 % 2 ^ 8,
    x.toNat / 2 ^ 16 % 2 ^ 8, x.toNat / 2 ^ 24, ⟨?_, ?_, ?_, ?_, ?_⟩⟩
  · omega
  · omega
  · omega
  · omega
  · omega

theorem IsBytes.byteSwap {x : BitVec 32} {a b c d : Nat}
    (h : IsBytes x a b c d) : IsBytes (byteSwap x) d c b a := by
  obtain ⟨heq, ha, hb, hc, hd⟩ := h
  refine ⟨?_, hd, hc, hb, ha⟩
  have h0 : x.toNat % 2 ^ 8 = a := by omega
  have h1 : x.toNat / 2 ^ 8 % 2 ^ 8 = b := by omega
  have h2 : x.toNat / 2 ^ 16 % 2 ^ 8 = c := by omega
  have h3 : x.toNat / 2 ^ 24 % 2 ^ 8 = d := by omega
  unfold Lib.byteSwap
  rw [BitVec.toNat_append, BitVec.toNat_append, BitVec.toNat_append,
    BitVec.extractLsb'_toNat, BitVec.extractLsb'_toNat,
    BitVec.extractLsb'_toNat, BitVec.extractLsb'_toNat]
  simp only [Nat.shiftRight_eq_div_pow, Nat.pow_zero, Nat.div_one]
  rw [h0, h1, h2, h3, ← Nat.shiftLeft_add_eq_or_of_lt (by omega),
    ← Nat.shiftLeft_add_eq_or_of_lt (by omega),
    ← Nat.shiftLeft_add_eq_or_of_lt (by omega)]
  simp only [Nat.shiftLeft_eq]
  omega

@[simp] theorem byteSwap_byteSwap (x : BitVec 32) :
    byteSwap (byteSwap x) = x := by
  obtain ⟨a, b, c, d, h⟩ := exists_isBytes x
  apply BitVec.eq_of_toNat_eq
  rw [h.byteSwap.byteSwap.eq, h.eq]

theorem byteSwap_inj {x y : BitVec 32} :
    byteSwap x = byteSwap y ↔ x = y := by
  refine ⟨fun h => ?_, fun h => h ▸ rfl⟩
  rw [← byteSwap_byteSwap x, h, byteSwap_byteSwap]

/-- An equation between a reversed and a plain word, from either side. -/
theorem byteSwap_eq_iff {x y : BitVec 32} :
    byteSwap x = y ↔ x = byteSwap y := by
  rw [← byteSwap_inj, byteSwap_byteSwap]

/-- Adding one in the reversed form adds one to the low byte, and the
carry is lost. -/
theorem byteSwap_add_one_toNat (x : BitVec 32) :
    (byteSwap (byteSwap x + byteSwap 1)).toNat
      = if x.toNat % 256 = 255 then x.toNat - 255 else x.toNat + 1 := by
  obtain ⟨a, b, c, d, h⟩ := exists_isBytes x
  have heq := h.eq
  have ha := h.a_lt
  have hd := h.d_lt
  have hc := h.c_lt
  have hb := h.b_lt
  have hone : (byteSwap 1).toNat = 2 ^ 24 := by decide
  have hsum : (byteSwap x + byteSwap 1).toNat
      = (d + 2 ^ 8 * c + 2 ^ 16 * b + 2 ^ 24 * (a + 1)) % 2 ^ 32 := by
    have hreorder : d + 2 ^ 8 * c + 2 ^ 16 * b + 2 ^ 24 * a + 2 ^ 24
        = d + 2 ^ 8 * c + 2 ^ 16 * b + 2 ^ 24 * (a + 1) := by omega
    rw [BitVec.toNat_add, h.byteSwap.eq, hone, hreorder]
  have hlow : x.toNat % 256 = a := by omega
  rw [hlow]
  by_cases hcarry : a = 255
  · -- the carry leaves at the top and the low byte of the result is 0
    have hz : IsBytes (byteSwap x + byteSwap 1) d c b 0 := by
      refine ⟨?_, hd, hc, hb, by omega⟩
      rw [hsum]
      omega
    rw [if_pos hcarry, hz.byteSwap.eq]
    omega
  · have hz : IsBytes (byteSwap x + byteSwap 1) d c b (a + 1) := by
      refine ⟨?_, hd, hc, hb, by omega⟩
      rw [hsum]
      omega
    rw [if_neg hcarry, hz.byteSwap.eq]
    omega

/-- So it is adding one exactly when the low byte does not overflow. -/
theorem byteSwap_add_one (x : BitVec 32) :
    byteSwap (byteSwap x + byteSwap 1) = x + 1
      ↔ x.toNat % 256 ≠ 255 := by
  have hx := x.isLt
  have hswap := byteSwap_add_one_toNat x
  have hadd : (x + 1).toNat = (x.toNat + 1) % 2 ^ 32 := BitVec.toNat_add x 1
  constructor
  · intro h hcarry
    rw [h, hadd, if_pos hcarry] at hswap
    omega
  · intro hcarry
    rw [if_neg hcarry] at hswap
    apply BitVec.eq_of_toNat_eq
    rw [hswap, hadd]
    omega

-- ==================================================== big-endian numbers

/-- The number with the digits `bs` to the base 256, highest first. -/
def beNat (bs : List (BitVec 8)) : Nat :=
  bs.foldl (fun n x => n * 256 + x.toNat) 0

/-- Leading zeros make no difference. -/
theorem beNat_zeros (n : Nat) (bs : List (BitVec 8)) :
    beNat (List.replicate n 0 ++ bs) = beNat bs := by
  induction n with
  | zero => rfl
  | succ n ih =>
    rw [List.replicate_succ, ← ih]
    rfl

/-- Two bytes of a word, the higher one first. -/
theorem beNat_halfword {w : Nat} (x : BitVec w) :
    beNat [(x >>> 8).setWidth 8, x.setWidth 8] = x.toNat % 2 ^ 16 := by
  simp only [beNat, List.foldl, BitVec.toNat_setWidth,
    BitVec.toNat_ushiftRight, Nat.shiftRight_eq_div_pow]
  omega

/-- Four bytes of a word, the highest one first. -/
theorem beNat_word {w : Nat} (x : BitVec w) :
    beNat [(x >>> 24).setWidth 8, (x >>> 16).setWidth 8,
      (x >>> 8).setWidth 8, x.setWidth 8] = x.toNat % 2 ^ 32 := by
  simp only [beNat, List.foldl, BitVec.toNat_setWidth,
    BitVec.toNat_ushiftRight, Nat.shiftRight_eq_div_pow]
  omega

end Edk2Exynos.Lib
