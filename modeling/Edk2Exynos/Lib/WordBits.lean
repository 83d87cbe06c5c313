/-
An array of words as a row of bits.

Bit `i` is bit `i % w` of word `i / w`, and false past the array.
Replacing a word changes the bits of that word only; replaced by its
union with a mask of one bit, or by its intersection with the
complement, it changes that bit only.
-/
import Mathlib.Tactic

namespace Edk2Exynos.Lib

variable {w n : Nat}

/-- Bit `i` of an array of words. -/
def wordBit (words : Vector (BitVec w) n) (i : Nat) : Bool :=
  match words[i / w]? with
  | some word => word.getLsbD (i % w)
  | none => false

theorem wordBit_of_lt (words : Vector (BitVec w) n) {i : Nat}
    (h : i / w < n) : wordBit words i = words[i / w].getLsbD (i % w) := by
  unfold wordBit
  rw [Vector.getElem?_eq_getElem h]

theorem wordBit_zero (i : Nat) :
    wordBit (Vector.replicate n (0#w)) i = false := by
  by_cases h : i / w < n
  · rw [wordBit_of_lt _ h, Vector.getElem_replicate, BitVec.getLsbD_zero]
  · unfold wordBit
    rw [Vector.getElem?_eq_none (Nat.le_of_not_lt h)]

/-- The bits of the other words stay. -/
theorem wordBit_set (words : Vector (BitVec w) n) {b : Nat} (h : b < n)
    (word : BitVec w) (i : Nat) :
    wordBit (words.set b word) i
      = if i / w = b then word.getLsbD (i % w) else wordBit words i := by
  split
  next heq =>
    subst heq
    rw [wordBit_of_lt _ h, Vector.getElem_set_self]
  next hne =>
    unfold wordBit
    rw [Vector.getElem?_set_ne h (Ne.symm hne)]

/-- Two bits of one word are told apart by their place in it. -/
theorem eq_of_div_eq {i b : Nat} (hdiv : i / w = b / w) :
    i % w = b % w ↔ i = b := by
  constructor
  · intro hmod
    rw [← Nat.div_add_mod i w, ← Nat.div_add_mod b w, hdiv, hmod]
  · intro heq
    rw [heq]

theorem getLsbD_mask (hw : 0 < w) (b j : Nat) :
    (BitVec.twoPow w (b % w)).getLsbD j = decide (j = b % w) := by
  rw [BitVec.getLsbD_twoPow]
  simp only [Nat.mod_lt b hw, decide_true, Bool.true_and]
  exact decide_eq_decide.mpr eq_comm

/-- A word meets a mask where its bit is set. -/
theorem decide_and_mask (hw : 0 < w) (word : BitVec w) (b : Nat) :
    decide (word &&& BitVec.twoPow w (b % w) ≠ 0#w)
      = word.getLsbD (b % w) := by
  rw [BitVec.and_twoPow]
  split
  next hbit =>
    rw [hbit, decide_eq_true_eq]
    intro hzero
    have hself := getLsbD_mask hw b (b % w)
    rw [hzero, BitVec.getLsbD_zero] at hself
    simp at hself
  next hbit =>
    rw [Bool.eq_false_of_not_eq_true hbit]
    simp

/-- In its own word the mask has one bit. -/
theorem getLsbD_mask_of_div (hw : 0 < w) {i b : Nat}
    (hdiv : i / w = b / w) :
    (BitVec.twoPow w (b % w)).getLsbD (i % w) = decide (i = b) := by
  rw [getLsbD_mask hw]
  exact decide_eq_decide.mpr (eq_of_div_eq hdiv)

/-- The union with a mask sets its bit. -/
theorem wordBit_set_or (hw : 0 < w) (words : Vector (BitVec w) n)
    {b : Nat} (h : b / w < n) :
    wordBit (words.set (b / w)
        (words[b / w] ||| BitVec.twoPow w (b % w)))
      = Function.update (wordBit words) b true := by
  funext i
  rw [wordBit_set, Function.update_apply]
  split
  next hdiv =>
    rw [BitVec.getLsbD_or, getLsbD_mask_of_div hw hdiv]
    split
    next heq => simp only [heq, decide_true, Bool.or_true]
    next hne =>
      simp only [hne, decide_false, Bool.or_false]
      simp only [wordBit, hdiv, Vector.getElem?_eq_getElem h]
  next hdiv =>
    rw [if_neg fun heq => hdiv (by rw [heq])]

/-- The intersection with its complement clears it. -/
theorem wordBit_set_and_not (hw : 0 < w) (words : Vector (BitVec w) n)
    {b : Nat} (h : b / w < n) :
    wordBit (words.set (b / w)
        (words[b / w] &&& ~~~ BitVec.twoPow w (b % w)))
      = Function.update (wordBit words) b false := by
  funext i
  rw [wordBit_set, Function.update_apply]
  split
  next hdiv =>
    rw [BitVec.getLsbD_and, BitVec.getLsbD_not,
      getLsbD_mask_of_div hw hdiv]
    split
    next heq =>
      simp only [heq, decide_true, Bool.not_true, Bool.and_false]
    next hne =>
      have hlt := Nat.mod_lt i hw
      simp only [hne, decide_false, Bool.not_false, hlt, decide_true,
        Bool.and_true]
      simp only [wordBit, hdiv, Vector.getElem?_eq_getElem h]
  next hdiv =>
    rw [if_neg fun heq => hdiv (by rw [heq])]

end Edk2Exynos.Lib
