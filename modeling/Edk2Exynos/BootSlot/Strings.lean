/-
The UCS-2 string functions of BaseLib that BootSlotLib calls, on the
code units from a pointer on.

A string ends at its first zero unit; the end of the list stands for
that terminator too, so a buffer may be given with it or by its content
alone. What the code above tests is a comparison of prefixes and a
substring search; `strnCmp_eq_zero_iff` says which prefixes.
-/
import Edk2Exynos.BootSlot.Base
import Mathlib.Data.List.TakeWhile

namespace Edk2Exynos.BootSlot

-- ========================================================= the functions

/-- The string a pointer to these units names. -/
def cstr (l : List CHAR16) : List CHAR16 := l.takeWhile (· ≠ 0)

/-- `StrLen` -/
def strLen (l : List CHAR16) : Nat := (cstr l).length

/-- `StrnCmp`: the difference of the first units that differ, within
`length` units and no further than a terminator. -/
def strnCmp : List CHAR16 → List CHAR16 → Nat → Int
  | _, _, 0 => 0
  | first, second, length + 1 =>
      let x := first.headD 0
      let y := second.headD 0
      if x ≠ 0 ∧ y ≠ 0 ∧ x = y ∧ 0 < length then
        strnCmp first.tail second.tail length
      else (x.toNat : Int) - y.toNat

/-- `StrStr` finds `searchString`. -/
def strStr (string searchString : List CHAR16) : Bool :=
  decide (cstr searchString <:+: cstr string)

/-- `StrnCpyS` into a buffer of `destMax` units, by its content; it
refuses, and leaves the buffer alone, when the string does not fit. -/
def strnCpyS (destination : List CHAR16) (destMax : Nat)
    (source : List CHAR16) (length : Nat) : EfiStatus × List CHAR16 :=
  if destMax ≤ length ∧ destMax ≤ strLen source then
    (efiBufferTooSmall, destination)
  else (efiSuccess, (cstr source).take length)

/-- `StrnCatS`, likewise. -/
def strnCatS (destination : List CHAR16) (destMax : Nat)
    (source : List CHAR16) (length : Nat) : EfiStatus × List CHAR16 :=
  let copyLen := destMax - strLen destination
  if copyLen = 0 ∨ (copyLen ≤ length ∧ copyLen ≤ strLen source) then
    (efiBufferTooSmall, destination)
  else (efiSuccess, cstr destination ++ (cstr source).take length)

-- ============================================================= the facts

@[simp] theorem cstr_nil : cstr [] = [] := rfl

theorem cstr_cons_zero (l : List CHAR16) : cstr (0 :: l) = [] := rfl

/-- A character before a string is in it. -/
theorem cstr_cons {x : CHAR16} (h : x ≠ 0) (l : List CHAR16) :
    cstr (x :: l) = x :: cstr l := by
  unfold cstr
  rw [List.takeWhile_cons_of_pos (by simpa using h)]

theorem cstr_cons_of_eq {x : CHAR16} (h : x = 0) (l : List CHAR16) :
    cstr (x :: l) = [] := by
  rw [h]
  exact cstr_cons_zero l

/-- A string is empty when its buffer starts with the terminator. -/
theorem headD_eq_zero_iff (l : List CHAR16) :
    l.headD 0 = 0 ↔ cstr l = [] := by
  cases l with
  | nil => exact ⟨fun _ => rfl, fun _ => rfl⟩
  | cons x l =>
      by_cases hx : x = 0
      · exact ⟨fun _ => cstr_cons_of_eq hx l, fun _ => hx⟩
      · rw [cstr_cons hx]
        exact ⟨fun h => absurd h hx, fun h => by cases h⟩

/-- A string holds no terminator. -/
theorem ne_zero_of_mem_cstr {l : List CHAR16} {x : CHAR16}
    (h : x ∈ cstr l) : x ≠ 0 := by
  have hx := List.mem_takeWhile_imp h
  simpa using hx

/-- A string without a terminator is all of it. -/
theorem cstr_of_nonzero {l : List CHAR16} (h : ∀ x ∈ l, x ≠ 0) :
    cstr l = l := by
  unfold cstr
  rw [List.takeWhile_eq_self_iff]
  intro x hx
  simpa using h x hx

/-- A string that goes on behind other characters. -/
theorem cstr_append {l : List CHAR16} (h : ∀ x ∈ l, x ≠ 0)
    (r : List CHAR16) : cstr (l ++ r) = l ++ cstr r := by
  unfold cstr
  rw [List.takeWhile_append_of_pos fun x hx => by simpa using h x hx]

/-- A string in a longer buffer ends at its terminator. -/
theorem cstr_append_zero {l : List CHAR16} (h : ∀ x ∈ l, x ≠ 0)
    (r : List CHAR16) : cstr (l ++ 0 :: r) = l := by
  rw [cstr_append h, cstr_cons_zero, List.append_nil]

/-- The content of a string is the string. -/
@[simp] theorem cstr_cstr (l : List CHAR16) : cstr (cstr l) = cstr l :=
  cstr_of_nonzero fun _ hx => ne_zero_of_mem_cstr hx

/-- `StrnCmp` finds no difference exactly when the strings agree on
their first `n` units. -/
theorem strnCmp_eq_zero_iff (a b : List CHAR16) (n : Nat) :
    strnCmp a b n = 0 ↔ (cstr a).take n = (cstr b).take n := by
  induction n generalizing a b with
  | zero =>
      rw [List.take_zero, List.take_zero]
      exact ⟨fun _ => rfl, fun _ => rfl⟩
  | succ n ih =>
      -- the first units: both terminators, one of them, or two units
      have hhead : ∀ l : List CHAR16, l.headD 0 = 0 → cstr l = [] :=
        fun l => (headD_eq_zero_iff l).mp
      have hcons : ∀ l : List CHAR16, l.headD 0 ≠ 0 →
          cstr l = l.headD 0 :: cstr l.tail := by
        intro l hl
        cases l with
        | nil => exact absurd rfl hl
        | cons x l => exact cstr_cons hl l
      have hsub : ∀ x y : CHAR16,
          (x.toNat : Int) - y.toNat = 0 ↔ x = y := by
        intro x y
        rw [← BitVec.toNat_inj]
        omega
      unfold strnCmp
      dsimp only
      by_cases hx : a.headD 0 = 0
      · rw [if_neg fun h => h.1 hx, hsub, hhead a hx, hx]
        by_cases hy : b.headD 0 = 0
        · rw [hhead b hy, hy]
          exact ⟨fun _ => rfl, fun _ => rfl⟩
        · rw [hcons b hy, List.take_nil, List.take_succ_cons]
          exact ⟨fun h => absurd h.symm hy, fun h => by cases h⟩
      · by_cases hy : b.headD 0 = 0
        · rw [if_neg fun h => h.2.1 hy, hsub, hhead b hy, hcons a hx, hy,
            List.take_nil, List.take_succ_cons]
          exact ⟨fun h => absurd h hx, fun h => by cases h⟩
        · rw [hcons a hx, hcons b hy, List.take_succ_cons,
            List.take_succ_cons, List.cons.injEq]
          split
          next h =>
            rw [ih]
            exact ⟨fun ht => ⟨h.2.2.1, ht⟩, fun ht => ht.2⟩
          next h =>
            rw [hsub]
            refine ⟨fun heq => ⟨heq, ?_⟩, fun ht => ht.1⟩
            have hn : n = 0 := by
              by_contra hn
              exact h ⟨hx, hy, heq, Nat.pos_of_ne_zero hn⟩
            rw [hn, List.take_zero, List.take_zero]

/-- Comparing as many units as one of the strings has asks whether it is
a prefix of the other. -/
theorem strnCmp_strLen_eq_zero_iff (a b : List CHAR16) :
    strnCmp a b (strLen b) = 0 ↔ cstr b <+: cstr a := by
  unfold strLen
  rw [strnCmp_eq_zero_iff, List.take_length, List.prefix_iff_eq_take]
  exact ⟨fun h => h.symm, fun h => h.symm⟩

end Edk2Exynos.BootSlot
