/-
Files made of sections that each start on a page of their own.

`padTo` fills bytes with zeros up to a whole number of pages; behind
whole pages, filling the file is filling its last section alone
(`padTo_append`). `takeSection` is the reader: it takes the bytes of a
section whose size it was told and goes on at the next page. The two are
inverse to each other in front of any bytes (`takeSection_padTo`).
-/
import Edk2Exynos.Lib.Bytes

namespace Edk2Exynos.Lib

/-- The pages that `n` bytes take. -/
def pages (page n : Nat) : Nat := (n + page - 1) / page

/-- `bs` filled with zeros up to a whole number of pages. -/
def padTo (page : Nat) (bs : List Byte) : List Byte :=
  bs ++ List.replicate ((page - bs.length % page) % page) 0

/-- The section of `n` bytes that `bs` starts with, and what stands from
the page after it on. -/
def takeSection (page n : Nat) (bs : List Byte) :
    Option (List Byte × List Byte) :=
  if pages page n * page ≤ bs.length then
    some (bs.take n, bs.drop (pages page n * page))
  else none

variable {page : Nat}

/-- The pages of a length are the length and its padding. -/
theorem pages_mul (hpage : 0 < page) (n : Nat) :
    pages page n * page = n + (page - n % page) % page := by
  have hdm := Nat.div_add_mod n page
  have hlt := Nat.mod_lt n hpage
  unfold pages
  by_cases hzero : n % page = 0
  · have hdiv : (n + page - 1) / page = n / page := by
      rw [Nat.div_eq_of_lt_le]
      · rw [Nat.mul_comm]
        omega
      · rw [Nat.add_mul, Nat.mul_comm]
        omega
    rw [hdiv, hzero, Nat.sub_zero, Nat.mod_self, Nat.mul_comm]
    omega
  · have hdiv : (n + page - 1) / page = n / page + 1 := by
      rw [Nat.div_eq_of_lt_le]
      · rw [Nat.add_mul, Nat.mul_comm]
        omega
      · rw [Nat.add_mul, Nat.add_mul, Nat.mul_comm]
        omega
    rw [hdiv, Nat.mod_eq_of_lt (by omega), Nat.add_mul, Nat.mul_comm]
    omega

/-- Padded bytes fill their pages. -/
theorem length_padTo (hpage : 0 < page) (bs : List Byte) :
    (padTo page bs).length = pages page bs.length * page := by
  rw [padTo, List.length_append, List.length_replicate, pages_mul hpage]

/-- Padded bytes end at a page. -/
theorem dvd_length_padTo (hpage : 0 < page) (bs : List Byte) :
    page ∣ (padTo page bs).length :=
  ⟨pages page bs.length, by rw [length_padTo hpage, Nat.mul_comm]⟩

/-- Filling appends. -/
theorem exists_padTo_eq_append (page : Nat) (bs : List Byte) :
    ∃ zeros, padTo page bs = bs ++ zeros := ⟨_, rfl⟩

@[simp] theorem padTo_nil : padTo page [] = [] := by
  simp [padTo]

/-- Behind whole pages only the last section is filled. -/
theorem padTo_append {f : List Byte} (hf : page ∣ f.length)
    (bs : List Byte) : padTo page (f ++ bs) = f ++ padTo page bs := by
  have hmod : (f ++ bs).length % page = bs.length % page := by
    rw [List.length_append, Nat.add_mod, Nat.mod_eq_zero_of_dvd hf,
      Nat.zero_add, Nat.mod_mod]
  rw [padTo, padTo, hmod, List.append_assoc]

/-- A section behind whole pages makes whole pages. -/
theorem dvd_length_append_padTo (hpage : 0 < page) {f : List Byte}
    (hf : page ∣ f.length) (bs : List Byte) :
    page ∣ (f ++ padTo page bs).length := by
  rw [List.length_append]
  exact dvd_add hf (dvd_length_padTo hpage bs)

/-- Bytes that end at a page need no padding. -/
theorem padTo_of_dvd {bs : List Byte} (h : page ∣ bs.length) :
    padTo page bs = bs := by
  have hnil := padTo_append h []
  rwa [padTo_nil, List.append_nil] at hnil

/-- What was written as a section is read as one. -/
theorem takeSection_padTo (hpage : 0 < page) (bs rest : List Byte) :
    takeSection page bs.length (padTo page bs ++ rest)
      = some (bs, rest) := by
  have hlen := length_padTo hpage bs
  unfold takeSection
  rw [← hlen, if_pos (by simp), List.drop_left]
  refine congrArg (fun b => some (b, rest)) ?_
  rw [padTo, List.append_assoc, List.take_left]

/-- A section of no bytes takes nothing. -/
theorem takeSection_zero (hpage : 0 < page) (bs : List Byte) :
    takeSection page 0 bs = some ([], bs) := by
  have hnil := takeSection_padTo hpage [] bs
  rwa [padTo_nil] at hnil

-- ================================================================ slices

/-- The `n` bytes from `off` on, where they are all there. -/
def slice (off n : Nat) (bs : List Byte) : Option (List Byte) :=
  if off + n ≤ bs.length then some ((bs.drop off).take n) else none

/-- A slice at the length of what is before finds what was put there. -/
theorem slice_append (pre mid post : List Byte) :
    slice pre.length mid.length (pre ++ (mid ++ post)) = some mid := by
  unfold slice
  rw [if_pos (by simp only [List.length_append]; omega), List.drop_left,
    List.take_left]

-- ================================================ pieces of one length

section

variable {f : Nat → List Byte} {m : Nat}

end

end Edk2Exynos.Lib
