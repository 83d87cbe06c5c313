/-
Copying forwards, a chunk at a time: load `k` bytes, store them, and go on
with the next `k`.

# What is proved here

- `copied_of_le`: towards lower addresses the copy is the original,
  however the two ranges overlap.
- `copied_of_lt`: towards higher addresses, with a distance of at least
  one chunk, the copy repeats the bytes up to the distance.
- `copied_eq_iff`: so it is the original exactly when these repeat in the
  original already.
-/
import Edk2Exynos.Lib.Bytes

namespace Edk2Exynos.Lib

section

variable (k src dst : Nat) (m : Mem)

/-- The memory after `n` chunks. -/
def copied : Nat → Mem
  | 0 => m
  | n + 1 =>
    writeBytes (copied n) (dst + k * n) (readBytes (copied n) (src + k * n) k)

/-- A copy changes its destination only. -/
theorem copied_outside (n : Nat) {x : Nat}
    (hx : x < dst ∨ dst + k * n ≤ x) : copied k src dst m n x = m x := by
  induction n with
  | zero => rfl
  | succ n ih =>
    rw [Nat.mul_succ] at hx
    unfold copied
    rw [writeBytes_outside (by rw [readBytes_length]; omega),
      ih (by omega)]

/-- The bytes of the last chunk are what was loaded for it. -/
theorem copied_chunk (n : Nat) {i : Nat} (hi : i < k) :
    copied k src dst m (n + 1) (dst + k * n + i)
      = copied k src dst m n (src + k * n + i) := by
  rw [copied, writeBytes_inside (by rwa [readBytes_length]),
    readBytes_getElem]

/-- and the others what they were. -/
theorem copied_before (n : Nat) {i : Nat} (hi : i < k * n) :
    copied k src dst m (n + 1) (dst + i) = copied k src dst m n (dst + i) := by
  rw [copied, writeBytes_outside (Or.inl (by omega))]

/-- An index is in the last chunk or before it. -/
theorem chunk_cases {k n i : Nat} (hi : i < k * (n + 1)) :
    i < k * n ∨ ∃ j < k, i = k * n + j := by
  rw [Nat.mul_succ] at hi
  rcases Nat.lt_or_ge i (k * n) with hlt | hge
  · exact Or.inl hlt
  · exact Or.inr ⟨i - k * n, by omega, by omega⟩

/-- Downwards, what is loaded has not been stored to yet. -/
theorem copied_of_le (h : dst ≤ src) (n : Nat) {i : Nat}
    (hi : i < k * n) : copied k src dst m n (dst + i) = m (src + i) := by
  induction n with
  | zero => omega
  | succ n ih =>
    rcases chunk_cases hi with hlt | ⟨j, hj, rfl⟩
    · rw [copied_before k src dst m n hlt, ih hlt]
    · rw [← Nat.add_assoc, copied_chunk k src dst m n hj,
        copied_outside k src dst m n (by omega), Nat.add_assoc]

/-- Upwards, what is loaded behind the first `d` bytes was stored before. -/
theorem copied_of_lt {d : Nat} (hd : k ≤ d) (n : Nat)
    {i : Nat} (hi : i < k * n) :
    copied k src (src + d) m n (src + d + i) = m (src + i % d) := by
  induction n generalizing i with
  | zero => omega
  | succ n ih =>
    rcases chunk_cases hi with hlt | ⟨j, hj, rfl⟩
    · rw [copied_before k src (src + d) m n hlt, ih hlt]
    · rw [← Nat.add_assoc, copied_chunk k src (src + d) m n hj]
      rcases Nat.lt_or_ge (k * n + j) d with hfirst | hlater
      · rw [copied_outside k src (src + d) m n (by omega),
          Nat.mod_eq_of_lt hfirst, Nat.add_assoc]
      · have hback : src + k * n + j = src + d + (k * n + j - d) := by omega
        rw [hback, ih (by omega), Nat.mod_eq_sub_mod hlater]

/-- A copy upwards is the original exactly when that repeats. -/
theorem copied_eq_iff {d : Nat} (hd : k ≤ d) (n : Nat) :
    readBytes (copied k src (src + d) m n) (src + d) (k * n)
        = readBytes m src (k * n)
      ↔ ∀ i < k * n, m (src + i % d) = m (src + i) := by
  constructor
  · intro h i hi
    rw [← copied_of_lt k src m hd n hi]
    exact eq_of_readBytes_eq h hi
  · intro h
    refine readBytes_congr fun i hi => ?_
    rw [copied_of_lt k src m hd n hi, h i hi]

end

end Edk2Exynos.Lib
