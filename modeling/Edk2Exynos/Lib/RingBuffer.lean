/-
Ring buffers: an array of `n` slots with a head and a tail, empty when
they are equal, so that at most `n - 1` elements are held.

`contents` is what the ring stands for: a list, oldest element first.
The lemmas say what a pop and a push are on that list, a push with room
(`push_of_room`) and without (`push_of_full`); `place` is the slot of an
element, and all arithmetic with the wrap around is in the lemmas about
it.
-/
import Mathlib.Tactic

namespace Edk2Exynos.Lib

/-- A ring buffer. -/
structure RingBuffer (α : Type) where
  buffer : Nat → α
  head : Nat
  tail : Nat

namespace RingBuffer

variable {α : Type} (n : Nat)

/-- Head and tail are slots. -/
structure Ok (r : RingBuffer α) : Prop where
  head_lt : r.head < n
  tail_lt : r.tail < n

/-- Remove the oldest element. -/
def pop (r : RingBuffer α) : Option (α × RingBuffer α) :=
  if r.head = r.tail then none
  else some (r.buffer r.head, { r with head := (r.head + 1) % n })

/-- Store an element in the slot at the tail. -/
def store (x : α) (r : RingBuffer α) : RingBuffer α :=
  { r with
    buffer := Function.update r.buffer r.tail x
    tail := (r.tail + 1) % n }

/-- Add an element; a full ring loses its oldest one. -/
def push (x : α) (r : RingBuffer α) : RingBuffer α :=
  if (r.tail + 1) % n = r.head then
    store n x ((r.pop n).elim r Prod.snd)
  else store n x r

-- ================================================================ slots

/-- The slot of the `i`-th element. -/
def place (r : RingBuffer α) (i : Nat) : Nat :=
  if r.head + i < n then r.head + i else r.head + i - n

/-- The number of elements. -/
def count (r : RingBuffer α) : Nat :=
  if r.head ≤ r.tail then r.tail - r.head else r.tail + n - r.head

/-- The elements, oldest first. -/
def contents (r : RingBuffer α) : List α :=
  (List.range (r.count n)).map fun i => r.buffer (r.place n i)

variable {n}

/-- The next slot, round the ring. -/
theorem succ_mod {a : Nat} (h : a < n) :
    (a + 1) % n = if a + 1 < n then a + 1 else 0 := by
  split
  next hlt => exact Nat.mod_eq_of_lt hlt
  next hge =>
    have heq : a + 1 = n := by omega
    rw [heq, Nat.mod_self]

theorem Ok.count_lt {r : RingBuffer α} (h : r.Ok n) : r.count n < n := by
  have hh := h.head_lt
  have ht := h.tail_lt
  unfold count
  split <;> omega

@[simp] theorem contents_length (r : RingBuffer α) :
    (r.contents n).length = r.count n := by
  simp [contents]

theorem contents_eq_nil_iff {r : RingBuffer α} (h : r.Ok n) :
    r.contents n = [] ↔ r.head = r.tail := by
  have hh := h.head_lt
  have ht := h.tail_lt
  rw [← List.length_eq_zero_iff, contents_length]
  unfold count
  split <;> omega

-- ================================================================== pop

theorem pop_of_empty {r : RingBuffer α} (h : r.Ok n) (he : r.contents n = []) :
    r.pop n = none :=
  if_pos ((contents_eq_nil_iff h).mp he)

/-- A pop takes the first element off the list. -/
theorem pop_of_cons {r : RingBuffer α} (h : r.Ok n) {x : α} {xs : List α}
    (hx : r.contents n = x :: xs) :
    ∃ r', r.pop n = some (x, r') ∧ r'.Ok n ∧ r'.contents n = xs := by
  have hh := h.head_lt
  have ht := h.tail_lt
  have hne : r.head ≠ r.tail := by
    intro heq
    rw [(contents_eq_nil_iff h).mpr heq] at hx
    cases hx
  have hnext := succ_mod hh
  let r' : RingBuffer α := { r with head := (r.head + 1) % n }
  have hok : r'.Ok n := ⟨Nat.mod_lt _ (by omega), ht⟩
  have hcount : r.count n = r'.count n + 1 := by
    simp only [count, r', hnext]
    split <;> split <;> split <;> omega
  have hplace : ∀ i, r'.place n i = r.place n (i + 1) ∨
      ¬ i < r'.count n := by
    intro i
    simp only [place, count, r', hnext]
    split <;> split <;> split <;> split <;> omega
  have hcons : r.contents n = r.buffer r.head :: r'.contents n := by
    unfold contents
    rw [hcount, List.range_succ_eq_map, List.map_cons, List.map_map]
    congr 1
    · simp [place, hh]
    · apply List.map_congr_left
      intro i hi
      rcases hplace i with heq | hout
      · simp only [Function.comp_apply, heq]
        rfl
      · exact (hout (List.mem_range.mp hi)).elim
  rw [hx] at hcons
  injection hcons with hhead htail
  refine ⟨r', ?_, hok, htail.symm⟩
  unfold pop
  rw [if_neg hne, hhead]

-- ================================================================= push

theorem store_ok {r : RingBuffer α} (h : r.Ok n) (x : α) :
    (r.store n x).Ok n :=
  ⟨h.head_lt, Nat.mod_lt _ (Nat.zero_lt_of_lt h.head_lt)⟩

/-- Next to the head, from behind, the tail has no slot left. -/
theorem full_iff {r : RingBuffer α} (h : r.Ok n) :
    (r.tail + 1) % n = r.head ↔ r.count n + 1 = n := by
  have hh := h.head_lt
  have ht := h.tail_lt
  rw [succ_mod ht]
  unfold count
  split <;> split <;> omega

/-- An element stored in a ring with room is its last. -/
theorem store_contents {r : RingBuffer α} (h : r.Ok n) (x : α)
    (hroom : r.count n + 1 < n) :
    (r.store n x).contents n = r.contents n ++ [x] := by
  have hh := h.head_lt
  have ht := h.tail_lt
  have hnext := succ_mod ht
  have hcount : (r.store n x).count n = r.count n + 1 := by
    unfold count at hroom ⊢
    simp only [store, hnext]
    split at hroom <;> split <;> split <;> omega
  have hplace : r.place n (r.count n) = r.tail := by
    unfold place count
    split <;> split <;> omega
  have hother : ∀ i, i < r.count n → r.place n i ≠ r.tail := by
    intro i hi
    unfold place
    unfold count at hi
    split at hi <;> split <;> omega
  unfold contents
  rw [hcount, List.range_succ, List.map_append]
  congr 1
  · apply List.map_congr_left
    intro i hi
    exact Function.update_of_ne (hother i (List.mem_range.mp hi)) _ _
  · simp only [List.map_cons, List.map_nil]
    congr 1
    show Function.update r.buffer r.tail x (r.place n (r.count n)) = x
    rw [hplace, Function.update_self]

/-- A push onto a ring with room appends to the list. -/
theorem push_of_room {r : RingBuffer α} (h : r.Ok n) (x : α)
    (hroom : r.count n + 1 < n) :
    (r.push n x).Ok n ∧ (r.push n x).contents n = r.contents n ++ [x] := by
  have hfull : ¬ (r.tail + 1) % n = r.head := by
    rw [full_iff h]
    omega
  have hpush : r.push n x = r.store n x := if_neg hfull
  rw [hpush]
  exact ⟨store_ok h x, store_contents h x hroom⟩

/-- A push onto a full ring first takes the oldest element off. -/
theorem push_of_full {r : RingBuffer α} (h : r.Ok n) (x : α) {y : α}
    {ys : List α} (hr : r.contents n = y :: ys)
    (hfull : r.count n + 1 = n) :
    (r.push n x).Ok n ∧ (r.push n x).contents n = ys ++ [x] := by
  obtain ⟨r', hpop, hok, hys⟩ := pop_of_cons h hr
  have hpush : r.push n x = r'.store n x := by
    unfold push
    rw [if_pos ((full_iff h).mpr hfull), hpop]
    rfl
  have hcount : r.count n = r'.count n + 1 := by
    rw [← contents_length r, ← contents_length r', hr, hys]
    rfl
  rw [hpush, ← hys]
  exact ⟨store_ok hok x, store_contents hok x (by omega)⟩

end RingBuffer

end Edk2Exynos.Lib
