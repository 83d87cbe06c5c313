/-
Exchanging the contents of pairs of places, one pair after the other.

`swaps l` is the permutation the exchanges of a list of pairs compose to.
When no place occurs in two pairs it is the partner map: it takes each
place of a pair to the other one and fixes the rest, so it is its own
inverse and does not depend on the order of the list.
-/
import Mathlib.Algebra.Group.End
import Mathlib.Logic.Equiv.Basic
import Mathlib.Tactic

namespace Edk2Exynos.Lib

variable {α : Type}

/-- Two pairs without a common place. -/
def Apart (p q : α × α) : Prop :=
  p.1 ≠ q.1 ∧ p.1 ≠ q.2 ∧ p.2 ≠ q.1 ∧ p.2 ≠ q.2

theorem Apart.symm {p q : α × α} (h : Apart p q) : Apart q p :=
  ⟨h.1.symm, h.2.2.1.symm, h.2.1.symm, h.2.2.2.symm⟩

variable [DecidableEq α]

/-- The exchanges of the pairs, first to last. -/
def swaps : List (α × α) → Equiv.Perm α
  | [] => 1
  | p :: l => Equiv.swap p.1 p.2 * swaps l

/-- Exchanging two values of a function is a `swap` of its argument. -/
theorem swap_update {β : Type} (f : α → β) (i j k : α) :
    f (Equiv.swap i j k) = if k = j then f i else if k = i then f j else f k
    := by
  by_cases hj : k = j
  · rw [if_pos hj, hj, Equiv.swap_apply_right]
  · rw [if_neg hj]
    by_cases hi : k = i
    · rw [if_pos hi, hi, Equiv.swap_apply_left]
    · rw [if_neg hi, Equiv.swap_apply_of_ne_of_ne hi hj]

theorem swaps_fixed {l : List (α × α)} {k : α}
    (h : ∀ p ∈ l, k ≠ p.1 ∧ k ≠ p.2) : swaps l k = k := by
  induction l with
  | nil => rfl
  | cons p l ih =>
      have hp := h p List.mem_cons_self
      show Equiv.swap p.1 p.2 (swaps l k) = k
      rw [ih fun q hq => h q (List.mem_cons_of_mem p hq)]
      exact Equiv.swap_apply_of_ne_of_ne hp.1 hp.2

/-- Exchanges among places with a property keep it. -/
theorem swaps_closed {P : α → Prop} {l : List (α × α)}
    (h : ∀ p ∈ l, P p.1 ∧ P p.2) {k : α} (hk : P k) : P (swaps l k) := by
  induction l with
  | nil => exact hk
  | cons p l ih =>
      have hp := h p List.mem_cons_self
      show P (Equiv.swap p.1 p.2 (swaps l k))
      rw [Equiv.swap_apply_def]
      split
      · exact hp.2
      · split
        · exact hp.1
        · exact ih fun q hq => h q (List.mem_cons_of_mem p hq)

/-- Each place of a pair goes to the other one. -/
theorem swaps_pair {l : List (α × α)} (h : l.Pairwise Apart) {p : α × α}
    (hp : p ∈ l) : swaps l p.1 = p.2 ∧ swaps l p.2 = p.1 := by
  induction l with
  | nil => cases hp
  | cons q l ih =>
      rw [List.pairwise_cons] at h
      show Equiv.swap q.1 q.2 (swaps l p.1) = p.2
        ∧ Equiv.swap q.1 q.2 (swaps l p.2) = p.1
      rcases List.mem_cons.mp hp with rfl | hmem
      · have hfix : ∀ k, k = p.1 ∨ k = p.2 → swaps l k = k := by
          rintro k (rfl | rfl)
          · exact swaps_fixed fun q hq => ⟨(h.1 q hq).1, (h.1 q hq).2.1⟩
          · exact swaps_fixed fun q hq =>
              ⟨(h.1 q hq).2.2.1, (h.1 q hq).2.2.2⟩
        rw [hfix _ (Or.inl rfl), hfix _ (Or.inr rfl)]
        exact ⟨Equiv.swap_apply_left _ _, Equiv.swap_apply_right _ _⟩
      · obtain ⟨h1, h2, h3, h4⟩ := (h.1 p hmem).symm
        obtain ⟨hl, hr⟩ := ih h.2 hmem
        rw [hl, hr]
        exact ⟨Equiv.swap_apply_of_ne_of_ne h3 h4,
          Equiv.swap_apply_of_ne_of_ne h1 h2⟩

/-- A place is in a pair of the list, or in none. -/
theorem mem_pair_or (l : List (α × α)) (k : α) :
    (∃ p ∈ l, k = p.1 ∨ k = p.2) ∨ ∀ p ∈ l, k ≠ p.1 ∧ k ≠ p.2 := by
  by_cases hmem : ∃ p ∈ l, k = p.1 ∨ k = p.2
  · exact Or.inl hmem
  · refine Or.inr fun p hp => ⟨?_, ?_⟩
    · exact fun hk => hmem ⟨p, hp, Or.inl hk⟩
    · exact fun hk => hmem ⟨p, hp, Or.inr hk⟩

/-- Exchanging twice changes nothing. -/
theorem swaps_swaps {l : List (α × α)} (h : l.Pairwise Apart) (k : α) :
    swaps l (swaps l k) = k := by
  rcases mem_pair_or l k with ⟨p, hp, rfl | rfl⟩ | hnone
  · rw [(swaps_pair h hp).1, (swaps_pair h hp).2]
  · rw [(swaps_pair h hp).2, (swaps_pair h hp).1]
  · rw [swaps_fixed hnone, swaps_fixed hnone]

/-- The order of the pairs does not matter. -/
theorem swaps_congr {l l' : List (α × α)} (h : l.Pairwise Apart)
    (h' : l'.Pairwise Apart) (hmem : ∀ p, p ∈ l ↔ p ∈ l') :
    swaps l = swaps l' := by
  refine Equiv.ext fun k => ?_
  rcases mem_pair_or l k with ⟨p, hp, rfl | rfl⟩ | hnone
  · rw [(swaps_pair h hp).1, (swaps_pair h' ((hmem p).mp hp)).1]
  · rw [(swaps_pair h hp).2, (swaps_pair h' ((hmem p).mp hp)).2]
  · rw [swaps_fixed hnone, swaps_fixed fun p hp => hnone p ((hmem p).mpr hp)]

/-- Nor does the order within a pair. -/
theorem swaps_map_swap (l : List (α × α)) :
    swaps (l.map Prod.swap) = swaps l := by
  induction l with
  | nil => rfl
  | cons p l ih =>
      show Equiv.swap p.2 p.1 * swaps (l.map Prod.swap) = _
      rw [ih, Equiv.swap_comm]
      rfl

/-- Repeating one pair among others apart from it exchanges its places as
often as it occurs. -/
theorem swaps_parity {l : List (α × α)} {p : α × α}
    (h : ∀ q ∈ l, q = p ∨ Apart p q) :
    swaps l p.1 = (if l.count p % 2 = 1 then p.2 else p.1)
      ∧ swaps l p.2 = (if l.count p % 2 = 1 then p.1 else p.2) := by
  induction l with
  | nil => exact ⟨rfl, rfl⟩
  | cons q l ih =>
      obtain ⟨ih1, ih2⟩ := ih fun r hr => h r (List.mem_cons_of_mem q hr)
      show Equiv.swap q.1 q.2 (swaps l p.1) = _
        ∧ Equiv.swap q.1 q.2 (swaps l p.2) = _
      rw [ih1, ih2]
      rcases h q List.mem_cons_self with rfl | hq
      · rw [List.count_cons_self]
        rcases Nat.mod_two_eq_zero_or_one (l.count q) with heven | hodd
        · have hsucc : (l.count q + 1) % 2 = 1 := by omega
          simp only [heven, hsucc, Nat.zero_ne_one, if_true, if_false]
          exact ⟨Equiv.swap_apply_left _ _, Equiv.swap_apply_right _ _⟩
        · have hsucc : (l.count q + 1) % 2 = 0 := by omega
          simp only [hodd, hsucc, Nat.zero_ne_one, if_true, if_false]
          exact ⟨Equiv.swap_apply_right _ _, Equiv.swap_apply_left _ _⟩
      · have hne : q ≠ p := by
          rintro rfl
          exact hq.1 rfl
        rw [List.count_cons_of_ne hne]
        obtain ⟨h1, h2, h3, h4⟩ := hq
        split
        · exact ⟨Equiv.swap_apply_of_ne_of_ne h3 h4,
            Equiv.swap_apply_of_ne_of_ne h1 h2⟩
        · exact ⟨Equiv.swap_apply_of_ne_of_ne h1 h2,
            Equiv.swap_apply_of_ne_of_ne h3 h4⟩

end Edk2Exynos.Lib
