/-
A loop that picks elements of a list into a bounded array.

The body of the loop judges each element: it passes, it is skipped, or it
ends the loop with an error. Elements that pass are stored, and the loop
ends when the array is full, a test that comes after the store.

Such a loop looks at the elements of `reached` only. `select_error` says
that its error is the first one there, `select_stored` what it stored
without one, and `take_filter_eq_iff` that two tests select alike exactly
when they agree on what is reached.
-/
import Mathlib.Tactic

namespace Edk2Exynos.Lib

/-- What the loop body makes of an element. -/
inductive Verdict (ε : Type) where
  | pass
  | skip
  | stop (e : ε)

namespace Verdict

variable {ε : Type}

/-- A second test, made when the first one lets the element pass. -/
def andThen : Verdict ε → Verdict ε → Verdict ε
  | pass, w => w
  | skip, _ => skip
  | stop e, _ => stop e

/-- `continue` unless the condition holds. -/
def need (b : Bool) : Verdict ε := if b then pass else skip

/-- The verdict lets a candidate through. -/
def passes : Verdict ε → Bool
  | pass => true
  | _ => false

/-- The error a verdict stops with. -/
def error : Verdict ε → Option ε
  | stop e => some e
  | _ => none

/-- Two checks in a row pass when both do. -/
@[simp] theorem andThen_passes (v w : Verdict ε) :
    (v.andThen w).passes = (v.passes && w.passes) := by
  cases v <;> rfl

/-- A condition passes when it holds. -/
@[simp] theorem need_passes (b : Bool) :
    (need b : Verdict ε).passes = b := by
  cases b <;> rfl

/-- A condition that fails is no error. -/
@[simp] theorem need_error (b : Bool) :
    (need b : Verdict ε).error = none := by
  cases b <;> rfl

/-- The second check's error counts when the first one passes. -/
theorem andThen_error (v w : Verdict ε) :
    (v.andThen w).error = if v.passes then w.error else v.error := by
  cases v <;> rfl

end Verdict

variable {α ε : Type}

/-- The loop: its error, if any, and the elements stored so far. -/
def select (check : α → Verdict ε) (capacity : Nat) :
    List α → List α → Option ε × List α
  | [], stored => (none, stored)
  | x :: xs, stored =>
      match check x with
      | .skip => select check capacity xs stored
      | .stop e => (some e, stored)
      | .pass =>
          if capacity ≤ (stored ++ [x]).length then (none, stored ++ [x])
          else select check capacity xs (stored ++ [x])

/-- The elements up to the `n`-th one that passes `p`, or all. -/
def reached (p : α → Bool) : Nat → List α → List α
  | 0, _ => []
  | _ + 1, [] => []
  | n + 1, x :: xs => x :: reached p (if p x then n else n + 1) xs

/-- Without room nothing is looked at. -/
@[simp] theorem reached_zero (p : α → Bool) (xs : List α) :
    reached p 0 xs = [] := by
  cases xs <;> simp [reached]

/-- How many elements the loop may still store: one more even when the
array is full, as the test comes after the store. -/
def room (capacity count : Nat) : Nat := max 1 (capacity - count)

/-- A list at its last place takes one more. -/
theorem room_full {capacity count : Nat} (h : capacity ≤ count + 1) :
    room capacity count = 1 := by
  unfold room
  omega

/-- One more entry taken leaves one place less. -/
theorem room_more {capacity count : Nat} (h : ¬ capacity ≤ count + 1) :
    room capacity count = room capacity (count + 1) + 1 := by
  unfold room
  omega

/-- An entry costs a place when it passes. -/
theorem reached_room_cons (p : α → Bool) (capacity count : Nat) (x : α)
    (xs : List α) :
    reached p (room capacity count) (x :: xs)
      = x :: reached p (if p x then room capacity count - 1
          else room capacity count) xs := by
  obtain ⟨n, hn⟩ : ∃ n, room capacity count = n + 1 := by
    refine ⟨room capacity count - 1, ?_⟩
    unfold room
    omega
  rw [hn]
  rfl

/-- A test that stops the loop nowhere it looks lets it select what
passes, in order, as much as there is room for. -/
theorem select_stored (check : α → Verdict ε) (capacity : Nat)
    (xs stored : List α)
    (h : (select check capacity xs stored).1 = none) :
    (select check capacity xs stored).2
      = stored ++ (xs.filter fun x => (check x).passes).take
          (room capacity stored.length) := by
  induction xs generalizing stored with
  | nil => simp [select]
  | cons x xs ih =>
      unfold select at h ⊢
      cases hx : check x with
      | skip =>
          simp only [hx] at h ⊢
          rw [ih _ h, List.filter_cons_of_neg (by simp [hx, Verdict.passes])]
      | stop e =>
          simp only [hx] at h
          cases h
      | pass =>
          simp only [hx, List.length_append, List.length_singleton] at h ⊢
          rw [List.filter_cons_of_pos (by simp [hx, Verdict.passes])]
          split
          next hfull => rw [room_full hfull]; rfl
          next hmore =>
            rw [if_neg hmore] at h
            rw [ih _ h, List.length_append, List.length_singleton,
              room_more hmore, List.take_succ_cons, List.append_assoc]
            rfl

/-- The error of the loop is the first one among what it reaches. -/
theorem select_error (check : α → Verdict ε) (capacity : Nat)
    (xs stored : List α) :
    (select check capacity xs stored).1
      = (reached (fun x => (check x).passes)
          (room capacity stored.length) xs).findSome?
            fun x => (check x).error := by
  induction xs generalizing stored with
  | nil =>
      unfold select
      cases room capacity stored.length <;> rfl
  | cons x xs ih =>
      rw [reached_room_cons, List.findSome?_cons]
      unfold select
      cases hx : check x with
      | skip =>
          rw [ih stored]
          rfl
      | stop e => rfl
      | pass =>
          simp only [Verdict.error, Verdict.passes, if_true,
            List.length_append, List.length_singleton]
          split
          next hfull =>
            rw [room_full hfull, Nat.sub_self, reached_zero]
            rfl
          next hmore =>
            rw [ih, List.length_append, List.length_singleton,
              room_more hmore]
            rfl

/-- Two tests select the same elements exactly when they agree on all
that one of them reaches. -/
theorem take_filter_eq_iff (p q : α → Bool) (n : Nat) (xs : List α) :
    (xs.filter p).take n = (xs.filter q).take n
      ↔ ∀ x ∈ reached p n xs, p x = q x := by
  induction xs generalizing n with
  | nil =>
      cases n with
      | zero => simp [reached]
      | succ n => simp [reached]
  | cons x xs ih =>
      cases n with
      | zero => simp [reached]
      | succ n =>
          -- an element only one of them takes shows in the result
          have hother : ∀ {r s : α → Bool}, r x = true → s x = false →
              ¬ (x :: xs.filter r).take (n + 1)
                = (xs.filter s).take (n + 1) := by
            intro r s _ hs heq
            have hmem : x ∈ xs.filter s := by
              apply List.mem_of_mem_take (i := n + 1)
              rw [← heq, List.take_succ_cons]
              exact List.mem_cons_self
            rw [List.mem_filter, hs] at hmem
            exact Bool.noConfusion hmem.2
          simp only [reached, List.forall_mem_cons, List.filter_cons]
          cases hp : p x with
          | true =>
              cases hq : q x with
              | true => simp [ih n]
              | false => simpa using hother hp hq
          | false =>
              cases hq : q x with
              | true =>
                  simp only [Bool.false_eq_true, if_false, if_true]
                  exact iff_of_false (fun heq => hother hq hp heq.symm)
                    fun hcon => absurd hcon.1 (by decide)
              | false => simp [ih (n + 1)]

/-- What is looked at comes from the list. -/
theorem reached_subset (p : α → Bool) (n : Nat) (xs : List α) :
    ∀ x ∈ reached p n xs, x ∈ xs := by
  induction xs generalizing n with
  | nil =>
      cases n with
      | zero => simp [reached]
      | succ n => simp [reached]
  | cons x xs ih =>
      cases n with
      | zero => simp [reached]
      | succ n =>
          intro y hy
          cases hy with
          | head => exact List.mem_cons_self
          | tail _ hy => exact List.mem_cons_of_mem x (ih _ y hy)

end Edk2Exynos.Lib
