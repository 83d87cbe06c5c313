/-
Turns of a loop, each over what the environment gives it, until one
answers.

The environment is a list, one entry for a turn; where it ends first there
is no answer yet. The loop keeps nothing of its own from turn to turn: a
turn without an answer leaves the rest of the loop to the state it made.
-/
import Mathlib.Tactic

namespace Edk2Exynos.Lib

variable {α β σ : Type}

/-- Take turns until one answers. -/
def turns (turn : α → σ → Option β × σ) : List α → σ → Option β × σ
  | [], s => (none, s)
  | a :: as, s =>
      match turn a s with
      | (none, s) => turns turn as s
      | (some b, s) => (some b, s)

variable {turn : α → σ → Option β × σ}

/-- A turn that answers ends the loop. -/
theorem turns_of_some {a : α} {s s' : σ} {b : β}
    (h : turn a s = (some b, s')) (as : List α) :
    turns turn (a :: as) s = (some b, s') := by
  rw [turns, h]

end Edk2Exynos.Lib
