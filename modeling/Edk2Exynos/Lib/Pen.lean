/-
A pen: a pointer that only moves forward through a buffer, and the stores
made with it.

Drawing code is nested loops around two strokes, a store that advances
the pen and an advance alone. `Moves a f` bounds a stroke: it advances by
at most `a` and stores only within the `a` places from where it starts.
Strokes in a row and in a loop are bounded by the bounds of their parts
(`Moves.seq`, `Moves.iterate`), so the bound of a nest is read off its
text. A stroke that falls short of its bound is no worse: an advance that
was computed with a wrap around is covered by the one without.
-/
import Edk2Exynos.Lib.Bytes

namespace Edk2Exynos.Lib

/-- The place of the pen, and the stores made, oldest first. -/
structure Pen where
  pos : Nat
  stores : List (Nat × Byte)

namespace Pen

/-- Store a byte and advance. -/
def put (b : Byte) (p : Pen) : Pen where
  pos := p.pos + 1
  stores := p.stores ++ [(p.pos, b)]

/-- Advance. -/
def skip (n : Nat) (p : Pen) : Pen := { p with pos := p.pos + n }

end Pen

/-- A stroke advances by at most `a` and stores within `a` places. -/
def Moves (a : Nat) (f : Pen → Pen) : Prop :=
  ∀ p, (f p).pos ≤ p.pos + a
    ∧ ∃ new, (f p).stores = p.stores ++ new
      ∧ ∀ st ∈ new, st.1 < p.pos + a

theorem moves_id : Moves 0 id :=
  fun _ => ⟨Nat.le_refl _, [], (List.append_nil _).symm, by simp⟩

theorem moves_put (b : Byte) : Moves 1 (Pen.put b) := by
  intro p
  refine ⟨Nat.le_refl _, [(p.pos, b)], rfl, ?_⟩
  intro st hst
  rw [List.mem_singleton.mp hst]
  exact Nat.lt_succ_self _

theorem moves_skip (n : Nat) : Moves n (Pen.skip n) :=
  fun _ => ⟨Nat.le_refl _, [], (List.append_nil _).symm, by simp⟩

/-- A bound may be loosened. -/
theorem Moves.mono {a a' : Nat} {f : Pen → Pen} (h : Moves a f)
    (ha : a ≤ a') : Moves a' f := by
  intro p
  obtain ⟨hpos, new, hnew, hin⟩ := h p
  refine ⟨by omega, new, hnew, fun st hst => ?_⟩
  have hlt := hin st hst
  omega

/-- One stroke after another. -/
theorem Moves.seq {a a' : Nat} {f g : Pen → Pen} (hf : Moves a f)
    (hg : Moves a' g) : Moves (a + a') (fun p => g (f p)) := by
  intro p
  obtain ⟨hpos, new, hnew, hin⟩ := hf p
  obtain ⟨hpos', new', hnew', hin'⟩ := hg (f p)
  refine ⟨hpos'.trans (by omega), new ++ new', ?_, ?_⟩
  · rw [hnew', hnew, List.append_assoc]
  · intro st hst
    rcases List.mem_append.mp hst with hst | hst
    · have hlt := hin st hst
      omega
    · have hlt := hin' st hst
      omega

/-- A stroke repeated `n` times. -/
theorem Moves.iterate {a : Nat} {f : Pen → Pen} (hf : Moves a f)
    (n : Nat) : Moves (n * a) (f^[n]) := by
  induction n with
  | zero => exact moves_id.mono (Nat.zero_le _)
  | succ n ih =>
      have hseq := ih.seq hf
      rw [Function.iterate_succ', Nat.succ_mul]
      exact hseq

/-- What a stroke stores, a property of places known of those before. -/
theorem Moves.stores {a : Nat} {f : Pen → Pen} (hf : Moves a f)
    {P : Nat → Prop} {p : Pen} (hp : ∀ st ∈ p.stores, P st.1)
    (hnew : ∀ i, i < p.pos + a → P i) : ∀ st ∈ (f p).stores, P st.1 := by
  obtain ⟨-, new, heq, hin⟩ := hf p
  intro st hst
  rw [heq] at hst
  rcases List.mem_append.mp hst with hst | hst
  · exact hp st hst
  · exact hnew st.1 (hin st hst)

end Edk2Exynos.Lib
