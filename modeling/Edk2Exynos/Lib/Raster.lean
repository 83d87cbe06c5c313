/-
What strokes of a pen leave in the buffer.

An image gives the bytes of a stretch of the buffer, from its start on,
and none where it leaves the buffer alone. `Draws n img f` says that the
stroke `f` goes `n` places on and leaves that image there and nothing
elsewhere, whatever the pen has stored before and whatever was in the
buffer. A stroke after another draws the one image behind the other
(`Draws.seq`), a stroke repeated draws its image over and over
(`Draws.iterate`): the image of a nest of loops is read off its text, as
the bound of one is in `Moves`.
-/
import Edk2Exynos.Lib.Pen

namespace Edk2Exynos.Lib

/-- A picture: the bytes that are drawn, and where. -/
abbrev Image := Nat → Option Byte

/-- The first `n` places of one image, and another behind them. -/
def beside (n : Nat) (img img' : Image) : Image := fun i =>
  if i < n then img i else img' (i - n)

/-- The buffer after the stores, oldest first. -/
def storeAll (m : Mem) (stores : List (Nat × Byte)) : Mem :=
  stores.foldl (fun m st => writeBytes m st.1 [st.2]) m

theorem storeAll_append (m : Mem) (l l' : List (Nat × Byte)) :
    storeAll m (l ++ l') = storeAll (storeAll m l) l' :=
  List.foldl_append

/-- Where nothing is stored the buffer is as before. -/
theorem storeAll_outside {m : Mem} {a : Nat} {l : List (Nat × Byte)}
    (h : ∀ st ∈ l, st.1 ≠ a) : storeAll m l a = m a := by
  induction l generalizing m with
  | nil => rfl
  | cons st l ih =>
      have hst := h st List.mem_cons_self
      show storeAll (writeBytes m st.1 [st.2]) l a = m a
      rw [ih fun x hx => h x (List.mem_cons_of_mem _ hx)]
      apply writeBytes_outside
      simp only [List.length_singleton]
      omega

/-- The buffer with an image of `n` places at `pos`. -/
def overlay (m : Mem) (pos n : Nat) (img : Image) : Mem := fun a =>
  if pos ≤ a ∧ a < pos + n then (img (a - pos)).getD (m a) else m a

/-- The stroke goes `n` places on and leaves the image there. -/
def Draws (n : Nat) (img : Image) (f : Pen → Pen) : Prop :=
  ∀ p, (f p).pos = p.pos + n
    ∧ ∀ m, storeAll m (f p).stores
      = overlay (storeAll m p.stores) p.pos n img

variable {n : Nat} {img : Image} {f : Pen → Pen}

theorem overlay_congr {img' : Image} {m : Mem} {pos : Nat}
    (h : ∀ i < n, img i = img' i) :
    overlay m pos n img = overlay m pos n img' := by
  funext a
  unfold overlay
  split
  next hin => rw [h (a - pos) (by omega)]
  · rfl

/-- Inside, the image. -/
theorem overlay_at {m : Mem} {pos i : Nat} (hi : i < n) :
    overlay m pos n img (pos + i) = (img i).getD (m (pos + i)) := by
  unfold overlay
  rw [if_pos (by omega), Nat.add_sub_cancel_left]

/-- An image behind another. -/
theorem overlay_overlay {m : Mem} {pos n' : Nat} {img' : Image} :
    overlay (overlay m pos n img) (pos + n) n' img'
      = overlay m pos (n + n') (beside n img img') := by
  funext a
  unfold overlay beside
  by_cases hfirst : pos ≤ a ∧ a < pos + n
  · have hnot : ¬ (pos + n ≤ a ∧ a < pos + n + n') := by omega
    have hin : pos ≤ a ∧ a < pos + (n + n') := by omega
    have hlt : a - pos < n := by omega
    simp only [if_neg hnot, if_pos hfirst, if_pos hin, if_pos hlt]
  · by_cases hsecond : pos + n ≤ a ∧ a < pos + n + n'
    · have hin : pos ≤ a ∧ a < pos + (n + n') := by omega
      have hge : ¬ a - pos < n := by omega
      simp only [if_pos hsecond, if_neg hfirst, if_pos hin, if_neg hge,
        Nat.sub_add_eq]
    · have hnot : ¬ (pos ≤ a ∧ a < pos + (n + n')) := by omega
      rw [if_neg hsecond, if_neg hfirst, if_neg hnot]

/-- Place `j` of stretch `r` of `n` stretches. -/
theorem stretch_lt {n line r j : Nat} (hr : r < n) (hj : j < line) :
    r * line + j < n * line :=
  calc r * line + j < r * line + line := Nat.add_lt_add_left hj _
    _ = (r + 1) * line := (Nat.succ_mul r line).symm
    _ ≤ n * line := Nat.mul_le_mul_right line hr

theorem overlay_zero (m : Mem) (pos : Nat) (img : Image) :
    overlay m pos 0 img = m := by
  funext a
  exact if_neg (by omega)

theorem draws_id (img : Image) : Draws 0 img id :=
  fun p => ⟨rfl, fun _ => (overlay_zero _ p.pos img).symm⟩

theorem draws_put (b : Byte) : Draws 1 (fun _ => some b) (Pen.put b) := by
  intro p
  refine ⟨rfl, fun m => ?_⟩
  show storeAll m (p.stores ++ [(p.pos, b)]) = _
  rw [storeAll_append]
  funext a
  show writeBytes (storeAll m p.stores) p.pos [b] a = _
  unfold overlay
  by_cases hat : p.pos ≤ a ∧ a < p.pos + 1
  · obtain rfl : a = p.pos + 0 := by omega
    rw [if_pos hat, writeBytes_inside Nat.one_pos]
    rfl
  · rw [if_neg hat]
    apply writeBytes_outside
    simp only [List.length_singleton]
    omega

theorem draws_skip (n : Nat) : Draws n (fun _ => none) (Pen.skip n) := by
  intro p
  refine ⟨rfl, fun _ => ?_⟩
  funext a
  unfold overlay
  split
  · rfl
  · rfl

theorem Draws.congr {img' : Image} (hf : Draws n img f)
    (h : ∀ i < n, img i = img' i) : Draws n img' f := by
  intro p
  refine ⟨(hf p).1, fun m => ?_⟩
  rw [(hf p).2 m, overlay_congr h]

/-- One stroke after another. -/
theorem Draws.seq {n' : Nat} {img' : Image} {g : Pen → Pen}
    (hf : Draws n img f) (hg : Draws n' img' g) :
    Draws (n + n') (beside n img img') (fun p => g (f p)) := by
  intro p
  have hpos := (hf p).1
  refine ⟨?_, fun m => ?_⟩
  · rw [(hg (f p)).1, hpos, Nat.add_assoc]
  · rw [(hg (f p)).2 m, (hf p).2 m, hpos, overlay_overlay]

/-- One stroke draws the first places of an image, another the rest. -/
theorem Draws.cons {n' : Nat} {g : Pen → Pen} (hf : Draws n img f)
    (hg : Draws n' (fun i => img (n + i)) g) :
    Draws (n + n') img (fun p => g (f p)) := by
  refine (hf.seq hg).congr ?_
  intro i _
  unfold beside
  split
  · rfl
  next hge => exact congrArg img (Nat.add_sub_cancel' (Nat.not_lt.1 hge))

/-- A stroke repeated `k` times. -/
theorem Draws.iterate (hf : Draws n img f) (k : Nat) :
    Draws (k * n) (fun i => img (i % n)) (f^[k]) := by
  induction k with
  | zero =>
      rw [Nat.zero_mul]
      exact draws_id _
  | succ k ih =>
      have hfirst : Draws n (fun i => img (i % n)) f := by
        refine hf.congr ?_
        intro i hi
        rw [Nat.mod_eq_of_lt hi]
      have hrest : Draws (k * n) (fun i => img ((n + i) % n)) (f^[k]) := by
        refine ih.congr ?_
        intro i _
        rw [Nat.add_mod_left]
      rw [Nat.succ_mul, Nat.add_comm]
      exact hfirst.cons hrest

end Edk2Exynos.Lib
