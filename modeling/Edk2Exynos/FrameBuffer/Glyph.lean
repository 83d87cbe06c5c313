/-
What `FbConDrawglyph` leaves on the screen.

# Images

The loops are strokes that repeat (`Draws`): a pixel's bytes, a cell of
`scale` pixels, five cells and the advance for a line of the screen,
`scale` such lines for a line of the font, and six of those for a word of
the glyph. The bits of a line are shifted out of a copy, so each of its
lines starts with the same ones (`glyphLines_iterate`). The background is
drawn over the whole cell first, the foreground then from the same place.

# The line

The advance from the end of a line to the next is computed in 32 bits. A
line of 4 GiB or more is advanced short, and its glyph comes out sheared;
below that the cell is exactly the glyph, enlarged (`cell_exact`).
-/
import Edk2Exynos.FrameBuffer.Bounds
import Edk2Exynos.Lib.Raster

namespace Edk2Exynos.FrameBuffer

open Lib

-- ============================================================ the meaning

/-- The bit of a glyph in column `x` of line `y`. -/
def glyphBit (glyph : Nat → UINT32) (x y : Nat) : Bool :=
  if y < fontHeight / 2 then (glyph 0).getLsbD (fontWidth * y + x)
  else (glyph 1).getLsbD (fontWidth * (y - fontHeight / 2) + x)

/-- Where the pixel in column `c` of line `r` starts. -/
def pixelAt (pixels : Nat) (stride bpp : UINT32) (r c : Nat) : Nat :=
  pixels + (r * stride.toNat + c) * bpp.toNat

/-- The cell of a glyph holds it, `scale` times enlarged. -/
def CellHolds (color : FbconColor) (pixels : Nat) (stride bpp : UINT32)
    (glyph : Nat → UINT32) (scale : UINT32) (m : Mem) : Prop :=
  ∀ r < fontHeight * scale.toNat, ∀ c < fontWidth * scale.toNat,
    ∀ k < bpp.toNat,
      m (pixelAt pixels stride bpp r c + k)
        = byteOf ((if glyphBit glyph (c / scale.toNat) (r / scale.toNat)
          then color.foreground else color.background).setWidth 32) k

/-- Outside the cell nothing is changed. -/
def CellFrame (pixels : Nat) (stride bpp scale : UINT32) (m m' : Mem) :
    Prop :=
  ∀ a, (∀ r < fontHeight * scale.toNat, ∀ c < fontWidth * scale.toNat,
    ∀ k < bpp.toNat, a ≠ pixelAt pixels stride bpp r c + k) →
    m' a = m a

-- ============================================================== the cells

/-- A pixel is drawn with the bytes of its colour. -/
theorem draws_drawPixel (n : Nat) : ∀ color : UINT32,
    Draws n (fun k => some (byteOf color k)) (drawPixel color n) := by
  induction n with
  | zero => exact fun _ => draws_id _
  | succ k ih =>
      intro color
      have hfirst : Draws 1 (fun k => some (byteOf color k))
          (Pen.put (color.setWidth 8)) := by
        refine (draws_put (color.setWidth 8)).congr ?_
        intro i hi
        obtain rfl : i = 0 := by omega
        unfold byteOf
        rw [Nat.mul_zero, BitVec.ushiftRight_zero]
      have hrest : Draws k (fun i => some (byteOf color (1 + i)))
          (drawPixel (color >>> 8) k) := by
        refine (ih (color >>> 8)).congr ?_
        intro i _
        have hplace : 8 * (1 + i) = 8 + 8 * i := by ring
        unfold byteOf
        rw [hplace, BitVec.shiftRight_add]
      have hcons := hfirst.cons hrest
      rw [Nat.add_comm] at hcons
      exact hcons

/-- A cell of the glyph is drawn pixel by pixel. -/
theorem draws_drawCell (color bpp scale : UINT32) :
    Draws (scale.toNat * bpp.toNat)
      (fun i => some (byteOf color (i % bpp.toNat)))
      (drawCell color bpp scale) :=
  (draws_drawPixel bpp.toNat color).iterate scale.toNat

/-- A cell that is passed over is left as it is. -/
theorem draws_skipCell (bpp scale : UINT32) :
    Draws (scale.toNat * bpp.toNat) (fun _ => none)
      (skipCell bpp scale) :=
  (draws_skip bpp.toNat).iterate scale.toNat

/-- Cells in the colour, where a bit of `data` is set. -/
def columnsImage (color bpp scale data : UINT32) : Image := fun i =>
  if data.getLsbD (i / (scale.toNat * bpp.toNat)) then
    some (byteOf color (i % bpp.toNat))
  else none

/-- The columns use up as many bits of the glyph. -/
theorem glyphColumns_fst (color bpp scale : UINT32) (n : Nat) :
    ∀ data p, (glyphColumns color bpp scale n data p).1 = data >>> n := by
  induction n with
  | zero => exact fun data _ => (BitVec.ushiftRight_zero data).symm
  | succ x ih =>
      intro data p
      unfold glyphColumns
      rw [ih, ← BitVec.shiftRight_add, Nat.add_comm 1 x]

/-- The columns of a line are drawn where the glyph has bits. -/
theorem draws_glyphColumns (color bpp scale : UINT32) (n : Nat) :
    ∀ data, Draws (n * (scale.toNat * bpp.toNat))
      (columnsImage color bpp scale data)
      (fun p => (glyphColumns color bpp scale n data p).2) := by
  induction n with
  | zero =>
      intro data
      rw [Nat.zero_mul]
      exact draws_id _
  | succ x ih =>
      intro data
      have hcell : Draws (scale.toNat * bpp.toNat)
          (fun i => if data &&& 1 ≠ 0 then
            some (byteOf color (i % bpp.toNat)) else none)
          (fun p => if data &&& 1 ≠ 0 then drawCell color bpp scale p
            else skipCell bpp scale p) := by
        split
        · exact draws_drawCell color bpp scale
        · exact draws_skipCell bpp scale
      have hfirst : Draws (scale.toNat * bpp.toNat)
          (columnsImage color bpp scale data)
          (fun p => if data &&& 1 ≠ 0 then drawCell color bpp scale p
            else skipCell bpp scale p) := by
        refine hcell.congr ?_
        intro i hi
        unfold columnsImage
        simp only [Nat.div_eq_of_lt hi, and_one_ne_zero_iff]
      have hrest : Draws (x * (scale.toNat * bpp.toNat))
          (fun i => columnsImage color bpp scale data
            (scale.toNat * bpp.toNat + i))
          (fun p => (glyphColumns color bpp scale x (data >>> 1) p).2) := by
        refine (ih (data >>> 1)).congr ?_
        intro i hi
        have hpos : 0 < scale.toNat * bpp.toNat :=
          Nat.pos_of_lt_mul_left hi
        unfold columnsImage
        rw [Nat.add_div_left i hpos, Nat.mul_add_mod',
          BitVec.getLsbD_ushiftRight, Nat.add_comm 1]
      rw [Nat.succ_mul, Nat.add_comm]
      exact hfirst.cons hrest

-- ============================================================== the lines

section

variable (color : UINT32) {stride bpp scale : UINT32} {line : Nat}

/-- The cells of a line and the advance after them make a line. -/
def MakesLine (stride bpp scale : UINT32) (line : Nat) : Prop :=
  fontWidth * (scale.toNat * bpp.toNat) + lineAdvance stride bpp scale
    = line

/-- A line of the screen: the cells, and nothing behind them. -/
def lineImage (color bpp scale data : UINT32) : Image :=
  beside (fontWidth * (scale.toNat * bpp.toNat))
    (columnsImage color bpp scale data) (fun _ => none)

/-- The stroke for a line of the screen. -/
def glyphLine (color stride bpp scale temp : UINT32) (p : Pen) : Pen :=
  (glyphColumns color bpp scale fontWidth temp p).2.skip
    (lineAdvance stride bpp scale)

/-- A line of the glyph is drawn, and the rest of its line left. -/
theorem draws_glyphLine (h : MakesLine stride bpp scale line)
    (temp : UINT32) :
    Draws line (lineImage color bpp scale temp)
      (glyphLine color stride bpp scale temp) := by
  have hseq := (draws_glyphColumns color bpp scale fontWidth temp).seq
    (draws_skip (lineAdvance stride bpp scale))
  rw [h] at hseq
  exact hseq

/-- The repetitions of a line are drawn from the same bits. -/
theorem glyphLines_iterate (temp : UINT32) (n : Nat) : ∀ data p,
    (glyphLines color stride bpp scale temp n data p).2
      = (glyphLine color stride bpp scale temp)^[n] p := by
  induction n with
  | zero => exact fun _ _ => rfl
  | succ i ih =>
      intro data p
      unfold glyphLines
      rw [ih, Function.iterate_succ_apply]
      rfl

/-- The repetitions of a line use up its bits once. -/
theorem glyphLines_fst (temp : UINT32) (n : Nat) : ∀ data p,
    (glyphLines color stride bpp scale temp (n + 1) data p).1
      = temp >>> fontWidth := by
  induction n with
  | zero =>
      intro data p
      unfold glyphLines glyphLines
      exact glyphColumns_fst color bpp scale fontWidth temp p
  | succ i ih =>
      intro data p
      unfold glyphLines
      exact ih _ _

/-- A line of the glyph is drawn as often as it is repeated. -/
theorem draws_glyphLines (h : MakesLine stride bpp scale line)
    (temp : UINT32) (n : Nat) (data : UINT32) :
    Draws (n * line)
      (fun i => lineImage color bpp scale temp (i % line))
      (fun p =>
        (glyphLines color stride bpp scale temp n data p).2) := by
  have hstroke : (fun p =>
      (glyphLines color stride bpp scale temp n data p).2)
      = (glyphLine color stride bpp scale temp)^[n] :=
    funext (glyphLines_iterate color temp n data)
  rw [hstroke]
  exact (draws_glyphLine color h temp).iterate n

/-- Lines of the font: the bits of each are behind those of the last. -/
def linesImage (color bpp scale data : UINT32) (line : Nat) : Image :=
  fun i => lineImage color bpp scale
    (data >>> (fontWidth * (i / (scale.toNat * line)))) (i % line)

/-- Half of the glyph is drawn line by line. -/
theorem draws_drawHalf (h : MakesLine stride bpp scale line)
    (hscale : 1 ≤ scale.toNat) (n : Nat) : ∀ data,
      Draws (n * (scale.toNat * line))
        (linesImage color bpp scale data line)
        (fun p => (drawHalf color stride bpp scale n data p).2) := by
  induction n with
  | zero =>
      intro data
      rw [Nat.zero_mul]
      exact draws_id _
  | succ y ih =>
      intro data
      obtain ⟨k, hk⟩ := Nat.exists_eq_add_of_le' hscale
      have hfst : ∀ p, (glyphLines color stride bpp scale data scale.toNat
          data p).1 = data >>> fontWidth := by
        intro p
        rw [hk]
        exact glyphLines_fst color data k data p
      have hstroke : (fun p =>
          (drawHalf color stride bpp scale (y + 1) data p).2)
          = fun p => (drawHalf color stride bpp scale y (data >>> fontWidth)
            (glyphLines color stride bpp scale data scale.toNat data
              p).2).2 :=
        funext fun p => congrArg
          (fun d => (drawHalf color stride bpp scale y d _).2) (hfst p)
      have hfirst : Draws (scale.toNat * line)
          (linesImage color bpp scale data line)
          (fun p => (glyphLines color stride bpp scale data scale.toNat
            data p).2) := by
        refine (draws_glyphLines color h data scale.toNat data).congr ?_
        intro i hi
        unfold linesImage
        rw [Nat.div_eq_of_lt hi, Nat.mul_zero, BitVec.ushiftRight_zero]
      have hrest : Draws (y * (scale.toNat * line))
          (fun i => linesImage color bpp scale data line
            (scale.toNat * line + i))
          (fun p => (drawHalf color stride bpp scale y (data >>> fontWidth)
            p).2) := by
        refine (ih (data >>> fontWidth)).congr ?_
        intro i hi
        have hpos : 0 < scale.toNat * line := Nat.pos_of_lt_mul_left hi
        unfold linesImage
        rw [Nat.add_div_left i hpos, Nat.mul_add_mod',
          ← BitVec.shiftRight_add, Nat.mul_succ, Nat.add_comm fontWidth]
      rw [hstroke, Nat.succ_mul, Nat.add_comm]
      exact hfirst.cons hrest

/-- A line of the background. -/
def backgroundLine (color bpp scale : UINT32) : Image :=
  beside (fontWidth * (scale.toNat * bpp.toNat))
    (fun i => some (byteOf color (i % bpp.toNat))) (fun _ => none)

/-- The background is drawn line by line. -/
theorem draws_drawBackground (h : MakesLine stride bpp scale line) :
    Draws (fontHeight / 2 * (scale.toNat * line))
      (fun i => backgroundLine color bpp scale (i % line))
      (drawBackground color stride bpp scale) := by
  have hcells : Draws (fontWidth * (scale.toNat * bpp.toNat))
      (fun i => some (byteOf color (i % bpp.toNat)))
      ((drawCell color bpp scale)^[fontWidth]) := by
    refine ((draws_drawCell color bpp scale).iterate fontWidth).congr ?_
    intro i _
    rw [Nat.mod_mod_of_dvd i (Nat.dvd_mul_left bpp.toNat scale.toNat)]
  have hline := hcells.seq (draws_skip (lineAdvance stride bpp scale))
  rw [h] at hline
  refine ((hline.iterate scale.toNat).iterate (fontHeight / 2)).congr ?_
  intro i _
  rw [Nat.mod_mod_of_dvd i (Nat.dvd_mul_left line scale.toNat)]
  rfl

/-- The two words of a glyph, drawn one behind the other. -/
def glyphImage (bpp scale : UINT32) (glyph : Nat → UINT32) (line : Nat) :
    Image :=
  beside (fontHeight / 2 * (scale.toNat * line))
    (linesImage color bpp scale (glyph 0) line)
    (linesImage color bpp scale (glyph 1) line)

end

section

variable {stride bpp scale : UINT32} {line : Nat}

/-- The background of the cell, and the glyph over it. -/
theorem storeAll_fbConDrawglyph (h : MakesLine stride bpp scale line)
    (hscale : 1 ≤ scale.toNat) (color : FbconColor) (pixels : Nat)
    (glyph : Nat → UINT32) (stores : List (Nat × Byte)) (m : Mem) :
    storeAll m (fbConDrawglyph color pixels stride bpp glyph scale stores)
      = overlay (overlay (storeAll m stores) pixels
          (fontHeight * (scale.toNat * line))
          fun i => backgroundLine (color.background.setWidth 32) bpp scale
            (i % line))
        pixels (fontHeight * (scale.toNat * line))
        (glyphImage (color.foreground.setWidth 32) bpp scale glyph line) := by
  have htwo : fontHeight * (scale.toNat * line)
      = fontHeight / 2 * (scale.toNat * line)
        + fontHeight / 2 * (scale.toNat * line) := by
    simp only [fontHeight]
    ring
  have hback : Draws (fontHeight * (scale.toNat * line))
      (fun i => backgroundLine (color.background.setWidth 32) bpp scale
        (i % line))
      ((drawBackground (color.background.setWidth 32) stride bpp
        scale)^[2]) := by
    have htwice := (draws_drawBackground (color.background.setWidth 32)
      h).iterate 2
    rw [Nat.two_mul, ← htwo] at htwice
    refine htwice.congr ?_
    intro i _
    rw [Nat.mod_mod_of_dvd i
      ((Nat.dvd_mul_left line scale.toNat).mul_left (fontHeight / 2))]
  have hfore := (draws_drawHalf (color.foreground.setWidth 32) h hscale
    (fontHeight / 2) (glyph 0)).seq
      (draws_drawHalf (color.foreground.setWidth 32) h hscale
        (fontHeight / 2) (glyph 1))
  rw [← htwo] at hfore
  unfold fbConDrawglyph
  rw [← (hback ⟨pixels, stores⟩).2 m]
  exact (hfore ⟨pixels, _⟩).2 m

-- ============================================================ one pixel

theorem lineImage_at (color data : UINT32) (j : Nat) :
    lineImage color bpp scale data j
      = if j < fontWidth * (scale.toNat * bpp.toNat) then
          if data.getLsbD (j / (scale.toNat * bpp.toNat)) then
            some (byteOf color (j % bpp.toNat))
          else none
        else none := rfl

/-- The image of a glyph in line `r` of the screen. -/
theorem glyphImage_at (hscale : 1 ≤ scale.toNat) (color : UINT32)
    (glyph : Nat → UINT32) (r : Nat) {j : Nat} (hj : j < line) :
    glyphImage color bpp scale glyph line (r * line + j)
      = if j < fontWidth * (scale.toNat * bpp.toNat) then
          if glyphBit glyph (j / (scale.toNat * bpp.toNat))
              (r / scale.toNat) then
            some (byteOf color (j % bpp.toNat))
          else none
        else none := by
  have hline : 0 < line := Nat.lt_of_le_of_lt (Nat.zero_le j) hj
  have hmod : ∀ r, (r * line + j) % line = j :=
    fun _ => Nat.mul_add_mod_of_lt hj
  have hdiv : ∀ r, (r * line + j) / (scale.toNat * line)
      = r / scale.toNat := by
    intro r
    rw [Nat.mul_comm scale.toNat line, ← Nat.div_div_eq_div_mul,
      Nat.mul_comm r line, Nat.mul_add_div hline, Nat.div_eq_of_lt hj,
      Nat.add_zero]
  have hhalf : r * line + j < fontHeight / 2 * (scale.toNat * line)
      ↔ r / scale.toNat < fontHeight / 2 := by
    rw [Nat.div_lt_iff_lt_mul hscale, ← Nat.mul_assoc]
    constructor
    · intro hlt
      exact Nat.lt_of_mul_lt_mul_right
        (Nat.lt_of_le_of_lt (Nat.le_add_right _ j) hlt)
    · intro hlt
      exact stretch_lt hlt hj
  unfold glyphImage beside
  by_cases hupper : r / scale.toNat < fontHeight / 2
  · rw [if_pos (hhalf.2 hupper)]
    unfold linesImage
    rw [hmod, hdiv, lineImage_at]
    unfold glyphBit
    rw [if_pos hupper, BitVec.getLsbD_ushiftRight]
  · rw [if_neg fun hlt => hupper (hhalf.1 hlt)]
    have hge : fontHeight / 2 * scale.toNat ≤ r := by
      rw [Nat.div_lt_iff_lt_mul hscale] at hupper
      exact Nat.not_lt.1 hupper
    obtain ⟨q, rfl⟩ := Nat.exists_eq_add_of_le hge
    have hrest : (fontHeight / 2 * scale.toNat + q) * line + j
        - fontHeight / 2 * (scale.toNat * line) = q * line + j := by
      rw [Nat.add_mul, Nat.mul_assoc, Nat.add_assoc,
        Nat.add_sub_cancel_left]
    have hq : (fontHeight / 2 * scale.toNat + q) / scale.toNat
        - fontHeight / 2 = q / scale.toNat := by
      rw [Nat.mul_comm, Nat.mul_add_div hscale, Nat.add_sub_cancel_left]
    rw [hrest]
    unfold linesImage
    rw [hmod, hdiv, lineImage_at]
    unfold glyphBit
    rw [if_neg hupper, hq, BitVec.getLsbD_ushiftRight]

/-- A place of the cell's lines after drawing. -/
theorem storeAll_at (h : MakesLine stride bpp scale line)
    (hscale : 1 ≤ scale.toNat) (color : FbconColor) (pixels : Nat)
    (glyph : Nat → UINT32) (stores : List (Nat × Byte)) (m : Mem) {r : Nat}
    (hr : r < fontHeight * scale.toNat) {j : Nat} (hj : j < line) :
    storeAll m (fbConDrawglyph color pixels stride bpp glyph scale stores)
        (pixels + (r * line + j))
      = if j < fontWidth * (scale.toNat * bpp.toNat) then
          byteOf ((if glyphBit glyph (j / (scale.toNat * bpp.toNat))
              (r / scale.toNat)
            then color.foreground else color.background).setWidth 32)
            (j % bpp.toNat)
        else storeAll m stores (pixels + (r * line + j)) := by
  have hin : r * line + j < fontHeight * (scale.toNat * line) := by
    rw [← Nat.mul_assoc]
    exact stretch_lt hr hj
  have hmod : (r * line + j) % line = j := Nat.mul_add_mod_of_lt hj
  rw [storeAll_fbConDrawglyph h hscale, overlay_at hin,
    glyphImage_at hscale _ _ r hj, overlay_at hin, hmod]
  unfold backgroundLine beside
  split
  · split
    · rfl
    · rfl
  · rfl

end

/-- The advance completes the line when a line is below 4 GiB. -/
theorem makesLine_of_lt {stride bpp scale : UINT32}
    (hwidth : fontWidth * scale.toNat ≤ stride.toNat)
    (hline : (stride.toNat - fontWidth * scale.toNat) * bpp.toNat
      < 2 ^ 32) :
    MakesLine stride bpp scale (stride.toNat * bpp.toNat) := by
  have hlt := stride.isLt
  have hcells : (BitVec.ofNat 32 fontWidth * scale).toNat
      = fontWidth * scale.toNat := by
    rw [BitVec.toNat_mul, BitVec.toNat_ofNat]
    exact Nat.mod_eq_of_lt (Nat.lt_of_le_of_lt hwidth hlt)
  have hrest : (stride - BitVec.ofNat 32 fontWidth * scale).toNat
      = stride.toNat - fontWidth * scale.toNat := by
    rw [BitVec.toNat_sub_of_le (by
      rw [BitVec.le_def, hcells]
      exact hwidth), hcells]
  unfold MakesLine lineAdvance
  rw [BitVec.toNat_mul, hrest, Nat.mod_eq_of_lt hline, ← Nat.mul_assoc,
    ← Nat.add_mul, Nat.add_sub_cancel' hwidth]

section

variable {stride bpp scale : UINT32}

/-- A glyph that is drawn stands in its cell. -/
theorem cellHolds_fbConDrawglyph
    (h : MakesLine stride bpp scale (stride.toNat * bpp.toNat))
    (hscale : 1 ≤ scale.toNat)
    (hle : fontWidth * (scale.toNat * bpp.toNat)
      ≤ stride.toNat * bpp.toNat)
    (color : FbconColor) (pixels : Nat) (glyph : Nat → UINT32)
    (stores : List (Nat × Byte)) (m : Mem) :
    CellHolds color pixels stride bpp glyph scale
      (storeAll m
        (fbConDrawglyph color pixels stride bpp glyph scale stores)) := by
  intro r hr c hc k hk
  have hj : c * bpp.toNat + k < fontWidth * (scale.toNat * bpp.toNat) := by
    rw [← Nat.mul_assoc]
    exact stretch_lt hc hk
  have hbpp : 0 < bpp.toNat := Nat.lt_of_le_of_lt (Nat.zero_le k) hk
  have hplace : pixelAt pixels stride bpp r c + k
      = pixels + (r * (stride.toNat * bpp.toNat)
        + (c * bpp.toNat + k)) := by
    unfold pixelAt
    ring
  have hmod : (c * bpp.toNat + k) % bpp.toNat = k :=
    Nat.mul_add_mod_of_lt hk
  have hdiv : (c * bpp.toNat + k) / (scale.toNat * bpp.toNat)
      = c / scale.toNat := by
    rw [Nat.mul_comm scale.toNat, ← Nat.div_div_eq_div_mul,
      Nat.mul_comm c, Nat.mul_add_div hbpp, Nat.div_eq_of_lt hk,
      Nat.add_zero]
  rw [hplace, storeAll_at h hscale color pixels glyph stores m hr
    (Nat.lt_of_lt_of_le hj hle), if_pos hj, hmod, hdiv]

/-- A glyph that is drawn changes no byte outside its cell. -/
theorem cellFrame_fbConDrawglyph
    (h : MakesLine stride bpp scale (stride.toNat * bpp.toNat))
    (hscale : 1 ≤ scale.toNat) (color : FbconColor) (pixels : Nat)
    (glyph : Nat → UINT32) (stores : List (Nat × Byte)) (m : Mem) :
    CellFrame pixels stride bpp scale (storeAll m stores)
      (storeAll m
        (fbConDrawglyph color pixels stride bpp glyph scale stores)) := by
  intro a hout
  by_cases hin : pixels ≤ a ∧ a < pixels + fontHeight
      * (scale.toNat * (stride.toNat * bpp.toNat))
  · obtain ⟨i, rfl⟩ := Nat.exists_eq_add_of_le hin.1
    have hi : i < fontHeight
        * (scale.toNat * (stride.toNat * bpp.toNat)) := by omega
    have hpos : 0 < stride.toNat * bpp.toNat :=
      Nat.pos_of_lt_mul_left (Nat.mul_assoc _ _ _ ▸ hi)
    have hr : i / (stride.toNat * bpp.toNat)
        < fontHeight * scale.toNat := by
      rw [Nat.div_lt_iff_lt_mul hpos, Nat.mul_assoc]
      exact hi
    have hj := Nat.mod_lt i hpos
    have hplace : i = i / (stride.toNat * bpp.toNat)
        * (stride.toNat * bpp.toNat) + i % (stride.toNat * bpp.toNat) :=
      (Nat.div_add_mod' i _).symm
    rw [hplace, storeAll_at h hscale color pixels glyph stores m hr
      hj, if_neg]
    intro hcell
    -- a place in the cells is a byte of one of their pixels
    have hbpp : 0 < bpp.toNat := Nat.pos_of_mul_pos_left hpos
    refine hout _ hr (i % (stride.toNat * bpp.toNat) / bpp.toNat) ?_
      (i % (stride.toNat * bpp.toNat) % bpp.toNat)
      (Nat.mod_lt _ hbpp) ?_
    · rw [Nat.div_lt_iff_lt_mul hbpp, Nat.mul_assoc]
      exact hcell
    · unfold pixelAt
      rw [Nat.add_mul, Nat.mul_assoc, Nat.add_assoc, Nat.add_assoc,
        Nat.div_add_mod', ← hplace]
  · rw [storeAll_fbConDrawglyph h hscale]
    unfold overlay
    rw [if_neg hin, if_neg hin]

end

/-- On every screen with lines below 4 GiB the cell of a glyph holds
exactly the glyph, enlarged, and nothing else is changed. -/
theorem cell_exact (color : FbconColor) (pixels : Nat)
    (stride bpp : UINT32) (glyph : Nat → UINT32) (scale : UINT32)
    (stores : List (Nat × Byte)) (m : Mem) (hscale : 1 ≤ scale.toNat)
    (hwidth : fontWidth * scale.toNat ≤ stride.toNat)
    (hline : (stride.toNat - fontWidth * scale.toNat) * bpp.toNat
      < 2 ^ 32) :
    CellHolds color pixels stride bpp glyph scale
        (storeAll m
          (fbConDrawglyph color pixels stride bpp glyph scale stores))
      ∧ CellFrame pixels stride bpp scale (storeAll m stores)
        (storeAll m
          (fbConDrawglyph color pixels stride bpp glyph scale stores)) := by
  have hmakes := makesLine_of_lt hwidth hline
  have hle : fontWidth * (scale.toNat * bpp.toNat)
      ≤ stride.toNat * bpp.toNat := by
    rw [← Nat.mul_assoc]
    exact Nat.mul_le_mul_right _ hwidth
  exact ⟨cellHolds_fbConDrawglyph hmakes hscale hle color pixels glyph
      stores m,
    cellFrame_fbConDrawglyph hmakes hscale color pixels glyph stores m⟩

/-- The colours of `SerialPortWrite`. -/
def whiteOnBlack : FbconColor := ⟨fbWhite, fbBlack⟩

/-- A glyph in the first cell of the panel. -/
theorem cell_exact_panel :
    CellHolds whiteOnBlack 0 1080 4 (fun _ => 0x1f) 2
      (storeAll (fun _ => 0)
        (fbConDrawglyph whiteOnBlack 0 1080 4 (fun _ => 0x1f) 2 [])) :=
  (cell_exact whiteOnBlack 0 1080 4 (fun _ => 0x1f) 2 [] (fun _ => 0)
    (by decide) (by decide) (by decide)).1

/-- A screen of 2^30 + 5 pixels of four bytes to a line: the second line
of the cell is drawn behind the first. -/
theorem cell_sheared :
    ¬ ∀ (color : FbconColor) (pixels : Nat) (stride bpp : UINT32)
        (glyph : Nat → UINT32) (scale : UINT32)
        (stores : List (Nat × Byte)) (m : Mem),
      1 ≤ scale.toNat → fontWidth * scale.toNat ≤ stride.toNat →
      CellHolds color pixels stride bpp glyph scale
          (storeAll m
            (fbConDrawglyph color pixels stride bpp glyph scale stores))
        ∧ CellFrame pixels stride bpp scale (storeAll m stores)
          (storeAll m
            (fbConDrawglyph color pixels stride bpp glyph scale
              stores)) := by
  intro h
  have hholds := (h ⟨fbBlack, fbWhite⟩ 0 1073741829 4 (fun _ => 0) 1 []
    (fun _ => 0) (by decide) (by decide)).1
  have hpixel := hholds 1 (by decide) 0 (by decide) 0 (by decide)
  have hfills : FillsLine 1073741829 4 1 20 := by
    unfold FillsLine
    decide
  have hnear : ∀ st ∈ fbConDrawglyph ⟨fbBlack, fbWhite⟩ 0 1073741829 4
      (fun _ => 0) 1 [], st.1 < 240 :=
    fbConDrawglyph_stores hfills (P := (· < 240)) (List.forall_mem_nil _)
      (fun _ hi => Nat.lt_of_lt_of_le hi (by decide)) _ _
  rw [storeAll_outside fun st hst => Nat.ne_of_lt
    (Nat.lt_of_lt_of_le (hnear st hst) (by decide))] at hpixel
  exact absurd hpixel (by decide)

end Edk2Exynos.FrameBuffer
