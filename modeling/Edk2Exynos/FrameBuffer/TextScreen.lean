/-
The framebuffer as a text screen.

# The screen

Text lies on the framebuffer as `Screen.layout` says: at the scale used, a
row of text is 24 lines of the screen and a cell twelve pixels wide, ten of
which are the glyph's. The console has `Screen.rows` and `Screen.cols` of
them. On a screen that can be addressed (`Addressable`) no offset wraps, so
a character is drawn where its cell is (`charOffset_eq`).

# Two stores

What the console stores is glyphs and cleared rows. A glyph shows in its
cell and nowhere else (`storeAll_drawChar`), a cleared row is zero
(`storeAll_zeroMem`): what a terminal's `put` and `nextRow` show.
-/
import Edk2Exynos.FrameBuffer.Glyph
import Edk2Exynos.Lib.TextGrid

namespace Edk2Exynos.FrameBuffer

open Lib

-- ============================================================= the screen

/-- The bytes of a pixel. -/
def Screen.pixel (scr : Screen) : Nat := scr.gBpp.toNat / 8

/-- The rows of text the console uses. -/
def Screen.rows (scr : Screen) : Nat :=
  ((scr.gHeight.toNat - 1) / fontHeight - 1) / 2

/-- The columns of text, `gMaxPosition.x`. -/
def Screen.cols (scr : Screen) : Nat :=
  scr.gWidth.toNat / (fontWidth + 1) / 2

/-- Where the cells of the screen are in the framebuffer. -/
def Screen.layout (scr : Screen) : Layout where
  line := scr.line
  height := 2 * fontHeight
  width := 2 * (fontWidth + 1) * scr.pixel

/-- A character that was drawn, and its colours. -/
structure Drawn where
  char : UINT8
  color : FbconColor

/-- The glyph of a character. -/
def Screen.glyph (scr : Screen) (c : UINT8) (i : Nat) : UINT32 :=
  scr.font5x12 ((c.toNat - 32) * 2 + i)

/-- A glyph covers the left of its cell, its background included. -/
def Screen.painter (scr : Screen) : Painter Drawn where
  covers := fun x => x < fontWidth * (2 * scr.pixel)
  byte := fun g r x =>
    byteOf ((if glyphBit (scr.glyph g.char) (x / (2 * scr.pixel)) (r / 2)
      then g.color.foreground else g.color.background).setWidth 32)
      (x % scr.pixel)

/-- The framebuffer that shows a terminal. -/
def Screen.shown (scr : Screen) (m : Mem) (t : Terminal Drawn) : Mem :=
  render scr.layout scr.painter m t

/-- A screen with lines below 4 GiB, in a 64-bit address space. -/
structure Addressable (scr : Screen) : Prop where
  line_lt : scr.line < 2 ^ 32
  bytes_le : scr.bytes ≤ 2 ^ 64

variable {scr : Screen}

-- ================================================================ lengths

/-- A pixel has a byte. -/
theorem Usable.pixel_pos (h : Usable scr) : 0 < scr.pixel :=
  Nat.div_pos (Nat.le_of_dvd h.bpp_pos h.bpp_dvd) (by decide)

/-- A row has a line. -/
theorem Screen.height_pos (scr : Screen) : 0 < scr.layout.height := by
  show 0 < 2 * fontHeight
  decide

theorem Screen.line_eq (scr : Screen) :
    scr.line = scr.gWidth.toNat * scr.pixel := rfl

theorem Usable.width_ge (h : Usable scr) : 24 ≤ scr.gWidth.toNat := h.width

/-- A line has a byte. -/
theorem Usable.line_pos (h : Usable scr) : 0 < scr.line :=
  Nat.mul_pos (Nat.lt_of_lt_of_le (by decide) h.width_ge) h.pixel_pos

/-- A screen has two columns at least. -/
theorem Usable.two_le_cols (h : Usable scr) : 2 ≤ scr.cols := by
  have hwidth := h.width_ge
  unfold Screen.cols
  simp only [fontWidth]
  omega

/-- A screen has two rows at least. -/
theorem Usable.two_le_rows (h : Usable scr) : 2 ≤ scr.rows := by
  have hheight := h.height
  simp only [fontHeight, scaleFactor_toNat] at hheight
  unfold Screen.rows
  simp only [fontHeight]
  omega

/-- A cell ends where its line does at the latest. -/
theorem cell_le_line {col : Nat} (hcol : col < scr.cols) :
    col * scr.layout.width + scr.layout.width ≤ scr.layout.line := by
  have hcols : (col + 1) * (2 * (fontWidth + 1)) ≤ scr.gWidth.toNat := by
    unfold Screen.cols at hcol
    simp only [fontWidth] at hcol ⊢
    omega
  have hline := Nat.mul_le_mul_right scr.pixel hcols
  rw [← Nat.succ_mul]
  calc (col + 1) * (2 * (fontWidth + 1) * scr.pixel)
      = (col + 1) * (2 * (fontWidth + 1)) * scr.pixel :=
        (Nat.mul_assoc ..).symm
    _ ≤ scr.gWidth.toNat * scr.pixel := hline

/-- The rows of text lie on the screen. -/
theorem rows_le_bytes (hscr : Usable scr) {row : Nat}
    (hrow : row < scr.rows) :
    row * (scr.layout.height * scr.line)
      + scr.layout.height * scr.line + scr.line ≤ scr.bytes := by
  have hheight : row * 24 + 24 + 1 ≤ scr.gHeight.toNat := by
    unfold Screen.rows at hrow
    simp only [fontHeight] at hrow
    omega
  rw [bytes_eq hscr]
  calc row * (scr.layout.height * scr.line) + scr.layout.height * scr.line
        + scr.line = (row * 24 + 24 + 1) * scr.line := by
        unfold Screen.layout
        simp only [fontHeight]
        ring
    _ ≤ scr.gHeight.toNat * scr.line := Nat.mul_le_mul_right _ hheight

/-- What is in the buffer after a stretch of it has been cleared. -/
theorem storeAll_zeroMem (m : Mem) (start n : Nat)
    (stores : List (Nat × Byte)) (a : Nat) :
    storeAll m (zeroMem start n stores) a
      = if start ≤ a ∧ a < start + n then 0 else storeAll m stores a := by
  induction n with
  | zero =>
      rw [if_neg (by omega)]
      unfold zeroMem
      rw [List.range_zero, List.map_nil, List.append_nil]
  | succ n ih =>
      have hlast : zeroMem start (n + 1) stores
          = zeroMem start n stores ++ [(start + n, 0)] := by
        unfold zeroMem
        rw [List.range_succ, List.map_append, ← List.append_assoc]
        rfl
      rw [hlast, storeAll_append]
      show writeBytes (storeAll m (zeroMem start n stores)) (start + n) [0] a
        = _
      by_cases hat : a = start + n
      · subst hat
        rw [if_pos (by omega)]
        exact writeBytes_inside
          (show 0 < [(0 : Byte)].length from Nat.one_pos)
      · rw [writeBytes_outside (by simp only [List.length_singleton]; omega),
          ih]
        split
        · rw [if_pos (by omega)]
        · rw [if_neg (by omega)]

section

variable (hscr : Usable scr) (haddr : Addressable scr)

include hscr haddr

theorem pixel_lt : scr.pixel < 2 ^ 32 := by
  have hline := haddr.line_lt
  have hwidth := hscr.width_ge
  rw [Screen.line_eq] at hline
  nlinarith

theorem width_lt : scr.gWidth.toNat < 2 ^ 32 := by
  have hline := haddr.line_lt
  have hpixel := hscr.pixel_pos
  rw [Screen.line_eq] at hline
  nlinarith

/-- The stride is the width. -/
theorem stride_toNat :
    (scr.gWidth.setWidth 32).toNat = scr.gWidth.toNat := by
  rw [BitVec.toNat_setWidth]
  exact Nat.mod_eq_of_lt (width_lt hscr haddr)

/-- The bytes of a pixel. -/
theorem bpp_toNat :
    ((scr.gBpp / 8).setWidth 32).toNat = scr.pixel := by
  rw [BitVec.toNat_setWidth, bpp8_toNat]
  exact Nat.mod_eq_of_lt (pixel_lt hscr haddr)

/-- A line of text in bytes. -/
theorem textLine_toNat :
    (textLine scr).toNat = fontHeight * scr.line := by
  have hline := haddr.line_lt
  have hpixel := pixel_lt hscr haddr
  have htwelve : (BitVec.ofNat 64 fontHeight).toNat = 12 := rfl
  have hbpp : (scr.gBpp / 8 * BitVec.ofNat 64 fontHeight).toNat
      = scr.pixel * 12 := by
    rw [BitVec.toNat_mul, bpp8_toNat, htwelve]
    exact Nat.mod_eq_of_lt (by unfold Screen.pixel at hpixel; omega)
  have hprod : scr.pixel * 12 * scr.gWidth.toNat = fontHeight * scr.line := by
    rw [Screen.line_eq]
    simp only [fontHeight]
    ring
  unfold textLine
  rw [BitVec.toNat_mul, hbpp, hprod]
  refine Nat.mod_eq_of_lt ?_
  simp only [fontHeight]
  omega

/-- A row of text in bytes. -/
theorem textRow_toNat :
    (textLine scr * scaleFactor.setWidth 64).toNat
      = scr.layout.height * scr.line := by
  have hline := haddr.line_lt
  have htwo : (scaleFactor.setWidth 64).toNat = 2 := rfl
  have hprod : fontHeight * scr.line * 2
      = scr.layout.height * scr.line := by
    unfold Screen.layout
    ring
  rw [BitVec.toNat_mul, textLine_toNat hscr haddr, htwo, ← hprod]
  refine Nat.mod_eq_of_lt ?_
  simp only [fontHeight]
  omega

/-- Where a row of text starts. -/
theorem lineOffset_eq {row : Nat} (hrow : row < scr.rows) :
    lineOffset scr (2 * row) = row * (scr.layout.height * scr.line) := by
  have hfit := rows_le_bytes hscr hrow
  have hbytes := haddr.bytes_le
  have hpos := hscr.line_pos
  have hprod : 2 * row * (fontHeight * scr.line)
      = row * (scr.layout.height * scr.line) := by
    unfold Screen.layout
    ring
  have hrowLt : 2 * row < 2 ^ 64 := by
    have hle : row ≤ row * (scr.layout.height * scr.line) :=
      Nat.le_mul_of_pos_right row (Nat.mul_pos scr.height_pos hpos)
    have hheight := scr.gHeight.isLt
    unfold Screen.rows at hrow
    simp only [fontHeight] at hrow
    omega
  have hto : (BitVec.ofInt 64 (2 * (row : Int))).toNat = 2 * row := by
    have hcast : 2 * (row : Int) = ((2 * row : Nat) : Int) := by
      push_cast
      rfl
    rw [hcast, BitVec.ofInt_natCast, BitVec.toNat_ofNat]
    exact Nat.mod_eq_of_lt hrowLt
  unfold lineOffset
  rw [BitVec.toNat_mul, hto, textLine_toNat hscr haddr, hprod]
  exact Nat.mod_eq_of_lt (by omega)

/-- A character is drawn where its cell is. -/
theorem charOffset_eq {pos : FbconPosition} {row col : Nat}
    (hrow : row < scr.rows) (hcol : col < scr.cols) (hx : pos.x = col)
    (hy : pos.y = 2 * row) :
    charOffset scr scaleFactor pos = scr.layout.cellStart row col := by
  have hcell := cell_le_line hcol
  have hline := haddr.line_lt
  have hpixel := pixel_lt hscr haddr
  have hwidth := width_lt hscr haddr
  have hcolLt : col < 2 ^ 32 := by
    unfold Screen.cols at hcol
    simp only [fontWidth] at hcol
    omega
  have hto : (BitVec.ofInt 64 (col : Int)).toNat = col := by
    rw [BitVec.ofInt_natCast, BitVec.toNat_ofNat]
    exact Nat.mod_eq_of_lt (by omega)
  have hscale : (scaleFactor.setWidth 64).toNat = 2 := rfl
  have hsix : (BitVec.ofNat 64 fontWidth + 1).toNat = 6 := rfl
  have hleft : (BitVec.ofInt 64 (col : Int)
      * scaleFactor.setWidth 64).toNat = col * 2 := by
    rw [BitVec.toNat_mul, hto, hscale]
    exact Nat.mod_eq_of_lt (by omega)
  have hright : (scr.gBpp / 8
      * (BitVec.ofNat 64 fontWidth + 1)).toNat = scr.pixel * 6 := by
    rw [BitVec.toNat_mul, bpp8_toNat, hsix]
    exact Nat.mod_eq_of_lt (by unfold Screen.pixel at hpixel; omega)
  have hprod : col * 2 * (scr.pixel * 6) = col * scr.layout.width := by
    unfold Screen.layout
    simp only [fontWidth]
    ring
  have hlt : col * scr.layout.width < 2 ^ 64 := by
    have hlayout : scr.layout.line = scr.line := rfl
    omega
  unfold charOffset Layout.cellStart
  rw [hx, hy, lineOffset_eq hscr haddr hrow, BitVec.toNat_mul, hleft, hright,
    hprod, Nat.mod_eq_of_lt hlt]
  rfl

/-- The coordinates of a byte of a pixel of a glyph. -/
theorem pixel_coords {row col r x k : Nat} (hcol : col < scr.cols)
    (hr : r < fontHeight * scaleFactor.toNat)
    (hx : x < fontWidth * scaleFactor.toNat) (hk : k < scr.pixel) :
    let a := pixelAt (scr.layout.cellStart row col)
      (scr.gWidth.setWidth 32) ((scr.gBpp / 8).setWidth 32) r x + k
    scr.layout.rowOf a = row ∧ scr.layout.lineOf a = r
      ∧ scr.layout.colOf a = col
      ∧ scr.layout.offsetOf a = x * scr.pixel + k := by
  intro a
  have hcell := cell_le_line hcol
  have hplace : a = scr.layout.cellStart row col
      + (r * scr.layout.line + (x * scr.pixel + k)) := by
    show pixelAt _ _ _ r x + k = scr.layout.cellStart row col
      + (r * (scr.gWidth.toNat * scr.pixel) + (x * scr.pixel + k))
    unfold pixelAt
    rw [stride_toNat hscr haddr, bpp_toNat hscr haddr]
    ring
  have hheight : r < scr.layout.height := by
    show r < 2 * fontHeight
    rw [scaleFactor_toNat] at hr
    omega
  have hwide : x * scr.pixel + k < scr.layout.width :=
    Nat.lt_of_lt_of_le (stretch_lt hx hk)
      (Nat.mul_le_mul_right _ (by decide))
  have hline : col * scr.layout.width + (x * scr.pixel + k)
      < scr.layout.line := by omega
  rw [hplace]
  exact Layout.place_coords hheight hwide hline

/-- A cell with a glyph holds it. -/
theorem cellHolds_shown {t : Terminal Drawn} {g : Drawn} {row col : Nat}
    (hcol : col < scr.cols) (hcell : (t.text row).cells col = some g)
    (m : Mem) :
    CellHolds g.color (scr.layout.cellStart row col)
      (scr.gWidth.setWidth 32) ((scr.gBpp / 8).setWidth 32)
      (scr.glyph g.char) scaleFactor (scr.shown m t) := by
  intro r hr x hx k hk
  rw [bpp_toNat hscr haddr] at hk
  obtain ⟨hrowOf, hlineOf, hcolOf, hoffset⟩ :=
    pixel_coords hscr haddr hcol hr hx hk
  have hin : x * scr.pixel + k < fontWidth * (2 * scr.pixel) := by
    rw [← Nat.mul_assoc]
    exact stretch_lt hx hk
  have hdiv : (x * scr.pixel + k) / (2 * scr.pixel) = x / 2 := by
    rw [Nat.mul_comm 2, ← Nat.div_div_eq_div_mul, Nat.mul_comm x,
      Nat.mul_add_div hscr.pixel_pos, Nat.div_eq_of_lt hk, Nat.add_zero]
  have hmod : (x * scr.pixel + k) % scr.pixel = k :=
    Nat.mul_add_mod_of_lt hk
  unfold Screen.shown render
  rw [hrowOf, hcolOf, hcell, hlineOf, hoffset]
  have hcovers : scr.painter.covers (x * scr.pixel + k) = true :=
    decide_eq_true hin
  unfold Painter.over
  dsimp only
  rw [if_pos hcovers]
  unfold Screen.painter
  dsimp only
  rw [hdiv, hmod]
  rfl

/-- What is in the buffer after a glyph. -/
theorem storeAll_drawChar {s : FbState} {row col : Nat}
    (hrow : row < scr.rows) (hcol : col < scr.cols)
    (hx : s.position.x = col) (hy : s.position.y = 2 * row) (c : UINT8)
    (m : Mem) (a : Nat) :
    storeAll m (drawChar scr scaleFactor c s).stores a
      = if scr.layout.rowOf a = row ∧ scr.layout.colOf a = col then
          scr.painter.over (some ⟨c, s.color⟩) (scr.layout.lineOf a)
            (scr.layout.offsetOf a) (storeAll m s.stores a)
        else storeAll m s.stores a := by
  have hstride := stride_toNat hscr haddr
  have hbpp := bpp_toNat hscr haddr
  have hwidth := hscr.width_ge
  have hcell := cell_le_line hcol
  have hlines : MakesLine (scr.gWidth.setWidth 32)
      ((scr.gBpp / 8).setWidth 32) scaleFactor
      ((scr.gWidth.setWidth 32).toNat
        * ((scr.gBpp / 8).setWidth 32).toNat) := by
    have hle : (scr.gWidth.toNat - fontWidth * scaleFactor.toNat)
        * scr.pixel ≤ scr.line :=
      Nat.mul_le_mul_right _ (Nat.sub_le ..)
    refine makesLine_of_lt ?_ ?_
    · rw [hstride]
      exact Nat.le_trans (by decide) hwidth
    · rw [hstride, hbpp]
      exact Nat.lt_of_le_of_lt hle haddr.line_lt
  rw [drawChar_stores, charOffset_eq hscr haddr hrow hcol hx hy]
  split
  next hat =>
    -- a place of the cell
    have hoffset : scr.layout.offsetOf a < scr.layout.line :=
      Nat.lt_of_lt_of_le (Layout.offsetOf_lt (Nat.mul_pos (by decide)
        hscr.pixel_pos) a) (by omega)
    have hlineOf : scr.layout.lineOf a
        < fontHeight * scaleFactor.toNat :=
      Layout.lineOf_lt hscr.line_pos scr.height_pos a
    have hplace := scr.layout.place_eq a
    rw [hat.1, hat.2] at hplace
    have hmakes := hlines
    rw [hstride, hbpp, ← Screen.line_eq] at hmakes
    have hstored := storeAll_at hmakes (by decide) s.color
      (scr.layout.cellStart row col) (scr.glyph c) s.stores m hlineOf hoffset
    have hback : scr.layout.cellStart row col
        + (scr.layout.lineOf a * scr.line + scr.layout.offsetOf a) = a :=
      hplace.symm
    rw [hback, hbpp, scaleFactor_toNat] at hstored
    refine hstored.trans ?_
    unfold Painter.over Screen.painter
    simp only [decide_eq_true_eq]
  next hnot =>
    -- no place of the cell
    refine cellFrame_fbConDrawglyph hlines (by decide) s.color _ _ s.stores
      m a ?_
    rintro r hr x hx k hk rfl
    rw [hbpp] at hk
    obtain ⟨hrowOf, -, hcolOf, -⟩ :=
      pixel_coords hscr haddr hcol hr hx hk
    exact hnot ⟨hrowOf, hcolOf⟩

end

end Edk2Exynos.FrameBuffer
