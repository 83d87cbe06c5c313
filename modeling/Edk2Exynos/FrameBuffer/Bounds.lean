/-
What the framebuffer console stores lies inside the framebuffer.

# Strokes

The nest of loops in `FbConDrawglyph` is bounded from the inside out: a
pixel, a cell, a line of the screen (`moves_line`), where the advance
after the cells completes the line. The 32-bit lengths may wrap, to
something smaller. A glyph is 24 lines.

# The cursor

`CursorOk` is kept by every character: the line of text that starts at
the cursor ends a text line above the last one that fits, and the column
leaves room for a cell. The text line to spare pays for the column, so a
glyph's bound is 24 lines from the end of the one it starts in.

# Starting over

After a wrap the cursor is at the top left, where no newline wraps and no
column is the last: a second pass through `paint` always ends
(`paint_ok`).
-/
import Edk2Exynos.FrameBuffer.Console

namespace Edk2Exynos.FrameBuffer

open Lib

-- ============================================================= the screen

/-- A screen the console is meant for. -/
structure Usable (scr : Screen) : Prop where
  width : 2 * (fontWidth + 1) * scaleFactor.toNat ≤ scr.gWidth.toNat
  height : 2 * scaleFactor.toNat < (scr.gHeight.toNat - 1) / fontHeight
  bpp_pos : 0 < scr.gBpp.toNat
  bpp_dvd : 8 ∣ scr.gBpp.toNat

/-- The size of the framebuffer in bytes. -/
def Screen.bytes (scr : Screen) : Nat :=
  scr.gWidth.toNat * scr.gHeight.toNat * scr.gBpp.toNat / 8

/-- A line of the screen in bytes. -/
def Screen.line (scr : Screen) : Nat :=
  scr.gWidth.toNat * (scr.gBpp.toNat / 8)

variable {scr : Screen}

/-- The framebuffer has as many bytes as its lines. -/
theorem bytes_eq (h : Usable scr) :
    scr.bytes = scr.gHeight.toNat * scr.line := by
  unfold Screen.bytes Screen.line
  rw [Nat.mul_div_assoc _ h.bpp_dvd]
  ring

@[simp] theorem scaleFactor_toNat : scaleFactor.toNat = 2 := rfl

/-- A product of words is at most that of their values. -/
theorem toNat_mul_le {w : Nat} (x y : BitVec w) :
    (x * y).toNat ≤ x.toNat * y.toNat := by
  rw [BitVec.toNat_mul]
  exact Nat.mod_le _ _

@[simp] theorem bpp8_toNat (scr : Screen) :
    (scr.gBpp / 8).toNat = scr.gBpp.toNat / 8 := by
  simp

-- ============================================================= strokes

/-- A pixel moves the pen over its bytes. -/
theorem moves_drawPixel (n : Nat) : ∀ color : UINT32,
    Moves n (drawPixel color n) := by
  induction n with
  | zero => exact fun _ => moves_id
  | succ k ih =>
      intro color
      have hseq := (moves_put (color.setWidth 8)).seq (ih (color >>> 8))
      exact hseq.mono (Nat.le_of_eq (Nat.add_comm 1 k))

/-- A cell of the glyph moves the pen over its pixels. -/
theorem moves_drawCell (color bpp scale : UINT32) :
    Moves (scale.toNat * bpp.toNat) (drawCell color bpp scale) :=
  (moves_drawPixel bpp.toNat color).iterate scale.toNat

/-- A cell that is passed over moves the pen as far. -/
theorem moves_skipCell (bpp scale : UINT32) :
    Moves (scale.toNat * bpp.toNat) (skipCell bpp scale) :=
  (moves_skip bpp.toNat).iterate scale.toNat

/-- The columns of a line move the pen over their cells. -/
theorem moves_glyphColumns (foreground bpp scale : UINT32) (n : Nat) :
    ∀ data, Moves (n * (scale.toNat * bpp.toNat))
      (fun p => (glyphColumns foreground bpp scale n data p).2) := by
  induction n with
  | zero => exact fun _ => moves_id.mono (Nat.zero_le _)
  | succ x ih =>
      intro data
      unfold glyphColumns
      rw [Nat.succ_mul, Nat.add_comm]
      split
      · exact (moves_drawCell foreground bpp scale).seq (ih (data >>> 1))
      · exact (moves_skipCell bpp scale).seq (ih (data >>> 1))

section

variable {stride bpp scale : UINT32} {line : Nat}

/-- The cells of a line and the advance after them make a line. -/
def FillsLine (stride bpp scale : UINT32) (line : Nat) : Prop :=
  fontWidth * (scale.toNat * bpp.toNat) + lineAdvance stride bpp scale
    ≤ line

/-- The background moves the pen over half of the lines. -/
theorem moves_drawBackground (h : FillsLine stride bpp scale line)
    (background : UINT32) :
    Moves (fontHeight / 2 * (scale.toNat * line))
      (drawBackground background stride bpp scale) := by
  have hcells := (moves_drawCell background bpp scale).iterate fontWidth
  have hline := (hcells.seq
    (moves_skip (lineAdvance stride bpp scale))).mono h
  exact (hline.iterate scale.toNat).iterate (fontHeight / 2)

/-- A line of the glyph moves the pen over its repetitions. -/
theorem moves_glyphLines (h : FillsLine stride bpp scale line)
    (foreground temp : UINT32) (n : Nat) : ∀ data, Moves (n * line)
      (fun p =>
        (glyphLines foreground stride bpp scale temp n data p).2) := by
  induction n with
  | zero => exact fun _ => moves_id.mono (Nat.zero_le _)
  | succ i ih =>
      intro data p
      have hline := ((moves_glyphColumns foreground bpp scale fontWidth
        temp).seq (moves_skip (lineAdvance stride bpp scale))).mono h
      rw [Nat.succ_mul, Nat.add_comm (i * line)]
      exact (hline.seq
        (ih (glyphColumns foreground bpp scale fontWidth temp p).1)) p

/-- Half of the glyph moves the pen over half of the lines. -/
theorem moves_drawHalf (h : FillsLine stride bpp scale line)
    (foreground : UINT32) (n : Nat) : ∀ data,
      Moves (n * (scale.toNat * line))
        (fun p => (drawHalf foreground stride bpp scale n data p).2) := by
  induction n with
  | zero => exact fun _ => moves_id.mono (Nat.zero_le _)
  | succ y ih =>
      intro data p
      have hlines :=
        moves_glyphLines h foreground data scale.toNat data
      rw [Nat.succ_mul, Nat.add_comm (y * _)]
      exact (hlines.seq (ih (glyphLines foreground stride bpp scale data
        scale.toNat data p).1)) p

/-- A glyph stores within its lines. -/
theorem fbConDrawglyph_stores (h : FillsLine stride bpp scale line)
    {P : Nat → Prop} {pixels : Nat} {stores : List (Nat × Byte)}
    (hstores : ∀ st ∈ stores, P st.1)
    (hin : ∀ i, i < pixels + fontHeight * (scale.toNat * line) → P i)
    (color : FbconColor) (glyph : Nat → UINT32) :
    ∀ st ∈ fbConDrawglyph color pixels stride bpp glyph scale stores,
      P st.1 := by
  have htwo : fontHeight * (scale.toNat * line)
      = 2 * (fontHeight / 2 * (scale.toNat * line)) := by
    simp only [fontHeight]
    ring
  rw [htwo] at hin
  have hbg := ((moves_drawBackground h
    (color.background.setWidth 32)).iterate 2).stores (p := ⟨pixels, stores⟩)
      hstores hin
  have hfg := fun p => ((moves_drawHalf h (color.foreground.setWidth 32)
    (fontHeight / 2) (glyph 0)).seq
      (moves_drawHalf h (color.foreground.setWidth 32) (fontHeight / 2)
        (glyph 1))).stores (P := P) (p := p)
  unfold fbConDrawglyph
  refine hfg ⟨pixels, _⟩ hbg ?_
  intro i hi
  have hlt : i < pixels + (fontHeight / 2 * (scale.toNat * line)
      + fontHeight / 2 * (scale.toNat * line)) := hi
  apply hin
  omega

end

-- ============================================================ the cursor

/-- The 32-bit lengths of a glyph on a screen add up to a line at most. -/
theorem fillsLine (h : Usable scr) :
    FillsLine (scr.gWidth.setWidth 32) ((scr.gBpp / 8).setWidth 32)
      scaleFactor scr.line := by
  have hwidth := h.width
  simp only [fontWidth, scaleFactor_toNat] at hwidth
  have hbpp : ((scr.gBpp / 8).setWidth 32).toNat ≤ scr.gBpp.toNat / 8 := by
    rw [BitVec.toNat_setWidth, bpp8_toNat]
    exact Nat.mod_le _ _
  have hstride : (scr.gWidth.setWidth 32
      - BitVec.ofNat 32 fontWidth * scaleFactor).toNat
      ≤ scr.gWidth.toNat - 10 := by
    have hten : (BitVec.ofNat 32 fontWidth * scaleFactor).toNat = 10 := rfl
    rw [BitVec.toNat_sub, hten, BitVec.toNat_setWidth]
    omega
  have hadvance : lineAdvance (scr.gWidth.setWidth 32)
      ((scr.gBpp / 8).setWidth 32) scaleFactor
      ≤ (scr.gWidth.toNat - 10) * (scr.gBpp.toNat / 8) :=
    (toNat_mul_le _ _).trans (Nat.mul_le_mul hstride hbpp)
  have hcells : fontWidth
      * (scaleFactor.toNat * ((scr.gBpp / 8).setWidth 32).toNat)
      ≤ 10 * (scr.gBpp.toNat / 8) := by
    simp only [fontWidth, scaleFactor_toNat]
    omega
  have hsum : scr.gWidth.toNat = 10 + (scr.gWidth.toNat - 10) := by omega
  unfold FillsLine Screen.line
  calc _ ≤ 10 * (scr.gBpp.toNat / 8)
        + (scr.gWidth.toNat - 10) * (scr.gBpp.toNat / 8) :=
      Nat.add_le_add hcells hadvance
    _ = scr.gWidth.toNat * (scr.gBpp.toNat / 8) := by
      rw [← Nat.add_mul, ← hsum]

/-- Where the cursor may be. -/
structure CursorOk (scr : Screen) (s : FbState) : Prop where
  x_nonneg : 0 ≤ s.position.x
  y_nonneg : 0 ≤ s.position.y
  room : s.position.x = 0 ∨ s.position.x < castInt (s.maxPosition.x / 2)
  above : s.position.y < s.maxPosition.y - 2
  maxX : s.maxPosition.x = (scr.gWidth.toNat / (fontWidth + 1) : Nat)
  maxY : s.maxPosition.y = ((scr.gHeight.toNat - 1) / fontHeight : Nat)

/-- Where the cursor may be when its column does not matter. -/
structure RowOk (scr : Screen) (s : FbState) : Prop where
  y_nonneg : 0 ≤ s.position.y
  above : s.position.y < s.maxPosition.y - 2
  maxX : s.maxPosition.x = (scr.gWidth.toNat / (fontWidth + 1) : Nat)
  maxY : s.maxPosition.y = ((scr.gHeight.toNat - 1) / fontHeight : Nat)

/-- A cursor on the screen is in a row of it. -/
theorem CursorOk.rowOk {s : FbState} (h : CursorOk scr s) : RowOk scr s :=
  ⟨h.y_nonneg, h.above, h.maxX, h.maxY⟩

/-- Every store so far is inside the framebuffer. -/
def Inside (scr : Screen) (s : FbState) : Prop :=
  ∀ st ∈ s.stores, st.1 < scr.bytes

/-- A number cut to a word is at most itself. -/
theorem ofInt_toNat_le {w : Nat} {x : Int} (h : 0 ≤ x) :
    (BitVec.ofInt w x).toNat ≤ x.toNat := by
  obtain ⟨n, rfl⟩ := Int.eq_ofNat_of_zero_le h
  rw [BitVec.ofInt_natCast, BitVec.toNat_ofNat, Int.toNat_natCast]
  exact Nat.mod_le _ _

/-- A number cut to an `int` is at most itself. -/
theorem castInt_le {x : Int} (h : 0 ≤ x) : castInt x ≤ x := by
  have hle := ofInt_toNat_le (w := 32) h
  unfold castInt
  have hto : (BitVec.ofInt 32 x).toInt ≤ (BitVec.ofInt 32 x).toNat := by
    rw [BitVec.toInt_eq_toNat_cond]
    split <;> omega
  omega

/-- A row of text has at most its lines. -/
theorem textLine_toNat_le (scr : Screen) :
    (textLine scr).toNat ≤ fontHeight * scr.line := by
  unfold textLine
  have hbpp : (scr.gBpp / 8 * BitVec.ofNat 64 fontHeight).toNat
      ≤ scr.gBpp.toNat / 8 * fontHeight := by
    refine (toNat_mul_le _ _).trans ?_
    rw [bpp8_toNat]
    exact Nat.le_refl _
  calc _ ≤ scr.gBpp.toNat / 8 * fontHeight * scr.gWidth.toNat :=
      (toNat_mul_le _ _).trans (Nat.mul_le_mul_right _ hbpp)
    _ = fontHeight * scr.line := by
      unfold Screen.line
      ring

/-- A row begins at most behind the rows above it. -/
theorem lineOffset_le (scr : Screen) {y : Int} (h : 0 ≤ y) :
    lineOffset scr y ≤ y.toNat * (fontHeight * scr.line) :=
  (toNat_mul_le _ _).trans
    (Nat.mul_le_mul (ofInt_toNat_le h) (textLine_toNat_le scr))

/-- The column leaves room for a cell in the line. -/
theorem column_le {s : FbState} (hscr : Usable scr)
    (h : CursorOk scr s) :
    (s.position.x.toNat + 1) * (2 * (fontWidth + 1))
      ≤ scr.gWidth.toNat := by
  have hwidth := hscr.width
  have hx := h.x_nonneg
  have hmax := h.maxX
  simp only [fontWidth, scaleFactor_toNat] at hwidth hmax ⊢
  rcases h.room with hzero | hroom
  · rw [hzero]
    simp only [Int.toNat_zero]
    omega
  · have hcast := castInt_le (x := s.maxPosition.x / 2) (by omega)
    omega

/-- A character begins in its row. -/
theorem charOffset_le {s : FbState} (hscr : Usable scr)
    (h : CursorOk scr s) :
    charOffset scr scaleFactor s.position
      ≤ s.position.y.toNat * (fontHeight * scr.line) + scr.line := by
  have hline := lineOffset_le scr h.y_nonneg
  have hcolumn := column_le hscr h
  have hx : (BitVec.ofInt 64 s.position.x
      * scaleFactor.setWidth 64).toNat ≤ s.position.x.toNat * 2 :=
    (toNat_mul_le _ _).trans
      (Nat.mul_le_mul (ofInt_toNat_le h.x_nonneg) (Nat.le_refl _))
  have hcell : (scr.gBpp / 8 * (BitVec.ofNat 64 fontWidth + 1)).toNat
      ≤ scr.gBpp.toNat / 8 * (fontWidth + 1) := by
    refine (toNat_mul_le _ _).trans ?_
    rw [bpp8_toNat]
    exact Nat.le_refl _
  unfold charOffset
  refine Nat.add_le_add hline ?_
  calc _ ≤ s.position.x.toNat * 2
        * (scr.gBpp.toNat / 8 * (fontWidth + 1)) :=
      (toNat_mul_le _ _).trans (Nat.mul_le_mul hx hcell)
    _ = s.position.x.toNat * (2 * (fontWidth + 1))
        * (scr.gBpp.toNat / 8) := by ring
    _ ≤ scr.line := by
      unfold Screen.line
      apply Nat.mul_le_mul_right
      nlinarith

/-- The lines of text from `y` on and one more line fit the screen. -/
theorem lines_le_bytes {s : FbState} (hscr : Usable scr)
    (h : RowOk scr s) {y : Int} (hy : 0 ≤ y)
    (habove : y < s.maxPosition.y - 2) :
    y.toNat * (fontHeight * scr.line) + scr.line
      + fontHeight * (2 * scr.line) ≤ scr.bytes := by
  rw [bytes_eq hscr]
  have hheight : y.toNat * 12 + 1 + 12 * 2 ≤ scr.gHeight.toNat := by
    have hmax := h.maxY
    simp only [fontHeight] at hmax
    omega
  simp only [fontHeight]
  nlinarith

-- ========================================================== a character

/-- What drawing a character stores. -/
theorem drawChar_stores (c : UINT8) (s : FbState) :
    (drawChar scr scaleFactor c s).stores
      = fbConDrawglyph s.color (charOffset scr scaleFactor s.position)
          (scr.gWidth.setWidth 32) ((scr.gBpp / 8).setWidth 32)
          (fun i => scr.font5x12 ((c.toNat - 32) * 2 + i)) scaleFactor
          s.stores := rfl

/-- Drawing a character stays inside. -/
theorem drawChar_inside {s : FbState} (hscr : Usable scr)
    (h : CursorOk scr s) (hin : Inside scr s) (c : UINT8) :
    Inside scr (drawChar scr scaleFactor c s) := by
  have hoffset := charOffset_le hscr h
  have hfit := lines_le_bytes hscr h.rowOk h.y_nonneg h.above
  have hglyph : ∀ i, i < charOffset scr scaleFactor s.position
      + fontHeight * (scaleFactor.toNat * scr.line) → i < scr.bytes := by
    intro i hi
    rw [scaleFactor_toNat] at hi
    omega
  unfold Inside
  rw [drawChar_stores]
  exact fbConDrawglyph_stores (fillsLine hscr) (P := (· < scr.bytes)) hin
    hglyph s.color _

/-- The interrupt state bears on neither. -/
theorem restoreInterrupts_ok {s : FbState}
    (h : CursorOk scr s ∧ Inside scr s) (intstate : Bool) :
    CursorOk scr (restoreInterrupts intstate s)
      ∧ Inside scr (restoreInterrupts intstate s) := by
  unfold restoreInterrupts
  split
  · obtain ⟨⟨hx, hy, hroom, habove, hmaxX, hmaxY⟩, hin⟩ := h
    exact ⟨⟨hx, hy, hroom, habove, hmaxX, hmaxY⟩, hin⟩
  · exact h

@[simp] theorem restoreInterrupts_position (intstate : Bool)
    (s : FbState) :
    (restoreInterrupts intstate s).position = s.position := by
  unfold restoreInterrupts
  split <;> rfl

/-- At the top of the screen there is room below. -/
theorem top_above {s : FbState} (hscr : Usable scr) (h : RowOk scr s) :
    4 < s.maxPosition.y := by
  have hheight := hscr.height
  rw [scaleFactor_toNat] at hheight
  rw [h.maxY]
  omega

/-- Clearing a text line of two lines stays inside. -/
theorem zeroMem_inside {s : FbState} (hscr : Usable scr)
    (h : RowOk scr s) (hin : Inside scr s) {y : Int} (hy : 0 ≤ y)
    (habove : y < s.maxPosition.y - 2) :
    ∀ st ∈ zeroMem (lineOffset scr y)
      (textLine scr * scaleFactor.setWidth 64).toNat s.stores,
      st.1 < scr.bytes := by
  have hfit := lines_le_bytes hscr h hy habove
  have hline := lineOffset_le scr hy
  have hlen : (textLine scr * scaleFactor.setWidth 64).toNat
      ≤ fontHeight * (2 * scr.line) := by
    refine (toNat_mul_le _ _).trans ?_
    calc _ ≤ fontHeight * scr.line * 2 :=
        Nat.mul_le_mul (textLine_toNat_le scr) (Nat.le_refl _)
      _ = fontHeight * (2 * scr.line) := by ring
  intro st hst
  rcases List.mem_append.mp hst with hst | hst
  · exact hin st hst
  · obtain ⟨i, hi, rfl⟩ := List.mem_map.mp hst
    have hlt := List.mem_range.mp hi
    show lineOffset scr y + i < scr.bytes
    omega

/-- A newline goes on to a line that fits, or starts over at the top, and
that not from the top itself. -/
theorem newline_ok {s : FbState} (hscr : Usable scr) (h : RowOk scr s)
    (hin : Inside scr s) (intstate : Bool) :
    (CursorOk scr (newline scr scaleFactor intstate s).2
      ∧ Inside scr (newline scr scaleFactor intstate s).2)
      ∧ ((newline scr scaleFactor intstate s).1 = true →
        (newline scr scaleFactor intstate s).2.position = ⟨0, 0⟩
          ∧ s.position.y ≠ 0) := by
  have htop := top_above hscr h
  have hy := h.y_nonneg
  by_cases hwrap : s.maxPosition.y - (scaleFactor.toNat : Int)
      ≤ s.position.y + scaleFactor.toNat
  · have heq : newline scr scaleFactor intstate s = (true,
        restoreInterrupts intstate { s with position := ⟨0, 0⟩ }) :=
      if_pos hwrap
    have hstart : (0 : Int) < s.maxPosition.y - 2 := by omega
    have hcursor : CursorOk scr { s with position := ⟨0, 0⟩ } :=
      ⟨Int.le_refl 0, Int.le_refl 0, Or.inl rfl, hstart, h.maxX, h.maxY⟩
    rw [heq]
    refine ⟨restoreInterrupts_ok ⟨hcursor, hin⟩ intstate, fun _ =>
      ⟨restoreInterrupts_position _ _, ?_⟩⟩
    rw [scaleFactor_toNat] at hwrap
    omega
  · have heq : newline scr scaleFactor intstate s = (false,
        restoreInterrupts intstate
          { s with
            position := ⟨0, s.position.y + scaleFactor.toNat⟩
            stores := zeroMem
              (lineOffset scr (s.position.y + scaleFactor.toNat))
              (textLine scr * scaleFactor.setWidth 64).toNat s.stores }) :=
      if_neg hwrap
    rw [scaleFactor_toNat] at hwrap
    have hnext : 0 ≤ s.position.y + (scaleFactor.toNat : Int) := by
      rw [scaleFactor_toNat]
      omega
    have habove : s.position.y + (scaleFactor.toNat : Int)
        < s.maxPosition.y - 2 := by
      rw [scaleFactor_toNat]
      omega
    have hclear := zeroMem_inside hscr h hin hnext habove
    have hcursor : CursorOk scr { s with
        position := ⟨0, s.position.y + scaleFactor.toNat⟩
        stores := zeroMem (lineOffset scr (s.position.y + scaleFactor.toNat))
          (textLine scr * scaleFactor.setWidth 64).toNat s.stores } :=
      ⟨Int.le_refl 0, hnext, Or.inl rfl, habove, h.maxX, h.maxY⟩
    rw [heq]
    exact ⟨restoreInterrupts_ok ⟨hcursor, hclear⟩ intstate,
      fun hflag => by cases hflag⟩

section

variable (msgType : FbConMsgType) (c : UINT8)

/-- The way back to `paint`, from a newline that may have wrapped. -/
def paintAgain (scr : Screen) (fuel : Nat) (intstate : Bool)
    (r : Bool × FbState) : Option FbState :=
  if r.1 then paint scr msgType scaleFactor c fuel intstate r.2
  else some r.2

/-- A turn of `paint`: the character is passed over, is a control character,
or is drawn. -/
theorem paint_succ (fuel : Nat) (intstate : Bool) (s : FbState) :
    paint scr msgType scaleFactor c (fuel + 1) intstate s
      = if 127 < c.toNat then some s
        else if c.toNat < 32 then
          if c = 10 then paintAgain msgType c scr fuel intstate
            (newline scr scaleFactor intstate s)
          else if c = 13 then
            some { s with position := { s.position with x := 0 } }
          else some s
        else if s.position.x = 0 ∧ c = 32 ∧ msgType ≠ .subtitleMsg
            ∧ msgType ≠ .titleMsg then
          some s
        else if lineFull scaleFactor (drawChar scr scaleFactor c s) then
          paintAgain msgType c scr fuel s.interrupts (newline scr scaleFactor
            s.interrupts (drawChar scr scaleFactor c s))
        else some (restoreInterrupts s.interrupts
          (drawChar scr scaleFactor c s)) := rfl

/-- What drawing, a newline and a carriage return keep, a character
keeps. -/
theorem paint_keeps (P : FbState → Prop)
    (hdraw : ∀ s, P s → P (drawChar scr scaleFactor c s))
    (hnewline : ∀ intstate s, P s → P (newline scr scaleFactor intstate s).2)
    (hreturn : ∀ s, P s → P { s with position := { s.position with x := 0 } })
    (hrestore : ∀ intstate s, P s → P (restoreInterrupts intstate s))
    (fuel : Nat) :
    ∀ {intstate : Bool} {s s' : FbState},
      paint scr msgType scaleFactor c fuel intstate s = some s' →
      P s → P s' := by
  induction fuel with
  | zero =>
      intro _ _ _ h
      cases h
  | succ fuel ih =>
      intro intstate s s' h hs
      have hagain : ∀ {intstate : Bool} {s₁ : FbState},
          paintAgain msgType c scr fuel intstate
            (newline scr scaleFactor intstate s₁) = some s' →
          P s₁ → P s' := by
        intro intstate s₁ h h₁
        unfold paintAgain at h
        split at h
        · exact ih h (hnewline intstate s₁ h₁)
        · cases h
          exact hnewline intstate s₁ h₁
      rw [paint_succ] at h
      split at h
      · cases h
        exact hs
      split at h
      · split at h
        · exact hagain h hs
        split at h
        · cases h
          exact hreturn s hs
        · cases h
          exact hs
      split at h
      · cases h
        exact hs
      split at h
      · exact hagain h (hdraw s hs)
      · cases h
        exact hrestore _ _ (hdraw s hs)

/-- A pass through `paint` from text line `y` ends with the cursor in
place, or starts over at the top and that not from there. -/
def Continues (scr : Screen) (fuel : Nat) (y : Int) (r : Option FbState) :
    Prop :=
  (∃ s', r = some s' ∧ CursorOk scr s' ∧ Inside scr s')
  ∨ ∃ intstate s', r = paint scr msgType scaleFactor c fuel intstate s'
    ∧ (CursorOk scr s' ∧ Inside scr s')
    ∧ s'.position = ⟨0, 0⟩ ∧ y ≠ 0

/-- A newline keeps the cursor on the screen and stores inside. -/
theorem newline_continues {s : FbState} (hscr : Usable scr)
    (h : RowOk scr s) (hin : Inside scr s) (fuel : Nat)
    (intstate : Bool) :
    Continues msgType c scr fuel s.position.y
      (paintAgain msgType c scr fuel intstate
        (newline scr scaleFactor intstate s)) := by
  obtain ⟨hnew, hflag⟩ := newline_ok hscr h hin intstate
  unfold paintAgain
  split
  next hwrap =>
    obtain ⟨hpos, hne⟩ := hflag hwrap
    exact Or.inr ⟨intstate, _, rfl, hnew, hpos, hne⟩
  next => exact Or.inl ⟨_, rfl, hnew⟩

/-- A turn of `paint` keeps the cursor on the screen and stores inside. -/
theorem paint_continues {s : FbState} (hscr : Usable scr)
    (h : CursorOk scr s ∧ Inside scr s) (fuel : Nat) (intstate : Bool) :
    Continues msgType c scr fuel s.position.y
      (paint scr msgType scaleFactor c (fuel + 1) intstate s) := by
  obtain ⟨hok, hin⟩ := h
  have hsame : Continues msgType c scr fuel s.position.y (some s) :=
    Or.inl ⟨s, rfl, hok, hin⟩
  rw [paint_succ]
  split
  · exact hsame
  split
  · split
    · exact newline_continues msgType c hscr hok.rowOk hin fuel intstate
    split
    · -- a carriage return
      have hcursor : CursorOk scr
          { s with position := { s.position with x := 0 } } :=
        ⟨Int.le_refl 0, hok.y_nonneg, Or.inl rfl, hok.above, hok.maxX,
          hok.maxY⟩
      exact Or.inl ⟨_, rfl, hcursor, hin⟩
    · exact hsame
  split
  · exact hsame
  have hdrawn := drawChar_inside hscr hok hin c
  split
  · have hrow : RowOk scr (drawChar scr scaleFactor c s) :=
      ⟨hok.y_nonneg, hok.above, hok.maxX, hok.maxY⟩
    exact newline_continues msgType c hscr hrow hdrawn fuel s.interrupts
  next hroom =>
    have hx : 0 ≤ s.position.x + 1 := by
      have hnonneg := hok.x_nonneg
      omega
    simp only [lineFull, decide_eq_true_eq, not_le] at hroom
    have hcursor : CursorOk scr (drawChar scr scaleFactor c s) :=
      ⟨hx, hok.y_nonneg, Or.inr hroom, hok.above, hok.maxX, hok.maxY⟩
    exact Or.inl ⟨_, rfl, restoreInterrupts_ok ⟨hcursor, hdrawn⟩ _⟩

/-- Two passes are enough: the second starts at the top. -/
theorem paint_ok {s : FbState} (hscr : Usable scr)
    (h : CursorOk scr s ∧ Inside scr s) {fuel : Nat} (hfuel : 2 ≤ fuel)
    (intstate : Bool) :
    ∃ s', paint scr msgType scaleFactor c fuel intstate s = some s'
      ∧ CursorOk scr s' ∧ Inside scr s' := by
  obtain ⟨fuel, rfl⟩ := Nat.exists_eq_add_of_le' hfuel
  rcases paint_continues msgType c hscr h (fuel + 1) intstate with
    hdone | ⟨intstate', s1, hagain, h1, hpos, -⟩
  · exact hdone
  · rcases paint_continues msgType c hscr h1 fuel intstate' with
      hdone | ⟨-, -, -, -, -, hne⟩
    · rw [hagain]
      exact hdone
    · rw [hpos] at hne
      exact absurd rfl hne

end

-- ======================================================= the serial port

section

variable {fuel : Nat} (garbage : Nat → Bool)

/-- A character is put with two turns of `paint`, and stores inside. -/
theorem fbConPutCharWithFactor_ok {s : FbState} (hscr : Usable scr)
    (h : CursorOk scr s ∧ Inside scr s) (hfuel : 2 ≤ fuel)
    (msgType : FbConMsgType) (c : UINT8) :
    ∃ s', fbConPutCharWithFactor scr msgType scaleFactor fuel garbage c s
        = some s'
      ∧ CursorOk scr s' ∧ Inside scr s' := by
  obtain ⟨⟨hx, hy, hroom, habove, hmaxX, hmaxY⟩, hin⟩ := h
  have hcounted : CursorOk scr { s with handled := s.handled + 1 }
      ∧ Inside scr { s with handled := s.handled + 1 } :=
    ⟨⟨hx, hy, hroom, habove, hmaxX, hmaxY⟩, hin⟩
  unfold fbConPutCharWithFactor
  simp only
  split
  · exact paint_ok msgType c hscr hcounted hfuel _
  · exact ⟨_, rfl, hcounted⟩

/-- So are the characters of a buffer. -/
theorem putChars_ok (hscr : Usable scr) (hfuel : 2 ≤ fuel)
    (buffer : List UINT8) : ∀ {s : FbState},
      CursorOk scr s ∧ Inside scr s →
      ∃ s', putChars scr fuel garbage buffer s = some s'
        ∧ CursorOk scr s' ∧ Inside scr s' := by
  induction buffer with
  | nil => exact fun h => ⟨_, rfl, h⟩
  | cons c buffer ih =>
      intro s h
      obtain ⟨s1, heq, h1⟩ :=
        fbConPutCharWithFactor_ok garbage hscr h hfuel .commonMsg c
      unfold putChars
      rw [heq]
      exact ih h1

/-- So are those of a `SerialPortWrite`. -/
theorem serialPortWrite_ok {s : FbState} (hscr : Usable scr)
    (hfuel : 2 ≤ fuel) (h : CursorOk scr s ∧ Inside scr s)
    (buffer : List UINT8) :
    ∃ s', serialPortWrite scr fuel garbage buffer s = some s'
      ∧ CursorOk scr s' ∧ Inside scr s' := by
  obtain ⟨⟨hx, hy, hroom, habove, hmaxX, hmaxY⟩, hin⟩ := h
  obtain ⟨s1, heq, h1⟩ := putChars_ok garbage hscr hfuel buffer
    (s := { s with interrupts := false })
    ⟨⟨hx, hy, hroom, habove, hmaxX, hmaxY⟩, hin⟩
  unfold serialPortWrite
  rw [heq]
  exact ⟨_, rfl, restoreInterrupts_ok h1 _⟩

/-- So are those of a `SerialPortWriteCritical`. -/
theorem serialPortWriteCritical_ok {s : FbState} (hscr : Usable scr)
    (hfuel : 2 ≤ fuel) (h : CursorOk scr s ∧ Inside scr s)
    (buffer : List UINT8) :
    ∃ s', serialPortWriteCritical scr fuel garbage buffer s = some s'
      ∧ CursorOk scr s' ∧ Inside scr s' := by
  obtain ⟨⟨hx, hy, hroom, habove, hmaxX, hmaxY⟩, hin⟩ := h
  obtain ⟨s1, heq, h1, hin1⟩ := putChars_ok garbage hscr hfuel buffer
    (s := { s with
      interrupts := false
      color := { s.color with foreground := fbYellow } })
    ⟨⟨hx, hy, hroom, habove, hmaxX, hmaxY⟩, hin⟩
  have hcolor : CursorOk scr { s1 with
      color := { s1.color with foreground := s.color.foreground } } :=
    ⟨h1.x_nonneg, h1.y_nonneg, h1.room, h1.above, h1.maxX, h1.maxY⟩
  unfold serialPortWriteCritical
  simp only
  rw [heq]
  exact ⟨_, rfl, restoreInterrupts_ok ⟨hcolor, hin1⟩ _⟩

/-- So are those of any sequence of calls. -/
theorem serialWrites_ok (hscr : Usable scr) (hfuel : 2 ≤ fuel)
    (calls : List SerialWrite) : ∀ {s : FbState},
      CursorOk scr s ∧ Inside scr s →
      ∃ s', serialWrites scr fuel garbage calls s = some s'
        ∧ CursorOk scr s' ∧ Inside scr s' := by
  induction calls with
  | nil => exact fun h => ⟨_, rfl, h⟩
  | cons call calls ih =>
      intro s h
      unfold serialWrites
      cases call with
      | write buffer =>
          obtain ⟨s1, heq, h1⟩ :=
            serialPortWrite_ok garbage hscr hfuel h buffer
          simp only
          rw [heq]
          exact ih h1
      | writeCritical buffer =>
          obtain ⟨s1, heq, h1⟩ :=
            serialPortWriteCritical_ok garbage hscr hfuel h buffer
          simp only
          rw [heq]
          exact ih h1

/-- A small word is the same number with a sign. -/
theorem toInt_of_lt {x : UINTN} {n : Nat} (hx : x.toNat ≤ n)
    (hn : n < 2 ^ 63) : x.toInt = x.toNat := by
  rw [BitVec.toInt_eq_toNat_cond, if_pos]
  omega

/-- The state `FbConReset` sets up. -/
theorem fbConReset_ok (hscr : Usable scr) {s : FbState}
    (hin : Inside scr s) :
    CursorOk scr (fbConReset scr s) ∧ Inside scr (fbConReset scr s) := by
  have hheight := hscr.height
  simp only [fontHeight, scaleFactor_toNat] at hheight
  have hwidthLt := scr.gWidth.isLt
  have hheightLt := scr.gHeight.isLt
  have hx : (scr.gWidth / (BitVec.ofNat 64 fontWidth + 1)).toNat
      = scr.gWidth.toNat / 6 := rfl
  have hy : ((scr.gHeight - 1) / BitVec.ofNat 64 fontHeight).toNat
      = (scr.gHeight.toNat - 1) / 12 := by
    have hone : (scr.gHeight - 1).toNat = scr.gHeight.toNat - 1 := by
      have hlit : (1 : UINTN).toNat = 1 := rfl
      rw [BitVec.toNat_sub, hlit]
      omega
    rw [BitVec.toNat_udiv, hone]
    rfl
  have hmaxX : (fbConReset scr s).maxPosition.x
      = (scr.gWidth.toNat / (fontWidth + 1) : Nat) := by
    show (scr.gWidth / (BitVec.ofNat 64 fontWidth + 1)).toInt = _
    rw [toInt_of_lt (Nat.le_refl _) (by omega), hx]
    rfl
  have hmaxY : (fbConReset scr s).maxPosition.y
      = ((scr.gHeight.toNat - 1) / fontHeight : Nat) := by
    show ((scr.gHeight - 1) / BitVec.ofNat 64 fontHeight).toInt = _
    rw [toInt_of_lt (Nat.le_refl _) (by omega), hy]
    rfl
  refine ⟨⟨Int.le_refl 0, Int.le_refl 0, Or.inl rfl, ?_, hmaxX, hmaxY⟩,
    hin⟩
  rw [hmaxY]
  show (0 : Int) < (((scr.gHeight.toNat - 1) / 12 : Nat) : Int) - 2
  omega

/-- From `FbConReset` on, whatever is written, every byte the console
stores is in the framebuffer, and every write returns. -/
theorem serialWrites_inside (hscr : Usable scr) (hfuel : 2 ≤ fuel)
    (calls : List SerialWrite) {s : FbState} (hstores : s.stores = []) :
    ∃ s', serialWrites scr fuel garbage calls (fbConReset scr s) = some s'
      ∧ ∀ st ∈ s'.stores, st.1 < scr.bytes := by
  have hin : Inside scr s := by
    intro st hst
    rw [hstores] at hst
    cases hst
  obtain ⟨s', heq, -, hin'⟩ := serialWrites_ok garbage hscr hfuel calls
    (fbConReset_ok hscr hin)
  exact ⟨s', heq, hin'⟩

end

/-- A panel of 1080 by 2160 pixels of four bytes. -/
def panel : Screen where
  gWidth := 1080
  gHeight := 2160
  gBpp := 32
  font5x12 := fun _ => 0x1f

/-- The console before it was initialized. -/
def poweredOn : FbState where
  position := ⟨0, 0⟩
  maxPosition := ⟨0, 0⟩
  color := ⟨0, 0⟩
  initialized := true
  interrupts := true
  stores := []
  handled := 0

/-- Two writes to the panel after a reset. -/
theorem serialWrites_inside_panel :
    ∃ s', serialWrites panel 2 (fun _ => false)
        [.write [65, 10], .writeCritical [66]] (fbConReset panel poweredOn)
        = some s'
      ∧ ∀ st ∈ s'.stores, st.1 < panel.bytes :=
  serialWrites_inside (fun _ => false)
    ⟨by decide, by decide, by decide, by decide⟩ (Nat.le_refl 2)
    [.write [65, 10], .writeCritical [66]] rfl

end Edk2Exynos.FrameBuffer
