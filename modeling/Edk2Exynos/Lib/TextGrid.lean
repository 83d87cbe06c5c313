/-
A text terminal, and how its text lies in a buffer.

# The terminal

Rows of cells and a cursor. A row has been cleared or still shows through
what was in the buffer before the terminal; a cell holds a glyph or
nothing. `put` writes at the cursor, `nextRow` goes to the next row and
clears it, `home` and `carriageReturn` only move.

# The layout

The buffer is a sequence of lines; a row is `height` of them, and a cell
takes `width` places of each. Every place is in one row, one line of the
row, one column and one place of the cell, by division
(`Layout.place_coords`). A glyph covers the same part of the cell
whichever it is. `render` is the buffer that shows a terminal, and
`render_put` and `render_nextRow` say which stores show the same as the
terminal's operations.
-/
import Edk2Exynos.Lib.Bytes
import Edk2Exynos.Lib.Runs

namespace Edk2Exynos.Lib

-- ========================================================== the terminal

/-- A row of text: whether it has been cleared, and its cells. -/
structure TextRow (γ : Type) where
  cleared : Bool
  cells : Nat → Option γ

/-- A cursor and the rows of text. -/
structure Terminal (γ : Type) where
  row : Nat
  col : Nat
  text : Nat → TextRow γ

namespace Terminal

variable {γ : Type}

/-- A terminal that has shown nothing yet. -/
def blank (γ : Type) : Terminal γ := ⟨0, 0, fun _ => ⟨false, fun _ => none⟩⟩

/-- Write a glyph at the cursor. -/
def put (g : γ) (t : Terminal γ) : Terminal γ where
  row := t.row
  col := t.col + 1
  text := Function.update t.text t.row
    { t.text t.row with
      cells := Function.update (t.text t.row).cells t.col (some g) }

/-- The cursor goes to the start of its row. -/
def carriageReturn (t : Terminal γ) : Terminal γ := { t with col := 0 }

/-- The cursor goes to the first row. -/
def home (t : Terminal γ) : Terminal γ := { t with row := 0, col := 0 }

/-- Go to the start of the next row, and clear it. -/
def nextRow (t : Terminal γ) : Terminal γ where
  row := t.row + 1
  col := 0
  text := Function.update t.text (t.row + 1) ⟨true, fun _ => none⟩

/-- The glyph goes into the cursor's row. -/
theorem put_text_row (g : γ) (t : Terminal γ) :
    (t.put g).text t.row
      = { t.text t.row with
          cells := Function.update (t.text t.row).cells t.col (some g) } :=
  Function.update_self ..

/-- The other rows keep their text. -/
theorem put_text_of_ne {g : γ} {t : Terminal γ} {row : Nat}
    (h : row ≠ t.row) : (t.put g).text row = t.text row :=
  Function.update_of_ne h ..

/-- Write glyphs one after the other. -/
def puts : List γ → Terminal γ → Terminal γ := run put

theorem puts_cons (g : γ) (gs : List γ) (t : Terminal γ) :
    puts (g :: gs) t = puts gs (t.put g) := rfl

/-- Glyphs put in a row leave the cursor in that row. -/
theorem puts_row (gs : List γ) (t : Terminal γ) :
    (puts gs t).row = t.row := by
  induction gs generalizing t with
  | nil => rfl
  | cons g gs ih => exact ih (t.put g)

/-- The other rows keep their text over many glyphs too. -/
theorem puts_text_of_ne (gs : List γ) {t : Terminal γ} {row : Nat}
    (h : row ≠ t.row) : (puts gs t).text row = t.text row := by
  induction gs generalizing t with
  | nil => rfl
  | cons g gs ih =>
      have hput : (t.put g).text row = t.text row := put_text_of_ne h
      exact (ih (t := t.put g) h).trans hput

/-- What has been written stands in the row, from where the cursor was. -/
theorem puts_cells (gs : List γ) (t : Terminal γ) (col : Nat) :
    ((puts gs t).text t.row).cells col
      = if t.col ≤ col ∧ col < t.col + gs.length then gs[col - t.col]?
        else (t.text t.row).cells col := by
  induction gs generalizing t with
  | nil =>
      rw [if_neg (by rw [List.length_nil]; omega)]
      rfl
  | cons g gs ih =>
      have hrow : ((puts gs (t.put g)).text t.row).cells col = _ :=
        ih (t.put g)
      have hcol : (t.put g).col = t.col + 1 := rfl
      rw [puts_cons, hrow, hcol, List.length_cons]
      have hcells : ((t.put g).text (t.put g).row).cells col
          = if col = t.col then some g else (t.text t.row).cells col := by
        show ((t.put g).text t.row).cells col = _
        rw [put_text_row]
        exact Function.update_apply ..
      rw [hcells]
      by_cases hat : col = t.col
      · subst hat
        rw [if_neg (by omega), if_pos rfl, if_pos (by omega), Nat.sub_self]
        rfl
      · rw [if_neg hat]
        by_cases hin : t.col + 1 ≤ col ∧ col < t.col + 1 + gs.length
        · have hsub : col - t.col = col - (t.col + 1) + 1 := by omega
          rw [if_pos hin, if_pos (by omega), hsub]
          rfl
        · rw [if_neg hin, if_neg (by omega)]

/-- A new row starts empty. -/
theorem nextRow_text_row (t : Terminal γ) :
    t.nextRow.text (t.row + 1) = ⟨true, fun _ => none⟩ :=
  Function.update_self ..

/-- The rows before a new one keep their text. -/
theorem nextRow_text_of_ne {t : Terminal γ} {row : Nat}
    (h : row ≠ t.row + 1) : t.nextRow.text row = t.text row :=
  Function.update_of_ne h ..

end Terminal

-- ============================================================ the layout

/-- Places of a line, lines of a row, places of a cell in a line. -/
structure Layout where
  line : Nat
  height : Nat
  width : Nat

namespace Layout

variable (l : Layout)

/-- Where a cell starts. -/
def cellStart (row col : Nat) : Nat :=
  row * (l.height * l.line) + col * l.width

/-- The row of a place, ... -/
def rowOf (a : Nat) : Nat := a / (l.height * l.line)

/-- ... the line in it, ... -/
def lineOf (a : Nat) : Nat := a % (l.height * l.line) / l.line

/-- ... the column ... -/
def colOf (a : Nat) : Nat := a % l.line / l.width

/-- ... and the place in the cell's line. -/
def offsetOf (a : Nat) : Nat := a % l.line % l.width

variable {l : Layout}

/-- The coordinates of a place of a cell. -/
theorem place_coords {row col r x : Nat} (hr : r < l.height)
    (hx : x < l.width) (hline : col * l.width + x < l.line) :
    l.rowOf (l.cellStart row col + (r * l.line + x)) = row
      ∧ l.lineOf (l.cellStart row col + (r * l.line + x)) = r
      ∧ l.colOf (l.cellStart row col + (r * l.line + x)) = col
      ∧ l.offsetOf (l.cellStart row col + (r * l.line + x)) = x := by
  have hplace : l.cellStart row col + (r * l.line + x)
      = (r * l.line + (col * l.width + x))
        + row * (l.height * l.line) := by
    unfold cellStart
    ring
  have hin : r * l.line + (col * l.width + x) < l.height * l.line := by
    calc r * l.line + (col * l.width + x) < r * l.line + l.line :=
        Nat.add_lt_add_left hline _
      _ = (r + 1) * l.line := (Nat.succ_mul r l.line).symm
      _ ≤ l.height * l.line := Nat.mul_le_mul_right l.line hr
  have hpos : 0 < l.height * l.line := Nat.lt_of_le_of_lt (Nat.zero_le _) hin
  have hlinePos : 0 < l.line := Nat.lt_of_le_of_lt (Nat.zero_le _) hline
  have hwidth : 0 < l.width := Nat.lt_of_le_of_lt (Nat.zero_le _) hx
  have hmod : (l.cellStart row col + (r * l.line + x)) % l.line
      = col * l.width + x := by
    rw [hplace, ← Nat.mul_assoc, Nat.add_mul_mod_self_right,
      Nat.mul_add_mod_of_lt hline]
  refine ⟨?_, ?_, ?_, ?_⟩
  · unfold rowOf
    rw [hplace, Nat.add_mul_div_right _ _ hpos, Nat.div_eq_of_lt hin,
      Nat.zero_add]
  · unfold lineOf
    rw [hplace, Nat.add_mul_mod_self_right, Nat.mod_eq_of_lt hin,
      Nat.mul_comm r, Nat.mul_add_div hlinePos, Nat.div_eq_of_lt hline,
      Nat.add_zero]
  · unfold colOf
    rw [hmod, Nat.mul_comm col, Nat.mul_add_div hwidth, Nat.div_eq_of_lt hx,
      Nat.add_zero]
  · unfold offsetOf
    rw [hmod, Nat.mul_comm col, Nat.mul_add_mod, Nat.mod_eq_of_lt hx]

/-- Every address lies in one of the lines. -/
theorem lineOf_lt (hline : 0 < l.line) (hheight : 0 < l.height) (a : Nat) :
    l.lineOf a < l.height :=
  (Nat.div_lt_iff_lt_mul hline).2
    (Nat.mod_lt a (Nat.mul_pos hheight hline))

/-- Every address lies in one of a line's columns. -/
theorem offsetOf_lt (hwidth : 0 < l.width) (a : Nat) :
    l.offsetOf a < l.width :=
  Nat.mod_lt _ hwidth

/-- A row is a stretch of the buffer. -/
theorem rowOf_eq_iff (hline : 0 < l.line) (hheight : 0 < l.height)
    {a row : Nat} :
    l.rowOf a = row ↔ row * (l.height * l.line) ≤ a
      ∧ a < row * (l.height * l.line) + l.height * l.line := by
  have hpos : 0 < l.height * l.line := Nat.mul_pos hheight hline
  unfold rowOf
  rw [Nat.div_eq_iff hpos]
  omega

/-- A place, from its coordinates. -/
theorem place_eq (l : Layout) (a : Nat) :
    a = l.cellStart (l.rowOf a) (l.colOf a)
      + (l.lineOf a * l.line + l.offsetOf a) := by
  have hrow := Nat.div_add_mod' a (l.height * l.line)
  have hline := Nat.div_add_mod' (a % (l.height * l.line)) l.line
  have hcol := Nat.div_add_mod' (a % l.line) l.width
  have hmod : a % (l.height * l.line) % l.line = a % l.line :=
    Nat.mod_mod_of_dvd a (Nat.dvd_mul_left l.line l.height)
  rw [hmod] at hline
  unfold cellStart rowOf colOf lineOf offsetOf
  omega

end Layout

-- ========================================================= what it shows

/-- How a glyph is painted: the part of a cell that any glyph covers, and
its bytes there. -/
structure Painter (γ : Type) where
  covers : Nat → Bool
  byte : γ → Nat → Nat → Byte

section

variable {γ : Type} (l : Layout) (p : Painter γ)

/-- What is under the glyphs of a row. -/
def TextRow.under (row : TextRow γ) (b : Byte) : Byte :=
  if row.cleared then 0 else b

/-- A byte of a cell, over what is under it. -/
def Painter.over (cell : Option γ) (r x : Nat) (b : Byte) : Byte :=
  match cell with
  | some g => if p.covers x then p.byte g r x else b
  | none => b

/-- The buffer that shows a terminal, over what was in it before. -/
def render (m : Mem) (t : Terminal γ) : Mem := fun a =>
  p.over ((t.text (l.rowOf a)).cells (l.colOf a)) (l.lineOf a)
    (l.offsetOf a) ((t.text (l.rowOf a)).under (m a))

variable {l p} {m : Mem} {t : Terminal γ}

/-- A glyph painted over a cell hides what was there. -/
theorem Painter.over_over (cell : Option γ) (g : γ) (r x : Nat) (b : Byte) :
    p.over (some g) r x (p.over cell r x b) = p.over (some g) r x b := by
  unfold Painter.over
  cases cell with
  | none => rfl
  | some g' =>
      dsimp only
      split
      · rfl
      · rfl

/-- A glyph shows in its cell, and changes nothing else. -/
theorem render_put (g : γ) (a : Nat) :
    render l p m (t.put g) a
      = if l.rowOf a = t.row ∧ l.colOf a = t.col then
          p.over (some g) (l.lineOf a) (l.offsetOf a) (render l p m t a)
        else render l p m t a := by
  unfold render
  by_cases hrow : l.rowOf a = t.row
  · rw [hrow, Terminal.put_text_row]
    by_cases hcol : l.colOf a = t.col
    · rw [if_pos ⟨rfl, hcol⟩, hcol, Painter.over_over]
      exact congrArg (fun cell => p.over cell _ _ _)
        (Function.update_self ..)
    · rw [if_neg fun h => hcol h.2]
      exact congrArg (fun cell => p.over cell _ _ _)
        (Function.update_of_ne hcol ..)
  · rw [if_neg fun h => hrow h.1, Terminal.put_text_of_ne hrow]

/-- The next row is cleared, and nothing else is changed. -/
theorem render_nextRow (a : Nat) :
    render l p m t.nextRow a
      = if l.rowOf a = t.row + 1 then 0 else render l p m t a := by
  unfold render
  by_cases hrow : l.rowOf a = t.row + 1
  · rw [hrow, if_pos rfl, Terminal.nextRow_text_row]
    rfl
  · rw [if_neg hrow, Terminal.nextRow_text_of_ne hrow]

end

end Edk2Exynos.Lib
