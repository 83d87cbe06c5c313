/-
The console is a text terminal.

# The terminal

`typeChar` is what a character does to a terminal of as many rows and
columns as the screen has. There is no scrolling: past the last row the
console starts over at the top, and with the same character. A line feed
there goes on to the second row, so the first one is not cleared; a glyph
that has just filled the last row is typed again at the top left.

# The refinement

`Shows` relates a state of the console to a terminal: the cursor, and the
framebuffer after all stores, place by place. Drawing, a newline and the
way back to `paint` keep it (`paint_shows`), so every write does. Until
`SerialPortInitialize` has been called once there is no terminal, and
after that the call does nothing (`portCalls_shown`).
-/
import Edk2Exynos.FrameBuffer.TextScreen
import Edk2Exynos.Lib.Runs

namespace Edk2Exynos.FrameBuffer

open Lib

-- ========================================================== the terminal

section

variable (rows cols : Nat) (color : FbconColor)

/-- A line feed; at the bottom it goes to the top first. -/
def lineFeed (t : Terminal Drawn) : Terminal Drawn :=
  if t.row + 1 < rows then t.nextRow else t.home.nextRow

/-- A glyph; one that fills the last row is typed again at the top. -/
def typeGlyph (c : UINT8) (t : Terminal Drawn) : Terminal Drawn :=
  let t := t.put ⟨c, color⟩
  if t.col < cols then t
  else if t.row + 1 < rows then t.nextRow
  else if c = 32 then t.home
  else t.home.put ⟨c, color⟩

/-- A character: a line feed, a carriage return, or a glyph, where a space
at the start of a row is saved. -/
def typeChar (c : UINT8) (t : Terminal Drawn) : Terminal Drawn :=
  if 127 < c.toNat then t
  else if c.toNat < 32 then
    if c = 10 then lineFeed rows t
    else if c = 13 then t.carriageReturn
    else t
  else if t.col = 0 ∧ c = 32 then t
  else typeGlyph rows cols color c t

variable {rows cols color}

/-- A line feed leads to the first column. -/
theorem lineFeed_col (t : Terminal Drawn) : (lineFeed rows t).col = 0 := by
  unfold lineFeed
  split
  · rfl
  · rfl

/-- A glyph leaves the cursor in a column. -/
theorem typeGlyph_col (hcols : 2 ≤ cols) (c : UINT8) (t : Terminal Drawn) :
    (typeGlyph rows cols color c t).col < cols := by
  have hzero : 0 < cols := Nat.lt_of_lt_of_le (by decide) hcols
  unfold typeGlyph
  dsimp only
  split
  next hroom => exact hroom
  split
  · exact hzero
  split
  · exact hzero
  · exact hcols

/-- A glyph is typed, but for a space at the start of a row. -/
theorem typeChar_of_glyph {c : UINT8} {t : Terminal Drawn}
    (hge : ¬ c.toNat < 32) (hle : ¬ 127 < c.toNat)
    (hspace : ¬ (t.col = 0 ∧ c = 32)) :
    typeChar rows cols color c t = typeGlyph rows cols color c t := by
  unfold typeChar
  rw [if_neg hle, if_neg hge, if_neg hspace]

/-- At the top left there is room for a glyph and below it. -/
theorem typeChar_top (hcols : 2 ≤ cols) (c : UINT8)
    (t : Terminal Drawn) (hge : ¬ c.toNat < 32) (hle : ¬ 127 < c.toNat) :
    typeChar rows cols color c t.home
      = if c = 32 then t.home else t.home.put ⟨c, color⟩ := by
  by_cases hspace : c = 32
  · unfold typeChar
    rw [if_neg hle, if_neg hge, if_pos ⟨rfl, hspace⟩, if_pos hspace]
  · rw [typeChar_of_glyph hge hle fun h => hspace h.2, if_neg hspace]
    exact if_pos hcols

/-- A glyph that fills the last row is typed at the top once more. -/
theorem typeGlyph_again (hcols : 2 ≤ cols) {c : UINT8}
    {t : Terminal Drawn} (hge : ¬ c.toNat < 32) (hle : ¬ 127 < c.toNat)
    (hfull : ¬ t.col + 1 < cols) (hbottom : ¬ t.row + 1 < rows) :
    typeChar rows cols color c (t.put ⟨c, color⟩).home
      = typeGlyph rows cols color c t := by
  rw [typeChar_top hcols c _ hge hle]
  unfold typeGlyph
  exact ((if_neg hfull).trans (if_neg hbottom)).symm

/-- At the bottom a line feed is the same from the first row. -/
theorem lineFeed_again (hrows : 2 ≤ rows) {t : Terminal Drawn}
    (hbottom : ¬ t.row + 1 < rows) :
    lineFeed rows t.home = lineFeed rows t :=
  (if_pos hrows).trans (if_neg hbottom).symm

/-- The cursor stays in its row. -/
theorem typeChar_col (hcols : 2 ≤ cols) (c : UINT8) {t : Terminal Drawn}
    (h : t.col < cols) : (typeChar rows cols color c t).col < cols := by
  have hzero : 0 < cols := Nat.lt_of_le_of_lt (Nat.zero_le _) h
  unfold typeChar
  split
  · exact h
  split
  · split
    · rw [lineFeed_col]
      exact hzero
    split
    · exact hzero
    · exact h
  split
  · exact h
  · exact typeGlyph_col hcols c t

end

-- ======================================================== the refinement

/-- The console shows the terminal. -/
structure Shows (scr : Screen) (m : Mem) (color : FbconColor)
    (t : Terminal Drawn) (s : FbState) : Prop where
  x : s.position.x = t.col
  y : s.position.y = 2 * t.row
  maxX : s.maxPosition.x = (scr.gWidth.toNat / (fontWidth + 1) : Nat)
  maxY : s.maxPosition.y = ((scr.gHeight.toNat - 1) / fontHeight : Nat)
  row_lt : t.row < scr.rows
  initialized : s.initialized = true
  color_eq : s.color = color
  buffer : storeAll m s.stores = scr.shown m t

variable {scr : Screen} {m : Mem} {color : FbconColor}
  {t : Terminal Drawn} {s : FbState}

/-- Enabling interrupts changes nothing that is shown. -/
theorem Shows.restoreInterrupts (h : Shows scr m color t s)
    (intstate : Bool) :
    Shows scr m color t (restoreInterrupts intstate s) := by
  obtain ⟨hx, hy, hmaxX, hmaxY, hrow, hinit, hcolor, hbuffer⟩ := h
  unfold FrameBuffer.restoreInterrupts
  split
  · exact ⟨hx, hy, hmaxX, hmaxY, hrow, hinit, hcolor, hbuffer⟩
  · exact ⟨hx, hy, hmaxX, hmaxY, hrow, hinit, hcolor, hbuffer⟩

/-- A small number is the same as an `int`. -/
theorem castInt_natCast {n : Nat} (h : n < 2 ^ 31) : castInt n = n := by
  unfold castInt
  rw [BitVec.ofInt_natCast, BitVec.toInt_eq_toNat_cond, BitVec.toNat_ofNat,
    Nat.mod_eq_of_lt (Nat.lt_trans h (by decide)), if_pos (by omega)]

section

variable (hscr : Usable scr) (haddr : Addressable scr)

include hscr haddr

/-- A row is full when its last column has been drawn. -/
theorem Shows.lineFull (h : Shows scr m color t s) :
    lineFull scaleFactor s = decide (scr.cols ≤ t.col) := by
  have hwidth := width_lt hscr haddr
  have hhalf : s.maxPosition.x / (scaleFactor.toNat : Int)
      = (scr.cols : Int) := by
    rw [h.maxX, scaleFactor_toNat]
    exact (Int.natCast_div _ 2).symm
  have hcols : scr.cols < 2 ^ 31 := by
    unfold Screen.cols
    simp only [fontWidth]
    omega
  unfold FrameBuffer.lineFull
  rw [hhalf, castInt_natCast hcols, h.x]
  exact decide_eq_decide.2 Int.ofNat_le

/-- A glyph is drawn at the cursor. -/
theorem Shows.drawChar (h : Shows scr m color t s)
    (hcol : t.col < scr.cols) (c : UINT8) :
    Shows scr m color (t.put ⟨c, color⟩)
      (drawChar scr scaleFactor c s) := by
  refine ⟨?_, h.y, h.maxX, h.maxY, h.row_lt, h.initialized, h.color_eq, ?_⟩
  · show s.position.x + 1 = ((t.col + 1 : Nat) : Int)
    rw [h.x]
    rfl
  · funext a
    rw [storeAll_drawChar hscr haddr h.row_lt hcol h.x h.y, h.buffer,
      h.color_eq]
    exact (render_put _ a).symm

/-- A newline goes to the next row and clears it, or back to the top. -/
theorem Shows.newline (h : Shows scr m color t s) (intstate : Bool) :
    (newline scr scaleFactor intstate s).1
        = decide (¬ t.row + 1 < scr.rows)
      ∧ Shows scr m color
        (if t.row + 1 < scr.rows then t.nextRow else t.home)
        (newline scr scaleFactor intstate s).2 := by
  have hbottom : s.maxPosition.y - (scaleFactor.toNat : Int)
      ≤ s.position.y + scaleFactor.toNat ↔ ¬ t.row + 1 < scr.rows := by
    rw [h.maxY, h.y, scaleFactor_toNat]
    unfold Screen.rows
    omega
  unfold FrameBuffer.newline
  dsimp only
  by_cases hroom : t.row + 1 < scr.rows
  · rw [if_neg fun hle => hbottom.1 hle hroom, if_pos hroom]
    refine ⟨(decide_eq_false (not_not_intro hroom)).symm,
      Shows.restoreInterrupts ?_ intstate⟩
    have hnext : s.position.y + (scaleFactor.toNat : Int)
        = 2 * ((t.row + 1 : Nat) : Int) := by
      rw [h.y, scaleFactor_toNat]
      omega
    refine ⟨rfl, hnext, h.maxX, h.maxY, hroom, h.initialized, h.color_eq, ?_⟩
    funext a
    have hrowOf : scr.layout.rowOf a = t.row + 1 ↔ _ :=
      Layout.rowOf_eq_iff hscr.line_pos scr.height_pos
    dsimp only
    rw [storeAll_zeroMem, hnext, lineOffset_eq hscr haddr hroom,
      textRow_toNat hscr haddr, h.buffer]
    refine Eq.trans ?_ (render_nextRow a).symm
    exact if_congr hrowOf.symm rfl rfl
  · rw [if_pos (hbottom.2 hroom), if_neg hroom]
    have htop : 0 < scr.rows := Nat.lt_of_le_of_lt (Nat.zero_le _) h.row_lt
    have hhome : Shows scr m color t.home { s with position := ⟨0, 0⟩ } :=
      ⟨rfl, rfl, h.maxX, h.maxY, htop, h.initialized, h.color_eq, h.buffer⟩
    exact ⟨(decide_eq_true hroom).symm, hhome.restoreInterrupts intstate⟩

/-- What a pass of `paint` leads to: it ends as the terminal says, or
starts over at the top with the same to come. -/
def Passes (scr : Screen) (m : Mem) (color : FbconColor) (c : UINT8)
    (t : Terminal Drawn) (fuel : Nat) (r : Option FbState) : Prop :=
  (∃ s', r = some s'
    ∧ Shows scr m color (typeChar scr.rows scr.cols color c t) s')
  ∨ ∃ intstate t' s',
    r = paint scr .commonMsg scaleFactor c fuel intstate s'
    ∧ Shows scr m color t' s' ∧ t'.row = 0 ∧ t'.col = 0 ∧ t.row ≠ 0
    ∧ typeChar scr.rows scr.cols color c t'
      = typeChar scr.rows scr.cols color c t

/-- A newline, from the row in which a character has been typed. -/
theorem passes_newline {t₁ : Terminal Drawn} (h : Shows scr m color t₁ s)
    {c : UINT8} (fuel : Nat) (intstate : Bool) (hrow : t₁.row = t.row)
    (hnext : t.row + 1 < scr.rows →
      typeChar scr.rows scr.cols color c t = t₁.nextRow)
    (htop : ¬ t.row + 1 < scr.rows →
      typeChar scr.rows scr.cols color c t₁.home
        = typeChar scr.rows scr.cols color c t) :
    Passes scr m color c t fuel
      (paintAgain .commonMsg c scr fuel intstate
        (newline scr scaleFactor intstate s)) := by
  obtain ⟨hagain, hshows⟩ := h.newline hscr haddr intstate
  rw [hrow] at hagain hshows
  unfold paintAgain
  rw [hagain]
  by_cases hroom : t.row + 1 < scr.rows
  · rw [if_pos hroom, ← hnext hroom] at hshows
    rw [decide_eq_false (not_not_intro hroom)]
    exact .inl ⟨_, rfl, hshows⟩
  · rw [if_neg hroom] at hshows
    rw [decide_eq_true hroom]
    have hrows := hscr.two_le_rows
    exact .inr ⟨intstate, _, _, rfl, hshows, rfl, rfl, by omega,
      htop hroom⟩

/-- A glyph is drawn, and the row may be full. -/
theorem passes_glyph (h : Shows scr m color t s) (hcol : t.col < scr.cols)
    {c : UINT8} (fuel : Nat)
    (htype : typeChar scr.rows scr.cols color c t
      = typeGlyph scr.rows scr.cols color c t)
    (hagain : ¬ t.col + 1 < scr.cols → ¬ t.row + 1 < scr.rows →
      typeChar scr.rows scr.cols color c (t.put ⟨c, color⟩).home
        = typeGlyph scr.rows scr.cols color c t) :
    Passes scr m color c t fuel
      (if lineFull scaleFactor (drawChar scr scaleFactor c s) then
        paintAgain .commonMsg c scr fuel s.interrupts (newline scr
          scaleFactor s.interrupts (drawChar scr scaleFactor c s))
      else some (restoreInterrupts s.interrupts
        (drawChar scr scaleFactor c s))) := by
  have hput := h.drawChar hscr haddr hcol c
  have hfull : FrameBuffer.lineFull scaleFactor
      (drawChar scr scaleFactor c s) = decide (scr.cols ≤ t.col + 1) :=
    hput.lineFull hscr haddr
  rw [hfull]
  by_cases hroom : t.col + 1 < scr.cols
  · rw [decide_eq_false (Nat.not_le.2 hroom)]
    exact .inl ⟨_, rfl, htype.trans (if_pos hroom) ▸
      hput.restoreInterrupts s.interrupts⟩
  · rw [decide_eq_true (Nat.not_lt.1 hroom)]
    refine passes_newline hscr haddr hput fuel s.interrupts rfl ?_ ?_
    · intro hnext
      rw [htype]
      exact (if_neg hroom).trans (if_pos hnext)
    · intro hbottom
      rw [htype]
      exact hagain hroom hbottom

/-- A turn of `paint` types the character, or goes on with a line feed. -/
theorem paint_passes (h : Shows scr m color t s)
    (hcol : t.col < scr.cols) (c : UINT8) (fuel : Nat) (intstate : Bool) :
    Passes scr m color c t fuel
      (paint scr .commonMsg scaleFactor c (fuel + 1) intstate s) := by
  have hrows := hscr.two_le_rows
  have hcols := hscr.two_le_cols
  have hends : ∀ {t₁ s₁}, typeChar scr.rows scr.cols color c t = t₁ →
      Shows scr m color t₁ s₁ → Passes scr m color c t fuel (some s₁) :=
    fun htype hs => .inl ⟨_, rfl, htype ▸ hs⟩
  rw [paint_succ]
  split
  next hgt => exact hends (if_pos hgt) h
  next hle =>
    split
    next hlt =>
      have hcontrol : typeChar scr.rows scr.cols color c t
          = if c = 10 then lineFeed scr.rows t
            else if c = 13 then t.carriageReturn else t :=
        (if_neg hle).trans (if_pos hlt)
      split
      next hfeed =>
        subst hfeed
        exact passes_newline hscr haddr h fuel intstate rfl
          (fun hroom => if_pos hroom) (lineFeed_again hrows)
      next hfeed =>
        rw [if_neg hfeed] at hcontrol
        split
        next hreturn =>
          rw [if_pos hreturn] at hcontrol
          exact hends hcontrol ⟨rfl, h.y, h.maxX, h.maxY, h.row_lt,
            h.initialized, h.color_eq, h.buffer⟩
        next hother => exact hends (hcontrol.trans (if_neg hother)) h
    next hge =>
      have hx : s.position.x = 0 ↔ t.col = 0 := by
        rw [h.x]
        omega
      split
      next hsaved =>
        have hspace : t.col = 0 ∧ c = 32 := ⟨hx.1 hsaved.1, hsaved.2.1⟩
        refine hends ?_ h
        unfold typeChar
        rw [if_neg hle, if_neg hge, if_pos hspace]
      next hdrawn =>
        have hspace : ¬ (t.col = 0 ∧ c = 32) := fun hs =>
          hdrawn ⟨hx.2 hs.1, hs.2, by decide, by decide⟩
        have htype : typeChar scr.rows scr.cols color c t = _ :=
          typeChar_of_glyph hge hle hspace
        exact passes_glyph hscr haddr h hcol fuel htype fun hno hbottom =>
          typeGlyph_again hcols hge hle hno hbottom

/-- A character does to the console what it does to the terminal. -/
theorem paint_shows (h : Shows scr m color t s) (hcol : t.col < scr.cols)
    {fuel : Nat} (hfuel : 2 ≤ fuel) (c : UINT8) (intstate : Bool) :
    ∃ s', paint scr .commonMsg scaleFactor c fuel intstate s = some s'
      ∧ Shows scr m color (typeChar scr.rows scr.cols color c t) s' := by
  obtain ⟨fuel, rfl⟩ := Nat.exists_eq_add_of_le' hfuel
  have hcols := hscr.two_le_cols
  rcases paint_passes hscr haddr h hcol c (fuel + 1) intstate with
    hdone | ⟨intstate', t', s', hagain, h', hrow, hcol', -, htype⟩
  · exact hdone
  · rcases paint_passes hscr haddr h' (by omega) c fuel intstate' with
      hdone | ⟨-, -, -, -, -, -, -, hne, -⟩
    · rw [hagain, ← htype]
      exact hdone
    · exact absurd hrow hne

end

-- ======================================================= the serial port

/-- `SerialPortInitialize` -/
def serialPortInitialize (scr : Screen) (s : FbState) : FbState :=
  if s.initialized then s
  else
    let interruptState := s.interrupts
    let s := fbConReset scr { s with interrupts := false }
    restoreInterrupts interruptState { s with initialized := true }

/-- A call of the serial port that may draw. -/
inductive SerialPortCall where
  | start
  | write (buffer : List UINT8)
  | writeCritical (buffer : List UINT8)

section

variable (scr : Screen) (fuel : Nat) (garbage : Nat → Bool)

/-- One call of the library. -/
def serialPortCall : SerialPortCall → FbState → Option FbState
  | .start, s => some (serialPortInitialize scr s)
  | .write buffer, s => serialPortWrite scr fuel garbage buffer s
  | .writeCritical buffer, s =>
      serialPortWriteCritical scr fuel garbage buffer s

/-- Calls of the library, one after the other. -/
def serialPortCalls : List SerialPortCall → FbState → Option FbState
  | [], s => some s
  | call :: calls, s =>
      (serialPortCall scr fuel garbage call s).bind (serialPortCalls calls)

/-- The colours of `SerialPortWriteCritical`. -/
def yellowOnBlack : FbconColor := ⟨fbYellow, fbBlack⟩

/-- A buffer is typed. -/
def typeBuffer (color : FbconColor) (buffer : List UINT8) :
    Terminal Drawn → Terminal Drawn :=
  run (typeChar scr.rows scr.cols color) buffer

/-- What a call does to the terminal, once there is one. -/
def terminalCall :
    SerialPortCall → Option (Terminal Drawn) → Option (Terminal Drawn)
  | .start, t => some (t.getD (Terminal.blank Drawn))
  | .write buffer, t => t.map (typeBuffer scr whiteOnBlack buffer)
  | .writeCritical buffer, t => t.map (typeBuffer scr yellowOnBlack buffer)

end

/-- The console is off, or shows the terminal and draws in the colour. -/
def PortShows (scr : Screen) (m : Mem) (color : FbconColor) :
    Option (Terminal Drawn) → FbState → Prop
  | none, s => s.initialized = false ∧ s.stores = []
  | some t, s => Shows scr m color t s ∧ t.col < scr.cols

/-- Enabling interrupts changes nothing that the console shows. -/
theorem PortShows.restoreInterrupts {o : Option (Terminal Drawn)}
    (h : PortShows scr m color o s) (intstate : Bool) :
    PortShows scr m color o (restoreInterrupts intstate s) := by
  cases o with
  | none =>
      unfold FrameBuffer.restoreInterrupts
      split
      · exact h
      · exact h
  | some t => exact ⟨h.1.restoreInterrupts intstate, h.2⟩

/-- Once it shows something, the console has its colours. -/
theorem PortShows.color_eq {o : Option (Terminal Drawn)}
    (h : PortShows scr m color o s) (ho : o.isSome) : s.color = color := by
  cases o with
  | none => cases ho
  | some t => exact h.1.color_eq

/-- The colour that is drawn in from here on. -/
theorem PortShows.recolor {o : Option (Terminal Drawn)}
    (h : PortShows scr m color o s) {color' color₁ : FbconColor}
    (hcolor : o.isSome → color₁ = color') (interrupts : Bool) :
    PortShows scr m color' o
      { s with color := color₁, interrupts := interrupts } := by
  cases o with
  | none => exact h
  | some t =>
      obtain ⟨⟨hx, hy, hmaxX, hmaxY, hrow, hinit, -, hbuf⟩, hcols⟩ := h
      exact ⟨⟨hx, hy, hmaxX, hmaxY, hrow, hinit, hcolor rfl, hbuf⟩, hcols⟩

section

variable (hscr : Usable scr) (haddr : Addressable scr) {fuel : Nat}
  (hfuel : 2 ≤ fuel) (garbage : Nat → Bool)

include hscr haddr hfuel

omit hscr haddr hfuel in
/-- Before `FbConReset` nothing is drawn. -/
theorem putChars_off (buffer : List UINT8) {s : FbState}
    (hoff : s.initialized = false ∧ s.stores = []) :
    ∃ s', putChars scr fuel garbage buffer s = some s'
      ∧ s'.initialized = false ∧ s'.stores = [] := by
  induction buffer generalizing s with
  | nil => exact ⟨s, rfl, hoff⟩
  | cons c buffer ih =>
      have hput : fbConPutCharWithFactor scr .commonMsg scaleFactor fuel
          garbage c s = some { s with handled := s.handled + 1 } := by
        unfold fbConPutCharWithFactor
        dsimp only
        rw [if_neg (by rw [hoff.1]; exact Bool.false_ne_true)]
      unfold putChars
      rw [hput]
      exact ih hoff

/-- A buffer is typed character by character. -/
theorem putChars_shows (buffer : List UINT8) {t : Terminal Drawn}
    {s : FbState} (h : Shows scr m color t s) (hcol : t.col < scr.cols) :
    ∃ s', putChars scr fuel garbage buffer s = some s'
      ∧ Shows scr m color (typeBuffer scr color buffer t) s'
      ∧ (typeBuffer scr color buffer t).col < scr.cols := by
  induction buffer generalizing t s with
  | nil => exact ⟨s, rfl, h, hcol⟩
  | cons c buffer ih =>
      have hcounted : Shows scr m color t { s with handled := s.handled + 1 }
        := ⟨h.x, h.y, h.maxX, h.maxY, h.row_lt, h.initialized, h.color_eq,
          h.buffer⟩
      obtain ⟨s₁, hpaint, h₁⟩ := paint_shows hscr haddr hcounted hcol hfuel c
        (garbage s.handled)
      have hput : fbConPutCharWithFactor scr .commonMsg scaleFactor fuel
          garbage c s = some s₁ := by
        unfold fbConPutCharWithFactor
        dsimp only
        rw [if_pos h.initialized]
        exact hpaint
      unfold putChars
      rw [hput]
      exact ih h₁ (typeChar_col hscr.two_le_cols c hcol)

/-- A buffer is typed on the terminal, if there is one. -/
theorem putChars_port (buffer : List UINT8) {o : Option (Terminal Drawn)}
    {s : FbState} (h : PortShows scr m color o s) :
    ∃ s', putChars scr fuel garbage buffer s = some s'
      ∧ PortShows scr m color (o.map (typeBuffer scr color buffer)) s' := by
  cases o with
  | none =>
      obtain ⟨s', hput, hoff⟩ := putChars_off garbage buffer h
      exact ⟨s', hput, hoff⟩
  | some t =>
      obtain ⟨s', hput, hshows⟩ :=
        putChars_shows hscr haddr hfuel garbage buffer h.1 h.2
      exact ⟨s', hput, hshows⟩

omit haddr hfuel in
/-- The console is set up once. -/
theorem serialPortInitialize_shows {o : Option (Terminal Drawn)}
    {s : FbState} (h : PortShows scr m whiteOnBlack o s) :
    PortShows scr m whiteOnBlack (terminalCall scr .start o)
      (serialPortInitialize scr s) := by
  unfold serialPortInitialize
  cases o with
  | none =>
      obtain ⟨hoff, hstores⟩ := h
      rw [if_neg (by rw [hoff]; exact Bool.false_ne_true)]
      have hin : Inside scr { s with interrupts := false } := by
        intro st hst
        rw [hstores] at hst
        cases hst
      have hreset := (fbConReset_ok hscr hin).1
      have hbuffer : storeAll m s.stores = m := by
        rw [hstores]
        rfl
      have hblank : Shows scr m whiteOnBlack (Terminal.blank Drawn)
          { fbConReset scr { s with interrupts := false } with
            initialized := true } :=
        ⟨rfl, rfl, hreset.maxX, hreset.maxY,
          Nat.lt_of_lt_of_le (by decide) hscr.two_le_rows, rfl, rfl, hbuffer⟩
      exact ⟨hblank.restoreInterrupts s.interrupts,
        Nat.lt_of_lt_of_le (by decide) hscr.two_le_cols⟩
  | some t =>
      rw [if_pos h.1.initialized]
      exact h

/-- A call does to the terminal what it does to the console. -/
theorem serialPortCall_shows (call : SerialPortCall)
    {o : Option (Terminal Drawn)} {s : FbState}
    (h : PortShows scr m whiteOnBlack o s) :
    ∃ s', serialPortCall scr fuel garbage call s = some s'
      ∧ PortShows scr m whiteOnBlack (terminalCall scr call o) s' := by
  have hput := fun color buffer s₁ (h₁ : PortShows scr m color o s₁) =>
    putChars_port hscr haddr hfuel garbage buffer h₁
  cases call with
  | start => exact ⟨_, rfl, serialPortInitialize_shows hscr h⟩
  | write buffer =>
      obtain ⟨s', heq, h'⟩ := hput whiteOnBlack buffer _
        (h.recolor h.color_eq false)
      unfold serialPortCall serialPortWrite
      dsimp only
      rw [heq]
      exact ⟨_, rfl, h'.restoreInterrupts s.interrupts⟩
  | writeCritical buffer =>
      have hyellow : o.isSome →
          { s.color with foreground := fbYellow } = yellowOnBlack :=
        fun ho => by
          rw [h.color_eq ho]
          rfl
      obtain ⟨s', heq, h'⟩ := hput yellowOnBlack buffer _
        (h.recolor hyellow false)
      have hwhite : (o.map (typeBuffer scr yellowOnBlack buffer)).isSome →
          { s'.color with foreground := s.color.foreground }
            = whiteOnBlack :=
        fun ho => by
          rw [h'.color_eq ho, h.color_eq (Option.isSome_map .. ▸ ho)]
          rfl
      unfold serialPortCall serialPortWriteCritical
      dsimp only
      rw [heq]
      exact ⟨_, rfl, (h'.recolor hwhite s'.interrupts).restoreInterrupts
        s.interrupts⟩

/-- What every call keeps, every run of calls keeps. -/
theorem serialPortCalls_port (calls : List SerialPortCall)
    {o : Option (Terminal Drawn)} {s : FbState}
    (h : PortShows scr m whiteOnBlack o s) :
    ∃ s', serialPortCalls scr fuel garbage calls s = some s'
      ∧ PortShows scr m whiteOnBlack (run (terminalCall scr) calls o)
        s' := by
  induction calls generalizing o s with
  | nil => exact ⟨_, rfl, h⟩
  | cons call calls ih =>
      obtain ⟨s₁, heq, h₁⟩ :=
        serialPortCall_shows hscr haddr hfuel garbage call h
      unfold serialPortCalls
      rw [heq]
      exact ih h₁

/-- Whatever is written, and wherever in between the port is set up, the
framebuffer shows the terminal on which the same has been typed since the
first time, over what was there before. -/
theorem serialPortCalls_shown (calls : List SerialPortCall) {s : FbState}
    (hoff : s.initialized = false) (hstores : s.stores = []) (m : Mem) :
    ∃ s', serialPortCalls scr fuel garbage calls s = some s'
      ∧ storeAll m s'.stores
        = (run (terminalCall scr) calls none).elim m (scr.shown m) := by
  obtain ⟨s', heq, h'⟩ := serialPortCalls_port (m := m) hscr haddr hfuel
    garbage calls (o := none) ⟨hoff, hstores⟩
  refine ⟨s', heq, ?_⟩
  generalize run (terminalCall scr) calls none = o at h'
  cases o with
  | none =>
      show storeAll m s'.stores = m
      rw [h'.2]
      rfl
  | some t => exact h'.1.buffer

end

/-- The panel, before the console is set up. -/
def dark : FbState := { poweredOn with initialized := false }

/-- The panel is usable. -/
theorem panel_usable : Usable panel :=
  ⟨by decide, by decide, by decide, by decide⟩

/-- The panel's framebuffer has addresses of 64 bits. -/
theorem panel_addressable : Addressable panel := ⟨by decide, by decide⟩

/-- Some calls to the panel, before and after it is started. -/
theorem serialPortCalls_shown_panel :
    ∃ s', serialPortCalls panel 2 (fun _ => false)
        [.write [65], .start, .write [66, 10], .writeCritical [67]] dark
        = some s'
      ∧ storeAll (fun _ => 0) s'.stores
        = panel.shown (fun _ => 0) (typeBuffer panel yellowOnBlack [67]
          (typeBuffer panel whiteOnBlack [66, 10]
            (Terminal.blank Drawn))) :=
  serialPortCalls_shown panel_usable panel_addressable (Nat.le_refl 2)
    (fun _ => false)
    [.write [65], .start, .write [66, 10], .writeCritical [67]] rfl rfl
    (fun _ => 0)

end Edk2Exynos.FrameBuffer
