/-
The framebuffer console (FrameBufferSerialPortLib.c): a serial port that
draws its characters on the screen.

# The framebuffer

An address is an offset from the start of the framebuffer. What is drawn
is the list of byte stores, in order; a cache flush stores nothing.
Offsets are computed in 64 bits, the lengths inside `FbConDrawglyph` in
32, and both may wrap; a pointer is advanced by what comes out.

# goto

`FbConPutCharWithFactor` starts over (`goto paint`) after wrapping to the
top of the screen. `paint` counts those starts with fuel and has none
left where the function does not end.

# Uninitialised locals

`goto newline` passes over the declaration of `intstate`, which then has
any value: `garbage` supplies one for each character.
-/
import Edk2Exynos.Lib.Pen

namespace Edk2Exynos.FrameBuffer

open Lib

/-- An 8-bit word. -/
abbrev UINT8 := BitVec 8
/-- A 32-bit word. -/
abbrev UINT32 := BitVec 32
/-- A word of the machine. -/
abbrev UINTN := BitVec 64

-- ============================================================== the screen

/-- `FONT_WIDTH` -/
def fontWidth : Nat := 5
/-- `FONT_HEIGHT` -/
def fontHeight : Nat := 12
/-- `SCALE_FACTOR` -/
def scaleFactor : UINT32 := 2

/-- The screen a platform sets, and the font. -/
structure Screen where
  gWidth : UINTN
  gHeight : UINTN
  gBpp : UINTN
  font5x12 : Nat → UINT32

/-- `FBCON_POSITION` -/
structure FbconPosition where
  x : Int
  y : Int

/-- `FBCON_COLOR` -/
structure FbconColor where
  foreground : UINTN
  background : UINTN

/-- `FbConMsgType`, the types that are told apart. -/
inductive FbConMsgType where
  | commonMsg
  | titleMsg
  | subtitleMsg
  deriving DecidableEq

/-- The module's variables, the interrupt state, the stores made, and the
number of characters handled. -/
structure FbState where
  position : FbconPosition
  maxPosition : FbconPosition
  color : FbconColor
  initialized : Bool
  interrupts : Bool
  stores : List (Nat × Byte)
  handled : Nat

/-- `FB_BGRA8888_BLACK` -/
def fbBlack : UINTN := 0xff000000
/-- `FB_BGRA8888_WHITE` -/
def fbWhite : UINTN := 0xffffffff
/-- `FB_BGRA8888_YELLOW` -/
def fbYellow : UINTN := 0xffffff00

/-- `FbConReset` -/
def fbConReset (scr : Screen) (s : FbState) : FbState :=
  { s with
    position := ⟨0, 0⟩
    maxPosition :=
      ⟨(scr.gWidth / (BitVec.ofNat 64 fontWidth + 1)).toInt,
        ((scr.gHeight - 1) / BitVec.ofNat 64 fontHeight).toInt⟩
    color := ⟨fbWhite, fbBlack⟩ }

-- ================================================================ glyphs

/-- The bytes of a pixel, lowest first. -/
def drawPixel (color : UINT32) : Nat → Pen → Pen
  | 0, p => p
  | k + 1, p => drawPixel (color >>> 8) k (p.put (color.setWidth 8))

/-- A pixel of the font: `scaleFactor` pixels of the screen in a row. -/
def drawCell (color bpp scale : UINT32) (p : Pen) : Pen :=
  (drawPixel color bpp.toNat)^[scale.toNat] p

/-- The pen passes over a cell of the glyph. -/
def skipCell (bpp scale : UINT32) (p : Pen) : Pen :=
  (Pen.skip bpp.toNat)^[scale.toNat] p

/-- The advance to the next line, `stride * bpp` after `stride` has been
reduced by the width of a glyph. -/
def lineAdvance (stride bpp scale : UINT32) : Nat :=
  ((stride - BitVec.ofNat 32 fontWidth * scale) * bpp).toNat

/-- One of the two background loops. -/
def drawBackground (background stride bpp scale : UINT32) (p : Pen) :
    Pen :=
  (fun p : Pen => (fun p : Pen =>
    ((drawCell background bpp scale)^[fontWidth] p).skip
      (lineAdvance stride bpp scale))^[scale.toNat] p)^[fontHeight / 2] p

/-- The columns of a font line: a bit of `data` each. -/
def glyphColumns (foreground bpp scale : UINT32) :
    Nat → UINT32 → Pen → UINT32 × Pen
  | 0, data, p => (data, p)
  | x + 1, data, p =>
      glyphColumns foreground bpp scale x (data >>> 1)
        (if data &&& 1 ≠ 0 then drawCell foreground bpp scale p
        else skipCell bpp scale p)

/-- A font line, drawn as lines of the screen that start with the same
bits, `temp`. -/
def glyphLines (foreground stride bpp scale temp : UINT32) :
    Nat → UINT32 → Pen → UINT32 × Pen
  | 0, data, p => (data, p)
  | i + 1, _, p =>
      let r := glyphColumns foreground bpp scale fontWidth temp p
      glyphLines foreground stride bpp scale temp i r.1
        (r.2.skip (lineAdvance stride bpp scale))

/-- Half a glyph. -/
def drawHalf (foreground stride bpp scale : UINT32) :
    Nat → UINT32 → Pen → UINT32 × Pen
  | 0, data, p => (data, p)
  | y + 1, data, p =>
      let r := glyphLines foreground stride bpp scale data scale.toNat data p
      drawHalf foreground stride bpp scale y r.1 r.2

/-- `FbConDrawglyph`, at offset `pixels`; the background first, then the
glyph from the same place. -/
def fbConDrawglyph (color : FbconColor) (pixels : Nat)
    (stride bpp : UINT32) (glyph : Nat → UINT32) (scale : UINT32)
    (stores : List (Nat × Byte)) : List (Nat × Byte) :=
  let fg := color.foreground.setWidth 32
  let bg := color.background.setWidth 32
  let bgPixels := (drawBackground bg stride bpp scale)^[2] ⟨pixels, stores⟩
  let upper := drawHalf fg stride bpp scale (fontHeight / 2) (glyph 0)
    ⟨pixels, bgPixels.stores⟩
  (drawHalf fg stride bpp scale (fontHeight / 2) (glyph 1) upper.2).2.stores

-- ============================================================ characters

section

variable (scr : Screen) (msgType : FbConMsgType) (scale : UINT32)

/-- `(gBpp / 8) * FONT_HEIGHT * gWidth`, a line of text in bytes. -/
def textLine : UINTN := scr.gBpp / 8 * BitVec.ofNat 64 fontHeight * scr.gWidth

/-- Where a line of text starts. -/
def lineOffset (y : Int) : Nat := (BitVec.ofInt 64 y * textLine scr).toNat

/-- Where a character starts. -/
def charOffset (pos : FbconPosition) : Nat :=
  lineOffset scr pos.y
    + (BitVec.ofInt 64 pos.x * scale.setWidth 64
      * (scr.gBpp / 8 * (BitVec.ofNat 64 fontWidth + 1))).toNat

/-- `ZeroMem` -/
def zeroMem (a n : Nat) (stores : List (Nat × Byte)) : List (Nat × Byte) :=
  stores ++ (List.range n).map fun i => (a + i, 0)

/-- `(int)`, of an `INTN` -/
def castInt (x : Int) : Int := (BitVec.ofInt 32 x).toInt

/-- Interrupts are enabled again if they were at first. -/
def restoreInterrupts (intstate : Bool) (s : FbState) : FbState :=
  if intstate then { s with interrupts := true } else s

/-- `newline`; the flag tells to start over. -/
def newline (intstate : Bool) (s : FbState) : Bool × FbState :=
  let y := s.position.y + scale.toNat
  if s.maxPosition.y - scale.toNat ≤ y then
    (true, restoreInterrupts intstate { s with position := ⟨0, 0⟩ })
  else
    (false, restoreInterrupts intstate
      { s with
        position := ⟨0, y⟩
        stores := zeroMem (lineOffset scr y)
          (textLine scr * scale.setWidth 64).toNat s.stores })

/-- The part of `paint` that draws a character. -/
def drawChar (c : UINT8) (s : FbState) : FbState :=
  { s with
    interrupts := false
    stores := fbConDrawglyph s.color (charOffset scr scale s.position)
      (scr.gWidth.setWidth 32) ((scr.gBpp / 8).setWidth 32)
      (fun i => scr.font5x12 ((c.toNat - 32) * 2 + i)) scale s.stores
    position := { s.position with x := s.position.x + 1 } }

/-- The character is the last of its line. -/
def lineFull (s : FbState) : Bool :=
  castInt (s.maxPosition.x / scale.toNat) ≤ s.position.x

/-- The label `paint`, with fuel for the jumps back to it. -/
def paint (c : UINT8) : Nat → Bool → FbState → Option FbState
  | 0, _, _ => none
  | fuel + 1, intstate, s =>
      let again := fun (intstate : Bool) (r : Bool × FbState) =>
        if r.1 then paint c fuel intstate r.2 else some r.2
      if 127 < c.toNat then some s
      else if c.toNat < 32 then
        if c = 10 then again intstate (newline scr scale intstate s)
        else if c = 13 then
          some { s with position := { s.position with x := 0 } }
        else some s
      else if s.position.x = 0 ∧ c = 32 ∧ msgType ≠ .subtitleMsg
          ∧ msgType ≠ .titleMsg then
        some s
      else
        let intstate := s.interrupts
        let s := drawChar scr scale c s
        if lineFull scale s then
          again intstate (newline scr scale intstate s)
        else some (restoreInterrupts intstate s)

/-- `FbConPutCharWithFactor` -/
def fbConPutCharWithFactor (fuel : Nat) (garbage : Nat → Bool) (c : UINT8)
    (s : FbState) : Option FbState :=
  let s' := { s with handled := s.handled + 1 }
  if s.initialized then
    paint scr msgType scale c fuel (garbage s.handled) s'
  else some s'

end

-- ======================================================== the serial port

section

variable (scr : Screen) (fuel : Nat) (garbage : Nat → Bool)

/-- The loop over a buffer. -/
def putChars : List UINT8 → FbState → Option FbState
  | [], s => some s
  | c :: buffer, s =>
      (fbConPutCharWithFactor scr .commonMsg scaleFactor fuel garbage c
        s).bind (putChars buffer)

/-- `SerialPortWrite` -/
def serialPortWrite (buffer : List UINT8) (s : FbState) : Option FbState :=
  let interruptState := s.interrupts
  (putChars scr fuel garbage buffer { s with interrupts := false }).map
    (restoreInterrupts interruptState)

/-- `SerialPortWriteCritical` -/
def serialPortWriteCritical (buffer : List UINT8) (s : FbState) :
    Option FbState :=
  let currentForeground := s.color.foreground
  let interruptState := s.interrupts
  let s := { s with
    interrupts := false
    color := { s.color with foreground := fbYellow } }
  (putChars scr fuel garbage buffer s).map fun s =>
    restoreInterrupts interruptState
      { s with color := { s.color with foreground := currentForeground } }

/-- A call of one of the two. -/
inductive SerialWrite where
  | write (buffer : List UINT8)
  | writeCritical (buffer : List UINT8)

/-- Calls of the two functions, one after the other. -/
def serialWrites : List SerialWrite → FbState → Option FbState
  | [], s => some s
  | .write buffer :: calls, s =>
      (serialPortWrite scr fuel garbage buffer s).bind (serialWrites calls)
  | .writeCritical buffer :: calls, s =>
      (serialPortWriteCritical scr fuel garbage buffer s).bind
        (serialWrites calls)

end

end Edk2Exynos.FrameBuffer
