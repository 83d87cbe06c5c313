/-
How many glyphs a character draws.

# Counting

`paintCounted` is `paint` with a count of its calls of `FbConDrawglyph`;
forgetting the count gives `paint` back (`paintCounted_erase`).

# Starting over

A newline at the bottom goes back to `paint` with the same character. For
a line feed that is one more newline, at the top, and for a space nothing,
as it is in column 0 then; any other character that has just filled the
last line is drawn a second time, at the top left (`paintCounted_eq`).
-/
import Edk2Exynos.FrameBuffer.Bounds

namespace Edk2Exynos.FrameBuffer

-- ============================================================== the count

section

variable (scr : Screen) (msgType : FbConMsgType) (scale : UINT32)

/-- `paint`, and the glyphs drawn before it and by it. -/
def paintCounted (c : UINT8) :
    Nat → Bool → Nat → FbState → Option (Nat × FbState)
  | 0, _, _, _ => none
  | fuel + 1, intstate, glyphs, s =>
      let again := fun (intstate : Bool) (glyphs : Nat)
          (r : Bool × FbState) =>
        if r.1 then paintCounted c fuel intstate glyphs r.2
        else some (glyphs, r.2)
      if 127 < c.toNat then some (glyphs, s)
      else if c.toNat < 32 then
        if c = 10 then
          again intstate glyphs (newline scr scale intstate s)
        else if c = 13 then
          some (glyphs, { s with position := { s.position with x := 0 } })
        else some (glyphs, s)
      else if s.position.x = 0 ∧ c = 32 ∧ msgType ≠ .subtitleMsg
          ∧ msgType ≠ .titleMsg then
        some (glyphs, s)
      else
        let intstate := s.interrupts
        let s := drawChar scr scale c s
        let glyphs := glyphs + 1
        if lineFull scale s then
          again intstate glyphs (newline scr scale intstate s)
        else some (glyphs, restoreInterrupts intstate s)

/-- `FbConPutCharWithFactor`, with the number of glyphs it draws. -/
def fbConPutCharCounted (fuel : Nat) (garbage : Nat → Bool) (c : UINT8)
    (s : FbState) : Option (Nat × FbState) :=
  let s' := { s with handled := s.handled + 1 }
  if s.initialized then
    paintCounted scr msgType scale c fuel (garbage s.handled) 0 s'
  else some (0, s')

/-- Without the count it is `paint`. -/
theorem paintCounted_erase (c : UINT8) (fuel : Nat) :
    ∀ (intstate : Bool) (glyphs : Nat) (s : FbState),
      (paintCounted scr msgType scale c fuel intstate glyphs s).map
          Prod.snd
        = paint scr msgType scale c fuel intstate s := by
  induction fuel with
  | zero => exact fun _ _ _ => rfl
  | succ fuel ih =>
      intro intstate glyphs s
      have hagain : ∀ (intstate : Bool) (glyphs : Nat)
          (r : Bool × FbState),
          (if r.1 then paintCounted scr msgType scale c fuel intstate
            glyphs r.2 else some (glyphs, r.2)).map Prod.snd
          = if r.1 then paint scr msgType scale c fuel intstate r.2
            else some r.2 := by
        intro intstate glyphs r
        split
        · exact ih intstate glyphs r.2
        · rfl
      unfold paintCounted paint
      simp only
      split
      · rfl
      split
      · split
        · exact hagain _ _ _
        split
        · rfl
        · rfl
      split
      · rfl
      split
      · exact hagain _ _ _
      · rfl

/-- Forgetting the count. -/
theorem fbConPutCharCounted_erase (fuel : Nat) (garbage : Nat → Bool)
    (c : UINT8) (s : FbState) :
    (fbConPutCharCounted scr msgType scale fuel garbage c s).map Prod.snd
      = fbConPutCharWithFactor scr msgType scale fuel garbage c s := by
  unfold fbConPutCharCounted fbConPutCharWithFactor
  simp only
  split
  · exact paintCounted_erase scr msgType scale c fuel _ 0 _
  · rfl

end

-- ========================================================== one character

/-- A glyph, and not a space in column 0. -/
def Drawable (c : UINT8) (s : FbState) : Prop :=
  32 ≤ c.toNat ∧ c.toNat ≤ 127 ∧ ¬ (s.position.x = 0 ∧ c = 32)

instance (c : UINT8) (s : FbState) : Decidable (Drawable c s) :=
  inferInstanceAs (Decidable (_ ∧ _))

/-- The cursor is on the last cell of the last line. -/
def LastCell (s : FbState) : Prop :=
  castInt (s.maxPosition.x / 2) ≤ s.position.x + 1
    ∧ s.maxPosition.y - 2 ≤ s.position.y + 2

instance (s : FbState) : Decidable (LastCell s) :=
  inferInstanceAs (Decidable (_ ∧ _))

/-- The glyphs a character draws. -/
def glyphsDrawn (c : UINT8) (s : FbState) : Nat :=
  if Drawable c s then if LastCell s ∧ c ≠ 32 then 2 else 1 else 0

variable {scr : Screen}

/-- The way back to `paintCounted`. -/
def paintCountedAgain (scr : Screen) (c : UINT8) (fuel : Nat)
    (intstate : Bool) (glyphs : Nat) (r : Bool × FbState) :
    Option (Nat × FbState) :=
  if r.1 then
    paintCounted scr .commonMsg scaleFactor c fuel intstate glyphs r.2
  else some (glyphs, r.2)

/-- Nothing is drawn. -/
theorem paintCounted_of_not_drawable {s : FbState} {c : UINT8}
    (h : ¬ Drawable c s) (fuel : Nat) (intstate : Bool) (glyphs : Nat) :
    (∃ s', paintCounted scr .commonMsg scaleFactor c (fuel + 1) intstate
        glyphs s = some (glyphs, s'))
    ∨ (c = 10 ∧ paintCounted scr .commonMsg scaleFactor c (fuel + 1)
        intstate glyphs s
      = paintCountedAgain scr c fuel intstate glyphs
        (newline scr scaleFactor intstate s)) := by
  unfold paintCounted
  simp only
  split
  · exact .inl ⟨_, rfl⟩
  next hle =>
    split
    · split
      next hfeed => exact .inr ⟨hfeed, rfl⟩
      · split
        · exact .inl ⟨_, rfl⟩
        · exact .inl ⟨_, rfl⟩
    next hge =>
      have hspace : s.position.x = 0 ∧ c = 32 := by
        by_contra hno
        exact h ⟨Nat.not_lt.1 hge, Nat.not_lt.1 hle, hno⟩
      rw [if_pos ⟨hspace.1, hspace.2, by decide, by decide⟩]
      exact .inl ⟨_, rfl⟩

/-- A glyph is not the space saved in column 0. -/
theorem Drawable.not_saved {s : FbState} {c : UINT8} (h : Drawable c s) :
    ¬ (s.position.x = 0 ∧ c = 32 ∧ FbConMsgType.commonMsg ≠ .subtitleMsg
      ∧ FbConMsgType.commonMsg ≠ .titleMsg) :=
  fun hall => h.2.2 ⟨hall.1, hall.2.1⟩

/-- A glyph is drawn, and the line may be full. -/
theorem paintCounted_of_drawable {s : FbState} {c : UINT8}
    (h : Drawable c s) (fuel : Nat) (intstate : Bool) (glyphs : Nat) :
    paintCounted scr .commonMsg scaleFactor c (fuel + 1) intstate glyphs s
      = if lineFull scaleFactor (drawChar scr scaleFactor c s) then
          paintCountedAgain scr c fuel s.interrupts (glyphs + 1)
            (newline scr scaleFactor s.interrupts
              (drawChar scr scaleFactor c s))
        else some (glyphs + 1, restoreInterrupts s.interrupts
          (drawChar scr scaleFactor c s)) := by
  unfold paintCounted
  simp only
  rw [if_neg (Nat.not_lt.2 h.2.1), if_neg (Nat.not_lt.2 h.1),
    if_neg h.not_saved]
  rfl

/-- A newline that wraps starts over at the top, any other ends. -/
theorem paintCountedAgain_newline (s : FbState) (c : UINT8) (fuel : Nat)
    (intstate : Bool) (glyphs : Nat) :
    paintCountedAgain scr c fuel intstate glyphs
        (newline scr scaleFactor intstate s)
      = if s.maxPosition.y - 2 ≤ s.position.y + 2 then
          paintCounted scr .commonMsg scaleFactor c fuel intstate glyphs
            (restoreInterrupts intstate { s with position := ⟨0, 0⟩ })
        else some (glyphs, (newline scr scaleFactor intstate s).2) := by
  unfold paintCountedAgain
  by_cases hwrap : s.maxPosition.y - 2 ≤ s.position.y + 2
  · have heq : newline scr scaleFactor intstate s = (true,
        restoreInterrupts intstate { s with position := ⟨0, 0⟩ }) :=
      if_pos hwrap
    rw [heq, if_pos hwrap]
    rfl
  · have heq : (newline scr scaleFactor intstate s).1 = false :=
      congrArg Prod.fst (if_neg hwrap)
    rw [heq, if_neg hwrap]
    rfl

@[simp] theorem restoreInterrupts_maxPosition (intstate : Bool)
    (s : FbState) :
    (restoreInterrupts intstate s).maxPosition = s.maxPosition := by
  unfold restoreInterrupts
  split <;> rfl

/-- At the top left a pass always ends. -/
theorem paintCounted_top (scr : Screen) {s : FbState}
    (hpos : s.position = ⟨0, 0⟩) (hmax : 4 < s.maxPosition.y) (c : UINT8)
    (fuel : Nat) (intstate : Bool) (glyphs : Nat) :
    ∃ s', paintCounted scr .commonMsg scaleFactor c (fuel + 1) intstate
        glyphs s
      = some (glyphs + if Drawable c s then 1 else 0, s') := by
  have hy : s.position.y = 0 := by rw [hpos]
  by_cases hdraw : Drawable c s
  · rw [if_pos hdraw, paintCounted_of_drawable hdraw]
    split
    · have hstay : ¬ (drawChar scr scaleFactor c s).maxPosition.y - 2
          ≤ (drawChar scr scaleFactor c s).position.y + 2 := by
        show ¬ s.maxPosition.y - 2 ≤ s.position.y + 2
        omega
      rw [paintCountedAgain_newline, if_neg hstay]
      exact ⟨_, rfl⟩
    · exact ⟨_, rfl⟩
  · rw [if_neg hdraw, Nat.add_zero]
    rcases paintCounted_of_not_drawable hdraw fuel intstate glyphs with
      hdone | ⟨-, hfeed⟩
    · exact hdone
    · have hstay : ¬ s.maxPosition.y - 2 ≤ s.position.y + 2 := by omega
      rw [hfeed, paintCountedAgain_newline, if_neg hstay]
      exact ⟨_, rfl⟩

/-- Two passes, and the glyphs they draw. -/
theorem paintCounted_eq (scr : Screen) {s : FbState}
    (hmax : 4 < s.maxPosition.y) (c : UINT8) (fuel : Nat)
    (intstate : Bool) (glyphs : Nat) :
    ∃ s', paintCounted scr .commonMsg scaleFactor c (fuel + 2) intstate
        glyphs s
      = some (glyphs + glyphsDrawn c s, s') := by
  unfold glyphsDrawn
  by_cases hdraw : Drawable c s
  · rw [if_pos hdraw, paintCounted_of_drawable hdraw]
    by_cases hfull : castInt (s.maxPosition.x / 2) ≤ s.position.x + 1
    · have hline : lineFull scaleFactor (drawChar scr scaleFactor c s)
          = true := decide_eq_true hfull
      rw [if_pos hline, paintCountedAgain_newline]
      by_cases hwrap : s.maxPosition.y - 2 ≤ s.position.y + 2
      · -- a second pass, of the same character
        have hback : (drawChar scr scaleFactor c s).maxPosition.y - 2
            ≤ (drawChar scr scaleFactor c s).position.y + 2 := hwrap
        rw [if_pos hback]
        obtain ⟨s', heq⟩ := paintCounted_top scr (s :=
          restoreInterrupts s.interrupts
            { drawChar scr scaleFactor c s with position := ⟨0, 0⟩ })
          (by simp) (by rw [restoreInterrupts_maxPosition]; exact hmax)
          c fuel s.interrupts (glyphs + 1)
        refine ⟨s', heq.trans ?_⟩
        obtain ⟨hge, hle, -⟩ := hdraw
        by_cases hspace : c = 32
        · have hno : ¬ Drawable c (restoreInterrupts s.interrupts
              { drawChar scr scaleFactor c s with
                position := ⟨0, 0⟩ }) :=
            fun h => h.2.2 ⟨by simp, hspace⟩
          rw [if_neg hno, if_neg fun h => h.2 hspace]
        · have hyes : Drawable c (restoreInterrupts s.interrupts
              { drawChar scr scaleFactor c s with
                position := ⟨0, 0⟩ }) :=
            ⟨hge, hle, fun h => hspace h.2⟩
          rw [if_pos hyes, if_pos ⟨⟨hfull, hwrap⟩, hspace⟩]
      · have hlast : ¬ (LastCell s ∧ c ≠ 32) := fun h => hwrap h.1.2
        rw [if_neg hlast]
        exact ⟨_, if_neg hwrap⟩
    · have hroom : lineFull scaleFactor (drawChar scr scaleFactor c s)
          = false := decide_eq_false hfull
      have hlast : ¬ (LastCell s ∧ c ≠ 32) := fun h => hfull h.1.1
      rw [hroom, if_neg hlast]
      exact ⟨_, rfl⟩
  · rw [if_neg hdraw, Nat.add_zero]
    rcases paintCounted_of_not_drawable hdraw (fuel + 1) intstate glyphs
      with hdone | ⟨hten, hfeed⟩
    · exact hdone
    · rw [hfeed, paintCountedAgain_newline]
      split
      · obtain ⟨s', heq⟩ := paintCounted_top scr (s :=
          restoreInterrupts intstate { s with position := ⟨0, 0⟩ })
          (by simp) (by simpa using hmax) c fuel intstate glyphs
        have hno : ¬ Drawable c (restoreInterrupts intstate
            { s with position := ⟨0, 0⟩ }) := by
          rw [hten]
          exact fun h => absurd h.1 (by decide)
        rw [if_neg hno] at heq
        exact ⟨s', heq⟩
      · exact ⟨_, rfl⟩

/-- The number is right but for a glyph in the last cell. -/
theorem glyphsDrawn_iff (c : UINT8) (s : FbState) :
    (glyphsDrawn c s = if Drawable c s then 1 else 0)
      ↔ ¬ (LastCell s ∧ 32 < c.toNat ∧ c.toNat ≤ 127) := by
  have hspace : c = 32 ↔ c.toNat = 32 := by
    rw [← BitVec.toNat_inj]
    rfl
  unfold glyphsDrawn
  by_cases hdraw : Drawable c s
  · rw [if_pos hdraw, if_pos hdraw]
    obtain ⟨hge, hle, -⟩ := hdraw
    by_cases hlast : LastCell s ∧ c ≠ 32
    · rw [if_pos hlast]
      have hne : c.toNat ≠ 32 := fun h => hlast.2 (hspace.2 h)
      constructor
      · intro h
        cases h
      · intro h
        exact absurd ⟨hlast.1, by omega, hle⟩ h
    · rw [if_neg hlast]
      refine ⟨fun _ hall => hlast ⟨hall.1, ?_⟩, fun _ => rfl⟩
      intro heq
      have hlt := hall.2.1
      rw [heq] at hlt
      exact absurd hlt (by decide)
  · rw [if_neg hdraw, if_neg hdraw]
    refine ⟨fun _ hall => hdraw ⟨Nat.le_of_lt hall.2.1, hall.2.2, ?_⟩,
      fun _ => rfl⟩
    rintro ⟨-, heq⟩
    have hlt := hall.2.1
    rw [heq] at hlt
    exact absurd hlt (by decide)

-- =========================================================== reachability

/-- The states from `FbConReset` on: characters are put, and the two
serial writes set the colour and the interrupts. -/
inductive Reachable (scr : Screen) (fuel : Nat) (garbage : Nat → Bool) :
    FbState → Prop where
  | reset (s : FbState) (hinitialized : s.initialized = true) :
      Reachable scr fuel garbage (fbConReset scr s)
  | putChar {s s' : FbState} (c : UINT8)
      (h : Reachable scr fuel garbage s)
      (hput : fbConPutCharWithFactor scr .commonMsg scaleFactor fuel
        garbage c s = some s') :
      Reachable scr fuel garbage s'
  | set {s : FbState} (color : FbconColor) (interrupts : Bool)
      (h : Reachable scr fuel garbage s) :
      Reachable scr fuel garbage
        { s with color := color, interrupts := interrupts }

/-- What a character leaves alone. -/
structure SameScreen (s s' : FbState) : Prop where
  maxPosition : s'.maxPosition = s.maxPosition
  initialized : s'.initialized = s.initialized

theorem SameScreen.refl (s : FbState) : SameScreen s s := ⟨rfl, rfl⟩

/-- What two steps leave alone, both do. -/
theorem SameScreen.trans {s s' s'' : FbState} (h : SameScreen s s')
    (h' : SameScreen s' s'') : SameScreen s s'' :=
  ⟨h'.maxPosition.trans h.maxPosition, h'.initialized.trans h.initialized⟩

/-- Enabling interrupts leaves the screen. -/
theorem restoreInterrupts_same (intstate : Bool) (s : FbState) :
    SameScreen s (restoreInterrupts intstate s) := by
  unfold restoreInterrupts
  split
  · exact ⟨rfl, rfl⟩
  · exact .refl s

/-- A newline leaves the size of the screen. -/
theorem newline_same (intstate : Bool) (s : FbState) :
    SameScreen s (newline scr scaleFactor intstate s).2 := by
  have hrestore := fun s' : FbState => restoreInterrupts_same intstate s'
  unfold newline
  simp only
  split
  · exact ⟨(hrestore _).maxPosition, (hrestore _).initialized⟩
  · exact ⟨(hrestore _).maxPosition, (hrestore _).initialized⟩

/-- `paint` leaves the size of the screen. -/
theorem paint_same (c : UINT8) (fuel : Nat) {intstate : Bool}
    {s s' : FbState}
    (h : paint scr .commonMsg scaleFactor c fuel intstate s = some s') :
    SameScreen s s' :=
  paint_keeps .commonMsg c (SameScreen s)
    (fun _ hs => hs.trans ⟨rfl, rfl⟩)
    (fun intstate s₁ hs => hs.trans (newline_same intstate s₁))
    (fun _ hs => hs.trans ⟨rfl, rfl⟩)
    (fun intstate s₁ hs => hs.trans (restoreInterrupts_same intstate s₁))
    fuel h (.refl s)

/-- A character leaves the size of the screen. -/
theorem fbConPutCharWithFactor_same {fuel : Nat} {garbage : Nat → Bool}
    {c : UINT8} {s s' : FbState}
    (h : fbConPutCharWithFactor scr .commonMsg scaleFactor fuel garbage c s
      = some s') : SameScreen s s' := by
  have hcount : SameScreen s { s with handled := s.handled + 1 } :=
    ⟨rfl, rfl⟩
  unfold fbConPutCharWithFactor at h
  simp only at h
  split at h
  · exact hcount.trans (paint_same c fuel h)
  · cases h
    exact hcount

/-- The screen that `FbConReset` measured. -/
theorem Reachable.screen {fuel : Nat} {garbage : Nat → Bool}
    {s : FbState} (h : Reachable scr fuel garbage s) :
    s.maxPosition.y
        = ((scr.gHeight - 1) / BitVec.ofNat 64 fontHeight).toInt
      ∧ s.initialized = true := by
  induction h with
  | reset s hinitialized => exact ⟨rfl, hinitialized⟩
  | putChar c _ hput ih =>
      have hsame := fbConPutCharWithFactor_same hput
      rw [hsame.maxPosition, hsame.initialized]
      exact ih
  | set _ _ _ ih => exact ih

/-- A buffer leads from a reachable state to one. -/
theorem Reachable.putChars {fuel : Nat} {garbage : Nat → Bool}
    {buffer : List UINT8} {s s' : FbState}
    (h : Reachable scr fuel garbage s)
    (hput : putChars scr fuel garbage buffer s = some s') :
    Reachable scr fuel garbage s' := by
  induction buffer generalizing s with
  | nil =>
      cases hput
      exact h
  | cons c buffer ih =>
      obtain ⟨s₁, h₁, hrest⟩ := Option.bind_eq_some_iff.1 hput
      exact ih (h.putChar c h₁) hrest

-- ============================================================ the glyphs

/-- A character put, with the number of glyphs it draws. -/
theorem fbConPutCharCounted_eq (scr : Screen) {s : FbState}
    (hinitialized : s.initialized = true) (hmax : 4 < s.maxPosition.y)
    {fuel : Nat} (hfuel : 2 ≤ fuel) (garbage : Nat → Bool) (c : UINT8) :
    ∃ s', fbConPutCharCounted scr .commonMsg scaleFactor fuel garbage c s
      = some (glyphsDrawn c s, s') := by
  obtain ⟨fuel, rfl⟩ := Nat.exists_eq_add_of_le' hfuel
  obtain ⟨s', heq⟩ := paintCounted_eq scr
    (s := { s with handled := s.handled + 1 }) hmax c fuel
    (garbage s.handled) 0
  refine ⟨s', ?_⟩
  unfold fbConPutCharCounted
  simp only
  rw [if_pos hinitialized, heq, Nat.zero_add]
  rfl

/-- On a screen of enough lines a character always ends, and it draws one
glyph, or none, exactly when it does not fill the last line. -/
theorem putChar_glyphs_iff {fuel : Nat} {garbage : Nat → Bool}
    (hheight : 2 * scaleFactor.toNat
      < ((scr.gHeight - 1) / BitVec.ofNat 64 fontHeight).toNat)
    (hfuel : 2 ≤ fuel) {s : FbState} (h : Reachable scr fuel garbage s)
    (c : UINT8) :
    ∃ n s', fbConPutCharCounted scr .commonMsg scaleFactor fuel garbage c s
        = some (n, s')
      ∧ fbConPutCharWithFactor scr .commonMsg scaleFactor fuel garbage c s
        = some s'
      ∧ ((n = if Drawable c s then 1 else 0)
        ↔ ¬ (LastCell s ∧ 32 < c.toNat ∧ c.toNat ≤ 127)) := by
  obtain ⟨hmax, hinitialized⟩ := h.screen
  have hlines : 4 < s.maxPosition.y := by
    have hdiv : ((scr.gHeight - 1) / BitVec.ofNat 64 fontHeight).toNat
        ≤ 2 ^ 64 / 12 := by
      rw [BitVec.toNat_udiv]
      exact Nat.div_le_div_right (Nat.le_of_lt (scr.gHeight - 1).isLt)
    rw [hmax, toInt_of_lt hdiv (by decide)]
    rw [scaleFactor_toNat] at hheight
    omega
  obtain ⟨s', hput⟩ :=
    fbConPutCharCounted_eq scr hinitialized hlines hfuel garbage c
  refine ⟨glyphsDrawn c s, s', hput, ?_, glyphsDrawn_iff c s⟩
  rw [← fbConPutCharCounted_erase, hput]
  rfl

/-- A screen with two cells to a line of text and two such lines. -/
def narrow : Screen where
  gWidth := 24
  gHeight := 61
  gBpp := 8
  font5x12 := fun _ => 0x1f

/-- The narrow screen after a reset is reachable. -/
theorem narrow_reset : Reachable narrow 2 (fun _ => false)
    (fbConReset narrow poweredOn) := .reset poweredOn rfl

/-- The first letter on the narrow screen is one glyph. -/
theorem putChar_glyphs_iff_first :
    ∃ n s', fbConPutCharCounted narrow .commonMsg scaleFactor 2
        (fun _ => false) 65 (fbConReset narrow poweredOn) = some (n, s')
      ∧ n = 1 := by
  obtain ⟨n, s', hput, -, hiff⟩ := putChar_glyphs_iff (by decide)
    (Nat.le_refl 2) narrow_reset 65
  exact ⟨n, s', hput, hiff.2 (by decide)⟩

/-- Four characters fill the screen: the fourth is drawn twice. -/
theorem putChar_drawn_twice :
    ¬ ∀ (scr : Screen) (fuel : Nat) (garbage : Nat → Bool) (s : FbState)
        (c : UINT8),
      2 * (fontWidth + 1) * scaleFactor.toNat ≤ scr.gWidth.toNat →
      2 * scaleFactor.toNat
        < ((scr.gHeight - 1) / BitVec.ofNat 64 fontHeight).toNat →
      2 ≤ fuel → Reachable scr fuel garbage s →
      ∃ s', fbConPutCharCounted scr .commonMsg scaleFactor fuel garbage c s
        = some (if Drawable c s then 1 else 0, s') := by
  intro h
  have hthree : ∃ s, putChars narrow 2 (fun _ => false) [65, 65, 65]
      (fbConReset narrow poweredOn) = some s ∧ s.position = ⟨1, 2⟩
        ∧ s.maxPosition = ⟨4, 5⟩ ∧ s.initialized = true :=
    ⟨_, rfl, rfl, rfl, rfl⟩
  obtain ⟨s, hput, hpos, hmax, hinitialized⟩ := hthree
  have hlast : LastCell s := by
    unfold LastCell
    rw [hpos, hmax]
    decide
  obtain ⟨s', hone⟩ := h narrow 2 (fun _ => false) s 65 (by decide)
    (by decide) (Nat.le_refl 2) (narrow_reset.putChars hput)
  obtain ⟨s'', htwo⟩ := fbConPutCharCounted_eq narrow hinitialized
    (by rw [hmax]; decide) (Nat.le_refl 2) (fun _ => false) 65
  rw [htwo] at hone
  have hcount : glyphsDrawn 65 s = if Drawable 65 s then 1 else 0 :=
    congrArg Prod.fst (Option.some.inj hone)
  exact (glyphsDrawn_iff 65 s).1 hcount ⟨hlast, by decide, by decide⟩

end Edk2Exynos.FrameBuffer
