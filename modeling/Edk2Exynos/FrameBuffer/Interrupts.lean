/-
The interrupt state while a buffer is written.

# Two saved states

`SerialPortWrite` and `SerialPortWriteCritical` disable interrupts and
enable them again at the end if they were; `FbConPutCharWithFactor` does
the same around a character it draws, where it finds them disabled. A line
feed has saved nothing when it comes to `if (intstate)`.

# Watching

`serialWriteWatched` is a write with the interrupt state after every
statement that sets it, up to the end of the last character; forgetting
those gives the write back (`serialWriteWatched_erase`). A write that ends
restores the interrupts and has kept them disabled, whatever `intstate`
holds, exactly when it has no line feed to handle (`keepsInterrupts_iff`).

# Ending

A character that has filled the last line is drawn again at the top left.
Where that is the last cell of the last line too, it is drawn forever
(`paint_stuck`); `RoomToDraw` excludes such a screen.
-/
import Edk2Exynos.FrameBuffer.GlyphCount

namespace Edk2Exynos.FrameBuffer

-- ============================================================== watching

/-- A state of the interrupts, and those seen after it. -/
def sees (interrupts : Bool) (r : Option (List Bool × FbState)) :
    Option (List Bool × FbState) :=
  r.map fun r => (interrupts :: r.1, r.2)

section

variable (scr : Screen) (msgType : FbConMsgType) (scale : UINT32)

/-- `paint`, with the interrupt states it goes through. -/
def paintWatched (c : UINT8) :
    Nat → Bool → FbState → Option (List Bool × FbState)
  | 0, _, _ => none
  | fuel + 1, intstate, s =>
      let again := fun (intstate : Bool) (r : Bool × FbState) =>
        sees r.2.interrupts
          (if r.1 then paintWatched c fuel intstate r.2
          else some ([], r.2))
      if 127 < c.toNat then some ([], s)
      else if c.toNat < 32 then
        if c = 10 then again intstate (newline scr scale intstate s)
        else if c = 13 then
          some ([], { s with position := { s.position with x := 0 } })
        else some ([], s)
      else if s.position.x = 0 ∧ c = 32 ∧ msgType ≠ .subtitleMsg
          ∧ msgType ≠ .titleMsg then
        some ([], s)
      else
        let intstate := s.interrupts
        let s := drawChar scr scale c s
        sees s.interrupts
          (if lineFull scale s then
            again intstate (newline scr scale intstate s)
          else
            let s := restoreInterrupts intstate s
            sees s.interrupts (some ([], s)))

/-- `FbConPutCharWithFactor`, likewise. -/
def fbConPutCharWatched (fuel : Nat) (garbage : Nat → Bool) (c : UINT8)
    (s : FbState) : Option (List Bool × FbState) :=
  let s' := { s with handled := s.handled + 1 }
  if s.initialized then
    paintWatched scr msgType scale c fuel (garbage s.handled) s'
  else some ([], s')

end

section

variable (scr : Screen) (fuel : Nat) (garbage : Nat → Bool)

/-- `putChars`, likewise. -/
def putCharsWatched : List UINT8 → FbState → Option (List Bool × FbState)
  | [], s => some ([], s)
  | c :: buffer, s =>
      (fbConPutCharWatched scr .commonMsg scaleFactor fuel garbage c s).bind
        fun r => (putCharsWatched buffer r.2).map fun r' =>
          (r.1 ++ r'.1, r'.2)

/-- The bytes a call is given. -/
def SerialWrite.buffer : SerialWrite → List UINT8
  | .write buffer => buffer
  | .writeCritical buffer => buffer

/-- The state in which the first character is handled. -/
def SerialWrite.opened : SerialWrite → FbState → FbState
  | .write _, s => { s with interrupts := false }
  | .writeCritical _, s =>
      { s with
        interrupts := false
        color := { s.color with foreground := fbYellow } }

/-- What is done after the last character of a write from `s`. -/
def SerialWrite.closed : SerialWrite → FbState → FbState → FbState
  | .write _, s, s' => restoreInterrupts s.interrupts s'
  | .writeCritical _, s, s' => restoreInterrupts s.interrupts
      { s' with color := { s'.color with foreground := s.color.foreground } }

/-- The call itself. -/
def SerialWrite.run : SerialWrite → FbState → Option FbState
  | .write buffer, s => serialPortWrite scr fuel garbage buffer s
  | .writeCritical buffer, s =>
      serialPortWriteCritical scr fuel garbage buffer s

/-- A write with the interrupt states from its `ArmDisableInterrupts`
until the last character has been handled. -/
def serialWriteWatched (call : SerialWrite) (s : FbState) :
    Option (List Bool × FbState) :=
  (sees (call.opened s).interrupts
    (putCharsWatched scr fuel garbage call.buffer (call.opened s))).map
      fun r => (r.1, call.closed s r.2)

end

-- =============================================================== erasure

@[simp] theorem sees_erase (interrupts : Bool)
    (r : Option (List Bool × FbState)) :
    (sees interrupts r).map Prod.snd = r.map Prod.snd := by
  unfold sees
  rw [Option.map_map]
  rfl

/-- What is seen first is the flag as it is. -/
theorem sees_eq_some {interrupts : Bool}
    {r : Option (List Bool × FbState)} {moments : List Bool} {s : FbState}
    (h : sees interrupts r = some (moments, s)) :
    ∃ rest, r = some (rest, s) ∧ moments = interrupts :: rest := by
  obtain ⟨⟨rest, s'⟩, hr, heq⟩ := Option.map_eq_some_iff.1 h
  cases heq
  exact ⟨rest, hr, rfl⟩

section

variable (scr : Screen)

/-- Without the flags that are seen it is `paint`. -/
theorem paintWatched_erase (msgType : FbConMsgType) (scale : UINT32)
    (c : UINT8) (fuel : Nat) :
    ∀ (intstate : Bool) (s : FbState),
      (paintWatched scr msgType scale c fuel intstate s).map Prod.snd
        = paint scr msgType scale c fuel intstate s := by
  induction fuel with
  | zero => exact fun _ _ => rfl
  | succ fuel ih =>
      intro intstate s
      have hagain : ∀ (intstate : Bool) (r : Bool × FbState),
          (sees r.2.interrupts
            (if r.1 then paintWatched scr msgType scale c fuel intstate r.2
            else some ([], r.2))).map Prod.snd
          = if r.1 then paint scr msgType scale c fuel intstate r.2
            else some r.2 := by
        intro intstate r
        rw [sees_erase]
        split
        · exact ih intstate r.2
        · rfl
      unfold paintWatched paint
      simp only
      split
      · rfl
      split
      · split
        · exact hagain _ _
        split
        · rfl
        · rfl
      split
      · rfl
      rw [sees_erase]
      split
      · exact hagain _ _
      · rfl

/-- Without them a character is put as ever. -/
theorem fbConPutCharWatched_erase (msgType : FbConMsgType)
    (scale : UINT32) (fuel : Nat) (garbage : Nat → Bool) (c : UINT8)
    (s : FbState) :
    (fbConPutCharWatched scr msgType scale fuel garbage c s).map Prod.snd
      = fbConPutCharWithFactor scr msgType scale fuel garbage c s := by
  unfold fbConPutCharWatched fbConPutCharWithFactor
  simp only
  split
  · exact paintWatched_erase scr msgType scale c fuel _ _
  · rfl

/-- Without them a buffer is put as ever. -/
theorem putCharsWatched_erase (fuel : Nat) (garbage : Nat → Bool)
    (buffer : List UINT8) (s : FbState) :
    (putCharsWatched scr fuel garbage buffer s).map Prod.snd
      = putChars scr fuel garbage buffer s := by
  induction buffer generalizing s with
  | nil => rfl
  | cons c buffer ih =>
      unfold putCharsWatched putChars
      rw [← fbConPutCharWatched_erase]
      cases fbConPutCharWatched scr .commonMsg scaleFactor fuel garbage c
          s with
      | none => rfl
      | some r =>
          show ((putCharsWatched scr fuel garbage buffer r.2).map _).map _
            = putChars scr fuel garbage buffer r.2
          rw [Option.map_map, ← ih r.2]
          rfl

/-- Forgetting the interrupt states. -/
theorem serialWriteWatched_erase (fuel : Nat) (garbage : Nat → Bool)
    (call : SerialWrite) (s : FbState) :
    (serialWriteWatched scr fuel garbage call s).map Prod.snd
      = call.run scr fuel garbage s := by
  have hrun : call.run scr fuel garbage s
      = (putChars scr fuel garbage call.buffer (call.opened s)).map
        (call.closed s) := by
    cases call with
    | write buffer => rfl
    | writeCritical buffer => rfl
  unfold serialWriteWatched
  rw [hrun, ← putCharsWatched_erase]
  cases putCharsWatched scr fuel garbage call.buffer (call.opened s) with
  | none => rfl
  | some r => rfl

-- ============================================================== disabled

/-- Where it ends, interrupts have been disabled and still are. -/
def KeptOff (r : Option (List Bool × FbState)) : Prop :=
  ∀ moments s', r = some (moments, s') →
    (∀ b ∈ moments, b = false) ∧ s'.interrupts = false

/-- Where nothing is drawn, interrupts stay disabled. -/
theorem keptOff_some {s : FbState} (h : s.interrupts = false) :
    KeptOff (some ([], s)) := by
  intro moments s' heq
  cases heq
  exact ⟨fun _ hb => absurd hb List.not_mem_nil, h⟩

/-- One more look at disabled interrupts. -/
theorem keptOff_sees {interrupts : Bool}
    {r : Option (List Bool × FbState)} (h : interrupts = false)
    (hr : KeptOff r) : KeptOff (sees interrupts r) := by
  intro moments s' heq
  obtain ⟨rest, hrest, rfl⟩ := sees_eq_some heq
  obtain ⟨hall, hend⟩ := hr rest s' hrest
  exact ⟨List.forall_mem_cons.2 ⟨h, hall⟩, hend⟩

/-- A newline enables interrupts if it is told to. -/
theorem newline_interrupts (intstate : Bool) (s : FbState) :
    (newline scr scaleFactor intstate s).2.interrupts
      = (intstate || s.interrupts) := by
  unfold newline restoreInterrupts
  cases intstate with
  | false => simp only; split <;> rfl
  | true => simp only; split <;> rfl

/-- Interrupts that are disabled stay so while a character is handled,
unless it is a line feed that finds something in `intstate`. -/
theorem paintWatched_keptOff {c : UINT8} (fuel : Nat) :
    ∀ {intstate : Bool} {s : FbState},
      (c = 10 → intstate = false) → s.interrupts = false →
      KeptOff (paintWatched scr .commonMsg scaleFactor c fuel intstate
        s) := by
  induction fuel with
  | zero =>
      intro _ _ _ _ _ _ h
      cases h
  | succ fuel ih =>
      intro intstate s hfeed hs
      -- a newline that restores disabled interrupts, and what follows it
      have hagain : ∀ {s₁ : FbState}, s₁.interrupts = false →
          KeptOff (sees (newline scr scaleFactor false s₁).2.interrupts
            (if (newline scr scaleFactor false s₁).1 then
              paintWatched scr .commonMsg scaleFactor c fuel false
                (newline scr scaleFactor false s₁).2
            else some ([], (newline scr scaleFactor false s₁).2))) := by
        intro s₁ h₁
        have hnew := newline_interrupts scr false s₁
        rw [h₁] at hnew
        refine keptOff_sees hnew ?_
        split
        · exact ih (fun _ => rfl) hnew
        · exact keptOff_some hnew
      unfold paintWatched
      simp only
      split
      · exact keptOff_some hs
      split
      · split
        next hten =>
          rw [hfeed hten]
          exact hagain hs
        split
        · exact keptOff_some hs
        · exact keptOff_some hs
      split
      · exact keptOff_some hs
      rw [hs]
      refine keptOff_sees rfl ?_
      split
      · exact hagain rfl
      · exact keptOff_sees rfl (keptOff_some rfl)

/-- A line feed enables interrupts when it finds something in
`intstate`. -/
theorem paintWatched_enabled {fuel : Nat} {s s' : FbState}
    {moments : List Bool}
    (h : paintWatched scr .commonMsg scaleFactor 10 fuel true s
      = some (moments, s')) : true ∈ moments := by
  cases fuel with
  | zero => cases h
  | succ fuel =>
      unfold paintWatched at h
      simp only at h
      rw [if_neg (by decide), if_pos (by decide), if_pos trivial] at h
      obtain ⟨rest, -, rfl⟩ := sees_eq_some h
      rw [newline_interrupts]
      exact List.mem_cons_self

-- ================================================================ ending

/-- A character that shows: not a space, and not a control character. -/
def IsGlyph (c : UINT8) : Prop := 32 < c.toNat ∧ c.toNat ≤ 127

instance (c : UINT8) : Decidable (IsGlyph c) :=
  inferInstanceAs (Decidable (_ ∧ _))

/-- The top left cell is not the last of the screen. -/
def RoomToDraw (s : FbState) : Prop :=
  1 < castInt (s.maxPosition.x / 2) ∨ 4 < s.maxPosition.y

instance (s : FbState) : Decidable (RoomToDraw s) :=
  inferInstanceAs (Decidable (_ ∨ _))

variable {scr}

/-- In the last cell a drawn character starts over at the top left. -/
theorem paint_lastCell (scr : Screen) {s : FbState} {c : UINT8}
    (hdraw : Drawable c s) (hlast : LastCell s) (fuel : Nat)
    (intstate : Bool) :
    ∃ intstate' s₁,
      paint scr .commonMsg scaleFactor c (fuel + 1) intstate s
        = paint scr .commonMsg scaleFactor c fuel intstate' s₁
      ∧ s₁.position = ⟨0, 0⟩ ∧ s₁.maxPosition = s.maxPosition := by
  have hfull : lineFull scaleFactor (drawChar scr scaleFactor c s) = true :=
    decide_eq_true hlast.1
  have hwrap : newline scr scaleFactor s.interrupts
      (drawChar scr scaleFactor c s) = (true,
        restoreInterrupts s.interrupts
          { drawChar scr scaleFactor c s with position := ⟨0, 0⟩ }) :=
    if_pos hlast.2
  rw [paint_succ, if_neg (Nat.not_lt.2 hdraw.2.1),
    if_neg (Nat.not_lt.2 hdraw.1), if_neg hdraw.not_saved, if_pos hfull,
    hwrap]
  refine ⟨_, _, rfl, ?_, ?_⟩
  · rw [restoreInterrupts_position]
  · rw [restoreInterrupts_maxPosition]
    rfl

/-- Anywhere else, a character that is not a line feed ends. -/
theorem paint_one_pass {s : FbState} {c : UINT8} (hfeed : c ≠ 10)
    (h : ¬ (Drawable c s ∧ LastCell s)) (fuel : Nat) (intstate : Bool) :
    ∃ s', paint scr .commonMsg scaleFactor c (fuel + 1) intstate s
      = some s' := by
  rw [paint_succ]
  split
  · exact ⟨_, rfl⟩
  next hle =>
  split
  · split
    · exact ⟨_, rfl⟩
    · exact ⟨_, rfl⟩
  next hge =>
  split
  · exact ⟨_, rfl⟩
  next hno =>
  split
  next hfull =>
    have hdraw : Drawable c s :=
      ⟨Nat.not_lt.1 hge, Nat.not_lt.1 hle,
        fun hall => hno ⟨hall.1, hall.2, by decide, by decide⟩⟩
    have hbelow : ¬ s.maxPosition.y - 2 ≤ s.position.y + 2 :=
      fun hy => h ⟨hdraw, of_decide_eq_true hfull, hy⟩
    have hstay : (newline scr scaleFactor s.interrupts
        (drawChar scr scaleFactor c s)).1 = false :=
      congrArg Prod.fst (if_neg hbelow)
    unfold paintAgain
    rw [hstay]
    exact ⟨_, rfl⟩
  next => exact ⟨_, rfl⟩

/-- Two passes are enough where there is room at the top left. -/
theorem paint_ends {s : FbState} {c : UINT8} (hfeed : c ≠ 10)
    (hroom : RoomToDraw s ∨ ¬ IsGlyph c) (fuel : Nat) (intstate : Bool) :
    ∃ s', paint scr .commonMsg scaleFactor c (fuel + 2) intstate s
      = some s' := by
  by_cases h : Drawable c s ∧ LastCell s
  · obtain ⟨intstate', s₁, heq, hpos, hmax⟩ :=
      paint_lastCell scr h.1 h.2 (fuel + 1) intstate
    rw [heq]
    refine paint_one_pass hfeed ?_ fuel intstate'
    rintro ⟨⟨hge, hle, hspace⟩, hx, hy⟩
    have hglyph : IsGlyph c := by
      refine ⟨lt_of_le_of_ne hge fun heq => hspace ⟨?_, ?_⟩, hle⟩
      · rw [hpos]
      · exact BitVec.eq_of_toNat_eq heq.symm
    rw [hpos, hmax] at hx hy
    rcases hroom with (hcols | hlines) | hnone
    · exact absurd hx (not_le.2 hcols)
    · exact absurd hy (by simp; omega)
    · exact hnone hglyph
  · exact paint_one_pass hfeed h (fuel + 1) intstate

/-- Without room there, a character that shows never ends. -/
theorem paint_stuck {c : UINT8} (hglyph : IsGlyph c) (fuel : Nat) :
    ∀ {s : FbState}, ¬ RoomToDraw s →
      0 ≤ s.position.x ∧ 0 ≤ s.position.y → ∀ intstate : Bool,
      paint scr .commonMsg scaleFactor c fuel intstate s = none := by
  induction fuel with
  | zero => exact fun _ _ _ => rfl
  | succ fuel ih =>
      intro s hroom hcursor intstate
      have hdraw : Drawable c s := by
        refine ⟨Nat.le_of_lt hglyph.1, hglyph.2, fun hall => ?_⟩
        have hlt := hglyph.1
        rw [hall.2] at hlt
        exact absurd hlt (by decide)
      obtain ⟨hcols, hlines⟩ := not_or.1 hroom
      have hlast : LastCell s := by
        unfold LastCell
        omega
      obtain ⟨intstate', s₁, heq, hpos, hmax⟩ :=
        paint_lastCell scr hdraw hlast fuel intstate
      rw [heq]
      have hroom₁ : ¬ RoomToDraw s₁ := by
        unfold RoomToDraw
        rw [hmax]
        exact hroom
      have hcursor₁ : 0 ≤ s₁.position.x ∧ 0 ≤ s₁.position.y := by
        rw [hpos]
        exact ⟨Int.le_refl 0, Int.le_refl 0⟩
      exact ih hroom₁ hcursor₁ intstate'

/-- No character moves the cursor off the screen to the left or top. -/
theorem paint_cursor {c : UINT8} {fuel : Nat} {intstate : Bool}
    {s s' : FbState}
    (h : paint scr .commonMsg scaleFactor c fuel intstate s = some s')
    (hcursor : 0 ≤ s.position.x ∧ 0 ≤ s.position.y) :
    0 ≤ s'.position.x ∧ 0 ≤ s'.position.y := by
  refine paint_keeps .commonMsg c
    (fun s => 0 ≤ s.position.x ∧ 0 ≤ s.position.y) ?_ ?_ ?_ ?_ fuel h
    hcursor
  · intro s hs
    have hx : 0 ≤ s.position.x + 1 := by omega
    exact ⟨hx, hs.2⟩
  · intro intstate s hs
    unfold newline
    simp only
    split
    · rw [restoreInterrupts_position]
      exact ⟨Int.le_refl 0, Int.le_refl 0⟩
    · rw [restoreInterrupts_position]
      have hy : 0 ≤ s.position.y + (scaleFactor.toNat : Int) := by omega
      exact ⟨Int.le_refl 0, hy⟩
  · exact fun s hs => ⟨Int.le_refl 0, hs.2⟩
  · intro intstate s hs
    rw [restoreInterrupts_position]
    exact hs

-- ========================================================== one character

/-- A character that ends, and that leaves `intstate` alone. -/
def Harmless (s : FbState) (c : UINT8) : Prop :=
  c ≠ 10 ∧ (RoomToDraw s ∨ ¬ IsGlyph c)

/-- Whether a character is harmless depends on the screen. -/
theorem Harmless.same {s s' : FbState} {c : UINT8} (h : SameScreen s s') :
    Harmless s' c ↔ Harmless s c := by
  unfold Harmless RoomToDraw
  rw [h.maxPosition]

/-- A character leaves the size of the screen and a cursor that is on it. -/
theorem fbConPutCharWatched_same {fuel : Nat} {garbage : Nat → Bool}
    {c : UINT8} {s s' : FbState} {moments : List Bool}
    (h : fbConPutCharWatched scr .commonMsg scaleFactor fuel garbage c s
      = some (moments, s')) :
    SameScreen s s'
      ∧ (0 ≤ s.position.x ∧ 0 ≤ s.position.y →
        0 ≤ s'.position.x ∧ 0 ≤ s'.position.y) := by
  have hput : fbConPutCharWithFactor scr .commonMsg scaleFactor fuel
      garbage c s = some s' := by
    rw [← fbConPutCharWatched_erase, h]
    rfl
  refine ⟨fbConPutCharWithFactor_same hput, fun hcursor => ?_⟩
  unfold fbConPutCharWithFactor at hput
  simp only at hput
  split at hput
  · exact paint_cursor hput hcursor
  · cases hput
    exact hcursor

/-- A harmless character is put with interrupts disabled. -/
theorem fbConPutCharWatched_ok (scr : Screen) (garbage : Nat → Bool)
    {c : UINT8} {s : FbState}
    (h : s.initialized = true → Harmless s c)
    (hs : s.interrupts = false) :
    ∃ moments s',
      fbConPutCharWatched scr .commonMsg scaleFactor 2 garbage c s
        = some (moments, s')
      ∧ (∀ b ∈ moments, b = false) ∧ s'.interrupts = false := by
  unfold fbConPutCharWatched
  simp only
  split
  next hinitialized =>
    obtain ⟨hfeed, hroom⟩ := h hinitialized
    have hcount : SameScreen s { s with handled := s.handled + 1 } :=
      ⟨rfl, rfl⟩
    obtain ⟨-, hroom⟩ := (Harmless.same hcount).2 ⟨hfeed, hroom⟩
    obtain ⟨s', hend⟩ := paint_ends hfeed hroom 0 (garbage s.handled)
    rw [← paintWatched_erase scr] at hend
    obtain ⟨⟨moments, s'⟩, heq, -⟩ := Option.map_eq_some_iff.1 hend
    have hoff : ({ s with handled := s.handled + 1 } : FbState).interrupts
        = false := hs
    obtain ⟨hall, hoff⟩ := paintWatched_keptOff scr 2
      (fun hten => absurd hten hfeed) hoff moments s' heq
    exact ⟨moments, s', heq, hall, hoff⟩
  · exact ⟨[], _, rfl, fun _ hb => absurd hb List.not_mem_nil, hs⟩

/-- Any other character enables interrupts or never ends. -/
theorem fbConPutCharWatched_enabled {fuel : Nat} {c : UINT8}
    {s s' : FbState} {moments : List Bool}
    (hinitialized : s.initialized = true)
    (hcursor : 0 ≤ s.position.x ∧ 0 ≤ s.position.y)
    (hbad : ¬ Harmless s c)
    (h : fbConPutCharWatched scr .commonMsg scaleFactor fuel
      (fun _ => true) c s = some (moments, s')) : true ∈ moments := by
  unfold fbConPutCharWatched at h
  simp only at h
  rw [if_pos hinitialized] at h
  by_cases hfeed : c = 10
  · subst hfeed
    exact paintWatched_enabled scr h
  · have hboth : ¬ RoomToDraw s ∧ IsGlyph c := by
      refine ⟨fun hroom => hbad ⟨hfeed, .inl hroom⟩, ?_⟩
      by_contra hno
      exact hbad ⟨hfeed, .inr hno⟩
    have hnone : paint scr .commonMsg scaleFactor c fuel true
        { s with handled := s.handled + 1 } = none :=
      paint_stuck (s := { s with handled := s.handled + 1 }) hboth.2 fuel
        hboth.1 hcursor true
    rw [← paintWatched_erase, h] at hnone
    cases hnone

-- ============================================================= the buffer

/-- So is a buffer of harmless characters. -/
theorem putCharsWatched_ok (scr : Screen) (garbage : Nat → Bool)
    (buffer : List UINT8) {s : FbState}
    (h : s.initialized = true → ∀ c ∈ buffer, Harmless s c)
    (hs : s.interrupts = false) :
    ∃ moments s', putCharsWatched scr 2 garbage buffer s
        = some (moments, s')
      ∧ (∀ b ∈ moments, b = false) ∧ s'.interrupts = false := by
  induction buffer generalizing s with
  | nil => exact ⟨[], s, rfl, fun _ hb => absurd hb List.not_mem_nil, hs⟩
  | cons c buffer ih =>
      obtain ⟨first, s₁, hput, hfirst, hoff⟩ :=
        fbConPutCharWatched_ok scr garbage
          (fun hi => h hi c List.mem_cons_self) hs
      have hsame := (fbConPutCharWatched_same hput).1
      have hrest : s₁.initialized = true →
          ∀ c ∈ buffer, Harmless s₁ c := by
        intro hi c' hc'
        rw [hsame.initialized] at hi
        rw [Harmless.same hsame]
        exact h hi c' (List.mem_cons_of_mem c hc')
      obtain ⟨later, s', hputs, hlater, hend⟩ := ih hrest hoff
      refine ⟨first ++ later, s', ?_, ?_, hend⟩
      · unfold putCharsWatched
        rw [hput, Option.bind_some, hputs]
        rfl
      · intro b hb
        rcases List.mem_append.1 hb with hb | hb
        · exact hfirst b hb
        · exact hlater b hb

/-- A buffer with another character is put with interrupts enabled at some
moment. -/
theorem putCharsWatched_enabled {fuel : Nat} {buffer : List UINT8}
    {s s' : FbState} {moments : List Bool}
    (hinitialized : s.initialized = true)
    (hcursor : 0 ≤ s.position.x ∧ 0 ≤ s.position.y)
    (hbad : ∃ c ∈ buffer, ¬ Harmless s c)
    (h : putCharsWatched scr fuel (fun _ => true) buffer s
      = some (moments, s')) : true ∈ moments := by
  induction buffer generalizing s moments with
  | nil =>
      obtain ⟨c, hc, -⟩ := hbad
      exact absurd hc List.not_mem_nil
  | cons c buffer ih =>
      obtain ⟨⟨first, s₁⟩, hput, hrest⟩ := Option.bind_eq_some_iff.1 h
      obtain ⟨⟨later, s₂⟩, hputs, heq⟩ := Option.map_eq_some_iff.1 hrest
      cases heq
      obtain ⟨hsame, hcursor₁⟩ := fbConPutCharWatched_same hput
      obtain ⟨c', hc', hbad⟩ := hbad
      rcases List.mem_cons.1 hc' with rfl | hc'
      · have hfirst := fbConPutCharWatched_enabled hinitialized hcursor
          hbad hput
        exact List.mem_append_left later hfirst
      · have hlater := ih (hsame.initialized.trans hinitialized)
          (hcursor₁ hcursor)
          ⟨c', hc', fun hok => hbad ((Harmless.same hsame).1 hok)⟩ hputs
        exact List.mem_append_right first hlater

-- ============================================================== the write

/-- Whatever `intstate` holds, the write ends, interrupts are disabled
until the last character has been handled, and left as they were. -/
def KeepsInterrupts (scr : Screen) (call : SerialWrite) (s : FbState) :
    Prop :=
  ∀ garbage : Nat → Bool, ∃ fuel moments s',
    serialWriteWatched scr fuel garbage call s = some (moments, s')
      ∧ call.run scr fuel garbage s = some s'
      ∧ (∀ b ∈ moments, b = false) ∧ s'.interrupts = s.interrupts

/-- A call begins by disabling interrupts. -/
theorem opened_same (call : SerialWrite) (s : FbState) :
    SameScreen s (call.opened s) ∧ (call.opened s).interrupts = false
      ∧ (call.opened s).position = s.position := by
  cases call with
  | write buffer => exact ⟨⟨rfl, rfl⟩, rfl, rfl⟩
  | writeCritical buffer => exact ⟨⟨rfl, rfl⟩, rfl, rfl⟩

/-- A call ends with the flag it began with. -/
theorem closed_interrupts (call : SerialWrite) (s : FbState)
    {s' : FbState} (h : s'.interrupts = false) :
    (call.closed s s').interrupts = s.interrupts := by
  have hrestore : ∀ t : FbState, t.interrupts = false →
      (restoreInterrupts s.interrupts t).interrupts = s.interrupts := by
    intro t ht
    unfold restoreInterrupts
    split
    next hon => exact hon.symm
    next hoff => rw [ht, Bool.eq_false_of_not_eq_true hoff]
  cases call with
  | write buffer => exact hrestore s' h
  | writeCritical buffer => exact hrestore _ h

/-- A call with harmless characters keeps interrupts disabled. -/
theorem keepsInterrupts_of_harmless (scr : Screen) (call : SerialWrite)
    {s : FbState}
    (h : s.initialized = true → ∀ c ∈ call.buffer, Harmless s c) :
    KeepsInterrupts scr call s := by
  intro garbage
  obtain ⟨hsame, hoff, -⟩ := opened_same call s
  have hopened : (call.opened s).initialized = true →
      ∀ c ∈ call.buffer, Harmless (call.opened s) c := by
    intro hi c hc
    rw [hsame.initialized] at hi
    exact (Harmless.same hsame).2 (h hi c hc)
  obtain ⟨moments, s', hputs, hall, hend⟩ :=
    putCharsWatched_ok scr garbage call.buffer hopened hoff
  have hwatched : serialWriteWatched scr 2 garbage call s
      = some ((call.opened s).interrupts :: moments, call.closed s s') := by
    unfold serialWriteWatched
    rw [hputs]
    rfl
  refine ⟨2, _, _, hwatched, ?_, ?_, closed_interrupts call s hend⟩
  · rw [← serialWriteWatched_erase, hwatched]
    rfl
  · exact List.forall_mem_cons.2 ⟨hoff, hall⟩

/-- A call that does so has harmless characters only. -/
theorem harmless_of_keepsInterrupts {call : SerialWrite} {s : FbState}
    (hcursor : 0 ≤ s.position.x ∧ 0 ≤ s.position.y)
    (hinitialized : s.initialized = true)
    (h : KeepsInterrupts scr call s) :
    ∀ c ∈ call.buffer, Harmless s c := by
  intro c hc
  by_contra hbad
  obtain ⟨hsame, -, hpos⟩ := opened_same call s
  obtain ⟨fuel, moments, s', hwatched, -, hall, -⟩ := h fun _ => true
  obtain ⟨⟨seen, s₁⟩, hsees, heq⟩ := Option.map_eq_some_iff.1 hwatched
  cases heq
  obtain ⟨later, hputs, rfl⟩ := sees_eq_some hsees
  have hon : true ∈ later :=
    putCharsWatched_enabled (hsame.initialized.trans hinitialized)
      (by rw [hpos]; exact hcursor)
      ⟨c, hc, fun hok => hbad ((Harmless.same hsame).1 hok)⟩ hputs
  exact absurd (hall true (List.mem_cons_of_mem _ hon)) (by decide)

/-- From any cursor and either interrupt state, a write ends with the
interrupts kept disabled and then restored exactly when the console is not
initialised, or no line feed is written and nothing is drawn forever. -/
theorem keepsInterrupts_iff (scr : Screen) (call : SerialWrite)
    {s : FbState} (hx : 0 ≤ s.position.x) (hy : 0 ≤ s.position.y) :
    KeepsInterrupts scr call s
      ↔ s.initialized = false
        ∨ ∀ c ∈ call.buffer, c ≠ 10 ∧ (RoomToDraw s ∨ ¬ IsGlyph c) := by
  constructor
  · intro h
    by_cases hinitialized : s.initialized = true
    · exact .inr (harmless_of_keepsInterrupts ⟨hx, hy⟩ hinitialized h)
    · exact .inl (Bool.eq_false_of_not_eq_true hinitialized)
  · intro h
    refine keepsInterrupts_of_harmless scr call fun hinitialized => ?_
    rcases h with hoff | hall
    · rw [hinitialized] at hoff
      cases hoff
    · exact hall

/-- Two letters and a carriage return on the panel. -/
theorem keepsInterrupts_iff_hello :
    KeepsInterrupts panel (.writeCritical [72, 105, 13])
      (fbConReset panel poweredOn) :=
  (keepsInterrupts_iff panel (.writeCritical [72, 105, 13]) (by decide)
    (by decide)).2 (.inr (by decide))

/-- A console on which interrupts are disabled. -/
def quiet : FbState :=
  { fbConReset panel poweredOn with interrupts := false }

/-- A line feed and a letter: interrupts are enabled before the letter is
drawn, and stay enabled after the write. -/
theorem lineFeed_enables_interrupts :
    ¬ KeepsInterrupts panel (.write [10, 65]) quiet
      ∧ ∃ moments s',
        serialWriteWatched panel 2 (fun _ => true) (.write [10, 65]) quiet
          = some (moments, s')
        ∧ moments = [false, true, false, true]
        ∧ quiet.interrupts = false ∧ s'.interrupts = true := by
  constructor
  · intro h
    have hall := harmless_of_keepsInterrupts (by decide) rfl h
    exact (hall 10 (by decide)).1 rfl
  · exact ⟨_, _, rfl, rfl, rfl, rfl⟩

end

end Edk2Exynos.FrameBuffer
