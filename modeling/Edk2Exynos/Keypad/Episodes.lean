/-
Episodes of a key: from the poll that finds it pressed back to released.

# One key

`pollStep` is a poll of one key, with the bitmaps as the other keys have
left them. What is proved of its runs holds for any behaviour of the other
keys; `getKeys_context` makes the rounds of the device such runs.

# Two kinds

A key that is let go within half a second reports at the first poll that
misses it, and is released by the next one (`shortEpisode`). One that was
found held for longer reports then: the power key once
(`quiet_of_longpress`), a volume key over and over unless the power key is
held (`repeats_of_longpress`). After that a poll that misses the key
pushes nothing, and ends the episode unless it comes too early.
-/
import Edk2Exynos.Keypad.KeyStatus

namespace Edk2Exynos.Keypad

open Lib

-- ================================================================== runs

/-- What a poll of one key finds: the pin, the time since the last poll,
and the bitmaps. -/
structure Poll where
  isPressed : Bool
  delta : UINT64
  bitmaps : Bitmaps

/-- What a poll finds out about the key. -/
def pollUpdate (p : Poll) (c : KeyContext) : KeyUpdate :=
  libKeyUpdateKeyStatus c p.bitmaps p.isPressed p.delta

/-- The context after a poll. -/
def pollStep (p : Poll) (c : KeyContext) : KeyContext :=
  (pollUpdate p c).context

/-- The polls of a run, each with what it pushes. -/
def pushes : List Poll → KeyContext → List (Poll × List EfiKeyData)
  | [], _ => []
  | p :: ps, c => (p, (pollUpdate p c).pushed) :: pushes ps (pollStep p c)

/-- The time of the key does not wrap around. -/
def NoWrap (p : Poll) (c : KeyContext) : Prop :=
  c.time.toNat + p.delta.toNat < 2 ^ 64

instance (p : Poll) (c : KeyContext) : Decidable (NoWrap p c) :=
  inferInstanceAs (Decidable (_ < _))

/-- The flags of a key. -/
structure KeyInv (c : KeyContext) : Prop where
  released : c.state = .released →
    c.keyRepeat = false ∧ c.longpress = false
  repeating : c.keyRepeat = true → c.longpress = true

/-- The run comes back to released with its last poll. -/
def ReturnsAtEnd : List Poll → KeyContext → Prop
  | [], c => c.state = .released
  | p :: ps, c => c.state ≠ .released ∧ ReturnsAtEnd ps (pollStep p c)

instance decidableReturnsAtEnd : (ps : List Poll) → (c : KeyContext) →
    Decidable (ReturnsAtEnd ps c)
  | [], c => inferInstanceAs (Decidable (c.state = .released))
  | p :: ps, c =>
      have := decidableReturnsAtEnd ps (pollStep p c)
      inferInstanceAs (Decidable (_ ∧ _))

-- ============================================================== episodes

/-- Half a second, in nanoseconds. -/
def holdTime : Nat := 500 * 1000000

/-- The 200 ms between two repeats. -/
def repeatTime : Nat := 200 * 1000000

/-- Some poll finds the key held for half a second, `t` of which have
passed before. -/
def FoundHeld : Nat → List Poll → Prop
  | _, [] => False
  | t, p :: ps => p.isPressed = true
      ∧ (holdTime ≤ t + p.delta.toNat ∨ FoundHeld (t + p.delta.toNat) ps)

instance decidableFoundHeld : (t : Nat) → (ps : List Poll) →
    Decidable (FoundHeld t ps)
  | _, [] => inferInstanceAs (Decidable False)
  | t, p :: ps =>
      have := decidableFoundHeld (t + p.delta.toNat) ps
      inferInstanceAs (Decidable (_ ∧ (_ ∨ _)))

/-- The time that passes in these polls. -/
def elapsed (ps : List Poll) : Nat := (ps.map (·.delta.toNat)).sum

/-- Nothing is pushed. -/
def Quiet (l : List (Poll × List EfiKeyData)) : Prop := ∀ x ∈ l, x.2 = []

/-- A poll finds the key pressed or pushes nothing, and a push of the
key's own data comes at least 200 ms after the one before, `t` of which
have passed. -/
def Repeats (own : EfiKeyData) : Nat → List (Poll × List EfiKeyData) → Prop
  | _, [] => True
  | t, (p, keys) :: l =>
      (keys = [] ∧ Repeats own (t + p.delta.toNat) l)
        ∨ (p.isPressed = true ∧ keys = [own]
          ∧ repeatTime ≤ t + p.delta.toNat ∧ Repeats own 0 l)

/-- One event, the key's own, at the first poll that misses it, which is
the last but one. -/
def ShortEpisode (own : EfiKeyData) (l : List (Poll × List EfiKeyData)) :
    Prop :=
  ∃ held missed last, l = held ++ [(missed, [own]), last]
    ∧ Quiet held ∧ (∀ x ∈ held, x.1.isPressed = true)
    ∧ missed.isPressed = false ∧ last.2 = []

/-- The power key is recorded as held. -/
def Poll.powerHeld (p : Poll) : Prop := p.bitmaps.unicodeChars 0 = true

/-- What a key pushes at the poll `p` that finds it held for half a second,
and after it. -/
def LongEvents (key : Key) (p : Poll) (keys : List EfiKeyData)
    (after : List (Poll × List EfiKeyData)) : Prop :=
  match key with
  | .power =>
      (keys = [gKeyDataPowerDown] ∨ keys = [gKeyDataPowerUp]
        ∨ keys = [gKeyDataPowerLongpress]) ∧ Quiet after
  | key =>
      (p.powerHeld ∧ keys = [] ∧ Quiet after)
        ∨ (¬ p.powerHeld ∧ keys = [key.keyData]
          ∧ Repeats key.keyData 0 after)

/-- The key is found held for half a second at one poll, `t` of which
have passed before, and reports there. -/
def LongEpisode (key : Key) (t : Nat) (l : List (Poll × List EfiKeyData)) :
    Prop :=
  ∃ held p keys after, l = held ++ (p, keys) :: after
    ∧ Quiet held ∧ (∀ x ∈ held, x.1.isPressed = true)
    ∧ p.isPressed = true
    ∧ t + elapsed (held.map Prod.fst) < holdTime
    ∧ holdTime ≤ t + elapsed (held.map Prod.fst) + p.delta.toNat
    ∧ LongEvents key p keys after
    ∧ ∀ x ∈ after, x.1.isPressed = false → x.2 = []

-- =============================================================== one poll

section

variable {p : Poll} {ps : List Poll} {c : KeyContext} {b : Bitmaps}

/-- The context with the time of the poll added. -/
def KeyContext.tick (c : KeyContext) (p : Poll) : KeyContext :=
  { c with time := c.time + p.delta }

/-- The bitmaps with the key recorded. -/
def Poll.record (p : Poll) (c : KeyContext) : Bitmaps :=
  keySetState c.keyData.key.scanCode c.keyData.key.unicodeChar p.isPressed
    p.bitmaps

theorem tick_toNat (h : NoWrap p c) :
    (c.tick p).time.toNat = c.time.toNat + p.delta.toNat := by
  show (c.time + p.delta).toNat = _
  rw [BitVec.toNat_add]
  exact Nat.mod_eq_of_lt h

theorem pollUpdate_eq (p : Poll) (c : KeyContext) :
    pollUpdate p c = match c.state with
      | .released =>
          if p.isPressed = true then
            ⟨{ c.tick p with time := 0, state := .pressed }, p.record c, []⟩
          else ⟨c.tick p, p.record c, []⟩
      | .pressed =>
          if p.isPressed = true then updateHeld (c.tick p) (p.record c)
          else updateReleased (c.tick p) (p.record c)
      | .longpressRelease => ⟨(c.tick p).release, p.record c, []⟩ := rfl

theorem pollUpdate_enter (hstate : c.state = .released)
    (hp : p.isPressed = true) :
    pollUpdate p c
      = ⟨{ c.tick p with time := 0, state := .pressed }, p.record c, []⟩ := by
  rw [pollUpdate_eq, hstate]
  exact if_pos hp

theorem pollUpdate_idle (hstate : c.state = .released)
    (hp : ¬ p.isPressed = true) :
    pollUpdate p c = ⟨c.tick p, p.record c, []⟩ := by
  rw [pollUpdate_eq, hstate]
  exact if_neg hp

theorem pollUpdate_held (hstate : c.state = .pressed)
    (hp : p.isPressed = true) :
    pollUpdate p c = updateHeld (c.tick p) (p.record c) := by
  rw [pollUpdate_eq, hstate]
  exact if_pos hp

theorem pollUpdate_missed (hstate : c.state = .pressed)
    (hp : ¬ p.isPressed = true) :
    pollUpdate p c = updateReleased (c.tick p) (p.record c) := by
  rw [pollUpdate_eq, hstate]
  exact if_neg hp

theorem pollUpdate_last (hstate : c.state = .longpressRelease) :
    pollUpdate p c = ⟨(c.tick p).release, p.record c, []⟩ := by
  simp only [pollUpdate_eq, hstate]

theorem holdTime_le_iff (x : UINT64) :
    x ≥ ms2ns 500 ↔ holdTime ≤ x.toNat := BitVec.le_def

theorem repeatTime_le_iff (x : UINT64) :
    x ≥ ms2ns 200 ↔ repeatTime ≤ x.toNat := BitVec.le_def

/-- A key that has reported, or is not held long enough, and does not
repeat. -/
theorem updateHeld_quiet (hrepeat : c.keyRepeat = false)
    (h : c.longpress = true ∨ c.time.toNat < holdTime) :
    updateHeld c b = ⟨c, b, []⟩ := by
  have hlong : ¬ (¬ c.longpress = true ∧ c.time ≥ ms2ns 500) := by
    rintro ⟨hnot, htime⟩
    rcases h with hlong | hlt
    · exact hnot hlong
    · exact Nat.not_le_of_lt hlt ((holdTime_le_iff _).mp htime)
  unfold updateHeld
  rw [if_neg (by rw [hrepeat]; exact fun h => Bool.false_ne_true h.1),
    if_neg hlong]

theorem updateHeld_repeat (hrepeat : c.keyRepeat = true)
    (hlong : c.longpress = true) :
    updateHeld c b
      = if repeatTime ≤ c.time.toNat then
          ⟨{ c with time := 0 }, b, [c.keyData]⟩
        else ⟨c, b, []⟩ := by
  have hnot : ¬ (¬ c.longpress = true ∧ c.time ≥ ms2ns 500) :=
    fun h => h.1 hlong
  unfold updateHeld
  rw [if_neg hnot]
  by_cases htime : c.time ≥ ms2ns 200
  · rw [if_pos ⟨hrepeat, htime⟩, if_pos ((repeatTime_le_iff _).mp htime),
      ← hrepeat]
  · rw [if_neg fun h => htime h.2,
      if_neg fun h => htime ((repeatTime_le_iff _).mpr h)]

/-- The poll that finds a key held for half a second. -/
theorem updateHeld_long (hrepeat : c.keyRepeat = false)
    (hlong : c.longpress = false) (htime : holdTime ≤ c.time.toNat) :
    updateHeld c b
      = if c.keyData.key.unicodeChar = charCarriageReturn then
          ⟨{ c with longpress := true }, b, [powerLongpress b]⟩
        else if ¬ keyGetState 0 charCarriageReturn b then
          ⟨{ c with time := 0, keyRepeat := true, longpress := true }, b,
            [c.keyData]⟩
        else ⟨{ c with longpress := true }, b, []⟩ := by
  unfold updateHeld
  rw [if_neg (by rw [hrepeat]; exact fun h => Bool.false_ne_true h.1),
    if_pos ⟨by rw [hlong]; exact Bool.false_ne_true,
      (holdTime_le_iff _).mpr htime⟩]

theorem updateReleased_short (hlong : c.longpress = false) :
    updateReleased c b
      = ⟨{ c with state := .longpressRelease }, b, [c.keyData]⟩ := by
  unfold updateReleased
  rw [if_pos (by rw [hlong]; exact Bool.false_ne_true)]

/-- A key that has reported ends its episode or, too early, goes on. -/
theorem updateReleased_long (hlong : c.longpress = true) :
    updateReleased c b = ⟨c.release, b, []⟩
      ∨ updateReleased c b = ⟨c, b, []⟩ := by
  unfold updateReleased
  rw [if_neg (not_not.mpr hlong)]
  split
  · exact Or.inl rfl
  · exact Or.inr rfl

-- ====================================================== after the report

theorem returnsAtEnd_released (hstate : c.state = .released)
    (h : ReturnsAtEnd ps c) : ps = [] := by
  cases ps with
  | nil => rfl
  | cons p ps => exact absurd hstate h.1

/-- What a poll does to a key that has reported: with what it pushes. -/
theorem pushes_cons (p : Poll) (ps : List Poll) (c : KeyContext) :
    pushes (p :: ps) c
      = (p, (pollUpdate p c).pushed) :: pushes ps (pollUpdate p c).context :=
  rfl

/-- A key that has reported and does not repeat is quiet. -/
theorem quiet_of_longpress (hstate : c.state = .pressed)
    (hlong : c.longpress = true) (hrepeat : c.keyRepeat = false)
    (h : ReturnsAtEnd ps c) : Quiet (pushes ps c) := by
  induction ps generalizing c with
  | nil => exact List.forall_mem_nil _
  | cons p ps ih =>
    have hnext : ReturnsAtEnd ps (pollUpdate p c).context := h.2
    have hsame : ReturnsAtEnd ps (c.tick p) → Quiet (pushes ps (c.tick p)) :=
      ih hstate hlong hrepeat
    unfold Quiet
    rw [pushes_cons, List.forall_mem_cons]
    by_cases hp : p.isPressed = true
    · rw [pollUpdate_held hstate hp,
        updateHeld_quiet (c := c.tick p) hrepeat (Or.inl hlong)] at hnext ⊢
      exact ⟨rfl, hsame hnext⟩
    · rw [pollUpdate_missed hstate hp] at hnext ⊢
      rcases updateReleased_long (c := c.tick p) (b := p.record c) hlong
        with hend | hearly
      · rw [hend] at hnext ⊢
        rw [returnsAtEnd_released rfl hnext]
        exact ⟨rfl, List.forall_mem_nil _⟩
      · rw [hearly] at hnext ⊢
        exact ⟨rfl, hsame hnext⟩

/-- A key that repeats pushes its own data, at least 200 ms apart. -/
theorem repeats_of_longpress (hstate : c.state = .pressed)
    (hlong : c.longpress = true) (hrepeat : c.keyRepeat = true)
    (hwrap : EveryStep pollStep NoWrap ps c) (h : ReturnsAtEnd ps c) :
    Repeats c.keyData c.time.toNat (pushes ps c) := by
  induction ps generalizing c with
  | nil => trivial
  | cons p ps ih =>
    have htime := tick_toNat hwrap.1
    have hnext : ReturnsAtEnd ps (pollUpdate p c).context := h.2
    have hwrap' : EveryStep pollStep NoWrap ps (pollUpdate p c).context :=
      hwrap.2
    rw [pushes_cons]
    unfold Repeats
    rw [← htime]
    by_cases hp : p.isPressed = true
    · rw [pollUpdate_held hstate hp,
        updateHeld_repeat (c := c.tick p) hrepeat hlong] at hnext hwrap' ⊢
      by_cases hlate : repeatTime ≤ (c.tick p).time.toNat
      · rw [if_pos hlate] at hnext hwrap' ⊢
        exact Or.inr ⟨hp, rfl, hlate,
          ih (c := { c.tick p with time := 0 }) hstate hlong hrepeat hwrap'
            hnext⟩
      · rw [if_neg hlate] at hnext hwrap' ⊢
        exact Or.inl ⟨rfl, ih (c := c.tick p) hstate hlong hrepeat hwrap'
          hnext⟩
    · left
      rw [pollUpdate_missed hstate hp] at hnext hwrap' ⊢
      rcases updateReleased_long (c := c.tick p) (b := p.record c) hlong
        with hend | hearly
      · rw [hend] at hnext ⊢
        rw [returnsAtEnd_released rfl hnext]
        exact ⟨rfl, trivial⟩
      · rw [hearly] at hnext hwrap' ⊢
        exact ⟨rfl, ih (c := c.tick p) hstate hlong hrepeat hwrap' hnext⟩

theorem repeats_missed {own : EfiKeyData} {t : Nat}
    {l : List (Poll × List EfiKeyData)} (h : Repeats own t l) :
    ∀ x ∈ l, x.1.isPressed = false → x.2 = [] := by
  induction l generalizing t with
  | nil => exact List.forall_mem_nil _
  | cons x l ih =>
    rw [List.forall_mem_cons]
    rcases h with ⟨hnone, hrest⟩ | ⟨hp, -, -, hrest⟩
    · exact ⟨fun _ => hnone, ih hrest⟩
    · refine ⟨fun hmissed => ?_, ih hrest⟩
      rw [hp] at hmissed
      cases hmissed

-- ============================================================ the report

theorem keyGetState_power (b : Bitmaps) :
    keyGetState 0 charCarriageReturn b = b.unicodeChars 0 := by
  unfold keyGetState
  rw [if_neg fun h => h.1 rfl]
  cases hbit : b.unicodeChars 0 with
  | false =>
    exact if_pos ⟨by decide, by decide,
      fun h => Bool.false_ne_true (hbit.symm.trans h)⟩
  | true => exact if_neg fun h => h.2.2 hbit

/-- A volume key does not touch the record of the power key. -/
theorem record_power {key : Key} (hkey : key ≠ .power)
    (hdata : c.keyData = key.keyData) :
    (p.record c).unicodeChars = p.bitmaps.unicodeChars := by
  have hchar : c.keyData.key.unicodeChar = 0 := by
    rw [hdata]
    cases key with
    | power => exact absurd rfl hkey
    | volumeDown => rfl
    | volumeUp => rfl
  exact if_neg fun h => h.1 hchar

/-- What the poll that finds the key held for half a second leads to. -/
theorem longEvents_of_held {key : Key} (hdata : c.keyData = key.keyData)
    (hstate : c.state = .pressed) (hlong : c.longpress = false)
    (hrepeat : c.keyRepeat = false) (hp : p.isPressed = true)
    (htime : holdTime ≤ (c.tick p).time.toNat)
    (hwrap : EveryStep pollStep NoWrap ps (pollUpdate p c).context)
    (h : ReturnsAtEnd ps (pollUpdate p c).context) :
    LongEvents key p (pollUpdate p c).pushed
        (pushes ps (pollUpdate p c).context)
      ∧ ∀ x ∈ pushes ps (pollUpdate p c).context,
        x.1.isPressed = false → x.2 = [] := by
  have hheld := pollUpdate_held hstate hp
  rw [updateHeld_long (c := c.tick p) hrepeat hlong htime] at hheld
  by_cases hpower : key = .power
  · have hchar : (c.tick p).keyData.key.unicodeChar
        = charCarriageReturn := by
      show c.keyData.key.unicodeChar = _
      rw [hdata, hpower]
      rfl
    rw [if_pos hchar] at hheld
    rw [hheld] at h ⊢
    have hquiet := quiet_of_longpress
      (c := { c.tick p with longpress := true }) hstate rfl hrepeat h
    refine ⟨?_, fun x hx _ => hquiet x hx⟩
    rw [hpower]
    refine ⟨?_, hquiet⟩
    unfold powerLongpress
    split
    · exact Or.inl rfl
    · split
      · exact Or.inr (Or.inl rfl)
      · exact Or.inr (Or.inr rfl)
  · have hchar : (c.tick p).keyData.key.unicodeChar
        ≠ charCarriageReturn := by
      show c.keyData.key.unicodeChar ≠ _
      rw [hdata]
      cases key with
      | power => exact absurd rfl hpower
      | volumeDown => decide
      | volumeUp => decide
    have hevents : ∀ keys after,
        LongEvents key p keys after
          ↔ (p.powerHeld ∧ keys = [] ∧ Quiet after)
            ∨ (¬ p.powerHeld ∧ keys = [key.keyData]
              ∧ Repeats key.keyData 0 after) := by
      intro keys after
      cases key with
      | power => exact absurd rfl hpower
      | volumeDown => exact Iff.rfl
      | volumeUp => exact Iff.rfl
    rw [if_neg hchar, keyGetState_power, record_power hpower hdata] at hheld
    by_cases hrecorded : p.bitmaps.unicodeChars 0 = true
    · rw [if_neg (not_not.mpr hrecorded)] at hheld
      rw [hheld] at h ⊢
      have hquiet := quiet_of_longpress
        (c := { c.tick p with longpress := true }) hstate rfl hrepeat h
      refine ⟨(hevents _ _).mpr (Or.inl ⟨hrecorded, rfl, hquiet⟩), ?_⟩
      exact fun x hx _ => hquiet x hx
    · rw [if_pos hrecorded] at hheld
      rw [hheld] at h hwrap ⊢
      have hrepeats := repeats_of_longpress (c := { c.tick p with
        time := 0, keyRepeat := true, longpress := true }) hstate rfl rfl
        hwrap h
      have hown : (c.tick p).keyData = key.keyData := hdata
      dsimp only at hrepeats ⊢
      rw [hown] at hrepeats ⊢
      refine ⟨(hevents _ _).mpr (Or.inr ⟨hrecorded, rfl, hrepeats⟩), ?_⟩
      exact repeats_missed hrepeats

-- ========================================================== an episode

/-- From a poll on that finds the key pressed and not reported, half a
second of which is not over. -/
theorem episode_of_pressed {key : Key} (hdata : c.keyData = key.keyData)
    (hstate : c.state = .pressed) (hlong : c.longpress = false)
    (hrepeat : c.keyRepeat = false) (hearly : c.time.toNat < holdTime)
    (hwrap : EveryStep pollStep NoWrap ps c) (h : ReturnsAtEnd ps c) :
    (¬ FoundHeld c.time.toNat ps →
        ShortEpisode key.keyData (pushes ps c))
      ∧ (FoundHeld c.time.toNat ps →
        LongEpisode key c.time.toNat (pushes ps c)) := by
  induction ps generalizing c with
  | nil =>
    have hcon : c.state = .released := h
    rw [hstate] at hcon
    cases hcon
  | cons p ps ih =>
    have htime := tick_toNat hwrap.1
    have hnext : ReturnsAtEnd ps (pollUpdate p c).context := h.2
    have hwrap' : EveryStep pollStep NoWrap ps (pollUpdate p c).context :=
      hwrap.2
    rw [pushes_cons]
    by_cases hp : p.isPressed = true
    · by_cases hhold : holdTime ≤ c.time.toNat + p.delta.toNat
      · -- the poll that finds it held for half a second
        obtain ⟨hevents, hmissed⟩ := longEvents_of_held hdata hstate hlong
          hrepeat hp (htime.symm ▸ hhold) hwrap' hnext
        refine ⟨fun hnot => absurd ⟨hp, Or.inl hhold⟩ hnot, fun _ => ?_⟩
        exact ⟨[], p, _, _, rfl, List.forall_mem_nil _,
          List.forall_mem_nil _, hp, hearly, hhold, hevents, hmissed⟩
      · have hheld := pollUpdate_held hstate hp
        rw [updateHeld_quiet (c := c.tick p) hrepeat
          (Or.inr (by omega))] at hheld
        rw [hheld] at hnext hwrap' ⊢
        obtain ⟨hshort, hlongEp⟩ := ih (c := c.tick p) hdata hstate hlong
          hrepeat (by omega) hwrap' hnext
        rw [htime] at hshort hlongEp
        refine ⟨fun hnot => ?_, fun hfound => ?_⟩
        · obtain ⟨held, missed, last, heq, hquiet, hall, hm, hl⟩ :=
            hshort fun hrest => hnot ⟨hp, Or.inr hrest⟩
          refine ⟨(p, []) :: held, missed, last, ?_, ?_, ?_, hm, hl⟩
          · dsimp only
            rw [heq, List.cons_append]
          · exact List.forall_mem_cons.mpr ⟨rfl, hquiet⟩
          · exact List.forall_mem_cons.mpr ⟨hp, hall⟩
        · have hrest := hfound.2.resolve_left hhold
          obtain ⟨held, q, keys, after, heq, hquiet, hall, hq, hlt, hle,
            hevents, hmissed⟩ := hlongEp hrest
          refine ⟨(p, []) :: held, q, keys, after, ?_, ?_, ?_, hq, ?_, ?_,
            hevents, hmissed⟩
          · dsimp only
            rw [heq, List.cons_append]
          · exact List.forall_mem_cons.mpr ⟨rfl, hquiet⟩
          · exact List.forall_mem_cons.mpr ⟨hp, hall⟩
          · show _ + (p.delta.toNat + elapsed (held.map Prod.fst)) < _
            omega
          · show _ ≤ _ + (p.delta.toNat + elapsed (held.map Prod.fst)) + _
            omega
    · -- it is let go in time, and the next poll is the last one
      refine ⟨fun _ => ?_, fun hfound => absurd hfound.1 hp⟩
      rw [pollUpdate_missed hstate hp,
        updateReleased_short (c := c.tick p) hlong] at hnext ⊢
      cases ps with
      | nil => cases hnext
      | cons q qs =>
        have hqs : ReturnsAtEnd qs (pollUpdate q
          { c.tick p with state := .longpressRelease }).context := hnext.2
        rw [pushes_cons]
        rw [pollUpdate_last rfl] at hqs ⊢
        rw [returnsAtEnd_released rfl hqs]
        refine ⟨[], p, (q, []), ?_, List.forall_mem_nil _,
          List.forall_mem_nil _, Bool.eq_false_of_not_eq_true hp, rfl⟩
        have hown : (c.tick p).keyData = key.keyData := hdata
        dsimp only
        rw [hown]
        rfl

-- ====================================================== every reachable key

theorem KeyInv.initial (keyData : EfiKeyData) :
    KeyInv (libKeyInitializeKeyContext keyData) :=
  ⟨fun _ => ⟨rfl, rfl⟩, fun h => by cases h⟩

theorem KeyInv.release (c : KeyContext) : KeyInv c.release :=
  ⟨fun _ => ⟨rfl, rfl⟩, fun h => by cases h⟩

theorem updateHeld_inv (hstate : c.state = .pressed) (hinv : KeyInv c) :
    KeyInv (updateHeld c b).context
      ∧ (updateHeld c b).context.keyData = c.keyData := by
  have hnot : c.state ≠ .released := by
    rw [hstate]
    decide
  unfold updateHeld
  split
  · next hrepeat =>
    refine ⟨⟨fun h => absurd h hnot, fun _ => ?_⟩, rfl⟩
    exact hinv.repeating hrepeat.1
  · split
    · split
      · exact ⟨⟨fun h => absurd h hnot, fun _ => rfl⟩, rfl⟩
      · split
        · exact ⟨⟨fun h => absurd h hnot, fun _ => rfl⟩, rfl⟩
        · exact ⟨⟨fun h => absurd h hnot, fun _ => rfl⟩, rfl⟩
    · exact ⟨hinv, rfl⟩

theorem updateReleased_inv (hinv : KeyInv c) :
    KeyInv (updateReleased c b).context
      ∧ (updateReleased c b).context.keyData = c.keyData := by
  unfold updateReleased
  split
  · have hne : KeyState.longpressRelease ≠ .released := by decide
    exact ⟨⟨fun h => absurd h hne, hinv.repeating⟩, rfl⟩
  · split
    · exact ⟨KeyInv.release c, rfl⟩
    · exact ⟨hinv, rfl⟩

/-- The invariant and the key data, over one poll. -/
theorem KeyInv.step (hinv : KeyInv c) (p : Poll) :
    KeyInv (pollStep p c) ∧ (pollStep p c).keyData = c.keyData := by
  have htick : KeyInv (c.tick p) := ⟨hinv.released, hinv.repeating⟩
  unfold pollStep
  cases hstate : c.state with
  | released =>
    by_cases hp : p.isPressed = true
    · rw [pollUpdate_enter hstate hp]
      have hne : KeyState.pressed ≠ .released := by decide
      exact ⟨⟨fun h => absurd h hne, hinv.repeating⟩, rfl⟩
    · rw [pollUpdate_idle hstate hp]
      exact ⟨htick, rfl⟩
  | pressed =>
    by_cases hp : p.isPressed = true
    · rw [pollUpdate_held hstate hp]
      exact updateHeld_inv (c := c.tick p) hstate htick
    · rw [pollUpdate_missed hstate hp]
      exact updateReleased_inv htick
  | longpressRelease =>
    rw [pollUpdate_last hstate]
    exact ⟨KeyInv.release _, rfl⟩

/-- The invariant and the key data, over a run. -/
theorem run_keyInv (key : Key) (before : List Poll) :
    KeyInv (run pollStep before (libKeyInitializeKeyContext key.keyData))
      ∧ (run pollStep before
          (libKeyInitializeKeyContext key.keyData)).keyData
        = key.keyData := by
  have hstep : ∀ (p : Poll) (c : KeyContext),
      KeyInv c ∧ c.keyData = key.keyData →
      KeyInv (pollStep p c) ∧ (pollStep p c).keyData = key.keyData := by
    rintro p c ⟨hinv, hdata⟩
    obtain ⟨hinv', hdata'⟩ := hinv.step p
    exact ⟨hinv', hdata'.trans hdata⟩
  exact run_invariant hstep before ⟨KeyInv.initial key.keyData, rfl⟩

end

/-- The polls of an episode: one that finds a released key pressed, and
those up to the one that brings it back to released, without a wrap of its
time. -/
structure Episode (c : KeyContext) (p : Poll) (ps : List Poll) : Prop where
  released : c.state = .released
  pressed : p.isPressed = true
  noWrap : EveryStep pollStep NoWrap (p :: ps) c
  returns : ReturnsAtEnd ps (pollStep p c)

/-- What an episode pushes: nothing on entry; when no poll finds the key
held for half a second its own event once, at the first poll that misses
it; otherwise the events of a long press, and at no poll that misses
it. -/
structure EpisodeEvents (key : Key) (c : KeyContext) (p : Poll)
    (ps : List Poll) : Prop where
  entry : (pollUpdate p c).pushed = []
  pressed : (pollStep p c).state = .pressed
  short : ¬ FoundHeld 0 ps →
    ShortEpisode key.keyData (pushes ps (pollStep p c))
  long : FoundHeld 0 ps → LongEpisode key 0 (pushes ps (pollStep p c))

/-- Every episode of a key with its flags in order is of one of the two
kinds. -/
theorem KeyInv.episode {key : Key} {c : KeyContext} {p : Poll}
    {ps : List Poll} (hinv : KeyInv c) (hdata : c.keyData = key.keyData)
    (h : Episode c p ps) : EpisodeEvents key c p ps := by
  have henter := pollUpdate_enter h.released h.pressed
  obtain ⟨hrepeat, hlong⟩ := hinv.released h.released
  have hwrap : EveryStep pollStep NoWrap ps (pollUpdate p c).context :=
    h.noWrap.2
  have hend : ReturnsAtEnd ps (pollUpdate p c).context := h.returns
  have hstart : (0 : UINT64).toNat < holdTime := by decide
  rw [henter] at hwrap hend
  obtain ⟨hshort, hheld⟩ := episode_of_pressed
    (c := { c.tick p with time := 0, state := .pressed }) hdata rfl hlong
    hrepeat hstart hwrap hend
  have hnext : pollStep p c
      = { c.tick p with time := 0, state := .pressed } :=
    congrArg KeyUpdate.context henter
  refine ⟨by rw [henter], by rw [hnext], fun hnot => ?_, fun hfound => ?_⟩
  · rw [hnext]
    exact hshort hnot
  · rw [hnext]
    exact hheld hfound

-- ============================================================== a device

/-- The poll of a key in a round: the keys before it in the list have been
recorded. -/
def pollOf (r : Round) (key : Key) (d : KeypadDevice) : Poll where
  isPressed := r.isPressed key
  delta := r.delta
  bitmaps := match key with
    | .volumeDown => d.bitmaps
    | .volumeUp => (pollKey r .volumeDown d).bitmaps
    | .power => (pollKey r .volumeUp (pollKey r .volumeDown d)).bitmaps

/-- A round is a poll of each key. -/
theorem getKeys_context (r : Round) (d : KeypadDevice) (key : Key) :
    (keypadDeviceImplGetKeys r d).context key
      = pollStep (pollOf r key d) (d.context key) := by
  cases key with
  | volumeDown => rfl
  | volumeUp => rfl
  | power => rfl

/-- The polls of a key in the rounds. -/
def pollsOf (key : Key) : List Round → KeypadDevice → List Poll
  | [], _ => []
  | r :: rs, d =>
      pollOf r key d :: pollsOf key rs (keypadDeviceImplGetKeys r d)

/-- So are the rounds a run of each key. -/
theorem run_getKeys_context (key : Key) (rs : List Round)
    (d : KeypadDevice) :
    (run keypadDeviceImplGetKeys rs d).context key
      = run pollStep (pollsOf key rs d) (d.context key) := by
  induction rs generalizing d with
  | nil => rfl
  | cons r rs ih =>
    show (run keypadDeviceImplGetKeys rs _).context key = _
    rw [ih, getKeys_context]
    rfl

/-- What a round pushes is what its polls push, key by key. -/
theorem getKeys_pushed (r : Round) (d : KeypadDevice) :
    (keypadDeviceImplGetKeys r d).pushed
      = d.pushed ++ keyList.flatMap fun key =>
          (pollUpdate (pollOf r key d) (d.context key)).pushed := by
  simp only [keyList, List.flatMap_cons, List.flatMap_nil, List.append_nil,
    ← List.append_assoc]
  rfl

-- ======================================================== every episode

/-- For each key, after any polls since the reset, and after any rounds of
`GetKeys` since it: a released key has neither flag set, and a repeating
one has made its long press; and every episode that begins there pushes
what it should, whatever the other keys do. -/
theorem keyEpisodes (key : Key) :
    (∀ before : List Poll,
      let c := run pollStep before (libKeyInitializeKeyContext key.keyData)
      KeyInv c ∧ ∀ (p : Poll) (ps : List Poll),
        Episode c p ps → EpisodeEvents key c p ps)
    ∧ ∀ (d : KeypadDevice) (before : List Round),
      let s := run keypadDeviceImplGetKeys before (keypadDeviceImplReset d)
      KeyInv (s.context key) ∧ ∀ (r : Round) (rs : List Round),
        let p := pollOf r key s
        let ps := pollsOf key rs (keypadDeviceImplGetKeys r s)
        Episode (s.context key) p ps →
          EpisodeEvents key (s.context key) p ps := by
  have hpolls : ∀ before : List Poll,
      let c := run pollStep before (libKeyInitializeKeyContext key.keyData)
      KeyInv c ∧ ∀ (p : Poll) (ps : List Poll),
        Episode c p ps → EpisodeEvents key c p ps := by
    intro before c
    obtain ⟨hinv, hdata⟩ := run_keyInv key before
    exact ⟨hinv, fun p ps h => hinv.episode hdata h⟩
  refine ⟨hpolls, fun d before => ?_⟩
  have hrun := run_getKeys_context key before (keypadDeviceImplReset d)
  obtain ⟨hinv, hall⟩ :=
    hpolls (pollsOf key before (keypadDeviceImplReset d))
  intro s
  have hcontext : s.context key = run pollStep
      (pollsOf key before (keypadDeviceImplReset d))
      (libKeyInitializeKeyContext key.keyData) := hrun
  rw [hcontext]
  exact ⟨hinv, fun r rs => hall _ _⟩

/-- No key has been pressed yet. -/
def freshDevice : KeypadDevice where
  context := fun key => libKeyInitializeKeyContext key.keyData
  bitmaps := ⟨fun _ => false, fun _ => false⟩
  pushed := []

/-- Volume down is held for a second: it reports after half of it, repeats
200 ms and 400 ms later, and is released. -/
theorem keyEpisodes_hold :
    let round := fun (held : Bool) (ms : UINT64) =>
      (⟨fun key => held && key = .volumeDown, ms2ns ms⟩ : Round)
    let s := keypadDeviceImplReset freshDevice
    let s1 := keypadDeviceImplGetKeys (round true 3) s
    let l := pushes (pollsOf .volumeDown [round true 250, round true 250,
      round true 100, round true 100, round true 200, round true 100,
      round false 100] s1) (s1.context .volumeDown)
    let own := Key.volumeDown.keyData
    LongEpisode .volumeDown 0 l
      ∧ l.map Prod.snd = [[], [own], [], [own], [own], [], []] := by
  intro round s s1 l own
  refine ⟨?_, by decide +kernel⟩
  have hepisode := ((keyEpisodes .volumeDown).2 freshDevice []).2
    (round true 3)
    [round true 250, round true 250, round true 100, round true 100,
      round true 200, round true 100, round false 100]
    { released := rfl
      pressed := rfl
      noWrap := by decide +kernel
      returns := by decide +kernel }
  exact hepisode.long (by decide +kernel)

end Edk2Exynos.Keypad
