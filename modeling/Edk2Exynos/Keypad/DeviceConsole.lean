/-
The console on the keys of the phone: KeypadDxe over KeypadDeviceImplLib.

# Keys

The device pushes its three keys and the three events of a held power key,
and nothing else (`exynosKeypad_valueKeys`). All six are value keys without
a shift state, so no client ever meets a partial key or a translated one.

# Time

The time a key has been held is measured from poll to poll, by whoever
polls. Each piece is rounded down to a nanosecond, and the pieces add up
to the time on the counter, less a nanosecond for each poll
(`pollTimes_add_up`).
-/
import Edk2Exynos.Keypad.Delivery
import Edk2Exynos.Keypad.KeyStatus

namespace Edk2Exynos.Keypad

open Lib
open Timer (getTimeInNanoSecond giga hertz Fits)

-- ============================================================= the device

/-- `mInternalKeypadDevice` -/
def exynosKeypad : KeypadDeviceProtocol (Key → Bool) KeypadDevice where
  reset := keypadDeviceImplReset
  getKeys isPressed delta d :=
    let d := keypadDeviceImplGetKeys ⟨isPressed, delta⟩
      { d with pushed := [] }
    (d, d.pushed)

/-- What the device pushes: its keys, and the events of the power key. -/
def deviceKeys : List EfiKeyData :=
  [Key.volumeDown.keyData, Key.volumeUp.keyData, Key.power.keyData,
    gKeyDataPowerDown, gKeyDataPowerUp, gKeyDataPowerLongpress]

/-- Every key has the data of `KeypadDeviceImplReset`. -/
def OwnKeys (d : KeypadDevice) : Prop :=
  ∀ key, (d.context key).keyData = key.keyData

/-- Each key's data is one of the device's keys. -/
theorem keyData_mem (key : Key) : key.keyData ∈ deviceKeys := by
  cases key <;> decide

/-- A long press of the power key gives one of the device's keys. -/
theorem powerLongpress_mem (b : Bitmaps) :
    powerLongpress b ∈ deviceKeys := by
  unfold powerLongpress
  split
  · decide
  · split <;> decide

/-- An update that keeps a key's data and pushes keys of the device. -/
structure KeyUpdate.Own (key : Key) (u : KeyUpdate) : Prop where
  keyData : u.context.keyData = key.keyData
  pushed : ∀ k ∈ u.pushed, k ∈ deviceKeys

/-- A key held keeps its own data or gives the long press. -/
theorem updateHeld_own {context : KeyContext} {key : Key}
    (hown : context.keyData = key.keyData) (b : Bitmaps) :
    (updateHeld context b).Own key := by
  have hmem : ∀ k ∈ [context.keyData], k ∈ deviceKeys := by
    rw [hown, List.forall_mem_singleton]
    exact keyData_mem key
  have hpower : ∀ k ∈ [powerLongpress b], k ∈ deviceKeys := by
    rw [List.forall_mem_singleton]
    exact powerLongpress_mem b
  unfold updateHeld
  split
  · exact ⟨hown, hmem⟩
  · split
    · split
      · exact ⟨hown, hpower⟩
      · split
        · exact ⟨hown, hmem⟩
        · exact ⟨hown, nofun⟩
    · exact ⟨hown, nofun⟩

/-- A key let go keeps its own data. -/
theorem updateReleased_own {context : KeyContext} {key : Key}
    (hown : context.keyData = key.keyData) (b : Bitmaps) :
    (updateReleased context b).Own key := by
  have hmem : ∀ k ∈ [context.keyData], k ∈ deviceKeys := by
    rw [hown, List.forall_mem_singleton]
    exact keyData_mem key
  unfold updateReleased
  split
  · exact ⟨hown, hmem⟩
  · split <;> exact ⟨hown, nofun⟩

/-- An update of a key keeps its own data. -/
theorem libKeyUpdateKeyStatus_own {context : KeyContext} {key : Key}
    (hown : context.keyData = key.keyData) (b : Bitmaps)
    (isPressed : Bool) (delta : UINT64) :
    (libKeyUpdateKeyStatus context b isPressed delta).Own key := by
  unfold libKeyUpdateKeyStatus
  dsimp only
  split
  next => split <;> exact ⟨hown, nofun⟩
  next =>
    split
    · apply updateHeld_own
      exact hown
    · apply updateReleased_own
      exact hown
  next => exact ⟨hown, nofun⟩

/-- What the device has to keep from poll to poll. -/
structure DeviceOk (d : KeypadDevice) : Prop where
  own : OwnKeys d
  pushed : ∀ k ∈ d.pushed, k ∈ deviceKeys

/-- Polling a key leaves every key its own data. -/
theorem DeviceOk.pollKey {d : KeypadDevice} (h : DeviceOk d) (r : Round)
    (key : Key) : DeviceOk (pollKey r key d) := by
  have hown := libKeyUpdateKeyStatus_own (h.own key) d.bitmaps
    (r.isPressed key) r.delta
  constructor
  · intro key'
    unfold Keypad.pollKey
    by_cases hkey : key' = key
    · subst hkey
      dsimp only
      rw [Function.update_self]
      exact hown.keyData
    · dsimp only
      rw [Function.update_of_ne hkey]
      exact h.own key'
  · intro k hk
    rcases List.mem_append.mp hk with hold | hnew
    · exact h.pushed k hold
    · exact hown.pushed k hnew

/-- A round of `GetKeys` leaves every key its own data. -/
theorem DeviceOk.getKeys {d : KeypadDevice} (h : DeviceOk d) (r : Round) :
    DeviceOk (keypadDeviceImplGetKeys r d) := by
  unfold keypadDeviceImplGetKeys
  exact List.foldlRecOn keyList _ h
    fun d' h' key _ => h'.pollKey r key

/-- No key of the device is partial. -/
theorem deviceKeys_value (k : EfiKeyData) (h : k ∈ deviceKeys) :
    k.isPartial = false := by
  have hall : ∀ k ∈ deviceKeys, k.isPartial = false := by decide
  exact hall k h

/-- The device pushes its six keys only, and they are value keys. -/
theorem exynosKeypad_valueKeys :
    ValueKeys exynosKeypad OwnKeys (· ∈ deviceKeys) where
  reset _ _ := rfl
  getKeys isPressed delta d hown := by
    have hok : DeviceOk { d with pushed := [] } := ⟨hown, nofun⟩
    have hround := hok.getKeys ⟨isPressed, delta⟩
    exact ⟨hround.own, hround.pushed⟩
  value := deviceKeys_value

/-- What a client reads of the phone's keys: one of six, as it is. -/
theorem translateCtrl_deviceKeys (k : EfiKeyData) (h : k ∈ deviceKeys) :
    translateCtrl k = k.key := by
  have hall : ∀ k ∈ deviceKeys, translateCtrl k = k.key := by decide
  exact hall k h

variable {Pins Dev : Type} {keypadDevice : KeypadDeviceProtocol Pins Dev}
variable {freq : BitVec 64}

/-- A call of `ReadKeyStroke` that returns from its first turn. -/
theorem readKeyStroke_of_turn {d : ConsoleInDev Dev} {s : Sample Pins}
    {answer : Except TextInError EfiInputKey}
    (h : consoleAnswer keypadDevice freq (.readKeyStroke s) d
      = .key (some answer)) (samples : List (Sample Pins)) :
    (keypadReadKeyStroke keypadDevice freq (s :: samples) d).1
      = some answer := by
  have hturn : (readKeyStrokeTurn keypadDevice freq s d).1 = some answer :=
    ConsoleAnswer.key.inj h
  generalize hr : readKeyStrokeTurn keypadDevice freq s d = r at hturn
  obtain ⟨first, d'⟩ := r
  obtain rfl : first = some answer := hturn
  exact congrArg Prod.fst (turns_of_some hr samples)

/-- Whatever has been called, and whatever the pins and the counter have
been, `ReadKeyStroke` on the phone returns from its first turn, with a key
of the device as it is or with `EFI_NOT_READY`, and its clients may rely
on the wait event. -/
theorem phone_serves_clients (freq : BitVec 64) (device : KeypadDevice)
    (calls : List (ConsoleCall (Key → Bool))) :
    let d := run (consoleStep exynosKeypad freq) calls
      (keypadControllerDriverStart exynosKeypad device)
    (∀ s samples, ∃ answer,
      (keypadReadKeyStroke exynosKeypad freq (s :: samples) d).1
          = some answer
        ∧ (answer = .error .notReady
          ∨ ∃ k ∈ deviceKeys, answer = .ok k.key))
      ∧ WaitsWell exynosKeypad freq (· ∈ deviceKeys) d := by
  intro d
  have hwell : WaitsWell exynosKeypad freq (· ∈ deviceKeys) d :=
    waitsWell_of_showsValue freq exynosKeypad_valueKeys
      (showsValue_run freq exynosKeypad_valueKeys device calls)
  refine ⟨fun s samples => ?_, hwell⟩
  obtain ⟨answer, hanswer, hkind⟩ := hwell.returns s
  refine ⟨answer, readKeyStroke_of_turn hanswer samples, ?_⟩
  obtain hnone | ⟨k, hk, hkey⟩ := hkind
  · exact .inl hnone
  · rw [translateCtrl_deviceKeys k hk] at hkey
    exact .inr ⟨k, hk, hkey⟩

-- =================================================================== time

/-- What the counter shows at the polls of some calls. -/
def countersOf (calls : List (ConsoleCall Pins)) : List Nat :=
  (calls.filterMap ConsoleCall.sample).map (·.counter.toNat)

/-- The time that a call's poll hands to the device. -/
def pollTime (freq : BitVec 64) (call : ConsoleCall Pins)
    (d : ConsoleInDev Dev) : List Nat :=
  call.sample.elim [] fun s =>
    [(getTimeInNanoSecond freq (s.counter - d.last)).toNat]

/-- The times that the polls of a run hand to the device. -/
def pollTimes (keypadDevice : KeypadDeviceProtocol Pins Dev)
    (freq : BitVec 64) (calls : List (ConsoleCall Pins))
    (d : ConsoleInDev Dev) : List Nat :=
  (answers (consoleStep keypadDevice freq) (pollTime freq) calls d).flatten

variable (keypadDevice freq) in
/-- A call that samples leaves its counter as the last one. -/
theorem consoleStep_last (call : ConsoleCall Pins) {d : ConsoleInDev Dev}
    (h : ShowsList d) :
    (consoleStep keypadDevice freq call d).last
      = call.sample.elim d.last (·.counter) := by
  obtain ⟨t, ht⟩ := h
  have hlast := (consoleCall_agrees keypadDevice freq call ht).shows.last
  have hstep : (consoleStep keypadDevice freq call d).last
      = (listCall keypadDevice freq call t).2.last := hlast
  rw [hstep]
  cases hs : call.sample with
  | none =>
    rw [(listCall_device freq hs t).2, ← ht.last]
    rfl
  | some s =>
    rw [(listCall_rest freq hs t).2.2]
    rfl

/-- A call without a sample adds no counter. -/
theorem countersOf_none {call : ConsoleCall Pins}
    (hs : call.sample = none) (calls : List (ConsoleCall Pins)) :
    countersOf (call :: calls) = countersOf calls := by
  unfold countersOf
  rw [List.filterMap_cons_none hs]

/-- A call's sample comes first among the counters. -/
theorem countersOf_some {call : ConsoleCall Pins} {s : Sample Pins}
    (hs : call.sample = some s) (calls : List (ConsoleCall Pins)) :
    countersOf (call :: calls) = s.counter.toNat :: countersOf calls := by
  unfold countersOf
  rw [List.filterMap_cons_some hs, List.map_cons]

/-- The times of a run are those of its first call and the rest. -/
theorem pollTimes_cons (call : ConsoleCall Pins)
    (calls : List (ConsoleCall Pins)) (d : ConsoleInDev Dev) :
    pollTimes keypadDevice freq (call :: calls) d
      = pollTime freq call d ++ pollTimes keypadDevice freq calls
        (consoleStep keypadDevice freq call d) := rfl

/-- The pieces are the gaps between the readings, in nanoseconds. -/
theorem pollTimes_eq (hf : 0 < hertz freq) {calls : List (ConsoleCall Pins)}
    {d : ConsoleInDev Dev} (h : ShowsList d)
    (hchain : List.IsChain (· ≤ ·) (d.last.toNat :: countersOf calls))
    (hfits : Fits freq
      (lastReading d.last.toNat (countersOf calls) - d.last.toNat)) :
    pollTimes keypadDevice freq calls d
      = (gaps d.last.toNat (countersOf calls)).map
        (rescale giga (hertz freq)) := by
  induction calls generalizing d with
  | nil => rfl
  | cons call calls ih =>
    have hstep := ShowsList.step keypadDevice freq call h
    have hlast := consoleStep_last keypadDevice freq call h
    rw [pollTimes_cons]
    unfold pollTime
    cases hs : call.sample with
    | none =>
      rw [hs, Option.elim_none] at hlast
      rw [countersOf_none hs, ← hlast] at hchain hfits ⊢
      exact ih hstep hchain hfits
    | some s =>
      rw [hs, Option.elim_some] at hlast
      rw [countersOf_some hs] at hchain hfits ⊢
      rw [lastReading_cons] at hfits
      obtain ⟨hle, hrest⟩ := List.isChain_cons_cons.mp hchain
      have hend := le_lastReading hrest
      have hgap : (s.counter - d.last).toNat
          = s.counter.toNat - d.last.toNat :=
        BitVec.toNat_sub_of_le hle
      have htime : (getTimeInNanoSecond freq (s.counter - d.last)).toNat
          = rescale giga (hertz freq)
            (s.counter.toNat - d.last.toNat) := by
        rw [← hgap]
        exact Timer.getTimeInNanoSecond_of_fits hf
          (hfits.mono (by rw [hgap]; omega))
      rw [← hlast] at hrest hfits hle hend
      rw [Option.elim_some, htime, gaps, List.map_cons, ← hlast,
        ih hstep hrest (hfits.mono (by omega))]
      rfl

/-- The console after some calls. -/
def consoleAfter (keypadDevice : KeypadDeviceProtocol Pins Dev)
    (freq : BitVec 64) (device : Dev) (calls : List (ConsoleCall Pins)) :
    ConsoleInDev Dev :=
  run (consoleStep keypadDevice freq) calls
    (keypadControllerDriverStart keypadDevice device)

/-- Whoever polls, the times handed to the device add up to the time on
the counter, less a nanosecond at most for each poll. -/
theorem pollTimes_add_up (keypadDevice : KeypadDeviceProtocol Pins Dev)
    (freq : BitVec 64) (device : Dev) (before calls : List (ConsoleCall Pins))
    (hf : 0 < hertz freq)
    (hchain : List.IsChain (· ≤ ·)
      ((consoleAfter keypadDevice freq device before).last.toNat
        :: countersOf calls))
    (hfits : Fits freq
      (lastReading (consoleAfter keypadDevice freq device before).last.toNat
          (countersOf calls)
        - (consoleAfter keypadDevice freq device before).last.toNat)) :
    let d := consoleAfter keypadDevice freq device before
    let measured := (pollTimes keypadDevice freq calls d).sum
    let elapsed := rescale giga (hertz freq)
      (lastReading d.last.toNat (countersOf calls) - d.last.toNat)
    measured ≤ elapsed
      ∧ elapsed ≤ measured + (countersOf calls).length := by
  intro d measured elapsed
  have hstart : ShowsList (keypadControllerDriverStart keypadDevice device) :=
    ⟨_, start_shows keypadDevice device⟩
  have hd : ShowsList d :=
    run_invariant (fun call _ h => ShowsList.step keypadDevice freq call h)
      before hstart
  have hmeasured : measured = ((gaps d.last.toNat (countersOf calls)).map
      (rescale giga (hertz freq))).sum :=
    congrArg List.sum (pollTimes_eq hf hd hchain hfits)
  have helapsed : elapsed = rescale giga (hertz freq)
      (gaps d.last.toNat (countersOf calls)).sum := by
    have hsum := gaps_sum hchain
    have hdiff : lastReading d.last.toNat (countersOf calls)
        - d.last.toNat = (gaps d.last.toNat (countersOf calls)).sum :=
      Nat.sub_eq_of_eq_add' hsum.symm
    exact congrArg (rescale giga (hertz freq)) hdiff
  have hparts := rescale_sum (n := giga) hf
    (gaps d.last.toNat (countersOf calls))
  rw [← helapsed, ← hmeasured, gaps_length] at hparts
  exact hparts

/-- The keys before the first poll, none of them held. -/
def idleDevice : KeypadDevice where
  context key := libKeyInitializeKeyContext key.keyData
  bitmaps := ⟨fun _ => false, fun _ => false⟩
  pushed := []

/-- A poll that finds no key held. -/
def idleSample (counter : BitVec 64) : Sample (Key → Bool) :=
  ⟨fun _ => false, counter⟩

/-- Three polls a tick apart, at 24.576 MHz: 122 nanoseconds, of which the
device is told of 120. -/
theorem pollTimes_add_up_three :
    let d := consoleAfter exynosKeypad 24576000 idleDevice
      [.timer (idleSample 7)]
    let calls := [ConsoleCall.timer (idleSample 8),
      .waitForKey (idleSample 9), .readKeyStroke (idleSample 10)]
    (pollTimes exynosKeypad 24576000 calls d).sum = 120
      ∧ rescale giga (hertz 24576000) (10 - 7) = 122
      ∧ rescale giga (hertz 24576000)
          (lastReading d.last.toNat (countersOf calls) - d.last.toNat)
        ≤ (pollTimes exynosKeypad 24576000 calls d).sum + 3 := by
  intro d calls
  have hsum := (pollTimes_add_up exynosKeypad 24576000 idleDevice
    [.timer (idleSample 7)] calls (by decide +kernel) (by decide +kernel)
    (by decide +kernel)).2
  exact ⟨by decide +kernel, by decide +kernel, hsum⟩

end Edk2Exynos.Keypad
