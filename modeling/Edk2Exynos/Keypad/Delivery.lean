/-
What clients of the console read, over any run.

# Every key once

`pushedBy` is what a call's poll gets from the device, `delivered` what a
call returns to its client. The value keys that clients have read so far,
followed by those that still wait, are some of the value keys pushed, in
the order they were pushed: no key is made up, read twice or overtaken.
They are all of them as long as every push finds room and nobody resets
the console (`keys_delivered_once`). Which function reads them, and when
the timer polls, does not matter.

# Waiting

For a device that pushes value keys only, a wait signals when a read in
its place would return a key, and then any read does, whatever but a read
or a reset comes first (`WaitsWell`). `ValueKeys` is such a device, up to
an invariant of its state.
-/
import Edk2Exynos.Keypad.TypeAhead
import Edk2Exynos.Lib.Conserved

namespace Edk2Exynos.Keypad

open Lib
open Timer (getTimeInNanoSecond)

variable {Pins Dev : Type} (keypadDevice : KeypadDeviceProtocol Pins Dev)
variable (freq : BitVec 64)

-- ============================================================ definitions

/-- The value keys of a list, as `ReadKeyStroke` returns them. -/
def valueKeys (keys : List EfiKeyData) : List EfiInputKey :=
  (keys.filter fun k => ! k.isPartial).map translateCtrl

/-- The value key in an answer. -/
def delivered : ConsoleAnswer → List EfiInputKey
  | .key (some (.ok key)) => [key]
  | .keyData (.ok keyData) => valueKeys [keyData]
  | _ => []

/-- What a call's poll finds, if it polls. -/
def ConsoleCall.sample : ConsoleCall Pins → Option (Sample Pins)
  | .timer s => some s
  | .readKeyStroke s => some s
  | .readKeyStrokeEx keyData s => if keyData then some s else none
  | .waitForKey s => some s
  | _ => none

/-- What the device pushes during a call. -/
def pushedBy (call : ConsoleCall Pins) (d : ConsoleInDev Dev) :
    List EfiKeyData :=
  call.sample.elim [] fun s => (polled keypadDevice freq s d).2

/-- The keys that wait to be read. -/
def waitingKeys (d : ConsoleInDev Dev) : List EfiKeyData :=
  keysOf d.console.efiKeyQueue

/-- The key a call returns to its client. -/
def received (call : ConsoleCall Pins) (d : ConsoleInDev Dev) :
    List EfiInputKey :=
  delivered (consoleAnswer keypadDevice freq call d)

/-- A call that is no reset, and whose poll finds room. -/
structure Keeps (call : ConsoleCall Pins) (d : ConsoleInDev Dev) :
    Prop where
  room : (waitingKeys d).length
    + (pushedBy keypadDevice freq call d).length ≤ keyListMax
  noReset : call ≠ .reset

-- ============================================================ value keys

theorem valueKeys_append (keys keys' : List EfiKeyData) :
    valueKeys (keys ++ keys') = valueKeys keys ++ valueKeys keys' := by
  unfold valueKeys
  rw [List.filter_append, List.map_append]

theorem valueKeys_sublist {keys keys' : List EfiKeyData}
    (h : keys.Sublist keys') : (valueKeys keys).Sublist (valueKeys keys') :=
  (h.filter _).map _

/-- Partial keys are passed on or not, value keys always. -/
theorem valueKeys_accepted (p : Bool) (keys : List EfiKeyData) :
    valueKeys (accepted p keys) = valueKeys keys := by
  unfold valueKeys accepted
  rw [List.filter_filter]
  congr 2
  funext k
  cases k.isPartial <;> cases p <;> rfl

theorem valueKeys_dropWhile (keys : List EfiKeyData) :
    valueKeys (keys.dropWhile (·.isPartial)) = valueKeys keys := by
  induction keys with
  | nil => rfl
  | cons k keys ih =>
    rw [List.dropWhile_cons]
    split
    next hexposed =>
      rw [ih]
      unfold valueKeys
      rw [List.filter_cons_of_neg (by simp [hexposed])]
    next => rfl

theorem valueKeys_cons (k : EfiKeyData) (keys : List EfiKeyData) :
    valueKeys (k :: keys) = valueKeys [k] ++ valueKeys keys :=
  valueKeys_append [k] keys

-- ============================================================== the list

variable {t : TypeAhead Dev}

/-- The keys that a poll leaves are some of those there and pushed, and
all of them if there is room. -/
theorem poll_value (s : Sample Pins) (new : List EfiKeyData)
    (hnew : (keypadDevice.getKeys s.pins
      (getTimeInNanoSecond freq (s.counter - t.last)) t.device).2 = new) :
    (valueKeys (t.poll keypadDevice freq s).keys).Sublist
        (valueKeys t.keys ++ valueKeys new)
      ∧ (t.keys.length + new.length ≤ keyListMax →
        valueKeys (t.poll keypadDevice freq s).keys
          = valueKeys t.keys ++ valueKeys new) := by
  have hkeys : (t.poll keypadDevice freq s).keys
      = recentKeys (t.keys ++ accepted t.partialKeys new) := by
    rw [← hnew]
    rfl
  have hall : valueKeys (t.keys ++ accepted t.partialKeys new)
      = valueKeys t.keys ++ valueKeys new := by
    rw [valueKeys_append, valueKeys_accepted]
  rw [hkeys, ← hall]
  refine ⟨valueKeys_sublist (recentKeys_sublist _), fun hroom => ?_⟩
  have hlen : (accepted t.partialKeys new).length ≤ new.length :=
    List.length_filter_le _ _
  rw [recentKeys_of_short (by rw [List.length_append]; omega)]

theorem take_value (t : TypeAhead Dev) :
    delivered (.keyData t.take.1) ++ valueKeys t.take.2.keys
      = valueKeys t.keys := by
  unfold TypeAhead.take
  cases t.keys with
  | nil => rfl
  | cons k keys => exact (valueKeys_cons k keys).symm

/-- A turn that goes on has taken a partial key. -/
theorem readTurn_value (s : Sample Pins) (t : TypeAhead Dev) :
    delivered (.key (t.readTurn keypadDevice freq s).1)
        ++ valueKeys (t.readTurn keypadDevice freq s).2.keys
      = valueKeys (t.poll keypadDevice freq s).keys := by
  have htake := take_value (t.poll keypadDevice freq s)
  unfold TypeAhead.readTurn
  generalize (t.poll keypadDevice freq s).take = r at htake ⊢
  rw [← htake]
  obtain ⟨answer, t'⟩ := r
  cases answer with
  | error e => rfl
  | ok k =>
    dsimp only [delivered]
    unfold valueKeys
    cases hk : k.isPartial <;> simp [hk]

/-- A call that polls answers out of what the poll leaves. -/
theorem listCall_value {call : ConsoleCall Pins} {s : Sample Pins}
    (hs : call.sample = some s) (t : TypeAhead Dev) :
    delivered (listCall keypadDevice freq call t).1
        ++ valueKeys (listCall keypadDevice freq call t).2.keys
      = valueKeys (t.poll keypadDevice freq s).keys := by
  cases call with
  | timer s' =>
    obtain rfl : s' = s := Option.some.inj hs
    exact List.nil_append _
  | readKeyStroke s' =>
    obtain rfl : s' = s := Option.some.inj hs
    rw [listCall_readKeyStroke]
    exact readTurn_value keypadDevice freq s' t
  | readKeyStrokeEx keyData s' =>
    cases keyData with
    | false => cases hs
    | true =>
      obtain rfl : s' = s := Option.some.inj hs
      exact take_value (t.poll keypadDevice freq s')
  | waitForKey s' =>
    obtain rfl : s' = s := Option.some.inj hs
    unfold listCall answering TypeAhead.wait
    dsimp only [delivered]
    rw [List.nil_append, valueKeys_dropWhile]
  | reset => cases hs
  | setState keyToggleState => cases hs
  | register notifyList => cases hs
  | notify => cases hs

/-- A call that does not poll returns no key, and keeps all keys unless it
is a reset, which keeps none. -/
theorem listCall_still {call : ConsoleCall Pins} (hs : call.sample = none)
    (t : TypeAhead Dev) :
    delivered (listCall keypadDevice freq call t).1 = []
      ∧ ((listCall keypadDevice freq call t).2.keys = t.keys
        ∨ call = .reset
          ∧ (listCall keypadDevice freq call t).2.keys = []) := by
  cases call with
  | timer s' => cases hs
  | readKeyStroke s' => cases hs
  | readKeyStrokeEx keyData s' =>
    cases keyData with
    | false => exact ⟨rfl, .inl rfl⟩
    | true => cases hs
  | waitForKey s' => cases hs
  | reset => exact ⟨rfl, .inr ⟨rfl, rfl⟩⟩
  | setState keyToggleState =>
    cases keyToggleState with
    | none => exact ⟨rfl, .inl rfl⟩
    | some toggle =>
      unfold listCall answering TypeAhead.setState
      dsimp only
      split <;> exact ⟨rfl, .inl rfl⟩
  | register notifyList => exact ⟨rfl, .inl rfl⟩
  | notify => exact ⟨rfl, .inl rfl⟩

-- ============================================================ a console

variable {d : ConsoleInDev Dev}

/-- A poll of the list pushes what the console's does. -/
theorem Shows.polled_eq (h : Shows d t) (s : Sample Pins) :
    polled keypadDevice freq s d
      = keypadDevice.getKeys s.pins
        (getTimeInNanoSecond freq (s.counter - t.last)) t.device := by
  unfold polled
  rw [h.last, h.device]

/-- A call accounts for the value keys: loosely always, exactly when it
keeps them. -/
theorem call_accounts (call : ConsoleCall Pins) (h : Shows d t) :
    (received keypadDevice freq call d
          ++ valueKeys (waitingKeys (consoleStep keypadDevice freq call d))
        ).Sublist
        (valueKeys (waitingKeys d)
          ++ valueKeys (pushedBy keypadDevice freq call d))
      ∧ (Keeps keypadDevice freq call d →
        received keypadDevice freq call d
            ++ valueKeys (waitingKeys (consoleStep keypadDevice freq call d))
          = valueKeys (waitingKeys d)
            ++ valueKeys (pushedBy keypadDevice freq call d)) := by
  have hagrees := consoleCall_agrees keypadDevice freq call h
  have hafter : waitingKeys (consoleStep keypadDevice freq call d)
      = (listCall keypadDevice freq call t).2.keys :=
    hagrees.shows.holds.keys
  have hbefore : waitingKeys d = t.keys := h.holds.keys
  have hanswer : received keypadDevice freq call d
      = delivered (listCall keypadDevice freq call t).1 :=
    congrArg delivered hagrees.answer
  rw [hafter, hanswer]
  cases hs : call.sample with
  | none =>
    have hnone : pushedBy keypadDevice freq call d = [] := by
      unfold pushedBy
      rw [hs]
      rfl
    obtain ⟨hout, hkeys | ⟨hreset, hkeys⟩⟩ :=
      listCall_still keypadDevice freq hs t
    · rw [hnone, hout, hkeys, hbefore, List.nil_append]
      have hnil : valueKeys [] = [] := rfl
      rw [hnil, List.append_nil]
      exact ⟨List.Sublist.refl _, fun _ => rfl⟩
    · rw [hout, hkeys]
      exact ⟨List.nil_sublist _, fun hkeeps =>
        absurd hreset hkeeps.noReset⟩
  | some s =>
    have hpushed : pushedBy keypadDevice freq call d
        = (polled keypadDevice freq s d).2 := by
      unfold pushedBy
      rw [hs]
      rfl
    obtain ⟨hsome, hall⟩ := poll_value keypadDevice freq s
      (pushedBy keypadDevice freq call d)
      (by rw [hpushed, h.polled_eq])
    rw [listCall_value keypadDevice freq hs t, hbefore]
    refine ⟨hsome, fun hkeeps => hall ?_⟩
    have hroom := hkeeps.room
    rw [hbefore] at hroom
    exact hroom

/-- Some list is what the console shows. -/
def ShowsList (d : ConsoleInDev Dev) : Prop := ∃ t, Shows d t

theorem ShowsList.step (call : ConsoleCall Pins) {d : ConsoleInDev Dev}
    (h : ShowsList d) : ShowsList (consoleStep keypadDevice freq call d) := by
  obtain ⟨t, ht⟩ := h
  exact ⟨_, (consoleCall_agrees keypadDevice freq call ht).shows⟩

/-- What clients have read in a run, in the order they did. -/
def readIn (calls : List (ConsoleCall Pins)) (d : ConsoleInDev Dev) :
    List EfiInputKey :=
  (answers (consoleStep keypadDevice freq) (received keypadDevice freq)
    calls d).flatten

/-- The value keys that the device has pushed in a run. -/
def pushedIn (calls : List (ConsoleCall Pins)) (d : ConsoleInDev Dev) :
    List EfiInputKey :=
  (answers (consoleStep keypadDevice freq)
    (fun call d => valueKeys (pushedBy keypadDevice freq call d))
    calls d).flatten

/-- The value keys read, and then those that wait, are some of those
pushed, in their order; and all of them when there always was room and
nobody has reset the console. -/
theorem keys_delivered_once (device : Dev)
    (calls : List (ConsoleCall Pins)) :
    let start := keypadControllerDriverStart keypadDevice device
    let waiting := valueKeys
      (waitingKeys (run (consoleStep keypadDevice freq) calls start))
    (readIn keypadDevice freq calls start ++ waiting).Sublist
        (pushedIn keypadDevice freq calls start)
      ∧ (EveryStep (consoleStep keypadDevice freq)
          (Keeps keypadDevice freq) calls start →
        readIn keypadDevice freq calls start ++ waiting
          = pushedIn keypadDevice freq calls start) := by
  intro start waiting
  have hstart : ShowsList start :=
    ⟨_, start_shows keypadDevice device⟩
  have hempty : valueKeys (waitingKeys start) = [] := by
    have hnone : waitingKeys start = [] :=
      (start_shows keypadDevice device).holds.keys
    rw [hnone]
    rfl
  constructor
  · have hrun := run_accounts (fun d => valueKeys (waitingKeys d))
      (received keypadDevice freq)
      (fun call d => valueKeys (pushedBy keypadDevice freq call d))
      accounts_sublist
      (fun call _ _ h => ShowsList.step keypadDevice freq call h)
      (fun call d _ h => by
        obtain ⟨t, ht⟩ := h
        exact (call_accounts keypadDevice freq call ht).1)
      (.of_forall (fun _ _ => trivial) calls start) hstart
    rw [hempty] at hrun
    exact hrun
  · intro hkeeps
    have hrun := run_accounts (fun d => valueKeys (waitingKeys d))
      (received keypadDevice freq)
      (fun call d => valueKeys (pushedBy keypadDevice freq call d))
      accounts_eq
      (fun call _ _ h => ShowsList.step keypadDevice freq call h)
      (fun call d hkeeps h => by
        obtain ⟨t, ht⟩ := h
        exact (call_accounts keypadDevice freq call ht).2 hkeeps)
      hkeeps hstart
    rw [hempty] at hrun
    exact hrun

/-- A device that pushes what its polls find. -/
def echoKeypad : KeypadDeviceProtocol (List EfiKeyData) Unit where
  reset _ := ()
  getKeys pins _ _ := ((), pins)

/-- A partial key and a value key, with partial keys exposed: the reader's
first turn skips the one, its second returns the other. -/
def partialFirst : List (ConsoleCall (List EfiKeyData)) :=
  [.setState (some 0xC0),
    .timer ⟨[⟨⟨0, 0⟩, ⟨0, 0⟩⟩, ⟨⟨0, 0x61⟩, ⟨0, 0⟩⟩], 1⟩,
    .readKeyStroke ⟨[], 2⟩, .readKeyStroke ⟨[], 3⟩]

theorem keys_delivered_once_partial :
    readIn echoKeypad 1000 partialFirst
        (keypadControllerDriverStart echoKeypad ())
      = [⟨0, 0x61⟩] := by
  have hall := (keys_delivered_once echoKeypad 1000 () partialFirst).2
    ⟨⟨by decide +kernel, nofun⟩, ⟨by decide +kernel, nofun⟩,
      ⟨by decide +kernel, nofun⟩, ⟨by decide +kernel, nofun⟩, trivial⟩
  have hwaiting : valueKeys (waitingKeys
      (run (consoleStep echoKeypad 1000) partialFirst
        (keypadControllerDriverStart echoKeypad ()))) = [] := by
    decide +kernel
  have hpushed : pushedIn echoKeypad 1000 partialFirst
      (keypadControllerDriverStart echoKeypad ()) = [⟨0, 0x61⟩] := by
    decide +kernel
  rw [hwaiting, hpushed, List.append_nil] at hall
  exact hall

-- ====================================================== one kind of key

/-- A device that, while its state has the property, pushes keys of some
kind only, all of them value keys. -/
structure ValueKeys (Inv : Dev → Prop) (Kind : EfiKeyData → Prop) :
    Prop where
  reset : ∀ device, Inv (keypadDevice.reset device)
  getKeys : ∀ pins delta device, Inv device →
    Inv (keypadDevice.getKeys pins delta device).1
      ∧ ∀ k ∈ (keypadDevice.getKeys pins delta device).2, Kind k
  value : ∀ k, Kind k → k.isPartial = false

/-- All keys that wait are of that kind. -/
structure AllValue (Inv : Dev → Prop) (Kind : EfiKeyData → Prop)
    (t : TypeAhead Dev) : Prop where
  keys : ∀ k ∈ t.keys, Kind k
  device : Inv t.device

variable {Inv : Dev → Prop} {Kind : EfiKeyData → Prop} {keypadDevice}

theorem AllValue.poll (hv : ValueKeys keypadDevice Inv Kind)
    (h : AllValue Inv Kind t) (s : Sample Pins) :
    AllValue Inv Kind (t.poll keypadDevice freq s) := by
  obtain ⟨hdevice, hpushed⟩ := hv.getKeys s.pins
    (getTimeInNanoSecond freq (s.counter - t.last)) t.device h.device
  refine ⟨fun k hk => ?_, hdevice⟩
  have hmem := (recentKeys_sublist _).mem hk
  rcases List.mem_append.mp hmem with hold | hnew
  · exact h.keys k hold
  · exact hpushed k (List.mem_of_mem_filter hnew)

/-- A turn that finds no key. -/
theorem readTurn_nil {s : Sample Pins}
    (h : (t.poll keypadDevice freq s).keys = []) :
    t.readTurn keypadDevice freq s
      = (some (.error .notReady), t.poll keypadDevice freq s) := by
  unfold TypeAhead.readTurn TypeAhead.take
  generalize t.poll keypadDevice freq s = p at h ⊢
  obtain ⟨keys, partialKeys, device, last⟩ := p
  obtain rfl : keys = [] := h
  rfl

/-- A turn that finds one. -/
theorem readTurn_cons {s : Sample Pins} {k : EfiKeyData}
    {keys : List EfiKeyData}
    (h : (t.poll keypadDevice freq s).keys = k :: keys) :
    t.readTurn keypadDevice freq s
      = (if k.isPartial then none else some (.ok (translateCtrl k)),
        { t.poll keypadDevice freq s with keys }) := by
  unfold TypeAhead.readTurn TypeAhead.take
  rw [h]
  dsimp only [List.head?_cons, Option.elim_some, List.tail_cons]
  split <;> rfl

/-- What a call that polls leaves of what the poll left. -/
theorem listCall_rest {call : ConsoleCall Pins} {s : Sample Pins}
    (hs : call.sample = some s) (t : TypeAhead Dev) :
    (listCall keypadDevice freq call t).2.keys.Sublist
        (t.poll keypadDevice freq s).keys
      ∧ (listCall keypadDevice freq call t).2.device
        = (t.poll keypadDevice freq s).device
      ∧ (listCall keypadDevice freq call t).2.last = s.counter := by
  cases call with
  | timer s' =>
    obtain rfl : s' = s := Option.some.inj hs
    exact ⟨List.Sublist.refl _, rfl, rfl⟩
  | readKeyStroke s' =>
    obtain rfl : s' = s := Option.some.inj hs
    cases hkeys : (t.poll keypadDevice freq s').keys with
    | nil =>
      rw [listCall_readKeyStroke, readTurn_nil freq hkeys, ← hkeys]
      exact ⟨List.Sublist.refl _, rfl, rfl⟩
    | cons k keys =>
      rw [listCall_readKeyStroke, readTurn_cons freq hkeys]
      exact ⟨List.sublist_cons_self k keys, rfl, rfl⟩
  | readKeyStrokeEx keyData s' =>
    cases keyData with
    | false => cases hs
    | true =>
      obtain rfl : s' = s := Option.some.inj hs
      exact ⟨List.tail_sublist _, rfl, rfl⟩
  | waitForKey s' =>
    obtain rfl : s' = s := Option.some.inj hs
    exact ⟨List.dropWhile_sublist _, rfl, rfl⟩
  | reset => cases hs
  | setState keyToggleState => cases hs
  | register notifyList => cases hs
  | notify => cases hs

/-- The device of a call that does not poll. -/
theorem listCall_device {call : ConsoleCall Pins}
    (hs : call.sample = none) (t : TypeAhead Dev) :
    ((listCall keypadDevice freq call t).2.device = t.device
        ∨ (listCall keypadDevice freq call t).2.device
          = keypadDevice.reset t.device)
      ∧ (listCall keypadDevice freq call t).2.last = t.last := by
  cases call with
  | timer s' => cases hs
  | readKeyStroke s' => cases hs
  | readKeyStrokeEx keyData s' =>
    cases keyData with
    | false => exact ⟨.inl rfl, rfl⟩
    | true => cases hs
  | waitForKey s' => cases hs
  | reset => exact ⟨.inr rfl, rfl⟩
  | setState keyToggleState =>
    cases keyToggleState with
    | none => exact ⟨.inl rfl, rfl⟩
    | some toggle =>
      unfold listCall answering TypeAhead.setState
      dsimp only
      split <;> exact ⟨.inl rfl, rfl⟩
  | register notifyList => exact ⟨.inl rfl, rfl⟩
  | notify => exact ⟨.inl rfl, rfl⟩

/-- No call lets another key in. -/
theorem AllValue.call (hv : ValueKeys keypadDevice Inv Kind)
    (h : AllValue Inv Kind t) (call : ConsoleCall Pins) :
    AllValue Inv Kind (listCall keypadDevice freq call t).2 := by
  cases hs : call.sample with
  | some s =>
    have hpoll := h.poll freq hv s
    obtain ⟨hkeys, hdevice, -⟩ := listCall_rest freq hs t
    refine ⟨fun k hk => hpoll.keys k (hkeys.mem hk), ?_⟩
    rw [hdevice]
    exact hpoll.device
  | none =>
    constructor
    · intro k hk
      obtain ⟨-, hkeys | ⟨-, hkeys⟩⟩ :=
        listCall_still keypadDevice freq hs t
      · rw [hkeys] at hk
        exact h.keys k hk
      · rw [hkeys] at hk
        cases hk
    · obtain ⟨hsame | hreset, -⟩ := listCall_device freq hs t
      · rw [hsame]
        exact h.device
      · rw [hreset]
        exact hv.reset t.device

/-- The console shows a list of such keys. -/
def ShowsValue (Inv : Dev → Prop) (Kind : EfiKeyData → Prop)
    (d : ConsoleInDev Dev) : Prop :=
  ∃ t, Shows d t ∧ AllValue Inv Kind t

theorem ShowsValue.step (hv : ValueKeys keypadDevice Inv Kind)
    (call : ConsoleCall Pins) {d : ConsoleInDev Dev}
    (h : ShowsValue Inv Kind d) :
    ShowsValue Inv Kind (consoleStep keypadDevice freq call d) := by
  obtain ⟨t, ht, hvalue⟩ := h
  exact ⟨_, (consoleCall_agrees keypadDevice freq call ht).shows,
    hvalue.call freq hv call⟩

/-- Every state of a run from the start shows such keys only. -/
theorem showsValue_run (hv : ValueKeys keypadDevice Inv Kind) (device : Dev)
    (calls : List (ConsoleCall Pins)) :
    ShowsValue Inv Kind (run (consoleStep keypadDevice freq) calls
      (keypadControllerDriverStart keypadDevice device)) := by
  have hstart : ShowsValue Inv Kind
      (keypadControllerDriverStart keypadDevice device) :=
    ⟨_, start_shows keypadDevice device,
      ⟨fun _ hk => absurd hk List.not_mem_nil, hv.reset device⟩⟩
  exact run_invariant (fun call _ h => h.step freq hv call) calls hstart

-- ================================================================ waiting

/-- A call that takes no value key out. -/
def ConsoleCall.takesNone : ConsoleCall Pins → Bool
  | .readKeyStroke _ => false
  | .readKeyStrokeEx keyData _ => ! keyData
  | .reset => false
  | _ => true

theorem recentKeys_ne_nil {keys : List EfiKeyData} (h : keys ≠ []) :
    recentKeys keys ≠ [] := by
  have hlen : 0 < keys.length := List.length_pos_iff.mpr h
  have hmax : 0 < keyListMax := by decide
  rw [recentKeys_eq, ← List.length_pos_iff, List.rtake, List.length_drop]
  omega

theorem poll_ne_nil (s : Sample Pins) (h : t.keys ≠ []) :
    (t.poll keypadDevice freq s).keys ≠ [] := by
  apply recentKeys_ne_nil
  intro hnil
  exact h (List.append_eq_nil_iff.mp hnil).1

/-- A wait leaves value keys alone. -/
theorem AllValue.wait_eq (hv : ValueKeys keypadDevice Inv Kind)
    (h : AllValue Inv Kind t) :
    t.wait = (! t.keys.isEmpty, t) := by
  have hkeys : t.keys.dropWhile (·.isPartial) = t.keys := by
    cases hk : t.keys with
    | nil => rfl
    | cons k keys =>
      have hvalue : k.isPartial = false :=
        hv.value k (h.keys k (by rw [hk]; simp))
      rw [List.dropWhile_cons, hvalue]
      rfl
  unfold TypeAhead.wait
  rw [hkeys]

/-- A key that waits goes on waiting. -/
theorem AllValue.still (hv : ValueKeys keypadDevice Inv Kind)
    (h : AllValue Inv Kind t) (hsome : t.keys ≠ []) {call : ConsoleCall Pins}
    (hnone : call.takesNone = true) :
    (listCall keypadDevice freq call t).2.keys ≠ [] := by
  cases call with
  | timer s => exact poll_ne_nil freq s hsome
  | readKeyStroke s => cases hnone
  | readKeyStrokeEx keyData s =>
    cases keyData with
    | false => exact hsome
    | true => cases hnone
  | waitForKey s =>
    show (t.poll keypadDevice freq s).wait.2.keys ≠ []
    rw [(h.poll freq hv s).wait_eq hv]
    exact poll_ne_nil freq s hsome
  | reset => cases hnone
  | setState keyToggleState =>
    have hs : (ConsoleCall.setState keyToggleState
      : ConsoleCall Pins).sample = none := rfl
    obtain ⟨-, hkeys | ⟨hreset, -⟩⟩ :=
      listCall_still keypadDevice freq hs t
    · rw [hkeys]
      exact hsome
    · cases hreset
  | register notifyList => exact hsome
  | notify => exact hsome

/-- A read in a state that shows such keys. -/
theorem read_of_showsValue (hv : ValueKeys keypadDevice Inv Kind)
    {d : ConsoleInDev Dev} (ht : Shows d t) (hvalue : AllValue Inv Kind t)
    (s : Sample Pins) :
    consoleAnswer keypadDevice freq (.readKeyStroke s) d
      = .key (some ((t.poll keypadDevice freq s).keys.head?.elim
        (.error .notReady) fun k => .ok (translateCtrl k))) := by
  have hanswer : consoleAnswer keypadDevice freq (.readKeyStroke s) d
      = .key (t.readTurn keypadDevice freq s).1 :=
    (consoleCall_agrees keypadDevice freq (.readKeyStroke s) ht).answer
  rw [hanswer]
  cases hkeys : (t.poll keypadDevice freq s).keys with
  | nil => rw [readTurn_nil freq hkeys]; rfl
  | cons k keys =>
    have hk : k.isPartial = false :=
      hv.value k ((hvalue.poll freq hv s).keys k (by rw [hkeys]; simp))
    rw [readTurn_cons freq hkeys, hk]
    rfl

/-- A wait in such a state. -/
theorem wait_of_showsValue (hv : ValueKeys keypadDevice Inv Kind)
    {d : ConsoleInDev Dev} (ht : Shows d t) (hvalue : AllValue Inv Kind t)
    (s : Sample Pins) :
    consoleAnswer keypadDevice freq (.waitForKey s) d
      = .signal (! (t.poll keypadDevice freq s).keys.isEmpty) := by
  have hanswer : consoleAnswer keypadDevice freq (.waitForKey s) d
      = .signal (t.poll keypadDevice freq s).wait.1 :=
    (consoleCall_agrees keypadDevice freq (.waitForKey s) ht).answer
  rw [hanswer, (hvalue.poll freq hv s).wait_eq hv]

/-- The console shows such keys, and one at least. -/
def HasKey (Inv : Dev → Prop) (Kind : EfiKeyData → Prop)
    (d : ConsoleInDev Dev) : Prop :=
  ∃ t, Shows d t ∧ AllValue Inv Kind t ∧ t.keys ≠ []

/-- Until someone takes it, a key that waits goes on waiting. -/
theorem HasKey.run (hv : ValueKeys keypadDevice Inv Kind)
    {between : List (ConsoleCall Pins)}
    (hbetween : ∀ call ∈ between, call.takesNone = true)
    {d : ConsoleInDev Dev} (h : HasKey Inv Kind d) :
    HasKey Inv Kind (Lib.run (consoleStep keypadDevice freq) between d) := by
  induction between generalizing d with
  | nil => exact h
  | cons call between ih =>
    obtain ⟨t, ht, hvalue, hsome⟩ := h
    obtain ⟨hcall, hrest⟩ := List.forall_mem_cons.mp hbetween
    exact ih hrest ⟨_, (consoleCall_agrees keypadDevice freq call ht).shows,
      hvalue.call freq hv call, hvalue.still freq hv hsome hcall⟩

/-- What a client that reads and waits is promised. -/
structure WaitsWell (keypadDevice : KeypadDeviceProtocol Pins Dev)
    (freq : BitVec 64) (Kind : EfiKeyData → Prop) (d : ConsoleInDev Dev) :
    Prop where
  /-- `ReadKeyStroke` returns from its first turn, and with a key of the
  device if with any. -/
  returns : ∀ s, ∃ answer,
    consoleAnswer keypadDevice freq (.readKeyStroke s) d
        = .key (some answer)
      ∧ (answer = .error .notReady
        ∨ ∃ k, Kind k ∧ answer = .ok (translateCtrl k))
  /-- A wait signals when a read would find a key. -/
  signals : ∀ s, consoleAnswer keypadDevice freq (.waitForKey s) d
      = .signal true
    ↔ ∃ key, consoleAnswer keypadDevice freq (.readKeyStroke s) d
      = .key (some (.ok key))
  /-- After the signal a read finds a key, whatever is called before. -/
  finds : ∀ s s' between,
    (∀ call ∈ between, ConsoleCall.takesNone call = true) →
    consoleAnswer keypadDevice freq (.waitForKey s) d = .signal true →
    ∃ key, consoleAnswer keypadDevice freq (.readKeyStroke s')
      (Lib.run (consoleStep keypadDevice freq)
        (.waitForKey s :: between) d) = .key (some (.ok key))

/-- A wait that signals leaves a key. -/
theorem hasKey_of_signal (hv : ValueKeys keypadDevice Inv Kind)
    {d : ConsoleInDev Dev} (h : ShowsValue Inv Kind d) {s : Sample Pins}
    (hsignal : consoleAnswer keypadDevice freq (.waitForKey s) d
      = .signal true) :
    HasKey Inv Kind (consoleStep keypadDevice freq (.waitForKey s) d) := by
  obtain ⟨t, ht, hvalue⟩ := h
  have hshows := (consoleCall_agrees keypadDevice freq (.waitForKey s)
    ht).shows
  refine ⟨_, hshows, hvalue.call freq hv (.waitForKey s), ?_⟩
  show (t.poll keypadDevice freq s).wait.2.keys ≠ []
  rw [(hvalue.poll freq hv s).wait_eq hv]
  rw [wait_of_showsValue freq hv ht hvalue] at hsignal
  intro hnil
  rw [hnil] at hsignal
  cases hsignal

theorem read_of_hasKey (hv : ValueKeys keypadDevice Inv Kind)
    {d : ConsoleInDev Dev} (h : HasKey Inv Kind d) (s : Sample Pins) :
    ∃ key, consoleAnswer keypadDevice freq (.readKeyStroke s) d
      = .key (some (.ok key)) := by
  obtain ⟨t, ht, hvalue, hsome⟩ := h
  have hpoll : (t.poll keypadDevice freq s).keys ≠ [] :=
    poll_ne_nil freq s hsome
  rw [read_of_showsValue freq hv ht hvalue]
  cases hkeys : (t.poll keypadDevice freq s).keys with
  | nil => exact absurd hkeys hpoll
  | cons k keys => exact ⟨translateCtrl k, rfl⟩

theorem waitsWell_of_showsValue (hv : ValueKeys keypadDevice Inv Kind)
    {d : ConsoleInDev Dev} (h : ShowsValue Inv Kind d) :
    WaitsWell keypadDevice freq Kind d := by
  refine ⟨fun s => ?_, fun s => ?_, fun s s' between hbetween hsignal => ?_⟩
  · obtain ⟨t, ht, hvalue⟩ := h
    refine ⟨_, read_of_showsValue freq hv ht hvalue s, ?_⟩
    cases hkeys : (t.poll keypadDevice freq s).keys with
    | nil => exact .inl rfl
    | cons k keys =>
      have hkind := (hvalue.poll freq hv s).keys k (by rw [hkeys]; simp)
      exact .inr ⟨k, hkind, rfl⟩
  · obtain ⟨t, ht, hvalue⟩ := h
    rw [read_of_showsValue freq hv ht hvalue,
      wait_of_showsValue freq hv ht hvalue]
    cases (t.poll keypadDevice freq s).keys with
    | nil => exact ⟨nofun, nofun⟩
    | cons k keys => exact ⟨fun _ => ⟨_, rfl⟩, fun _ => rfl⟩
  · have hkey := hasKey_of_signal freq hv h hsignal
    exact read_of_hasKey freq hv (hkey.run freq hv hbetween) s'

end Edk2Exynos.Keypad
