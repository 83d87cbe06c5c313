/-
The text input protocols (KeypadTextIn.c) over the queues of the console,
and the polls that fill them (KeypadController.c).

# Polls

Keys come in from `GetKeys` only, which the timer calls and which every
read and every wait calls as well. What a poll finds is the environment's:
the state of the pins, whatever that is for the device, and the
performance counter. `KeypadDeviceProtocol` is a device: its keys, and
what a poll pushes. A push does not touch the device, so a poll is first
the device's part and then its pushes, in their order.

# Reads

`ReadKeyStroke` skips partial keys and polls again for each. Its loop runs
at the caller's priority and keeps nothing from turn to turn, so a turn is
a step of the console and the timer may come in between. `WaitForKey`
takes partial keys out of the queue as well and signals its event when a
value key is left.
-/
import Edk2Exynos.Keypad.KeyQueue
import Edk2Exynos.Lib.Turns
import Edk2Exynos.Timer.ArmArchTimer

namespace Edk2Exynos.Keypad

open Lib
open Timer (getTimeInNanoSecond)

-- ================================================================= types

/-- `KEYPAD_DEVICE_PROTOCOL`, of a device with state `Dev` whose polls
find `Pins`: the keys that `GetKeys` pushes are in their order. -/
structure KeypadDeviceProtocol (Pins Dev : Type) where
  reset : Dev → Dev
  getKeys : Pins → BitVec 64 → Dev → Dev × List EfiKeyData

/-- What a poll finds. -/
structure Sample (Pins : Type) where
  pins : Pins
  counter : BitVec 64

/-- `EFI_STATUS`, other than success. -/
inductive TextInError where
  | invalidParameter
  | notReady
  | deviceError
  | unsupported
  deriving DecidableEq

/-- `KEYPAD_CONSOLE_IN_DEV`, with the state of its device and without the
shift keys, which nothing reads. -/
structure ConsoleInDev (Dev : Type) where
  console : KeypadConsoleIn
  device : Dev
  last : BitVec 64
  keypadErr : Bool
  capsLock : Bool
  numLock : Bool
  scrollLock : Bool

variable {Pins Dev : Type} (keypadDevice : KeypadDeviceProtocol Pins Dev)
variable (freq : BitVec 64)

-- ================================================================= queues

/-- `IsEfikeyBufEmpty` -/
def isEfikeyBufEmpty (queue : EfiKeyQueue) : Bool :=
  queue.head = queue.tail

/-- The queue for readers, replaced. -/
def ConsoleInDev.withQueue (d : ConsoleInDev Dev) (queue : EfiKeyQueue) :
    ConsoleInDev Dev :=
  { d with console := { d.console with efiKeyQueue := queue } }

-- ================================================================== polls

/-- What a poll pushes, key by key. -/
def pushAll (keys : List EfiKeyData) (c : KeypadConsoleIn) :
    KeypadConsoleIn :=
  keys.foldl (fun c k => keypadReturnApiPushEfikeyBufTail k c) c

/-- What `GetKeys` does at a poll. -/
def polled (s : Sample Pins) (d : ConsoleInDev Dev) :
    Dev × List EfiKeyData :=
  keypadDevice.getKeys s.pins
    (getTimeInNanoSecond freq (s.counter - d.last)) d.device

/-- `KeypadTimerHandler` -/
def keypadTimerHandler (s : Sample Pins) (d : ConsoleInDev Dev) :
    ConsoleInDev Dev :=
  if d.keypadErr then d
  else
    let (device, keys) := polled keypadDevice freq s d
    { d with
      last := s.counter
      device := device
      console := pushAll keys d.console }

-- ================================================================== reads

/-- `KeypadReadKeyStrokeWorker`, of a place for the key. -/
def keypadReadKeyStrokeWorker (s : Sample Pins) (d : ConsoleInDev Dev) :
    Except TextInError EfiKeyData × ConsoleInDev Dev :=
  let d := keypadTimerHandler keypadDevice freq s d
  if d.keypadErr then (.error .deviceError, d)
  else
    match popEfikeyBufHead d.console.efiKeyQueue with
    | none => (.error .notReady, d)
    | some (keyData, queue) => (.ok keyData, d.withQueue queue)

/-- `EFI_RIGHT_CONTROL_PRESSED` and `EFI_LEFT_CONTROL_PRESSED` -/
def controlPressed : UINT32 := 0x04 ||| 0x08

/-- The CTRL characters of `KeypadReadKeyStroke`: `'a'` to `'z'` and `'A'`
to `'Z'` become 1 to 26. -/
def translateCtrl (keyData : EfiKeyData) : EfiInputKey :=
  let key := keyData.key
  if keyData.keyState.keyShiftState &&& controlPressed ≠ 0 then
    if 0x61 ≤ key.unicodeChar ∧ key.unicodeChar ≤ 0x7A then
      { key with unicodeChar := key.unicodeChar - 0x61 + 1 }
    else if 0x41 ≤ key.unicodeChar ∧ key.unicodeChar ≤ 0x5A then
      { key with unicodeChar := key.unicodeChar - 0x41 + 1 }
    else key
  else key

/-- A turn of the loop in `KeypadReadKeyStroke`; none when it goes on. -/
def readKeyStrokeTurn (s : Sample Pins) (d : ConsoleInDev Dev) :
    Option (Except TextInError EfiInputKey) × ConsoleInDev Dev :=
  match keypadReadKeyStrokeWorker keypadDevice freq s d with
  | (.error e, d) => (some (.error e), d)
  | (.ok keyData, d) =>
      if keyData.isPartial then (none, d)
      else (some (.ok (translateCtrl keyData)), d)

/-- `KeypadReadKeyStroke`; none when it has not returned after the polls
given. -/
def keypadReadKeyStroke : List (Sample Pins) → ConsoleInDev Dev →
    Option (Except TextInError EfiInputKey) × ConsoleInDev Dev :=
  turns (readKeyStrokeTurn keypadDevice freq)

/-- `KeypadReadKeyStrokeEx`; false is a NULL `KeyData`. -/
def keypadReadKeyStrokeEx (keyData : Bool) (s : Sample Pins)
    (d : ConsoleInDev Dev) :
    Except TextInError EfiKeyData × ConsoleInDev Dev :=
  if keyData = false then (.error .invalidParameter, d)
  else keypadReadKeyStrokeWorker keypadDevice freq s d

/-- The loop of `KeypadWaitForKey`: whether it signals, and the queue. -/
def waitLoop : Nat → EfiKeyQueue → Bool × EfiKeyQueue
  | 0, queue => (false, queue)
  | fuel + 1, queue =>
      if isEfikeyBufEmpty queue then (false, queue)
      else if (queue.buffer queue.head).isPartial then
        waitLoop fuel ((popEfikeyBufHead queue).elim queue Prod.snd)
      else (true, queue)

/-- `KeypadWaitForKey`, and whether it signals its event: the queue never
holds more keys than the loop has fuel (`waitLoop_holds`). -/
def keypadWaitForKey (s : Sample Pins) (d : ConsoleInDev Dev) :
    Bool × ConsoleInDev Dev :=
  let d := keypadTimerHandler keypadDevice freq s d
  if d.keypadErr then (false, d)
  else
    let (signal, queue) :=
      waitLoop keypadEfiKeyMaxCount d.console.efiKeyQueue
    (signal, d.withQueue queue)

-- ======================================================= reset and state

/-- `InitKeypad` -/
def initKeypad (d : ConsoleInDev Dev) : ConsoleInDev Dev :=
  { d with
    device := keypadDevice.reset d.device
    console :=
      { d.console with
        efiKeyQueue := clearQueue d.console.efiKeyQueue
        efiKeyQueueForNotify := clearQueue d.console.efiKeyQueueForNotify
        isSupportPartialKey := false }
    capsLock := false
    numLock := false
    scrollLock := false }

/-- `KeypadEfiReset`; `InitKeypad` always succeeds. -/
def keypadEfiReset (d : ConsoleInDev Dev) :
    Except TextInError Unit × ConsoleInDev Dev :=
  if d.keypadErr then (.error .deviceError, d)
  else (.ok (), initKeypad keypadDevice d)

/-- `EFI_TOGGLE_STATE_VALID` -/
def toggleStateValid : UINT8 := 0x80

/-- `EFI_KEY_STATE_EXPOSED` -/
def keyStateExposed : UINT8 := 0x40

/-- `KeypadSetState`; none is a NULL `KeyToggleState`. -/
def keypadSetState (keyToggleState : Option UINT8) (d : ConsoleInDev Dev) :
    Except TextInError Unit × ConsoleInDev Dev :=
  match keyToggleState with
  | none => (.error .invalidParameter, d)
  | some toggle =>
      if d.keypadErr then (.error .deviceError, d)
      else if toggle &&& toggleStateValid ≠ toggleStateValid then
        (.error .unsupported, d)
      else
        (.ok (), { d with
          -- EFI_SCROLL_LOCK_ACTIVE, EFI_NUM_LOCK_ACTIVE and
          -- EFI_CAPS_LOCK_ACTIVE
          scrollLock := toggle &&& 0x01 = 0x01
          numLock := toggle &&& 0x02 = 0x02
          capsLock := toggle &&& 0x04 = 0x04
          console :=
            { d.console with
              isSupportPartialKey :=
                toggle &&& keyStateExposed = keyStateExposed } })

/-- The device of `KeypadControllerDriverStart`, after its reset. -/
def keypadControllerDriverStart (device : Dev) : ConsoleInDev Dev :=
  initKeypad keypadDevice
    { console :=
        { isSupportPartialKey := false
          efiKeyQueue := zeroedQueue
          efiKeyQueueForNotify := zeroedQueue
          notifyList := []
          signals := 0
          calls := [] }
      device := device
      last := -1
      keypadErr := false
      capsLock := false
      numLock := false
      scrollLock := false }

-- ================================================================== calls

/-- What happens to a console: a tick of its timer, a call, a turn of the
loop in `KeypadReadKeyStroke` or in `KeyNotifyProcessHandler`. `register`
is a call that leaves the list of registrations so. -/
inductive ConsoleCall (Pins : Type) where
  | timer (s : Sample Pins)
  | readKeyStroke (s : Sample Pins)
  | readKeyStrokeEx (keyData : Bool) (s : Sample Pins)
  | waitForKey (s : Sample Pins)
  | reset
  | setState (keyToggleState : Option UINT8)
  | register (notifyList : List KeypadNotify)
  | notify

/-- What a call returns. -/
inductive ConsoleAnswer where
  | done
  | status (status : Except TextInError Unit)
  | key (key : Option (Except TextInError EfiInputKey))
  | keyData (keyData : Except TextInError EfiKeyData)
  | signal (signal : Bool)
  deriving DecidableEq

/-- The answer of a call, in one type. -/
def answering {α σ : Type} (f : α → ConsoleAnswer) (r : α × σ) :
    ConsoleAnswer × σ :=
  (f r.1, r.2)

/-- A call, and what it leaves. -/
def consoleCall : ConsoleCall Pins → ConsoleInDev Dev →
    ConsoleAnswer × ConsoleInDev Dev
  | .timer s, d => (.done, keypadTimerHandler keypadDevice freq s d)
  | .readKeyStroke s, d =>
      answering .key (readKeyStrokeTurn keypadDevice freq s d)
  | .readKeyStrokeEx keyData s, d =>
      answering .keyData (keypadReadKeyStrokeEx keypadDevice freq keyData s d)
  | .waitForKey s, d =>
      answering .signal (keypadWaitForKey keypadDevice freq s d)
  | .reset, d => answering .status (keypadEfiReset keypadDevice d)
  | .setState keyToggleState, d =>
      answering .status (keypadSetState keyToggleState d)
  | .register notifyList, d =>
      (.done, { d with console := { d.console with notifyList } })
  | .notify, d =>
      (.done, { d with
        console := (keyNotifyIteration d.console).getD d.console })

end Edk2Exynos.Keypad
