/-
The keypad console (Keypad.c, KeypadTextIn.c): a key press is queued for
the readers, and queued for notification once per registration that it
matches; a handler empties the second queue and calls the registered
functions.

# Priorities

A press is delivered at TPL_NOTIFY and the handler runs at TPL_CALLBACK,
so a press may come between any two iterations of the handler's loop.
An iteration pops one key, in a critical section, and then dispatches
its own copy of it: what a press does meanwhile it does not see.
`KeypadEvent` are the two things that can happen.

# Calls

A registered function is named by a number. Calls are recorded in the
order they are made, each with the registration it was made for.
-/
import Edk2Exynos.Lib.RingBuffer
import Edk2Exynos.Lib.Runs

namespace Edk2Exynos.Keypad

open Lib

/-- An 8-bit word. -/
abbrev UINT8 := BitVec 8
/-- A 32-bit word. -/
abbrev UINT32 := BitVec 32
/-- A character of a wide string. -/
abbrev CHAR16 := BitVec 16

-- ================================================================= keys

/-- `EFI_INPUT_KEY` -/
structure EfiInputKey where
  scanCode : BitVec 16
  unicodeChar : CHAR16
  deriving DecidableEq

/-- `EFI_KEY_STATE` -/
structure EfiKeyState where
  keyShiftState : UINT32
  keyToggleState : UINT8
  deriving DecidableEq

/-- `EFI_KEY_DATA` -/
structure EfiKeyData where
  key : EfiInputKey
  keyState : EfiKeyState
  deriving DecidableEq

/-- `SCAN_NULL` with `CHAR_NULL`: a partial key stroke. -/
def EfiKeyData.isPartial (k : EfiKeyData) : Bool :=
  k.key.scanCode = 0 ∧ k.key.unicodeChar = 0

/-- `IsKeyRegistered`; a shift or toggle state of zero stands for any. -/
def isKeyRegistered (regsiteredData inputData : EfiKeyData) : Bool :=
  if regsiteredData.key.scanCode ≠ inputData.key.scanCode
      ∨ regsiteredData.key.unicodeChar ≠ inputData.key.unicodeChar then
    false
  else if regsiteredData.keyState.keyShiftState ≠ 0
      ∧ regsiteredData.keyState.keyShiftState
        ≠ inputData.keyState.keyShiftState then
    false
  else if regsiteredData.keyState.keyToggleState ≠ 0
      ∧ regsiteredData.keyState.keyToggleState
        ≠ inputData.keyState.keyToggleState then
    false
  else true

-- ============================================================ key queues

/-- `KEYPAD_EFI_KEY_MAX_COUNT` -/
def keypadEfiKeyMaxCount : Nat := 256

/-- `EFI_KEY_QUEUE` -/
abbrev EfiKeyQueue := RingBuffer EfiKeyData

/-- `PopEfikeyBufHead` -/
def popEfikeyBufHead (queue : EfiKeyQueue) :
    Option (EfiKeyData × EfiKeyQueue) :=
  queue.pop keypadEfiKeyMaxCount

/-- `PushEfikeyBufTail` -/
def pushEfikeyBufTail (queue : EfiKeyQueue) (keyData : EfiKeyData) :
    EfiKeyQueue :=
  queue.push keypadEfiKeyMaxCount keyData

-- ========================================================== the console

/-- `KEYPAD_CONSOLE_IN_EX_NOTIFY` -/
structure KeypadNotify where
  keyData : EfiKeyData
  keyNotificationFn : Nat
  deriving DecidableEq

/-- `KEYPAD_CONSOLE_IN_DEV`, as far as key presses use it, with the calls
made so far and the times `KeyNotifyProcessEvent` was signalled. -/
structure KeypadConsoleIn where
  isSupportPartialKey : Bool
  efiKeyQueue : EfiKeyQueue
  efiKeyQueueForNotify : EfiKeyQueue
  notifyList : List KeypadNotify
  signals : Nat
  calls : List (KeypadNotify × EfiKeyData)

/-- A press that matches a registration is queued for notification. -/
def queueForNotify (keyData : EfiKeyData) (c : KeypadConsoleIn) :
    KeypadConsoleIn :=
  { c with
    efiKeyQueueForNotify :=
      pushEfikeyBufTail c.efiKeyQueueForNotify keyData
    signals := c.signals + 1 }

/-- The loop over the registrations. -/
def notifyLoop (keyData : EfiKeyData) :
    List KeypadNotify → KeypadConsoleIn → KeypadConsoleIn
  | [], c => c
  | currentNotify :: list, c =>
      if isKeyRegistered currentNotify.keyData keyData then
        notifyLoop keyData list (queueForNotify keyData c)
      else notifyLoop keyData list c

/-- `KeypadReturnApiPushEfikeyBufTail` -/
def keypadReturnApiPushEfikeyBufTail (keyData : EfiKeyData)
    (c : KeypadConsoleIn) : KeypadConsoleIn :=
  if keyData.isPartial ∧ ¬ c.isSupportPartialKey then c
  else
    let c := notifyLoop keyData c.notifyList c
    { c with efiKeyQueue := pushEfikeyBufTail c.efiKeyQueue keyData }

/-- The registrations a key is dispatched to. -/
def matching (list : List KeypadNotify) (keyData : EfiKeyData) :
    List KeypadNotify :=
  list.filter fun n => isKeyRegistered n.keyData keyData

/-- An iteration of the loop in `KeyNotifyProcessHandler`; none is the
`break`. -/
def keyNotifyIteration (c : KeypadConsoleIn) : Option KeypadConsoleIn :=
  match popEfikeyBufHead c.efiKeyQueueForNotify with
  | none => none
  | some (keyData, queue) =>
      some { c with
        efiKeyQueueForNotify := queue
        calls := c.calls
          ++ (matching c.notifyList keyData).map fun n => (n, keyData) }

/-- The loop of the handler, with fuel. -/
def keyNotifyLoop : Nat → KeypadConsoleIn → KeypadConsoleIn
  | 0, c => c
  | fuel + 1, c =>
      match keyNotifyIteration c with
      | none => c
      | some c' => keyNotifyLoop fuel c'

/-- `KeyNotifyProcessHandler`, undisturbed: the queue never holds more
keys than the loop has fuel (`keyNotifyProcessHandler_drains`). -/
def keyNotifyProcessHandler (c : KeypadConsoleIn) : KeypadConsoleIn :=
  keyNotifyLoop keypadEfiKeyMaxCount c

-- ================================================================ events

/-- A key comes in, or the handler takes a turn. -/
inductive KeypadEvent where
  | press (keyData : EfiKeyData)
  | iterate

/-- What an event leaves. -/
def keypadStep : KeypadEvent → KeypadConsoleIn → KeypadConsoleIn
  | .press keyData, c => keypadReturnApiPushEfikeyBufTail keyData c
  | .iterate, c => (keyNotifyIteration c).getD c

/-- The keys pressed, in the order they arrived. -/
def presses (events : List KeypadEvent) : List EfiKeyData :=
  events.filterMap fun
    | .press keyData => some keyData
    | .iterate => none

end Edk2Exynos.Keypad
