/-
The keys of the Exynos 9820 (KeypadDeviceImplLib.c): a poll of a key, and
a round of polls over the three keys.

# A poll

A key is released, pressed, or released after its event was reported. Its
time counts from the last transition or the last event. A key that is
held reports after half a second: the power key one of three events that
depend on the volume keys, a volume key itself, and again and again,
unless the power key is held.

# The bitmaps

Each poll records whether its key is held. Both bitmaps are indexed by the
scan code, which is 0 for the power key; no other key has an entry in the
bitmap of characters, so that one is the power key's.
-/
import Edk2Exynos.Keypad.Console

namespace Edk2Exynos.Keypad

open Lib

/-- A 64-bit word. -/
abbrev UINT64 := BitVec 64

-- ================================================================= types

/-- `KEY_STATE` -/
inductive KeyState where
  | released
  | pressed
  | longpressRelease
  deriving DecidableEq

/-- `KEY_CONTEXT` -/
structure KeyContext where
  keyData : EfiKeyData
  time : UINT64
  state : KeyState
  keyRepeat : Bool
  longpress : Bool
  deriving DecidableEq

/-- `gBitmapScanCodes` and `gBitmapUnicodeChars`, by the bit. -/
structure Bitmaps where
  scanCodes : Nat → Bool
  unicodeChars : Nat → Bool

/-- A key without shift or toggle state. -/
def plainKey (scanCode : BitVec 16) (unicodeChar : CHAR16) : EfiKeyData :=
  ⟨⟨scanCode, unicodeChar⟩, ⟨0, 0⟩⟩

/-- `SCAN_UP` -/
def scanUp : BitVec 16 := 0x01

/-- `SCAN_DOWN` -/
def scanDown : BitVec 16 := 0x02

/-- `CHAR_CARRIAGE_RETURN` -/
def charCarriageReturn : CHAR16 := 0x0D

/-- `'s'` -/
def gKeyDataPowerDown : EfiKeyData := plainKey 0 0x73

/-- `'e'` -/
def gKeyDataPowerUp : EfiKeyData := plainKey 0 0x65

/-- `' '` -/
def gKeyDataPowerLongpress : EfiKeyData := plainKey 0 0x20

/-- `MS2NS` -/
def ms2ns (ms : UINT64) : UINT64 := ms * 1000000

-- =============================================================== bitmaps

/-- `BitmapSet` and `BitmapClear` -/
def bitmapPut (bitmap : Nat → Bool) (bit : BitVec 16) (value : Bool) :
    Nat → Bool := Function.update bitmap bit.toNat value

/-- `KeySetState`; both bitmaps are indexed by the scan code. -/
def keySetState (scanCode : BitVec 16) (unicodeChar : CHAR16)
    (value : Bool) (b : Bitmaps) : Bitmaps where
  scanCodes :=
    if scanCode ≠ 0 ∧ scanCode < 0x18 then
      bitmapPut b.scanCodes scanCode value
    else b.scanCodes
  unicodeChars :=
    if unicodeChar ≠ 0 ∧ unicodeChar < 0x7F then
      bitmapPut b.unicodeChars scanCode value
    else b.unicodeChars

/-- `KeyGetState` -/
def keyGetState (scanCode : BitVec 16) (unicodeChar : CHAR16)
    (b : Bitmaps) : Bool :=
  if scanCode ≠ 0 ∧ scanCode < 0x18 ∧ ¬ b.scanCodes scanCode.toNat then
    false
  else if unicodeChar ≠ 0 ∧ unicodeChar < 0x7F
      ∧ ¬ b.unicodeChars scanCode.toNat then
    false
  else true

-- ================================================================ a poll

/-- `LibKeyInitializeKeyContext`, with the key data that
`KeypadDeviceImplReset` sets. -/
def libKeyInitializeKeyContext (keyData : EfiKeyData) : KeyContext where
  keyData := keyData
  time := 0
  state := .released
  keyRepeat := false
  longpress := false

/-- Back to `KEYSTATE_RELEASED`. -/
def KeyContext.release (context : KeyContext) : KeyContext :=
  { context with
    time := 0
    keyRepeat := false
    longpress := false
    state := .released }

/-- What a poll leaves, and the keys it pushes to the console. -/
structure KeyUpdate where
  context : KeyContext
  bitmaps : Bitmaps
  pushed : List EfiKeyData

/-- The event of a power key that is held. -/
def powerLongpress (b : Bitmaps) : EfiKeyData :=
  if keyGetState scanDown 0 b then gKeyDataPowerDown
  else if keyGetState scanUp 0 b then gKeyDataPowerUp
  else gKeyDataPowerLongpress

/-- The branch of a pressed key that is still held. -/
def updateHeld (context : KeyContext) (b : Bitmaps) : KeyUpdate :=
  if context.keyRepeat ∧ context.time ≥ ms2ns 200 then
    ⟨{ context with time := 0, keyRepeat := true }, b, [context.keyData]⟩
  else if ¬ context.longpress ∧ context.time ≥ ms2ns 500 then
    if context.keyData.key.unicodeChar = charCarriageReturn then
      ⟨{ context with longpress := true }, b, [powerLongpress b]⟩
    else if ¬ keyGetState 0 charCarriageReturn b then
      ⟨{ context with time := 0, keyRepeat := true, longpress := true }, b,
        [context.keyData]⟩
    else
      -- a combination with the power key
      ⟨{ context with longpress := true }, b, []⟩
  else ⟨context, b, []⟩

/-- The branch of a pressed key that is no longer held. -/
def updateReleased (context : KeyContext) (b : Bitmaps) : KeyUpdate :=
  if ¬ context.longpress then
    ⟨{ context with state := .longpressRelease }, b, [context.keyData]⟩
  else if context.time ≥ ms2ns 10 then
    ⟨context.release, b, []⟩
  else ⟨context, b, []⟩

/-- `LibKeyUpdateKeyStatus` -/
def libKeyUpdateKeyStatus (context : KeyContext) (b : Bitmaps)
    (isPressed : Bool) (delta : UINT64) : KeyUpdate :=
  let b := keySetState context.keyData.key.scanCode
    context.keyData.key.unicodeChar isPressed b
  let context := { context with time := context.time + delta }
  match context.state with
  | .released =>
      if isPressed then
        ⟨{ context with time := 0, state := .pressed }, b, []⟩
      else ⟨context, b, []⟩
  | .pressed =>
      if isPressed then updateHeld context b else updateReleased context b
  | .longpressRelease => ⟨context.release, b, []⟩

-- ============================================================== a device

/-- The keys of the phone. -/
inductive Key where
  | volumeDown
  | volumeUp
  | power
  deriving DecidableEq

/-- The key data of `KeypadDeviceImplReset`. -/
def Key.keyData : Key → EfiKeyData
  | volumeDown => plainKey scanDown 0
  | volumeUp => plainKey scanUp 0
  | power => plainKey 0 charCarriageReturn

/-- The keys, and what has been pushed to the console so far. -/
structure KeypadDevice where
  context : Key → KeyContext
  bitmaps : Bitmaps
  pushed : List EfiKeyData

/-- `KeypadDeviceImplReset` leaves the bitmaps as they are. -/
def keypadDeviceImplReset (d : KeypadDevice) : KeypadDevice :=
  { d with context := fun key => libKeyInitializeKeyContext key.keyData }

/-- What a round finds: the pins, and the time since the last one. -/
structure Round where
  isPressed : Key → Bool
  delta : UINT64

/-- One turn of the loop in `KeypadDeviceImplGetKeys`. -/
def pollKey (r : Round) (key : Key) (d : KeypadDevice) : KeypadDevice :=
  let u := libKeyUpdateKeyStatus (d.context key) d.bitmaps
    (r.isPressed key) r.delta
  ⟨Function.update d.context key u.context, u.bitmaps,
    d.pushed ++ u.pushed⟩

/-- `KeyList` -/
def keyList : List Key := [.volumeDown, .volumeUp, .power]

/-- `KeypadDeviceImplGetKeys` -/
def keypadDeviceImplGetKeys (r : Round) (d : KeypadDevice) : KeypadDevice :=
  keyList.foldl (fun d key => pollKey r key d) d

end Edk2Exynos.Keypad
