/-
The text input protocols as what they are for: keys typed ahead.

# The list

`TypeAhead` is the promise: a list of the most recent keys that no one
has read, at most `keyListMax`, and whether partial keys are among them.
A poll appends what the device gives it, a read takes the first key, a
wait looks for a value key. Head and tail, the error state, the status
lights and everything about notification are gone from it.

# The console

`Shows` relates a console to that list. Each call keeps the relation and
answers as the list does (`consoleCall_agrees`), so over any run of calls,
from a driver that has started, a client cannot tell the two apart
(`console_refines_typeAhead`). The error state is part of the relation:
nothing ever sets it, so no call answers with a device error.
-/
import Edk2Exynos.Keypad.TextIn

namespace Edk2Exynos.Keypad

open Lib
open Timer (getTimeInNanoSecond)

variable {Pins Dev : Type} (keypadDevice : KeypadDeviceProtocol Pins Dev)
variable (freq : BitVec 64)

-- ============================================================== the list

/-- The keys typed and not read. -/
structure TypeAhead (Dev : Type) where
  keys : List EfiKeyData
  partialKeys : Bool
  device : Dev
  last : BitVec 64

/-- The keys that are passed on. -/
def accepted (partialKeys : Bool) (keys : List EfiKeyData) :
    List EfiKeyData :=
  keys.filter fun k => partialKeys || ! k.isPartial

/-- The most recent keys. -/
def recentKeys (keys : List EfiKeyData) : List EfiKeyData :=
  keys.rtake keyListMax

/-- The recent keys are the last ones of the list. -/
theorem recentKeys_eq (keys : List EfiKeyData) :
    recentKeys keys = keys.rtake keyListMax := by
  unfold recentKeys
  trivial

-- unfolding it would count to `keyListMax`
attribute [irreducible] recentKeys

/-- A poll adds what the device gives it, and the oldest keys make way. -/
def TypeAhead.poll (s : Sample Pins) (t : TypeAhead Dev) : TypeAhead Dev :=
  let polled := keypadDevice.getKeys s.pins
    (getTimeInNanoSecond freq (s.counter - t.last)) t.device
  { t with
    keys := recentKeys (t.keys ++ accepted t.partialKeys polled.2)
    device := polled.1
    last := s.counter }

/-- Take the first key. -/
def TypeAhead.take (t : TypeAhead Dev) :
    Except TextInError EfiKeyData × TypeAhead Dev :=
  (t.keys.head?.elim (.error .notReady) .ok,
    { t with keys := t.keys.tail })

/-- Poll, and take the first key, which is skipped when it is partial. -/
def TypeAhead.readTurn (s : Sample Pins) (t : TypeAhead Dev) :
    Option (Except TextInError EfiInputKey) × TypeAhead Dev :=
  match (t.poll keypadDevice freq s).take with
  | (.error e, t) => (some (.error e), t)
  | (.ok k, t) =>
      if k.isPartial then (none, t) else (some (.ok (translateCtrl k)), t)

/-- Drop the partial keys in front; is there another key? -/
def TypeAhead.wait (t : TypeAhead Dev) : Bool × TypeAhead Dev :=
  let keys := t.keys.dropWhile (·.isPartial)
  (! keys.isEmpty, { t with keys })

/-- A client asks for partial keys, or no longer does. -/
def TypeAhead.setState (toggle : UINT8) (t : TypeAhead Dev) :
    Except TextInError Unit × TypeAhead Dev :=
  if toggle &&& toggleStateValid = toggleStateValid then
    (.ok (), { t with
      partialKeys := toggle &&& keyStateExposed = keyStateExposed })
  else (.error .unsupported, t)

/-- A call on the list. -/
def listCall : ConsoleCall Pins → TypeAhead Dev →
    ConsoleAnswer × TypeAhead Dev
  | .timer s, t => (.done, t.poll keypadDevice freq s)
  | .readKeyStroke s, t => answering .key (t.readTurn keypadDevice freq s)
  | .readKeyStrokeEx false _, t => (.keyData (.error .invalidParameter), t)
  | .readKeyStrokeEx true s, t =>
      answering .keyData (t.poll keypadDevice freq s).take
  | .waitForKey s, t => answering .signal (t.poll keypadDevice freq s).wait
  | .reset, t =>
      (.status (.ok ()),
        { t with
          keys := []
          partialKeys := false
          device := keypadDevice.reset t.device })
  | .setState none, t => (.status (.error .invalidParameter), t)
  | .setState (some toggle), t => answering .status (t.setState toggle)
  | .register _, t => (.done, t)
  | .notify, t => (.done, t)

theorem listCall_readKeyStroke (s : Sample Pins) (t : TypeAhead Dev) :
    listCall keypadDevice freq (.readKeyStroke s) t
      = answering .key (t.readTurn keypadDevice freq s) := rfl

-- ========================================================= the relation

/-- A console that shows its clients the list. -/
structure Shows (d : ConsoleInDev Dev) (t : TypeAhead Dev) : Prop where
  holds : Holds d.console.efiKeyQueue t.keys
  partialKeys : d.console.isSupportPartialKey = t.partialKeys
  device : d.device = t.device
  last : d.last = t.last
  noErr : d.keypadErr = false

/-- A call on the console and one on the list, answered alike. -/
structure Agrees {α : Type} (r : α × ConsoleInDev Dev)
    (r' : α × TypeAhead Dev) : Prop where
  answer : r.1 = r'.1
  shows : Shows r.2 r'.2

/-- Answers agree when what they are made of does. -/
theorem Agrees.of {α : Type} {r : α × ConsoleInDev Dev}
    {r' : α × TypeAhead Dev} (h : Agrees r r') (f : α → ConsoleAnswer) :
    Agrees (answering f r) (answering f r') :=
  ⟨congrArg f h.answer, h.shows⟩

variable {d : ConsoleInDev Dev} {t : TypeAhead Dev}

-- =============================================================== a poll

/-- The queue for readers is no matter of the registrations. -/
theorem notifyLoop_readers (k : EfiKeyData) (list : List KeypadNotify)
    (c : KeypadConsoleIn) :
    (notifyLoop k list c).efiKeyQueue = c.efiKeyQueue
      ∧ (notifyLoop k list c).isSupportPartialKey
        = c.isSupportPartialKey := by
  induction list generalizing c with
  | nil => exact ⟨rfl, rfl⟩
  | cons n list ih =>
    unfold notifyLoop
    split
    · exact ih (queueForNotify k c)
    · exact ih c

/-- A partial key is taken only when partial keys are wanted. -/
theorem accepted_cons (p : Bool) (k : EfiKeyData) (ks : List EfiKeyData) :
    accepted p (k :: ks)
      = if k.isPartial ∧ ¬ p then accepted p ks
        else k :: accepted p ks := by
  unfold accepted
  cases hk : k.isPartial <;> cases p <;> simp [hk]

/-- A push appends to the queue for readers, if the key is passed on. -/
theorem push_readers (k : EfiKeyData) (c : KeypadConsoleIn) :
    (keypadReturnApiPushEfikeyBufTail k c).isSupportPartialKey
        = c.isSupportPartialKey
      ∧ (keypadReturnApiPushEfikeyBufTail k c).efiKeyQueue
        = if k.isPartial ∧ ¬ c.isSupportPartialKey then c.efiKeyQueue
          else pushEfikeyBufTail c.efiKeyQueue k := by
  obtain ⟨hqueue, hexposed⟩ := notifyLoop_readers k c.notifyList c
  unfold keypadReturnApiPushEfikeyBufTail
  split
  next => exact ⟨rfl, rfl⟩
  next =>
    dsimp only
    rw [hqueue]
    exact ⟨hexposed, rfl⟩

/-- A short list is recent as a whole. -/
theorem recentKeys_of_short {keys : List EfiKeyData}
    (h : keys.length ≤ keyListMax) : recentKeys keys = keys := by
  rw [recentKeys_eq, List.rtake, Nat.sub_eq_zero_of_le h, List.drop_zero]

/-- Keys that have made way stay away. -/
theorem recentKeys_append (keys keys' : List EfiKeyData) :
    recentKeys (recentKeys keys ++ keys') = recentKeys (keys ++ keys') := by
  rw [recentKeys_eq, recentKeys_eq, recentKeys_eq]
  exact rtake_rtake_append _ _ _

/-- The recent keys are in the order they were typed. -/
theorem recentKeys_sublist (keys : List EfiKeyData) :
    (recentKeys keys).Sublist keys := by
  rw [recentKeys_eq]
  exact List.drop_sublist _ _

/-- What is pushed at a poll is appended, if it is passed on. -/
theorem pushAll_holds (pushed : List EfiKeyData) {c : KeypadConsoleIn}
    {keys : List EfiKeyData} (h : Holds c.efiKeyQueue keys) :
    Holds (pushAll pushed c).efiKeyQueue
        (recentKeys (keys ++ accepted c.isSupportPartialKey pushed))
      ∧ (pushAll pushed c).isSupportPartialKey
        = c.isSupportPartialKey := by
  induction pushed generalizing c keys with
  | nil =>
    have hnone : accepted c.isSupportPartialKey [] = [] := rfl
    rw [hnone, List.append_nil, recentKeys_of_short h.length_le]
    exact ⟨h, rfl⟩
  | cons k pushed ih =>
    obtain ⟨hexposed, hqueue⟩ := push_readers k c
    have hcons : pushAll (k :: pushed) c
        = pushAll pushed (keypadReturnApiPushEfikeyBufTail k c) := rfl
    rw [hcons, accepted_cons, ← hexposed]
    rw [← hexposed] at hqueue
    generalize keypadReturnApiPushEfikeyBufTail k c = c' at hqueue ⊢
    split at hqueue
    next hdrop =>
      rw [if_pos hdrop]
      rw [← hqueue] at h
      exact ih h
    next hpass =>
      rw [if_neg hpass]
      have hpush := h.push k
      rw [listPush_eq_rtake h.length_le, ← recentKeys_eq, ← hqueue]
        at hpush
      have hrest := ih hpush
      rw [recentKeys_append, List.append_assoc] at hrest
      exact hrest

/-- A poll of the console is one of the list. -/
theorem Shows.poll (h : Shows d t) (s : Sample Pins) :
    Shows (keypadTimerHandler keypadDevice freq s d)
      (t.poll keypadDevice freq s) := by
  have hpolled : keypadDevice.getKeys s.pins
        (getTimeInNanoSecond freq (s.counter - t.last)) t.device
      = polled keypadDevice freq s d := by
    unfold polled
    rw [h.last, h.device]
  unfold keypadTimerHandler TypeAhead.poll
  rw [h.noErr, if_neg Bool.false_ne_true, hpolled]
  generalize polled keypadDevice freq s d = r
  obtain ⟨device, pushed⟩ := r
  obtain ⟨hholds, hexposed⟩ := pushAll_holds pushed h.holds
  rw [h.partialKeys] at hholds hexposed
  refine ⟨?_, hexposed, rfl, rfl, rfl⟩
  dsimp only
  exact hholds

-- ============================================================== a read

/-- Taking a key agrees with the list. -/
theorem Shows.take (h : Shows d t) (s : Sample Pins) :
    Agrees (keypadReadKeyStrokeWorker keypadDevice freq s d)
      (t.poll keypadDevice freq s).take := by
  have hpoll := h.poll keypadDevice freq s
  unfold keypadReadKeyStrokeWorker
  generalize keypadTimerHandler keypadDevice freq s d = d' at hpoll ⊢
  generalize t.poll keypadDevice freq s = t' at hpoll ⊢
  dsimp only
  rw [hpoll.noErr, if_neg Bool.false_ne_true]
  unfold TypeAhead.take
  cases hkeys : t'.keys with
  | nil =>
    have hpop : popEfikeyBufHead d'.console.efiKeyQueue = none :=
      RingBuffer.pop_of_empty hpoll.holds.ok
        (hpoll.holds.keys.trans hkeys)
    have hholds := hpoll.holds
    rw [hkeys] at hholds
    rw [hpop]
    exact ⟨rfl, hholds, hpoll.partialKeys, hpoll.device, hpoll.last,
      hpoll.noErr⟩
  | cons k ks =>
    obtain ⟨queue', hpop, hok, hrest⟩ := RingBuffer.pop_of_cons
      hpoll.holds.ok (hpoll.holds.keys.trans hkeys)
    have hpop : popEfikeyBufHead d'.console.efiKeyQueue
        = some (k, queue') := hpop
    rw [hpop]
    exact ⟨rfl, ⟨hok, hrest⟩, hpoll.partialKeys, hpoll.device, hpoll.last,
      hpoll.noErr⟩

/-- A turn of the reader agrees with the list. -/
theorem Shows.readTurn (h : Shows d t) (s : Sample Pins) :
    Agrees (readKeyStrokeTurn keypadDevice freq s d)
      (t.readTurn keypadDevice freq s) := by
  have htake := h.take keypadDevice freq s
  unfold readKeyStrokeTurn TypeAhead.readTurn
  generalize keypadReadKeyStrokeWorker keypadDevice freq s d = r
    at htake ⊢
  generalize (t.poll keypadDevice freq s).take = r' at htake ⊢
  obtain ⟨answer, d'⟩ := r
  obtain ⟨answer', t'⟩ := r'
  obtain rfl : answer = answer' := htake.answer
  cases answer with
  | error e => exact ⟨rfl, htake.shows⟩
  | ok k =>
    dsimp only
    split <;> exact ⟨rfl, htake.shows⟩

-- ============================================================== a wait

/-- The loop of a wait looks for the first value key. -/
theorem waitLoop_holds (fuel : Nat) {queue : EfiKeyQueue}
    {keys : List EfiKeyData} (h : Holds queue keys)
    (hfuel : keys.length < fuel) :
    (waitLoop fuel queue).1 = (! (keys.dropWhile (·.isPartial)).isEmpty)
      ∧ Holds (waitLoop fuel queue).2
        (keys.dropWhile (·.isPartial)) := by
  induction fuel generalizing queue keys with
  | zero => omega
  | succ fuel ih =>
    unfold waitLoop
    cases keys with
    | nil =>
      have hempty : isEfikeyBufEmpty queue = true :=
        decide_eq_true ((RingBuffer.contents_eq_nil_iff h.ok).mp h.keys)
      rw [if_pos hempty]
      exact ⟨rfl, h⟩
    | cons k ks =>
      have hsome : ¬ isEfikeyBufEmpty queue = true := by
        intro hempty
        have hnil := (RingBuffer.contents_eq_nil_iff h.ok).mpr
          (of_decide_eq_true hempty)
        rw [← keysOf, h.keys] at hnil
        cases hnil
      obtain ⟨queue', hpop, hok, hrest⟩ :=
        RingBuffer.pop_of_cons h.ok h.keys
      have hhead : queue.buffer queue.head = k := by
        unfold RingBuffer.pop at hpop
        split at hpop
        · cases hpop
        · injection hpop with hpop
          injection hpop
      have hpop : popEfikeyBufHead queue = some (k, queue') := hpop
      rw [if_neg hsome, hhead, hpop, List.dropWhile_cons]
      split
      next => exact ih ⟨hok, hrest⟩ (Nat.lt_of_succ_lt_succ hfuel)
      next => exact ⟨rfl, h⟩

/-- Waiting for a key agrees with the list. -/
theorem Shows.wait (h : Shows d t) (s : Sample Pins) :
    Agrees (keypadWaitForKey keypadDevice freq s d)
      (t.poll keypadDevice freq s).wait := by
  have hpoll := h.poll keypadDevice freq s
  unfold keypadWaitForKey
  generalize keypadTimerHandler keypadDevice freq s d = d' at hpoll ⊢
  generalize t.poll keypadDevice freq s = t' at hpoll ⊢
  dsimp only
  rw [hpoll.noErr, if_neg Bool.false_ne_true]
  have hfuel : t'.keys.length < keypadEfiKeyMaxCount :=
    Nat.lt_succ_of_le hpoll.holds.length_le
  obtain ⟨hsignal, hholds⟩ := waitLoop_holds _ hpoll.holds hfuel
  exact ⟨hsignal, hholds, hpoll.partialKeys, hpoll.device, hpoll.last,
    hpoll.noErr⟩

-- ====================================================== the other calls

/-- A reset agrees with the list. -/
theorem Shows.reset (h : Shows d t) :
    Agrees (consoleCall keypadDevice freq .reset d)
      (listCall keypadDevice freq .reset t) := by
  unfold consoleCall keypadEfiReset
  dsimp only
  rw [h.noErr, if_neg Bool.false_ne_true]
  exact ⟨rfl, clearQueue_holds _, rfl,
    congrArg keypadDevice.reset h.device, h.last, h.noErr⟩

/-- Setting the toggle state agrees with the list. -/
theorem Shows.setState (h : Shows d t) (toggle : UINT8) :
    Agrees (keypadSetState (some toggle) d) (t.setState toggle) := by
  unfold keypadSetState TypeAhead.setState
  dsimp only
  rw [h.noErr, if_neg Bool.false_ne_true, ite_not]
  split
  next => exact ⟨rfl, h.holds, rfl, h.device, h.last, rfl⟩
  next => exact ⟨rfl, h⟩

/-- The handler of notifications leaves the readers' keys alone. -/
theorem notifyIteration_readers (c : KeypadConsoleIn) :
    ((keyNotifyIteration c).getD c).efiKeyQueue = c.efiKeyQueue
      ∧ ((keyNotifyIteration c).getD c).isSupportPartialKey
        = c.isSupportPartialKey := by
  unfold keyNotifyIteration
  split <;> exact ⟨rfl, rfl⟩

/-- A notification changes nothing that is shown. -/
theorem Shows.notify (h : Shows d t) :
    Shows { d with
      console := (keyNotifyIteration d.console).getD d.console } t := by
  obtain ⟨hqueue, hexposed⟩ := notifyIteration_readers d.console
  refine ⟨?_, hexposed.trans h.partialKeys, h.device, h.last, h.noErr⟩
  dsimp only
  rw [hqueue]
  exact h.holds

-- ============================================================ every call

/-- A call on the console is one on the list. -/
theorem consoleCall_agrees (call : ConsoleCall Pins) (h : Shows d t) :
    Agrees (consoleCall keypadDevice freq call d)
      (listCall keypadDevice freq call t) := by
  cases call with
  | timer s => exact ⟨rfl, h.poll keypadDevice freq s⟩
  | readKeyStroke s => exact (h.readTurn keypadDevice freq s).of .key
  | readKeyStrokeEx keyData s =>
    cases keyData with
    | false => exact ⟨rfl, h⟩
    | true => exact (h.take keypadDevice freq s).of .keyData
  | waitForKey s => exact (h.wait keypadDevice freq s).of .signal
  | reset => exact h.reset keypadDevice freq
  | setState keyToggleState =>
    cases keyToggleState with
    | none => exact ⟨rfl, h⟩
    | some toggle => exact (h.setState toggle).of .status
  | register notifyList =>
    exact ⟨rfl, h.holds, h.partialKeys, h.device, h.last, h.noErr⟩
  | notify => exact ⟨rfl, h.notify⟩

-- =============================================================== any run

/-- What a call leaves. -/
def consoleStep (call : ConsoleCall Pins) (d : ConsoleInDev Dev) :
    ConsoleInDev Dev :=
  (consoleCall keypadDevice freq call d).2

/-- What a call returns. -/
def consoleAnswer (call : ConsoleCall Pins) (d : ConsoleInDev Dev) :
    ConsoleAnswer :=
  (consoleCall keypadDevice freq call d).1

/-- What a call leaves of the list. -/
def typeAheadStep (call : ConsoleCall Pins) (t : TypeAhead Dev) :
    TypeAhead Dev :=
  (listCall keypadDevice freq call t).2

/-- What a call on the list returns. -/
def typeAheadAnswer (call : ConsoleCall Pins) (t : TypeAhead Dev) :
    ConsoleAnswer :=
  (listCall keypadDevice freq call t).1

/-- A run on the console is one on the list. -/
theorem Shows.run (h : Shows d t) (calls : List (ConsoleCall Pins)) :
    Shows (Lib.run (consoleStep keypadDevice freq) calls d)
        (Lib.run (typeAheadStep keypadDevice freq) calls t)
      ∧ answers (consoleStep keypadDevice freq)
          (consoleAnswer keypadDevice freq) calls d
        = answers (typeAheadStep keypadDevice freq)
          (typeAheadAnswer keypadDevice freq) calls t :=
  run_simulates (R := Shows) (fun call _ _ h =>
    have hagrees := consoleCall_agrees keypadDevice freq call h
    ⟨hagrees.shows, hagrees.answer⟩) calls h

/-- Nothing typed yet, on a device after its reset. -/
def nothingTyped (device : Dev) : TypeAhead Dev where
  keys := []
  partialKeys := false
  device := keypadDevice.reset device
  last := -1

/-- A console just started shows that nothing was typed. -/
theorem start_shows (device : Dev) :
    Shows (keypadControllerDriverStart keypadDevice device)
      (nothingTyped keypadDevice device) where
  holds := clearQueue_holds _
  partialKeys := rfl
  device := rfl
  last := rfl
  noErr := rfl

/-- Whatever is called, and whatever the polls find, the answers are those
of a list of the keys not read, which is what the queue holds. -/
theorem console_refines_typeAhead (device : Dev)
    (calls : List (ConsoleCall Pins)) :
    answers (consoleStep keypadDevice freq)
          (consoleAnswer keypadDevice freq) calls
          (keypadControllerDriverStart keypadDevice device)
        = answers (typeAheadStep keypadDevice freq)
          (typeAheadAnswer keypadDevice freq) calls
          (nothingTyped keypadDevice device)
      ∧ Shows
          (run (consoleStep keypadDevice freq) calls
            (keypadControllerDriverStart keypadDevice device))
          (run (typeAheadStep keypadDevice freq) calls
            (nothingTyped keypadDevice device)) := by
  obtain ⟨hshows, hanswers⟩ :=
    (start_shows keypadDevice device).run keypadDevice freq calls
  exact ⟨hanswers, hshows⟩

end Edk2Exynos.Keypad
