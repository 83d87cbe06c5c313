/-
What the keypad console calls for the keys pressed.

# Calls owed

A key in the notification queue is a debt: one call of every
registration it matches. `owed` adds the debts of the queue to the calls
made. An iteration of the handler pays a debt and leaves the sum alone;
a press adds to it once per copy of the key it queues (`owed_step`), so
after any run the sum is known, and when the queue is empty it is the
calls themselves (`calls_of_run`).

# Copies

A press is queued once per registration it matches and every copy is
dispatched to all of them: `n` registrations get `n * n` calls. That is
right only for `n ≤ 1`, and a partial key that is dropped gets none.
-/
import Edk2Exynos.Keypad.Console

namespace Edk2Exynos.Keypad

open Lib

-- ========================================================== definitions

/-- The calls a key asks for: of every registration that matches it, in
list order. -/
def notifications (list : List KeypadNotify) (keyData : EfiKeyData) :
    List (KeypadNotify × EfiKeyData) :=
  (matching list keyData).map fun n => (n, keyData)

/-- The keys that wait for notification. -/
def KeypadConsoleIn.waiting (c : KeypadConsoleIn) : List EfiKeyData :=
  c.efiKeyQueueForNotify.contents keypadEfiKeyMaxCount

/-- A press that is not passed on at all. -/
def KeypadConsoleIn.Drops (c : KeypadConsoleIn) (keyData : EfiKeyData) :
    Prop :=
  keyData.isPartial ∧ ¬ c.isSupportPartialKey

instance (c : KeypadConsoleIn) (keyData : EfiKeyData) :
    Decidable (c.Drops keyData) :=
  inferInstanceAs (Decidable (_ ∧ _))

/-- How often a press is queued for notification. -/
def KeypadConsoleIn.copies (c : KeypadConsoleIn) (keyData : EfiKeyData) :
    Nat :=
  if c.Drops keyData then 0 else (matching c.notifyList keyData).length

/-- The queue has room for what an event adds to it. -/
def HasRoom : KeypadEvent → KeypadConsoleIn → Prop
  | .press keyData, c =>
      c.waiting.length + c.copies keyData < keypadEfiKeyMaxCount
  | .iterate, _ => True

instance : (e : KeypadEvent) → (c : KeypadConsoleIn) →
    Decidable (HasRoom e c)
  | .press _, _ => inferInstanceAs (Decidable (_ < _))
  | .iterate, _ => inferInstanceAs (Decidable True)

/-- The calls made, and those the queue still asks for. -/
def KeypadConsoleIn.owed (c : KeypadConsoleIn) :
    List (KeypadNotify × EfiKeyData) :=
  c.calls ++ c.waiting.flatMap (notifications c.notifyList)

/-- The queue is in order. -/
def KeypadConsoleIn.QueueOk (c : KeypadConsoleIn) : Prop :=
  c.efiKeyQueueForNotify.Ok keypadEfiKeyMaxCount

/-- What a press or an iteration leaves alone. -/
structure SameConsole (c c' : KeypadConsoleIn) : Prop where
  notifyList : c'.notifyList = c.notifyList
  partialKey : c'.isSupportPartialKey = c.isSupportPartialKey

theorem SameConsole.trans {a b c : KeypadConsoleIn}
    (h : SameConsole a b) (h' : SameConsole b c) : SameConsole a c :=
  ⟨h'.notifyList.trans h.notifyList, h'.partialKey.trans h.partialKey⟩

-- ============================================================== a press

theorem matching_cons (currentNotify : KeypadNotify)
    (list : List KeypadNotify) (keyData : EfiKeyData) :
    matching (currentNotify :: list) keyData
      = if isKeyRegistered currentNotify.keyData keyData then
          currentNotify :: matching list keyData
        else matching list keyData := by
  unfold matching
  rw [List.filter_cons]

/-- The loop over the registrations queues a copy for each match. -/
theorem notifyLoop_spec (keyData : EfiKeyData) :
    ∀ (list : List KeypadNotify) {c : KeypadConsoleIn}, c.QueueOk →
      c.waiting.length + (matching list keyData).length
        < keypadEfiKeyMaxCount →
      (notifyLoop keyData list c).QueueOk
        ∧ (notifyLoop keyData list c).waiting
          = c.waiting
            ++ List.replicate (matching list keyData).length keyData
        ∧ (notifyLoop keyData list c).calls = c.calls
        ∧ SameConsole c (notifyLoop keyData list c) := by
  intro list
  induction list with
  | nil =>
      intro c hok _
      exact ⟨hok, by simp [matching, notifyLoop], rfl, rfl, rfl⟩
  | cons currentNotify list ih =>
      intro c hok hroom
      rw [matching_cons] at hroom ⊢
      unfold notifyLoop
      split
      next hmatch =>
        rw [if_pos hmatch, List.length_cons] at hroom
        have hpush := RingBuffer.push_of_room hok keyData (by
          simp only [KeypadConsoleIn.waiting,
            RingBuffer.contents_length] at hroom
          omega)
        have hwait : (queueForNotify keyData c).waiting
            = c.waiting ++ [keyData] := hpush.2
        have hroom' : (queueForNotify keyData c).waiting.length
            + (matching list keyData).length < keypadEfiKeyMaxCount := by
          rw [hwait, List.length_append, List.length_singleton]
          omega
        have hok₁ : (queueForNotify keyData c).QueueOk := hpush.1
        obtain ⟨hok', hwait', hcalls, hsame⟩ := ih hok₁ hroom'
        refine ⟨hok', ?_, hcalls, hsame.notifyList, hsame.partialKey⟩
        rw [hwait', hwait, List.append_assoc]
        rfl
      next hmatch =>
        rw [if_neg hmatch] at hroom
        exact ih hok hroom

theorem press_of_drops {keyData : EfiKeyData} {c : KeypadConsoleIn}
    (h : c.Drops keyData) : keypadReturnApiPushEfikeyBufTail keyData c = c :=
  if_pos h

theorem press_of_passes {keyData : EfiKeyData} {c : KeypadConsoleIn}
    (h : ¬ c.Drops keyData) :
    keypadReturnApiPushEfikeyBufTail keyData c
      = { notifyLoop keyData c.notifyList c with
          efiKeyQueue := pushEfikeyBufTail
            (notifyLoop keyData c.notifyList c).efiKeyQueue keyData } :=
  if_neg h

theorem press_spec {keyData : EfiKeyData} {c : KeypadConsoleIn}
    (hok : c.QueueOk) (hroom : HasRoom (.press keyData) c) :
    (keypadReturnApiPushEfikeyBufTail keyData c).QueueOk
      ∧ (keypadReturnApiPushEfikeyBufTail keyData c).waiting
        = c.waiting ++ List.replicate (c.copies keyData) keyData
      ∧ (keypadReturnApiPushEfikeyBufTail keyData c).calls = c.calls
      ∧ SameConsole c (keypadReturnApiPushEfikeyBufTail keyData c) := by
  have hlen : c.waiting.length + c.copies keyData
      < keypadEfiKeyMaxCount := hroom
  unfold KeypadConsoleIn.copies at hlen ⊢
  by_cases hdrop : c.Drops keyData
  · rw [if_pos hdrop, press_of_drops hdrop]
    exact ⟨hok, by simp, rfl, rfl, rfl⟩
  · rw [if_neg hdrop] at hlen
    obtain ⟨hok', hwait, hcalls, hsame⟩ :=
      notifyLoop_spec keyData c.notifyList hok hlen
    rw [if_neg hdrop, press_of_passes hdrop]
    exact ⟨hok', hwait, hcalls, hsame.notifyList, hsame.partialKey⟩

-- ========================================================= an iteration

theorem iteration_of_empty {c : KeypadConsoleIn} (hok : c.QueueOk)
    (hempty : c.waiting = []) : keyNotifyIteration c = none := by
  unfold keyNotifyIteration popEfikeyBufHead
  rw [RingBuffer.pop_of_empty hok hempty]

/-- An iteration takes the first key and calls what it asks for. -/
theorem iteration_of_cons {c : KeypadConsoleIn} (hok : c.QueueOk)
    {keyData : EfiKeyData} {rest : List EfiKeyData}
    (hwait : c.waiting = keyData :: rest) :
    ∃ c', keyNotifyIteration c = some c' ∧ c'.QueueOk
      ∧ c'.waiting = rest
      ∧ c'.calls = c.calls ++ notifications c.notifyList keyData
      ∧ SameConsole c c' := by
  obtain ⟨queue, hpop, hok', hrest⟩ := RingBuffer.pop_of_cons hok hwait
  have hiter : keyNotifyIteration c = some
      { c with
        efiKeyQueueForNotify := queue
        calls := c.calls ++ notifications c.notifyList keyData } := by
    unfold keyNotifyIteration popEfikeyBufHead
    rw [hpop]
    rfl
  exact ⟨_, hiter, hok', hrest, rfl, rfl, rfl⟩

/-- It leaves the sum of the calls made and owed. -/
theorem iteration_owed {c c' : KeypadConsoleIn} (hok : c.QueueOk)
    (hiter : keyNotifyIteration c = some c') :
    c'.QueueOk ∧ c'.owed = c.owed ∧ SameConsole c c'
      ∧ c.waiting.length = c'.waiting.length + 1 := by
  cases hwait : c.waiting with
  | nil =>
      rw [iteration_of_empty hok hwait] at hiter
      cases hiter
  | cons keyData rest =>
      obtain ⟨d, heq, hok', hrest, hcalls, hsame⟩ :=
        iteration_of_cons hok hwait
      cases heq.symm.trans hiter
      refine ⟨hok', ?_, hsame, by rw [hrest, List.length_cons]⟩
      unfold KeypadConsoleIn.owed
      rw [hcalls, hrest, hwait, hsame.notifyList, List.flatMap_cons,
        List.append_assoc]

/-- The handler empties the queue: it has fuel for every key. -/
theorem keyNotifyLoop_drains :
    ∀ (fuel : Nat) {c : KeypadConsoleIn}, c.QueueOk →
      c.waiting.length ≤ fuel →
      (keyNotifyLoop fuel c).waiting = []
        ∧ (keyNotifyLoop fuel c).owed = c.owed := by
  intro fuel
  induction fuel with
  | zero =>
      intro c _ hlen
      exact ⟨List.length_eq_zero_iff.mp (Nat.le_zero.mp hlen), rfl⟩
  | succ fuel ih =>
      intro c hok hlen
      unfold keyNotifyLoop
      cases hiter : keyNotifyIteration c with
      | none =>
          refine ⟨?_, rfl⟩
          cases hwait : c.waiting with
          | nil => rfl
          | cons keyData rest =>
              obtain ⟨d, heq, -⟩ := iteration_of_cons hok hwait
              rw [hiter] at heq
              cases heq
      | some c' =>
          obtain ⟨hok', howed, -, hless⟩ := iteration_owed hok hiter
          obtain ⟨hempty, hsum⟩ := ih hok' (by omega)
          exact ⟨hempty, hsum.trans howed⟩

theorem keyNotifyProcessHandler_drains {c : KeypadConsoleIn}
    (hok : c.QueueOk) :
    (keyNotifyProcessHandler c).waiting = []
      ∧ (keyNotifyProcessHandler c).owed = c.owed := by
  apply keyNotifyLoop_drains _ hok
  have hlt := hok.count_lt
  rw [KeypadConsoleIn.waiting, RingBuffer.contents_length]
  exact Nat.le_of_lt hlt

-- ================================================================== runs

/-- The calls a press leads to: every copy of the key asks for them. -/
def callsOfPress (c : KeypadConsoleIn) (keyData : EfiKeyData) :
    List (KeypadNotify × EfiKeyData) :=
  (List.replicate (c.copies keyData) keyData).flatMap
    (notifications c.notifyList)

theorem callsOfPress_congr {c c' : KeypadConsoleIn}
    (h : SameConsole c c') : callsOfPress c' = callsOfPress c := by
  funext keyData
  have hdrops : c'.Drops keyData ↔ c.Drops keyData := by
    simp [KeypadConsoleIn.Drops, h.partialKey]
  have hcopies : c'.copies keyData = c.copies keyData := by
    unfold KeypadConsoleIn.copies
    simp only [hdrops, h.notifyList]
  unfold callsOfPress
  rw [hcopies, h.notifyList]

/-- What an event adds to the sum. -/
theorem owed_step {e : KeypadEvent} {c : KeypadConsoleIn}
    (hok : c.QueueOk) (hroom : HasRoom e c) :
    (keypadStep e c).QueueOk ∧ SameConsole c (keypadStep e c)
      ∧ (keypadStep e c).owed
        = c.owed ++ (presses [e]).flatMap (callsOfPress c) := by
  cases e with
  | press keyData =>
      obtain ⟨hok', hwait, hcalls, hsame⟩ := press_spec hok hroom
      refine ⟨hok', hsame, ?_⟩
      simp only [keypadStep, KeypadConsoleIn.owed, hwait, hcalls,
        hsame.notifyList, List.flatMap_append, presses,
        List.filterMap_cons, List.filterMap_nil, List.flatMap_cons,
        List.flatMap_nil, List.append_nil, List.append_assoc]
      rfl
  | iterate =>
      have hstep : keypadStep .iterate c
          = (keyNotifyIteration c).getD c := rfl
      have hnone : (presses [.iterate]).flatMap (callsOfPress c) = [] := rfl
      rw [hstep, hnone, List.append_nil]
      cases hiter : keyNotifyIteration c with
      | none => exact ⟨hok, ⟨rfl, rfl⟩, rfl⟩
      | some c' =>
          obtain ⟨hok', howed, hsame, -⟩ := iteration_owed hok hiter
          exact ⟨hok', hsame, howed⟩

/-- And what a run adds. -/
theorem owed_run :
    ∀ {events : List KeypadEvent} {c : KeypadConsoleIn}, c.QueueOk →
      EveryStep keypadStep HasRoom events c →
      (run keypadStep events c).QueueOk
        ∧ (run keypadStep events c).owed
          = c.owed ++ (presses events).flatMap (callsOfPress c) := by
  intro events
  induction events with
  | nil =>
      intro c hok _
      exact ⟨hok, (List.append_nil _).symm⟩
  | cons e events ih =>
      intro c hok hroom
      obtain ⟨hok', hsame, howed⟩ := owed_step hok hroom.1
      obtain ⟨hok'', hrun⟩ := ih hok' hroom.2
      have hpresses : presses (e :: events)
          = presses [e] ++ presses events := by
        unfold presses
        rw [← List.filterMap_append]
        rfl
      refine ⟨hok'', ?_⟩
      rw [hpresses, List.flatMap_append, ← List.append_assoc, ← howed]
      rw [callsOfPress_congr hsame] at hrun
      exact hrun

/-- The calls once the handler has emptied the queue. -/
theorem calls_of_run {events : List KeypadEvent} {c : KeypadConsoleIn}
    (hok : c.QueueOk) (hempty : c.waiting = [])
    (hroom : EveryStep keypadStep HasRoom events c) :
    (keyNotifyProcessHandler (run keypadStep events c)).waiting = []
      ∧ (keyNotifyProcessHandler (run keypadStep events c)).calls
        = c.calls ++ (presses events).flatMap (callsOfPress c) := by
  obtain ⟨hok', hrun⟩ := owed_run hok hroom
  obtain ⟨hdrained, howed⟩ := keyNotifyProcessHandler_drains hok'
  refine ⟨hdrained, ?_⟩
  rw [hrun] at howed
  simpa [KeypadConsoleIn.owed, hdrained, hempty] using howed

-- ========================================================= exactly once

/-- A press gets its calls right: nothing that is dropped is registered,
and nothing that is queued is registered twice. -/
def KeypadConsoleIn.NotifiesOnce (c : KeypadConsoleIn)
    (keyData : EfiKeyData) : Prop :=
  if c.Drops keyData then matching c.notifyList keyData = []
  else (matching c.notifyList keyData).length ≤ 1

/-- Then a press leads to the calls it asks for. -/
theorem callsOfPress_of_once {c : KeypadConsoleIn} {keyData : EfiKeyData}
    (h : c.NotifiesOnce keyData) :
    callsOfPress c keyData = notifications c.notifyList keyData := by
  unfold KeypadConsoleIn.NotifiesOnce at h
  unfold callsOfPress KeypadConsoleIn.copies notifications
  split at h
  next hdrop =>
    rw [if_pos hdrop, h]
    rfl
  next hdrop =>
    rw [if_neg hdrop]
    cases hm : matching c.notifyList keyData with
    | nil => rfl
    | cons n rest =>
        rw [hm, List.length_cons] at h
        have hrest : rest = [] := List.length_eq_zero_iff.mp (by omega)
        rw [hrest]
        simp [hm, hrest]

/-- The number of calls a press leads to. -/
theorem callsOfPress_length (c : KeypadConsoleIn) (keyData : EfiKeyData) :
    (callsOfPress c keyData).length
      = c.copies keyData * (matching c.notifyList keyData).length := by
  simp [callsOfPress, notifications, List.length_flatMap]

theorem once_of_callsOfPress_length {c : KeypadConsoleIn}
    {keyData : EfiKeyData}
    (h : (callsOfPress c keyData).length
      = (notifications c.notifyList keyData).length) :
    c.NotifiesOnce keyData := by
  rw [callsOfPress_length, notifications, List.length_map] at h
  unfold KeypadConsoleIn.copies at h
  unfold KeypadConsoleIn.NotifiesOnce
  split at h
  next hdrop =>
    rw [if_pos hdrop]
    apply List.length_eq_zero_iff.mp
    omega
  next hdrop =>
    rw [if_neg hdrop]
    by_contra hmany
    have hmore : 2 * (matching c.notifyList keyData).length
        ≤ (matching c.notifyList keyData).length
          * (matching c.notifyList keyData).length :=
      Nat.mul_le_mul_right _ (by omega)
    omega

/-- The calls for one key among those of all presses. -/
theorem countP_calls {f : EfiKeyData → List (KeypadNotify × EfiKeyData)}
    (hf : ∀ k, ∀ x ∈ f k, x.2 = k) (keyData : EfiKeyData) :
    ∀ keys : List EfiKeyData,
      (keys.flatMap f).countP (fun x => x.2 = keyData)
        = keys.count keyData * (f keyData).length := by
  intro keys
  induction keys with
  | nil => simp
  | cons k keys ih =>
      rw [List.flatMap_cons, List.countP_append, ih, List.count_cons]
      by_cases hk : k = keyData
      · have hall : (f k).countP (fun x => x.2 = keyData)
            = (f k).length := by
          rw [List.countP_eq_length]
          intro x hx
          simp [hf k x hx, hk]
        rw [hall, if_pos (by simp [hk]), hk]
        ring
      · have hnone : (f k).countP (fun x => x.2 = keyData) = 0 := by
          rw [List.countP_eq_zero]
          intro x hx
          simp [hf k x hx, hk]
        rw [hnone, if_neg (by simp [hk])]
        ring

theorem notifications_key (list : List KeypadNotify) :
    ∀ k, ∀ x ∈ notifications list k, x.2 = k := by
  intro k x hx
  obtain ⟨n, -, rfl⟩ := List.mem_map.mp hx
  rfl

theorem callsOfPress_key (c : KeypadConsoleIn) :
    ∀ k, ∀ x ∈ callsOfPress c k, x.2 = k := by
  intro k x hx
  obtain ⟨k', hk', hx⟩ := List.mem_flatMap.mp hx
  rw [notifications_key _ k' x hx]
  exact List.eq_of_mem_replicate hk'

/-- The console waits for keys: nothing is queued. -/
structure Idle (c : KeypadConsoleIn) : Prop where
  queueOk : c.QueueOk
  empty : c.waiting = []

/-- Keys are pressed, at any point of the handler's work and never more
than the queue can hold; then the handler empties it. Every press has
caused one call of each registration that matches it, in order, exactly
when no press matches two registrations, or is dropped and matches
one. -/
theorem keyNotify_once_iff {c : KeypadConsoleIn}
    {events : List KeypadEvent} (hidle : Idle c)
    (hroom : EveryStep keypadStep HasRoom events c) :
    (keyNotifyProcessHandler (run keypadStep events c)).waiting = []
      ∧ ((keyNotifyProcessHandler (run keypadStep events c)).calls
          = c.calls ++ (presses events).flatMap (notifications c.notifyList)
        ↔ ∀ keyData ∈ presses events, c.NotifiesOnce keyData) := by
  obtain ⟨hdrained, hcalls⟩ := calls_of_run hidle.queueOk hidle.empty hroom
  refine ⟨hdrained, ?_⟩
  rw [hcalls, List.append_cancel_left_eq]
  constructor
  · intro heq keyData hmem
    have hcount := congrArg (List.countP fun x => x.2 = keyData) heq
    rw [countP_calls (callsOfPress_key c),
      countP_calls (notifications_key c.notifyList)] at hcount
    have hpos : 0 < (presses events).count keyData :=
      List.count_pos_iff.mpr hmem
    exact once_of_callsOfPress_length (Nat.eq_of_mul_eq_mul_left hpos hcount)
  · intro honce
    apply List.flatMap_congr
    intro keyData hmem
    exact callsOfPress_of_once (honce keyData hmem)

/-- A console that has just started, with some registrations. -/
def sampleConsole (list : List KeypadNotify) : KeypadConsoleIn where
  isSupportPartialKey := false
  efiKeyQueue := ⟨fun _ => ⟨⟨0, 0⟩, ⟨0, 0⟩⟩, 0, 0⟩
  efiKeyQueueForNotify := ⟨fun _ => ⟨⟨0, 0⟩, ⟨0, 0⟩⟩, 0, 0⟩
  notifyList := list
  signals := 0
  calls := []

/-- Volume up, with no shift or toggle state. -/
def volumeUp : EfiKeyData := ⟨⟨1, 0⟩, ⟨0, 0⟩⟩

theorem sampleConsole_idle (list : List KeypadNotify) :
    Idle (sampleConsole list) where
  queueOk := ⟨by simp [sampleConsole, keypadEfiKeyMaxCount],
    by simp [sampleConsole, keypadEfiKeyMaxCount]⟩
  empty := rfl

/-- One registration, pressed twice. -/
theorem keyNotify_once_iff_sample :
    let c := sampleConsole [⟨volumeUp, 1⟩]
    let events := [KeypadEvent.press volumeUp, .iterate, .press volumeUp]
    Idle c ∧ EveryStep keypadStep HasRoom events c
      ∧ (keyNotifyProcessHandler (run keypadStep events c)).calls
        = (presses events).flatMap (notifications c.notifyList) := by
  intro c events
  have hroom : EveryStep keypadStep HasRoom events c :=
    ⟨by decide, True.intro, by decide, True.intro⟩
  have honce : ∀ keyData ∈ presses events, c.NotifiesOnce keyData := by
    unfold KeypadConsoleIn.NotifiesOnce
    decide
  have hidle := sampleConsole_idle [⟨volumeUp, 1⟩]
  exact ⟨hidle, hroom,
    (keyNotify_once_iff hidle hroom).2.mpr honce⟩

/-- Two functions registered for volume up are called twice each when it
is pressed once. -/
theorem keyNotify_calls_twice :
    let c := sampleConsole [⟨volumeUp, 1⟩, ⟨volumeUp, 2⟩]
    let final := keyNotifyProcessHandler
      (run keypadStep [.press volumeUp] c)
    EveryStep keypadStep HasRoom [.press volumeUp] c
      ∧ final.waiting = []
      ∧ final.calls.map (fun call => call.1.keyNotificationFn)
        = [1, 2, 1, 2]
      ∧ (notifications c.notifyList volumeUp).map
        (fun call => call.1.keyNotificationFn) = [1, 2] :=
  ⟨⟨by decide, True.intro⟩, rfl, rfl, rfl⟩

end Edk2Exynos.Keypad
