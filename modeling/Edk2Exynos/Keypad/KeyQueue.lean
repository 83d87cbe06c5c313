/-
An EFI_KEY_QUEUE (KeypadTextIn.c) as what it is for: the most recent keys.

# The list

What a reader of the console is promised is a list of at most
`keyListMax` keys. A push appends to it and drops the oldest key when the
list is full; a pop takes the oldest key, or answers EFI_NOT_READY; a
reset empties it. `listStep` and `listAnswer` are that promise, and the
queue keeps it over any run (`keyQueue_refines_list`).

# The queue

Head and tail are slots, and one slot is always left free. `Holds`
relates a queue to the list it stands for; each operation keeps the
relation and answers as the list does, so `run_simulates` is the whole
induction. Where nothing is taken out, the list is the last `keyListMax`
of all keys (`pushes_keep_recent`).
-/
import Edk2Exynos.Keypad.Console
import Mathlib.Data.List.DropRight

namespace Edk2Exynos.Keypad

open Lib

-- =========================================================== operations

/-- What is done to a queue. -/
inductive QueueOp where
  | push (keyData : EfiKeyData)
  | pop
  | reset

/-- What an operation returns: a pop its status and key, the others
nothing. -/
inductive QueueAnswer where
  | done
  | success (keyData : EfiKeyData)
  | notReady
  deriving DecidableEq

/-- The two assignments of `InitKeypad` for a queue; the buffer keeps
what it holds. -/
def clearQueue (queue : EfiKeyQueue) : EfiKeyQueue :=
  { queue with
    head := 0
    tail := 0 }

/-- What an operation leaves of the queue. -/
def queueStep : QueueOp → EfiKeyQueue → EfiKeyQueue
  | .push keyData, queue => pushEfikeyBufTail queue keyData
  | .pop, queue => (popEfikeyBufHead queue).elim queue Prod.snd
  | .reset, queue => clearQueue queue

/-- What an operation returns. -/
def queueAnswer : QueueOp → EfiKeyQueue → QueueAnswer
  | .pop, queue =>
      match popEfikeyBufHead queue with
      | none => .notReady
      | some (keyData, _) => .success keyData
  | _, _ => .done

-- ============================================================= the list

/-- One slot of a queue stays free. -/
def keyListMax : Nat := keypadEfiKeyMaxCount - 1

/-- A full list drops its oldest key. -/
def listPush (keyData : EfiKeyData) (keys : List EfiKeyData) :
    List EfiKeyData :=
  if keys.length = keyListMax then keys.tail ++ [keyData]
  else keys ++ [keyData]

/-- What an operation leaves of the list. -/
def listStep : QueueOp → List EfiKeyData → List EfiKeyData
  | .push keyData, keys => listPush keyData keys
  | .pop, keys => keys.tail
  | .reset, _ => []

/-- What an operation on the list returns. -/
def listAnswer : QueueOp → List EfiKeyData → QueueAnswer
  | .pop, keyData :: _ => .success keyData
  | .pop, [] => .notReady
  | _, _ => .done

/-- The keys of a queue, oldest first. -/
def keysOf (queue : EfiKeyQueue) : List EfiKeyData :=
  queue.contents keypadEfiKeyMaxCount

/-- A queue in order, and the list it stands for. -/
structure Holds (queue : EfiKeyQueue) (keys : List EfiKeyData) : Prop where
  ok : queue.Ok keypadEfiKeyMaxCount
  keys : keysOf queue = keys

-- ======================================================= each operation

variable {queue : EfiKeyQueue} {keys : List EfiKeyData}

theorem Holds.count (h : Holds queue keys) :
    queue.count keypadEfiKeyMaxCount = keys.length := by
  rw [← h.keys, keysOf, RingBuffer.contents_length]

theorem Holds.length_le (h : Holds queue keys) :
    keys.length ≤ keyListMax := by
  have hlt := h.ok.count_lt
  rw [h.count] at hlt
  exact Nat.le_sub_one_of_lt hlt

theorem Holds.push (h : Holds queue keys) (keyData : EfiKeyData) :
    Holds (pushEfikeyBufTail queue keyData) (listPush keyData keys) := by
  have hle := h.length_le
  by_cases hfull : keys.length = keyListMax
  · cases keys with
    | nil => cases hfull
    | cons y ys =>
      have hcount : queue.count keypadEfiKeyMaxCount + 1
          = keypadEfiKeyMaxCount := by
        rw [h.count, hfull]
        rfl
      obtain ⟨hok, hkeys⟩ :=
        RingBuffer.push_of_full h.ok keyData h.keys hcount
      refine ⟨hok, hkeys.trans ?_⟩
      rw [listPush, if_pos hfull, List.tail_cons]
  · have hroom : queue.count keypadEfiKeyMaxCount + 1
        < keypadEfiKeyMaxCount := by
      rw [h.count]
      unfold keyListMax at hle hfull
      omega
    obtain ⟨hok, hkeys⟩ := RingBuffer.push_of_room h.ok keyData hroom
    refine ⟨hok, hkeys.trans ?_⟩
    rw [listPush, if_neg hfull, ← h.keys, keysOf]

theorem Holds.pop (h : Holds queue keys) :
    Holds (queueStep .pop queue) (listStep .pop keys)
      ∧ queueAnswer .pop queue = listAnswer .pop keys := by
  cases keys with
  | nil =>
    have hpop : popEfikeyBufHead queue = none :=
      RingBuffer.pop_of_empty h.ok h.keys
    simp only [queueStep, queueAnswer, hpop]
    exact ⟨h, rfl⟩
  | cons y ys =>
    obtain ⟨queue', hpop, hok, hkeys⟩ := RingBuffer.pop_of_cons h.ok h.keys
    have hpop : popEfikeyBufHead queue = some (y, queue') := hpop
    simp only [queueStep, queueAnswer, hpop]
    exact ⟨⟨hok, hkeys⟩, rfl⟩

theorem clearQueue_holds (queue : EfiKeyQueue) :
    Holds (clearQueue queue) [] := by
  have hok : (clearQueue queue).Ok keypadEfiKeyMaxCount := by
    constructor <;> exact Nat.zero_lt_succ 255
  exact ⟨hok, (RingBuffer.contents_eq_nil_iff hok).mpr rfl⟩

/-- Every operation keeps what the queue stands for, and answers as the
list does. -/
theorem queueStep_simulates (op : QueueOp) (queue : EfiKeyQueue)
    (keys : List EfiKeyData) (h : Holds queue keys) :
    Holds (queueStep op queue) (listStep op keys)
      ∧ queueAnswer op queue = listAnswer op keys := by
  cases op with
  | push keyData => exact ⟨h.push keyData, by cases keys <;> rfl⟩
  | pop => exact h.pop
  | reset => exact ⟨clearQueue_holds queue, by cases keys <;> rfl⟩

-- ============================================================== any run

/-- The answers are those of a list of the most recent keys, which is
what the queue holds, and head and tail are slots. -/
theorem keyQueue_refines_list (ops : List QueueOp)
    (h : queue.Ok keypadEfiKeyMaxCount) :
    answers queueStep queueAnswer ops queue
        = answers listStep listAnswer ops (keysOf queue)
      ∧ keysOf (run queueStep ops queue)
        = run listStep ops (keysOf queue)
      ∧ (run queueStep ops queue).head < keypadEfiKeyMaxCount
      ∧ (run queueStep ops queue).tail < keypadEfiKeyMaxCount := by
  obtain ⟨hholds, hanswers⟩ :=
    run_simulates queueStep_simulates ops ⟨h, rfl⟩
  exact ⟨hanswers, hholds.keys, hholds.ok.head_lt, hholds.ok.tail_lt⟩

/-- A queue from `AllocateZeroPool`. -/
def zeroedQueue : EfiKeyQueue := ⟨fun _ => ⟨⟨0, 0⟩, ⟨0, 0⟩⟩, 0, 0⟩

/-- 257 keys, told apart by their scan codes. -/
def manyKeys : List EfiKeyData :=
  (List.range 257).map fun i => ⟨⟨BitVec.ofNat 16 i, 0⟩, ⟨0, 0⟩⟩

/-- A new queue that is given 257 keys wraps around and drops the first
two; a pop gives the third. -/
theorem keyQueue_refines_list_wraps :
    let ops := manyKeys.map QueueOp.push ++ [.pop]
    zeroedQueue.Ok keypadEfiKeyMaxCount
      ∧ answers queueStep queueAnswer ops zeroedQueue
        = List.replicate 257 .done ++ [.success ⟨⟨2, 0⟩, ⟨0, 0⟩⟩]
      ∧ keysOf (run queueStep ops zeroedQueue) = manyKeys.drop 3
      ∧ (run queueStep ops zeroedQueue).tail = 1 := by
  intro ops
  have hok : zeroedQueue.Ok keypadEfiKeyMaxCount :=
    (clearQueue_holds zeroedQueue).ok
  obtain ⟨hanswers, hkeys, -, -⟩ := keyQueue_refines_list ops hok
  refine ⟨hok, hanswers.trans ?_, hkeys.trans ?_, ?_⟩
  · decide +kernel
  · decide +kernel
  · decide +kernel

-- ========================================================= only pushes

/-- A list that is not over full keeps the most recent keys. -/
theorem listPush_eq_rtake (hle : keys.length ≤ keyListMax)
    (keyData : EfiKeyData) :
    listPush keyData keys = (keys ++ [keyData]).rtake keyListMax := by
  have hmax : keyListMax = 254 + 1 := rfl
  rw [hmax, List.rtake_concat_succ]
  unfold listPush
  split
  next hfull =>
    rw [List.rtake, hfull, ← List.drop_one]
    rfl
  next hroom =>
    have hdrop : keys.length - 254 = 0 := by omega
    rw [List.rtake, hdrop, List.drop_zero]

theorem rtake_rtake_append {α : Type} (n : Nat) (xs ys : List α) :
    (xs.rtake n ++ ys).rtake n = (xs ++ ys).rtake n := by
  simp only [List.rtake_eq_reverse_take_reverse, List.reverse_append,
    List.reverse_reverse, List.take_append, List.take_take]
  rw [Nat.min_eq_left (Nat.sub_le _ _)]

/-- After any pushes the queue holds the most recent keys of all it held
and was given, in their order. -/
theorem pushes_keep_recent (given : List EfiKeyData)
    (h : Holds queue keys) :
    keysOf (run queueStep (given.map QueueOp.push) queue)
      = (keys ++ given).rtake keyListMax := by
  induction given generalizing queue keys with
  | nil =>
    rw [List.append_nil, List.rtake, Nat.sub_eq_zero_of_le h.length_le]
    exact h.keys
  | cons keyData given ih =>
    have hpush := h.push keyData
    rw [listPush_eq_rtake h.length_le] at hpush
    have hrest := ih hpush
    rw [rtake_rtake_append, List.append_assoc] at hrest
    exact hrest

end Edk2Exynos.Keypad
