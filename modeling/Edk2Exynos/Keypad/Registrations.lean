/-
Registering for a key, and unregistering (KeypadTextIn.c).

# Handles

A registration is a node of `NotifyList`, and its handle is the address
of the node. Freed addresses may be given out again. `AllocateZeroPool`
is the call's `allocated`: none when the pool is exhausted, else an
address that no node has (`Allocates`).

# Merging

The comment in `KeypadRegisterKeyNotify` promises the old handle when
the same key data and function are registered already, but the search is
for a node that *matches* the key data, where a shift or toggle state of
zero matches any. A registration for one shift state is merged into an
earlier one for any state, and from then on the two share one node:
whoever unregisters first ends both. `Distinct` keeps clear of that, and
`registrations_hold` is the invariant.
-/
import Edk2Exynos.Keypad.Console

namespace Edk2Exynos.Keypad

open Lib

-- ============================================================== the list

/-- `EFI_STATUS`, other than success. -/
inductive EfiError where
  | invalidParameter
  | outOfResources
  deriving DecidableEq

/-- A node of `NotifyList` and where it is. -/
structure NotifyNode where
  address : Nat
  notify : KeypadNotify
  deriving DecidableEq

/-- `NotifyList`, from its head on. -/
abbrev NotifyList := List NotifyNode

/-- The test of the loop in `KeypadRegisterKeyNotify`. -/
def isRegistered (keyData : EfiKeyData) (keyNotificationFunction : Nat)
    (currentNotify : NotifyNode) : Bool :=
  isKeyRegistered currentNotify.notify.keyData keyData
    && currentNotify.notify.keyNotificationFn == keyNotificationFunction

/-- `KeypadRegisterKeyNotify`: the handle and the list. A missing key
data or place for the handle is none or false, a NULL function is 0. -/
def keypadRegisterKeyNotify (keyData : Option EfiKeyData)
    (keyNotificationFunction : Nat) (notifyHandle : Bool)
    (allocated : Option Nat) (notifyList : NotifyList) :
    Except EfiError (Nat × NotifyList) :=
  match keyData with
  | none => .error .invalidParameter
  | some keyData =>
      if notifyHandle = false ∨ keyNotificationFunction = 0 then
        .error .invalidParameter
      else
        match notifyList.find?
            (isRegistered keyData keyNotificationFunction) with
        | some currentNotify => .ok (currentNotify.address, notifyList)
        | none =>
            match allocated with
            | none => .error .outOfResources
            | some newNotify =>
                .ok (newNotify, notifyList
                  ++ [⟨newNotify, keyData, keyNotificationFunction⟩])

/-- `KeypadUnregisterKeyNotify` -/
def keypadUnregisterKeyNotify (notificationHandle : Nat)
    (notifyList : NotifyList) : Except EfiError NotifyList :=
  if notificationHandle = 0 then .error .invalidParameter
  else if notifyList.any (·.address == notificationHandle) then
    .ok (notifyList.eraseP (·.address == notificationHandle))
  else .error .invalidParameter

/-- The functions that `KeyNotifyProcessHandler` calls for a key. -/
def invoked (notifyList : NotifyList) (keyData : EfiKeyData) : List Nat :=
  (matching (notifyList.map (·.notify)) keyData).map (·.keyNotificationFn)

-- =============================================================== clients

/-- What a client has registered, and the handle it was given. -/
structure Registration where
  keyData : EfiKeyData
  keyNotificationFunction : Nat
  handle : Nat
  deriving DecidableEq

/-- The pair that is registered. -/
def Registration.notify (r : Registration) : KeypadNotify :=
  ⟨r.keyData, r.keyNotificationFunction⟩

/-- A call of one of the two functions. -/
inductive NotifyCall where
  | register (keyData : EfiKeyData) (keyNotificationFunction : Nat)
      (allocated : Option Nat)
  | unregister (r : Registration)

/-- The list, and the registrations made and not unregistered since. -/
structure NotifyClients where
  notifyList : NotifyList
  standing : List Registration

/-- Nobody has registered yet. -/
def noClients : NotifyClients := ⟨[], []⟩

/-- A call; one that fails changes nothing. -/
def notifyStep : NotifyCall → NotifyClients → NotifyClients
  | .register keyData fn allocated, s =>
      match keypadRegisterKeyNotify (some keyData) fn true allocated
          s.notifyList with
      | .error _ => s
      | .ok (handle, list) => ⟨list, ⟨keyData, fn, handle⟩ :: s.standing⟩
  | .unregister r, s =>
      match keypadUnregisterKeyNotify r.handle s.notifyList with
      | .error _ => s
      | .ok list => ⟨list, s.standing.filter (·.notify ≠ r.notify)⟩

/-- The pool gives out an address that is not in use. -/
def Allocates : NotifyCall → NotifyClients → Prop
  | .register _ _ allocated, s => ∀ a ∈ allocated,
      a ≠ 0 ∧ ∀ n ∈ s.notifyList, n.address ≠ a
  | .unregister _, _ => True

/-- The handle is listed, and the function called for every key that the
key data matches. -/
def Registration.Holds (notifyList : NotifyList) (r : Registration) :
    Prop :=
  (∃ n ∈ notifyList, n.address = r.handle)
    ∧ ∀ keyData, isKeyRegistered r.keyData keyData →
      r.keyNotificationFunction ∈ invoked notifyList keyData

/-- Every registration made and not unregistered holds. -/
def NotifyClients.AllHold (s : NotifyClients) : Prop :=
  ∀ r ∈ s.standing, r.Holds s.notifyList

/-- The call succeeds, and what is unregistered stands. -/
def Succeeds : NotifyCall → NotifyClients → Prop
  | .register keyData fn allocated, s =>
      (keypadRegisterKeyNotify (some keyData) fn true allocated
        s.notifyList).isOk
  | .unregister r, s => r ∈ s.standing
      ∧ (keypadUnregisterKeyNotify r.handle s.notifyList).isOk

/-- Nothing else that is registered for the function matches the key
data, or the very pair is registered too; what is unregistered stands, or
its handle is not listed any more. -/
def Distinct : NotifyCall → NotifyClients → Prop
  | .register keyData fn _, s =>
      (∃ n ∈ s.notifyList, isRegistered keyData fn n) →
        ∃ n ∈ s.notifyList, n.notify = ⟨keyData, fn⟩
  | .unregister r, s =>
      (∃ n ∈ s.notifyList, n.address = r.handle) → r ∈ s.standing

instance : (call : NotifyCall) → (s : NotifyClients) →
    Decidable (Allocates call s)
  | .register _ _ none, _ => .isTrue nofun
  | .register _ _ (some a), s =>
      decidable_of_iff (a ≠ 0 ∧ ∀ n ∈ s.notifyList, n.address ≠ a)
        (by simp [Allocates])
  | .unregister _, _ => .isTrue trivial

instance : (call : NotifyCall) → (s : NotifyClients) →
    Decidable (Succeeds call s)
  | .register _ _ _, _ => inferInstanceAs (Decidable (_ = true))
  | .unregister _, _ => inferInstanceAs (Decidable (_ ∧ _))

instance : (call : NotifyCall) → (s : NotifyClients) →
    Decidable (Distinct call s)
  | .register _ _ _, _ => inferInstanceAs (Decidable (_ → _))
  | .unregister _, _ => inferInstanceAs (Decidable (_ → _))

-- ============================================================= the calls

theorem isRegistered_iff {keyData : EfiKeyData} {fn : Nat}
    {n : NotifyNode} :
    isRegistered keyData fn n
      ↔ isKeyRegistered n.notify.keyData keyData
        ∧ n.notify.keyNotificationFn = fn := by
  unfold isRegistered
  simp

/-- Key data matches itself. -/
theorem isKeyRegistered_self (k : EfiKeyData) : isKeyRegistered k k := by
  unfold isKeyRegistered
  simp

/-- What a successful registration does. -/
theorem keypadRegisterKeyNotify_cases {keyData : EfiKeyData} {fn : Nat}
    {allocated : Option Nat} {l l' : NotifyList} {handle : Nat}
    (h : keypadRegisterKeyNotify (some keyData) fn true allocated l
      = .ok (handle, l')) :
    fn ≠ 0 ∧ ((∃ n, l.find? (isRegistered keyData fn) = some n
      ∧ handle = n.address ∧ l' = l)
    ∨ (l.find? (isRegistered keyData fn) = none
      ∧ allocated = some handle
      ∧ l' = l ++ [⟨handle, keyData, fn⟩])) := by
  unfold keypadRegisterKeyNotify at h
  simp only at h
  split at h
  · cases h
  next hnull =>
    have hfn : fn ≠ 0 := fun h => hnull (.inr h)
    split at h
    next n hfind =>
      cases h
      exact ⟨hfn, .inl ⟨n, hfind, rfl, rfl⟩⟩
    next hfind =>
      cases allocated with
      | none => cases h
      | some a =>
          cases h
          exact ⟨hfn, .inr ⟨hfind, rfl, rfl⟩⟩

/-- What a successful unregistering does. -/
theorem keypadUnregisterKeyNotify_cases {handle : Nat}
    {l l' : NotifyList} (h : keypadUnregisterKeyNotify handle l = .ok l') :
    (∃ n ∈ l, n.address = handle)
      ∧ l' = l.eraseP (·.address == handle) := by
  unfold keypadUnregisterKeyNotify at h
  split at h
  · cases h
  split at h
  next hany =>
    cases h
    obtain ⟨n, hn, hhandle⟩ := List.any_eq_true.1 hany
    exact ⟨⟨n, hn, beq_iff_eq.1 hhandle⟩, rfl⟩
  · cases h

/-- A listed pair is invoked for what its key data matches. -/
theorem mem_invoked {l : NotifyList} {n : NotifyNode} (hn : n ∈ l)
    {keyData : EfiKeyData}
    (h : isKeyRegistered n.notify.keyData keyData) :
    n.notify.keyNotificationFn ∈ invoked l keyData := by
  refine List.mem_map.2 ⟨n.notify, List.mem_filter.2 ⟨?_, h⟩, rfl⟩
  exact List.mem_map_of_mem hn

/-- What an iteration of the handler calls for the key it pops. -/
theorem keyNotifyIteration_invoked {c : KeypadConsoleIn} {l : NotifyList}
    (hlist : c.notifyList = l.map (·.notify)) {keyData : EfiKeyData}
    {queue : EfiKeyQueue}
    (hpop : popEfikeyBufHead c.efiKeyQueueForNotify
      = some (keyData, queue)) :
    ∃ c', keyNotifyIteration c = some c'
      ∧ c'.calls.map (·.1.keyNotificationFn)
        = c.calls.map (·.1.keyNotificationFn) ++ invoked l keyData := by
  unfold keyNotifyIteration
  rw [hpop]
  refine ⟨_, rfl, ?_⟩
  show (c.calls ++ (matching c.notifyList keyData).map
    fun n => (n, keyData)).map (·.1.keyNotificationFn) = _
  rw [List.map_append, List.map_map, hlist]
  rfl

-- ========================================================= the invariant

/-- No two nodes share an address. -/
def AddressesApart (l : NotifyList) : Prop := (l.map (·.address)).Nodup

/-- No node matches the key data of a later one for the same function. -/
def NoneMerged (l : NotifyList) : Prop :=
  l.Pairwise fun n m =>
    ¬ isRegistered m.notify.keyData m.notify.keyNotificationFn n

/-- Every standing registration has a node of its own pair, and every
node a standing registration. -/
structure NotifyClients.Ok (s : NotifyClients) : Prop where
  apart : AddressesApart s.notifyList
  unmerged : NoneMerged s.notifyList
  set : ∀ n ∈ s.notifyList, n.address ≠ 0
    ∧ n.notify.keyNotificationFn ≠ 0
  listed : ∀ r ∈ s.standing, ⟨r.handle, r.notify⟩ ∈ s.notifyList
  stands : ∀ n ∈ s.notifyList, ∃ r ∈ s.standing,
    n = ⟨r.handle, r.notify⟩

theorem noClients_ok : noClients.Ok :=
  ⟨List.nodup_nil, List.Pairwise.nil, nofun, nofun, nofun⟩

/-- In a list where nothing is merged, the search for a listed pair ends
at that pair. -/
theorem find?_of_listed {keyData : EfiKeyData} {fn : Nat} :
    ∀ {l : NotifyList}, NoneMerged l →
      (∃ n ∈ l, n.notify = ⟨keyData, fn⟩) →
      ∀ n, l.find? (isRegistered keyData fn) = some n →
        n.notify = ⟨keyData, fn⟩ := by
  intro l
  induction l with
  | nil =>
      intro _ _ n hfind
      cases hfind
  | cons m l ih =>
      intro hmerged hlisted n hfind
      obtain ⟨hm, hl⟩ := List.pairwise_cons.1 hmerged
      obtain ⟨x, hx, hpair⟩ := hlisted
      rw [List.find?_cons] at hfind
      rcases List.mem_cons.1 hx with rfl | hx
      · have hself : isRegistered keyData fn x := by
          rw [isRegistered_iff, hpair]
          exact ⟨isKeyRegistered_self keyData, rfl⟩
        rw [hself] at hfind
        cases hfind
        exact hpair
      · have hm := hm x hx
        rw [hpair] at hm
        rw [Bool.eq_false_iff.2 hm] at hfind
        exact ih hl ⟨x, hx, hpair⟩ n hfind

/-- What is appended after a search that found nothing is not merged. -/
theorem noneMerged_append {l : NotifyList} (h : NoneMerged l)
    (n : NotifyNode)
    (hfind : l.find? (isRegistered n.notify.keyData
      n.notify.keyNotificationFn) = none) : NoneMerged (l ++ [n]) := by
  refine List.pairwise_append.2 ⟨h, List.pairwise_singleton _ _, ?_⟩
  intro m hm x hx
  rw [List.mem_singleton.1 hx]
  exact List.find?_eq_none.1 hfind m hm

theorem addressesApart_append {l : NotifyList} (h : AddressesApart l)
    (n : NotifyNode) (hn : ∀ m ∈ l, m.address ≠ n.address) :
    AddressesApart (l ++ [n]) := by
  unfold AddressesApart
  rw [List.map_append, List.map_singleton, List.nodup_append]
  refine ⟨h, List.nodup_singleton _, ?_⟩
  intro a ha b hb
  obtain ⟨m, hm, rfl⟩ := List.mem_map.1 ha
  rw [List.mem_singleton.1 hb]
  exact hn m hm

/-- Two nodes at one address are one. -/
theorem AddressesApart.eq {l : NotifyList} (h : AddressesApart l)
    {n m : NotifyNode} (hn : n ∈ l) (hm : m ∈ l)
    (heq : n.address = m.address) : n = m :=
  List.inj_on_of_nodup_map h hn hm heq

/-- Two nodes for one pair are one. -/
theorem NoneMerged.eq {l : NotifyList} (h : NoneMerged l)
    {n m : NotifyNode} (hn : n ∈ l) (hm : m ∈ l)
    (heq : n.notify = m.notify) : n = m := by
  refine List.inj_on_of_nodup_map (f := (·.notify)) ?_ hn hm heq
  refine List.pairwise_map.2 (h.imp ?_)
  intro x y hxy hsame
  rw [isRegistered_iff, hsame] at hxy
  exact hxy ⟨isKeyRegistered_self _, rfl⟩

/-- Erasing the node at an address leaves the others. -/
theorem AddressesApart.mem_eraseP {l : NotifyList} (h : AddressesApart l)
    (handle : Nat) {n : NotifyNode} :
    n ∈ l.eraseP (·.address == handle) ↔ n ∈ l ∧ n.address ≠ handle := by
  induction l with
  | nil => simp
  | cons m l ih =>
      obtain ⟨hm, hl⟩ := List.nodup_cons.1 h
      by_cases hat : m.address = handle
      · rw [List.eraseP_cons_of_pos (by simpa using hat)]
        refine ⟨fun hn => ⟨List.mem_cons_of_mem _ hn, ?_⟩, ?_⟩
        · intro hsame
          exact hm (List.mem_map.2 ⟨n, hn, hsame.trans hat.symm⟩)
        · rintro ⟨hn, hne⟩
          rcases List.mem_cons.1 hn with rfl | hn
          · exact absurd hat hne
          · exact hn
      · rw [List.eraseP_cons_of_neg (by simpa using hat),
          List.mem_cons, List.mem_cons, ih hl]
        constructor
        · rintro (rfl | ⟨hn, hne⟩)
          · exact ⟨.inl rfl, hat⟩
          · exact ⟨.inr hn, hne⟩
        · rintro ⟨rfl | hn, hne⟩
          · exact .inl rfl
          · exact .inr ⟨hn, hne⟩

-- ============================================================= the steps

/-- A pair that is listed is registered once more. -/
theorem NotifyClients.Ok.again {s : NotifyClients} (hs : s.Ok)
    {r : Registration} (hr : ⟨r.handle, r.notify⟩ ∈ s.notifyList) :
    NotifyClients.Ok ⟨s.notifyList, r :: s.standing⟩ := by
  refine ⟨hs.apart, hs.unmerged, hs.set, ?_, ?_⟩
  · intro x hx
    rcases List.mem_cons.1 hx with rfl | hx
    · exact hr
    · exact hs.listed x hx
  · intro n hn
    obtain ⟨x, hx, heq⟩ := hs.stands n hn
    exact ⟨x, List.mem_cons_of_mem _ hx, heq⟩

/-- A new pair gets a node of its own. -/
theorem NotifyClients.Ok.append {s : NotifyClients} (hs : s.Ok)
    (r : Registration) (hfn : r.keyNotificationFunction ≠ 0)
    (hfresh : r.handle ≠ 0 ∧ ∀ n ∈ s.notifyList, n.address ≠ r.handle)
    (hfind : s.notifyList.find?
      (isRegistered r.keyData r.keyNotificationFunction) = none) :
    NotifyClients.Ok ⟨s.notifyList ++ [⟨r.handle, r.notify⟩],
      r :: s.standing⟩ := by
  refine ⟨addressesApart_append hs.apart _ hfresh.2,
    noneMerged_append hs.unmerged _ hfind, ?_, ?_, ?_⟩
  · intro n hn
    rcases List.mem_append.1 hn with hn | hn
    · exact hs.set n hn
    · rw [List.mem_singleton.1 hn]
      exact ⟨hfresh.1, hfn⟩
  · intro x hx
    rcases List.mem_cons.1 hx with rfl | hx
    · exact List.mem_append_right _ (List.mem_singleton_self _)
    · exact List.mem_append_left _ (hs.listed x hx)
  · intro n hn
    rcases List.mem_append.1 hn with hn | hn
    · obtain ⟨x, hx, heq⟩ := hs.stands n hn
      exact ⟨x, List.mem_cons_of_mem _ hx, heq⟩
    · exact ⟨r, List.mem_cons_self, List.mem_singleton.1 hn⟩

/-- A standing registration is unregistered, and no other pair. -/
theorem NotifyClients.Ok.erase {s : NotifyClients} (hs : s.Ok)
    {r : Registration} (hr : r ∈ s.standing) :
    NotifyClients.Ok ⟨s.notifyList.eraseP (·.address == r.handle),
      s.standing.filter (·.notify ≠ r.notify)⟩ := by
  have hsub := List.eraseP_sublist (p := (·.address == r.handle))
    (l := s.notifyList)
  have hnode := hs.listed r hr
  refine ⟨hs.apart.sublist (hsub.map _), hs.unmerged.sublist hsub, ?_,
    ?_, ?_⟩
  · intro n hn
    exact hs.set n (hsub.subset hn)
  · intro x hx
    obtain ⟨hx, hne⟩ := List.mem_filter.1 hx
    have hne : x.notify ≠ r.notify := of_decide_eq_true hne
    refine (hs.apart.mem_eraseP r.handle).2 ⟨hs.listed x hx, ?_⟩
    intro hsame
    have hone := hs.apart.eq (hs.listed x hx) hnode hsame
    exact hne (congrArg NotifyNode.notify hone)
  · intro n hn
    obtain ⟨hn, haddress⟩ := (hs.apart.mem_eraseP r.handle).1 hn
    obtain ⟨x, hx, rfl⟩ := hs.stands n hn
    refine ⟨x, List.mem_filter.2 ⟨hx, decide_eq_true ?_⟩, rfl⟩
    intro hsame
    have hone := hs.unmerged.eq hn hnode hsame
    exact haddress (congrArg NotifyNode.address hone)

theorem ok_register {s : NotifyClients} (hs : s.Ok) {keyData : EfiKeyData}
    {fn : Nat} {allocated : Option Nat}
    (hfresh : Allocates (.register keyData fn allocated) s)
    (hdistinct : Distinct (.register keyData fn allocated) s) :
    (notifyStep (.register keyData fn allocated) s).Ok := by
  unfold notifyStep
  simp only
  split
  next => exact hs
  next handle l' heq =>
    obtain ⟨hfn, ⟨n, hfind, rfl, rfl⟩ | ⟨hfind, rfl, rfl⟩⟩ :=
      keypadRegisterKeyNotify_cases heq
    · have hn := List.mem_of_find?_eq_some hfind
      have hpair := find?_of_listed hs.unmerged
        (hdistinct ⟨n, hn, List.find?_some hfind⟩) n hfind
      apply hs.again (r := ⟨keyData, fn, n.address⟩)
      show NotifyNode.mk n.address ⟨keyData, fn⟩ ∈ s.notifyList
      rw [← hpair]
      exact hn
    · exact hs.append ⟨keyData, fn, handle⟩ hfn (hfresh handle rfl) hfind

theorem ok_unregister {s : NotifyClients} (hs : s.Ok) {r : Registration}
    (hdistinct : Distinct (.unregister r) s) :
    (notifyStep (.unregister r) s).Ok := by
  unfold notifyStep
  simp only
  split
  next => exact hs
  next l' heq =>
    obtain ⟨hlisted, rfl⟩ := keypadUnregisterKeyNotify_cases heq
    exact hs.erase (hdistinct hlisted)

theorem ok_step (call : NotifyCall) (s : NotifyClients)
    (h : Allocates call s ∧ Distinct call s) (hs : s.Ok) :
    (notifyStep call s).Ok := by
  cases call with
  | register keyData fn allocated => exact ok_register hs h.1 h.2
  | unregister r => exact ok_unregister hs h.2

theorem NotifyClients.Ok.allHold {s : NotifyClients} (hs : s.Ok) :
    s.AllHold := by
  intro r hr
  refine ⟨⟨_, hs.listed r hr, rfl⟩, ?_⟩
  intro keyData hmatch
  exact mem_invoked (hs.listed r hr) hmatch

/-- A registration that is merged into a different one is ended by
whoever unregisters that one. -/
theorem merged_ends {s : NotifyClients} (hs : s.Ok) {keyData : EfiKeyData}
    {fn : Nat} {allocated : Option Nat}
    (h : ¬ Distinct (.register keyData fn allocated) s) :
    ∃ r ∈ s.standing, r.notify ≠ ⟨keyData, fn⟩
      ∧ ¬ (run notifyStep [.register keyData fn allocated, .unregister r]
        s).AllHold := by
  obtain ⟨hmatch, hnone⟩ := Classical.not_imp.1 h
  obtain ⟨n, hfind⟩ := Option.isSome_iff_exists.1 (by
    rw [List.find?_isSome]
    exact hmatch : (s.notifyList.find? (isRegistered keyData fn)).isSome)
  have hn := List.mem_of_find?_eq_some hfind
  have hfn : fn ≠ 0 := by
    have hsame := (isRegistered_iff.1 (List.find?_some hfind)).2
    rw [← hsame]
    exact (hs.set n hn).2
  have hpair : n.notify ≠ ⟨keyData, fn⟩ := fun hp => hnone ⟨n, hn, hp⟩
  obtain ⟨r, hr, hnode⟩ := hs.stands n hn
  have haddress : n.address = r.handle := congrArg NotifyNode.address hnode
  have hnotify : n.notify = r.notify := congrArg NotifyNode.notify hnode
  refine ⟨r, hr, by rw [← hnotify]; exact hpair, ?_⟩
  have hreg : notifyStep (.register keyData fn allocated) s
      = ⟨s.notifyList, ⟨keyData, fn, r.handle⟩ :: s.standing⟩ := by
    unfold notifyStep keypadRegisterKeyNotify
    simp [hfn, hfind, haddress]
  have hun : keypadUnregisterKeyNotify r.handle s.notifyList
      = .ok (s.notifyList.eraseP (·.address == r.handle)) := by
    have hne : r.handle ≠ 0 := haddress ▸ (hs.set n hn).1
    have hany : s.notifyList.any (·.address == r.handle) = true :=
      List.any_eq_true.2 ⟨n, hn, beq_iff_eq.2 haddress⟩
    unfold keypadUnregisterKeyNotify
    rw [if_neg hne, if_pos hany]
  intro hall
  simp only [run, hreg] at hall
  unfold notifyStep at hall
  simp only [hun] at hall
  have hstands : (⟨keyData, fn, r.handle⟩ : Registration)
      ∈ (⟨keyData, fn, r.handle⟩ :: s.standing).filter
        (·.notify ≠ r.notify) := by
    refine List.mem_filter.2 ⟨List.mem_cons_self, decide_eq_true ?_⟩
    intro hsame
    exact hpair (hnotify.trans hsame.symm)
  obtain ⟨⟨m, hm, hat⟩, -⟩ := hall _ hstands
  exact ((hs.apart.mem_eraseP r.handle).1 hm).2 hat

-- ============================================================== the runs

/-- In a run of distinct registrations every one that is made holds until
it is unregistered; a registration that would not be distinct is ended
with another one. -/
theorem registrations_hold (calls : List NotifyCall)
    (hpool : EveryStep notifyStep Allocates calls noClients)
    (hdistinct : EveryStep notifyStep Distinct calls noClients) :
    (run notifyStep calls noClients).AllHold
      ∧ ∀ keyData fn allocated,
        ¬ Distinct (.register keyData fn allocated)
          (run notifyStep calls noClients) →
        ∃ r ∈ (run notifyStep calls noClients).standing,
          r.notify ≠ ⟨keyData, fn⟩
            ∧ ¬ (run notifyStep
              [.register keyData fn allocated, .unregister r]
              (run notifyStep calls noClients)).AllHold := by
  have hok : (run notifyStep calls noClients).Ok :=
    EveryStep.invariant ok_step (EveryStep.and hpool hdistinct) noClients_ok
  exact ⟨hok.allHold, fun _ _ _ h => merged_ends hok h⟩

/-- The letter a in any shift state. -/
def keyA : EfiKeyData := ⟨⟨0, 0x61⟩, ⟨0, 0⟩⟩

/-- The letter a with the left control key. -/
def keyCtrlA : EfiKeyData := ⟨⟨0, 0x61⟩, ⟨0x80000008, 0⟩⟩

theorem registrations_hold_two :
    (run notifyStep [.register keyCtrlA 1 (some 16),
      .register keyA 1 (some 32), .unregister ⟨keyA, 1, 32⟩]
      noClients).AllHold :=
  (registrations_hold _ (by decide) (by decide)).1

/-- The same function is registered for a in any state and for control-a:
when the first is unregistered the second is gone. -/
theorem registrations_merged :
    ¬ ∀ calls : List NotifyCall,
      EveryStep notifyStep Allocates calls noClients →
      EveryStep notifyStep Succeeds calls noClients →
      (run notifyStep calls noClients).AllHold := by
  intro h
  have hall := h [.register keyA 1 (some 16),
    .register keyCtrlA 1 (some 32), .unregister ⟨keyA, 1, 16⟩]
    (by decide) (by decide)
  have hgone := (hall ⟨keyCtrlA, 1, 16⟩ (by decide)).1
  revert hgone
  decide

end Edk2Exynos.Keypad
