/-
`SetActiveSlot` does what its callers rely on: the slot it is given
becomes the one active slot, and from then on exactly one slot is
active whatever the library is called for.

# The words of the two boot entries

A call goes through up to four writers of the same bits: the first-boot
rule of `GetActiveSlot`, the two assignments of `SetActiveSlot`, and the
ACTIVE pass of `MarkPtnActive` over the whole table. `ActivatedSlot` is
what they amount to on the two words; the last writer finds the ACTIVE
bits already as it sets them, so it is absorbed
(`ActivatedSlot.mark`).

# The run

`OneSelectable` is the invariant: one boot entry is ACTIVE with a
nonzero priority and the other is not ACTIVE. Under it `GetActiveSlot`
always finds that slot and never takes the first-boot branch, so every
call of the library preserves it.
-/
import Edk2Exynos.BootSlot.SlotTable
import Edk2Exynos.Lib.Runs

namespace Edk2Exynos.BootSlot

open Lib

variable {env : Env} {ix : Side → Nat}

-- ======================================================= the active slot

/-- The boot entries' words after the first-boot rule of
`GetActiveSlot`, when it returns a slot. -/
def firstBootRule (w : Side → UINT64) : Side → UINT64
  | .a => if Selectable (w .a) ∨ Selectable (w .b) then w .a
      else firstBootAttributes (w .a)
  | .b => w .b

/-- A word as activation leaves it is selectable. -/
theorem Activated.selectable {a : UINT64} (h : Activated a) :
    Selectable a := by
  refine ⟨h.active, ?_⟩
  rw [h.priority]
  decide

/-- What `GetActiveSlot` does when it returns a slot: the table may have
gone through the first boot. -/
structure FoundSlot (env : Env) (ix : Side → Nat) (s s0 : St) (y : Side) :
    Prop where
  eq : getActiveSlot env Slot.zero s = (efiSuccess, y.slot, s0)
  names : SameNames s.ptnEntries s0.ptnEntries
  words : attr s0.ptnEntries ix = firstBootRule (attr s.ptnEntries ix)
  selectable : Selectable (attr s0.ptnEntries ix y)

variable (env) in
/-- `GetActiveSlot` returns a slot, or fails and changes nothing. -/
theorem getActiveSlot_cases {s : St} (h : BootTable s.ptnEntries ix) :
    (∃ y s0, FoundSlot env ix s s0 y)
      ∨ (getActiveSlot env Slot.zero s = (efiNotFound, Slot.zero, s)
        ∧ (∀ x, ¬ Selectable (attr s.ptnEntries ix x))
        ∧ ¬ IsFirstBoot (attr s.ptnEntries ix .a)) := by
  by_cases hsel : ∃ x, Selectable (attr s.ptnEntries ix x)
  · obtain ⟨x, hx⟩ := hsel
    obtain ⟨y, hy, hchosen⟩ := chosenSlot_selectable hx Slot.zero
    refine Or.inl ⟨y, s, getActiveSlot_chosen h hchosen, rfl, ?_, hy⟩
    have hor : Selectable (attr s.ptnEntries ix .a)
        ∨ Selectable (attr s.ptnEntries ix .b) := by
      cases x with
      | a => exact Or.inl hx
      | b => exact Or.inr hx
    funext z
    cases z with
    | a => exact (if_pos hor).symm
    | b => rfl
  · have hn : ∀ x, ¬ Selectable (attr s.ptnEntries ix x) :=
      fun x hx => hsel ⟨x, hx⟩
    have hget := getActiveSlot_none env h hn
    by_cases hfirst : IsFirstBoot (attr s.ptnEntries ix .a)
    · rw [if_pos hfirst] at hget
      have hent : (firstBootState env ix s).ptnEntries
          = modifyAttributes (ix .a) firstBootAttributes s.ptnEntries :=
        (updatePartitionAttributes_frame env _ _).ptnEntries
      have ha := attr_modify_same h .a firstBootAttributes
      have hb := attr_modify_other h .a firstBootAttributes
      refine Or.inl ⟨.a, _, hget, ?_, ?_, ?_⟩
      · rw [hent]
        exact modifyAttributes_names _ _ _
      · rw [hent]
        funext z
        cases z with
        | a =>
            refine ha.trans (if_neg ?_).symm
            rintro (hcon | hcon)
            · exact hn .a hcon
            · exact hn .b hcon
        | b => exact hb
      · rw [hent, ha]
        exact (firstBootAttributes_spec _).1.selectable
    · rw [if_neg hfirst] at hget
      exact Or.inr ⟨hget, hn, hfirst⟩

-- ==================================================== the activated slot

/-- The boot entries' words `w'` after `x` was made the active slot, from
words `w`. -/
structure ActivatedSlot (w w' : Side → UINT64) (x : Side)
    (resetSuccessBit setSuccessBit : Bool) : Prop where
  activated : Activated (w' x)
  successful : IsSuccessful (w' x)
    ↔ setSuccessBit ∨ (¬ resetSuccessBit ∧ IsSuccessful (w x))
  same : SameOutside slotMask (w x) (w' x)
  otherInactive : ¬ IsActive (w' x.other)
  otherPriority : priority (w' x.other) = maxPriority - 1
  otherSame : SameOutside activeMask (w x.other) (w' x.other)

/-- Exactly one boot entry is ACTIVE. -/
def OneActive (w : Side → UINT64) : Prop :=
  ∃ x : Side, IsActive (w x) ∧ ¬ IsActive (w x.other)

/-- The ACTIVE pass finds the bits as it would set them. -/
theorem ActivatedSlot.mark {w w' w'' : Side → UINT64} {x : Side}
    {r f : Bool} (h : ActivatedSlot w w' x r f)
    (hw : ∀ y, w'' y = if y = x then w' y ||| partAttActiveVal
      else w' y &&& ~~~partAttActiveVal) :
    ActivatedSlot w w'' x r f := by
  have hx : w'' x = w' x ||| partAttActiveVal := by
    rw [hw, if_pos rfl]
  have ho : w'' x.other = w' x.other &&& ~~~partAttActiveVal := by
    rw [hw, if_neg x.other_ne]
  have hkeep : ∀ p, partAttActiveVal &&& p = 0 →
      w'' x &&& p = w' x &&& p := by
    intro p hp
    rw [hx, or_and_keep hp]
  have hokeep : ∀ p, ~~~partAttActiveVal &&& p = p →
      w'' x.other &&& p = w' x.other &&& p := by
    intro p hp
    rw [ho, and_and_keep hp]
  refine ⟨⟨?_, ?_, ?_, ?_⟩, ?_, ?_, ?_, ?_, ?_⟩
  · unfold IsActive
    rw [hx, or_and_fill (by decide)]
    decide
  · have hp := h.activated.priority
    unfold priority at hp ⊢
    rw [hkeep _ (by decide)]
    exact hp
  · have hp := h.activated.retry
    unfold retryCount at hp ⊢
    rw [hkeep _ (by decide)]
    exact hp
  · have hp := h.activated.bootable
    unfold IsUnbootable at hp ⊢
    rw [hkeep _ (by decide)]
    exact hp
  · rw [← h.successful]
    unfold IsSuccessful
    rw [hkeep _ (by decide)]
  · exact (hkeep _ (by decide)).trans h.same
  · unfold IsActive
    rw [ho, and_and_clear (by decide)]
    exact not_not.mpr rfl
  · have hp := h.otherPriority
    unfold priority at hp ⊢
    rw [hokeep _ (by decide)]
    exact hp
  · exact (hokeep _ (by decide)).trans h.otherSame

variable (env) in
/-- The words of both slots after they were stored. -/
theorem storedState_words {s : St} (h : BootTable s.ptnEntries ix)
    (x : Side) (r f : Bool) :
    SameNames s.ptnEntries (storedState env ix x r f s).ptnEntries
      ∧ ActivatedSlot (attr s.ptnEntries ix)
          (attr (storedState env ix x r f s).ptnEntries ix) x r f := by
  have hent : (storedState env ix x r f s).ptnEntries
      = modifyAttributes (ix x.other) retireAttributes
        (modifyAttributes (ix x) (activateAttributes r f) s.ptnEntries) :=
    (updatePartitionAttributes_frame env _ _).ptnEntries
  have h1 := h.modify (ix x) (activateAttributes r f)
  have hx : attr (storedState env ix x r f s).ptnEntries ix x
      = activateAttributes r f (attr s.ptnEntries ix x) := by
    have hother := attr_modify_other h1 x.other retireAttributes
    rw [x.other_other] at hother
    rw [hent, hother, attr_modify_same h]
  have ho : attr (storedState env ix x r f s).ptnEntries ix x.other
      = retireAttributes (attr s.ptnEntries ix x.other) := by
    rw [hent, attr_modify_same h1, attr_modify_other h]
  obtain ⟨hact, hsucc, hsame⟩ :=
    activateAttributes_spec r f (attr s.ptnEntries ix x)
  obtain ⟨hin, hprio, hosame⟩ :=
    retireAttributes_spec (attr s.ptnEntries ix x.other)
  refine ⟨?_, ?_⟩
  · rw [hent]
    exact (modifyAttributes_names _ _ _).trans (modifyAttributes_names _ _ _)
  · refine ⟨?_, ?_, ?_, ?_, ?_, ?_⟩
    · rw [hx]
      exact hact
    · rw [hx]
      exact hsucc
    · rw [hx]
      exact hsame
    · rw [ho]
      exact hin
    · rw [ho]
      exact hprio
    · rw [ho]
      exact hosame

variable (env) in
/-- Both ways `SetActiveSlot` can end keep the words it stored. -/
theorem finishActivation_words {s : St} (h : BootTable s.ptnEntries ix)
    (x y : Side) {w : Side → UINT64} {r f : Bool}
    (hw : ActivatedSlot w (attr s.ptnEntries ix) x r f) :
    SameNames s.ptnEntries (finishActivation env x y s).ptnEntries
      ∧ ActivatedSlot w (attr (finishActivation env x y s).ptnEntries ix)
          x r f := by
  unfold finishActivation
  split
  · split
    · obtain ⟨tick, calls, hc⟩ := checkBootLun_frame env y.slot s
      rw [hc]
      exact ⟨rfl, hw⟩
    · exact ⟨rfl, hw⟩
  · have hg := switchPtnSlots_guids env x.slot.suffix s
    have hb := h.of_names hg.names
    rw [markPtnActive_entries]
    refine ⟨hg.names.trans (markEntries_names _ _), hw.mark fun y => ?_⟩
    rw [markEntries_attr hb]
    unfold attr
    rw [hg.attributesAt]

/-- A successful `SetActiveSlot`, from the words after the first-boot
rule. -/
theorem setActiveSlot_words {s s0 : St} {x y : Side} {r f : Bool}
    (h : BootTable s.ptnEntries ix) (hf : FoundSlot env ix s s0 y) :
    (setActiveSlot env x.slot r f s).1 = efiSuccess
      ∧ SameNames s.ptnEntries (setActiveSlot env x.slot r f s).2.ptnEntries
      ∧ ActivatedSlot (firstBootRule (attr s.ptnEntries ix))
          (attr (setActiveSlot env x.slot r f s).2.ptnEntries ix) x r f := by
  have h0 := h.of_names hf.names
  obtain ⟨hn1, hw1⟩ := storedState_words env h0 x r f
  obtain ⟨hn2, hw2⟩ := finishActivation_words env
    (h0.of_names hn1) x y hw1
  rw [setActiveSlot_eq hf.eq h0, ← hf.words]
  exact ⟨rfl, hf.names.trans (hn1.trans hn2), hw2⟩

-- =============================================================== the run

/-- A call on the slots. -/
inductive SlotCall where
  | getActiveSlot (activeSlot : Slot)
  | setActiveSlot (x : Side) (resetSuccessBit setSuccessBit : Bool)
  | clearUnbootable (bootSlot : Slot)

/-- What a call leaves. -/
def slotStep (env : Env) : SlotCall → St → St
  | .getActiveSlot activeSlot, s => (getActiveSlot env activeSlot s).2.2
  | .setActiveSlot x r f, s => (setActiveSlot env x.slot r f s).2
  | .clearUnbootable bootSlot, s => (clearUnbootable env bootSlot s).2

/-- One boot entry is ACTIVE with a nonzero priority, the other is not
ACTIVE. -/
def OneSelectable (w : Side → UINT64) : Prop :=
  ∃ x : Side, Selectable (w x) ∧ ¬ IsActive (w x.other)

/-- With one selectable slot, one is ACTIVE. -/
theorem OneSelectable.oneActive {w : Side → UINT64}
    (h : OneSelectable w) : OneActive w := by
  obtain ⟨x, hx, ho⟩ := h
  exact ⟨x, hx.1, ho⟩

/-- After an activation one slot is selectable. -/
theorem ActivatedSlot.oneSelectable {w w' : Side → UINT64} {x : Side}
    {r f : Bool} (h : ActivatedSlot w w' x r f) : OneSelectable w' :=
  ⟨x, h.activated.selectable, h.otherInactive⟩

variable (env) in
/-- With one selectable entry that is the slot found. -/
theorem getActiveSlot_only {s : St} (h : BootTable s.ptnEntries ix)
    {x : Side} (hx : Selectable (attr s.ptnEntries ix x))
    (ho : ¬ IsActive (attr s.ptnEntries ix x.other)) (activeSlot : Slot) :
    getActiveSlot env activeSlot s = (efiSuccess, x.slot, s) := by
  obtain ⟨y, hy, hchosen⟩ := chosenSlot_selectable hx activeSlot
  have hyx : y = x := by
    rcases x.eq_or_other y with heq | heq
    · exact heq
    · rw [heq] at hy
      exact absurd hy.1 ho
  subst hyx
  exact getActiveSlot_chosen h hchosen

/-- `ClearUnbootable` rewrites one word, away from the active fields. -/
theorem clearUnbootable_entries (env : Env) (bootSlot : Slot) (s : St) :
    (clearUnbootable env bootSlot s).2.ptnEntries = s.ptnEntries
      ∨ ∃ i, (clearUnbootable env bootSlot s).2.ptnEntries
        = modifyAttributes i clearAttributes s.ptnEntries := by
  unfold clearUnbootable
  split
  · exact Or.inl rfl
  next i _ =>
    exact Or.inr
      ⟨i, (updatePartitionAttributes_frame env _ _).ptnEntries⟩

/-- Clearing one entry clears a slot's word or leaves it. -/
theorem attr_clear {t : List PartitionEntry} (h : BootTable t ix) (i : Nat)
    (x : Side) :
    attr (modifyAttributes i clearAttributes t) ix x = attr t ix x
      ∨ attr (modifyAttributes i clearAttributes t) ix x
        = clearAttributes (attr t ix x) := by
  by_cases hi : ix x = i
  · subst hi
    exact Or.inr (attr_modify_same h x _)
  · exact Or.inl (attributesAt_modify_other hi _)

/-- The invariant of the run. -/
structure SlotInv (ix : Side → Nat) (s : St) : Prop where
  table : BootTable s.ptnEntries ix
  one : OneSelectable (attr s.ptnEntries ix)

/-- Every call keeps the invariant. -/
theorem slotStep_inv (env : Env) (c : SlotCall) {s : St}
    (h : SlotInv ix s) : SlotInv ix (slotStep env c s) := by
  obtain ⟨hb, x, hx, ho⟩ := h
  cases c with
  | getActiveSlot activeSlot =>
      show SlotInv ix (getActiveSlot env activeSlot s).2.2
      rw [getActiveSlot_only env hb hx ho]
      exact ⟨hb, x, hx, ho⟩
  | setActiveSlot y r f =>
      have hone : ∃ z s0, FoundSlot env ix s s0 z := by
        rcases getActiveSlot_cases env hb with hfound | hnone
        · exact hfound
        · exact absurd hx (hnone.2.1 x)
      obtain ⟨z, s0, hf⟩ := hone
      obtain ⟨-, hn, hw⟩ := setActiveSlot_words (x := y) (r := r) (f := f)
        hb hf
      exact ⟨hb.of_names hn, hw.oneSelectable⟩
  | clearUnbootable bootSlot =>
      show SlotInv ix (clearUnbootable env bootSlot s).2
      have hfields : ∀ (a a' : UINT64), a' = a ∨ a' = clearAttributes a →
          (IsActive a' ↔ IsActive a) ∧ priority a' = priority a := by
        rintro a a' (rfl | rfl)
        · exact ⟨Iff.rfl, rfl⟩
        · have hsame := (clearAttributes_spec a).2.2
          unfold IsActive priority
          rw [hsame.field (by decide), hsame.field (by decide)]
          exact ⟨Iff.rfl, rfl⟩
      rcases clearUnbootable_entries env bootSlot s with hent | ⟨i, hent⟩
      · refine ⟨?_, ?_⟩
        · rw [hent]
          exact hb
        · rw [hent]
          exact ⟨x, hx, ho⟩
      · have hx' := hfields _ _ (attr_clear hb i x)
        have ho' := hfields _ _ (attr_clear hb i x.other)
        refine ⟨?_, x, ?_, ?_⟩
        · rw [hent]
          exact hb.modify i _
        · rw [hent]
          refine ⟨hx'.1.mpr hx.1, ?_⟩
          rw [hx'.2]
          exact hx.2
        · rw [hent, ho'.1]
          exact ho

-- ========================================================== the contract

/-- `SetActiveSlot` on a table with `boot_a` and `boot_b`: a success
makes `x` the active slot, with the attribute words of `ActivatedSlot`; a
failure changes nothing; and after a success exactly one boot entry stays
ACTIVE through every further run of the library. -/
theorem setActiveSlot_correct (env : Env) (ix : Side → Nat) (s : St)
    (h : BootTable s.ptnEntries ix) (x : Side)
    (resetSuccessBit setSuccessBit : Bool) :
    let r := setActiveSlot env x.slot resetSuccessBit setSuccessBit s
    (r.1 = efiSuccess →
      getActiveSlot env Slot.zero r.2 = (efiSuccess, x.slot, r.2)
      ∧ ActivatedSlot (firstBootRule (attr s.ptnEntries ix))
        (attr r.2.ptnEntries ix) x resetSuccessBit setSuccessBit
      ∧ ∀ calls, OneActive
        (attr (run (slotStep env) calls r.2).ptnEntries ix))
    ∧ (r.1 ≠ efiSuccess → r.2.ptnEntries = s.ptnEntries) := by
  intro r
  rcases getActiveSlot_cases env h with ⟨y, s0, hf⟩ | hnone
  · obtain ⟨hok, hn, hw⟩ := setActiveSlot_words (x := x)
      (r := resetSuccessBit) (f := setSuccessBit) h hf
    have hb : BootTable r.2.ptnEntries ix := h.of_names hn
    refine ⟨fun _ => ⟨?_, hw, fun calls => ?_⟩, fun hne => absurd hok hne⟩
    · exact getActiveSlot_only env hb hw.activated.selectable
        hw.otherInactive Slot.zero
    · have hinv : SlotInv ix (run (slotStep env) calls r.2) :=
        run_invariant (fun c _ hs' => slotStep_inv env c hs') calls
          ⟨hb, hw.oneSelectable⟩
      exact hinv.one.oneActive
  · have hfail : r = (efiNotFound, s) := setActiveSlot_fails hnone.1
    refine ⟨fun hok => ?_, fun _ => ?_⟩
    · rw [hfail] at hok
      exact absurd hok efiNotFound_ne_efiSuccess
    · rw [hfail]

/-- A switch of the sample leaves one slot ACTIVE. -/
theorem setActiveSlot_correct_sample :
    OneActive (attr (run (slotStep sampleEnv) [.getActiveSlot Slot.zero]
      (setActiveSlot sampleEnv slotB false true sampleSlots).2).ptnEntries
      sampleIx) :=
  ((setActiveSlot_correct sampleEnv sampleIx sampleSlots sampleSlots_table
    .b false true).1 (by decide +kernel)).2.2 _

end Edk2Exynos.BootSlot
