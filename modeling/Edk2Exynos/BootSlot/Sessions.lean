/-
SwitchSlotsApp, and the two programs of the repository that work on
slots as they follow each other over boots of a device.

# A session

Each program has the library's globals to itself, builds its partition
table anew from what the handles report, and leaves only the media behind.
`session` is one such run, on handles that report what is on the media as
the program starts; so what a program did is there for the next one
exactly as far as it has been written out.

# The slot over any sequence of sessions

BootSlotDxe makes the slot it finds active again, SwitchSlotsApp makes
the other slot active. `sessions_active` says that the media carry this
through any sequence of the two: no session fails, every GPT stays valid
with two equal copies, and the slot found next is the one the number of
switches says.
-/
import Edk2Exynos.BootSlot.BootSlotDxe
import Edk2Exynos.BootSlot.SyncedCalls

namespace Edk2Exynos.BootSlot

open Lib

-- ========================================================= the application

/-- `EFI_NOT_READY` -/
def efiNotReady : EfiStatus := 0x8000000000000006

/-- How the application ends. -/
inductive AppEnd where
  | exit (status : EfiStatus)
  | resetSystem
  deriving DecidableEq

/-- `SwitchSlotsAppEntryPoint` -/
def switchSlotsApp (env : Env) (handles : BlkIoHandles) (s : St) :
    AppEnd × St :=
  if env.rootDeviceType = .unknown then (.exit efiUnsupported, s) else
  match enumeratePartitions handles s with
  | (status, ptable, s) =>
  if efiError status then (.exit status, s) else
  let s := updatePartitionEntries ptable s
  if ¬ partitionHasMultiSlot bootName s.ptnEntries then
    (.exit efiUnsupported, s)
  else
  match getCurrentSlotSuffix env s with
  | (currentSlot, s) =>
  if isSuffixEmpty currentSlot then (.exit efiNotReady, s) else
  let newSlot :=
    if strnCmp currentSlot.suffix slotA.suffix (strLen slotA.suffix) = 0
    then slotB
    else slotA
  match setActiveSlot env newSlot true false s with
  | (status, s) =>
  if efiError status then (.exit status, s) else
  let s := updatePartitionAttributes env .partitionGuid s
  (.resetSystem, updatePartitionAttributes env .partitionAttributes s)

-- ============================================================ the sessions

/-- The programs that use BootSlotLib. -/
inductive Program where
  | bootSlotMain
  | switchSlotsApp
  deriving DecidableEq

/-- A program loaded and run on the media as they are. -/
def session (env : Env) : Program → St → St
  | .bootSlotMain, s => (bootSlotMain env (diskHandles env s) s.loaded).2
  | .switchSlotsApp, s =>
      (switchSlotsApp env (diskHandles env s) s.loaded).2

/-- The program does what it is for. -/
def Completes (env : Env) (p : Program) (s : St) : Prop :=
  match p with
  | .bootSlotMain =>
      (bootSlotMain env (diskHandles env s) s.loaded).1 = efiSuccess
  | .switchSlotsApp =>
      (switchSlotsApp env (diskHandles env s) s.loaded).1 = .resetSystem

/-- A medium on which slot `x` is active and the other is not. -/
structure ActiveOn (env : Env) (ix : Side → Nat) (x : Side) (s : St) :
    Prop where
  medium : GptDevice env s
  table : BootTable (diskEntries env s) ix
  selectable : Selectable (attr (diskEntries env s) ix x)
  other : ¬ IsActive (attr (diskEntries env s) ix x.other)

/-- The entries of the media differ in type GUIDs and attributes only. -/
def SameEntries (env : Env) (s s' : St) : Prop :=
  List.Forall₂ FieldsChanged (diskEntries env s) (diskEntries env s')

variable {env : Env} {ix : Side → Nat} {x : Side} {s s' s'' : St}

/-- Media that are left alone keep their entries. -/
theorem SameEntries.refl (env : Env) (s : St) : SameEntries env s s :=
  List.forall₂_same.mpr fun p _ => FieldsChanged.refl p

/-- What two sessions change, both change. -/
theorem SameEntries.trans (h : SameEntries env s s')
    (h' : SameEntries env s' s'') : SameEntries env s s'' :=
  forall₂_trans FieldsChanged.trans h h'

/-- A program starts with the table of the media. -/
theorem startState_entries (env : Env) (s : St) :
    (startState env s).ptnEntries = diskEntries env s := by
  rw [startState_eq]

/-- What a program that keeps media and table alike leaves on the
media. -/
theorem KeptSynced.entries (h : KeptSynced env (startState env s) s') :
    SameEntries env s s' := by
  have hf := h.fields
  rw [startState_entries, h.synced.table] at hf
  exact hf

/-- A slot made active by a program is active on the media. -/
theorem ActivatedSlot.activeOn {w : Side → UINT64} {r f : Bool}
    (hw : ActivatedSlot w (attr s.ptnEntries ix) x r f)
    (h : Synced env s) (hb : BootTable s.ptnEntries ix) :
    ActiveOn env ix x s := by
  rw [h.table] at hb hw
  exact ⟨h.medium, hb, hw.activated.selectable, hw.otherInactive⟩

/-- An update of a table that is on the media does nothing. -/
theorem Synced.update_none (h : Synced env s) (u : UpdateType) :
    updatePartitionAttributes env u s = s := by
  unfold updatePartitionAttributes
  rw [if_neg]
  unfold isUpdatePartitionAttributes
  simp [h.bak]

/-- Clearing both slots keeps table and media together. -/
theorem Synced.clearSlots (h : Synced env s)
    (hb : BootTable s.ptnEntries ix) :
    KeptSynced env s (clearSlots env [slotA, slotB] s) := by
  have hround : ∀ (slot : Slot) (t : St), Synced env t →
      BootTable t.ptnEntries ix →
      KeptSynced env t (if isSlotBootable slot t.ptnEntries then t
        else (BootSlot.clearUnbootable env slot t).2) := by
    intro slot t ht hbt
    split
    · exact KeptSynced.refl ht
    · exact ht.clearUnbootable hbt slot
  have ha := hround slotA s h hb
  exact ha.trans (hround slotB _ ha.synced (ha.table hb))

namespace ActiveOn

/-- The program that starts finds slot `x`. -/
theorem start (h : ActiveOn env ix x s) :
    Synced env (startState env s)
      ∧ BootTable (startState env s).ptnEntries ix
      ∧ getActiveSlot env Slot.zero (startState env s)
        = (efiSuccess, x.slot, startState env s) := by
  have hb := h.table
  have hx := h.selectable
  have ho := h.other
  rw [← startState_entries] at hb hx ho
  exact ⟨startState_synced h.medium, hb,
    getActiveSlot_only env hb hx ho Slot.zero⟩

/-- Making a slot active, in a program that found one. -/
theorem activate {t : St} {y z : Side} {r f : Bool}
    (h : Synced env t) (hb : BootTable t.ptnEntries ix)
    (hx : Selectable (attr t.ptnEntries ix y)) :
    (setActiveSlot env z.slot r f t).1 = efiSuccess
      ∧ KeptSynced env t (setActiveSlot env z.slot r f t).2
      ∧ ActiveOn env ix z (setActiveSlot env z.slot r f t).2 := by
  have hfound : ∃ y s0, FoundSlot env ix t s0 y :=
    (foundSlot_iff env hb).mpr (Or.inl ⟨y, hx⟩)
  obtain ⟨y, s0, hf⟩ := hfound
  obtain ⟨hok, hn, hw⟩ := setActiveSlot_words (x := z) (r := r) (f := f)
    hb hf
  have hkept := h.setActiveSlot hb z r f
  exact ⟨hok, hkept, hw.activeOn hkept.synced (hb.of_names hn)⟩

/-- BootSlotDxe. -/
theorem bootSlotMain (h : ActiveOn env ix x s) :
    Completes env .bootSlotMain s
      ∧ ActiveOn env ix x (session env .bootSlotMain s)
      ∧ SameEntries env s (session env .bootSlotMain s) := by
  obtain ⟨hsync, hb, hget⟩ := h.start
  have hclear := hsync.clearSlots hb
  have hb' := hclear.table hb
  have hx := h.selectable
  rw [← startState_entries] at hx
  obtain ⟨hok, hkept, hact⟩ := activate (z := x) (r := false) (f := true)
    hclear.synced hb' (((clearSlots_words env hb).2 x).selectable.mpr hx)
  have hmain : BootSlot.bootSlotMain env (diskHandles env s) s.loaded
      = (efiSuccess, (setActiveSlot env x.slot false true
        (BootSlot.clearSlots env [slotA, slotB]
          (startState env s))).2) := by
    have hmulti := hb.multiSlot
    have hslot : (if isSuffixEmpty x.slot then slotA else x.slot)
        = x.slot := by
      cases x <;> rfl
    unfold BootSlot.bootSlotMain getCurrentSlotSuffix
    unfold startState enumeratedState at hmulti hget hok ⊢
    rw [if_neg h.medium.known]
    rw [enumeratePartitions_disk] at hmulti hget hok ⊢
    dsimp only at hmulti hget hok ⊢
    rw [if_neg not_efiError_efiSuccess, if_neg (not_not.mpr hmulti),
      if_pos hmulti, hget]
    dsimp only
    rw [hslot]
    generalize setActiveSlot env x.slot false true _ = r at hok ⊢
    obtain ⟨status, t⟩ := r
    dsimp only at hok ⊢
    rw [hok, if_neg not_efiError_efiSuccess]
  unfold session Completes
  dsimp only
  rw [hmain]
  dsimp only
  exact ⟨rfl, hact, (hclear.trans hkept).entries⟩

/-- SwitchSlotsApp. -/
theorem switchSlotsApp (h : ActiveOn env ix x s) :
    Completes env .switchSlotsApp s
      ∧ ActiveOn env ix x.other (session env .switchSlotsApp s)
      ∧ SameEntries env s (session env .switchSlotsApp s) := by
  obtain ⟨hsync, hb, hget⟩ := h.start
  have hx := h.selectable
  rw [← startState_entries] at hx
  obtain ⟨hok, hkept, hact⟩ := activate (z := x.other) (r := true)
    (f := false) hsync hb hx
  have happ : BootSlot.switchSlotsApp env (diskHandles env s) s.loaded
      = (.resetSystem, (setActiveSlot env x.other.slot true false
        (startState env s)).2) := by
    have hmulti := hb.multiSlot
    have hnone := hkept.synced.update_none
    have hempty : ¬ isSuffixEmpty x.slot = true := by
      cases x <;> decide
    have hslot : (if strnCmp x.slot.suffix slotA.suffix
        (strLen slotA.suffix) = 0 then slotB else slotA)
        = x.other.slot := by
      cases x <;> rfl
    unfold BootSlot.switchSlotsApp getCurrentSlotSuffix
    unfold startState enumeratedState at hmulti hget hok hnone ⊢
    rw [if_neg h.medium.known]
    rw [enumeratePartitions_disk] at hmulti hget hok hnone ⊢
    dsimp only at hmulti hget hok hnone ⊢
    rw [if_neg not_efiError_efiSuccess, if_neg (not_not.mpr hmulti),
      if_pos hmulti, hget]
    dsimp only
    rw [if_neg hempty, hslot]
    generalize setActiveSlot env x.other.slot true false _ = r
      at hok hnone ⊢
    obtain ⟨status, t⟩ := r
    dsimp only at hok hnone ⊢
    rw [hok, if_neg not_efiError_efiSuccess, hnone, hnone]
  unfold session Completes
  dsimp only
  rw [happ]
  dsimp only
  exact ⟨rfl, hact, hkept.entries⟩

end ActiveOn

-- ================================================================= the run

/-- The active slot after the sessions. -/
def slotAfter (x : Side) (ps : List Program) : Side :=
  if Even (ps.count .switchSlotsApp) then x else x.other

/-- The first program switches or does not, the others follow. -/
theorem slotAfter_cons (x : Side) (p : Program) (ps : List Program) :
    slotAfter x (p :: ps)
      = slotAfter (if p = .switchSlotsApp then x.other else x) ps := by
  unfold slotAfter
  rw [List.count_cons]
  by_cases hp : p = .switchSlotsApp
  · simp only [hp, beq_self_eq_true, if_true, Nat.even_add_one]
    by_cases hev : Even (ps.count .switchSlotsApp)
    · rw [if_neg (not_not.mpr hev), if_pos hev]
    · rw [if_pos hev, if_neg hev, Side.other_other]
  · simp [hp]

/-- Over any sequence of sessions of BootSlotDxe and SwitchSlotsApp on a
device with an active slot, none fails; the media keep two equal valid
GPTs, whose entries change in type GUIDs and attributes only; and the
next program finds the slot that was active at first, or the other one
after an odd number of switches. -/
theorem sessions_active (env : Env) (ix : Side → Nat) (x : Side) (s : St)
    (h : ActiveOn env ix x s) (ps : List Program) :
    EveryStep (session env) (Completes env) ps s
      ∧ GptDevice env (run (session env) ps s)
      ∧ SameEntries env s (run (session env) ps s)
      ∧ (getActiveSlot env Slot.zero
          (startState env (run (session env) ps s))).2.1
        = (slotAfter x ps).slot := by
  have hrun : EveryStep (session env) (Completes env) ps s
      ∧ SameEntries env s (run (session env) ps s)
      ∧ ActiveOn env ix (slotAfter x ps) (run (session env) ps s) := by
    induction ps generalizing x s with
    | nil => exact ⟨trivial, SameEntries.refl env s, h⟩
    | cons p ps ih =>
        rw [slotAfter_cons]
        cases p with
        | bootSlotMain =>
            obtain ⟨hdone, hact, hsame⟩ := h.bootSlotMain
            obtain ⟨hall, hrest, hend⟩ := ih _ _ hact
            exact ⟨⟨hdone, hall⟩, hsame.trans hrest, hend⟩
        | switchSlotsApp =>
            obtain ⟨hdone, hact, hsame⟩ := h.switchSlotsApp
            obtain ⟨hall, hrest, hend⟩ := ih _ _ hact
            exact ⟨⟨hdone, hall⟩, hsame.trans hrest, hend⟩
  obtain ⟨hall, hsame, hend⟩ := hrun
  refine ⟨hall, hend.medium, hsame, ?_⟩
  rw [hend.start.2.2]

/-- Slot `_a` is active on the sample. -/
theorem slotImage_active :
    ActiveOn sampleEnv slotIx .a (sampleOn slotImage) where
  medium := slotImage_device
  table := by
    rw [slotImage_entries]
    exact slotTable_boot
  selectable := by
    rw [slotImage_entries]
    exact ⟨by decide +kernel, by decide +kernel⟩
  other := by
    rw [slotImage_entries]
    decide +kernel

/-- A boot, a switch, and two boots: slot b is found. -/
theorem sessions_active_sample :
    (getActiveSlot sampleEnv Slot.zero (startState sampleEnv
      (run (session sampleEnv)
        [.bootSlotMain, .switchSlotsApp, .bootSlotMain, .bootSlotMain]
        (sampleOn slotImage)))).2.1 = slotB :=
  (sessions_active sampleEnv slotIx .a (sampleOn slotImage)
    slotImage_active _).2.2.2

end Edk2Exynos.BootSlot
