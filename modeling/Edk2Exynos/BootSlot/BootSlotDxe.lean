/-
The boot-time routine of BootSlotDxe: find the current slot, clear the
unbootable marks, and make the current slot active and successful again.

# When it repairs the table

The routine falls back to slot `_a` when no slot is active, and then
calls `SetActiveSlot`, which asks `GetActiveSlot` again before it does
anything. So the fall-back only gets through when that second call
succeeds, which without an active slot means the first-boot rule:
`boot_a` must look untouched. `bootSlotMain_repairs_iff` is the exact
condition.
-/
import Edk2Exynos.BootSlot.Enumerate
import Edk2Exynos.BootSlot.SlotInvariants

namespace Edk2Exynos.BootSlot

open Lib

-- =========================================================== the routine

/-- The loop over both slots. -/
def clearSlots (env : Env) : List Slot → St → St
  | [], s => s
  | slot :: slots, s =>
      clearSlots env slots
        (if isSlotBootable slot s.ptnEntries then s
          else (clearUnbootable env slot s).2)

/-- `BootSlotMain` -/
def bootSlotMain (env : Env) (handles : BlkIoHandles) (s : St) :
    EfiStatus × St :=
  if env.rootDeviceType = .unknown then (efiSuccess, s) else
  match enumeratePartitions handles s with
  | (status, ptable, s) =>
  if efiError status then (status, s) else
  let s := updatePartitionEntries ptable s
  if ¬ partitionHasMultiSlot bootName s.ptnEntries then (efiSuccess, s) else
  match getCurrentSlotSuffix env s with
  | (currentSlot, s) =>
  let currentSlot := if isSuffixEmpty currentSlot then slotA
    else currentSlot
  match setActiveSlot env currentSlot false true
      (clearSlots env [slotA, slotB] s) with
  | (status, s) => if efiError status then (status, s) else (efiSuccess, s)

variable {env : Env} {ix : Side → Nat}

-- ================================================== multi-slot detection

/-- Inside a string the units are those of its content. -/
theorem getD_of_cstr {l : List CHAR16} {k : Nat}
    (h : k < (cstr l).length) : l.getD k 0 = (cstr l).getD k 0 := by
  obtain ⟨rest, hrest⟩ := List.takeWhile_prefix (p := fun x : CHAR16 =>
    decide (x ≠ 0)) (l := l)
  have hl : l = cstr l ++ rest := hrest.symm
  conv_lhs => rw [hl]
  exact List.getD_append _ _ _ _ h

/-- Two places that satisfy a test count twice. -/
theorem one_lt_countP {β : Type} {p : β → Bool} {l : List β} {i j : Nat}
    (hij : i < j) (hi : i < l.length) (hj : j < l.length)
    (hi' : p l[i] = true) (hj' : p l[j] = true) :
    1 < l.countP p := by
  have hsplit : l = l.take i ++ l[i] :: l.drop (i + 1) := by
    rw [← List.drop_eq_getElem_cons, List.take_append_drop]
  have hmem : l[j] ∈ l.drop (i + 1) := by
    rw [List.mem_iff_getElem]
    refine ⟨j - (i + 1), by rw [List.length_drop]; omega, ?_⟩
    rw [List.getElem_drop]
    congr 1
    omega
  have hpos : 0 < (l.drop (i + 1)).countP p :=
    List.countP_pos_iff.mpr ⟨_, hmem, hj'⟩
  rw [hsplit, List.countP_append, List.countP_cons_of_pos hi']
  omega

/-- A table with both boot entries has more than one slot. -/
theorem BootTable.multiSlot {t : List PartitionEntry}
    (h : BootTable t ix) : partitionHasMultiSlot bootName t = true := by
  have hname : ∀ x : Side,
      (fun p : PartitionEntry => strnCmp p.name bootName (strLen bootName)
          == 0
        && p.name.getD (strLen bootName) 0 == 0x5f
        && (p.name.getD (strLen bootName + 1) 0 == 0x61
          || p.name.getD (strLen bootName + 1) 0 == 0x62))
        (t.get ⟨ix x, h.lt x⟩) = true := by
    intro x
    have hc := h.name_eq x
    have h6 : (cstr (t.get ⟨ix x, h.lt x⟩).name).length = 6 := by
      rw [hc]
      cases x <;> rfl
    have hcmp : strnCmp (t.get ⟨ix x, h.lt x⟩).name bootName
        (strLen bootName) = 0 := by
      rw [strnCmp_strLen_eq_zero_iff, hc]
      cases x <;> decide
    have hlen : strLen bootName = 4 := rfl
    have h4 := getD_of_cstr (l := (t.get ⟨ix x, h.lt x⟩).name) (k := 4)
      (by omega)
    have h5 := getD_of_cstr (l := (t.get ⟨ix x, h.lt x⟩).name) (k := 5)
      (by omega)
    rw [hc] at h4 h5
    dsimp only
    rw [hcmp, hlen, h4, h5]
    cases x <;> decide
  unfold partitionHasMultiSlot
  rw [decide_eq_true_eq]
  rcases Nat.lt_or_gt_of_ne (h.ne .a) with hlt | hgt
  · exact one_lt_countP hlt (h.lt .b) (h.lt .a) (hname .b) (hname .a)
  · exact one_lt_countP hgt (h.lt .a) (h.lt .b) (hname .a) (hname .b)

-- ==================================================== clearing the marks

variable (env) in
/-- One round of the loop. -/
theorem clearSlot_words {s : St} (h : BootTable s.ptnEntries ix)
    (x : Side) :
    let s' := if isSlotBootable x.slot s.ptnEntries then s
      else (clearUnbootable env x.slot s).2
    SameNames s.ptnEntries s'.ptnEntries
      ∧ attr s'.ptnEntries ix x.other = attr s.ptnEntries ix x.other
      ∧ ¬ IsUnbootable (attr s'.ptnEntries ix x)
      ∧ SameOutside (partAttUnbootableVal ||| partAttMaxRetryCountVal)
          (attr s.ptnEntries ix x) (attr s'.ptnEntries ix x) := by
  intro s'
  have hx := getBootPartitionEntry_slot h x
  by_cases hboot : isSlotBootable x.slot s.ptnEntries = true
  · have hs' : s' = s := if_pos hboot
    rw [hs']
    refine ⟨rfl, rfl, ?_, SameOutside.refl _ _⟩
    unfold isSlotBootable at hboot
    rw [hx] at hboot
    dsimp only at hboot
    rw [Bool.and_eq_true, beq_iff_eq] at hboot
    exact not_not.mpr hboot.1
  · have hs' : s'.ptnEntries
        = modifyAttributes (ix x) clearAttributes s.ptnEntries := by
      show (if isSlotBootable x.slot s.ptnEntries then s
        else (clearUnbootable env x.slot s).2).ptnEntries = _
      rw [if_neg hboot]
      unfold clearUnbootable
      rw [hx]
      exact (updatePartitionAttributes_frame env _ _).ptnEntries
    obtain ⟨hun, -, hsame⟩ := clearAttributes_spec (attr s.ptnEntries ix x)
    rw [hs', attr_modify_same h, attr_modify_other h]
    exact ⟨modifyAttributes_names _ _ _, rfl, hun, hsame⟩

/-- A boot entry's word as the loop leaves it. -/
structure Cleared (a a' : UINT64) : Prop where
  bootable : ¬ IsUnbootable a'
  same : SameOutside (partAttUnbootableVal ||| partAttMaxRetryCountVal) a a'

/-- Clearing UNBOOTABLE leaves ACTIVE. -/
theorem Cleared.active {a a' : UINT64} (h : Cleared a a') :
    IsActive a' ↔ IsActive a := by
  unfold IsActive
  rw [h.same.field (by decide)]

/-- Clearing UNBOOTABLE leaves SUCCESSFUL. -/
theorem Cleared.successful {a a' : UINT64} (h : Cleared a a') :
    IsSuccessful a' ↔ IsSuccessful a := by
  unfold IsSuccessful
  rw [h.same.field (by decide)]

/-- Clearing UNBOOTABLE leaves the priority. -/
theorem Cleared.priority_eq {a a' : UINT64} (h : Cleared a a') :
    priority a' = priority a := by
  unfold priority
  rw [h.same.field (by decide)]

/-- Clearing UNBOOTABLE leaves a slot as selectable as it was. -/
theorem Cleared.selectable {a a' : UINT64} (h : Cleared a a') :
    Selectable a' ↔ Selectable a := by
  unfold Selectable
  rw [h.active, h.priority_eq]

variable (env) in
/-- The driver clears UNBOOTABLE of both boot entries, and nothing else. -/
theorem clearSlots_words {s : St} (h : BootTable s.ptnEntries ix) :
    SameNames s.ptnEntries (clearSlots env [slotA, slotB] s).ptnEntries
      ∧ ∀ x, Cleared (attr s.ptnEntries ix x)
          (attr (clearSlots env [slotA, slotB] s).ptnEntries ix x) := by
  obtain ⟨hn1, ho1, hu1, hs1⟩ := clearSlot_words env h .a
  obtain ⟨hn2, ho2, hu2, hs2⟩ :=
    clearSlot_words env (h.of_names hn1) .b
  refine ⟨hn1.trans hn2, fun x => ?_⟩
  cases x with
  | a =>
      refine ⟨?_, ?_⟩
      · exact fun hcon => hu1 (ho2 ▸ hcon)
      · exact ho2 ▸ hs1
  | b =>
      refine ⟨hu2, ?_⟩
      exact ho1 ▸ hs2

-- ============================================================ the repair

/-- `boot_a` as the fall-back to slot `_a` needs it: the first-boot rule
applies once its UNBOOTABLE bit is cleared. -/
def IsUntouched (a : UINT64) : Prop :=
  ¬ IsActive a ∧ ¬ IsSuccessful a ∧ priority a = 0

/-- The words of a repaired table. -/
def Repaired (w : Side → UINT64) : Prop :=
  ∃ x : Side, IsActive (w x) ∧ ¬ IsActive (w x.other)
    ∧ IsSuccessful (w x) ∧ ∀ y, ¬ IsUnbootable (w y)

/-- A first boot is a slot that nobody has touched or marked. -/
theorem isFirstBoot_iff (a : UINT64) :
    IsFirstBoot a ↔ IsUntouched a ∧ ¬ IsUnbootable a := by
  unfold IsFirstBoot IsUntouched IsActive IsSuccessful IsUnbootable
  constructor
  · rintro ⟨h1, h2, h3, h4⟩
    exact ⟨⟨not_not.mpr h1, not_not.mpr h2, h4⟩, not_not.mpr h3⟩
  · rintro ⟨⟨h1, h2, h4⟩, h3⟩
    exact ⟨not_not.mp h1, not_not.mp h2, not_not.mp h3, h4⟩

/-- Clearing UNBOOTABLE leaves a slot as untouched as it was. -/
theorem Cleared.untouched {a a' : UINT64} (h : Cleared a a') :
    IsUntouched a' ↔ IsUntouched a := by
  unfold IsUntouched
  rw [h.active, h.successful, h.priority_eq]

variable (env) in
/-- When `GetActiveSlot` returns a slot. -/
theorem foundSlot_iff {s : St} (h : BootTable s.ptnEntries ix) :
    (∃ y s0, FoundSlot env ix s s0 y)
      ↔ (∃ x, Selectable (attr s.ptnEntries ix x))
        ∨ IsFirstBoot (attr s.ptnEntries ix .a) := by
  rcases getActiveSlot_cases env h with hfound | hnone
  · refine ⟨fun _ => ?_, fun _ => hfound⟩
    by_contra hcon
    rw [not_or, not_exists] at hcon
    obtain ⟨y, s0, hf⟩ := hfound
    have heq := hf.eq
    rw [getActiveSlot_none env h hcon.1, if_neg hcon.2] at heq
    exact absurd (congrArg Prod.fst heq)
      efiNotFound_ne_efiSuccess
  · refine ⟨fun hfound => ?_, fun hor => ?_⟩
    · obtain ⟨y, s0, hf⟩ := hfound
      have heq := hf.eq
      rw [hnone.1] at heq
      exact absurd (congrArg Prod.fst heq)
        efiNotFound_ne_efiSuccess
    · rcases hor with ⟨x, hx⟩ | hfirst
      · exact absurd hx (hnone.2.1 x)
      · exact absurd hfirst hnone.2.2

/-- The last step: it repairs a table without unbootable slots if
`GetActiveSlot` returns a slot, and else fails. -/
theorem setActiveSlot_repairs_iff {s : St} (h : BootTable s.ptnEntries ix)
    (hboot : ∀ y, ¬ IsUnbootable (attr s.ptnEntries ix y)) (x : Side) :
    let r := setActiveSlot env x.slot false true s
    (r.1 = efiSuccess ∧ Repaired (attr r.2.ptnEntries ix))
      ↔ ∃ y s0, FoundSlot env ix s s0 y := by
  intro r
  constructor
  · rintro ⟨hok, -⟩
    rcases getActiveSlot_cases env h with hfound | hnone
    · exact hfound
    · have hfail : r = (efiNotFound, s) := setActiveSlot_fails hnone.1
      rw [hfail] at hok
      exact absurd hok efiNotFound_ne_efiSuccess
  · rintro ⟨y, s0, hf⟩
    obtain ⟨hok, -, hw⟩ := setActiveSlot_words (x := x) (r := false)
      (f := true) h hf
    refine ⟨hok, x, hw.activated.active, hw.otherInactive,
      hw.successful.mpr (Or.inl rfl), fun z => ?_⟩
    have hother : ¬ IsUnbootable
        (firstBootRule (attr s.ptnEntries ix) x.other) := by
      cases x with
      | a => exact hboot .b
      | b =>
          show ¬ IsUnbootable (if _ then _ else _)
          split
          · exact hboot .a
          · exact (firstBootAttributes_spec _).1.bootable
    rcases x.eq_or_other z with rfl | rfl
    · exact hw.activated.bootable
    · unfold IsUnbootable at hother ⊢
      rw [hw.otherSame.field (by decide)]
      exact hother

/-- The routine after the enumeration. -/
theorem bootSlotMain_eq {handles : BlkIoHandles} {s : St}
    (hdev : env.rootDeviceType ≠ .unknown)
    (hio : ∀ d, (handles d).1 = efiSuccess)
    (h : BootTable (enumeratedState handles s).ptnEntries ix) :
    ∃ (x : Side) (s1 : St),
      BootTable s1.ptnEntries ix
      ∧ ((∃ y s0, FoundSlot env ix s1 s0 y) ↔
          (∃ y, Selectable (attr (enumeratedState handles s).ptnEntries
            ix y))
          ∨ IsUntouched (attr (enumeratedState handles s).ptnEntries ix .a))
      ∧ (∀ y, ¬ IsUnbootable (attr s1.ptnEntries ix y))
      ∧ bootSlotMain env handles s
        = match setActiveSlot env x.slot false true s1 with
          | (status, s) =>
            if efiError status then (status, s) else (efiSuccess, s) := by
  have hmain : bootSlotMain env handles s
      = let r := getActiveSlot env Slot.zero (enumeratedState handles s)
        match setActiveSlot env
            (if isSuffixEmpty r.2.1 then slotA else r.2.1) false true
            (clearSlots env [slotA, slotB] r.2.2) with
        | (status, s) =>
          if efiError status then (status, s) else (efiSuccess, s) := by
    have hok := enumeratePartitions_ok hio s
    have hmulti := h.multiSlot
    unfold enumeratedState at hmulti ⊢
    unfold bootSlotMain getCurrentSlotSuffix
    rw [if_neg hdev]
    generalize enumeratePartitions handles s = e at hok hmulti ⊢
    obtain ⟨status, ptable, s'⟩ := e
    dsimp only at hok hmulti ⊢
    rw [hok, if_neg not_efiError_efiSuccess,
      if_neg (not_not.mpr hmulti), if_pos hmulti]
  generalize enumeratedState handles s = s' at h hmain ⊢
  rcases getActiveSlot_cases env h with ⟨y, s0, hf⟩ | hnone
  · have h0 := h.of_names hf.names
    obtain ⟨hn, hc⟩ := clearSlots_words env h0
    have hfound : ∃ z s2, FoundSlot env ix
        (clearSlots env [slotA, slotB] s0) s2 z :=
      (foundSlot_iff env (h0.of_names hn)).mpr
        (Or.inl ⟨y, (hc y).selectable.mpr hf.selectable⟩)
    refine ⟨y, _, h0.of_names hn, ⟨fun _ => ?_, fun _ => hfound⟩,
      fun z => (hc z).bootable, ?_⟩
    · rcases (foundSlot_iff env h).mp ⟨y, s0, hf⟩ with hsel | hfirst
      · exact Or.inl hsel
      · exact Or.inr ((isFirstBoot_iff _).mp hfirst).1
    · have hne : (if isSuffixEmpty y.slot then slotA else y.slot)
          = y.slot := by
        cases y <;> rfl
      rw [hmain, hf.eq]
      dsimp only
      rw [hne]
  · obtain ⟨hn, hc⟩ := clearSlots_words env h
    refine ⟨.a, _, h.of_names hn, ?_, fun z => (hc z).bootable, ?_⟩
    · rw [foundSlot_iff env (h.of_names hn), isFirstBoot_iff,
        (hc .a).untouched, and_iff_left (hc .a).bootable]
      exact or_congr (exists_congr fun y => (hc y).selectable) Iff.rfl
    · have hempty : (if isSuffixEmpty Slot.zero then slotA else Slot.zero)
          = Side.a.slot := rfl
      rw [hmain, hnone.1]
      dsimp only
      rw [hempty]

/-- `BootSlotMain` succeeds and repairs the boot entries exactly when one
of them can be selected, or `boot_a` is untouched. -/
theorem bootSlotMain_repairs_iff (env : Env) (handles : BlkIoHandles)
    (ix : Side → Nat) (s : St) (hdev : env.rootDeviceType ≠ .unknown)
    (hio : ∀ d, (handles d).1 = efiSuccess)
    (h : BootTable (enumeratedState handles s).ptnEntries ix) :
    let w := attr (enumeratedState handles s).ptnEntries ix
    let r := bootSlotMain env handles s
    (r.1 = efiSuccess ∧ Repaired (attr r.2.ptnEntries ix))
      ↔ (∃ x, Selectable (w x)) ∨ IsUntouched (w .a) := by
  intro w r
  obtain ⟨x, s1, h1, hfound, hboot, hmain⟩ := bootSlotMain_eq hdev hio h
  have hr : r = setActiveSlot env x.slot false true s1 := by
    show bootSlotMain env handles s = _
    rw [hmain]
    rcases getActiveSlot_cases env h1 with ⟨y, s0, hf⟩ | hnone
    · have hok := (setActiveSlot_words (x := x) (r := false) (f := true)
        h1 hf).1
      generalize setActiveSlot env x.slot false true s1 = r' at hok
      obtain ⟨status, s2⟩ := r'
      dsimp only at hok ⊢
      rw [hok]
      rfl
    · rw [setActiveSlot_fails hnone.1]
      rfl
  rw [hr]
  exact (setActiveSlot_repairs_iff h1 hboot x).trans hfound

/-- A UFS device whose LUN 0 holds `boot_a` and `boot_b` with given
attribute words. -/
def bootHandles (a b : UINT64) : BlkIoHandles := fun lun =>
  (efiSuccess, if lun = some 0 then
      [some (sampleEntry (bootName ++ suffixA) 1 a).partEntry,
        some (sampleEntry (bootName ++ suffixB) 2 b).partEntry]
    else [])

/-- Every lookup succeeds. -/
theorem bootHandles_ok (a b : UINT64) :
    ∀ d, ((bootHandles a b) d).1 = efiSuccess := fun _ => rfl

/-- On a device with `boot_a` UNBOOTABLE the driver repairs both slots. -/
theorem bootSlotMain_repairs_iff_sample :
    let handles := bootHandles partAttUnbootableVal 0
    let r := bootSlotMain sampleEnv handles sampleState
    r.1 = efiSuccess ∧ Repaired (attr r.2.ptnEntries sampleIx) :=
  (bootSlotMain_repairs_iff sampleEnv (bootHandles partAttUnbootableVal 0)
    sampleIx sampleState (by decide) (bootHandles_ok _ _)
    ⟨fun x => by cases x <;> decide +kernel⟩).mpr
    (Or.inr (by unfold IsUntouched; decide +kernel))

/-- Two boot entries that are SUCCESSFUL but not ACTIVE are beyond the
routine: it reports `EFI_NOT_FOUND` and leaves no slot ACTIVE. -/
theorem bootSlotMain_gives_up :
    let handles := bootHandles partAttSuccessfulVal partAttSuccessfulVal
    let r := bootSlotMain sampleEnv handles sampleState
    BootTable (enumeratedState handles sampleState).ptnEntries sampleIx
      ∧ r.1 = efiNotFound
      ∧ ¬ (r.1 = efiSuccess ∧ Repaired (attr r.2.ptnEntries sampleIx)) := by
  intro handles r
  have hstatus : r.1 = efiNotFound := by decide +kernel
  refine ⟨⟨fun x => ?_⟩, hstatus, fun h => ?_⟩
  · cases x <;> decide +kernel
  · rw [hstatus] at h
    exact absurd h.1 efiNotFound_ne_efiSuccess

end Edk2Exynos.BootSlot
