/-
The ACTIVE attribute over the whole table after a slot change.

# Every entry

`SlotInvariants` follows the words of the two boot entries; here every
entry of the table counts. Three of the writers on the way touch boot
entries only, `SwitchPtnSlots` touches type GUIDs only, and
`MarkPtnActive` comes last and decides ACTIVE for all: no other bit of
another entry changes, and the words it leaves are the ones it hands to
`UpdatePartitionAttributes`.

# What a name decides

`MarkPtnActive` looks for the suffix anywhere in the name, and in the
units behind a name without terminator. It marks what it should exactly
when each name in which it finds the suffix ends in it
(`activate_marks_iff`).
-/
import Edk2Exynos.BootSlot.SlotSwap

namespace Edk2Exynos.BootSlot

open Lib

variable {env : Env} {ix : Side → Nat}

-- ======================================================== what is expected

/-- The partition's name ends in the suffix of slot `x`. -/
def EndsIn (x : Side) (p : PartitionEntry) : Prop :=
  x.slot.suffix <:+ cstr p.partEntry.partitionName

/-- `StrStr` finds the suffix of slot `x` in the name. -/
def FoundIn (x : Side) (p : PartitionEntry) : Prop :=
  x.slot.suffix <:+: cstr p.name

instance (x : Side) (p : PartitionEntry) : Decidable (EndsIn x p) :=
  inferInstanceAs (Decidable (_ <:+ _))

instance (x : Side) (p : PartitionEntry) : Decidable (FoundIn x p) :=
  inferInstanceAs (Decidable (_ <:+: _))

/-- The table `t'` after a change to slot `x`, from the table `t`. -/
structure MarkedFor (x : Side) (t t' : List PartitionEntry) : Prop where
  active : ∀ k p, t[k]? = some p →
    (IsActive (attributesAt t' k) ↔ EndsIn x p)
  others : ∀ k, (∀ y : Side, getBootPartitionEntry y.slot t ≠ some k) →
    SameOutside partAttActiveVal (attributesAt t k) (attributesAt t' k)

/-- The last thing done was to ask for the attribute words of the table
to be stored. -/
def LastStored (env : Env) (s : St) : Prop :=
  ∃ s₀, s₀.ptnEntries = s.ptnEntries
    ∧ s = updatePartitionAttributes env .partitionAttributes s₀

-- ========================================================= the last writer

/-- A suffix has no terminator in it. -/
@[simp] theorem suffix_cstr (x : Side) :
    cstr x.slot.suffix = x.slot.suffix := by
  cases x <;> rfl

/-- The word of an entry after `MarkPtnActive`. -/
theorem markEntries_attributesAt {t : List PartitionEntry} {k : Nat}
    {p : PartitionEntry} (x : Side) (h : t[k]? = some p) :
    attributesAt (markEntries x.slot.suffix t) k
      = if FoundIn x p then attributesAt t k ||| partAttActiveVal
        else attributesAt t k &&& ~~~partAttActiveVal := by
  rw [attributesAt_eq, attributesAt_eq]
  unfold markEntries
  rw [List.getElem?_map, h]
  have hfind : strStr p.name x.slot.suffix = true ↔ FoundIn x p := by
    unfold strStr FoundIn
    rw [suffix_cstr, decide_eq_true_eq]
  simp only [Option.map_some, Option.getD_some]
  rw [if_congr hfind rfl rfl]
  split
  · rfl
  · rfl

/-- An entry is marked exactly when its name contains the suffix. -/
theorem markEntries_active {t : List PartitionEntry} {k : Nat}
    {p : PartitionEntry} (x : Side) (h : t[k]? = some p) :
    IsActive (attributesAt (markEntries x.slot.suffix t) k)
      ↔ FoundIn x p := by
  rw [markEntries_attributesAt x h]
  unfold IsActive
  split
  next hfound =>
    rw [or_and_fill (by decide)]
    exact ⟨fun _ => hfound, fun _ => by decide⟩
  next hfound =>
    rw [and_and_clear (by decide)]
    exact ⟨fun hcon => absurd rfl hcon, fun hcon => absurd hcon hfound⟩

/-- Marking changes no other bit of an entry. -/
theorem markEntries_others (x : Side) (t : List PartitionEntry) (k : Nat) :
    SameOutside partAttActiveVal (attributesAt t k)
      (attributesAt (markEntries x.slot.suffix t) k) := by
  cases h : t[k]? with
  | none =>
      have hmark : (markEntries x.slot.suffix t)[k]? = none := by
        unfold markEntries
        rw [List.getElem?_map, h]
        rfl
      rw [attributesAt_eq, attributesAt_eq, h, hmark]
      exact SameOutside.refl _ _
  | some p =>
      rw [markEntries_attributesAt x h]
      unfold SameOutside
      split
      · exact or_and_keep (by decide)
      · exact and_and_keep (by decide)

-- =================================================== the writers before it

/-- `GetActiveSlot` writes the word of `boot_a` at most. -/
theorem FoundSlot.others {s s0 : St} {y : Side} {k : Nat}
    (hf : FoundSlot env ix s s0 y) (h : BootTable s.ptnEntries ix)
    (hk : k ≠ ix .a) :
    attributesAt s0.ptnEntries k = attributesAt s.ptnEntries k := by
  by_cases hsel : ∃ x, Selectable (attr s.ptnEntries ix x)
  · obtain ⟨x, hx⟩ := hsel
    obtain ⟨z, -, hchosen⟩ := chosenSlot_selectable hx Slot.zero
    have hsame := hf.eq
    rw [getActiveSlot_chosen h hchosen, Prod.mk.injEq,
      Prod.mk.injEq] at hsame
    rw [hsame.2.2]
  · have hget := getActiveSlot_none env h fun x hx => hsel ⟨x, hx⟩
    rw [hf.eq] at hget
    split at hget
    · rw [Prod.mk.injEq, Prod.mk.injEq] at hget
      have hent : s0.ptnEntries
          = modifyAttributes (ix .a) firstBootAttributes s.ptnEntries := by
        rw [hget.2.2]
        exact (updatePartitionAttributes_frame env _ _).ptnEntries
      rw [hent]
      exact attributesAt_modify_other hk _
    · rw [Prod.mk.injEq] at hget
      exact absurd hget.1.symm efiNotFound_ne_efiSuccess

/-- The assignments of `SetActiveSlot` write the boot entries' words. -/
theorem storedState_others {s : St} {k : Nat} (x : Side) (r f : Bool)
    (hk : ∀ y, k ≠ ix y) :
    attributesAt (storedState env ix x r f s).ptnEntries k
      = attributesAt s.ptnEntries k := by
  have hent : (storedState env ix x r f s).ptnEntries
      = modifyAttributes (ix x.other) retireAttributes
        (modifyAttributes (ix x) (activateAttributes r f) s.ptnEntries) :=
    (updatePartitionAttributes_frame env _ _).ptnEntries
  rw [hent, attributesAt_modify_other (hk x.other),
    attributesAt_modify_other (hk x)]

/-- A slot change ends with `MarkPtnActive`, on a table with the names of
the first one and, away from the boot entries, its attribute words. -/
theorem Succeeds.change {c : Activation} {s : St} (h : Succeeds env c s)
    (hne : activeSlot env s ≠ c.slot.slot) :
    ∃ s₁, activate env c s = markPtnActive env c.slot.slot.suffix s₁
      ∧ SameNames s.ptnEntries s₁.ptnEntries
      ∧ ∀ k, (∀ y : Side,
          getBootPartitionEntry y.slot s.ptnEntries ≠ some k) →
        attributesAt s₁.ptnEntries k = attributesAt s.ptnEntries k := by
  obtain ⟨ix, y, s0, hb, hf⟩ := h.found
  have hb0 := hb.of_names hf.names
  have hxy : c.slot ≠ y := by
    intro heq
    apply hne
    unfold activeSlot
    rw [hf.eq, heq]
  obtain ⟨hnames, -⟩ := storedState_words env hb0 c.slot c.resetSuccessBit
    c.setSuccessBit
  have hguids := switchPtnSlots_guids env c.slot.slot.suffix
    (storedState env ix c.slot c.resetSuccessBit c.setSuccessBit s0)
  refine ⟨switchPtnSlots env c.slot.slot.suffix (storedState env ix c.slot
    c.resetSuccessBit c.setSuccessBit s0), ?_, ?_, ?_⟩
  · unfold activate
    rw [setActiveSlot_eq hf.eq hb0]
    unfold finishActivation
    rw [if_neg hxy]
  · exact (hf.names.trans hnames).trans hguids.names
  · intro k hk
    have hix : ∀ z, k ≠ ix z := by
      intro z heq
      apply hk z
      rw [getBootPartitionEntry_slot hb z, heq]
    rw [hguids.attributesAt, storedState_others _ _ _ hix,
      hf.others hb (hix .a)]

-- ============================================================ the outcome

/-- A string begins with what a shorter buffer holds of it. -/
theorem cstr_prefix_append (l r : List CHAR16) :
    cstr l <+: cstr (l ++ r) := by
  unfold cstr
  rw [List.takeWhile_append]
  split
  next hlen =>
    have hall : l.takeWhile (· ≠ 0) = l :=
      (List.takeWhile_prefix _).eq_of_length hlen
    rw [hall]
    exact List.prefix_append _ _
  next => exact List.prefix_refl _

/-- A suffix at the end of the name is found in it. -/
theorem EndsIn.foundIn {x : Side} {p : PartitionEntry} (h : EndsIn x p) :
    FoundIn x p :=
  h.isInfix.trans (cstr_prefix_append _ _).isInfix

/-- The entry in the same place has the same name. -/
theorem SameNames.getElem? {t t' : List PartitionEntry} {k : Nat}
    {p : PartitionEntry} (h : SameNames t t') (hp : t[k]? = some p) :
    ∃ p', t'[k]? = some p' ∧ p'.name = p.name := by
  have hk := congrArg (fun l : List (List CHAR16) => l[k]?) h
  simp only [List.getElem?_map, hp, Option.map_some] at hk
  exact Option.map_eq_some_iff.mp hk

/-- After a slot change ACTIVE is set where the suffix is found. -/
theorem Succeeds.active_iff {c : Activation} {s : St} {k : Nat}
    {p : PartitionEntry} (h : Succeeds env c s)
    (hne : activeSlot env s ≠ c.slot.slot)
    (hp : s.ptnEntries[k]? = some p) :
    IsActive (attributesAt (activate env c s).ptnEntries k)
      ↔ FoundIn c.slot p := by
  obtain ⟨s₁, heq, hnames, -⟩ := h.change hne
  obtain ⟨p', hp', hname⟩ := hnames.getElem? hp
  rw [heq, markPtnActive_entries, markEntries_active _ hp']
  unfold FoundIn
  rw [hname]

/-- For every table and every slot change: all other bits stay and the
words left are those handed to `UpdatePartitionAttributes` last, and
ACTIVE is set on exactly the partitions whose name ends in the new suffix
if and only if every name in which the suffix is found ends in it. -/
theorem activate_marks_iff (env : Env) (c : Activation) (s : St)
    (h : Succeeds env c s) (hne : activeSlot env s ≠ c.slot.slot) :
    (MarkedFor c.slot s.ptnEntries (activate env c s).ptnEntries
        ∧ LastStored env (activate env c s))
      ↔ ∀ p ∈ s.ptnEntries, FoundIn c.slot p → EndsIn c.slot p := by
  constructor
  · rintro ⟨hmarked, -⟩ p hmem hfound
    obtain ⟨k, hk⟩ := List.getElem?_of_mem hmem
    apply (hmarked.active k p hk).mp
    exact (h.active_iff hne hk).mpr hfound
  · intro hends
    obtain ⟨s₁, heq, -, hothers⟩ := h.change hne
    refine ⟨⟨?_, ?_⟩, ?_⟩
    · intro k p hk
      rw [h.active_iff hne hk]
      constructor
      · exact hends p (List.mem_of_getElem? hk)
      · exact EndsIn.foundIn
    · intro k hk
      rw [heq, markPtnActive_entries, ← hothers k hk]
      exact markEntries_others c.slot s₁.ptnEntries k
    · refine ⟨_, ?_, heq⟩
      rw [heq]
      exact (markPtnActive_entries env _ _).symm

-- ============================================================== a sample

/-- A switch to slot `_b` marks the right entries of the sample. -/
theorem activate_marks_sample :
    MarkedFor .b sampleSlots.ptnEntries
      (activate sampleEnv ⟨.b, false, true⟩ sampleSlots).ptnEntries := by
  have hok : Succeeds sampleEnv ⟨.b, false, true⟩ sampleSlots := by
    unfold Succeeds
    decide +kernel
  have hne : activeSlot sampleEnv sampleSlots ≠ Side.b.slot := by
    decide +kernel
  exact ((activate_marks_iff sampleEnv ⟨.b, false, true⟩ sampleSlots hok
    hne).mpr (by decide +kernel)).1

/-- "cust_backup" -/
def backupName : List CHAR16 :=
  [0x63, 0x75, 0x73, 0x74, 0x5f, 0x62, 0x61, 0x63, 0x6b, 0x75, 0x70]

/-- The sample with a partition that has no slots. -/
def backupSlots : St :=
  sampleSlots.withEntries
    (sampleSlots.ptnEntries ++ [sampleEntry backupName 4 0])

/-- The switch to `_b` makes "cust_backup" ACTIVE. -/
theorem activate_marks_backup :
    let c : Activation := ⟨.b, false, true⟩
    let s' := activate sampleEnv c backupSlots
    Succeeds sampleEnv c backupSlots
      ∧ activeSlot sampleEnv backupSlots = slotA
      ∧ IsActive (attributesAt s'.ptnEntries 3)
      ∧ ¬ MarkedFor .b backupSlots.ptnEntries s'.ptnEntries := by
  intro c s'
  have hok : Succeeds sampleEnv c backupSlots := by
    unfold Succeeds
    decide +kernel
  have hslot : activeSlot sampleEnv backupSlots = slotA := by
    decide +kernel
  have hne : activeSlot sampleEnv backupSlots ≠ Side.b.slot := by
    rw [hslot]
    decide
  have hp : backupSlots.ptnEntries[3]? = some (sampleEntry backupName 4 0) :=
    rfl
  have hactive : IsActive (attributesAt s'.ptnEntries 3) :=
    (hok.active_iff hne hp).mpr (by decide +kernel)
  refine ⟨hok, hslot, hactive, fun h => ?_⟩
  have hends := (h.active 3 _ hp).mp hactive
  exact absurd hends (by decide +kernel)

end Edk2Exynos.BootSlot
