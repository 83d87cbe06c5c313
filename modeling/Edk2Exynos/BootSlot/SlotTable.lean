/-
The slot functions on a table that contains `boot_a` and `boot_b`, as
functions of the two boot entries' attribute words.

# Two sides

`Side` names the two slots; `BootTable t ix` says where `GetPartitionIndex`
finds their boot entries. Every function here rewrites attributes or type
GUIDs and leaves all names alone, so the indices of one table are those
of every later one (`BootTable.of_names`), and the functions act on the
words `attr t ix` at these two places. Each gets one lemma that states
its status and that action.
-/
import Edk2Exynos.BootSlot.Format
import Edk2Exynos.BootSlot.SlotAttributes

namespace Edk2Exynos.BootSlot

open Lib

-- ================================================================= sides

/-- The two slots of a device. -/
inductive Side where
  | a
  | b
  deriving DecidableEq

/-- The other slot. -/
def Side.other : Side → Side
  | .a => .b
  | .b => .a

/-- The slot with its suffix. -/
def Side.slot : Side → Slot
  | .a => slotA
  | .b => slotB

@[simp] theorem Side.other_other (x : Side) : x.other.other = x := by
  cases x <;> rfl

/-- The two slots differ. -/
theorem Side.other_ne (x : Side) : x.other ≠ x := by
  cases x <;> decide

theorem Side.eq_or_other (x y : Side) : y = x ∨ y = x.other := by
  cases x <;> cases y <;> decide

/-- Slots with the same suffix are the same. -/
theorem Side.slot_inj {x y : Side} : x.slot = y.slot ↔ x = y := by
  cases x <;> cases y <;> decide

/-- Where the boot entries of the two slots are. -/
structure BootTable (t : List PartitionEntry) (ix : Side → Nat) :
    Prop where
  index : ∀ x : Side,
    getPartitionIndex (bootName ++ x.slot.suffix) t = some (ix x)

-- ========================================================== table frames

/-- The same names in the same places. -/
def SameNames (t t' : List PartitionEntry) : Prop :=
  t'.map PartitionEntry.name = t.map PartitionEntry.name

theorem SameNames.trans {t t' t'' : List PartitionEntry}
    (h : SameNames t t') (h' : SameNames t' t'') : SameNames t t'' :=
  Eq.trans h' h

theorem SameNames.length {t t' : List PartitionEntry}
    (h : SameNames t t') : t'.length = t.length := by
  have hl := congrArg List.length h
  rw [List.length_map, List.length_map] at hl
  exact hl

/-- The search looks at names only. -/
theorem getPartitionIndex_eq (pname : List CHAR16)
    (t : List PartitionEntry) :
    getPartitionIndex pname t = (t.map PartitionEntry.name).findIdx?
      fun n => strnCmp n pname partitionNameSize == 0 := by
  unfold getPartitionIndex
  rw [List.findIdx?_map]
  rfl

/-- A table with the same names has its boot entries in the same places. -/
theorem BootTable.of_names {t t' : List PartitionEntry} {ix : Side → Nat}
    (h : BootTable t ix) (hn : SameNames t t') : BootTable t' ix where
  index := fun x => by
    rw [getPartitionIndex_eq, hn, ← getPartitionIndex_eq]
    exact h.index x

/-- The boot entries are in the table. -/
theorem BootTable.lt {t : List PartitionEntry} {ix : Side → Nat}
    (h : BootTable t ix) (x : Side) : ix x < t.length := by
  have hx := h.index x
  unfold getPartitionIndex at hx
  rw [List.findIdx?_eq_some_iff_getElem] at hx
  exact hx.1

/-- A boot entry has the name it was searched by. -/
theorem BootTable.name_eq {t : List PartitionEntry} {ix : Side → Nat}
    (h : BootTable t ix) (x : Side) :
    cstr (t.get ⟨ix x, h.lt x⟩).name = bootName ++ x.slot.suffix := by
  have hx := h.index x
  unfold getPartitionIndex at hx
  rw [List.findIdx?_eq_some_iff_getElem] at hx
  obtain ⟨hlt, hname, -⟩ := hx
  rw [beq_iff_eq, strnCmp_eq_zero_iff] at hname
  have hboot : (cstr (bootName ++ x.slot.suffix)).take partitionNameSize
      = bootName ++ x.slot.suffix := by
    cases x <;> rfl
  rw [hboot] at hname
  have hlen := congrArg List.length hname
  have h6 : (bootName ++ x.slot.suffix).length = 6 := by cases x <;> rfl
  rw [List.length_take, h6] at hlen
  rw [List.get_eq_getElem, ← hname, List.take_of_length_le]
  simp only [partitionNameSize] at hlen ⊢
  omega

/-- The boot entries are two. -/
theorem BootTable.ne {t : List PartitionEntry} {ix : Side → Nat}
    (h : BootTable t ix) (x : Side) : ix x.other ≠ ix x := by
  intro heq
  have hn := h.name_eq x
  have hn' := h.name_eq x.other
  simp only [heq] at hn'
  rw [hn] at hn'
  cases x <;> exact absurd hn' (by decide)

/-- The boot entry of a slot is found. -/
theorem getBootPartitionEntry_slot {t : List PartitionEntry}
    {ix : Side → Nat} (h : BootTable t ix) (x : Side) :
    getBootPartitionEntry x.slot t = some (ix x) := by
  unfold getBootPartitionEntry
  cases x with
  | a =>
      rw [if_pos (by decide)]
      exact h.index .a
  | b =>
      rw [if_neg (by decide), if_pos (by decide)]
      exact h.index .b

-- ================================================ one entry's attributes

/-- Modifying one entry keeps what the modification keeps of it. -/
theorem map_modify_of_keeps {α β : Type} {g : α → β} {f : α → α}
    (h : ∀ a, g (f a) = g a) (i : Nat) (l : List α) :
    (l.modify i f).map g = l.map g := by
  apply List.ext_getElem?
  intro k
  rw [List.getElem?_map, List.getElem?_modify, List.getElem?_map]
  cases l[k]? with
  | none => rfl
  | some a =>
      by_cases hk : i = k
      · simp only [hk, if_true, Option.map_some]
        exact congrArg some (h a)
      · simp only [hk, if_false, Option.map_some]
        rfl

/-- A change of attributes leaves the names. -/
theorem modifyAttributes_names (i : Nat) (f : UINT64 → UINT64)
    (t : List PartitionEntry) : SameNames t (modifyAttributes i f t) := by
  unfold SameNames modifyAttributes
  apply map_modify_of_keeps
  intro p
  rfl

theorem attributesAt_eq (t : List PartitionEntry) (k : Nat) :
    attributesAt t k
      = ((t[k]?).map fun p => p.partEntry.attributes).getD 0 := by
  unfold attributesAt
  rw [List.getD_eq_getElem?_getD]
  cases t[k]? with
  | none => rfl
  | some p => rfl

/-- The entry that is changed has the new word. -/
theorem attributesAt_modify_same {t : List PartitionEntry} {i : Nat}
    (h : i < t.length) (f : UINT64 → UINT64) :
    attributesAt (modifyAttributes i f t) i = f (attributesAt t i) := by
  rw [attributesAt_eq, attributesAt_eq]
  unfold modifyAttributes
  rw [List.getElem?_modify, List.getElem?_eq_getElem h]
  simp [PartitionEntry.withAttributes]

/-- Every other entry has its old one. -/
theorem attributesAt_modify_other {t : List PartitionEntry} {i k : Nat}
    (h : k ≠ i) (f : UINT64 → UINT64) :
    attributesAt (modifyAttributes i f t) k = attributesAt t k := by
  rw [attributesAt_eq, attributesAt_eq]
  unfold modifyAttributes
  rw [List.getElem?_modify]
  cases t[k]? with
  | none => rfl
  | some p => simp [h.symm]

/-- The attribute words of the two boot entries. -/
def attr (t : List PartitionEntry) (ix : Side → Nat) (x : Side) : UINT64 :=
  attributesAt t (ix x)

variable {t : List PartitionEntry} {ix : Side → Nat}

/-- The slot whose boot entry is changed has the new word. -/
theorem attr_modify_same (h : BootTable t ix) (x : Side)
    (f : UINT64 → UINT64) :
    attr (modifyAttributes (ix x) f t) ix x = f (attr t ix x) :=
  attributesAt_modify_same (h.lt x) f

/-- The other slot has its old one. -/
theorem attr_modify_other (h : BootTable t ix) (x : Side)
    (f : UINT64 → UINT64) :
    attr (modifyAttributes (ix x) f t) ix x.other = attr t ix x.other :=
  attributesAt_modify_other (h.ne x) f

/-- A change of attributes leaves the boot entries where they are. -/
theorem BootTable.modify (h : BootTable t ix) (i : Nat)
    (f : UINT64 → UINT64) : BootTable (modifyAttributes i f t) ix :=
  h.of_names (modifyAttributes_names i f t)

-- ======================================================= the active slot

/-- The slot the loop of `GetActiveSlot` ends with, on boot entries with
attribute words `w`. -/
def chosenSlot (w : Side → UINT64) (activeSlot : Slot) : Slot :=
  if Selectable (w .b) ∧ (Selectable (w .a) →
    priority (w .a) < priority (w .b)) then slotB
  else if Selectable (w .a) then slotA
  else activeSlot

/-- A selectable boot entry is chosen when there is one. -/
theorem chosenSlot_selectable {w : Side → UINT64} {x : Side}
    (hx : Selectable (w x)) (activeSlot : Slot) :
    ∃ y : Side, Selectable (w y) ∧ chosenSlot w activeSlot = y.slot := by
  unfold chosenSlot
  split
  next h => exact ⟨.b, h.1, rfl⟩
  next h =>
    have ha : Selectable (w .a) := by
      cases x with
      | a => exact hx
      | b =>
          by_contra ha
          exact h ⟨hx, fun ha' => absurd ha' ha⟩
    rw [if_pos ha]
    exact ⟨.a, ha, rfl⟩

/-- Without a selectable slot the answer is the one given. -/
theorem chosenSlot_none {w : Side → UINT64}
    (h : ∀ x, ¬ Selectable (w x)) (activeSlot : Slot) :
    chosenSlot w activeSlot = activeSlot := by
  unfold chosenSlot
  rw [if_neg fun hb => h .b hb.1, if_neg (h .a)]

/-- The loop over the slots chooses by the words of the boot entries. -/
theorem findActiveSlot_eq (h : BootTable t ix) (activeSlot : Slot) :
    findActiveSlot t [slotA, slotB] activeSlot 0
      = (efiSuccess, chosenSlot (attr t ix) activeSlot) := by
  have ha := getBootPartitionEntry_slot h .a
  have hb := getBootPartitionEntry_slot h .b
  have hcpy : ∀ (x : Side) (d : List CHAR16), strnCpyS d maxSlotSuffixSz
      x.slot.suffix (strLen x.slot.suffix)
        = (efiSuccess, x.slot.suffix) := by
    intro x d
    cases x <;> rfl
  have hsucc : ¬ efiSuccess ≠ efiSuccess := fun hne => hne rfl
  -- the second round, from any slot and priority found in the first
  have hsecond : ∀ (cur : Slot) (prio : UINT64),
      findActiveSlot t [slotB] cur prio
        = (efiSuccess, if IsActive (attr t ix .b)
            ∧ prio < priority (attr t ix .b) then slotB else cur) := by
    intro cur prio
    unfold findActiveSlot
    rw [show slotB = Side.b.slot from rfl, hb]
    dsimp only
    rw [hcpy]
    dsimp only
    rw [if_neg hsucc]
    show (if IsActive (attr t ix .b) ∧ prio < priority (attr t ix .b)
      then _ else _) = _
    split
    · rfl
    · rfl
  unfold findActiveSlot
  rw [show slotA = Side.a.slot from rfl, ha]
  dsimp only
  rw [hcpy]
  dsimp only
  rw [if_neg hsucc]
  show (if Selectable (attr t ix .a) then _ else _) = _
  unfold chosenSlot
  split
  next hsel =>
    have hiff : IsActive (attr t ix .b)
          ∧ priority (attr t ix .a) < priority (attr t ix .b)
        ↔ Selectable (attr t ix .b) ∧ (Selectable (attr t ix .a) →
          priority (attr t ix .a) < priority (attr t ix .b)) := by
      constructor
      · rintro ⟨hact, hlt⟩
        refine ⟨⟨hact, ?_⟩, fun _ => hlt⟩
        have h0 := hsel.2
        bv_omega
      · rintro ⟨hselb, himp⟩
        exact ⟨hselb.1, himp hsel⟩
    refine (hsecond _ _).trans (congrArg (Prod.mk efiSuccess) ?_)
    exact if_congr hiff rfl rfl
  next hsel =>
    have hiff : Selectable (attr t ix .b)
        ↔ Selectable (attr t ix .b) ∧ (Selectable (attr t ix .a) →
          priority (attr t ix .a) < priority (attr t ix .b)) :=
      ⟨fun hb => ⟨hb, fun ha => absurd ha hsel⟩, fun hb => hb.1⟩
    refine (hsecond _ _).trans (congrArg (Prod.mk efiSuccess) ?_)
    refine if_congr (Iff.trans ?_ hiff) rfl rfl
    exact Iff.rfl

section GetActive

variable {env : Env} {s : St}

/-- A selectable slot is returned, and nothing changes. -/
theorem getActiveSlot_chosen (h : BootTable s.ptnEntries ix)
    {activeSlot : Slot} {x : Side}
    (hx : chosenSlot (attr s.ptnEntries ix) activeSlot = x.slot) :
    getActiveSlot env activeSlot s = (efiSuccess, x.slot, s) := by
  have hne : ¬ efiSuccess ≠ efiSuccess := fun hne => hne rfl
  unfold getActiveSlot
  rw [findActiveSlot_eq h, hx]
  dsimp only
  rw [if_neg hne, if_neg]
  cases x <;> decide

/-- The state after the first boot: `boot_a` activated and written. -/
def firstBootState (env : Env) (ix : Side → Nat) (s : St) : St :=
  updatePartitionAttributes env .partitionAttributes
    (s.withEntries
      (modifyAttributes (ix .a) firstBootAttributes s.ptnEntries))

variable (env) in
/-- Without a selectable slot it is a first boot or an error. -/
theorem getActiveSlot_none (h : BootTable s.ptnEntries ix)
    (hn : ∀ x, ¬ Selectable (attr s.ptnEntries ix x)) :
    getActiveSlot env Slot.zero s
      = if IsFirstBoot (attr s.ptnEntries ix .a) then
          (efiSuccess, slotA, firstBootState env ix s)
        else (efiNotFound, Slot.zero, s) := by
  have hne : ¬ efiSuccess ≠ efiSuccess := fun hne => hne rfl
  have ha := getBootPartitionEntry_slot h .a
  unfold getActiveSlot
  rw [findActiveSlot_eq h, chosenSlot_none hn]
  dsimp only
  rw [if_neg hne, if_pos (by decide), show slotA = Side.a.slot from rfl, ha]
  dsimp only
  show (if IsFirstBoot (attr s.ptnEntries ix .a) then _ else _) = _
  split
  · rfl
  · rfl

/-- `GetActiveSlot` succeeds on tables with both boot entries only. -/
theorem getActiveSlot_table {slot slot' : Slot} {s s' : St}
    (h : getActiveSlot env slot s = (efiSuccess, slot', s')) :
    ∃ ix, BootTable s.ptnEntries ix := by
  have hfind : (findActiveSlot s.ptnEntries [slotA, slotB] slot 0).1
      = efiSuccess := by
    by_contra hne
    unfold getActiveSlot at h
    dsimp only at h
    rw [if_pos hne, Prod.mk.injEq] at h
    exact hne h.1
  have hnf := efiNotFound_ne_efiSuccess
  have hentry : ∀ x : Side,
      ∃ i, getBootPartitionEntry x.slot s.ptnEntries = some i := by
    intro x
    cases hx : getBootPartitionEntry x.slot s.ptnEntries with
    | some i => exact ⟨i, rfl⟩
    | none =>
        exfalso
        -- a missing entry ends the loop, in its first or second round
        cases x with
        | a =>
            rw [show Side.a.slot = slotA from rfl] at hx
            unfold findActiveSlot at hfind
            rw [hx] at hfind
            exact hnf hfind
        | b =>
            rw [show Side.b.slot = slotB from rfl] at hx
            have hlast : ∀ (cur : Slot) (prio : UINT64),
                (findActiveSlot s.ptnEntries [slotB] cur prio).1
                  = efiNotFound := by
              intro cur prio
              unfold findActiveSlot
              rw [hx]
            unfold findActiveSlot at hfind
            split at hfind
            · exact hnf hfind
            · dsimp only at hfind
              split at hfind
              · split at hfind
                next hstatus => exact hstatus hfind
                next =>
                  rw [hlast] at hfind
                  exact hnf hfind
              · rw [hlast] at hfind
                exact hnf hfind
  choose ix hix using hentry
  refine ⟨ix, ⟨fun x => ?_⟩⟩
  have hx := hix x
  unfold getBootPartitionEntry at hx
  cases x with
  | a =>
      rw [if_pos (by decide)] at hx
      exact hx
  | b =>
      rw [if_neg (by decide), if_pos (by decide)] at hx
      exact hx

end GetActive

-- ====================================================== setting the slot

/-- `SetActiveSlot` up to its last branch: both boot entries rewritten
and written out. -/
def storedState (env : Env) (ix : Side → Nat) (x : Side)
    (resetSuccessBit setSuccessBit : Bool) (s : St) : St :=
  updatePartitionAttributes env .partitionAttributes
    (s.withEntries (modifyAttributes (ix x.other) retireAttributes
      (modifyAttributes (ix x)
        (activateAttributes resetSuccessBit setSuccessBit) s.ptnEntries)))

/-- The last branch: `x` was active already, or the slots are switched. -/
def finishActivation (env : Env) (x y : Side) (s : St) : St :=
  if x = y then
    if env.rootDeviceType = .ufs then checkBootLun env y.slot s else s
  else markPtnActive env x.slot.suffix
    (switchPtnSlots env x.slot.suffix s)

/-- A call that finds an active slot stores both words and finishes. -/
theorem setActiveSlot_eq {env : Env} {s s0 : St} {x y : Side}
    {resetSuccessBit setSuccessBit : Bool}
    (hg : getActiveSlot env Slot.zero s = (efiSuccess, y.slot, s0))
    (h : BootTable s0.ptnEntries ix) :
    setActiveSlot env x.slot resetSuccessBit setSuccessBit s
      = (efiSuccess, finishActivation env x y
          (storedState env ix x resetSuccessBit setSuccessBit s0)) := by
  have hne : ¬ efiSuccess ≠ efiSuccess := fun hne => hne rfl
  have hx := getBootPartitionEntry_slot h x
  have hother := getBootPartitionEntry_slot (h.modify (ix x)
    (activateAttributes resetSuccessBit setSuccessBit)) x.other
  have halt : (if strnCmp x.slot.suffix suffixA (strLen suffixA) = 0
      then slotB else slotA) = x.other.slot := by
    cases x <;> rfl
  have hsame : strnCmp y.slot.suffix x.slot.suffix
      (strLen y.slot.suffix) = 0 ↔ x = y := by
    cases x <;> cases y <;> decide
  unfold setActiveSlot
  rw [hg]
  dsimp only
  rw [if_neg hne, hx, halt]
  dsimp only
  rw [St.withEntries_ptnEntries, hother]
  dsimp only
  rw [St.withEntries_withEntries]
  unfold finishActivation
  by_cases hxy : x = y
  · rw [if_pos (hsame.mpr hxy), if_pos hxy]
    split
    · rfl
    · rfl
  · rw [if_neg fun h0 => hxy (hsame.mp h0), if_neg hxy]
    rfl

/-- Without an active slot `SetActiveSlot` fails and changes nothing. -/
theorem setActiveSlot_fails {env : Env} {s : St} {newSlot : Slot}
    {resetSuccessBit setSuccessBit : Bool}
    (hg : getActiveSlot env Slot.zero s = (efiNotFound, Slot.zero, s)) :
    setActiveSlot env newSlot resetSuccessBit setSuccessBit s
      = (efiNotFound, s) := by
  unfold setActiveSlot
  rw [hg]
  dsimp only
  exact if_pos (by decide)

-- =============================================== what the branches touch

/-- The two tables differ in type GUIDs only. -/
def SameButGuids (t t' : List PartitionEntry) : Prop :=
  t'.map (PartitionEntry.withGuid EfiGuid.zero)
    = t.map (PartitionEntry.withGuid EfiGuid.zero)

theorem SameButGuids.refl (t : List PartitionEntry) : SameButGuids t t :=
  rfl

/-- What two steps leave, both leave. -/
theorem SameButGuids.trans {t t' t'' : List PartitionEntry}
    (h : SameButGuids t t') (h' : SameButGuids t' t'') :
    SameButGuids t t'' := Eq.trans h' h

/-- What does not look at type GUIDs is the same in both tables. -/
theorem SameButGuids.map {β : Type} {t t' : List PartitionEntry}
    (h : SameButGuids t t') {f : PartitionEntry → β}
    (hf : ∀ p, f (p.withGuid EfiGuid.zero) = f p) :
    t'.map f = t.map f := by
  have hmap : ∀ l : List PartitionEntry,
      (l.map (PartitionEntry.withGuid EfiGuid.zero)).map f = l.map f := by
    intro l
    rw [List.map_map]
    exact List.map_congr_left fun p _ => hf p
  rw [← hmap t', ← hmap t, h]

/-- Tables that differ in type GUIDs have the same names. -/
theorem SameButGuids.names {t t' : List PartitionEntry}
    (h : SameButGuids t t') : SameNames t t' :=
  h.map fun _ => rfl

/-- Tables that differ in type GUIDs have the same attributes. -/
theorem SameButGuids.attributesAt {t t' : List PartitionEntry}
    (h : SameButGuids t t') (k : Nat) :
    attributesAt t' k = attributesAt t k := by
  have ha : t'.map (fun p => p.partEntry.attributes)
      = t.map fun p => p.partEntry.attributes := h.map fun _ => rfl
  rw [attributesAt_eq, attributesAt_eq, ← List.getElem?_map, ha,
    List.getElem?_map]

/-- A new type GUID changes nothing else. -/
theorem modify_guid (i : Nat) (g : EfiGuid) (t : List PartitionEntry) :
    SameButGuids t (t.modify i (PartitionEntry.withGuid g)) := by
  unfold SameButGuids
  apply map_modify_of_keeps
  intro p
  rfl

/-- An exchange changes type GUIDs only. -/
theorem swapPtnGuid_guids (p1 p2 : Option Nat) (t : List PartitionEntry) :
    SameButGuids t (swapPtnGuid p1 p2 t) := by
  unfold swapPtnGuid
  split
  · exact (modify_guid _ _ t).trans (modify_guid _ _ _)
  · exact SameButGuids.refl t

/-- All exchanges change type GUIDs only. -/
theorem swapPairs_guids (setInactive setActive : List CHAR16)
    (nodes : List BootPartsNode) (t : List PartitionEntry) :
    SameButGuids t (swapPairs setInactive setActive nodes t) := by
  unfold swapPairs
  induction nodes generalizing t with
  | nil => exact SameButGuids.refl t
  | cons n nodes ih =>
      rw [List.foldl_cons]
      exact (swapPtnGuid_guids _ _ t).trans (ih _)

/-- Building the list of pairs changes the list only. -/
theorem multiSlotParts_frame (env : Env) (ps : List PartitionEntry)
    (s : St) : ∃ nodes tick, (multiSlotParts env ps s).2
      = { s with headNode := nodes, nodeTick := tick } := by
  induction ps generalizing s with
  | nil => exact ⟨s.headNode, s.nodeTick, rfl⟩
  | cons p ps ih =>
      unfold multiSlotParts
      split
      · exact ih s
      · split
        · dsimp only
          split
          · exact ⟨s.headNode, s.nodeTick + 1, rfl⟩
          · obtain ⟨nodes, tick, h⟩ := ih _
            exact ⟨nodes, tick, h⟩
        · exact ih s

/-- The protocol calls change their own log only. -/
theorem ufsGetSetBootLun_frame (env : Env) (lun : UINT32) (isGet : Bool)
    (s : St) : ∃ tick calls, (ufsGetSetBootLun env lun isGet s).2.2
      = { s with cardTick := tick, bootLunCalls := calls } := by
  unfold ufsGetSetBootLun St.logBootLun
  dsimp only
  split
  · exact ⟨_, _, rfl⟩
  · split
    · exact ⟨_, _, rfl⟩
    · split
      · exact ⟨_, _, rfl⟩
      · split
        · exact ⟨_, _, rfl⟩
        · exact ⟨_, _, rfl⟩

/-- Switching the boot LUN leaves everything but its own calls. -/
theorem switchBootLun_frame (env : Env) (setActive : List CHAR16)
    (s : St) : ∃ tick calls, switchBootLun env setActive s
      = { s with cardTick := tick, bootLunCalls := calls } := by
  obtain ⟨tick, calls, h⟩ := ufsGetSetBootLun_frame env 0 true s
  unfold switchBootLun
  generalize ufsGetSetBootLun env 0 true s = r at h
  obtain ⟨status, lun, s'⟩ := r
  dsimp only at h ⊢
  obtain ⟨tick', calls', h'⟩ := ufsGetSetBootLun_frame env
    (if lun = 1 ∧ strnCmp setActive suffixB (strLen suffixB) = 0 then 2
      else if lun = 2 ∧ strnCmp setActive suffixA (strLen suffixA) = 0
      then 1 else lun) false s'
  rw [h', h]
  exact ⟨tick', calls', rfl⟩

/-- Checking the boot LUN leaves everything but its own calls. -/
theorem checkBootLun_frame (env : Env) (currentSlot : Slot) (s : St) :
    ∃ tick calls, checkBootLun env currentSlot s
      = { s with cardTick := tick, bootLunCalls := calls } := by
  obtain ⟨tick, calls, h⟩ := ufsGetSetBootLun_frame env 0 true s
  unfold checkBootLun
  generalize ufsGetSetBootLun env 0 true s = r at h
  obtain ⟨status, lun, s'⟩ := r
  dsimp only at h ⊢
  split
  · obtain ⟨tick', calls', h'⟩ := ufsGetSetBootLun_frame env 2 false s'
    rw [h', h]
    exact ⟨tick', calls', rfl⟩
  · split
    · obtain ⟨tick', calls', h'⟩ := ufsGetSetBootLun_frame env 1 false s'
      rw [h', h]
      exact ⟨tick', calls', rfl⟩
    · rw [h]
      exact ⟨tick, calls, rfl⟩

/-- The list of pairs `SwitchPtnSlots` works with: built on first use. -/
def pairList (env : Env) (s : St) : EfiStatus × St :=
  if s.headNode = [] then getMultiSlotPartsList env s else (efiSuccess, s)

/-- Making the list leaves everything but the list. -/
theorem pairList_frame (env : Env) (s : St) :
    ∃ nodes tick, (pairList env s).2
      = { s with headNode := nodes, nodeTick := tick } := by
  unfold pairList
  split
  · exact multiSlotParts_frame env s.ptnEntries s
  · exact ⟨s.headNode, s.nodeTick, rfl⟩

/-- A switch gives up without the list, or goes on with it. -/
theorem switchPtnSlots_list (env : Env) (setActive : List CHAR16)
    (s : St) :
    switchPtnSlots env setActive s
      = if (pairList env s).1 ≠ efiSuccess then (pairList env s).2 else
        let s := (pairList env s).2
        let s := s.withEntries (swapPairs (inactiveSuffix setActive)
          setActive s.headNode s.ptnEntries)
        updatePartitionAttributes env .partitionGuid
          (if env.rootDeviceType = .ufs then switchBootLun env setActive s
          else s) := rfl

/-- `SwitchPtnSlots` on the table and the list. -/
theorem switchPtnSlots_eq (env : Env) (setActive : List CHAR16) (s : St) :
    (switchPtnSlots env setActive s).headNode = (pairList env s).2.headNode
      ∧ (switchPtnSlots env setActive s).ptnEntries
        = if (pairList env s).1 ≠ efiSuccess then s.ptnEntries
          else swapPairs (inactiveSuffix setActive) setActive
            (pairList env s).2.headNode s.ptnEntries := by
  obtain ⟨nodes, tick, hs⟩ := pairList_frame env s
  rw [switchPtnSlots_list]
  generalize pairList env s = r at hs
  obtain ⟨status, s'⟩ := r
  dsimp only at hs ⊢
  subst hs
  split
  · exact ⟨rfl, rfl⟩
  · have hf := updatePartitionAttributes_frame env .partitionGuid
    split
    · obtain ⟨tick', calls, h'⟩ := switchBootLun_frame env setActive
        (St.withEntries (swapPairs (inactiveSuffix setActive) setActive
          nodes s.ptnEntries)
          { s with headNode := nodes, nodeTick := tick })
      rw [h']
      exact ⟨(hf _).headNode, (hf _).ptnEntries⟩
    · exact ⟨(hf _).headNode, (hf _).ptnEntries⟩

/-- Switching the slots changes type GUIDs only. -/
theorem switchPtnSlots_guids (env : Env) (setActive : List CHAR16)
    (s : St) :
    SameButGuids s.ptnEntries (switchPtnSlots env setActive s).ptnEntries := by
  rw [(switchPtnSlots_eq env setActive s).2]
  split
  · exact SameButGuids.refl _
  · exact swapPairs_guids _ _ _ _

-- =================================================== what a name decides

theorem isOtherSlot_name (searchString : List CHAR16)
    {q q' : PartitionEntry} (h : q'.name = q.name) :
    isOtherSlot searchString q' = isOtherSlot searchString q := by
  unfold isOtherSlot
  rw [h]

/-- Tables with the same names have the same slots. -/
theorem any_isOtherSlot_names (searchString : List CHAR16)
    {t t' : List PartitionEntry} (h : SameNames t t') :
    t'.any (isOtherSlot searchString)
      = t.any (isOtherSlot searchString) := by
  unfold SameNames at h
  induction t generalizing t' with
  | nil =>
      rw [List.map_nil, List.map_eq_nil_iff] at h
      rw [h]
  | cons p t ih =>
      rw [List.map_cons, List.map_eq_cons_iff] at h
      obtain ⟨p', t'', rfl, hp, ht⟩ := h
      rw [List.any_cons, List.any_cons, isOtherSlot_name _ hp, ih ht]

/-- The list of pairs depends on the names and the allocator only. -/
theorem multiSlotParts_names (env : Env) {t t' : List PartitionEntry}
    (h : SameNames t t') {s s' : St} (hnode : s'.headNode = s.headNode)
    (htick : s'.nodeTick = s.nodeTick) :
    (multiSlotParts env t' s').1 = (multiSlotParts env t s).1
      ∧ (multiSlotParts env t' s').2.headNode
        = (multiSlotParts env t s).2.headNode := by
  unfold SameNames at h
  induction t generalizing t' s s' with
  | nil =>
      rw [List.map_nil, List.map_eq_nil_iff] at h
      rw [h]
      exact ⟨rfl, hnode⟩
  | cons p t ih =>
      rw [List.map_cons, List.map_eq_cons_iff] at h
      obtain ⟨p', t'', rfl, hp, ht⟩ := h
      unfold multiSlotParts
      rw [hp, any_isOtherSlot_names _ ht, hnode, htick]
      split
      · exact ih ht hnode htick
      · split
        · dsimp only
          split
          · exact ⟨rfl, rfl⟩
          · exact ih ht rfl rfl
        · exact ih ht hnode htick

-- ================================================== what an update keeps

/-- The list of pairs, the allocator and the card-info calls are as they
were. -/
structure ServiceFrame (s s' : St) : Prop where
  headNode : s'.headNode = s.headNode
  nodeTick : s'.nodeTick = s.nodeTick
  bootLunCalls : s'.bootLunCalls = s.bootLunCalls
  cardTick : s'.cardTick = s.cardTick

theorem ServiceFrame.refl (s : St) : ServiceFrame s s :=
  ⟨rfl, rfl, rfl, rfl⟩

/-- What two steps leave alone, both do. -/
theorem ServiceFrame.trans {s s' s'' : St} (h : ServiceFrame s s')
    (h' : ServiceFrame s' s'') : ServiceFrame s s'' where
  headNode := h'.headNode.trans h.headNode
  nodeTick := h'.nodeTick.trans h.nodeTick
  bootLunCalls := h'.bootLunCalls.trans h.bootLunCalls
  cardTick := h'.cardTick.trans h.cardTick

/-- Storing a table and writing it out. -/
theorem storeEntries_service (env : Env) (u : UpdateType)
    (t : List PartitionEntry) (s : St) :
    ServiceFrame s (updatePartitionAttributes env u (s.withEntries t)) := by
  have hf := updatePartitionAttributes_frame env u (s.withEntries t)
  exact ⟨hf.headNode, hf.nodeTick, hf.bootLunCalls, hf.cardTick⟩

/-- Looking for the active slot asks no service. -/
theorem getActiveSlot_service (env : Env) (activeSlot : Slot) (s : St) :
    ServiceFrame s (getActiveSlot env activeSlot s).2.2 := by
  unfold getActiveSlot
  generalize findActiveSlot s.ptnEntries [slotA, slotB] activeSlot 0 = r
  obtain ⟨status, activeSlot⟩ := r
  dsimp only
  split
  · exact ServiceFrame.refl s
  · split
    · split
      · exact ServiceFrame.refl s
      · split
        · split
          · exact ⟨rfl, rfl, rfl, rfl⟩
          · exact storeEntries_service env _ _ s
        · exact ServiceFrame.refl s
    · exact ServiceFrame.refl s

/-- Storing the words of both slots asks no service. -/
theorem storedState_service (env : Env) (ix : Side → Nat) (x : Side)
    (resetSuccessBit setSuccessBit : Bool) (s : St) :
    ServiceFrame s (storedState env ix x resetSuccessBit setSuccessBit s) :=
  storeEntries_service env _ _ s

/-- Marking the entries asks no service. -/
theorem markPtnActive_service (env : Env) (activeSlot : List CHAR16)
    (s : St) : ServiceFrame s (markPtnActive env activeSlot s) :=
  storeEntries_service env _ _ s

/-- The list of pairs that is found is the same after table updates that
keep the names. -/
theorem pairList_names (env : Env) {s s' : St} (h : ServiceFrame s s')
    (hn : SameNames s.ptnEntries s'.ptnEntries) :
    (pairList env s').1 = (pairList env s).1
      ∧ (pairList env s').2.headNode = (pairList env s).2.headNode := by
  unfold pairList
  rw [h.headNode]
  split
  · exact multiSlotParts_names env hn h.headNode h.nodeTick
  · exact ⟨rfl, h.headNode⟩

-- ==================================================== what a call leaves

/-- `MarkPtnActive` on the table. -/
def markEntries (activeSlot : List CHAR16) (t : List PartitionEntry) :
    List PartitionEntry :=
  t.map fun p =>
    if strStr p.name activeSlot then
      p.withAttributes (p.partEntry.attributes ||| partAttActiveVal)
    else
      p.withAttributes (p.partEntry.attributes &&& ~~~partAttActiveVal)

/-- What becomes of the table when it is marked. -/
theorem markPtnActive_entries (env : Env) (activeSlot : List CHAR16)
    (s : St) : (markPtnActive env activeSlot s).ptnEntries
      = markEntries activeSlot s.ptnEntries :=
  (updatePartitionAttributes_frame env .partitionAttributes _).ptnEntries

/-- Marking leaves the names. -/
theorem markEntries_names (activeSlot : List CHAR16)
    (t : List PartitionEntry) : SameNames t (markEntries activeSlot t) := by
  unfold SameNames markEntries
  rw [List.map_map]
  refine List.map_congr_left fun p _ => ?_
  show PartitionEntry.name (if _ then _ else _) = _
  split
  · rfl
  · rfl

/-- Marking sets ACTIVE of the slot and clears it of the other. -/
theorem markEntries_attr {t : List PartitionEntry} {ix : Side → Nat}
    (h : BootTable t ix) (x y : Side) :
    attr (markEntries x.slot.suffix t) ix y
      = if y = x then attr t ix y ||| partAttActiveVal
        else attr t ix y &&& ~~~partAttActiveVal := by
  have hname := h.name_eq y
  have hfind : strStr (t.get ⟨ix y, h.lt y⟩).name x.slot.suffix
      = decide (y = x) := by
    unfold strStr
    rw [hname]
    cases x <;> cases y <;> decide
  rw [List.get_eq_getElem] at hfind
  unfold attr
  rw [attributesAt_eq, attributesAt_eq]
  unfold markEntries
  rw [List.getElem?_map, List.getElem?_eq_getElem (h.lt y)]
  simp only [Option.map_some, Option.getD_some, hfind, decide_eq_true_eq]
  split
  · rfl
  · rfl

-- ======================================================== a run of calls

/-- A call of `SetActiveSlot` for one of the two slots. -/
structure Activation where
  slot : Side
  resetSuccessBit : Bool
  setSuccessBit : Bool

/-- What a call of `SetActiveSlot` leaves. -/
def activate (env : Env) (c : Activation) (s : St) : St :=
  (setActiveSlot env c.slot.slot c.resetSuccessBit c.setSuccessBit s).2

-- ============================================================== a sample

/-- A partition entry of a name, with a type GUID of one repeated byte. -/
def sampleEntry (name : List CHAR16) (g : Byte) (a : UINT64) :
    PartitionEntry where
  partEntry :=
    { EfiPartitionEntry.zero with
      partitionTypeGuid := ⟨List.replicate guidSize g, List.length_replicate⟩
      attributes := a
      partitionName := name ++ List.replicate (36 - name.length) 0 }
  lun := 0

/-- A table of `boot_a`, active, `boot_b` and one without slots. -/
def sampleSlots : St :=
  sampleState.withEntries
    [sampleEntry (bootName ++ suffixA) 1
      (partAttActiveVal ||| partAttPriorityVal),
    sampleEntry (bootName ++ suffixB) 2 0,
    sampleEntry [0x78, 0x79] 3 0]

/-- `boot_a` and `boot_b` are the first two entries. -/
def sampleIx : Side → Nat
  | .a => 0
  | .b => 1

/-- The sample has both boot entries. -/
theorem sampleSlots_table : BootTable sampleSlots.ptnEntries sampleIx where
  index := fun x => by
    cases x with
    | a => decide +kernel
    | b => decide +kernel

end Edk2Exynos.BootSlot
