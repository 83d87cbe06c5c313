/-
Every call of the library leaves the table in memory and the GPTs on the
media the same (`slotCalls_synced`).

# What is changed

A call changes attribute words of boot entries, or of all entries by
their names, and exchanges type GUIDs of entries found by their names. An
entry with a name is a partition, and the walk handles it; the entry of a
root device has none, and stays as it was. So the changes are what an
update stores (`Edits`).
-/
import Edk2Exynos.BootSlot.SlotInvariants
import Edk2Exynos.BootSlot.SlotSearch
import Edk2Exynos.BootSlot.Synced

namespace Edk2Exynos.BootSlot

open Lib

variable {env : Env} {u : UpdateType} {s s' s'' : St}
  {t t' t'' : List PartitionEntry} {ix : Side → Nat}

-- ================================================================ the rows

theorem FieldsChanged.refl (p : PartitionEntry) : FieldsChanged p p where
  same := rfl
  device := fun h => by
    unfold EfiPartitionEntry.used at h
    simpa using h

/-- What two calls change, both change. -/
theorem FieldsChanged.trans {b p q : PartitionEntry}
    (h : FieldsChanged b p) (h' : FieldsChanged p q) :
    FieldsChanged b q where
  same := by rw [h'.same, h.same]
  device := fun hb => h'.device fun hp => by
    unfold EfiPartitionEntry.used at hp
    exact of_decide_eq_true hp (h.device hb)

/-- The name is no field that changes. -/
theorem FieldsChanged.name {b p : PartitionEntry}
    (h : FieldsChanged b p) : p.name = b.name := by
  rw [h.same]
  rfl

theorem Recordable.refl (p : PartitionEntry) : Recordable u p p where
  fields := FieldsChanged.refl p
  handled := fun h => absurd rfl h
  selected := OnlySelected.refl u p

/-- Changes that can be recorded add up to such a change. -/
theorem Recordable.trans {b p q : PartitionEntry} (h : Recordable u b p)
    (h' : Recordable u p q) : Recordable u b q where
  fields := h.fields.trans h'.fields
  handled := fun hne => by
    by_cases hsame : q = p
    · rw [hsame] at hne ⊢
      exact h.handled hne
    · exact h'.handled hsame
  selected := h.selected.trans h'.selected

/-- Other attributes of a handled entry can be recorded. -/
theorem recordable_attributes {p : PartitionEntry} (hp : p.handled)
    (v : UINT64) :
    Recordable .partitionAttributes p (p.withAttributes v) where
  fields := ⟨rfl, (FieldsChanged.refl p).device⟩
  handled := fun _ => hp
  selected := ⟨fun _ => rfl, fun h => absurd rfl h⟩

/-- Another type GUID with a `Data1` can be recorded. -/
theorem recordable_guid {p : PartitionEntry} {g : EfiGuid}
    (hp : p.handled) (hg : g.data1 ≠ 0) :
    Recordable .partitionGuid p (p.withGuid g) where
  fields := ⟨rfl, fun h => absurd (used_of_data1 (handled_iff.mp hp)) h⟩
  handled := fun _ => handled_iff.mpr hg
  selected := ⟨fun h => absurd rfl h, fun _ => rfl⟩

-- =============================================================== the table

/-- The second table is the first with changes that an update stores. -/
def Edits (u : UpdateType) : List PartitionEntry → List PartitionEntry →
    Prop := List.Forall₂ (Recordable u)

/-- A transitive relation of entries is one of tables. -/
theorem forall₂_trans {R : PartitionEntry → PartitionEntry → Prop}
    (hR : ∀ {b p q}, R b p → R p q → R b q) (h : List.Forall₂ R t t')
    (h' : List.Forall₂ R t' t'') : List.Forall₂ R t t'' := by
  induction h generalizing t'' with
  | nil => exact h'
  | cons hbp _ ih =>
      obtain ⟨q, qs, hpq, hrest, rfl⟩ := List.forall₂_cons_left_iff.mp h'
      exact List.Forall₂.cons (hR hbp hpq) (ih hrest)

theorem Edits.refl (u : UpdateType) (t : List PartitionEntry) :
    Edits u t t := List.forall₂_same.mpr fun p _ => Recordable.refl p

/-- Edits add up to edits. -/
theorem Edits.trans (h : Edits u t t') (h' : Edits u t' t'') :
    Edits u t t'' := forall₂_trans Recordable.trans h h'

/-- Edits change type GUIDs and attributes only. -/
theorem Edits.fields (h : Edits u t t') :
    List.Forall₂ FieldsChanged t t' := h.imp fun _ _ hbp => hbp.fields

/-- Such changes leave the names. -/
theorem sameNames_of_fields (h : List.Forall₂ FieldsChanged t t') :
    SameNames t t' := by
  unfold SameNames
  induction h with
  | nil => rfl
  | cons hbp _ ih => rw [List.map_cons, List.map_cons, hbp.name, ih]

/-- Edits leave root devices and partitions what they are. -/
theorem Tidy.edits (h : Tidy t) (he : Edits u t t') : Tidy t' := by
  intro p hp
  obtain ⟨i, hi, rfl⟩ := List.mem_iff_getElem.mp hp
  have hlen := he.length_eq
  have hrec : Recordable u t[i] t'[i] := he.get (by omega) hi
  by_cases hsame : t'[i] = t[i]
  · rw [hsame]
    exact h _ (List.getElem_mem _)
  · exact Or.inl (hrec.handled hsame)

/-- The entry of a root device has no name. -/
theorem Tidy.handled (h : Tidy t) {p : PartitionEntry} (hp : p ∈ t)
    (hname : cstr p.name ≠ []) : p.handled := by
  rcases h p hp with hh | hroot
  · exact hh
  · rw [hroot] at hname
    exact absurd rfl hname

/-- An entry that is handled, changed in fields an update stores. -/
theorem edits_modify {i : Nat} {f : PartitionEntry → PartitionEntry}
    (h : ∀ p, t[i]? = some p → Recordable u p (f p)) :
    Edits u t (t.modify i f) := by
  induction t generalizing i with
  | nil =>
      rw [List.modify_nil]
      exact Edits.refl u []
  | cons p t ih =>
      cases i with
      | zero => exact List.Forall₂.cons (h p rfl) (Edits.refl u t)
      | succ i => exact List.Forall₂.cons (Recordable.refl p) (ih h)

/-- Other attributes of a boot entry are an edit. -/
theorem Tidy.boot (h : Tidy t) (hb : BootTable t ix) (x : Side)
    (f : UINT64 → UINT64) :
    Edits .partitionAttributes t (modifyAttributes (ix x) f t) := by
  refine edits_modify fun p hp => recordable_attributes ?_ _
  have hname := hb.name_eq x
  obtain ⟨_, heq⟩ := List.getElem?_eq_some_iff.mp hp
  rw [List.get_eq_getElem, heq] at hname
  refine h.handled (List.mem_of_getElem? hp) ?_
  rw [hname]
  cases x <;> decide

/-- The ACTIVE pass. -/
theorem Tidy.mark (h : Tidy t) (x : Side) :
    Edits .partitionAttributes t (markEntries x.slot.suffix t) := by
  unfold markEntries
  refine List.forall₂_map_right_iff.mpr (List.forall₂_same.mpr
    fun p hp => ?_)
  rcases h p hp with hh | hroot
  · split
    · exact recordable_attributes hh _
    · exact recordable_attributes hh _
  · -- the entry of a root device has neither name nor attributes
    have hname : strStr p.name x.slot.suffix = false := by
      rw [hroot]
      cases x <;> rfl
    have hword : p.partEntry.attributes = 0 := by
      rw [hroot]
      rfl
    have hsame : p.withAttributes
        (p.partEntry.attributes &&& ~~~partAttActiveVal) = p := by
      have hzero : (0 : UINT64) &&& ~~~partAttActiveVal = 0 := by decide
      rw [hword, hzero, ← hword]
      rfl
    rw [hname, if_neg Bool.false_ne_true, hsame]
    exact Recordable.refl p

/-- The exchange of the type GUIDs of two partitions. -/
theorem edits_swap {i j : Nat} {p q : PartitionEntry}
    (hi : t[i]? = some p) (hj : t[j]? = some q) (hp : p.handled)
    (hq : q.handled) :
    Edits .partitionGuid t (swapPtnGuid (some i) (some j) t) := by
  have hgi : guidAtIndex t i = p.partEntry.partitionTypeGuid := by
    rw [guidAtIndex_eq, hi]
    rfl
  have hgj : guidAtIndex t j = q.partEntry.partitionTypeGuid := by
    rw [guidAtIndex_eq, hj]
    rfl
  unfold swapPtnGuid
  dsimp only
  rw [hgi, hgj]
  have hfirst : Edits .partitionGuid t (t.modify i
      (PartitionEntry.withGuid q.partEntry.partitionTypeGuid)) := by
    refine edits_modify fun r hr => ?_
    rw [hi, Option.some.injEq] at hr
    subst hr
    exact recordable_guid hp (handled_iff.mp hq)
  refine hfirst.trans (edits_modify fun r hr => ?_)
  refine recordable_guid ?_ (handled_iff.mp hp)
  -- with one index twice the entry has the other's GUID by now
  rw [List.getElem?_modify, hj, Option.map_eq_map, Option.map_some,
    Option.some.injEq] at hr
  rw [← hr]
  split
  · exact handled_iff.mpr (handled_iff.mp hq)
  · exact hq

/-- The exchanges of `SwitchPtnSlots`. -/
theorem Tidy.swap (h : Tidy t) (x : Side) (nodes : List BootPartsNode) :
    Edits .partitionGuid t
      (swapPairs (inactiveSuffix x.slot.suffix) x.slot.suffix nodes t) := by
  rw [inactiveSuffix_eq]
  induction nodes generalizing t with
  | nil => exact Edits.refl _ t
  | cons n nodes ih =>
      have hturn : Edits .partitionGuid t
          (swapPairs x.other.slot.suffix x.slot.suffix [n] t) := by
        rw [swapPairs_singleton]
        cases hf : builtPair (names t) x.other (cstr n.name) with
        | none => exact Edits.refl _ t
        | some p =>
            obtain ⟨b, -, hb⟩ := Option.bind_eq_some_iff.mp hf
            obtain ⟨⟨m, hm, hpre⟩, m', hm', hpre'⟩ := foundPair_some hb
            have hrow : ∀ (i : Nat) (m pre : List CHAR16),
                (names t)[i]? = some m → pre <+: m → pre ≠ [] →
                ∃ p, t[i]? = some p ∧ p.handled := by
              intro i m pre hm hpre hne
              unfold names at hm
              rw [List.getElem?_map, Option.map_eq_some_iff] at hm
              obtain ⟨q, hq, rfl⟩ := hm
              refine ⟨q, hq, h.handled (List.mem_of_getElem? hq) ?_⟩
              intro hnil
              rw [hnil, List.prefix_nil] at hpre
              exact hne hpre
            obtain ⟨q, hq, hqh⟩ := hrow p.1 m _ hm hpre (slotted_ne_nil _ _)
            obtain ⟨r, hr, hrh⟩ :=
              hrow p.2 m' _ hm' hpre' (slotted_ne_nil _ _)
            exact edits_swap hq hr hqh hrh
      exact hturn.trans (ih (h.edits hturn))

-- =============================================================== the calls

/-- The state after a call: media and table are the same again, and the
rows changed in type GUIDs and attributes only. -/
structure KeptSynced (env : Env) (s s' : St) : Prop where
  synced : Synced env s'
  fields : List.Forall₂ FieldsChanged s.ptnEntries s'.ptnEntries

namespace KeptSynced

/-- Where nothing is called everything is the same. -/
theorem refl (h : Synced env s) : KeptSynced env s s :=
  ⟨h, List.forall₂_same.mpr fun p _ => FieldsChanged.refl p⟩

/-- What two calls keep, both keep. -/
theorem trans (h : KeptSynced env s s') (h' : KeptSynced env s' s'') :
    KeptSynced env s s'' :=
  ⟨h'.synced, forall₂_trans FieldsChanged.trans h.fields h'.fields⟩

/-- The boot entries are where they were. -/
theorem table (h : KeptSynced env s s') (hb : BootTable s.ptnEntries ix) :
    BootTable s'.ptnEntries ix := hb.of_names (sameNames_of_fields h.fields)

end KeptSynced

/-- The table is made of root devices and partitions. -/
theorem Synced.tidy (h : Synced env s) : Tidy s.ptnEntries := by
  rw [h.table]
  exact h.medium.tidy

/-- Storing a changed table and writing it out. -/
theorem Synced.store (h : Synced env s) (he : Edits u s.ptnEntries t) :
    KeptSynced env s (updatePartitionAttributes env u (s.withEntries t)) := by
  obtain ⟨hsync, hptn⟩ := h.update he
  refine ⟨hsync, ?_⟩
  rw [hptn]
  exact he.fields

/-- What leaves the media and both tables alone. -/
theorem Synced.frame (h : Synced env s) (hdisk : s'.disk = s.disk)
    (hptn : s'.ptnEntries = s.ptnEntries)
    (hbak : s'.ptnEntriesBak = s.ptnEntriesBak)
    (hluns : s'.maxLuns = s.maxLuns) : KeptSynced env s s' := by
  refine ⟨h.of_frame hdisk hptn hbak hluns, ?_⟩
  rw [hptn]
  exact (KeptSynced.refl h).fields

/-- A boot entry that is found is one of the two slots. -/
theorem getBootPartitionEntry_some (hb : BootTable t ix) {slot : Slot}
    {i : Nat} (h : getBootPartitionEntry slot t = some i) :
    ∃ x, i = ix x := by
  unfold getBootPartitionEntry at h
  split at h
  · exact ⟨.a, Option.some.inj (h.symm.trans (hb.index .a))⟩
  · split at h
    · exact ⟨.b, Option.some.inj (h.symm.trans (hb.index .b))⟩
    · cases h

/-- Looking for the active slot keeps table and media together. -/
theorem Synced.getActiveSlot (h : Synced env s)
    (hb : BootTable s.ptnEntries ix) (slot : Slot) :
    KeptSynced env s (getActiveSlot env slot s).2.2 := by
  unfold BootSlot.getActiveSlot
  generalize findActiveSlot s.ptnEntries [slotA, slotB] slot 0 = r
  obtain ⟨status, slot⟩ := r
  dsimp only
  split
  · exact KeptSynced.refl h
  split
  · split
    · exact KeptSynced.refl h
    next i hi =>
      obtain ⟨x, rfl⟩ := getBootPartitionEntry_some hb hi
      split
      · -- the suffix fits the buffer of every slot
        split
        next hne => exact absurd rfl hne
        next => exact h.store (h.tidy.boot hb x _)
      · exact KeptSynced.refl h
  · exact KeptSynced.refl h

/-- So does clearing UNBOOTABLE. -/
theorem Synced.clearUnbootable (h : Synced env s)
    (hb : BootTable s.ptnEntries ix) (slot : Slot) :
    KeptSynced env s (clearUnbootable env slot s).2 := by
  unfold BootSlot.clearUnbootable
  split
  · exact KeptSynced.refl h
  next i hi =>
    obtain ⟨x, rfl⟩ := getBootPartitionEntry_some hb hi
    exact h.store (h.tidy.boot hb x _)

/-- So does storing the words of both slots. -/
theorem Synced.storedState (h : Synced env s)
    (hb : BootTable s.ptnEntries ix) (x : Side) (r f : Bool) :
    KeptSynced env s (storedState env ix x r f s) := by
  have hfirst := h.tidy.boot hb x (activateAttributes r f)
  exact h.store (hfirst.trans ((h.tidy.edits hfirst).boot
    (hb.modify (ix x) _) x.other retireAttributes))

/-- So does exchanging the type GUIDs. -/
theorem Synced.switchPtnSlots (h : Synced env s) (x : Side) :
    KeptSynced env s (switchPtnSlots env x.slot.suffix s) := by
  obtain ⟨nodes, tick, hlist⟩ := pairList_frame env s
  rw [switchPtnSlots_list, hlist]
  have h' : KeptSynced env s { s with headNode := nodes, nodeTick := tick } :=
    h.frame rfl rfl rfl rfl
  split
  · exact h'
  · dsimp only
    split
    · -- the boot-LU calls come between the exchange and the update
      obtain ⟨ctick, calls, hcard⟩ := switchBootLun_frame env x.slot.suffix
        (St.withEntries (swapPairs (inactiveSuffix x.slot.suffix)
          x.slot.suffix nodes s.ptnEntries)
          { s with headNode := nodes, nodeTick := tick })
      rw [hcard]
      have h'' : KeptSynced env s
          { s with
            headNode := nodes
            nodeTick := tick
            cardTick := ctick
            bootLunCalls := calls } := h.frame rfl rfl rfl rfl
      exact h''.trans (h''.synced.store (h''.synced.tidy.swap x nodes))
    · exact h'.trans (h'.synced.store (h'.synced.tidy.swap x nodes))

/-- So does marking the entries. -/
theorem Synced.markPtnActive (h : Synced env s) (x : Side) :
    KeptSynced env s (markPtnActive env x.slot.suffix s) :=
  h.store (h.tidy.mark x)

/-- So does the rest of an activation. -/
theorem Synced.finishActivation (h : Synced env s) (x y : Side) :
    KeptSynced env s (finishActivation env x y s) := by
  unfold BootSlot.finishActivation
  split
  · split
    · obtain ⟨tick, calls, hc⟩ := checkBootLun_frame env y.slot s
      rw [hc]
      exact h.frame rfl rfl rfl rfl
    · exact KeptSynced.refl h
  · have h' := h.switchPtnSlots x
    exact h'.trans (h'.synced.markPtnActive x)

/-- So does an activation. -/
theorem Synced.setActiveSlot (h : Synced env s)
    (hb : BootTable s.ptnEntries ix) (x : Side) (r f : Bool) :
    KeptSynced env s (setActiveSlot env x.slot r f s).2 := by
  have hget := h.getActiveSlot hb Slot.zero
  rcases getActiveSlot_cases env hb with ⟨y, s0, hf⟩ | hnone
  · rw [hf.eq] at hget
    have hb0 := hget.table hb
    have hstored := hget.synced.storedState hb0 x r f
    rw [setActiveSlot_eq hf.eq hb0]
    exact hget.trans (hstored.trans (hstored.synced.finishActivation x y))
  · rw [setActiveSlot_fails hnone.1]
    exact KeptSynced.refl h

-- ================================================================= the run

/-- So does every call. -/
theorem Synced.slotStep (h : Synced env s) (hb : BootTable s.ptnEntries ix)
    (c : SlotCall) : KeptSynced env s (slotStep env c s) := by
  cases c with
  | getActiveSlot slot => exact h.getActiveSlot hb slot
  | setActiveSlot x r f => exact h.setActiveSlot hb x r f
  | clearUnbootable slot => exact h.clearUnbootable hb slot

/-- Whatever calls are made, in whatever order: in the end the table the
media give is the table in memory, both copies of every GPT are valid and
equal, and every entry is the one read in all but type GUID and
attributes. -/
theorem slotCalls_synced (calls : List SlotCall) (h : Synced env s)
    (hb : BootTable s.ptnEntries ix) :
    KeptSynced env s (run (slotStep env) calls s) := by
  refine run_invariant (fun c t hkept => ?_) calls (KeptSynced.refl h)
  exact hkept.trans (hkept.synced.slotStep (hkept.table hb) c)

-- a device with both boot partitions, slot a active

/-- A GPT slot with a partition named `boot_` and one more letter. -/
def bootSlotBytes (g : Byte) (attributes : UINT64) (letter : Byte) :
    List Byte :=
  List.replicate 16 g ++ List.replicate 16 (g + 1) ++ bytesOfLongLong 70
    ++ bytesOfLongLong 80 ++ bytesOfLongLong attributes
    ++ [0x62, 0, 0x6f, 0, 0x6f, 0, 0x74, 0, 0x5f, 0, letter, 0]
    ++ List.replicate 60 0

/-- A slot array with `boot_a`, which is active, and `boot_b`. -/
def slotImage : Mem :=
  writeBytes (fun _ => 0) 0
    (bootSlotBytes 0x11 (partAttActiveVal ||| partAttPriorityVal) 0x61
      ++ bootSlotBytes 0x33 0 0x62)

/-- The partitions of `slotImage`. -/
def slotPartitions : List EfiPartitionEntry :=
  (gptEntries slotImage 0).take 2

/-- The table of that device. -/
def slotTable : List PartitionEntry :=
  handleEntry 0 none :: slotPartitions.map fun e => handleEntry 0 (some e)

/-- Behind the root device, `boot_a` and `boot_b`. -/
def slotIx : Side → Nat
  | .a => 1
  | .b => 2

/-- The used slots of the sample are its partitions. -/
theorem slotImage_used :
    (gptEntries slotImage 0).filter EfiPartitionEntry.used
      = slotPartitions := by decide +kernel

/-- The sample has its partitions in the first slots. -/
theorem slotImage_gapFree : GapFree (gptEntries slotImage 0) := by
  refine ⟨slotPartitions, (gptEntries slotImage 0).drop 2,
    (List.take_append_drop 2 _).symm, by decide +kernel, ?_⟩
  have hnone : ((gptEntries slotImage 0).drop 2).filter
      EfiPartitionEntry.used = [] := by decide +kernel
  exact List.filter_eq_nil_iff.mp hnone

/-- The sample is a device with valid GPTs. -/
theorem slotImage_device : GptDevice sampleEnv (sampleOn slotImage) where
  known := by decide
  io := fun _ => rfl
  lookup := packed_changedTable.lookup
  device := ⟨fun _ _ => sampleMedia_std,
    fun _ _ c => formatGpt_valid sampleMedia_std c⟩
  copies := fun d _ c => by rw [sampleOn_lunSlots, sampleOn_lunSlots]
  gapFree := fun d _ => by
    rw [sampleOn_lunSlots]
    exact slotImage_gapFree

/-- The table of the sample. -/
theorem slotImage_entries :
    diskEntries sampleEnv (sampleOn slotImage) = slotTable := by
  have hhandles : ∀ d, slotHandles sampleEnv (sampleOn slotImage) d
      = if d = 0 then none :: slotPartitions.map some else [] := by
    intro d
    by_cases hd : d = 0
    · rw [if_pos hd, hd, slotHandles_root sampleEnv_hasRoot,
        sampleOn_lunSlots, slotImage_used]
    · rw [if_neg hd, slotHandles_none fun h => hd (sampleEnv_only_root h)]
  have htable : diskTable sampleEnv (sampleOn slotImage)
      = [none :: slotPartitions.map some, [], [], [], [], [], [], []] := by
    unfold diskTable
    rw [List.map_congr_left fun d _ => hhandles d]
    rfl
  rw [diskEntries_eq, htable]
  decide +kernel

/-- The sample has both boot entries. -/
theorem slotTable_boot : BootTable slotTable slotIx where
  index := fun x => by
    cases x with
    | a => decide +kernel
    | b => decide +kernel

/-- Slot b made active, its UNBOOTABLE mark cleared, slot a made active
again. -/
theorem slotCalls_synced_sample :
    KeptSynced sampleEnv (startState sampleEnv (sampleOn slotImage))
      (run (slotStep sampleEnv)
        [.setActiveSlot .b true false, .clearUnbootable slotB,
          .setActiveSlot .a false true]
        (startState sampleEnv (sampleOn slotImage))) := by
  have hboot : BootTable (startState sampleEnv
      (sampleOn slotImage)).ptnEntries slotIx := by
    rw [startState_eq]
    dsimp only
    rw [slotImage_entries]
    exact slotTable_boot
  exact slotCalls_synced _ (startState_synced slotImage_device) hboot

end Edk2Exynos.BootSlot
