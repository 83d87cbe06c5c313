/-
The type GUIDs over runs of `SetActiveSlot`: they follow the parity of
the slot changes.

# The invariant

`Swapped` relates a state of a run to the table it started from: the
names are the same, the list of pairs is not built yet or complete, and
the GUIDs are those of the start, exchanged in every pair if the active
slot is not the first one. A call for the active slot keeps all of it; a
call for the other slot exchanges once more, and exchanging twice is
nothing.

# Where it breaks

`SwitchPtnSlots` returns nothing. When `GetMultiSlotPartsList` runs out
of memory it gives up before the exchange, while `SetActiveSlot` goes on
to make the slot active and reports success; a list that was partly
built is kept and taken for complete by the next call. `ListBuilt` rules
this out.
-/
import Edk2Exynos.BootSlot.SlotInvariants
import Edk2Exynos.BootSlot.SlotPairs

namespace Edk2Exynos.BootSlot

open Lib

variable {env : Env} {ix : Side → Nat}

-- ================================================== what keeps the GUIDs

/-- Entry for entry the same type GUIDs. -/
def SameGuids (t t' : List PartitionEntry) : Prop :=
  ∀ k, guidAtIndex t' k = guidAtIndex t k

theorem SameGuids.refl (t : List PartitionEntry) : SameGuids t t :=
  fun _ => rfl

/-- What two steps leave, both leave. -/
theorem SameGuids.trans {t t' t'' : List PartitionEntry}
    (h : SameGuids t t') (h' : SameGuids t' t'') : SameGuids t t'' :=
  fun k => (h' k).trans (h k)

/-- A change of attributes leaves the type GUIDs. -/
theorem modifyAttributes_sameGuids (i : Nat) (f : UINT64 → UINT64)
    (t : List PartitionEntry) : SameGuids t (modifyAttributes i f t) := by
  intro k
  rw [guidAtIndex_eq, guidAtIndex_eq]
  unfold modifyAttributes
  rw [List.getElem?_modify]
  cases t[k]? with
  | none => rfl
  | some p =>
      by_cases hk : i = k
      · simp only [hk, if_true, Option.map_some]
        rfl
      · simp only [hk, if_false, Option.map_some]
        rfl

/-- Marking leaves the type GUIDs. -/
theorem markEntries_sameGuids (activeSlot : List CHAR16)
    (t : List PartitionEntry) : SameGuids t (markEntries activeSlot t) := by
  intro k
  rw [guidAtIndex_eq, guidAtIndex_eq]
  unfold markEntries
  rw [List.getElem?_map]
  cases t[k]? with
  | none => rfl
  | some p =>
      simp only [Option.map_some, Option.getD_some]
      split
      · rfl
      · rfl

/-- Looking for the active slot leaves the type GUIDs. -/
theorem getActiveSlot_sameGuids (env : Env) (activeSlot : Slot) (s : St) :
    SameGuids s.ptnEntries
      (getActiveSlot env activeSlot s).2.2.ptnEntries := by
  unfold getActiveSlot
  generalize findActiveSlot s.ptnEntries [slotA, slotB] activeSlot 0 = r
  obtain ⟨status, activeSlot⟩ := r
  dsimp only
  split
  · exact SameGuids.refl _
  · split
    · split
      · exact SameGuids.refl _
      · split
        · split
          · exact modifyAttributes_sameGuids _ _ _
          · rw [(updatePartitionAttributes_frame env _ _).ptnEntries]
            exact modifyAttributes_sameGuids _ _ _
        · exact SameGuids.refl _
    · exact SameGuids.refl _

variable (env ix) in
/-- Storing the words of both slots leaves the type GUIDs. -/
theorem storedState_sameGuids (x : Side) (r f : Bool) (s : St) :
    SameGuids s.ptnEntries (storedState env ix x r f s).ptnEntries := by
  have hent : (storedState env ix x r f s).ptnEntries
      = modifyAttributes (ix x.other) retireAttributes
        (modifyAttributes (ix x) (activateAttributes r f) s.ptnEntries) :=
    (updatePartitionAttributes_frame env _ _).ptnEntries
  rw [hent]
  exact (modifyAttributes_sameGuids _ _ _).trans
    (modifyAttributes_sameGuids _ _ _)

-- ========================================================= the invariant

/-- The list of pairs can be had if the call changes the slot. -/
def ListBuilt (env : Env) (c : Activation) (s : St) : Prop :=
  ∀ (y : Side) (s0 : St),
    getActiveSlot env Slot.zero s = (efiSuccess, y.slot, s0) →
    y ≠ c.slot → (pairList env s).1 = efiSuccess

/-- The list of pairs is not built yet, or complete. -/
def ListComplete (ns : List (List CHAR16)) (nodes : List BootPartsNode) :
    Prop :=
  nodes = [] ∨ nodeBases nodes = (pairBases ns).reverse

/-- A state with active slot `y`, reached from table `t0` with active
slot `y0`. -/
structure Swapped (env : Env) (ix : Side → Nat) (t0 : List PartitionEntry)
    (y0 : Side) (s : St) (y : Side) : Prop where
  table : BootTable s.ptnEntries ix
  sameNames : SameNames t0 s.ptnEntries
  found : ∃ s0, FoundSlot env ix s s0 y
  nodes : ListComplete (names t0) s.headNode
  guids : ∀ k, guidAtIndex s.ptnEntries k = if y = y0 then guidAtIndex t0 k
    else guidAtIndex t0 (pairSwaps (names t0) k)

/-- The list the switch works with. -/
theorem pairList_complete {s : St} (h : PairedNames (names s.ptnEntries))
    (hnodes : ListComplete (names s.ptnEntries) s.headNode)
    (hok : (pairList env s).1 = efiSuccess) :
    nodeBases (pairList env s).2.headNode
      = (pairBases (names s.ptnEntries)).reverse := by
  unfold pairList at hok ⊢
  by_cases hnil : s.headNode = []
  · rw [if_pos hnil] at hok ⊢
    have hshort : ∀ p ∈ s.ptnEntries, (cstr p.name).length ≤ 31 :=
      fun p hp => h.short _ (List.mem_map_of_mem hp)
    have hlist := multiSlotParts_bases env hshort hok
    rw [hnil] at hlist
    exact hlist.trans (List.append_nil _)
  · rw [if_neg hnil]
    exact hnodes.resolve_left hnil

/-- A switch with the list at hand exchanges every pair once. -/
theorem switchPtnSlots_swaps {s : St}
    (h : PairedNames (names s.ptnEntries)) (x : Side)
    (hnodes : ListComplete (names s.ptnEntries) s.headNode)
    (hok : (pairList env s).1 = efiSuccess) :
    let s' := switchPtnSlots env x.slot.suffix s
    nodeBases s'.headNode = (pairBases (names s.ptnEntries)).reverse
      ∧ ∀ k, guidAtIndex s'.ptnEntries k
        = guidAtIndex s.ptnEntries (pairSwaps (names s.ptnEntries) k) := by
  intro s'
  obtain ⟨hlist, hent⟩ := switchPtnSlots_eq env x.slot.suffix s
  have hbases := pairList_complete h hnodes hok
  have hspec := pairBases_spec h (fun _ hm => hm) h.distinct
  rw [if_neg (not_not.mpr hok)] at hent
  refine ⟨by rw [hlist]; exact hbases, fun k => ?_⟩
  have hmem : ∀ b, b ∈ nodeBases (pairList env s).2.headNode
      ↔ b ∈ pairBases (names s.ptnEntries) := by
    intro b
    rw [hbases, List.mem_reverse]
  have hnodup : (nodeBases (pairList env s).2.headNode).Nodup := by
    rw [hbases]
    exact List.nodup_reverse.mpr hspec.2
  rw [hent, swapPairs_swaps h x _ fun b => (hmem b).mp,
    swaps_pairAt h x.other hnodup hmem]

variable (env) in
/-- The last branch of `SetActiveSlot` on list and GUIDs. -/
theorem finishActivation_swaps (s : St) (x y : Side)
    (h : PairedNames (names s.ptnEntries))
    (hnodes : ListComplete (names s.ptnEntries) s.headNode)
    (hok : y ≠ x → (pairList env s).1 = efiSuccess) :
    let s' := finishActivation env x y s
    ListComplete (names s.ptnEntries) s'.headNode
      ∧ ∀ k, guidAtIndex s'.ptnEntries k = guidAtIndex s.ptnEntries
        (if y = x then k else pairSwaps (names s.ptnEntries) k) := by
  intro s'
  have hs' : s' = finishActivation env x y s := rfl
  unfold finishActivation at hs'
  by_cases hyx : y = x
  · rw [if_pos hyx.symm] at hs'
    have hkept : s'.headNode = s.headNode
        ∧ s'.ptnEntries = s.ptnEntries := by
      obtain ⟨tick, calls, hc⟩ := checkBootLun_frame env y.slot s
      rw [hs']
      split
      · rw [hc]
        exact ⟨rfl, rfl⟩
      · exact ⟨rfl, rfl⟩
    rw [hkept.1, hkept.2]
    exact ⟨hnodes, fun k => by rw [if_pos hyx]⟩
  · rw [if_neg (Ne.symm hyx)] at hs'
    obtain ⟨hlist, hg⟩ := switchPtnSlots_swaps h x hnodes (hok hyx)
    have hmark := markPtnActive_service env x.slot.suffix
      (switchPtnSlots env x.slot.suffix s)
    refine ⟨Or.inr ?_, fun k => ?_⟩
    · rw [hs', hmark.headNode]
      exact hlist
    · rw [hs', markPtnActive_entries, markEntries_sameGuids, hg,
        if_neg hyx]

/-- One successful call. -/
theorem Swapped.step {t0 : List PartitionEntry} {y0 y : Side} {s : St}
    (h0 : PairedNames (names t0)) (h : Swapped env ix t0 y0 s y)
    (c : Activation) (hbuilt : ListBuilt env c s) :
    Swapped env ix t0 y0 (activate env c s) c.slot := by
  obtain ⟨s0, hf⟩ := h.found
  have hns : names s.ptnEntries = names t0 := h.sameNames.names_eq
  -- the table as far as the last branch
  have hb0 := h.table.of_names hf.names
  have hget := getActiveSlot_service env Slot.zero s
  have hgetg := getActiveSlot_sameGuids env Slot.zero s
  rw [hf.eq] at hget hgetg
  obtain ⟨hn1, -⟩ := storedState_words env hb0 c.slot
    c.resetSuccessBit c.setSuccessBit
  have hsvc := hget.trans (storedState_service env ix c.slot
    c.resetSuccessBit c.setSuccessBit s0)
  have hg1 := hgetg.trans (storedState_sameGuids env ix c.slot
    c.resetSuccessBit c.setSuccessBit s0)
  have hn := hf.names.trans hn1
  have heq : activate env c s = finishActivation env c.slot y
      (storedState env ix c.slot c.resetSuccessBit c.setSuccessBit s0) := by
    unfold activate
    rw [setActiveSlot_eq hf.eq hb0]
  -- what the call as a whole leaves
  obtain ⟨-, hnames, hwords⟩ := setActiveSlot_words (x := c.slot)
    (r := c.resetSuccessBit) (f := c.setSuccessBit) h.table hf
  have hb' : BootTable (activate env c s).ptnEntries ix :=
    h.table.of_names hnames
  have honly := getActiveSlot_only env hb'
    hwords.activated.selectable hwords.otherInactive Slot.zero
  have hfound : ∃ s2, FoundSlot env ix (activate env c s) s2 c.slot := by
    rcases getActiveSlot_cases env hb' with ⟨z, s2, hz⟩ | hnone
    · have hzx := hz.eq.symm.trans honly
      rw [Prod.mk.injEq, Prod.mk.injEq, Side.slot_inj] at hzx
      exact ⟨s2, hzx.2.1 ▸ hz⟩
    · exact absurd (congrArg Prod.fst (hnone.1.symm.trans honly))
        efiNotFound_ne_efiSuccess
  -- the last branch, on the stored table
  have hns1 := (h.sameNames.trans hn).names_eq
  have hfinish := finishActivation_swaps env
    (storedState env ix c.slot c.resetSuccessBit c.setSuccessBit s0)
    c.slot y (hns1.symm ▸ h0) (by rw [hns1, hsvc.headNode]; exact h.nodes)
    fun hyx => (pairList_names env hsvc hn).1.trans
      (hbuilt y s0 hf.eq hyx)
  rw [← heq, hns1] at hfinish
  obtain ⟨hlist, hguids⟩ := hfinish
  refine ⟨hb', h.sameNames.trans hnames, hfound, hlist, fun k => ?_⟩
  rw [hguids, hg1, h.guids]
  by_cases hyx : y = c.slot
  · rw [if_pos hyx, hyx]
  · rw [if_neg hyx]
    by_cases hy0 : y = y0
    · rw [if_pos hy0, if_neg fun hcon => hyx (hy0.trans hcon.symm)]
    · have hc0 : c.slot = y0 := by
        rcases y.eq_or_other c.slot with heq' | heq'
        · exact absurd heq'.symm hyx
        · rcases y.eq_or_other y0 with h0' | h0'
          · exact absurd h0'.symm hy0
          · exact heq'.trans h0'.symm
      rw [if_neg hy0, if_pos hc0, pairSwaps_pairSwaps h0]

-- =============================================================== the run

/-- The slot `GetActiveSlot` reports. -/
def activeSlot (env : Env) (s : St) : Slot :=
  (getActiveSlot env Slot.zero s).2.1

/-- `SetActiveSlot` returns success. -/
def Succeeds (env : Env) (c : Activation) (s : St) : Prop :=
  (setActiveSlot env c.slot.slot c.resetSuccessBit c.setSuccessBit s).1
    = efiSuccess

/-- A successful call starts from an active slot. -/
theorem Succeeds.found {c : Activation} {s : St} (h : Succeeds env c s) :
    ∃ ix y s0, BootTable s.ptnEntries ix ∧ FoundSlot env ix s s0 y := by
  have hok : (getActiveSlot env Slot.zero s).1 = efiSuccess := by
    by_contra hne
    unfold Succeeds setActiveSlot at h
    dsimp only at h
    rw [if_pos hne] at h
    exact hne h
  obtain ⟨ix, hb⟩ := getActiveSlot_table
    (Prod.ext hok rfl : getActiveSlot env Slot.zero s = (efiSuccess, _, _))
  rcases getActiveSlot_cases env hb with ⟨y, s0, hf⟩ | hnone
  · exact ⟨ix, y, s0, hb, hf⟩
  · rw [hnone.1] at hok
    exact absurd hok efiNotFound_ne_efiSuccess

/-- The active slot is the one the relation names. -/
theorem Swapped.activeSlot_eq {t0 : List PartitionEntry} {y0 y : Side}
    {s : St} (h : Swapped env ix t0 y0 s y) :
    activeSlot env s = y.slot := by
  obtain ⟨s0, hf⟩ := h.found
  unfold activeSlot
  rw [hf.eq]

/-- The state before the run. -/
theorem FoundSlot.swapped {s s0 : St} {y : Side}
    (h : BootTable s.ptnEntries ix) (hf : FoundSlot env ix s s0 y)
    (hnil : s.headNode = []) :
    Swapped env ix s.ptnEntries y s y :=
  ⟨h, rfl, ⟨s0, hf⟩, Or.inl hnil, fun _ => (if_pos rfl).symm⟩

/-- Calls that succeed keep the relation, for some slot. -/
theorem Swapped.run {t0 : List PartitionEntry} {y0 y : Side} {s : St}
    (h0 : PairedNames (names t0)) (h : Swapped env ix t0 y0 s y)
    {calls : List Activation}
    (hrun : EveryStep (activate env)
      (fun c s => Succeeds env c s ∧ ListBuilt env c s) calls s) :
    ∃ y', Swapped env ix t0 y0 (run (activate env) calls s) y' := by
  have hstep : ∀ c s, Succeeds env c s ∧ ListBuilt env c s →
      (∃ y, Swapped env ix t0 y0 s y) →
      ∃ y, Swapped env ix t0 y0 (activate env c s) y := by
    rintro c s ⟨-, hbuilt⟩ ⟨y, hs⟩
    exact ⟨c.slot, hs.step h0 c hbuilt⟩
  exact hrun.invariant hstep ⟨y, h⟩

/-- A call for the active slot exchanges nothing. -/
theorem Swapped.again {t0 : List PartitionEntry} {y0 y : Side} {s : St}
    (h0 : PairedNames (names t0)) (h : Swapped env ix t0 y0 s y)
    {c : Activation} (hc : c.slot = y) :
    SameGuids s.ptnEntries (activate env c s).ptnEntries := by
  have hbuilt : ListBuilt env c s := by
    intro y' s0 hget hne
    have hactive := h.activeSlot_eq
    unfold activeSlot at hactive
    rw [hget] at hactive
    exact absurd ((Side.slot_inj.mp hactive).trans hc.symm) hne
  intro k
  rw [(h.step h0 c hbuilt).guids, h.guids, hc]

/-- After a successful call its slot is the active one. -/
theorem Succeeds.activeSlot_eq {c : Activation} {s : St}
    (h : Succeeds env c s) :
    activeSlot env (activate env c s) = c.slot.slot := by
  obtain ⟨ix, y, s0, hb, hf⟩ := h.found
  obtain ⟨-, hnames, hwords⟩ := setActiveSlot_words (x := c.slot)
    (r := c.resetSuccessBit) (f := c.setSuccessBit) hb hf
  have honly := getActiveSlot_only env (hb.of_names hnames)
    hwords.activated.selectable hwords.otherInactive Slot.zero
  exact congrArg (fun r => r.2.1) honly

/-- A list is built as long as there is memory for its nodes. -/
theorem multiSlotParts_ok (hmem : ∀ n, env.nodeAddr n ≠ 0)
    (ps : List PartitionEntry) (s : St) :
    (multiSlotParts env ps s).1 = efiSuccess := by
  induction ps generalizing s with
  | nil => rfl
  | cons p ps ih =>
      unfold multiSlotParts
      split
      · exact ih s
      · split
        · dsimp only
          rw [if_neg (hmem s.nodeTick)]
          exact ih _
        · exact ih s

/-- With memory every call that needs the list of pairs has it. -/
theorem listBuilt_of_memory (hmem : ∀ n, env.nodeAddr n ≠ 0)
    (c : Activation) (s : St) : ListBuilt env c s := by
  intro y s0 _ _
  unfold pairList
  split
  · exact multiSlotParts_ok hmem s.ptnEntries s
  · rfl

/-- With memory for the list every call of a run succeeds, once there is
an active slot. -/
theorem Swapped.everyStep {t0 : List PartitionEntry} {y0 y : Side} {s : St}
    (h0 : PairedNames (names t0)) (hmem : ∀ n, env.nodeAddr n ≠ 0)
    (h : Swapped env ix t0 y0 s y) (calls : List Activation) :
    EveryStep (activate env)
      (fun c s => Succeeds env c s ∧ ListBuilt env c s) calls s := by
  induction calls generalizing s y with
  | nil => trivial
  | cons c calls ih =>
      obtain ⟨s0, hf⟩ := h.found
      have hok : Succeeds env c s :=
        (setActiveSlot_words (x := c.slot) (r := c.resetSuccessBit)
          (f := c.setSuccessBit) h.table hf).1
      have hbuilt := listBuilt_of_memory hmem c s
      exact ⟨⟨hok, hbuilt⟩, ih (h.step h0 c hbuilt)⟩

/-- A call that cannot have the list of pairs exchanges nothing. -/
theorem activate_without_list {c : Activation} {s : St}
    (h : Succeeds env c s) (hlist : (pairList env s).1 ≠ efiSuccess) :
    SameGuids s.ptnEntries (activate env c s).ptnEntries := by
  obtain ⟨ix, y, s0, hb, hf⟩ := h.found
  have hb0 := hb.of_names hf.names
  have hget := getActiveSlot_service env Slot.zero s
  have hgetg := getActiveSlot_sameGuids env Slot.zero s
  rw [hf.eq] at hget hgetg
  have hsvc := hget.trans (storedState_service env ix c.slot
    c.resetSuccessBit c.setSuccessBit s0)
  have hn := hf.names.trans (storedState_words env hb0 c.slot
    c.resetSuccessBit c.setSuccessBit).1
  have hg := hgetg.trans (storedState_sameGuids env ix c.slot
    c.resetSuccessBit c.setSuccessBit s0)
  have hlist1 := (pairList_names env hsvc hn).1
  unfold activate
  rw [setActiveSlot_eq hf.eq hb0]
  refine hg.trans fun k => ?_
  generalize storedState env ix c.slot c.resetSuccessBit c.setSuccessBit s0
    = s1 at hlist1 ⊢
  unfold finishActivation
  split
  · split
    · obtain ⟨tick, calls, hc⟩ := checkBootLun_frame env y.slot s1
      rw [hc]
    · rfl
  · rw [markPtnActive_entries, markEntries_sameGuids,
      (switchPtnSlots_eq env c.slot.slot.suffix s1).2, hlist1,
      if_pos hlist]

/-- On a table with paired names, as long as no call that changes the
slot runs out of memory, the type GUIDs follow the active slot: back at
the slot of the start they are all back, at the other slot each pair has
exchanged them and nothing else has changed; and a successful call for
the active slot changes none. -/
theorem setActiveSlot_swaps_by_parity (env : Env) (calls : List Activation)
    (s : St) (hnames : PairedNames (names s.ptnEntries))
    (hnil : s.headNode = [])
    (hrun : EveryStep (activate env)
      (fun c s => Succeeds env c s ∧ ListBuilt env c s) calls s) :
    let ns := names s.ptnEntries
    let t := s.ptnEntries
    let s' := run (activate env) calls s
    let t' := s'.ptnEntries
    (activeSlot env s' = activeSlot env s → SameGuids t t')
    ∧ (activeSlot env s' ≠ activeSlot env s →
      (∀ (base : List CHAR16) (i j : Nat),
        ns[i]? = some (base ++ suffixA) → ns[j]? = some (base ++ suffixB) →
        guidAtIndex t' i = guidAtIndex t j
          ∧ guidAtIndex t' j = guidAtIndex t i)
      ∧ ∀ k, (∀ (x : Side) (base : List CHAR16),
          ns[k]? ≠ some (base ++ x.slot.suffix)) →
        guidAtIndex t' k = guidAtIndex t k)
    ∧ ∀ c : Activation, Succeeds env c s' →
      c.slot.slot = activeSlot env s' →
      SameGuids t' (activate env c s').ptnEntries := by
  intro ns t s' t'
  cases calls with
  | nil =>
      refine ⟨fun _ => SameGuids.refl t, fun hne => absurd rfl hne, ?_⟩
      intro c hok hc
      obtain ⟨ix, y, s0, hb, hf⟩ := hok.found
      have hs := FoundSlot.swapped hb hf hnil
      exact hs.again hnames (Side.slot_inj.mp (hc.trans hs.activeSlot_eq))
  | cons c calls =>
      obtain ⟨ix, y, s0, hb, hf⟩ := hrun.1.1.found
      have hs := FoundSlot.swapped hb hf hnil
      obtain ⟨y', hs'⟩ := hs.run hnames hrun
      have hstart := hs.activeSlot_eq
      have hend : activeSlot env s' = y'.slot := hs'.activeSlot_eq
      rw [hstart, hend]
      refine ⟨fun heq k => ?_, fun hne => ?_, fun c' _ hc' => ?_⟩
      · rw [hs'.guids, if_pos (Side.slot_inj.mp heq)]
      · have hyy : y' ≠ y := fun heq => hne (Side.slot_inj.mpr heq)
        have hg : ∀ k, guidAtIndex t' k = guidAtIndex t (pairSwaps ns k) :=
          fun k => (hs'.guids k).trans (if_neg hyy)
        refine ⟨fun base i j hi hj => ?_, fun k hk => ?_⟩
        · obtain ⟨hij, hji⟩ := pairSwaps_slotted hnames hi hj
          rw [hg, hg, hij, hji]
          exact ⟨rfl, rfl⟩
        · rw [hg, pairSwaps_fixed hnames hk]
      · exact hs'.again hnames (Side.slot_inj.mp hc')

-- ============================================================== a sample

/-- The names of the sample. -/
theorem sampleSlots_names : names sampleSlots.ptnEntries
    = [bootName ++ suffixA, bootName ++ suffixB, [0x78, 0x79]] := by
  decide +kernel

/-- A suffix before the end of a name occurs in it without its last
character. -/
theorem suffix_last {n : List CHAR16} {x : Side} {pre post : List CHAR16}
    (hn : ¬ x.slot.suffix <:+: n.dropLast)
    (h : n = pre ++ x.slot.suffix ++ post) : post = [] := by
  by_contra hpost
  refine hn ⟨pre, post.dropLast, ?_⟩
  rw [h, List.dropLast_append_of_ne_nil hpost]

/-- The sample's names are paired. -/
theorem sampleSlots_paired : PairedNames (names sampleSlots.ptnEntries) := by
  rw [sampleSlots_names]
  -- the slotted names of the table are those of `boot`
  have hbase : ∀ (x : Side) (base : List CHAR16),
      base ++ x.slot.suffix
        ∈ [bootName ++ suffixA, bootName ++ suffixB, [0x78, 0x79]] →
      base = bootName := by
    intro x base hmem
    rcases List.mem_cons.mp hmem with ha | hmem
    · exact (slotted_inj (y := .a).mp ha).1
    rcases List.mem_cons.mp hmem with hb | hmem
    · exact (slotted_inj (y := .b).mp hb).1
    · rw [List.mem_singleton] at hmem
      have happ : base ++ x.slot.suffix = [] ++ [0x78, 0x79] := hmem
      obtain ⟨-, hs⟩ := List.append_inj' happ x.suffix_length
      exact absurd hs (by cases x <;> decide)
  have hboth : ∀ x : Side, bootName ++ x.slot.suffix
      ∈ [bootName ++ suffixA, bootName ++ suffixB, [0x78, 0x79]] := by
    intro x
    cases x <;> decide
  have hlast : ∀ x : Side,
      ∀ n ∈ [bootName ++ suffixA, bootName ++ suffixB, [0x78, 0x79]],
        ¬ x.slot.suffix <:+: n.dropLast := by
    intro x
    cases x <;> decide
  refine ⟨by decide, by decide, fun n hn x pre post h => ?_,
    fun x base hmem => ?_, fun x base n hmem hn hlen htake => ?_⟩
  · exact suffix_last (hlast x n hn) h
  · rw [hbase x base hmem]
    exact hboth x.other
  · rw [hbase x base hmem] at hlen htake ⊢
    clear hmem
    revert n
    cases x <;> decide

/-- A device whose pool gives the same 4096 nodes in turn. -/
def pooledEnv : Env where
  __ := sampleEnv
  nodeAddr := fun n => BitVec.ofNat 64 (4096 + 128 * (n % 4096))

/-- To slot b, back to slot a, and to slot b again. -/
def threeSwitches : List Activation :=
  [⟨.b, false, true⟩, ⟨.a, true, false⟩, ⟨.b, false, true⟩]

/-- There is memory for every node. -/
theorem pooledEnv_memory (n : Nat) : pooledEnv.nodeAddr n ≠ 0 := by
  intro hzero
  have hlt : 4096 + 128 * (n % 4096) < 2 ^ 64 := by omega
  have hnat : (4096 + 128 * (n % 4096)) % 2 ^ 64 = 0 :=
    congrArg BitVec.toNat hzero
  omega

/-- With memory for the list, each switch from slot `_a` leads to the
slot it names. -/
theorem pooledEnv_switches (cs : List Activation) :
    EveryStep (activate pooledEnv)
      (fun c s => Succeeds pooledEnv c s ∧ ListBuilt pooledEnv c s) cs
      sampleSlots := by
  have hfirst : Succeeds pooledEnv ⟨.b, false, true⟩ sampleSlots := by
    unfold Succeeds
    decide +kernel
  obtain ⟨ix, y, s0, hb, hf⟩ := hfirst.found
  exact (FoundSlot.swapped hb hf rfl).everyStep sampleSlots_paired
    pooledEnv_memory cs

/-- The slot that is active after some calls is that of the last one. -/
theorem pooledEnv_ends (cs : List Activation) (c : Activation) :
    activeSlot pooledEnv (run (activate pooledEnv) (cs ++ [c]) sampleSlots)
      = c.slot.slot := by
  have hlast := (pooledEnv_switches (cs ++ [c])).last
  rw [run_append, run_singleton]
  exact hlast.1.activeSlot_eq

/-- After two switches the type GUIDs are back, after three they are
exchanged. -/
theorem setActiveSlot_swaps_by_parity_three :
    let t := sampleSlots.ptnEntries
    let t2 := (run (activate pooledEnv) (threeSwitches.take 2)
      sampleSlots).ptnEntries
    let t3 := (run (activate pooledEnv) threeSwitches
      sampleSlots).ptnEntries
    SameGuids t t2 ∧ guidAtIndex t3 0 = guidAtIndex t 1
      ∧ guidAtIndex t3 1 = guidAtIndex t 0 := by
  intro t t2 t3
  have hstart : activeSlot pooledEnv sampleSlots = slotA := by
    decide +kernel
  have hback := pooledEnv_ends [⟨.b, false, true⟩] ⟨.a, true, false⟩
  have hother := pooledEnv_ends (threeSwitches.take 2) ⟨.b, false, true⟩
  have htwo := setActiveSlot_swaps_by_parity pooledEnv
    (threeSwitches.take 2) sampleSlots sampleSlots_paired rfl
    (pooledEnv_switches _)
  have hthree := setActiveSlot_swaps_by_parity pooledEnv threeSwitches
    sampleSlots sampleSlots_paired rfl (pooledEnv_switches _)
  refine ⟨htwo.1 (hback.trans hstart.symm), (hthree.2.1 fun hsame => ?_).1
    bootName 0 1 (by decide +kernel) (by decide +kernel)⟩
  exact absurd (hother.symm.trans (hsame.trans hstart)) (by decide)

/-- A device out of memory. -/
def exhaustedEnv : Env := { sampleEnv with nodeAddr := fun _ => 0 }

/-- Without memory for the list the switch to slot `_b` succeeds, and
`boot_a` and `boot_b` keep their type GUIDs. -/
theorem setActiveSlot_skips_exchange :
    PairedNames (names sampleSlots.ptnEntries) ∧ sampleSlots.headNode = []
      ∧ Succeeds exhaustedEnv ⟨.b, false, true⟩ sampleSlots
      ∧ activeSlot exhaustedEnv
          (activate exhaustedEnv ⟨.b, false, true⟩ sampleSlots)
        ≠ activeSlot exhaustedEnv sampleSlots
      ∧ guidAtIndex (activate exhaustedEnv ⟨.b, false, true⟩
          sampleSlots).ptnEntries 0
        ≠ guidAtIndex sampleSlots.ptnEntries 1 := by
  have hok : Succeeds exhaustedEnv ⟨.b, false, true⟩ sampleSlots := by
    unfold Succeeds
    decide +kernel
  have hlist : (pairList exhaustedEnv sampleSlots).1 ≠ efiSuccess := by
    decide +kernel
  refine ⟨sampleSlots_paired, rfl, hok, ?_, ?_⟩
  · rw [hok.activeSlot_eq]
    decide +kernel
  · rw [activate_without_list hok hlist]
    decide +kernel

end Edk2Exynos.BootSlot
