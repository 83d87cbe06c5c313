/-
The walk of `UpdatePartitionAttributes` at the level of GPT slots.

`walkEntries` edits bytes behind a moving pointer; `walkSlots` says the
same on the list of slots of the entry array. Its shape shows what ties
a table entry to a slot: nothing but the order in which the two lists
are consumed. `walkEntries_slots` is the connection, and
`selected` is the sublist of the table that reaches the loop body for a
LUN.

A slot is represented by the `EfiPartitionEntry` its 128 bytes decode
to; the decoding loses nothing (`entryAt_eq_iff`), so an equation
between slots is one between their bytes.
-/
import Edk2Exynos.BootSlot.Gpt

namespace Edk2Exynos.BootSlot

open Lib

-- ================================================================= slots

/-- The low byte of a 16-bit unit. -/
theorem append_low (hi lo : Byte) : (hi ++ lo).setWidth 8 = lo := by
  apply BitVec.eq_of_getLsbD_eq
  intro i h
  rw [BitVec.getLsbD_setWidth, BitVec.getLsbD_append]
  simp [h]

/-- The high byte of a 16-bit unit. -/
theorem append_high (hi lo : Byte) :
    ((hi ++ lo) >>> 8).setWidth 8 = hi := by
  apply BitVec.eq_of_getLsbD_eq
  intro i h
  rw [BitVec.getLsbD_setWidth, BitVec.getLsbD_ushiftRight,
    BitVec.getLsbD_append]
  simp [h]

/-- The entry array at `base`, slot by slot. -/
def gptEntries (m : Mem) (base : Nat) : List EfiPartitionEntry :=
  (List.range maxNumPartitions).map fun k =>
    entryAt m (base + partitionEntrySize * k)

@[simp] theorem gptEntries_length (m : Mem) (base : Nat) :
    (gptEntries m base).length = maxNumPartitions := by
  simp [gptEntries]

/-- The `k`-th entry is read at its place. -/
theorem gptEntries_getElem {m : Mem} {base k : Nat}
    (h : k < (gptEntries m base).length) :
    (gptEntries m base)[k]
      = entryAt m (base + partitionEntrySize * k) := by
  simp [gptEntries]

/-- Equal bytes are equal entries. -/
theorem entryAt_congr {m m' : Mem} {a b : Nat}
    (h : ∀ i, i < partitionEntrySize → m (a + i) = m' (b + i)) :
    entryAt m a = entryAt m' b := by
  rw [show partitionEntrySize = 128 from rfl] at h
  have hread : ∀ f n, f + n ≤ 128 →
      readBytes m (a + f) n = readBytes m' (b + f) n := by
    intro f n hfn
    refine readBytes_congr fun i hi => ?_
    rw [Nat.add_assoc, Nat.add_assoc]
    exact h (f + i) (by omega)
  unfold entryAt
  rw [EfiPartitionEntry.mk.injEq]
  refine ⟨?_, ?_, ?_, ?_, ?_, ?_⟩
  · simp only [guidAt, EfiGuid.mk.injEq]
    exact hread 0 16 (by omega)
  · simp only [guidAt, EfiGuid.mk.injEq]
    exact hread 16 16 (by omega)
  · exact getLlword_congr (hread 32 8 (by omega))
  · exact getLlword_congr (hread 40 8 (by omega))
  · exact getLlword_congr (hread 48 8 (by omega))
  · refine List.map_congr_left fun i hi => ?_
    have hi' := List.mem_range.mp hi
    have h1 := h (57 + 2 * i) (by omega)
    have h2 := h (56 + 2 * i) (by omega)
    rw [← Nat.add_assoc, ← Nat.add_assoc] at h1 h2
    rw [h1, h2]

/-- The decoding of a slot loses nothing: equal entries are equal
bytes. -/
theorem entryAt_eq_iff {m m' : Mem} {a b : Nat} :
    entryAt m a = entryAt m' b
      ↔ readBytes m a partitionEntrySize
        = readBytes m' b partitionEntrySize := by
  constructor
  · intro h
    unfold entryAt at h
    rw [EfiPartitionEntry.mk.injEq] at h
    obtain ⟨h0, h16, h32, h40, h48, h56⟩ := h
    simp only [guidAt, EfiGuid.mk.injEq] at h0 h16
    have hw : ∀ f, getLlword m (a + f) = getLlword m' (b + f) →
        readBytes m (a + f) 8 = readBytes m' (b + f) 8 := by
      intro f hf
      rw [← bytesOfLongLong_getLlword, hf, bytesOfLongLong_getLlword]
    have hname : readBytes m (a + 56) 72 = readBytes m' (b + 56) 72 := by
      refine readBytes_congr fun i hi => ?_
      have hunit := List.map_inj_left.mp h56 (i / 2)
        (List.mem_range.mpr (by omega))
      have hlo := congrArg (BitVec.setWidth 8) hunit
      have hhi := congrArg
        (fun x : BitVec 16 => (x >>> 8).setWidth 8) hunit
      rcases Nat.mod_two_eq_zero_or_one i with hpar | hpar
      · have hi2 : 2 * (i / 2) = i := by omega
        rw [hi2] at hlo
        simp only [append_low] at hlo
        exact hlo
      · have hi2 : a + 57 + 2 * (i / 2) = a + 56 + i := by omega
        have hi2' : b + 57 + 2 * (i / 2) = b + 56 + i := by omega
        rw [hi2, hi2'] at hhi
        simp only [append_high] at hhi
        exact hhi
    rw [show partitionEntrySize = 16 + (16 + (8 + (8 + (8 + 72)))) from rfl]
    rw [readBytes_add m, readBytes_add m, readBytes_add m,
      readBytes_add m, readBytes_add m, readBytes_add m',
      readBytes_add m', readBytes_add m', readBytes_add m',
      readBytes_add m']
    simp only [Nat.add_assoc, Nat.reduceAdd]
    rw [show readBytes m a 16 = _ from h0,
      show readBytes m (a + 16) 16 = _ from h16, hw 32 h32, hw 40 h40,
      hw 48 h48, hname]
    rfl
  · intro h
    exact entryAt_congr fun i hi => eq_of_readBytes_eq h hi

/-- A change inside one slot is a change of one list element. -/
theorem gptEntries_set {m m' : Mem} {base j : Nat}
    (h : AgreeOutside (fun x => base + partitionEntrySize * j ≤ x
      ∧ x < base + partitionEntrySize * j + partitionEntrySize) m m') :
    gptEntries m' base = (gptEntries m base).set j
      (entryAt m' (base + partitionEntrySize * j)) := by
  apply List.ext_getElem
  · rw [List.length_set, gptEntries_length, gptEntries_length]
  · intro k hk hk'
    rw [List.getElem_set, gptEntries_getElem]
    split
    next heq => rw [heq]
    next hne =>
      rw [gptEntries_getElem]
      refine entryAt_congr fun i hi => h _ ?_
      simp only [partitionEntrySize] at hi ⊢
      omega

/-- A GUID stored at an entry is its new type GUID. -/
theorem entryAt_write_guid (m : Mem) (a : Nat) (g : EfiGuid) :
    entryAt (writeBytes m a g.bytes) a
      = { entryAt m a with partitionTypeGuid := g } := by
  have hsz : g.bytes.length = 16 := g.size
  have hout : ∀ f n, 16 ≤ f →
      readBytes (writeBytes m a g.bytes) (a + f) n
        = readBytes m (a + f) n := by
    intro f n hf
    exact readBytes_writeBytes_disjoint (Or.inr (by omega))
  unfold entryAt
  rw [EfiPartitionEntry.mk.injEq]
  refine ⟨?_, ?_, ?_, ?_, ?_, ?_⟩
  · exact EfiGuid.ext (readBytes_writeBytes_same g.size)
  · simp only [guidAt, EfiGuid.mk.injEq]
    exact hout 16 16 (by omega)
  · exact getLlword_congr (hout 32 8 (by omega))
  · exact getLlword_congr (hout 40 8 (by omega))
  · exact getLlword_congr (hout 48 8 (by omega))
  · dsimp only
    refine List.map_congr_left fun i _ => ?_
    rw [writeBytes_outside (Or.inr (by omega)),
      writeBytes_outside (Or.inr (by omega))]

/-- A word stored at the field is the entry's new attributes. -/
theorem entryAt_put_attributes (m : Mem) (a : Nat) (v : UINT64) :
    entryAt (putLongLong m (a + attributeFlagOffset) v) a
      = { entryAt m a with attributes := v } := by
  have hout : ∀ f n, f + n ≤ 48 →
      readBytes (putLongLong m (a + attributeFlagOffset) v) (a + f) n
        = readBytes m (a + f) n := by
    intro f n hf
    refine readBytes_writeBytes_disjoint (Or.inl ?_)
    rw [show attributeFlagOffset = 48 from rfl]
    omega
  unfold entryAt
  rw [EfiPartitionEntry.mk.injEq]
  refine ⟨?_, ?_, ?_, ?_, getLlword_putLongLong _ _ _, ?_⟩
  · simp only [guidAt, EfiGuid.mk.injEq]
    exact hout 0 16 (by omega)
  · simp only [guidAt, EfiGuid.mk.injEq]
    exact hout 16 16 (by omega)
  · exact getLlword_congr (hout 32 8 (by omega))
  · exact getLlword_congr (hout 40 8 (by omega))
  · dsimp only
    refine List.map_congr_left fun i _ => ?_
    rw [putLongLong_outside, putLongLong_outside]
    · exact Or.inr (by rw [show attributeFlagOffset = 48 from rfl]; omega)
    · exact Or.inr (by rw [show attributeFlagOffset = 48 from rfl]; omega)

-- ======================================================= one table entry

/-- A slot with the fields of table entry `p` that an update selects. -/
def storeFields (u : UpdateType) (p : PartitionEntry)
    (e : EfiPartitionEntry) : EfiPartitionEntry :=
  { e with
    partitionTypeGuid := if u.guidMask then p.partEntry.partitionTypeGuid
      else e.partitionTypeGuid
    attributes := if u.attributesMask then p.partEntry.attributes
      else e.attributes }

/-- The loop body takes slot `e` for table entry `p`. -/
def Accepts (u : UpdateType) (p : PartitionEntry)
    (e : EfiPartitionEntry) : Prop :=
  u.guidMask ∨ e.partitionTypeGuid.data1 = 0
    ∨ e.partitionTypeGuid = p.partEntry.partitionTypeGuid

instance (u : UpdateType) (p : PartitionEntry) (e : EfiPartitionEntry) :
    Decidable (Accepts u p e) :=
  inferInstanceAs (Decidable (_ ∨ _ ∨ _))

/-- An update type without the GUID half has the attribute half. -/
theorem UpdateType.attributesMask_of_not_guidMask {u : UpdateType}
    (h : ¬ u.guidMask) : u.attributesMask = true := by
  cases u with
  | partitionAttributes => rfl
  | partitionGuid => exact absurd rfl h
  | partitionAll => rfl

/-- A slot another partition's GUID is in stops the pointer. -/
theorem updateEntry_refused {u : UpdateType} {p b : PartitionEntry}
    {w : Walk} (h : ¬ Accepts u p (entryAt w.buf w.ptr)) :
    updateEntry u p b w = (w, b) := by
  unfold Accepts at h
  rw [not_or, not_or] at h
  obtain ⟨hg, hd, hne⟩ := h
  have hguid : updateGuid u p b w = (w, b) := by
    unfold updateGuid
    rw [if_neg fun hcon => hg hcon.1]
  have hatt := UpdateType.attributesMask_of_not_guidMask hg
  unfold updateEntry
  simp only [hguid]
  unfold updateAttributes
  rw [if_pos hatt, if_neg]
  rintro (hcon | hcon)
  · exact hd hcon
  · exact hne hcon

/-- The GUID half on the slot at the pointer. -/
theorem updateGuid_entry (u : UpdateType) (p b : PartitionEntry)
    (w : Walk) :
    (updateGuid u p b w).1.ptr = w.ptr
      ∧ entryAt (updateGuid u p b w).1.buf w.ptr
        = { entryAt w.buf w.ptr with
            partitionTypeGuid :=
              if u.guidMask then p.partEntry.partitionTypeGuid
              else (entryAt w.buf w.ptr).partitionTypeGuid }
      ∧ AgreeOutside (fun x => w.ptr ≤ x
          ∧ x < w.ptr + partitionEntrySize) w.buf
        (updateGuid u p b w).1.buf := by
  unfold updateGuid
  split
  next h =>
    refine ⟨rfl, ?_, (AgreeOutside.refl _ _).write ?_⟩
    · rw [if_pos h.1]
      exact entryAt_write_guid _ _ _
    · intro x hx hx'
      rw [p.partEntry.partitionTypeGuid.size] at hx'
      simp only [guidSize, partitionEntrySize] at hx' ⊢
      omega
  next h =>
    refine ⟨rfl, ?_, AgreeOutside.refl _ _⟩
    by_cases hg : u.guidMask = true
    · have heq : guidAt w.buf w.ptr = p.partEntry.partitionTypeGuid := by
        by_contra hcon
        exact h ⟨hg, hcon⟩
      rw [if_pos hg, ← heq]
      rfl
    · rw [if_neg hg]

/-- An accepted slot gets the selected fields, and the pointer moves to
the next slot. -/
theorem updateEntry_accepted {u : UpdateType} {p b : PartitionEntry}
    {w : Walk} {base j : Nat} (hptr : w.ptr = base + partitionEntrySize * j)
    (h : Accepts u p (entryAt w.buf w.ptr)) :
    (updateEntry u p b w).1.ptr = base + partitionEntrySize * (j + 1)
      ∧ gptEntries (updateEntry u p b w).1.buf base
        = (gptEntries w.buf base).set j
            (storeFields u p (entryAt w.buf w.ptr)) := by
  obtain ⟨hp, he, hag⟩ := updateGuid_entry u p b w
  have hnext : (updateGuid u p b w).1.ptr + partitionEntrySize
      = base + partitionEntrySize * (j + 1) := by
    rw [hp, hptr, Nat.mul_add]
    omega
  -- the slot at the pointer, and that nothing else changed
  suffices hslot : (updateEntry u p b w).1.ptr
        = base + partitionEntrySize * (j + 1)
      ∧ entryAt (updateEntry u p b w).1.buf w.ptr
        = storeFields u p (entryAt w.buf w.ptr)
      ∧ AgreeOutside (fun x => w.ptr ≤ x
          ∧ x < w.ptr + partitionEntrySize) w.buf
        (updateEntry u p b w).1.buf by
    obtain ⟨h1, h2, h3⟩ := hslot
    refine ⟨h1, ?_⟩
    rw [← h2]
    rw [hptr] at h3 ⊢
    exact gptEntries_set h3
  have hattr : getLlword w.buf (w.ptr + attributeFlagOffset)
      = (entryAt w.buf w.ptr).attributes := rfl
  unfold updateEntry
  generalize updateGuid u p b w = r at *
  obtain ⟨w', b'⟩ := r
  dsimp only at hp he hag hnext ⊢
  unfold updateAttributes
  by_cases hu : u.attributesMask = true
  · have hacc : (guidAt w'.buf w'.ptr).data1 = 0
        ∨ guidAt w'.buf w'.ptr = p.partEntry.partitionTypeGuid := by
      have hguid : guidAt w'.buf w'.ptr
          = (entryAt w'.buf w.ptr).partitionTypeGuid := by
        rw [hp]
        rfl
      rw [hguid, he]
      by_cases hg : u.guidMask = true
      · rw [if_pos hg]
        exact Or.inr rfl
      · rw [if_neg hg]
        exact h.resolve_left hg
    rw [if_pos hu, if_pos hacc]
    split
    · refine ⟨hnext, ?_, hag.write ?_⟩
      · rw [hp, entryAt_put_attributes, he]
        unfold storeFields
        rw [if_pos hu]
      · intro x hx hx'
        rw [bytesOfLongLong_length, hp] at *
        simp only [attributeFlagOffset, partitionEntrySize] at hx hx' ⊢
        omega
    next heq =>
      refine ⟨hnext, ?_, hag⟩
      rw [he]
      unfold storeFields
      rw [if_pos hu, ← not_not.mp heq]
      rfl
  · rw [if_neg hu]
    refine ⟨hnext, ?_, hag⟩
    rw [he]
    unfold storeFields
    rw [if_neg hu]

/-- While `SkipUpdation` stays set the buffer is untouched. -/
theorem updateEntry_skip {u : UpdateType} {p b : PartitionEntry}
    {w : Walk} (h : (updateEntry u p b w).1.skipUpdation = true) :
    w.skipUpdation = true ∧ (updateEntry u p b w).1.buf = w.buf := by
  have hguid : (updateGuid u p b w).1.skipUpdation = true →
      updateGuid u p b w = (w, b) := by
    unfold updateGuid
    split
    · intro hs
      cases hs
    · intro _
      rfl
  have hattr : ∀ (attr : UINT64) (b' : PartitionEntry) (w' : Walk),
      (updateAttributes u attr p b' w').1.skipUpdation = true →
      w'.skipUpdation = true
        ∧ (updateAttributes u attr p b' w').1.buf = w'.buf := by
    intro attr b' w'
    unfold updateAttributes
    split
    · split
      · split
        · intro hs
          cases hs
        · intro hs
          exact ⟨hs, rfl⟩
      · intro hs
        exact ⟨hs, rfl⟩
    · intro hs
      exact ⟨hs, rfl⟩
  unfold updateEntry at h ⊢
  generalize updateGuid u p b w = r at *
  obtain ⟨w', b'⟩ := r
  obtain ⟨hs, hb⟩ := hattr _ _ _ h
  cases hguid hs
  exact ⟨hs, hb⟩

-- ============================================================== the walk

/-- The table entries that reach the loop body for LUN `lun`. -/
def selected (ufs : Bool) (lun : Nat) :
    List PartitionEntry → List PartitionEntry
  | [] => []
  | p :: ps =>
      if p.partEntry.partitionTypeGuid.data1 = 0 then selected ufs lun ps
      else if ufs ∧ lun < p.lun then []
      else if ufs ∧ p.lun ≠ lun then selected ufs lun ps
      else p :: selected ufs lun ps

section Selected

variable {ufs : Bool} {lun : Nat} {p : PartitionEntry}
  {ps : List PartitionEntry}

/-- An entry of an earlier LUN is passed over. -/
theorem selected_over
    (h : p.partEntry.partitionTypeGuid.data1 ≠ 0 → ufs ∧ p.lun < lun) :
    selected ufs lun (p :: ps) = selected ufs lun ps := by
  by_cases hz : p.partEntry.partitionTypeGuid.data1 = 0
  · exact if_pos hz
  · obtain ⟨hufs, hlt⟩ := h hz
    have hlater : ¬ (ufs ∧ lun < p.lun) := fun hcon =>
      Nat.lt_asymm hlt hcon.2
    exact (if_neg hz).trans ((if_neg hlater).trans
      (if_pos ⟨hufs, Nat.ne_of_lt hlt⟩))

/-- An entry of a later LUN ends the selection. -/
theorem selected_left (hz : p.partEntry.partitionTypeGuid.data1 ≠ 0)
    (h : ufs ∧ lun < p.lun) : selected ufs lun (p :: ps) = [] :=
  (if_neg hz).trans (if_pos h)

/-- An entry of the LUN is selected. -/
theorem selected_taken (hz : p.partEntry.partitionTypeGuid.data1 ≠ 0)
    (h : ufs → p.lun = lun) :
    selected ufs lun (p :: ps) = p :: selected ufs lun ps := by
  have hlater : ¬ (ufs ∧ lun < p.lun) := fun hcon =>
    Nat.ne_of_gt hcon.2 (h hcon.1)
  exact (if_neg hz).trans ((if_neg hlater).trans
    (if_neg fun hcon => hcon.2 (h hcon.1)))

end Selected

/-- The walk on slots: each entry takes the next slot or is dropped. -/
def walkSlots (u : UpdateType) :
    List PartitionEntry → List EfiPartitionEntry → List EfiPartitionEntry
  | p :: ps, e :: es =>
      if Accepts u p e then storeFields u p e :: walkSlots u ps es
      else walkSlots u ps (e :: es)
  | _, es => es

/-- Without an entry no slot changes. -/
theorem walkSlots_nil (u : UpdateType) (es : List EfiPartitionEntry) :
    walkSlots u [] es = es := by
  cases es <;> rfl

/-- The buffer after the walk: slots before the pointer as they were,
the rest walked. -/
theorem walkEntries_slots {ufs : Bool} {lun : Nat} {u : UpdateType}
    {base : Nat} : ∀ {ps bs : List PartitionEntry} {w : Walk} {j : Nat},
    ps.length ≤ bs.length → w.ptr = base + partitionEntrySize * j →
    j + ps.length ≤ maxNumPartitions →
    gptEntries (walkEntries ufs lun u ps bs w).1.buf base
      = (gptEntries w.buf base).take j
        ++ walkSlots u (selected ufs lun ps)
          ((gptEntries w.buf base).drop j) := by
  intro ps
  induction ps with
  | nil =>
      intro bs w j _ _ _
      unfold walkEntries selected
      rw [walkSlots_nil, List.take_append_drop]
  | cons p ps ih =>
      intro bs w j hlen hptr hj
      rw [List.length_cons] at hlen hj
      cases bs with
      | nil =>
          rw [List.length_nil] at hlen
          omega
      | cons b bs =>
          rw [List.length_cons] at hlen
          rcases walkEntries_cases ufs lun u p b ps bs w with
            ⟨hwalk, hover⟩ | ⟨hwalk, hz, hlater⟩ | ⟨hwalk, hz, hlun⟩
          · rw [hwalk, selected_over hover]
            exact ih (by omega) hptr (by omega)
          · rw [hwalk, selected_left hz hlater, walkSlots_nil,
              List.take_append_drop]
          · have hjlt : j < (gptEntries w.buf base).length := by
              rw [gptEntries_length]
              omega
            have hslot : (gptEntries w.buf base)[j]
                = entryAt w.buf w.ptr := by
              rw [gptEntries_getElem, hptr]
            rw [hwalk, selected_taken hz hlun,
              List.drop_eq_getElem_cons hjlt, hslot]
            unfold walkSlots
            by_cases hacc : Accepts u p (entryAt w.buf w.ptr)
            · obtain ⟨hp, hg⟩ := updateEntry_accepted (b := b) hptr hacc
              rw [if_pos hacc]
              refine (ih (by omega) hp (by omega)).trans ?_
              rw [hg, List.drop_set_of_lt (by omega),
                List.take_succ_eq_append_getElem
                  (by rw [List.length_set]; exact hjlt),
                List.take_set_of_le (by omega), List.append_assoc]
              simp
            · rw [if_neg hacc, updateEntry_refused hacc]
              refine (ih (by omega) hptr (by omega)).trans ?_
              rw [List.drop_eq_getElem_cons hjlt, hslot]

/-- A walk that leaves `SkipUpdation` set changed nothing. -/
theorem walkEntries_skip {ufs : Bool} {lun : Nat} {u : UpdateType} :
    ∀ {ps bs : List PartitionEntry} {w : Walk},
    (walkEntries ufs lun u ps bs w).1.skipUpdation = true →
    w.skipUpdation = true
      ∧ (walkEntries ufs lun u ps bs w).1.buf = w.buf := by
  intro ps
  induction ps with
  | nil =>
      intro bs w h
      exact ⟨h, rfl⟩
  | cons p ps ih =>
      intro bs w
      cases bs with
      | nil =>
          intro h
          exact ⟨h, rfl⟩
      | cons b bs =>
          rcases walkEntries_cases ufs lun u p b ps bs w with
            ⟨hwalk, -⟩ | ⟨hwalk, -⟩ | ⟨hwalk, -⟩
          · rw [hwalk]
            exact ih
          · rw [hwalk]
            exact fun h => ⟨h, rfl⟩
          · rw [hwalk]
            intro h
            obtain ⟨hs, hb⟩ := ih h
            obtain ⟨hs', hb'⟩ := updateEntry_skip hs
            exact ⟨hs', hb.trans hb'⟩

/-- The walk keeps the length of the backup table. -/
theorem walkEntries_length {ufs : Bool} {lun : Nat} {u : UpdateType} :
    ∀ {ps bs : List PartitionEntry} {w : Walk},
    (walkEntries ufs lun u ps bs w).2.length = bs.length := by
  intro ps
  induction ps with
  | nil =>
      intro bs w
      rfl
  | cons p ps ih =>
      intro bs w
      cases bs with
      | nil => rfl
      | cons b bs =>
          rcases walkEntries_cases ufs lun u p b ps bs w with
            ⟨hwalk, -⟩ | ⟨hwalk, -⟩ | ⟨hwalk, -⟩
          · rw [hwalk]
            exact congrArg Nat.succ ih
          · rw [hwalk]
          · rw [hwalk]
            exact congrArg Nat.succ ih

end Edk2Exynos.BootSlot
