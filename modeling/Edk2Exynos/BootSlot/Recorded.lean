/-
The backup table of `UpdatePartitionAttributes`: what the walk records
in it while it edits the buffer.

# Where every entry meets its own slot

An entry that was changed in fields the update type selects only, on a
LUN whose partitions fill the first slots, finds in its slot what was
read from it. So the walk stores exactly the changed fields and leaves
in the backup table the entry itself (`updateEntry_records`), and the
table after the walks of the LUNs below `d` is `recordedTo d`: the new
entries of these LUNs, the old ones of the others.

# On any disk

Where entries and slots have come apart this much is left: a row of the
backup table is kept, or its entry is handled and the row differs from
the old one in selected fields (`walkEntries_keeps`).
-/
import Edk2Exynos.BootSlot.WriteBack

namespace Edk2Exynos.BootSlot

open Lib

-- =============================================================== an entry

/-- The entry differs from the one read in fields an update stores. -/
def OnlySelected (u : UpdateType) (b p : PartitionEntry) : Prop :=
  (¬ u.guidMask →
      p.partEntry.partitionTypeGuid = b.partEntry.partitionTypeGuid)
    ∧ (¬ u.attributesMask → p.partEntry.attributes = b.partEntry.attributes)

section Entry

variable {u : UpdateType} {p b b' : PartitionEntry} {w : Walk}

/-- An entry that is unchanged differs in no field. -/
theorem OnlySelected.refl (u : UpdateType) (b : PartitionEntry) :
    OnlySelected u b b := ⟨fun _ => rfl, fun _ => rfl⟩

/-- Changes in fields that are stored add up to such changes. -/
theorem OnlySelected.trans {b'' : PartitionEntry}
    (h : OnlySelected u b b') (h' : OnlySelected u b' b'') :
    OnlySelected u b b'' :=
  ⟨fun hg => (h'.1 hg).trans (h.1 hg), fun ha => (h'.2 ha).trans (h.2 ha)⟩

/-- Only the two fields tell a changed entry from the one read. -/
theorem FieldsChanged.eq_of_fields (h : FieldsChanged b p)
    (hg : p.partEntry.partitionTypeGuid = b.partEntry.partitionTypeGuid)
    (ha : p.partEntry.attributes = b.partEntry.attributes) : p = b := by
  rw [h.same, hg, ha]

/-- The slot an entry was read from accepts it, … -/
theorem OnlySelected.accepts (h : OnlySelected u b p) :
    Accepts u p b.partEntry := by
  by_cases hg : u.guidMask = true
  · exact Or.inl hg
  · exact Or.inr (Or.inr (h.1 hg).symm)

/-- … and with the selected fields it is the entry's. -/
theorem OnlySelected.storeFields (h : OnlySelected u b p)
    (hc : FieldsChanged b p) :
    storeFields u p b.partEntry = p.partEntry := by
  have hguid : (if u.guidMask then p.partEntry.partitionTypeGuid
      else b.partEntry.partitionTypeGuid) = p.partEntry.partitionTypeGuid := by
    split
    · rfl
    next hg => exact (h.1 hg).symm
  have hattr : (if u.attributesMask then p.partEntry.attributes
      else b.partEntry.attributes) = p.partEntry.attributes := by
    split
    · rfl
    next ha => exact (h.2 ha).symm
  unfold BootSlot.storeFields
  rw [hguid, hattr]
  exact (congrArg PartitionEntry.partEntry hc.same).symm

/-- The GUID half records a changed GUID. -/
theorem updateGuid_records (b' : PartitionEntry) (h : OnlySelected u b p)
    (hslot : entryAt w.buf w.ptr = b.partEntry) :
    guidAt (updateGuid u p b' w).1.buf (updateGuid u p b' w).1.ptr
        = p.partEntry.partitionTypeGuid
      ∧ (updateGuid u p b' w).2 = { b' with partEntry := { b'.partEntry with
          partitionTypeGuid :=
            if p.partEntry.partitionTypeGuid
                = b.partEntry.partitionTypeGuid then
              b'.partEntry.partitionTypeGuid
            else p.partEntry.partitionTypeGuid } }
      ∧ ((updateGuid u p b' w).1.skipUpdation = true
        ↔ w.skipUpdation = true ∧ p.partEntry.partitionTypeGuid
          = b.partEntry.partitionTypeGuid) := by
  have hguid : guidAt w.buf w.ptr = b.partEntry.partitionTypeGuid :=
    congrArg EfiPartitionEntry.partitionTypeGuid hslot
  unfold updateGuid
  rw [hguid]
  split
  next hne =>
    have hne' := Ne.symm hne.2
    refine ⟨?_, ?_, ?_⟩
    · exact EfiGuid.ext (readBytes_writeBytes_same
        p.partEntry.partitionTypeGuid.size)
    · rw [if_neg hne']
    · simp [hne']
  next hsame =>
    have heq : p.partEntry.partitionTypeGuid
        = b.partEntry.partitionTypeGuid := by
      by_cases hg : u.guidMask = true
      · by_contra hne
        exact hsame ⟨hg, Ne.symm hne⟩
      · exact h.1 hg
    refine ⟨?_, ?_, ?_⟩
    · rw [heq]
      exact hguid
    · rw [if_pos heq]
    · simp [heq]

/-- An entry that meets its own slot is recorded whole, whether or not
it has been recorded before. -/
theorem updateEntry_records (hc : FieldsChanged b p)
    (h : OnlySelected u b p) (hslot : entryAt w.buf w.ptr = b.partEntry)
    (hb : b' = p ∨ b' = b) :
    (updateEntry u p b' w).2 = p
      ∧ ((updateEntry u p b' w).1.skipUpdation = true
        ↔ w.skipUpdation = true ∧ p = b) := by
  obtain ⟨hguid, hrec, hskip⟩ := updateGuid_records b' h hslot
  have hattr : getLlword w.buf (w.ptr + attributeFlagOffset)
      = b.partEntry.attributes :=
    congrArg EfiPartitionEntry.attributes hslot
  have hsame := hc.eq_of_fields
  unfold updateEntry
  rw [hattr]
  generalize updateGuid u p b' w = r at *
  obtain ⟨w', b''⟩ := r
  dsimp only at hguid hrec hskip ⊢
  subst hrec
  -- with `b'` the entry itself or the one read, both fields make it `p`
  have hfields : ∀ g a,
      (g = p.partEntry.partitionTypeGuid) → (a = p.partEntry.attributes) →
      ({ b' with partEntry := { b'.partEntry with
        partitionTypeGuid := g, attributes := a } } : PartitionEntry) = p := by
    rintro g a rfl rfl
    rcases hb with rfl | rfl
    · rfl
    · exact hc.same.symm
  have hgfield : (if p.partEntry.partitionTypeGuid
        = b.partEntry.partitionTypeGuid then
      b'.partEntry.partitionTypeGuid else p.partEntry.partitionTypeGuid)
      = p.partEntry.partitionTypeGuid := by
    split
    next heq =>
      rcases hb with rfl | rfl
      · rfl
      · exact heq.symm
    next => rfl
  have hkept : p.partEntry.attributes = b.partEntry.attributes →
      b'.partEntry.attributes = p.partEntry.attributes := by
    intro heq
    rcases hb with rfl | rfl
    · rfl
    · exact heq.symm
  unfold updateAttributes
  rw [hguid]
  by_cases hu : u.attributesMask = true
  · rw [if_pos hu, if_pos (Or.inr rfl)]
    by_cases ha : p.partEntry.attributes = b.partEntry.attributes
    · rw [if_neg (not_not.mpr ha.symm)]
      refine ⟨hfields _ _ hgfield (hkept ha), ?_⟩
      dsimp only
      rw [hskip]
      exact and_congr_right fun _ =>
        ⟨fun hg => hsame hg ha, fun heq => by rw [heq]⟩
    · rw [if_pos (Ne.symm ha)]
      refine ⟨hfields _ _ hgfield rfl, ?_⟩
      simp only [Bool.false_eq_true, false_iff, not_and]
      exact fun _ heq => ha (by rw [heq])
  · have ha := h.2 hu
    rw [if_neg hu]
    refine ⟨hfields _ _ hgfield (hkept ha), ?_⟩
    dsimp only
    rw [hskip]
    exact and_congr_right fun _ =>
      ⟨fun hg => hsame hg ha, fun heq => by rw [heq]⟩

end Entry

-- =============================================================== the walk

/-- The backup table after the walks of the LUNs below `d`. -/
def recordedTo (d : Nat) (ps bs : List PartitionEntry) :
    List PartitionEntry :=
  List.zipWith (fun p b => if p.lun < d then p else b) ps bs

/-- The entries the walk of a LUN handles, with what was read. -/
def pairsOn (d : Nat) (ps bs : List PartitionEntry) :
    List (PartitionEntry × PartitionEntry) :=
  (ps.zip bs).filter fun r => r.1.handled && onLun d r.1

/-- A change the walk can record: of an entry it handles, in fields it
stores. -/
structure Recordable (u : UpdateType) (b p : PartitionEntry) : Prop where
  fields : FieldsChanged b p
  handled : p ≠ b → p.handled
  selected : OnlySelected u b p

section Walk

variable {u : UpdateType} {p b : PartitionEntry}
  {ps bs : List PartitionEntry}

/-- The first entry is recorded when its LUN is below the bound. -/
theorem recordedTo_cons (d : Nat) (p b : PartitionEntry)
    (ps bs : List PartitionEntry) :
    recordedTo d (p :: ps) (b :: bs)
      = (if p.lun < d then p else b) :: recordedTo d ps bs := rfl

/-- Bounds with the same LUNs below them record the same. -/
theorem recordedTo_congr {d d' : Nat}
    (h : ∀ p ∈ ps, p.lun < d ↔ p.lun < d') :
    recordedTo d ps bs = recordedTo d' ps bs := by
  induction ps generalizing bs with
  | nil => rfl
  | cons p ps ih =>
      cases bs with
      | nil => rfl
      | cons b bs =>
          rw [recordedTo_cons, recordedTo_cons,
            ih fun q hq => h q (List.mem_cons_of_mem p hq)]
          simp only [h p List.mem_cons_self]

/-- A handled entry of the LUN is one of its pairs. -/
theorem pairsOn_cons_pos {d : Nat} (hp : p.handled) (hd : p.lun = d) :
    pairsOn d (p :: ps) (b :: bs) = (p, b) :: pairsOn d ps bs := by
  unfold pairsOn
  rw [List.zip_cons_cons, List.filter_cons_of_pos]
  simp [hp, onLun, hd]

/-- Any other entry is not. -/
theorem pairsOn_cons_neg {d : Nat} (h : ¬ (p.handled ∧ p.lun = d)) :
    pairsOn d (p :: ps) (b :: bs) = pairsOn d ps bs := by
  unfold pairsOn
  rw [List.zip_cons_cons, List.filter_cons_of_neg]
  simpa [onLun] using h

/-- No change on the LUN. -/
def SameOn (d : Nat) (ps bs : List PartitionEntry) : Prop :=
  ∀ r ∈ ps.zip bs, r.1.lun = d → r.1 = r.2

/-- Two tables are the same on a LUN when their entries are. -/
theorem sameOn_cons {d : Nat} : SameOn d (p :: ps) (b :: bs)
    ↔ (p.lun = d → p = b) ∧ SameOn d ps bs := by
  unfold SameOn
  rw [List.zip_cons_cons, List.forall_mem_cons]

/-- The walk of a LUN leaves entries of later LUNs alone. -/
theorem recordedTo_later {lun r : Nat} (hr : r = lun ∨ r = lun + 1)
    (hlater : ∀ q ∈ ps, lun < q.lun) :
    recordedTo r ps bs = recordedTo (lun + 1) ps bs ∧ SameOn lun ps bs := by
  constructor
  · refine recordedTo_congr fun q hq => ?_
    have hq' := hlater q hq
    omega
  · intro q hq hcon
    have hq' := hlater q.1 (List.of_mem_zip hq).1
    omega

/-- The first of the entries met is in the slot `j`, the rest after
it. -/
theorem meets_first {buf : Mem} {base j : Nat} {e : EfiPartitionEntry}
    {es : List EfiPartitionEntry} (hj : j < maxNumPartitions)
    (hmeet : e :: es <+: (gptEntries buf base).drop j) :
    e = entryAt buf (base + partitionEntrySize * j)
      ∧ es <+: (gptEntries buf base).drop (j + 1) := by
  have hjlt : j < (gptEntries buf base).length := by
    rw [gptEntries_length]
    exact hj
  rw [List.drop_eq_getElem_cons hjlt, List.cons_prefix_cons] at hmeet
  obtain ⟨hslot, hrest⟩ := hmeet
  rw [gptEntries_getElem] at hslot
  exact ⟨hslot, hrest⟩

/-- The walk of a LUN whose entries meet their own slots records them
all, and has something to store when one is changed. -/
theorem walkEntries_records {ufs : Bool} {lun r base : Nat}
    (hr : r = lun ∨ r = lun + 1) :
    ∀ {ps bs : List PartitionEntry} {w : Walk} {j : Nat},
    List.Forall₂ (Recordable u) bs ps →
    (ps.Pairwise fun p q => p.lun ≤ q.lun) →
    (ufs = false → ∀ p ∈ ps, p.lun = lun) →
    w.ptr = base + partitionEntrySize * j →
    j + ps.length ≤ maxNumPartitions →
    (pairsOn lun ps bs).map (fun r => r.2.partEntry)
      <+: (gptEntries w.buf base).drop j →
    (walkEntries ufs lun u ps (recordedTo r ps bs) w).2
        = recordedTo (lun + 1) ps bs
      ∧ ((walkEntries ufs lun u ps (recordedTo r ps bs) w).1.skipUpdation
          = true
        ↔ w.skipUpdation = true ∧ SameOn lun ps bs) := by
  intro ps
  induction ps with
  | nil =>
      intro bs w j _ _ _ _ _ _
      refine ⟨rfl, ?_⟩
      simp [walkEntries, SameOn]
  | cons p ps ih =>
      intro bs w j hrec hsort hone hptr hj hmeet
      obtain ⟨b, bs, hpb, hrest, rfl⟩ :=
        List.forall₂_cons_right_iff.mp hrec
      obtain ⟨hle, hsort'⟩ := List.pairwise_cons.mp hsort
      have hone' : ufs = false → ∀ q ∈ ps, q.lun = lun := fun h q hq =>
        hone h q (List.mem_cons_of_mem p hq)
      rw [List.length_cons] at hj
      rw [recordedTo_cons, recordedTo_cons, sameOn_cons]
      rcases walkEntries_cases ufs lun u p (if p.lun < r then p else b) ps
        (recordedTo r ps bs) w with
        ⟨hwalk, hover⟩ | ⟨hwalk, -, hlater⟩ | ⟨hwalk, hz, hlun⟩
      · have hnot : ¬ (p.handled ∧ p.lun = lun) := by
          rintro ⟨hh, hlun⟩
          have hlt := (hover (handled_iff.mp hh)).2
          omega
        rw [pairsOn_cons_neg hnot] at hmeet
        obtain ⟨htab, hskip⟩ := ih hrest hsort' hone' hptr (by omega) hmeet
        rw [hwalk, htab, hskip]
        by_cases hh : p.handled = true
        · -- an entry of an earlier LUN
          have hlt := (hover (handled_iff.mp hh)).2
          have hne : p.lun ≠ lun := Nat.ne_of_lt hlt
          dsimp only
          rw [if_pos (by omega), if_pos (by omega)]
          exact ⟨rfl, by simp [hne]⟩
        · -- an entry that is not handled is as it was read
          have hsame : p = b := by
            by_contra hne
            exact hh (hpb.handled hne)
          rw [hsame, ite_self, ite_self]
          exact ⟨rfl, by simp⟩
      · -- the `break`: no later entry is of this LUN
        have hnone : ∀ q ∈ p :: ps, lun < q.lun := by
          intro q hq
          rcases List.mem_cons.mp hq with rfl | hq
          · exact hlater.2
          · have hpq := hle q hq
            omega
        obtain ⟨hcong, hsame⟩ : recordedTo r (p :: ps) (b :: bs)
            = recordedTo (lun + 1) (p :: ps) (b :: bs)
            ∧ SameOn lun (p :: ps) (b :: bs) := recordedTo_later hr hnone
        rw [hwalk]
        exact ⟨hcong, by simpa using fun _ => sameOn_cons.mp hsame⟩
      · have hlun : p.lun = lun := by
          by_cases hu : ufs = true
          · exact hlun hu
          · exact hone (by simpa using hu) p List.mem_cons_self
        rw [pairsOn_cons_pos (handled_iff.mpr hz) hlun, List.map_cons]
          at hmeet
        obtain ⟨hslot, hmeet'⟩ := meets_first (by omega) hmeet
        rw [← hptr] at hslot
        have hacc : Accepts u p (entryAt w.buf w.ptr) := by
          rw [← hslot]
          exact hpb.selected.accepts
        have hb' : (if p.lun < r then p else b) = p
            ∨ (if p.lun < r then p else b) = b := by
          split
          · exact Or.inl rfl
          · exact Or.inr rfl
        obtain ⟨hp, hg⟩ := updateEntry_accepted
          (b := if p.lun < r then p else b) hptr hacc
        obtain ⟨hentry, hskip1⟩ := updateEntry_records hpb.fields
          hpb.selected hslot.symm hb'
        obtain ⟨htab, hskip⟩ := ih hrest hsort' hone' hp (by omega)
          (by rw [hg, List.drop_set_of_lt (by omega)]; exact hmeet')
        rw [hwalk]
        dsimp only
        rw [htab, hskip, hentry, hskip1, if_pos (by omega)]
        refine ⟨rfl, ?_⟩
        rw [and_assoc]
        simp [hlun]

end Walk

-- ============================================================ on any disk

/-- The backup entry changes in its type GUID only. -/
theorem updateGuid_keeps (u : UpdateType) (p b : PartitionEntry)
    (w : Walk) : OnlySelected u b (updateGuid u p b w).2 := by
  unfold updateGuid
  split
  next h => exact ⟨fun hg => absurd h.1 hg, fun _ => rfl⟩
  next => exact OnlySelected.refl u b

/-- The backup entry changes in its attributes only. -/
theorem updateAttributes_keeps (u : UpdateType) (attr : UINT64)
    (p b : PartitionEntry) (w : Walk) :
    OnlySelected u b (updateAttributes u attr p b w).2 := by
  have hrefl := OnlySelected.refl u b
  unfold updateAttributes
  split
  next hu =>
    split
    · split
      · exact ⟨fun _ => rfl, fun ha => absurd hu ha⟩
      · exact hrefl
    · exact hrefl
  next => exact hrefl

/-- Whatever the slots hold, a row is kept, or it is of a handled entry
and was changed in selected fields. -/
theorem walkEntries_keeps {ufs : Bool} {lun : Nat} {u : UpdateType} :
    ∀ {ps bs : List PartitionEntry} {w : Walk} {i : Nat}
      {p b b' : PartitionEntry},
    ps[i]? = some p → bs[i]? = some b →
    (walkEntries ufs lun u ps bs w).2[i]? = some b' →
    b' = b ∨ (p.handled ∧ (ufs = true → p.lun = lun)
      ∧ OnlySelected u b b') := by
  intro ps
  induction ps with
  | nil =>
      intro bs w i p b b' hp
      cases hp
  | cons q ps ih =>
      intro bs w i p b b' hp hb hb'
      cases bs with
      | nil => cases hb
      | cons c bs =>
          -- a row of its own kept, the walk goes on with the others
          have hkept : ∀ w', (c :: (walkEntries ufs lun u ps bs w').2)[i]?
              = some b' → b' = b ∨ (p.handled
                ∧ (ufs = true → p.lun = lun) ∧ OnlySelected u b b') := by
            intro w' h
            cases i with
            | zero =>
                rw [List.getElem?_cons_zero, Option.some.injEq] at h hb
                exact Or.inl (h.symm.trans hb)
            | succ i => exact ih hp hb h
          rcases walkEntries_cases ufs lun u q c ps bs w with
            ⟨hwalk, -⟩ | ⟨hwalk, -⟩ | ⟨hwalk, hz, hlun⟩
          · rw [hwalk] at hb'
            exact hkept w hb'
          · rw [hwalk, hb, Option.some.injEq] at hb'
            exact Or.inl hb'.symm
          · rw [hwalk] at hb'
            cases i with
            | zero =>
                rw [List.getElem?_cons_zero, Option.some.injEq] at *
                subst hp
                subst hb
                subst hb'
                exact Or.inr ⟨handled_iff.mpr hz, hlun,
                  (updateGuid_keeps u q c w).trans
                    (updateAttributes_keeps u _ q _ _)⟩
            | succ i => exact ih hp hb hb'

-- ======================================================== gap-free disks

/-- The partitions of an array are its first slots; the others are
unused. A partition is told by `Data1`, as the code does. -/
def GapFree (slots : List EfiPartitionEntry) : Prop :=
  ∃ es rest, slots = es ++ rest
    ∧ (∀ e ∈ es, e.partitionTypeGuid.data1 ≠ 0) ∧ ∀ e ∈ rest, ¬ e.used

/-- An entry that has a `Data1` is a partition. -/
theorem used_of_data1 {e : EfiPartitionEntry}
    (h : e.partitionTypeGuid.data1 ≠ 0) : e.used = true := by
  by_contra hcon
  exact h (data1_of_not_used hcon)

/-- The used slots of a gap-free array are the first ones, and all have
a nonzero `Data1`. -/
theorem GapFree.used {slots : List EfiPartitionEntry}
    (h : GapFree slots) :
    slots.filter EfiPartitionEntry.used <+: slots
      ∧ ∀ e ∈ slots.filter EfiPartitionEntry.used,
        e.partitionTypeGuid.data1 ≠ 0 := by
  obtain ⟨es, rest, rfl, hes, hrest⟩ := h
  have hfil : (es ++ rest).filter EfiPartitionEntry.used = es := by
    rw [List.filter_append,
      List.filter_eq_self.mpr fun e he => used_of_data1 (hes e he),
      List.filter_eq_nil_iff.mpr hrest, List.append_nil]
  rw [hfil]
  exact ⟨List.prefix_append es rest, hes⟩

/-- Entries that meet their own slots are stored there. -/
theorem walkSlots_pairs {u : UpdateType} {rest : List EfiPartitionEntry} :
    ∀ {rows : List (PartitionEntry × PartitionEntry)},
    (∀ r ∈ rows, Recordable u r.2 r.1) →
    walkSlots u (rows.map Prod.fst)
        (rows.map (fun r => r.2.partEntry) ++ rest)
      = rows.map (fun r => r.1.partEntry) ++ rest := by
  intro rows
  induction rows with
  | nil => exact fun _ => walkSlots_nil u rest
  | cons r rows ih =>
      intro h
      have hr := h r List.mem_cons_self
      have hacc := hr.selected.accepts
      rw [List.map_cons, List.map_cons, List.map_cons, List.cons_append,
        List.cons_append]
      unfold walkSlots
      rw [if_pos hacc, hr.selected.storeFields hr.fields,
        ih fun q hq => h q (List.mem_cons_of_mem r hq)]

/-- The walk handles the entry of a row. -/
def handledRow (r : PartitionEntry × PartitionEntry) : Bool := r.1.handled

/-- What holds of the entries in pairs holds of the pairs. -/
theorem mem_zip_of_forall₂ {R : PartitionEntry → PartitionEntry → Prop}
    {ps bs : List PartitionEntry} (h : List.Forall₂ R bs ps) :
    ∀ r ∈ ps.zip bs, R r.2 r.1 := by
  induction h with
  | nil =>
      intro r hr
      cases hr
  | cons hbp _ ih =>
      rw [List.zip_cons_cons, List.forall_mem_cons]
      exact ⟨hbp, ih⟩

/-- The entries a walk handles, taken LUN first. -/
theorem pairsOn_eq {d : Nat} {ps bs : List PartitionEntry}
    (h : List.Forall₂ (fun b p : PartitionEntry => p.lun = b.lun) bs ps) :
    pairsOn d ps bs = ((ps.filter (onLun d)).zip
      (bs.filter (onLun d))).filter handledRow := by
  induction h with
  | nil => rfl
  | @cons b p bs ps hbp _ ih =>
      by_cases hd : p.lun = d
      · have hp : onLun d p = true := by simpa [onLun] using hd
        have hb : onLun d b = true := by
          simpa [onLun] using hbp.symm.trans hd
        rw [List.filter_cons_of_pos hp, List.filter_cons_of_pos hb,
          List.zip_cons_cons]
        by_cases hh : handledRow (p, b) = true
        · rw [pairsOn_cons_pos hh hd, List.filter_cons_of_pos hh, ih]
        · rw [pairsOn_cons_neg fun hcon => hh hcon.1,
            List.filter_cons_of_neg hh, ih]
      · have hp : ¬ onLun d p = true := by simpa [onLun] using hd
        have hb : ¬ onLun d b = true := by
          rw [hbp] at hd
          simpa [onLun] using hd
        rw [List.filter_cons_of_neg hp, List.filter_cons_of_neg hb,
          pairsOn_cons_neg (fun hcon => hd hcon.2), ih]

namespace ChangedTable

variable {env : Env} {s : St} {u : UpdateType}

/-- On a gap-free LUN every entry the walk handles meets its own slot. -/
theorem pairs_meet (h : ChangedTable env s) {d : Nat}
    (hroot : HasRoot env d) (hgap : GapFree (lunSlots env s d .primary))
    (hrec : List.Forall₂ (Recordable u) s.ptnEntriesBak s.ptnEntries) :
    (pairsOn d s.ptnEntries s.ptnEntriesBak).map (fun r => r.2.partEntry)
      <+: lunSlots env s d .primary := by
  obtain ⟨hused, hdata⟩ := hgap.used
  have hblock := h.bakBlock hroot
  have hrecd : List.Forall₂ (Recordable u)
      (s.ptnEntriesBak.filter (onLun d)) (s.ptnEntries.filter (onLun d)) := by
    refine List.rel_filter ?_ hrec
    intro b p hbp
    show decide (b.lun = d) = true ↔ decide (p.lun = d) = true
    rw [hbp.fields.lun]
  rw [pairsOn_eq (hrec.imp fun _ _ hbp => hbp.fields.lun)]
  cases hps : s.ptnEntries.filter (onLun d) with
  | nil => exact List.nil_prefix
  | cons p ps =>
      rw [hps] at hrecd
      obtain ⟨b, bs, hbp, hrest, hbs⟩ :=
        List.forall₂_cons_right_iff.mp hrecd
      rw [hbs] at hblock ⊢
      obtain ⟨hdev, hrows⟩ := List.cons_prefix_cons.mp hblock
      -- the root-device entry is not handled, all others are
      have hp : ¬ handledRow (p, b) = true := by
        have hz := hbp.fields.device (by
          rw [hdev]
          exact show ¬ EfiPartitionEntry.zero.used = true by decide)
        unfold handledRow PartitionEntry.handled
        rw [hz]
        decide
      have hall : (ps.zip bs).filter handledRow = ps.zip bs := by
        refine List.filter_eq_self.mpr fun r hr => ?_
        by_contra hun
        have hrb := mem_zip_of_forall₂ hrest r hr
        have hsame : r.1 = r.2 := by
          by_contra hne
          exact hun (hrb.handled hne)
        obtain ⟨e, he, heq⟩ :=
          List.mem_map.mp (hrows.subset (List.of_mem_zip hr).2)
        have hne := hdata e he
        unfold handledRow at hun
        rw [hsame, ← heq] at hun
        exact hun (decide_eq_true hne)
      rw [List.zip_cons_cons, List.filter_cons_of_neg hp, hall]
      have hsnd : (ps.zip bs).map (fun r => r.2.partEntry)
          = bs.map PartitionEntry.partEntry := by
        have hle : bs.length ≤ ps.length := by rw [hrest.length_eq]
        have hmap := List.map_snd_zip hle
        calc _ = ((ps.zip bs).map Prod.snd).map
              PartitionEntry.partEntry := (List.map_map ..).symm
          _ = _ := by rw [hmap]
      rw [hsnd]
      have hentries := hrows.map PartitionEntry.partEntry
      rw [List.map_map] at hentries
      have hid : (slots : List EfiPartitionEntry) →
          slots.map (PartitionEntry.partEntry ∘
            fun e => handleEntry d (some e)) = slots :=
        fun slots => List.map_id slots
      rw [hid] at hentries
      exact hentries.trans hused

/-- What the loop handles for a LUN. -/
theorem selected_pairs (h : ChangedTable env s) {d : Nat}
    (hroot : HasRoot env d) :
    selected (env.rootDeviceType == .ufs) d s.ptnEntries
      = (pairsOn d s.ptnEntries s.ptnEntriesBak).map Prod.fst := by
  have hfst : (s.ptnEntries.zip s.ptnEntriesBak).map Prod.fst
      = s.ptnEntries :=
    List.map_fst_zip (Nat.le_of_eq h.length_eq)
  rw [h.selected_eq hroot, ← h.rows_handled hroot, List.filter_filter]
  unfold pairsOn
  conv_lhs => rw [← hfst]
  rw [List.filter_map]
  rfl

end ChangedTable

end Edk2Exynos.BootSlot
