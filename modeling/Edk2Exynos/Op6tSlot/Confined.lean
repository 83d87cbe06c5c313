/-
Which disks the slot driver writes to.

# Step, loop, run

An iteration leaves the disks alone unless it ends the loop
(`visit_disks`), so every handle is judged by the contents the driver
started with. What it writes is the target's own
(`visit_writesOnly`), and so is what the loop writes
(`slotLoop_writesOnly`). The repair after the loop writes through
whatever the two pointers hold: the target's own protocols when the
driver broke out of the loop, and those of the last lookups when it ran
to the end. Only in the second case can a write miss.
-/
import Edk2Exynos.Op6tSlot.Slot

namespace Edk2Exynos.Op6tSlot

open Lib
open BootSlot (EfiStatus efiError efiSuccess)

-- ========================================================= one iteration

/-- A target comes from the handle's own lookups. -/
theorem target_lookups {disks : Nat → Mem} {h : DiskHandle}
    {t : Nat × Media} (ht : h.target disks = some t) :
    h.diskIo = .found t.1 ∧ h.blockIo = .found t.2 := by
  unfold DiskHandle.target at ht
  split at ht
  next disk media hd hb =>
    split at ht
    · cases ht
      exact ⟨hd, hb⟩
    · cases ht
  next => cases ht

/-- The pointers after an iteration, however it ends. -/
theorem visit_diskIo (h : DiskHandle) (l : LoopState) :
    (visit h l).2.diskIo = diskIoLeft [h] l.diskIo := by
  unfold visit diskIoLeft
  cases hd : h.diskIo with
  | unsupported | failed => simp [hd]
  | found disk =>
      cases h.blockIo with
      | unsupported | failed => simp [hd]
      | found media =>
          simp only [List.foldl_cons, List.foldl_nil, hd]
          split
          · rfl
          split
          · rfl
          split <;> rfl

theorem visit_blockIo (h : DiskHandle) (l : LoopState) :
    (visit h l).2.blockIo = blockIoLeft [h] l.blockIo := by
  unfold visit blockIoLeft
  cases hd : h.diskIo with
  | unsupported | failed => simp [hd]
  | found disk =>
      cases hb : h.blockIo with
      | unsupported | failed => simp [hd, hb]
      | found media =>
          simp only [List.foldl_cons, List.foldl_nil, hd, hb]
          split
          · rfl
          split
          · rfl
          split <;> rfl

/-- A handle that leads to no target is passed over. -/
theorem visit_of_no_target {h : DiskHandle} {l : LoopState}
    (ht : h.target l.s.disks = none) :
    (visit h l).1 = .next ∧ (visit h l).2.s = l.s := by
  unfold DiskHandle.target at ht
  unfold visit
  cases hd : h.diskIo with
  | unsupported | failed => simp
  | found disk =>
      cases hb : h.blockIo with
      | unsupported | failed => simp
      | found media =>
          simp only [hd, hb] at ht
          simp only
          split
          · simp
          next hlogical =>
            split
            · simp
            next hread =>
              split
              · simp
              next hname =>
                rw [if_pos] at ht
                · cases ht
                exact ⟨Bool.eq_false_iff.mpr hlogical,
                  Bool.eq_false_iff.mpr hread, not_not.mp hname⟩

theorem visit_of_target {h : DiskHandle} {l : LoopState}
    {t : Nat × Media} (ht : h.target l.s.disks = some t) :
    visit h l = ((visitTarget h t.1 t.2 l.s).1,
      ⟨some t.1, some t.2, (visitTarget h t.1 t.2 l.s).2⟩) := by
  obtain ⟨hd, hb⟩ := target_lookups ht
  unfold DiskHandle.target at ht
  simp only [hd, hb] at ht
  split at ht
  next hcond =>
    unfold visit
    simp only [hd, hb, hcond.1, hcond.2.1, Bool.false_eq_true, if_false,
      Lookup.pointer]
    exact if_neg (not_not.mpr hcond.2.2)
  next => cases ht

/-- At a target the loop goes on exactly if the handle does not end
it. -/
theorem visitTarget_next_iff {h : DiskHandle} {s : SlotState}
    {t : Nat × Media} (ht : h.target s.disks = some t) :
    (visitTarget h t.1 t.2 s).1 = .next ↔ ¬ h.Ends s.disks := by
  have hends : h.Ends s.disks ↔ (efiError h.readFlagA = true
      ∨ efiError h.readFlagB = true ∨ flagWanted s.disks t.1 t.2 = none
      ∨ efiError h.writeFlag = false) := by
    unfold DiskHandle.Ends
    rw [ht]
    simp
  rw [hends]
  unfold visitTarget flagWanted SlotState.readDisk
  simp only
  split
  next hA => simp [hA]
  next hA =>
    split
    next hB => simp [hB]
    next hB =>
      cases chooseFlag _ _ with
      | none => simp
      | some place =>
          cases hw : efiError h.writeFlag <;> simp [hA, hB]

/-- A failed write, or none, leaves the disks. -/
theorem visitTarget_disks {h : DiskHandle} {disk : Nat} {media : Media}
    {s : SlotState} (hnext : (visitTarget h disk media s).1 = .next) :
    (visitTarget h disk media s).2.disks = s.disks := by
  unfold visitTarget at hnext ⊢
  simp only at hnext ⊢
  split at hnext
  · cases hnext
  next hA =>
    rw [if_neg hA]
    split at hnext
    · cases hnext
    next hB =>
      rw [if_neg hB]
      cases hflag : chooseFlag _ _ with
      | none => rfl
      | some place =>
          rw [hflag] at hnext
          simp only at hnext ⊢
          split at hnext
          next hw =>
            rw [if_pos hw]
            exact writeDisk_disks_of_error hw _
          next => cases hnext

theorem visitTarget_writesOnly {P : SlotWrite → Prop} {h : DiskHandle}
    {disk : Nat} {media : Media} {s : SlotState} (hs : s.WritesOnly P)
    (hw : ∀ (p : SlotPlace) data, P (p.writeOn disk media data)) :
    (visitTarget h disk media s).2.WritesOnly P := by
  unfold visitTarget
  simp only
  split
  · exact hs
  split
  · exact hs
  cases chooseFlag _ _ with
  | none => exact hs
  | some place =>
      have hwritten := hs.writeDisk h.writeFlag
        (hw place [op6tSlotFlagActive])
      simp only
      split
      · exact hwritten
      · exact hwritten

theorem ownWrite_writeOn (p : SlotPlace) (t : Nat × Media)
    (data : List Byte) : OwnWrite t (p.writeOn t.1 t.2 data) :=
  ⟨rfl, rfl, rfl⟩

-- ============================================================== the loop

/-- The loop goes on exactly at the handles that do not end it, -/
theorem visit_next_iff (h : DiskHandle) (l : LoopState) :
    (visit h l).1 = .next ↔ ¬ h.Ends l.s.disks := by
  cases ht : h.target l.s.disks with
  | none =>
      have hends : ¬ h.Ends l.s.disks := by simp [DiskHandle.Ends, ht]
      simp [(visit_of_no_target ht).1, hends]
  | some t =>
      rw [visit_of_target ht]
      exact visitTarget_next_iff ht

/-- and with the disks as they were. -/
theorem visit_disks {h : DiskHandle} {l : LoopState}
    (hnext : (visit h l).1 = .next) :
    (visit h l).2.s.disks = l.s.disks := by
  cases ht : h.target l.s.disks with
  | none => rw [(visit_of_no_target ht).2]
  | some t =>
      rw [visit_of_target ht] at hnext ⊢
      exact visitTarget_disks hnext

theorem visit_disks_of_next {h : DiskHandle} {l l' : LoopState}
    (heq : visit h l = (.next, l')) : l'.s.disks = l.s.disks := by
  have hkeep := visit_disks (congrArg Prod.fst heq)
  rw [heq] at hkeep
  exact hkeep

theorem visit_writesOnly {disks : Nat → Mem} {hs : List DiskHandle}
    {h : DiskHandle} {l : LoopState} (hmem : h ∈ hs)
    (hdisks : l.s.disks = disks) (hl : l.s.WritesOnly (ToTarget disks hs)) :
    (visit h l).2.s.WritesOnly (ToTarget disks hs) := by
  cases ht : h.target l.s.disks with
  | none =>
      rw [(visit_of_no_target ht).2]
      exact hl
  | some t =>
      rw [visit_of_target ht]
      rw [hdisks] at ht
      exact visitTarget_writesOnly hl fun p data =>
        ⟨h, hmem, t, ht, ownWrite_writeOn p t data⟩

theorem slotLoop_writesOnly {disks : Nat → Mem} {all : List DiskHandle} :
    ∀ {hs : List DiskHandle} {l : LoopState}, (∀ h ∈ hs, h ∈ all) →
      l.s.disks = disks → l.s.WritesOnly (ToTarget disks all) →
      (slotLoop hs l).2.s.WritesOnly (ToTarget disks all) := by
  intro hs
  induction hs with
  | nil =>
      intro l _ _ hl
      exact hl
  | cons h hs ih =>
      intro l hall hdisks hl
      obtain ⟨hh, hhs⟩ := List.forall_mem_cons.mp hall
      have hvisit := visit_writesOnly hh hdisks hl
      unfold slotLoop
      split
      next l' heq =>
        have hkeep := visit_disks_of_next heq
        rw [heq] at hvisit
        exact ih hhs (hkeep.trans hdisks) hvisit
      next => exact hvisit

/-- The loop ends early: with a status of its own, or with the pointers
at the target. -/
theorem slotLoop_ends {disks : Nat → Mem} :
    ∀ {hs : List DiskHandle} {l : LoopState}, l.s.disks = disks →
      (∃ h ∈ hs, h.Ends disks) →
      (∃ status, (slotLoop hs l).1 = .leave status)
        ∨ (slotLoop hs l).1 = .stop ∧ ∃ h ∈ hs, ∃ t,
          h.target disks = some t
            ∧ (slotLoop hs l).2.diskIo = some t.1
            ∧ (slotLoop hs l).2.blockIo = some t.2 := by
  intro hs
  induction hs with
  | nil =>
      intro l _ h
      simp at h
  | cons h hs ih =>
      intro l hdisks hends
      unfold slotLoop
      split
      next l' heq =>
        have hkeep := visit_disks_of_next heq
        have hnext : (visit h l).1 = .next := congrArg Prod.fst heq
        rw [visit_next_iff, hdisks] at hnext
        have hrest : ∃ g ∈ hs, g.Ends disks := by
          obtain ⟨g, hg, hgends⟩ := hends
          rcases List.mem_cons.mp hg with rfl | hg
          · exact absurd hgends hnext
          · exact ⟨g, hg, hgends⟩
        rcases ih (hkeep.trans hdisks) hrest with hleave | ⟨hstop, g, hg, hat⟩
        · exact Or.inl hleave
        · exact Or.inr ⟨hstop, g, List.mem_cons_of_mem h hg, hat⟩
      next hne =>
        cases hturn : (visit h l).1 with
        | next => exact (hne _ (Prod.ext hturn rfl)).elim
        | leave status => exact Or.inl ⟨status, rfl⟩
        | stop =>
            refine Or.inr ⟨rfl, h, List.mem_cons_self, ?_⟩
            cases ht : h.target l.s.disks with
            | none =>
                rw [(visit_of_no_target ht).1] at hturn
                cases hturn
            | some t =>
                rw [visit_of_target ht]
                rw [hdisks] at ht
                exact ⟨t, ht, rfl, rfl⟩

/-- The loop runs to its end: every lookup has been made. -/
theorem slotLoop_exhausted {disks : Nat → Mem} :
    ∀ {hs : List DiskHandle} {l : LoopState}, l.s.disks = disks →
      (∀ h ∈ hs, ¬ h.Ends disks) →
      (slotLoop hs l).1 = .next
        ∧ (slotLoop hs l).2.diskIo = diskIoLeft hs l.diskIo
        ∧ (slotLoop hs l).2.blockIo = blockIoLeft hs l.blockIo := by
  intro hs
  induction hs with
  | nil =>
      intro l _ _
      exact ⟨rfl, rfl, rfl⟩
  | cons h hs ih =>
      intro l hdisks hnone
      obtain ⟨hh, hhs⟩ := List.forall_mem_cons.mp hnone
      have hnext : (visit h l).1 = .next := by
        rw [visit_next_iff, hdisks]
        exact hh
      have hkeep := visit_disks hnext
      have hrest := ih (hkeep.trans hdisks) hhs
      have hunfold : slotLoop (h :: hs) l = slotLoop hs (visit h l).2 := by
        conv_lhs => unfold slotLoop
        split
        next l' heq => rw [heq]
        next hne => exact (hne _ (Prod.ext hnext rfl)).elim
      rw [hunfold]
      refine ⟨hrest.1, ?_, ?_⟩
      · rw [hrest.2.1, visit_diskIo]
        rfl
      · rw [hrest.2.2, visit_blockIo]
        rfl

-- ====================================================== after the loop

/-- The repair writes with the two pointers, if it is run at all. -/
theorem finish_writesOnly {P : SlotWrite → Prop} {fix : FixStatuses}
    {r : Turn × LoopState} (hr : r.2.s.WritesOnly P)
    (hw : ∀ disk media, (∀ status, r.1 ≠ .leave status) →
      r.2.diskIo = some disk → r.2.blockIo = some media → fix.Writes →
      ∀ (p : SlotPlace) data, P (p.writeOn disk media data)) :
    (finish fix r).2.WritesOnly P := by
  obtain ⟨turn, l⟩ := r
  unfold finish
  cases turn with
  | leave status => exact hr
  | next | stop =>
      cases hb : l.blockIo with
      | none => simpa [hb] using hr
      | some media =>
          cases hd : l.diskIo with
          | none => simpa [hb, hd] using hr
          | some disk =>
              simp only
              by_cases hfix : fix.Writes
              · apply fixGptCRC32_writesOnly
                · exact hr
                · exact hw disk media (by simp) hd hb hfix
              · rw [fixGptCRC32_idle fix media disk hfix]
                exact hr

theorem finish_writes {fix : FixStatuses} {l : LoopState} {disk : Nat}
    {media : Media} (hd : l.diskIo = some disk)
    (hb : l.blockIo = some media) (hfix : fix.Writes) :
    ∃ data, SlotPlace.entryCrc.writeOn disk media data
      ∈ (finish fix (.next, l)).2.writes := by
  unfold finish
  simp only [hb, hd]
  exact fixGptCRC32_writes fix media disk hfix l.s

-- =============================================================== the run

section

variable (locate : EfiStatus) (hs : List DiskHandle) (fix : FixStatuses)
  (disks : Nat → Mem)

/-- What the driver writes, as far as what it does is defined. -/
def slotWrites : List SlotWrite :=
  (slotMain locate hs fix ⟨disks, []⟩).2.writes

/-- The repair after the loop cannot miss: the loop ended early, or the
lookups leave a null pointer, or the repair fails before it writes, or
what the lookups leave is what a handle looked for has. -/
def RepairsTarget : Prop :=
  (∃ h ∈ hs, h.Ends disks)
    ∨ diskIoLeft hs none = none ∨ blockIoLeft hs none = none
    ∨ ¬ fix.Writes
    ∨ ∃ h ∈ hs, ∃ t, h.target disks = some t
        ∧ diskIoLeft hs none = some t.1
        ∧ ∃ media, blockIoLeft hs none = some media
          ∧ media.mediaId = t.2.mediaId
          ∧ media.blockSize = t.2.blockSize

theorem slotLoop_start_writesOnly :
    (slotLoop hs ⟨none, none, ⟨disks, []⟩⟩).2.s.WritesOnly
      (ToTarget disks hs) := by
  apply slotLoop_writesOnly
  · exact fun _ hh => hh
  · rfl
  · intro w hw
    cases hw

variable {locate hs fix disks}

theorem toTarget_writeOn {h : DiskHandle} {t : Nat × Media}
    {media : Media} (hh : h ∈ hs) (ht : h.target disks = some t)
    (hid : media.mediaId = t.2.mediaId)
    (hbs : media.blockSize = t.2.blockSize) (p : SlotPlace)
    (data : List Byte) : ToTarget disks hs (p.writeOn t.1 media data) := by
  refine ⟨h, hh, t, ht, rfl, hid, ?_⟩
  simp only [SlotPlace.writeOn, hbs]

/-- The place of the entries' checksum tells the block size. -/
theorem entryCrc_offset_inj {x y : UINT32}
    (h : SlotPlace.entryCrc.offset x = SlotPlace.entryCrc.offset y) :
    x = y := by
  have hsum : x + 0x58 = y + 0x58 := by
    have hnat := congrArg BitVec.toNat h
    simp only [SlotPlace.offset, BitVec.toNat_setWidth] at hnat
    apply BitVec.eq_of_toNat_eq
    omega
  exact (BitVec.add_left_inj _).mp hsum

theorem slotWrites_toTarget
    (h : efiError locate = true ∨ RepairsTarget hs fix disks) :
    ∀ w ∈ slotWrites locate hs fix disks, ToTarget disks hs w := by
  unfold slotWrites slotMain
  cases hlocate : efiError locate with
  | true =>
      intro w hw
      cases hw
  | false =>
      have hcond : RepairsTarget hs fix disks := by
        rcases h with hl | hr
        · rw [hlocate] at hl
          cases hl
        · exact hr
      apply finish_writesOnly (slotLoop_start_writesOnly hs disks)
      intro disk media hturn hd hb hfix p data
      by_cases hends : ∃ h ∈ hs, h.Ends disks
      · rcases slotLoop_ends (l := ⟨none, none, ⟨disks, []⟩⟩) rfl hends with
          ⟨status, hleave⟩ | ⟨-, h, hh, t, ht, hd', hb'⟩
        · exact (hturn status hleave).elim
        · cases hd.symm.trans hd'
          cases hb.symm.trans hb'
          exact toTarget_writeOn hh ht rfl rfl p data
      · have hnone : ∀ h ∈ hs, ¬ h.Ends disks :=
          fun h hh he => hends ⟨h, hh, he⟩
        obtain ⟨-, hd', hb'⟩ := slotLoop_exhausted
          (l := ⟨none, none, ⟨disks, []⟩⟩) rfl hnone
        rw [hd] at hd'
        rw [hb] at hb'
        rcases hcond with he | hnd | hnb | hnf |
          ⟨h, hh, t, ht, hdt, m, hm, hid, hbs⟩
        · exact (hends he).elim
        · cases hd'.trans hnd
        · cases hb'.trans hnb
        · exact (hnf hfix).elim
        · cases hd'.trans hdt
          cases hb'.trans hm
          exact toTarget_writeOn hh ht hid hbs p data

/-- Everything the driver writes goes to a whole disk that carries the
boot partition's name, through its own DiskIo, with its own media id and
by its own block size, exactly when the repair after the loop cannot
miss. -/
theorem slotMain_confined_iff :
    (∀ w ∈ slotWrites locate hs fix disks, ToTarget disks hs w)
      ↔ efiError locate = true ∨ RepairsTarget hs fix disks := by
  constructor
  · intro h
    by_contra hcond
    rw [not_or, RepairsTarget, not_or, not_or, not_or, not_or] at hcond
    obtain ⟨hlocate, hends, hnd, hnb, hfix, hmiss⟩ := hcond
    have hnone : ∀ h ∈ hs, ¬ h.Ends disks :=
      fun h hh he => hends ⟨h, hh, he⟩
    obtain ⟨hturn, hd, hb⟩ := slotLoop_exhausted
      (l := ⟨none, none, ⟨disks, []⟩⟩) rfl hnone
    obtain ⟨disk, hdisk⟩ := Option.ne_none_iff_exists'.mp hnd
    obtain ⟨media, hmedia⟩ := Option.ne_none_iff_exists'.mp hnb
    obtain ⟨data, hmem⟩ := finish_writes (hd.trans hdisk) (hb.trans hmedia)
      (not_not.mp hfix)
    have hwrite : SlotPlace.entryCrc.writeOn disk media data
        ∈ slotWrites locate hs fix disks := by
      unfold slotWrites slotMain
      rw [if_neg hlocate, ← Prod.eta (slotLoop hs _), hturn]
      exact hmem
    obtain ⟨g, hg, t, ht, hwd, hid, hoff⟩ := h _ hwrite
    apply hmiss
    refine ⟨g, hg, t, ht, ?_, media, hmedia, hid, ?_⟩
    · rw [hdisk]
      exact congrArg some hwd
    · exact entryCrc_offset_inj hoff
  · exact slotWrites_toTarget

end

-- ============================================== a disk of another kind

/-- A whole disk without the partition; every call succeeds. -/
def otherDisk : DiskHandle where
  diskIo := .found 0
  blockIo := .found ⟨false, 1, 512⟩
  readName := efiSuccess
  readFlagA := efiSuccess
  readFlagB := efiSuccess
  writeFlag := efiSuccess

/-- Disks of zeros. -/
def blankDisks : Nat → Mem := fun _ _ => 0

/-- It is the only disk there is, and gets a checksum in its first
block. -/
theorem slotMain_writes_other_disk :
    (∀ h ∈ [otherDisk], h.target blankDisks = none)
      ∧ ∃ w ∈ slotWrites efiSuccess [otherDisk] goodStatuses blankDisks,
        w.disk = 0 ∧ w.offset = 0x258
          ∧ ¬ ToTarget blankDisks [otherDisk] w := by
  have htarget : ∀ h ∈ [otherDisk], h.target blankDisks = none := by
    intro h hh
    rw [List.mem_singleton.mp hh]
    decide
  have hloop : slotLoop [otherDisk] ⟨none, none, ⟨blankDisks, []⟩⟩
      = (.next, ⟨some 0, some ⟨false, 1, 512⟩, ⟨blankDisks, []⟩⟩) := rfl
  have hfix : goodStatuses.Writes := ⟨by decide, by decide⟩
  obtain ⟨data, hmem⟩ := finish_writes
    (l := ⟨some 0, some ⟨false, 1, 512⟩, ⟨blankDisks, []⟩⟩) rfl rfl hfix
  refine ⟨htarget, SlotPlace.entryCrc.writeOn 0 ⟨false, 1, 512⟩ data, ?_,
    rfl, ?_, ?_⟩
  · unfold slotWrites slotMain
    rw [if_neg (by decide), hloop]
    exact hmem
  · rfl
  · rintro ⟨h, hh, t, ht, -⟩
    rw [htarget h hh] at ht
    cases ht

end Edk2Exynos.Op6tSlot
