/-
The write-back law of `UpdatePartitionAttributes` with working block
I/O: which slots of which LUN end up with which entry's fields.

# The effect of a run

With every service call succeeding, a pass leaves the entry array of its
copy walked (`walkSlots`) and touches nothing else; the two passes and
the loop over LUNs compose without interaction because each writes its
own region. `updatePartitionAttributes_walks` is that effect for a whole
call.

# The law

`WritesBack` is what the update is for: every used slot of every LUN
takes the selected fields of its own table entry, in both copies, and no
other slot changes. The walk meets it exactly when every LUN is
`Aligned`; `updatePartitionAttributes_writes_back_iff` says so for a
table that `UpdatePartitionEntries` built and whose attributes and
partition type GUIDs were then changed (`ChangedTable`).
-/
import Edk2Exynos.BootSlot.Align
import Edk2Exynos.BootSlot.CrashSafe

namespace Edk2Exynos.BootSlot

open Lib

-- ============================================================== one pass

section Pass

variable {env : Env}

/-- Each copy of a LUN with a root device is valid. -/
theorem AllValid.copy {s : St} (hv : AllValid env s) {lun : Nat}
    (hroot : HasRoot env lun) (c : GptCopy) :
    StdMedia (env.media lun) ∧ GptValid (env.media lun) c (s.disk lun) := by
  cases c with
  | primary => exact hv lun hroot false
  | backup => exact hv lun hroot true

/-- Equal bytes are equal entries. -/
theorem gptEntries_congr {m m' : Mem} {a b : Nat}
    (h : ∀ i, i < maxPartitionEntriesSz → m (a + i) = m' (b + i)) :
    gptEntries m a = gptEntries m' b := by
  rw [show maxPartitionEntriesSz = 16384 from rfl] at h
  unfold gptEntries
  refine List.map_congr_left fun k hk => ?_
  have hk' := List.mem_range.mp hk
  refine entryAt_congr fun i hi => ?_
  simp only [maxNumPartitions, partitionEntrySize] at hk' hi ⊢
  rw [Nat.add_assoc, Nat.add_assoc]
  exact h (128 * k + i) (by omega)

/-- The entry array in the buffer of a pass is the one on the medium. -/
theorem gptEntries_loadBlocks {g : BlockIoMedia} (hm : StdMedia g)
    (c : GptCopy) (m : Mem) :
    gptEntries (loadBlocks m (gptAddr g c)
        (maxGptPartEntrySzBytes g).toNat) (ptnEntriesOff g c)
      = gptEntries m (entriesAddr g c) := by
  have hl := hm.buffer_layout c
  have hN := hm.maxGptPartEntrySzBytes_toNat
  refine gptEntries_congr fun i hi => ?_
  unfold loadBlocks
  rw [if_pos (by omega), ← hm.entriesAddr_eq c, Nat.add_assoc]

/-- Writing a sealed buffer puts its entry array on the medium. -/
theorem gptEntries_write {g : BlockIoMedia} (hm : StdMedia g)
    (c : GptCopy) (m buf : Mem) :
    gptEntries (writeBytes m (gptAddr g c)
        (readBytes (sealGpt buf (gptHdrOff g c) (ptnEntriesOff g c)) 0
          (maxGptPartEntrySzBytes g).toNat)) (entriesAddr g c)
      = gptEntries buf (ptnEntriesOff g c) := by
  have hb := hm.blockSize_bounds
  have hl := hm.buffer_layout c
  have hN := hm.maxGptPartEntrySzBytes_toNat
  rw [← hm.entriesAddr_eq c]
  refine gptEntries_congr fun i hi => ?_
  rw [Nat.add_assoc, writeBytes_inside (by
    rw [readBytes_length]
    omega), readBytes_getElem, Nat.zero_add]
  refine sealGpt_agree _ _ _ _ fun hcrc => ?_
  rw [show maxPartitionEntriesSz = 16384 from rfl] at *
  simp only [CrcField, headerCrcOffset, partitionCrcOffset] at hcrc
  omega

/-- A store in the region of one copy leaves the other's array. -/
theorem gptEntries_write_other {g : BlockIoMedia} (hm : StdMedia g)
    {c c' : GptCopy} (hne : c' ≠ c) (m : Mem) {bs : List Byte}
    (hbs : bs.length = (maxGptPartEntrySzBytes g).toNat) :
    gptEntries (writeBytes m (gptAddr g c) bs) (entriesAddr g c')
      = gptEntries m (entriesAddr g c') := by
  have hdis := hm.passes_disjoint
  refine gptEntries_congr fun i hi => writeBytes_outside ?_
  have hreg : gptRegion g c' (entriesAddr g c' + i) :=
    hm.image_in_region (Or.inr ⟨by omega, by omega⟩)
  unfold gptRegion at hreg
  cases c with
  | primary =>
      cases c' with
      | primary => exact absurd rfl hne
      | backup => omega
  | backup =>
      cases c' with
      | primary => omega
      | backup => exact absurd rfl hne

/-- The tail of a pass writes the sealed buffer, or ends the call and
leaves the media and the backup table. -/
theorem storeGpt_result {lun : Nat} {c : GptCopy} {buf : Mem} {s : St}
    (hm : StdMedia (env.media lun))
    (hv : GptValid (env.media lun) c (s.disk lun))
    (hbuf : AgreeOutside (EntryField (ptnEntriesOff (env.media lun) c))
      (loadBlocks (s.disk lun) (gptAddr (env.media lun) c)
        (maxGptPartEntrySzBytes (env.media lun)).toNat) buf) :
    (∃ n, storeGpt env lun c buf s
      = (true, St.writeBlocks { s with ioTick := n }
        { dev := lun
          addr := gptAddr (env.media lun) c
          data := readBytes (sealGpt buf (gptHdrOff (env.media lun) c)
            (ptnEntriesOff (env.media lun) c)) 0
            (maxGptPartEntrySzBytes (env.media lun)).toNat }))
    ∨ ∃ n, storeGpt env lun c buf s = (false, { s with ioTick := n }) := by
  rw [storeGpt_calls hm hv hbuf]
  split
  · exact Or.inr ⟨_, rfl⟩
  split
  · exact Or.inr ⟨_, rfl⟩
  split
  · exact Or.inr ⟨_, rfl⟩
  · exact Or.inl ⟨_, rfl⟩

/-- What one pass of a completing run did. -/
structure CopyRun (env : Env) (u : UpdateType) (lun : Nat) (c : GptCopy)
    (s s' : St) : Prop where
  walked : gptEntries (s'.disk lun) (entriesAddr (env.media lun) c)
    = walkSlots u (selected (env.rootDeviceType == .ufs) lun s.ptnEntries)
        (gptEntries (s.disk lun) (entriesAddr (env.media lun) c))
  otherCopy : ∀ c', c' ≠ c →
    gptEntries (s'.disk lun) (entriesAddr (env.media lun) c')
      = gptEntries (s.disk lun) (entriesAddr (env.media lun) c')
  otherLun : ∀ d, d ≠ lun → s'.disk d = s.disk d
  bakLength : s'.ptnEntriesBak.length = s.ptnEntriesBak.length

/-- The walk of one pass, over the whole array. -/
theorem walkEntries_pass {ufs : Bool} {lun base : Nat} {u : UpdateType}
    {ps bs bs' : List PartitionEntry} {buf : Mem} {w : Walk}
    (hw : walkEntries ufs lun u ps bs
      { ptr := base, buf := buf, skipUpdation := true } = (w, bs'))
    (hlen : ps.length ≤ maxNumPartitions) (hbak : ps.length ≤ bs.length) :
    gptEntries w.buf base
        = walkSlots u (selected ufs lun ps) (gptEntries buf base)
      ∧ AgreeOutside (EntryField base) buf w.buf
      ∧ (w.skipUpdation = true → w.buf = buf)
      ∧ bs'.length = bs.length := by
  let w0 : Walk := { ptr := base, buf := buf, skipUpdation := true }
  have hptr : w0.ptr = base + partitionEntrySize * 0 := rfl
  have hw0 : walkEntries ufs lun u ps bs w0 = (w, bs') := hw
  have hslots : gptEntries (walkEntries ufs lun u ps bs w0).1.buf base
      = walkSlots u (selected ufs lun ps) (gptEntries buf base) :=
    walkEntries_slots hbak hptr (by omega)
  have hagree : AgreeOutside (EntryField base) buf
      (walkEntries ufs lun u ps bs w0).1.buf :=
    walkEntries_agree hptr (by omega)
  have hskip : (walkEntries ufs lun u ps bs w0).1.skipUpdation = true →
      (walkEntries ufs lun u ps bs w0).1.buf = buf :=
    fun h => (walkEntries_skip h).2
  have hbak' : (walkEntries ufs lun u ps bs w0).2.length = bs.length :=
    walkEntries_length
  rw [hw0] at hslots hagree hskip hbak'
  exact ⟨hslots, hagree, hskip, hbak'⟩

/-- The walk a pass makes of its copy. -/
def passWalk (env : Env) (lun : Nat) (u : UpdateType) (c : GptCopy)
    (s : St) : Walk × List PartitionEntry :=
  walkEntries (env.rootDeviceType == .ufs) lun u s.ptnEntries
    s.ptnEntriesBak
    { ptr := ptnEntriesOff (env.media lun) c
      buf := loadBlocks (s.disk lun) (gptAddr (env.media lun) c)
        (maxGptPartEntrySzBytes (env.media lun)).toNat
      skipUpdation := true }

/-- The state a pass has after its walk. -/
def afterWalk (env : Env) (lun : Nat) (u : UpdateType) (c : GptCopy)
    (s : St) : St :=
  { s with
    ioTick := s.ioTick + 1
    ptnEntriesBak := (passWalk env lun u c s).2 }

/-- The calls of a pass: the read, and those of its tail. -/
theorem updateCopy_calls (env : Env) (lun : Nat) (u : UpdateType)
    (c : GptCopy) (s : St) :
    updateCopy env lun u c s
      = if efiError (env.io s.ioTick) then
          (false, { s with ioTick := s.ioTick + 1 })
        else if (passWalk env lun u c s).1.skipUpdation then
          (true, afterWalk env lun u c s)
        else storeGpt env lun c (passWalk env lun u c s).1.buf
          (afterWalk env lun u c s) := rfl

/-- What the walk of a pass leaves. -/
theorem passWalk_pass {lun : Nat} {u : UpdateType} {c : GptCopy} {s : St}
    (hlen : s.ptnEntries.length ≤ maxNumPartitions)
    (hbak : s.ptnEntries.length ≤ s.ptnEntriesBak.length)
    (hm : StdMedia (env.media lun)) :
    gptEntries (passWalk env lun u c s).1.buf
        (ptnEntriesOff (env.media lun) c)
      = walkSlots u (selected (env.rootDeviceType == .ufs) lun s.ptnEntries)
          (gptEntries (s.disk lun) (entriesAddr (env.media lun) c))
      ∧ AgreeOutside (EntryField (ptnEntriesOff (env.media lun) c))
        (loadBlocks (s.disk lun) (gptAddr (env.media lun) c)
          (maxGptPartEntrySzBytes (env.media lun)).toNat)
        (passWalk env lun u c s).1.buf
      ∧ ((passWalk env lun u c s).1.skipUpdation = true →
        walkSlots u (selected (env.rootDeviceType == .ufs) lun s.ptnEntries)
            (gptEntries (s.disk lun) (entriesAddr (env.media lun) c))
          = gptEntries (s.disk lun) (entriesAddr (env.media lun) c))
      ∧ (passWalk env lun u c s).2.length = s.ptnEntriesBak.length := by
  have hload := gptEntries_loadBlocks hm c (s.disk lun)
  obtain ⟨hslots, hagree, hskip, hlenb⟩ :=
    walkEntries_pass (show _ = passWalk env lun u c s from rfl) hlen hbak
  rw [hload] at hslots
  refine ⟨hslots, hagree, fun hsk => ?_, hlenb⟩
  rw [← hslots, hskip hsk, hload]

/-- A pass does its work, or ends the call and leaves the media. -/
theorem updateCopy_result {lun : Nat} {u : UpdateType} {c : GptCopy}
    {s : St} (hlen : s.ptnEntries.length ≤ maxNumPartitions)
    (hbak : s.ptnEntries.length ≤ s.ptnEntriesBak.length)
    (hv : AllValid env s) (hroot : HasRoot env lun) :
    ((updateCopy env lun u c s).1 = true
      ∧ CopyRun env u lun c s (updateCopy env lun u c s).2)
    ∨ ((updateCopy env lun u c s).1 = false
      ∧ (updateCopy env lun u c s).2.disk = s.disk
      ∧ (updateCopy env lun u c s).2.ptnEntriesBak.length
        = s.ptnEntriesBak.length) := by
  obtain ⟨hm, hvc⟩ := hv.copy hroot c
  obtain ⟨hslots, hagree, hskip, hlenb⟩ :=
    passWalk_pass (u := u) (c := c) hlen hbak hm
  rw [updateCopy_calls]
  split
  · exact Or.inr ⟨rfl, rfl, rfl⟩
  split
  next hsk =>
    -- nothing changed, so the walk is the identity on this copy
    exact Or.inl ⟨rfl, (hskip hsk).symm, fun _ _ => rfl, fun _ _ => rfl,
      hlenb⟩
  next =>
    rcases storeGpt_result (s := afterWalk env lun u c s) hm hvc hagree
      with ⟨n, heq⟩ | ⟨n, heq⟩
    · rw [heq]
      refine Or.inl ⟨rfl, ?_, ?_, ?_, hlenb⟩
      · unfold St.writeBlocks afterWalk
        dsimp only
        rw [applyWrite_same _ { dev := lun, addr := _, data := _ },
          gptEntries_write hm, hslots]
      · intro c' hne
        unfold St.writeBlocks afterWalk
        dsimp only
        rw [applyWrite_same _ { dev := lun, addr := _, data := _ },
          gptEntries_write_other hm hne _ (readBytes_length _ _ _)]
      · intro d hne
        unfold St.writeBlocks afterWalk
        dsimp only
        rw [applyWrite_other hne]
    · rw [heq]
      exact Or.inr ⟨rfl, rfl, hlenb⟩

/-- With working I/O a pass does its work. -/
theorem updateCopy_ok (hok : ∀ n, env.io n = efiSuccess) {lun : Nat}
    {u : UpdateType} {c : GptCopy} {s : St}
    (hlen : s.ptnEntries.length ≤ maxNumPartitions)
    (hbak : s.ptnEntries.length ≤ s.ptnEntriesBak.length)
    (hv : AllValid env s) (hroot : HasRoot env lun) :
    (updateCopy env lun u c s).1 = true
      ∧ CopyRun env u lun c s (updateCopy env lun u c s).2 := by
  have hdone : (updateCopy env lun u c s).1 = true := by
    obtain ⟨hm, hvc⟩ := hv.copy hroot c
    obtain ⟨-, hagree, -, -⟩ :=
      passWalk_pass (u := u) (c := c) hlen hbak hm
    have herr := not_efiError_efiSuccess
    rw [updateCopy_calls, hok, if_neg herr]
    split
    · rfl
    · rw [storeGpt_calls (s := afterWalk env lun u c s) hm hvc hagree]
      simp [hok, herr]
  rcases updateCopy_result (u := u) (c := c) hlen hbak hv hroot with
    h | ⟨hend, -⟩
  · exact h
  · rw [hend] at hdone
    cases hdone

-- ============================================================== all LUNs

/-- What a completing run did to one LUN: both arrays walked. -/
def LunWalked (env : Env) (u : UpdateType) (s s' : St) (d : Nat) : Prop :=
  ∀ c, gptEntries (s'.disk d) (entriesAddr (env.media d) c)
    = walkSlots u (selected (env.rootDeviceType == .ufs) d s.ptnEntries)
        (gptEntries (s.disk d) (entriesAddr (env.media d) c))

/-- The update of a LUN succeeds and walks both arrays. -/
theorem updateLun_ok (hok : ∀ n, env.io n = efiSuccess) {lun : Nat}
    {u : UpdateType} {s : St}
    (hlen : s.ptnEntries.length ≤ maxNumPartitions)
    (hbak : s.ptnEntries.length ≤ s.ptnEntriesBak.length)
    (hv : AllValid env s) (hroot : HasRoot env lun) :
    (updateLun env lun u s).1 = true
      ∧ LunWalked env u s (updateLun env lun u s).2 lun
      ∧ (∀ d, d ≠ lun → (updateLun env lun u s).2.disk d = s.disk d)
      ∧ (updateLun env lun u s).2.ptnEntriesBak.length
        = s.ptnEntriesBak.length := by
  have hsucc : ¬ efiSuccess ≠ efiSuccess := fun h => h rfl
  obtain ⟨h1, hrun1⟩ := updateCopy_ok (u := u) (c := .primary)
    (s := (nextIo env s).2) hok hlen hbak hv hroot
  have hfr := updateCopy_frame env lun u .primary (nextIo env s).2
  have hwr := updateCopy_run (u := u) (c := false)
    (s := (nextIo env s).2) hlen hv hroot
  rw [show gptCopy false = .primary from rfl] at hwr
  unfold updateLun
  rw [if_neg (hv.copy hroot .primary).1.getPartitionSize_ne_zero]
  dsimp only
  rw [show (nextIo env s).1 = efiSuccess from hok s.ioTick, if_neg hsucc]
  generalize updateCopy env lun u .primary (nextIo env s).2 = r at *
  obtain ⟨ok, s'⟩ := r
  dsimp only at h1
  subst h1
  dsimp only
  have hptn : s'.ptnEntries = s.ptnEntries := hfr.ptnEntries
  have hbak' : s'.ptnEntriesBak.length = s.ptnEntriesBak.length :=
    hrun1.bakLength
  obtain ⟨h2, hrun2⟩ := updateCopy_ok (u := u) (c := .backup) (s := s')
    hok (by rw [hptn]; exact hlen) (by rw [hptn, hbak']; exact hbak)
    hwr.valid hroot
  refine ⟨h2, ?_, ?_, hrun2.bakLength.trans hbak'⟩
  · intro c
    cases c with
    | primary =>
        rw [hrun2.otherCopy .primary (by decide)]
        exact hrun1.walked
    | backup =>
        rw [hrun2.walked, hptn, hrun1.otherCopy .backup (by decide)]
        rfl
  · intro d hne
    rw [hrun2.otherLun d hne, hrun1.otherLun d hne]
    rfl

/-- The lookups of the root devices: each succeeds and finds the one
handle of the LUN, or none. -/
structure RootLookup (env : Env) (maxLuns : Nat) : Prop where
  emmc : env.rootDeviceType = .emmc →
    maxLuns = 1 ∧ env.rootHandles none = (efiSuccess, 1)
  ufs : env.rootDeviceType = .ufs → ∀ d, d < maxLuns →
    env.rootHandles (some d) = (efiSuccess, 0)
      ∨ env.rootHandles (some d) = (efiSuccess, 1)
  inRange : ∀ d, HasRoot env d → d < maxLuns

/-- A device with a root has a known type. -/
theorem HasRoot.known {d : Nat} (h : HasRoot env d) :
    env.rootDeviceType ≠ .unknown := by
  intro hcon
  unfold HasRoot at h
  rw [hcon] at h
  exact h

/-- One LUN of the loop: passed over without a root device, updated with
one. -/
theorem updateLuns_step {maxLuns : Nat} (hlook : RootLookup env maxLuns)
    (htype : env.rootDeviceType ≠ .unknown) {lun : Nat}
    (hlun : lun < maxLuns) (u : UpdateType) (n maxHandles : Nat) (s : St) :
    (¬ HasRoot env lun ∧ updateLuns env u (n + 1) lun maxHandles s
        = updateLuns env u n (lun + 1) 0 s)
    ∨ (HasRoot env lun ∧ updateLuns env u (n + 1) lun maxHandles s
        = match updateLun env lun u s with
          | (false, s') => s'
          | (true, s') => updateLuns env u n (lun + 1) 1 s') := by
  have hsucc : ¬ efiSuccess ≠ efiSuccess := fun h => h rfl
  have hone : min 1 (max maxHandles 1) = 1 := by omega
  unfold HasRoot
  rw [updateLuns]
  unfold storageDev getStorageHandle
  cases ht : env.rootDeviceType with
  | unknown => exact absurd ht htype
  | emmc =>
      obtain ⟨hluns, hnone⟩ := hlook.emmc ht
      have hzero : lun = 0 := by omega
      subst hzero
      refine Or.inr ⟨rfl, ?_⟩
      simp only [hnone, if_neg hsucc, hone]
      rfl
  | ufs =>
      rcases hlook.ufs ht lun hlun with h0 | h1
      · refine Or.inl ⟨?_, ?_⟩
        · simp [h0]
        · simp only [h0, if_neg hsucc]
          rfl
      · refine Or.inr ⟨?_, ?_⟩
        · simp [h1]
        · simp only [h1, if_neg hsucc, hone]
          rfl

/-- The loop over the LUNs succeeds and walks every one of them. -/
theorem updateLuns_ok (hok : ∀ n, env.io n = efiSuccess) {maxLuns : Nat}
    (hlook : RootLookup env maxLuns)
    (htype : env.rootDeviceType ≠ .unknown) {u : UpdateType} :
    ∀ (n lun maxHandles : Nat) (s : St), lun + n = maxLuns →
    s.ptnEntries.length ≤ maxNumPartitions →
    s.ptnEntries.length ≤ s.ptnEntriesBak.length → AllValid env s →
    ∀ d, (HasRoot env d → lun ≤ d →
        LunWalked env u s (updateLuns env u n lun maxHandles s) d)
      ∧ (d < lun →
        (updateLuns env u n lun maxHandles s).disk d = s.disk d) := by
  intro n
  induction n with
  | zero =>
      intro lun mh s hn _ _ _ d
      refine ⟨fun hroot hd => ?_, fun _ => rfl⟩
      have hlt := hlook.inRange d hroot
      omega
  | succ n ih =>
      intro lun mh s hn hlen hbak hv d
      rcases updateLuns_step hlook htype (show lun < maxLuns by omega) u n
        mh s with ⟨hroot, heq⟩ | ⟨hroot, heq⟩
      · obtain ⟨hin, hout⟩ :=
          ih (lun + 1) 0 s (by omega) hlen hbak hv d
        rw [heq]
        refine ⟨fun hr hd => ?_, fun hd => hout (by omega)⟩
        have hne : d ≠ lun := fun hcon => hroot (hcon ▸ hr)
        exact hin hr (by omega)
      · obtain ⟨hok1, hwalk, hother, hbakl⟩ :=
          updateLun_ok (u := u) hok hlen hbak hv hroot
        have hfr := updateLun_frame hroot u s
        have hwr := updateLun_run (u := u) hlen hv hroot
        rw [heq]
        generalize updateLun env lun u s = r at *
        obtain ⟨ok, s'⟩ := r
        dsimp only at hok1
        subst hok1
        dsimp only at hwalk hother hbakl hfr hwr ⊢
        have hptn : s'.ptnEntries = s.ptnEntries := hfr.ptnEntries
        obtain ⟨hin, hout⟩ := ih (lun + 1) 1 s' (by omega)
          (by rw [hptn]; exact hlen) (by rw [hptn, hbakl]; exact hbak)
          hwr.valid d
        refine ⟨fun hr hd => ?_, fun hd => ?_⟩
        · by_cases hne : d = lun
          · subst hne
            intro c
            rw [hout (by omega)]
            exact hwalk c
          · intro c
            rw [hin hr (by omega) c, hptn, hother d hne]
        · rw [hout (by omega), hother d (by omega)]

/-- A call that finds the table changed walks both arrays of every LUN. -/
theorem updatePartitionAttributes_walks
    (hok : ∀ n, env.io n = efiSuccess) {u : UpdateType} {s : St}
    (hlook : RootLookup env s.maxLuns)
    (hlen : s.ptnEntries.length ≤ maxNumPartitions)
    (hbak : s.ptnEntries.length ≤ s.ptnEntriesBak.length)
    (hv : AllValid env s) (hchg : isUpdatePartitionAttributes s = true)
    {d : Nat} (hroot : HasRoot env d) :
    LunWalked env u s (updatePartitionAttributes env u s) d := by
  unfold updatePartitionAttributes
  rw [if_pos hchg]
  exact (updateLuns_ok hok hlook hroot.known _ 0 _ s (Nat.zero_add _) hlen
    hbak hv d).1 hroot (Nat.zero_le d)

end Pass

-- ============================================================= the table

/-- The entry is on the LUN. -/
def onLun (d : Nat) (p : PartitionEntry) : Bool := decide (p.lun = d)

/-- The partition entries of a LUN: past its root-device entry. -/
def lunRows (t : List PartitionEntry) (d : Nat) : List PartitionEntry :=
  (t.filter (onLun d)).tail

/-- The slots of a GPT copy of a LUN. -/
def lunSlots (env : Env) (s : St) (d : Nat) (c : GptCopy) :
    List EfiPartitionEntry :=
  gptEntries (s.disk d) (entriesAddr (env.media d) c)

/-- Equal disks have equal slots. -/
theorem lunSlots_congr {env : Env} {s s' : St} {d : Nat}
    (h : s'.disk d = s.disk d) (c : GptCopy) :
    lunSlots env s' d c = lunSlots env s d c := by
  unfold lunSlots
  rw [h]

/-- An entry is on the LUN of its handle. -/
theorem handleEntry_lun (d : Nat) (h : HandleEntry) :
    (handleEntry d h).lun = d := by
  cases h with
  | none => rfl
  | some e => rfl

section Table

variable {ptable : List (List HandleEntry)}

/-- The handles of all LUNs, in the order they are stored. -/
def allHandles (ptable : List (List HandleEntry)) (k : Nat) :
    List PartitionEntry :=
  ((ptable.zipIdx k).map fun (hs, lun) => hs.map (handleEntry lun)).flatten

theorem allHandles_cons (hs : List HandleEntry) (k : Nat) :
    allHandles (hs :: ptable) k
      = hs.map (handleEntry k) ++ allHandles ptable (k + 1) := by
  unfold allHandles
  rw [List.zipIdx_cons, List.map_cons, List.flatten_cons]

/-- The entries come from these LUNs on. -/
theorem le_lun_of_mem_allHandles {p : PartitionEntry} {k : Nat}
    (h : p ∈ allHandles ptable k) : k ≤ p.lun := by
  induction ptable generalizing k with
  | nil => cases h
  | cons hs ptable ih =>
      rw [allHandles_cons] at h
      rcases List.mem_append.mp h with h | h
      · obtain ⟨x, -, rfl⟩ := List.mem_map.mp h
        rw [handleEntry_lun]
      · have := ih h
        omega

/-- The entries come from no LUN behind the last. -/
theorem lun_lt_of_mem_allHandles {p : PartitionEntry} {k : Nat}
    (h : p ∈ allHandles ptable k) : p.lun < k + ptable.length := by
  induction ptable generalizing k with
  | nil => cases h
  | cons hs ptable ih =>
      rw [allHandles_cons] at h
      rw [List.length_cons]
      rcases List.mem_append.mp h with h | h
      · obtain ⟨x, -, rfl⟩ := List.mem_map.mp h
        rw [handleEntry_lun]
        omega
      · have := ih h
        omega

/-- LUNs ascend in the table. -/
theorem allHandles_sorted (k : Nat) :
    (allHandles ptable k).Pairwise fun p q => p.lun ≤ q.lun := by
  induction ptable generalizing k with
  | nil => exact List.Pairwise.nil
  | cons hs ptable ih =>
      rw [allHandles_cons]
      refine List.pairwise_append.mpr ⟨?_, ih (k + 1), ?_⟩
      · rw [List.pairwise_map]
        refine List.pairwise_of_forall fun x y => ?_
        rw [handleEntry_lun, handleEntry_lun]
      · intro p hp q hq
        obtain ⟨x, -, rfl⟩ := List.mem_map.mp hp
        have := le_lun_of_mem_allHandles hq
        rw [handleEntry_lun]
        omega

/-- The block of one LUN. -/
theorem allHandles_filter {k d : Nat} {hs : List HandleEntry}
    (h : ptable[d]? = some hs) :
    (allHandles ptable k).filter (onLun (k + d))
      = hs.map (handleEntry (k + d)) := by
  induction ptable generalizing k d with
  | nil => cases h
  | cons hs' ptable ih =>
      rw [allHandles_cons, List.filter_append]
      cases d with
      | zero =>
          rw [List.getElem?_cons_zero, Option.some.injEq] at h
          subst h
          rw [List.filter_eq_self.mpr, List.filter_eq_nil_iff.mpr,
            List.append_nil]
          · rfl
          · intro p hp
            have := le_lun_of_mem_allHandles hp
            simp only [onLun, decide_eq_true_eq]
            omega
          · intro p hp
            obtain ⟨x, -, rfl⟩ := List.mem_map.mp hp
            unfold onLun
            rw [handleEntry_lun]
            simp
      | succ d =>
          rw [List.getElem?_cons_succ] at h
          rw [List.filter_eq_nil_iff.mpr, List.nil_append,
            show k + (d + 1) = k + 1 + d by omega]
          · exact ih h
          · intro p hp
            obtain ⟨x, -, rfl⟩ := List.mem_map.mp hp
            unfold onLun
            rw [handleEntry_lun]
            simp

end Table

/-- The loop's LUN filter, `break` included, on an ascending table. -/
theorem selected_ufs {d : Nat} {t : List PartitionEntry}
    (h : t.Pairwise fun p q => p.lun ≤ q.lun) :
    selected true d t
      = (t.filter (onLun d)).filter PartitionEntry.handled := by
  induction t with
  | nil => rfl
  | cons p ps ih =>
      obtain ⟨hp, hps⟩ := List.pairwise_cons.mp h
      by_cases hh : p.handled = true
      · have hz := handled_iff.mp hh
        rcases Nat.lt_trichotomy p.lun d with hlt | heq | hgt
        · have hd : ¬ onLun d p = true := by
            simpa [onLun] using Nat.ne_of_lt hlt
          rw [selected_over fun _ => ⟨rfl, hlt⟩, ih hps,
            List.filter_cons_of_neg hd]
        · have hd : onLun d p = true := by simpa [onLun] using heq
          rw [selected_taken hz fun _ => heq, ih hps,
            List.filter_cons_of_pos hd, List.filter_cons_of_pos hh]
        · -- no later entry is of this LUN
          have hnil : ((p :: ps).filter (onLun d)) = [] := by
            refine List.filter_eq_nil_iff.mpr fun q hq => ?_
            simp only [onLun, decide_eq_true_eq]
            rcases List.mem_cons.mp hq with rfl | hq
            · omega
            · have hpq := hp q hq
              omega
          rw [selected_left hz ⟨rfl, hgt⟩, hnil, List.filter_nil]
      · rw [selected_over fun hz => absurd (handled_iff.mpr hz) hh, ih hps]
        by_cases hd : onLun d p = true
        · rw [List.filter_cons_of_pos hd, List.filter_cons_of_neg hh]
        · rw [List.filter_cons_of_neg hd]

/-- On eMMC every handled entry is selected. -/
theorem selected_emmc (d : Nat) (t : List PartitionEntry) :
    selected false d t = t.filter PartitionEntry.handled := by
  induction t with
  | nil => rfl
  | cons p ps ih =>
      by_cases hh : p.handled = true
      · have hlun : false → p.lun = d := fun h => by cases h
        rw [selected_taken (handled_iff.mp hh) hlun, ih,
          List.filter_cons_of_pos hh]
      · rw [selected_over fun hz => absurd (handled_iff.mpr hz) hh, ih,
          List.filter_cons_of_neg hh]

/-- Entries read from the slots are already stored. -/
theorem storedSlots_own {u : UpdateType} {d : Nat} :
    ∀ {rows : List PartitionEntry} {slots : List EfiPartitionEntry},
    rows <+: (slots.filter EfiPartitionEntry.used).map
      (fun e => handleEntry d (some e)) →
    storedSlots u rows slots = slots := by
  intro rows slots
  induction slots generalizing rows with
  | nil => intro _; rfl
  | cons e es ih =>
      intro h
      cases rows with
      | nil => exact storedSlots_nil u _
      | cons r rs =>
          unfold storedSlots
          by_cases hu : e.used = true
          · rw [List.filter_cons_of_pos hu, List.map_cons,
              List.cons_prefix_cons] at h
            obtain ⟨rfl, hrs⟩ := h
            rw [if_pos hu, ih hrs]
            have hsame : storeFields u (handleEntry d (some e)) e = e := by
              unfold storeFields handleEntry
              dsimp only
              rw [ite_self, ite_self]
            rw [hsame]
          · rw [List.filter_cons_of_neg hu] at h
            rw [if_neg hu, ih h]

/-- Any attribute words for the entries of one LUN extend to the table. -/
theorem exists_setAttributes_filter (d : Nat) (t : List PartitionEntry)
    (f : Nat → UINT64) :
    ∃ f', (setAttributes f' t).filter (onLun d)
      = setAttributes f (t.filter (onLun d)) := by
  induction t generalizing f with
  | nil => exact ⟨f, rfl⟩
  | cons p ps ih =>
      by_cases hd : onLun d p = true
      · obtain ⟨f', hf⟩ := ih fun i => f (i + 1)
        have hd' : onLun d (p.withAttributes (f 0)) = true := hd
        refine ⟨consAttr (f 0) f', ?_⟩
        rw [setAttributes_consAttr, List.filter_cons_of_pos hd',
          List.filter_cons_of_pos hd, hf, setAttributes_cons]
      · obtain ⟨f', hf⟩ := ih f
        have hd' : ¬ onLun d (p.withAttributes 0) = true := hd
        refine ⟨consAttr 0 f', ?_⟩
        rw [setAttributes_consAttr, List.filter_cons_of_neg hd',
          List.filter_cons_of_neg hd, hf]

/-- New attribute words for the table are new ones for each LUN. -/
theorem lunRows_setAttributes (d : Nat) (t : List PartitionEntry)
    (f : Nat → UINT64) :
    ∃ f', lunRows (setAttributes f t) d
      = setAttributes f' (lunRows t d) := by
  have hfil : ∀ (t : List PartitionEntry) (f : Nat → UINT64),
      ∃ f', (setAttributes f t).filter (onLun d)
        = setAttributes f' (t.filter (onLun d)) := by
    intro t
    induction t with
    | nil => intro f; exact ⟨f, rfl⟩
    | cons p ps ih =>
        intro f
        obtain ⟨f', hf⟩ := ih fun i => f (i + 1)
        rw [setAttributes_cons]
        by_cases hd : onLun d p = true
        · have hd' : onLun d (p.withAttributes (f 0)) = true := hd
          refine ⟨consAttr (f 0) f', ?_⟩
          rw [List.filter_cons_of_pos hd', List.filter_cons_of_pos hd,
            hf, setAttributes_consAttr]
        · have hd' : ¬ onLun d (p.withAttributes (f 0)) = true := hd
          refine ⟨f', ?_⟩
          rw [List.filter_cons_of_neg hd', List.filter_cons_of_neg hd, hf]
  obtain ⟨f', hf'⟩ := hfil t f
  refine ⟨fun i => f' (i + 1), ?_⟩
  unfold lunRows
  rw [hf']
  cases t.filter (onLun d) with
  | nil => rfl
  | cons p ps => rw [setAttributes_cons, List.tail_cons, List.tail_cons]

-- ===================================================== the changed table

/-- What may be changed between reading the table and writing it back:
attributes, and type GUIDs of entries that are partitions. -/
structure FieldsChanged (b p : PartitionEntry) : Prop where
  same : p = { b with partEntry := { b.partEntry with
    partitionTypeGuid := p.partEntry.partitionTypeGuid
    attributes := p.partEntry.attributes } }
  device : ¬ b.partEntry.used →
    p.partEntry.partitionTypeGuid = EfiGuid.zero

/-- A device with working I/O and two equal valid GPTs on every LUN, and
a table that `UpdatePartitionEntries` built from it and in which fields
were then changed. -/
structure ChangedTable (env : Env) (s : St) : Prop where
  io : ∀ n, env.io n = efiSuccess
  device : ValidDevice env s
  lookup : RootLookup env s.maxLuns
  copies : ∀ d, HasRoot env d → ∀ c,
    lunSlots env s d c = lunSlots env s d .primary
  built : ∃ ptable : List (List HandleEntry),
    ptable.length = s.maxLuns
      ∧ (∀ d hs, HasRoot env d → ptable[d]? = some hs →
        hs = none :: ((lunSlots env s d .primary).filter
          EfiPartitionEntry.used).map some)
      ∧ s.ptnEntriesBak = (updatePartitionEntries ptable s).ptnEntries
  changed : List.Forall₂ FieldsChanged s.ptnEntriesBak s.ptnEntries

/-- What the update is for: both arrays of every LUN have the selected
fields of each partition's own entry in that partition's slot, and
nothing else changed. -/
def WritesBack (env : Env) (u : UpdateType) (s : St) : Prop :=
  ∀ d, HasRoot env d → ∀ c,
    lunSlots env (updatePartitionAttributes env u s) d c
      = storedSlots u (lunRows s.ptnEntries d) (lunSlots env s d c)

/-- The LUN is no field that changes. -/
theorem FieldsChanged.lun {b p : PartitionEntry}
    (h : FieldsChanged b p) : p.lun = b.lun := by
  rw [h.same]

/-- The table that was changed has the same LUNs. -/
theorem map_lun_of_changed {bs ps : List PartitionEntry}
    (h : List.Forall₂ FieldsChanged bs ps) :
    ps.map PartitionEntry.lun = bs.map PartitionEntry.lun := by
  induction h with
  | nil => rfl
  | cons hbp _ ih => rw [List.map_cons, List.map_cons, hbp.lun, ih]

namespace ChangedTable

variable {env : Env} {s : St}

/-- The two tables have the same length. -/
theorem length_eq (h : ChangedTable env s) :
    s.ptnEntries.length = s.ptnEntriesBak.length :=
  h.changed.length_eq.symm

/-- Choosing other attribute words gives a changed table again. -/
theorem setAttributes (h : ChangedTable env s) (f : Nat → UINT64) :
    ChangedTable env
      { s with ptnEntries := BootSlot.setAttributes f s.ptnEntries } where
  io := h.io
  device := ⟨h.device.media, h.device.gpt⟩
  lookup := h.lookup
  copies := h.copies
  built := h.built
  changed := by
    have hc := h.changed
    show List.Forall₂ FieldsChanged s.ptnEntriesBak _
    generalize s.ptnEntriesBak = bs at hc
    generalize s.ptnEntries = ps at hc
    induction hc generalizing f with
    | nil => exact List.Forall₂.nil
    | cons hbp _ ih =>
        rw [setAttributes_cons]
        refine List.Forall₂.cons ⟨?_, ?_⟩ (ih _)
        · exact congrArg (PartitionEntry.withAttributes _) hbp.same
        · exact hbp.device

/-- The block of a LUN in the table as read: a prefix of the root-device
entry and the used slots. -/
theorem bakBlock (h : ChangedTable env s) {d : Nat}
    (hroot : HasRoot env d) :
    s.ptnEntriesBak.filter (onLun d)
      <+: handleEntry d none :: ((lunSlots env s d .primary).filter
        EfiPartitionEntry.used).map fun e => handleEntry d (some e) := by
  obtain ⟨ptable, hlen, hblock, hbak⟩ := h.built
  have hd := h.lookup.inRange d hroot
  have hlt : d < ptable.length := by omega
  have hget : ptable[d]? = some ptable[d] := List.getElem?_eq_getElem hlt
  have hb : s.ptnEntriesBak
      = (allHandles ptable 0).take maxNumPartitions := hbak
  have hpre : (allHandles ptable 0).take maxNumPartitions
      <+: allHandles ptable 0 := List.take_prefix _ _
  have hfil := hpre.filter (onLun d)
  have hall := allHandles_filter (k := 0) hget
  rw [Nat.zero_add] at hall
  rw [hall, hblock d _ hroot hget, List.map_cons, List.map_map,
    ← hb] at hfil
  exact hfil

/-- On every LUN fields were changed only. -/
theorem blockChanged (h : ChangedTable env s) (d : Nat) :
    List.Forall₂ FieldsChanged (s.ptnEntriesBak.filter (onLun d))
      (s.ptnEntries.filter (onLun d)) := by
  refine List.rel_filter ?_ h.changed
  intro b p hbp
  show decide (b.lun = d) = true ↔ decide (p.lun = d) = true
  rw [hbp.lun]

/-- The partitions of a LUN in the table as read: some of the used
slots, from the first on. -/
theorem bakRows (h : ChangedTable env s) {d : Nat}
    (hroot : HasRoot env d) :
    lunRows s.ptnEntriesBak d
      <+: ((lunSlots env s d .primary).filter
        EfiPartitionEntry.used).map fun e => handleEntry d (some e) := by
  have hb := h.bakBlock hroot
  unfold lunRows
  cases hc : s.ptnEntriesBak.filter (onLun d) with
  | nil => exact List.nil_prefix
  | cons b bs =>
      rw [hc] at hb
      exact (List.cons_prefix_cons.mp hb).2

/-- A LUN has no more entries than partitions. -/
theorem rows_length (h : ChangedTable env s) {d : Nat}
    (hroot : HasRoot env d) :
    (lunRows s.ptnEntries d).length
      ≤ ((lunSlots env s d .primary).filter
        EfiPartitionEntry.used).length := by
  have hlen := (h.bakRows hroot).length_le
  have hf := (h.blockChanged d).length_eq
  unfold lunRows at hlen ⊢
  rw [List.length_map, List.length_tail] at hlen
  rw [List.length_tail, ← hf]
  exact hlen

/-- The walk skips the root-device entry. -/
theorem rows_handled (h : ChangedTable env s) {d : Nat}
    (hroot : HasRoot env d) :
    (s.ptnEntries.filter (onLun d)).filter PartitionEntry.handled
      = (lunRows s.ptnEntries d).filter PartitionEntry.handled := by
  have hb := h.bakBlock hroot
  have hf := h.blockChanged d
  unfold lunRows
  cases hc : s.ptnEntries.filter (onLun d) with
  | nil => rfl
  | cons p ps =>
      rw [hc] at hf
      obtain ⟨b, bs, hbp, -, hbs⟩ := List.forall₂_cons_right_iff.mp hf
      rw [hbs] at hb
      have hbz := (List.cons_prefix_cons.mp hb).1
      have hp : ¬ p.handled = true := by
        have hdev : ¬ (handleEntry d none).partEntry.used = true :=
          show ¬ EfiPartitionEntry.zero.used = true by decide
        have hz := hbp.device (by rw [hbz]; exact hdev)
        unfold PartitionEntry.handled
        rw [hz]
        decide
      rw [List.filter_cons_of_neg hp, List.tail_cons]

/-- The entries come LUN by LUN. -/
theorem sorted (h : ChangedTable env s) :
    s.ptnEntries.Pairwise fun p q => p.lun ≤ q.lun := by
  obtain ⟨ptable, -, -, hbak⟩ := h.built
  have hb : s.ptnEntriesBak.Pairwise fun p q => p.lun ≤ q.lun := by
    rw [hbak]
    exact (allHandles_sorted 0).sublist (List.take_sublist _ _)
  rw [← List.pairwise_map (f := PartitionEntry.lun) (R := (· ≤ ·))] at hb ⊢
  rw [map_lun_of_changed h.changed]
  exact hb

/-- Every entry is of a LUN the update loops over. -/
theorem lun_lt (h : ChangedTable env s) {p : PartitionEntry}
    (hp : p ∈ s.ptnEntries) : p.lun < s.maxLuns := by
  obtain ⟨ptable, hlen, -, hbak⟩ := h.built
  have hmem : p.lun ∈ s.ptnEntriesBak.map PartitionEntry.lun := by
    rw [← map_lun_of_changed h.changed]
    exact List.mem_map_of_mem hp
  obtain ⟨b, hb, hbp⟩ := List.mem_map.mp hmem
  rw [hbak] at hb
  have hlt := lun_lt_of_mem_allHandles (List.mem_of_mem_take hb)
  omega

/-- What the loop handles for a LUN is its partitions with `Data1 ≠ 0`. -/
theorem selected_eq (h : ChangedTable env s) {d : Nat}
    (hroot : HasRoot env d) :
    selected (env.rootDeviceType == .ufs) d s.ptnEntries
      = (lunRows s.ptnEntries d).filter PartitionEntry.handled := by
  rw [← h.rows_handled hroot]
  cases htype : env.rootDeviceType with
  | ufs => exact selected_ufs h.sorted
  | unknown => exact absurd htype hroot.known
  | emmc =>
      obtain ⟨hluns, -⟩ := h.lookup.emmc htype
      have hd := h.lookup.inRange d hroot
      -- the table has one LUN only
      suffices hone : s.ptnEntries.filter (onLun d) = s.ptnEntries by
        rw [hone]
        exact selected_emmc d _
      refine List.filter_eq_self.mpr fun p hp => ?_
      have hlt := h.lun_lt hp
      unfold onLun
      simp only [decide_eq_true_eq]
      omega

/-- The backup table has no more entries than it has room for. -/
theorem bakLength_le (h : ChangedTable env s) :
    s.ptnEntriesBak.length ≤ maxNumPartitions := by
  obtain ⟨ptable, -, -, hb⟩ := h.built
  rw [hb]
  exact List.length_take_le _ _

/-- An update that finds the table changed walks the partitions of every
LUN over its slots. -/
theorem walked (h : ChangedTable env s) (u : UpdateType) {d : Nat}
    (hroot : HasRoot env d) (hchg : isUpdatePartitionAttributes s = true)
    (c : GptCopy) :
    lunSlots env (updatePartitionAttributes env u s) d c
      = walkSlots u
          ((lunRows s.ptnEntries d).filter PartitionEntry.handled)
          (lunSlots env s d .primary) := by
  have hlen := h.changed.length_eq
  have hmax := h.bakLength_le
  have hwalk := updatePartitionAttributes_walks (u := u) h.io h.lookup
    (by omega) (by omega) h.device.allValid hchg hroot c
  unfold lunSlots at *
  rw [hwalk, h.selected_eq hroot]
  congr 1
  exact h.copies d hroot c

/-- A table that is as it was read has nothing to store. -/
theorem unchanged (h : ChangedTable env s) (u : UpdateType) {d : Nat}
    (hroot : HasRoot env d)
    (hsame : ¬ isUpdatePartitionAttributes s = true) :
    s.ptnEntries = s.ptnEntriesBak
      ∧ updatePartitionAttributes env u s = s
      ∧ storedSlots u (lunRows s.ptnEntries d)
          (lunSlots env s d .primary) = lunSlots env s d .primary := by
  have heq : s.ptnEntries = s.ptnEntriesBak := by
    unfold isUpdatePartitionAttributes at hsame
    simpa using hsame
  refine ⟨heq, ?_, ?_⟩
  · unfold updatePartitionAttributes
    exact if_neg hsame
  · rw [heq]
    exact storedSlots_own (h.bakRows hroot)

/-- Aligned LUNs are written back. -/
theorem writesBack (h : ChangedTable env s) {u : UpdateType}
    (hal : ∀ d, HasRoot env d →
      Aligned u (lunRows s.ptnEntries d) (lunSlots env s d .primary)) :
    WritesBack env u s := by
  intro d hroot c
  rw [h.copies d hroot c]
  by_cases hchg : isUpdatePartitionAttributes s = true
  · rw [h.walked u hroot hchg c]
    exact walkSlots_of_aligned (hal d hroot)
  · obtain ⟨-, hs, hstored⟩ := h.unchanged u hroot hchg
    rw [hs, hstored]
    exact h.copies d hroot c

/-- If every choice of attribute words is written back, the LUNs are
aligned. -/
theorem aligned (h : ChangedTable env s) {u : UpdateType}
    (hall : ∀ f, WritesBack env u
      { s with ptnEntries := BootSlot.setAttributes f s.ptnEntries })
    {d : Nat} (hroot : HasRoot env d) :
    Aligned u (lunRows s.ptnEntries d) (lunSlots env s d .primary) := by
  have hlen := h.rows_length hroot
  cases hblock : s.ptnEntries.filter (onLun d) with
  | nil =>
      unfold lunRows
      rw [hblock]
      trivial
  | cons p ps =>
      have hrows : lunRows s.ptnEntries d = ps := by
        unfold lunRows
        rw [hblock, List.tail_cons]
      rw [hrows] at hlen ⊢
      refine aligned_of_walk hlen fun f => ?_
      -- an attribute word on the device entry makes the table differ
      obtain ⟨f', hf'⟩ := exists_setAttributes_filter d s.ptnEntries
        (consAttr 1 f)
      rw [hblock, setAttributes_consAttr] at hf'
      have h' := h.setAttributes f'
      have hrows' : lunRows (BootSlot.setAttributes f' s.ptnEntries) d
          = BootSlot.setAttributes f ps := by
        unfold lunRows
        rw [hf', List.tail_cons]
      have hchg : isUpdatePartitionAttributes
          { s with ptnEntries := BootSlot.setAttributes f' s.ptnEntries }
            = true := by
        by_contra hcon
        obtain ⟨heq, -, -⟩ := h'.unchanged u hroot hcon
        dsimp only at heq
        rw [heq] at hf'
        have hb := h.bakBlock hroot
        rw [hf'] at hb
        have hattr : (1 : UINT64) = 0 := congrArg
          (fun q => q.partEntry.attributes) (List.cons_prefix_cons.mp hb).1
        exact absurd hattr (by decide)
      have hwb := hall f' d hroot .primary
      rw [h'.walked u hroot hchg .primary] at hwb
      dsimp only at hwb
      rw [hrows'] at hwb
      exact hwb

end ChangedTable

/-- Every LUN is written back, whatever attribute words the table is
given, exactly when every LUN is aligned. -/
theorem updatePartitionAttributes_writes_back_iff (env : Env)
    (u : UpdateType) (s : St) (h : ChangedTable env s) :
    (∀ f, WritesBack env u
        { s with ptnEntries := setAttributes f s.ptnEntries })
      ↔ ∀ d, HasRoot env d →
        Aligned u (lunRows s.ptnEntries d) (lunSlots env s d .primary) := by
  constructor
  · intro hall d hroot
    exact h.aligned hall hroot
  · intro hal f
    refine (h.setAttributes f).writesBack fun d hroot => ?_
    obtain ⟨f', hf'⟩ := lunRows_setAttributes d s.ptnEntries f
    show Aligned u (lunRows (setAttributes f s.ptnEntries) d) _
    rw [hf']
    exact (hal d hroot).setAttributes f'

-- the sample disk has an unused slot before its only partition

/-- The sample has one LUN with a root device. -/
theorem sampleEnv_only_root {d : Nat} (h : HasRoot sampleEnv d) :
    d = 0 := by
  by_contra hd
  refine h ?_
  show (if some d = some 0 then 1 else 0) = 0
  exact if_neg fun heq => hd (Option.some.inj heq)

/-- The sample table over a disk with another entry array. -/
def sampleOn (e : Mem) : St :=
  { sampleState with disk := fun _ => formatGpt sampleMedia e }

/-- The slots of the sample are those of its image. -/
theorem sampleOn_lunSlots (e : Mem) (d : Nat) (c : GptCopy) :
    lunSlots sampleEnv (sampleOn e) d c = gptEntries e 0 := by
  have h := formatGpt_entries (e := e) sampleMedia_std c
  refine gptEntries_congr fun i hi => ?_
  exact eq_of_readBytes_eq h hi

/-- It is one changed in an attribute word if the array holds the sample
partition and no other. -/
theorem sampleOn_changedTable {e : Mem}
    (hused : (gptEntries e 0).filter EfiPartitionEntry.used
      = [samplePartition]) : ChangedTable sampleEnv (sampleOn e) where
  io := fun _ => rfl
  device := ⟨fun _ _ => sampleMedia_std,
    fun _ _ c => formatGpt_valid sampleMedia_std c⟩
  lookup :=
    { emmc := fun h => by cases h
      ufs := by
        intro _ d _
        by_cases hd : d = 0
        · subst hd
          exact Or.inr rfl
        · refine Or.inl ?_
          show (efiSuccess, if some d = some 0 then 1 else 0) = (efiSuccess, 0)
          rw [if_neg fun heq => hd (Option.some.inj heq)]
      inRange := by
        intro d hd
        rw [sampleEnv_only_root hd]
        exact Nat.zero_lt_succ 7 }
  copies := by
    intro d _ c
    rw [sampleOn_lunSlots, sampleOn_lunSlots]
  built := by
    refine ⟨[none, some samplePartition] :: List.replicate 7 [], rfl, ?_,
      rfl⟩
    intro d hs hroot hget
    rw [sampleEnv_only_root hroot] at hget
    rw [sampleOn_lunSlots, hused]
    exact (Option.some.inj hget).symm
  changed := by
    refine List.Forall₂.cons ⟨rfl, fun _ => rfl⟩
      (List.Forall₂.cons ⟨rfl, fun h => ?_⟩ List.Forall₂.nil)
    exact absurd (by decide +kernel) h

/-- The slots of the sample are those of `sampleImage`. -/
theorem sample_lunSlots (d : Nat) (c : GptCopy) :
    lunSlots sampleEnv sampleState d c = gptEntries sampleImage 0 :=
  sampleOn_lunSlots sampleImage d c

/-- The sample's table belongs to its medium. -/
theorem sample_changedTable : ChangedTable sampleEnv sampleState :=
  sampleOn_changedTable (e := sampleImage) (by decide +kernel)

/-- The attributes of the partition go to the unused slot before it. -/
theorem updatePartitionAttributes_drifts :
    ChangedTable sampleEnv sampleState
      ∧ ¬ WritesBack sampleEnv .partitionAttributes sampleState := by
  refine ⟨sample_changedTable, fun hwb => ?_⟩
  have h := hwb 0 sampleEnv_hasRoot .primary
  rw [sample_changedTable.walked _ sampleEnv_hasRoot (by decide +kernel),
    sample_lunSlots] at h
  exact absurd h (by decide +kernel)

/-- On the sample some attributes are not written back. -/
theorem updatePartitionAttributes_writes_back_iff_sample :
    ¬ ∀ f, WritesBack sampleEnv .partitionAttributes
      { sampleState with
        ptnEntries := setAttributes f sampleState.ptnEntries } := by
  rw [updatePartitionAttributes_writes_back_iff sampleEnv _ sampleState
    sample_changedTable]
  intro h
  have hwalk := walkSlots_of_aligned (h 0 sampleEnv_hasRoot)
  rw [sample_lunSlots] at hwalk
  exact absurd hwalk (by decide +kernel)

end Edk2Exynos.BootSlot
