/-
Crash safety of `UpdatePartitionAttributes`: a run that completes leaves
both GPT copies of every LUN valid and changed in type GUIDs, attributes
and CRC fields only, and a run cut anywhere, also inside one
`WriteBlocks`, leaves at least one valid copy on every LUN.

# How the proof goes

One pass writes one buffer, and that buffer is the copy it read with
entry fields edited and both checksums recomputed (`sealGpt`). So the
write stays in the region of its copy and re-establishes validity there:
one step of the two-copy discipline of Lib/Journal.lean. A pass that
finds nothing to change, or fails on the way, writes nothing. `WriteRun`
collects what a piece of the run did to the media in that form and is
closed under sequencing (`WriteRun.trans`), so the two passes of a LUN
and the loop over LUNs need no invariant of their own.

None of this depends on which slots the walk edits: the walk's pointer
stays inside the entry array because a table has at most 128 entries.
-/
import Edk2Exynos.BootSlot.Format

namespace Edk2Exynos.BootSlot

open Lib

-- ============================================== the walk stays in fields

/-- One table entry edits the fields of the slot the pointer is at, and
moves the pointer by one slot or not at all. -/
theorem updateEntry_agree {u : UpdateType} {p b : PartitionEntry}
    {w : Walk} {base j : Nat} (hptr : w.ptr = base + partitionEntrySize * j)
    (hj : j < maxNumPartitions) :
    AgreeOutside (EntryField base) w.buf (updateEntry u p b w).1.buf
      ∧ ∃ j', j' ≤ j + 1
        ∧ (updateEntry u p b w).1.ptr
          = base + partitionEntrySize * j' := by
  have hguid : AgreeOutside (EntryField base) w.buf
      (updateGuid u p b w).1.buf ∧ (updateGuid u p b w).1.ptr = w.ptr := by
    unfold updateGuid
    split
    · refine ⟨(AgreeOutside.refl _ _).write ?_, rfl⟩
      intro x hx hx'
      rw [p.partEntry.partitionTypeGuid.size] at hx'
      exact ⟨j, hj, Or.inl ⟨by omega, by omega⟩⟩
    · exact ⟨AgreeOutside.refl _ _, rfl⟩
  obtain ⟨hag, hp⟩ := hguid
  have hnext : w.ptr + partitionEntrySize
      = base + partitionEntrySize * (j + 1) := by
    rw [hptr, Nat.mul_add]
    omega
  unfold updateEntry updateAttributes
  dsimp only
  split
  · split
    · split
      · refine ⟨hag.write ?_, j + 1, Nat.le_refl _, ?_⟩
        · intro x hx hx'
          rw [bytesOfLongLong_length] at hx'
          rw [hp] at hx hx'
          exact ⟨j, hj, Or.inr ⟨by omega, by omega⟩⟩
        · rw [hp]
          exact hnext
      · refine ⟨hag, j + 1, Nat.le_refl _, ?_⟩
        show (updateGuid u p b w).1.ptr + partitionEntrySize = _
        rw [hp]
        exact hnext
    · exact ⟨hag, j, Nat.le_succ j, hp.trans hptr⟩
  · refine ⟨hag, j + 1, Nat.le_refl _, ?_⟩
    show (updateGuid u p b w).1.ptr + partitionEntrySize = _
    rw [hp]
    exact hnext

/-- The whole walk edits entry fields only: a table of at most 128
entries cannot push the pointer past the array. -/
theorem walkEntries_agree {ufs : Bool} {lun : Nat} {u : UpdateType}
    {base : Nat} : ∀ {ps bs : List PartitionEntry} {w : Walk} {j : Nat},
    w.ptr = base + partitionEntrySize * j →
    j + ps.length ≤ maxNumPartitions →
    AgreeOutside (EntryField base) w.buf
      (walkEntries ufs lun u ps bs w).1.buf := by
  intro ps
  induction ps with
  | nil => intro bs w j _ _; exact AgreeOutside.refl _ _
  | cons p ps ih =>
      intro bs w j hptr hlen
      rw [List.length_cons] at hlen
      cases bs with
      | nil => exact AgreeOutside.refl _ _
      | cons b bs =>
          rcases walkEntries_cases ufs lun u p b ps bs w with
            ⟨hwalk, -⟩ | ⟨hwalk, -⟩ | ⟨hwalk, -⟩
          · rw [hwalk]
            exact ih hptr (by omega)
          · rw [hwalk]
            exact AgreeOutside.refl _ _
          · rw [hwalk]
            obtain ⟨hag, j', hj', hptr'⟩ :=
              updateEntry_agree (u := u) (p := p) (b := b) hptr (by omega)
            exact hag.trans (ih hptr' (by omega))

-- =============================================== the two-copy discipline

/-- The two copies, as the journal library counts them. -/
def gptCopy : Bool → GptCopy
  | false => .primary
  | true => .backup

/-- The two copies of a GPT have no byte in common. -/
theorem StdMedia.regions_disjoint {g : BlockIoMedia} (h : StdMedia g)
    {c : Bool} {x : Nat} (hx : gptRegion g (gptCopy c) x) :
    ¬ gptRegion g (gptCopy (!c)) x := by
  intro hx'
  have hdis := h.passes_disjoint
  have h1 := hx.1
  have h2 := hx.2
  have h3 := hx'.1
  have h4 := hx'.2
  cases c <;> simp only [gptCopy, Bool.not_false, Bool.not_true] at * <;>
    omega

/-- The GPT copies of every LUN. -/
def gptCopies (env : Env) : Copies Nat where
  region d c x := StdMedia (env.media d)
    ∧ gptRegion (env.media d) (gptCopy c) x
  valid d c m := StdMedia (env.media d)
    ∧ GptValid (env.media d) (gptCopy c) m
  frame := fun hag ⟨hm, hv⟩ =>
    ⟨hm, hv.of_region hm fun x hx => hag x ⟨hm, hx⟩⟩
  disjoint := fun ⟨hm, hx⟩ ⟨_, hx'⟩ => hm.regions_disjoint hx hx'

/-- Bytes of LUN `d` a completed update may change. -/
def GptField (g : BlockIoMedia) (x : Nat) : Prop :=
  ∃ c, CopyField g c x

/-- What a piece of the run did to the media: a safe journal, replayed,
and no byte outside the GPT fields changed. -/
def WriteRun (env : Env) (s s' : St) : Prop :=
  ∃ ws, s'.writes = s.writes ++ ws ∧ s'.disk = replay s.disk ws
    ∧ SafeJournal (gptCopies env) (HasRoot env) s.disk ws
    ∧ ∀ d, AgreeOutside (GptField (env.media d)) (s.disk d) (s'.disk d)

section Runs

variable {env : Env}

/-- Both copies of every LUN are valid. -/
def AllValid (env : Env) (s : St) : Prop :=
  (gptCopies env).BothValid (HasRoot env) s.disk

/-- A run of writes keeps every GPT valid. -/
theorem WriteRun.valid {s s' : St} (h : WriteRun env s s') :
    AllValid env s' := by
  obtain ⟨ws, -, hdisk, hsafe, -⟩ := h
  unfold AllValid
  rw [hdisk]
  exact hsafe.final

/-- A piece of the run that writes nothing. -/
theorem WriteRun.quiet {s s' : St} (hv : AllValid env s)
    (hd : s'.disk = s.disk) (hw : s'.writes = s.writes) :
    WriteRun env s s' := by
  refine ⟨[], ?_, hd, hv, ?_⟩
  · rw [hw, List.append_nil]
  · intro d
    rw [hd]
    exact AgreeOutside.refl _ _

/-- Two runs of writes are one. -/
theorem WriteRun.trans {s s' s'' : St} (h : WriteRun env s s')
    (h' : WriteRun env s' s'') : WriteRun env s s'' := by
  obtain ⟨ws, hw, hd, hs, ha⟩ := h
  obtain ⟨vs, hw', hd', hs', ha'⟩ := h'
  refine ⟨ws ++ vs, ?_, ?_, ?_, ?_⟩
  · rw [hw', hw, List.append_assoc]
  · rw [hd', hd, replay_append]
  · rw [hd] at hs'
    exact hs.append hs'
  · exact fun d => (ha d).trans (ha' d)

/-- A quiet prefix does not matter. -/
theorem WriteRun.of_quiet {s s' s'' : St} (h : WriteRun env s' s'')
    (hd : s'.disk = s.disk) (hw : s'.writes = s.writes) :
    WriteRun env s s'' := by
  unfold WriteRun at h ⊢
  rw [← hd, ← hw]
  exact h

-- ============================================================== one pass

/-- The buffer a pass writes is its copy, edited in entry fields and
sealed; writing it back re-establishes validity of that copy. -/
theorem sealed_write {lun : Nat} {c : GptCopy} {buf m : Mem}
    (hm : StdMedia (env.media lun)) (hv : GptValid (env.media lun) c m)
    (hbuf : AgreeOutside (EntryField (ptnEntriesOff (env.media lun) c))
      (loadBlocks m (gptAddr (env.media lun) c)
        (maxGptPartEntrySzBytes (env.media lun)).toNat) buf) :
    let m' := writeBytes m (gptAddr (env.media lun) c)
      (readBytes (sealGpt buf (gptHdrOff (env.media lun) c)
        (ptnEntriesOff (env.media lun) c)) 0
        (maxGptPartEntrySzBytes (env.media lun)).toNat)
    GptValid (env.media lun) c m'
      ∧ AgreeOutside (GptField (env.media lun)) m m' := by
  generalize hg : env.media lun = g at hm hv hbuf ⊢
  have hb := hm.blockSize_bounds
  have hl := hm.buffer_layout c
  have hhdr := hm.hdrAddr_eq c
  have hent := hm.entriesAddr_eq c
  have hN := hm.maxGptPartEntrySzBytes_toNat
  generalize hNdef : (maxGptPartEntrySzBytes g).toNat = N at *
  generalize hadef : gptAddr g c = a at *
  generalize hhdef : gptHdrOff g c = hdr at *
  generalize hedef : ptnEntriesOff g c = ent at *
  intro m'
  have h16 : maxPartitionEntriesSz = 16384 := rfl
  have h92 : gptHeaderSize = 92 := rfl
  -- the written range shows the sealed buffer
  have hin : ∀ i, i < N → m' (a + i) = sealGpt buf hdr ent i := by
    intro i hi
    show writeBytes m a _ (a + i) = _
    rw [writeBytes_inside (by rw [readBytes_length]; exact hi),
      readBytes_getElem, Nat.zero_add]
  have hshow : ∀ f n, f + n ≤ N →
      readBytes m' (a + f) n = readBytes (sealGpt buf hdr ent) f n := by
    intro f n hfn
    refine readBytes_congr fun i hi => ?_
    rw [Nat.add_assoc]
    exact hin (f + i) (by omega)
  have hlword : ∀ f, f + 4 ≤ N →
      getLword m' (a + f) = getLword (sealGpt buf hdr ent) f :=
    fun f hf => getLword_congr (hshow f 4 hf)
  have hd : ImageDisjoint hdr ent := by
    unfold ImageDisjoint
    omega
  -- outside the fields of the copy the medium is as it was
  have hag : AgreeOutside (CopyField g c) m m' := by
    intro x hx
    by_cases hreg : a ≤ x ∧ x < a + N
    · obtain ⟨i, rfl⟩ := Nat.exists_eq_add_of_le hreg.1
      have hi : i < N := by omega
      have hne : ¬ EntryField ent i := by
        rintro ⟨k, hk, hcase⟩
        refine hx (Or.inl ⟨k, hk, ?_⟩)
        rw [← hent]
        omega
      have hnc : ¬ CrcField hdr i := by
        intro hcrc
        refine hx (Or.inr ?_)
        unfold CrcField at hcrc ⊢
        rw [← hhdr]
        omega
      rw [hin i hi, sealGpt_agree buf hdr ent i hnc, hbuf i hne]
      exact if_pos hi
    · exact writeBytes_outside (by rw [readBytes_length]; omega)
  refine ⟨hv.of_agree hm (fun x _ hx => hag x hx) ?_ ?_,
    hag.mono fun x hx => ⟨c, hx⟩⟩
  · rw [← hhdr, Nat.add_assoc, hlword _ (by
      simp only [headerCrcOffset]
      omega), sealGpt_headerCrc]
    congr 1
    refine (crcHeader_congr fun i hi => ?_).symm
    rw [Nat.add_assoc]
    exact hin (hdr + i) (by omega)
  · rw [← hhdr, Nat.add_assoc, hlword _ (by
      simp only [partitionCrcOffset]
      omega), sealGpt_entriesCrc hd, ← hent, hshow _ _ (by omega)]

/-- The buffer's header still says 128 entries of 128 bytes. -/
theorem buffer_counts {lun : Nat} {c : GptCopy} {buf m : Mem}
    (hm : StdMedia (env.media lun)) (hv : GptValid (env.media lun) c m)
    (hbuf : AgreeOutside (EntryField (ptnEntriesOff (env.media lun) c))
      (loadBlocks m (gptAddr (env.media lun) c)
        (maxGptPartEntrySzBytes (env.media lun)).toNat) buf) :
    getLword buf (gptHdrOff (env.media lun) c + partitionCountOffset) = 128
      ∧ getLword buf (gptHdrOff (env.media lun) c + pentrySizeOffset)
        = 128 := by
  generalize hg : env.media lun = g at hm hv hbuf ⊢
  have hb := hm.blockSize_bounds
  have hl := hm.buffer_layout c
  have hhdr := hm.hdrAddr_eq c
  have hN := hm.maxGptPartEntrySzBytes_toNat
  have h16 : maxPartitionEntriesSz = 16384 := rfl
  have hfield : ∀ f, f + 4 ≤ gptHeaderSize →
      getLword buf (gptHdrOff g c + f) = getLword m (hdrAddr g c + f) := by
    intro f hf
    rw [show gptHeaderSize = 92 from rfl] at hf
    refine getLword_congr (readBytes_congr fun i hi => ?_)
    rw [hbuf _ ?_]
    · unfold loadBlocks
      rw [if_pos (by omega)]
      congr 1
      omega
    · intro hcon
      have hbd := hcon.bounds
      omega
  constructor
  · rw [hfield _ (by decide)]
    exact hv.entryCount
  · rw [hfield _ (by decide)]
    exact hv.entrySize

/-- The calls of the tail of a pass on a valid copy: two checksums and
the write of the sealed buffer. -/
theorem storeGpt_calls {lun : Nat} {c : GptCopy} {buf : Mem} {s : St}
    (hm : StdMedia (env.media lun))
    (hv : GptValid (env.media lun) c (s.disk lun))
    (hbuf : AgreeOutside (EntryField (ptnEntriesOff (env.media lun) c))
      (loadBlocks (s.disk lun) (gptAddr (env.media lun) c)
        (maxGptPartEntrySzBytes (env.media lun)).toNat) buf) :
    storeGpt env lun c buf s
      = if env.io s.ioTick ≠ efiSuccess then
          (false, { s with ioTick := s.ioTick + 1 })
        else if env.io (s.ioTick + 1) ≠ efiSuccess then
          (false, { s with ioTick := s.ioTick + 2 })
        else if efiError (env.io (s.ioTick + 2)) then
          (false, { s with ioTick := s.ioTick + 3 })
        else (true, St.writeBlocks { s with ioTick := s.ioTick + 3 }
          { dev := lun
            addr := gptAddr (env.media lun) c
            data := readBytes (sealGpt buf (gptHdrOff (env.media lun) c)
              (ptnEntriesOff (env.media lun) c)) 0
              (maxGptPartEntrySzBytes (env.media lun)).toNat }) := by
  obtain ⟨hcount, hsize⟩ := buffer_counts hm hv hbuf
  unfold storeGpt
  dsimp only
  rw [hcount, hsize, if_neg (by decide),
    show ((128 : UINT32) * 128).toNat = maxPartitionEntriesSz from rfl,
    calculateCrc32_nonempty env (by rw [readBytes_length]; decide)]
  dsimp only
  rw [calculateCrc32_nonempty env (by rw [readBytes_length]; decide)]
  unfold nextIo
  dsimp only
  rw [putLong_putLong_same]
  rfl

/-- A copy that is sealed and written is one write of a run. -/
theorem storeGpt_run {lun : Nat} {c : Bool} {buf : Mem} {s : St}
    (hv : AllValid env s) (hroot : HasRoot env lun)
    (hbuf : AgreeOutside
      (EntryField (ptnEntriesOff (env.media lun) (gptCopy c)))
      (loadBlocks (s.disk lun) (gptAddr (env.media lun) (gptCopy c))
        (maxGptPartEntrySzBytes (env.media lun)).toNat) buf) :
    WriteRun env s (storeGpt env lun (gptCopy c) buf s).2 := by
  obtain ⟨hm, hvc⟩ := hv lun hroot c
  obtain ⟨hval, hag⟩ := sealed_write hm hvc hbuf
  rw [storeGpt_calls hm hvc hbuf]
  split
  · exact WriteRun.quiet hv rfl rfl
  · split
    · exact WriteRun.quiet hv rfl rfl
    · split
      · exact WriteRun.quiet hv rfl rfl
      · -- the pass reaches `WriteBlocks`
        let w : Write Nat :=
          { dev := lun
            addr := gptAddr (env.media lun) (gptCopy c)
            data := readBytes (sealGpt buf (gptHdrOff (env.media lun)
              (gptCopy c)) (ptnEntriesOff (env.media lun) (gptCopy c))) 0
              (maxGptPartEntrySzBytes (env.media lun)).toNat }
        have hin : (gptCopies env).InCopy w c := by
          intro x hx hx'
          refine ⟨hm, hx, ?_⟩
          rw [show w.data.length = _ from readBytes_length _ _ _] at hx'
          exact hx'
        refine ⟨[w], rfl, rfl, SafeJournal.single hv hin ?_, ?_⟩
        · intro d hd c'
          by_cases hcase : d ≠ w.dev ∨ c' = !c
          · exact Copies.valid_of_inCopy hin hcase (hv d hd c')
          · have hdw : d = w.dev := by
              by_contra hcon
              exact hcase (Or.inl hcon)
            have hcc : c' = c := by
              cases c <;> cases c' <;> simp at hcase ⊢
            subst hdw
            subst hcc
            rw [applyWrite_same]
            exact ⟨hm, hval⟩
        · intro d
          show AgreeOutside _ (s.disk d) (applyWrite s.disk w d)
          by_cases hdw : d = w.dev
          · subst hdw
            rw [applyWrite_same]
            exact hag
          · rw [applyWrite_other hdw]
            exact AgreeOutside.refl _ _

/-- A pass over a copy makes one write at most. -/
theorem updateCopy_run {lun : Nat} {u : UpdateType} {c : Bool} {s : St}
    (hlen : s.ptnEntries.length ≤ maxNumPartitions)
    (hv : AllValid env s) (hroot : HasRoot env lun) :
    WriteRun env s (updateCopy env lun u (gptCopy c) s).2 := by
  have hwalk : AgreeOutside
      (EntryField (ptnEntriesOff (env.media lun) (gptCopy c)))
      (loadBlocks (s.disk lun) (gptAddr (env.media lun) (gptCopy c))
        (maxGptPartEntrySzBytes (env.media lun)).toNat)
      (walkEntries (env.rootDeviceType == .ufs) lun u s.ptnEntries
        s.ptnEntriesBak
        { ptr := ptnEntriesOff (env.media lun) (gptCopy c)
          buf := loadBlocks (s.disk lun)
            (gptAddr (env.media lun) (gptCopy c))
            (maxGptPartEntrySzBytes (env.media lun)).toNat
          skipUpdation := true }).1.buf :=
    walkEntries_agree (j := 0) rfl (by omega)
  unfold updateCopy nextIo
  dsimp only
  split
  · exact WriteRun.quiet hv rfl rfl
  · split
    · exact WriteRun.quiet hv rfl rfl
    · refine WriteRun.of_quiet (storeGpt_run ?_ hroot ?_) rfl rfl
      · exact hv
      · exact hwalk

-- ============================================================== all LUNs

/-- Everything an update does is a run of writes. -/
theorem writeRun_rule (u : UpdateType) :
    StepRule env u fun s s' =>
      s.ptnEntries.length ≤ maxNumPartitions → AllValid env s →
        WriteRun env s s' ∧ s'.ptnEntries = s.ptnEntries where
  refl := fun _ _ hv => ⟨WriteRun.quiet hv rfl rfl, rfl⟩
  trans := by
    intro s s' s'' h h' hlen hv
    obtain ⟨hrun, heq⟩ := h hlen hv
    obtain ⟨hrun', heq'⟩ := h' (by rw [heq]; exact hlen) hrun.valid
    exact ⟨hrun.trans hrun', heq'.trans heq⟩
  call := fun _ _ hv => ⟨WriteRun.quiet hv rfl rfl, rfl⟩
  copy := by
    intro lun hroot c s hlen hv
    have hfr := (updateCopy_frame env lun u c s).ptnEntries
    cases c with
    | primary =>
        exact ⟨updateCopy_run (c := false) hlen hv hroot, hfr⟩
    | backup => exact ⟨updateCopy_run (c := true) hlen hv hroot, hfr⟩

/-- The update of a LUN is a run of writes. -/
theorem updateLun_run {lun : Nat} {u : UpdateType} {s : St}
    (hlen : s.ptnEntries.length ≤ maxNumPartitions)
    (hv : AllValid env s) (hroot : HasRoot env lun) :
    WriteRun env s (updateLun env lun u s).2 :=
  ((writeRun_rule u).updateLun hroot s hlen hv).1

/-- The whole update is one safe journal on the media. -/
theorem updatePartitionAttributes_run (u : UpdateType) {s : St}
    (hlen : s.ptnEntries.length ≤ maxNumPartitions)
    (hv : AllValid env s) :
    WriteRun env s (updatePartitionAttributes env u s) :=
  ((writeRun_rule u).updatePartitionAttributes s hlen hv).1

end Runs

-- ========================================================== crash safety

/-- Every LUN with a root device is a standard medium with two valid
GPTs. -/
structure ValidDevice (env : Env) (s : St) : Prop where
  media : ∀ d, HasRoot env d → StdMedia (env.media d)
  gpt : ∀ d, HasRoot env d → ∀ c, GptValid (env.media d) c (s.disk d)

/-- The two copies of a valid device, by the write that makes them. -/
theorem ValidDevice.allValid {env : Env} {s : St}
    (h : ValidDevice env s) : AllValid env s := fun d hd c =>
  ⟨h.media d hd, h.gpt d hd (gptCopy c)⟩

/-- Whatever the table, the update type and the outcome of every service
call: after the update both GPTs of every LUN are valid and changed in
type GUIDs, attributes and the CRC fields only; and a power cut at any
point of its writes, also inside one, leaves every LUN a valid GPT. -/
theorem updatePartitionAttributes_crash_safe (env : Env) (u : UpdateType)
    (s : St) (hlen : s.ptnEntries.length ≤ maxNumPartitions)
    (hdev : ValidDevice env s) :
    (∀ d, HasRoot env d →
      (∀ c, GptValid (env.media d) c
        ((updatePartitionAttributes env u s).disk d))
      ∧ AgreeOutside (GptField (env.media d)) (s.disk d)
        ((updatePartitionAttributes env u s).disk d))
    ∧ ∃ ws, (updatePartitionAttributes env u s).writes = s.writes ++ ws
      ∧ (updatePartitionAttributes env u s).disk = replay s.disk ws
      ∧ ∀ m, CrashState s.disk ws m → ∀ d, HasRoot env d →
        ∃ c, GptValid (env.media d) c (m d) := by
  have hrun := updatePartitionAttributes_run u hlen hdev.allValid
  have hfinal := hrun.valid
  obtain ⟨ws, hw, hd, hsafe, hag⟩ := hrun
  refine ⟨fun d hroot => ⟨?_, hag d⟩, ws, hw, hd, ?_⟩
  · intro c
    cases c with
    | primary => exact (hfinal d hroot false).2
    | backup => exact (hfinal d hroot true).2
  · intro m hcrash d hroot
    obtain ⟨c, -, hc⟩ := crash_valid hsafe hcrash hroot
    exact ⟨gptCopy c, hc⟩

/-- The sample's GPTs are valid. -/
theorem sampleState_valid : ValidDevice sampleEnv sampleState :=
  ⟨fun _ _ => sampleMedia_std, fun _ _ c => formatGpt_valid sampleMedia_std c⟩

/-- The sample's root device is on LUN 0. -/
theorem sampleEnv_hasRoot : HasRoot sampleEnv 0 :=
  show (1 : Nat) ≠ 0 by decide

/-- On the sample a GPT is valid whenever the power goes. -/
theorem updatePartitionAttributes_crash_safe_sample :
    ∃ ws, (updatePartitionAttributes sampleEnv .partitionAll
        sampleState).writes = ws
      ∧ ∀ m, CrashState sampleState.disk ws m →
        ∃ c, GptValid sampleMedia c (m 0) := by
  obtain ⟨-, ws, hw, -, hcrash⟩ := updatePartitionAttributes_crash_safe
    sampleEnv .partitionAll sampleState (by decide) sampleState_valid
  exact ⟨ws, hw, fun m hm => hcrash m hm 0 sampleEnv_hasRoot⟩

end Edk2Exynos.BootSlot
