/-
`UpdatePartitionAttributes` called on services that fail, and called
again.

# What a failed call leaves

Whatever comes of its calls, an update leaves every array as it was or
walked, and every row of the backup table as it was or with selected
fields of a handled entry changed. `Pushed` says so of any piece of a
run; it needs nothing from the services, and a piece after a piece is
one because a walk done twice is one walk (`walkSlots_idem`).

# The second call

If the table still differs from its backup, a call on working services
walks every array again and makes up for all the first one missed
(`Pushed.walks`).

# Whole copies

A valid copy is decided by its slots and the bytes no update changes:
its checksums are those of the rest (`GptValid.region_eq`). So two runs
from one state leave equal copies exactly when they leave equal slots
(`sameGpts_iff`).
-/
import Edk2Exynos.BootSlot.Recorded

namespace Edk2Exynos.BootSlot

open Lib

-- ======================================================== a walk, twice

section Walk

variable {u : UpdateType}

/-- Without the GUID half a walk leaves type GUIDs. -/
theorem walkSlots_head (hg : ¬ u.guidMask) :
    ∀ (ps : List PartitionEntry) (e : EfiPartitionEntry)
      (es : List EfiPartitionEntry),
    ∃ e' es', walkSlots u ps (e :: es) = e' :: es'
      ∧ e'.partitionTypeGuid = e.partitionTypeGuid := by
  intro ps
  induction ps with
  | nil => exact fun e es => ⟨e, es, rfl, rfl⟩
  | cons p ps ih =>
      intro e es
      unfold walkSlots
      split
      · refine ⟨_, _, rfl, ?_⟩
        unfold storeFields
        exact if_neg hg
      · exact ih e es

/-- A slot that has taken an entry takes it again, … -/
theorem Accepts.storeFields {p : PartitionEntry} {e : EfiPartitionEntry}
    (h : Accepts u p e) : Accepts u p (storeFields u p e) := by
  by_cases hg : u.guidMask = true
  · exact Or.inl hg
  · have hsame : (BootSlot.storeFields u p e).partitionTypeGuid
        = e.partitionTypeGuid := if_neg hg
    unfold Accepts
    rw [hsame]
    exact h

/-- … to no effect. -/
theorem storeFields_idem (p : PartitionEntry) (e : EfiPartitionEntry) :
    storeFields u p (storeFields u p e) = storeFields u p e := by
  unfold storeFields
  dsimp only
  congr 1
  · split <;> rfl
  · split <;> rfl

/-- A second walk over what the first has stored changes nothing. -/
theorem walkSlots_idem :
    ∀ (ps : List PartitionEntry) (es : List EfiPartitionEntry),
    walkSlots u ps (walkSlots u ps es) = walkSlots u ps es := by
  intro ps
  induction ps with
  | nil => exact fun es => walkSlots_nil u _
  | cons p ps ih =>
      intro es
      cases es with
      | nil => rfl
      | cons e es =>
          by_cases hacc : Accepts u p e
          · have hwalk : walkSlots u (p :: ps) (e :: es)
                = storeFields u p e :: walkSlots u ps es := if_pos hacc
            rw [hwalk]
            refine (if_pos hacc.storeFields).trans ?_
            rw [storeFields_idem, ih]
          · have hwalk : walkSlots u (p :: ps) (e :: es)
                = walkSlots u ps (e :: es) := if_neg hacc
            have hg : ¬ u.guidMask = true := fun hg => hacc (Or.inl hg)
            -- the slot that refused the entry refuses it again
            obtain ⟨e', es', heq, hguid⟩ := walkSlots_head hg ps e es
            have hacc' : ¬ Accepts u p e' := by
              unfold Accepts
              rw [hguid]
              exact hacc
            have hagain := ih (e :: es)
            rw [hwalk, heq]
            rw [heq] at hagain
            exact (if_neg hacc').trans hagain

end Walk

-- ======================================================== a failing call

/-- What a row of the backup table may become. -/
def RowKept (env : Env) (u : UpdateType) (p b b' : PartitionEntry) : Prop :=
  b' = b ∨ (p.handled ∧ (env.rootDeviceType = .ufs → HasRoot env p.lun)
    ∧ OnlySelected u b b')

/-- What two steps keep of an entry, both keep. -/
theorem RowKept.trans {env : Env} {u : UpdateType}
    {p b b' b'' : PartitionEntry} (h : RowKept env u p b b')
    (h' : RowKept env u p b' b'') : RowKept env u p b b'' := by
  rcases h with rfl | ⟨hp, hroot, hsel⟩
  · exact h'
  · rcases h' with rfl | ⟨-, -, hsel'⟩
    · exact Or.inr ⟨hp, hroot, hsel⟩
    · exact Or.inr ⟨hp, hroot, hsel.trans hsel'⟩

/-- What a piece of a run leaves, whatever comes of its calls. -/
structure Pushed (env : Env) (u : UpdateType) (s s' : St) : Prop where
  frame : IoFrame s s'
  length : s'.ptnEntriesBak.length = s.ptnEntriesBak.length
  valid : AllValid env s'
  slots : ∀ d, HasRoot env d → ∀ c,
    lunSlots env s' d c = lunSlots env s d c
      ∨ lunSlots env s' d c = walkSlots u
          (selected (env.rootDeviceType == .ufs) d s.ptnEntries)
          (lunSlots env s d c)
  rows : ∀ (i : Nat) (p b b' : PartitionEntry),
    s.ptnEntries[i]? = some p → s.ptnEntriesBak[i]? = some b →
    s'.ptnEntriesBak[i]? = some b' → RowKept env u p b b'

section Pushed

variable {env : Env} {u : UpdateType}

/-- Where nothing is done everything is left. -/
theorem Pushed.refl {s : St} (hv : AllValid env s) : Pushed env u s s where
  frame := IoFrame.refl s
  length := rfl
  valid := hv
  slots := fun _ _ _ => Or.inl rfl
  rows := by
    intro i p b b' _ hb hb'
    rw [hb, Option.some.injEq] at hb'
    exact Or.inl hb'.symm

/-- Two pieces of a run are one. -/
theorem Pushed.trans {s s' s'' : St} (h : Pushed env u s s')
    (h' : Pushed env u s' s'') : Pushed env u s s'' where
  frame := h.frame.trans h'.frame
  length := h'.length.trans h.length
  valid := h'.valid
  slots := by
    intro d hroot c
    have hptn := h.frame.ptnEntries
    rcases h.slots d hroot c with heq | heq
    · rw [← heq, ← hptn]
      exact h'.slots d hroot c
    · -- walked already: a second walk does nothing
      have h2 := h'.slots d hroot c
      rw [hptn, heq, walkSlots_idem] at h2
      exact Or.inr (h2.elim id id)
  rows := by
    intro i p b b'' hp hb hb''
    have hlt : i < s'.ptnEntriesBak.length := by
      rw [h.length]
      exact (List.getElem?_eq_some_iff.mp hb).1
    have hb' := List.getElem?_eq_getElem hlt
    refine (h.rows i p b _ hp hb hb').trans (h'.rows i p _ b'' ?_ hb' hb'')
    rw [h.frame.ptnEntries]
    exact hp

/-- The tail of a pass leaves the backup table alone. -/
theorem storeGpt_bak (env : Env) (lun : Nat) (c : GptCopy) (buf : Mem)
    (s : St) :
    (storeGpt env lun c buf s).2.ptnEntriesBak = s.ptnEntriesBak := by
  rcases storeGpt_cases env lun c buf s with ⟨n, heq⟩ | ⟨n, m, heq⟩
  · rw [heq]
  · rw [heq]
    rfl

/-- A pass leaves the backup table as it was or as its walk did. -/
theorem updateCopy_bak (env : Env) (lun : Nat) (u : UpdateType)
    (c : GptCopy) (s : St) :
    (updateCopy env lun u c s).2.ptnEntriesBak = s.ptnEntriesBak
      ∨ (updateCopy env lun u c s).2.ptnEntriesBak
        = (passWalk env lun u c s).2 := by
  rw [updateCopy_calls]
  split
  · exact Or.inl rfl
  split
  · exact Or.inr rfl
  · exact Or.inr (storeGpt_bak env lun c _ _)

/-- A pass is such a piece, whatever comes of its calls. -/
theorem updateCopy_pushed {lun : Nat} {c : GptCopy} {s : St}
    (hlen : s.ptnEntries.length ≤ maxNumPartitions)
    (hbak : s.ptnEntries.length ≤ s.ptnEntriesBak.length)
    (hv : AllValid env s) (hroot : HasRoot env lun) :
    Pushed env u s (updateCopy env lun u c s).2 := by
  have hfr := updateCopy_frame env lun u c s
  have hrun := ((writeRun_rule u).copy hroot c s hlen hv).1
  have hres := updateCopy_result (u := u) (c := c) hlen hbak hv hroot
  have hrows := updateCopy_bak env lun u c s
  generalize updateCopy env lun u c s = r at *
  obtain ⟨ok, s'⟩ := r
  dsimp only at hfr hrun hres hrows ⊢
  refine ⟨hfr, ?_, hrun.valid, fun d hd c' => ?_, ?_⟩
  · rcases hres with ⟨-, hdone⟩ | ⟨-, -, hl⟩
    · exact hdone.bakLength
    · exact hl
  · rcases hres with ⟨-, hdone⟩ | ⟨-, hdisk, -⟩
    · by_cases hne : d = lun
      · subst hne
        by_cases hc : c' = c
        · subst hc
          exact Or.inr hdone.walked
        · exact Or.inl (hdone.otherCopy c' hc)
      · exact Or.inl (lunSlots_congr (hdone.otherLun d hne) c')
    · exact Or.inl (lunSlots_congr (congrFun hdisk d) c')
  · intro i p b b' hp hb hb'
    rcases hrows with hsame | hwalk
    · rw [hsame, hb, Option.some.injEq] at hb'
      exact Or.inl hb'.symm
    · rw [hwalk] at hb'
      rcases walkEntries_keeps hp hb hb' with heq | ⟨hh, hlun, hsel⟩
      · exact Or.inl heq
      · refine Or.inr ⟨hh, fun hufs => ?_, hsel⟩
        rw [hlun (by rw [hufs]; rfl)]
        exact hroot

/-- Every step of an update is such a piece. -/
theorem pushed_rule (u : UpdateType) :
    StepRule env u fun s s' =>
      s.ptnEntries.length ≤ maxNumPartitions →
      s.ptnEntries.length ≤ s.ptnEntriesBak.length → AllValid env s →
        Pushed env u s s' where
  refl := fun _ _ _ hv => Pushed.refl hv
  trans := by
    intro s s' s'' h h' hlen hbak hv
    have hp := h hlen hbak hv
    refine hp.trans (h' ?_ ?_ hp.valid)
    · rw [hp.frame.ptnEntries]
      exact hlen
    · rw [hp.frame.ptnEntries, hp.length]
      exact hbak
  call := by
    intro s _ _ hv
    have hp := Pushed.refl (u := u) hv
    exact ⟨⟨rfl, rfl, rfl, rfl, rfl, rfl⟩, rfl, hv, hp.slots, hp.rows⟩
  copy := fun hroot _ _ hlen hbak hv =>
    updateCopy_pushed hlen hbak hv hroot

/-- A call on working services that finds the table changed walks every
array, whatever was done before. -/
theorem Pushed.walks {s s' : St} (h : Pushed env u s s')
    (hok : ∀ n, env.io n = efiSuccess) (hlook : RootLookup env s.maxLuns)
    (hlen : s.ptnEntries.length ≤ maxNumPartitions)
    (hbak : s.ptnEntries.length ≤ s.ptnEntriesBak.length)
    (hchg : isUpdatePartitionAttributes s' = true) {d : Nat}
    (hroot : HasRoot env d) (c : GptCopy) :
    lunSlots env (updatePartitionAttributes env u s') d c
      = walkSlots u (selected (env.rootDeviceType == .ufs) d s.ptnEntries)
          (lunSlots env s d c) := by
  have hptn := h.frame.ptnEntries
  have hwalk := updatePartitionAttributes_walks (u := u) (s := s') hok
    (by rw [h.frame.maxLuns]; exact hlook) (by rw [hptn]; exact hlen)
    (by rw [hptn, h.length]; exact hbak) h.valid hchg hroot c
  rw [hptn] at hwalk
  refine hwalk.trans ?_
  show walkSlots u _ (lunSlots env s' d c) = _
  rcases h.slots d hroot c with heq | heq
  · rw [heq]
  · rw [heq, walkSlots_idem]

end Pushed

-- ========================================================= whole copies

/-- Equal slots are equal bytes. -/
theorem eq_of_gptEntries_eq {m m' : Mem} {a b : Nat}
    (h : gptEntries m a = gptEntries m' b) {i : Nat}
    (hi : i < maxPartitionEntriesSz) : m (a + i) = m' (b + i) := by
  have hi' : i < 128 * 128 := hi
  unfold gptEntries at h
  have hslot := List.map_inj_left.mp h (i / 128)
    (List.mem_range.mpr (show i / 128 < 128 by omega))
  have hbyte := eq_of_readBytes_eq (entryAt_eq_iff.mp hslot)
    (show i % 128 < partitionEntrySize from Nat.mod_lt _ (by decide))
  rw [Nat.add_assoc, Nat.add_assoc] at hbyte
  have hsum : partitionEntrySize * (i / 128) + i % 128 = i :=
    Nat.div_add_mod i 128
  rw [hsum] at hbyte
  exact hbyte

/-- Equal words are equal bytes. -/
theorem eq_of_getLword_eq {m m' : Mem} {a : Nat}
    (h : getLword m a = getLword m' a) {i : Nat} (hi : i < 4) :
    m (a + i) = m' (a + i) := by
  refine eq_of_readBytes_eq ?_ hi
  rw [← bytesOfLong_getLword, h, bytesOfLong_getLword]

/-- Slots and unchanging bytes decide a valid copy. -/
theorem GptValid.region_eq {g : BlockIoMedia} {c : GptCopy} {m m' : Mem}
    (hm : StdMedia g) (h : GptValid g c m) (h' : GptValid g c m')
    (hag : ∀ x, gptRegion g c x → ¬ CopyField g c x → m' x = m x)
    (hslots : gptEntries m' (entriesAddr g c)
      = gptEntries m (entriesAddr g c)) {x : Nat}
    (hx : gptRegion g c x) : m' x = m x := by
  have hd := hm.image_disjoint c
  simp only [ImageDisjoint, gptHeaderSize] at hd
  have hbytes : ∀ i, i < maxPartitionEntriesSz →
      m' (entriesAddr g c + i) = m (entriesAddr g c + i) :=
    fun i hi => eq_of_gptEntries_eq hslots hi
  have hecrc : getLword m' (hdrAddr g c + partitionCrcOffset)
      = getLword m (hdrAddr g c + partitionCrcOffset) := by
    rw [h'.entriesCrc, h.entriesCrc, readBytes_congr hbytes]
  -- the header without its own checksum
  have hhdr : ∀ i, i < gptHeaderSize →
      ¬ (headerCrcOffset ≤ i ∧ i < headerCrcOffset + 4) →
      m' (hdrAddr g c + i) = m (hdrAddr g c + i) := by
    intro i hi hni
    simp only [gptHeaderSize, headerCrcOffset] at hi hni
    by_cases hcrc : partitionCrcOffset ≤ i
    · simp only [partitionCrcOffset] at hcrc
      have hb := eq_of_getLword_eq hecrc (show i - 88 < 4 by omega)
      simp only [partitionCrcOffset] at hb
      rw [show hdrAddr g c + 88 + (i - 88) = hdrAddr g c + i by omega] at hb
      exact hb
    · refine hag _ (hm.image_in_region (Or.inl ⟨by omega, ?_⟩)) ?_
      · simp only [gptHeaderSize]
        omega
      · simp only [partitionCrcOffset] at hcrc
        rintro (hfield | hfield)
        · have hb := hfield.bounds
          omega
        · simp only [CrcField, headerCrcOffset, partitionCrcOffset] at hfield
          omega
  have hhcrc : getLword m' (hdrAddr g c + headerCrcOffset)
      = getLword m (hdrAddr g c + headerCrcOffset) := by
    rw [h'.headerCrc, h.headerCrc, crcHeader_eq_of_outside hhdr]
  by_cases hfield : CopyField g c x
  · rcases hfield with hentry | hcrc
    · have hb := hentry.bounds
      obtain ⟨i, rfl⟩ := Nat.exists_eq_add_of_le hb.1
      exact hbytes i (by omega)
    · rcases hcrc with hcrc | hcrc
      · obtain ⟨i, rfl⟩ := Nat.exists_eq_add_of_le hcrc.1
        exact eq_of_getLword_eq hhcrc (by omega)
      · obtain ⟨i, rfl⟩ := Nat.exists_eq_add_of_le hcrc.1
        exact eq_of_getLword_eq hecrc (by omega)
  · exact hag x hx hfield

/-- Two states with the same GPTs, both copies on every LUN. -/
def SameGpts (env : Env) (s s' : St) : Prop :=
  ∀ d, HasRoot env d → ∀ c x, gptRegion (env.media d) c x →
    s'.disk d x = s.disk d x

/-- The fields of one copy are outside the other. -/
theorem StdMedia.field_in_region {g : BlockIoMedia} (hm : StdMedia g)
    {c : GptCopy} {x : Nat} (h : CopyField g c x) : gptRegion g c x := by
  refine hm.image_in_region ?_
  rcases h with h | h
  · exact Or.inr h.bounds
  · simp only [CrcField, headerCrcOffset, partitionCrcOffset] at h
    refine Or.inl ?_
    rw [show gptHeaderSize = 92 from rfl]
    omega

/-- After two runs of writes the GPTs are the same when their slots are. -/
theorem sameGpts_iff {env : Env} {s0 s s' : St}
    (hrun : WriteRun env s0 s) (hrun' : WriteRun env s0 s') :
    SameGpts env s s'
      ↔ ∀ d, HasRoot env d → ∀ c, lunSlots env s' d c = lunSlots env s d c := by
  constructor
  · intro h d hroot c
    obtain ⟨hm, -⟩ := hrun.valid.copy hroot c
    exact gptEntries_congr fun i hi => h d hroot c _
      (hm.image_in_region (Or.inr ⟨by omega, by omega⟩))
  · intro h d hroot c x hx
    obtain ⟨hm, hv⟩ := hrun.valid.copy hroot c
    obtain ⟨-, hv'⟩ := hrun'.valid.copy hroot c
    obtain ⟨-, -, -, -, hag⟩ := hrun
    obtain ⟨-, -, -, -, hag'⟩ := hrun'
    refine GptValid.region_eq hm hv hv' ?_ (h d hroot c) hx
    intro y hy hfield
    have hnot : ¬ GptField (env.media d) y := by
      rintro ⟨c', hc'⟩
      have hreg := hm.field_in_region hc'
      cases c with
      | primary =>
          cases c' with
          | primary => exact hfield hc'
          | backup => exact hm.not_both hy hreg
      | backup =>
          cases c' with
          | primary => exact hm.not_both hreg hy
          | backup => exact hfield hc'
    rw [hag' d y hnot, hag d y hnot]

end Edk2Exynos.BootSlot
