/-
What the mask of `GetBlkIOHandles` asks for, and what its loop body lets
pass.

The criteria are stated one by one over the mask as the caller gave it.
`has_adjustDefaults` says which bits the defaults add, and the lemmas
`*_passes` read each part of the body as the criteria it tests.
-/
import Edk2Exynos.BootSlot.BlkIo

namespace Edk2Exynos.BlkIo

open Lib BootSlot

-- ========================================================== the criteria

/-- The information of the volume could be read, and its label, in upper
case, is `s`. -/
def Fs.labelIs (fs : Fs) (s : List CHAR16) : Bool :=
  fs.fsInfo.any fun label => (cstr label).map upperCase == s

section Criteria

variable (a : UINT32) (f : Option PartiSelectFilter) (h : Handle)

/-- A kind of media is excluded when only the other one is asked for. -/
def mediaOk : Bool :=
  if h.removableMedia then
    has a blkIoSelMediaTypeRemovable
      || !has a blkIoSelMediaTypeNonRemovable
  else
    has a blkIoSelMediaTypeNonRemovable
      || !has a blkIoSelMediaTypeRemovable

/-- The path says how the handle is partitioned, and not in a scheme that
is excluded likewise. -/
def schemeOk : Bool :=
  h.devicePath.any fun path => (harddrive path).all fun p =>
    (has a blkIoSelPartitionedGpt || !has a blkIoSelPartitionedMbr
        || p.mbrType != partitionedTypeGpt)
      && (has a blkIoSelPartitionedMbr || !has a blkIoSelPartitionedGpt
        || p.mbrType != partitionedTypeMbr)

/-- The root device is the one asked for, if one is. -/
def rootOk : Bool :=
  !(has a blkIoSelSelectRootDeviceOnly || has a blkIoSelMatchRootDevice)
    || f.any fun f => h.devicePath.any (onRootDevice f.rootDeviceType)

/-- The handle is the root device itself, if that is asked for. -/
def rootOnlyOk : Bool :=
  !has a blkIoSelSelectRootDeviceOnly
    || h.devicePath.any fun path => decide (path.length ≤ 1)

/-- A partition of the type, by a protocol or by its GPT entry. -/
def typeOk : Bool :=
  !has a blkIoSelMatchPartitionTypeGuid
    || (h.devicePath.any fun path => (harddrive path).isSome)
      && (f.bind PartiSelectFilter.partitionType).any fun g =>
        h.protocols g || h.partEntry.any fun e => e.partitionTypeGuid == g

/-- There is a file system, if one is asked for. -/
def mountedOk : Bool :=
  !has a blkIoSelSelectMountedFilesystem || h.fileSystem.isSome

/-- The volume has the name, up to the case of letters. -/
def volumeOk : Bool :=
  !has a blkIoSelSelectByVolumeName
    || h.fileSystem.any fun fs =>
      (f.bind PartiSelectFilter.volumeName).any fun name =>
        fs.labelIs (wideUpper (cstr8 name))

/-- The partition has the label asked for, if one is. -/
def labelOk : Bool :=
  !has a blkIoSelMatchPartitionLabel
    || h.partEntry.any fun e =>
      (f.bind PartiSelectFilter.partitionLabel).any fun label =>
        cstr e.partitionName == cstr label

/-- A block device with everything the mask asks for but the name of the
volume. -/
def wantedSaveName : Bool :=
  h.blockIo == efiSuccess && mediaOk a h && schemeOk a h && rootOk a f h
    && rootOnlyOk a h && typeOk a f h && mountedOk a h && labelOk a f h

/-- A block device with everything the mask asks for. -/
def wanted : Bool := wantedSaveName a f h && volumeOk a f h

/-- The test the code makes of the name: only with a mounted file system
asked for, and of its first fifteen characters. -/
def volumeTested : Bool :=
  !(has a blkIoSelSelectMountedFilesystem
      && has a blkIoSelSelectByVolumeName)
    || h.fileSystem.any fun fs =>
      (f.bind PartiSelectFilter.volumeName).any fun name =>
        fs.labelIs ((wideUpper (cstr8 name)).take (volumeLabelSize - 1))

/-- The name is asked for in a way the code decides for this handle:
with a mounted file system, by a name that is short or that neither in
full nor cut off is the label; or, without that, by the handle's own
name. -/
def NameDecided : Prop :=
  has a blkIoSelSelectByVolumeName = true →
    if has a blkIoSelSelectMountedFilesystem then
      ∀ fs, h.fileSystem = some fs → ∀ name,
        f.bind PartiSelectFilter.volumeName = some name →
        (cstr8 name).length < volumeLabelSize
          ∨ fs.labelIs (wideUpper (cstr8 name)) = false
            ∧ fs.labelIs ((wideUpper (cstr8 name)).take
              (volumeLabelSize - 1)) = false
    else volumeOk a f h = true

end Criteria

-- ========================================================== the defaults

theorem has_or_left (a b c : UINT32) :
    has (a ||| b) c = (has a c || has b c) := by
  unfold has
  rw [BitVec.and_or_distrib_right, Bool.eq_iff_iff]
  simp [BitVec.or_eq_zero_iff, imp_iff_not_or]

theorem has_comm (a b : UINT32) : has a b = has b a := by
  unfold has
  rw [BitVec.and_comm]

theorem has_or_right (a b c : UINT32) :
    has a (b ||| c) = (has a b || has a c) := by
  rw [has_comm, has_or_left, has_comm b, has_comm c]

/-- Bits that are not defaults are as the caller set them, and those of a
pair of defaults are as asked for, both when neither is. -/
theorem has_adjustDefaults (a bits : UINT32) :
    has (adjustDefaults a) bits
      = (has a bits
        || !(has a blkIoSelMediaTypeRemovable
            || has a blkIoSelMediaTypeNonRemovable)
          && has (blkIoSelMediaTypeRemovable
            ||| blkIoSelMediaTypeNonRemovable) bits
        || !(has a blkIoSelPartitionedGpt || has a blkIoSelPartitionedMbr)
          && has (blkIoSelPartitionedGpt ||| blkIoSelPartitionedMbr) bits)
    := by
  have hmedia : has (blkIoSelMediaTypeRemovable
      ||| blkIoSelMediaTypeNonRemovable)
        (blkIoSelPartitionedGpt ||| blkIoSelPartitionedMbr) = false := rfl
  have hscheme := has_or_right a blkIoSelPartitionedGpt
    blkIoSelPartitionedMbr
  rw [← has_or_right, ← has_or_right]
  unfold adjustDefaults
  dsimp only
  cases hm : has a (blkIoSelMediaTypeRemovable
      ||| blkIoSelMediaTypeNonRemovable) with
  | true =>
      cases hs : has a (blkIoSelPartitionedGpt
          ||| blkIoSelPartitionedMbr) with
      | true => simp [hs]
      | false => simp [hs, has_or_left]
  | false =>
      cases hs : has a (blkIoSelPartitionedGpt
          ||| blkIoSelPartitionedMbr) with
      | true => simp [hs, has_or_left]
      | false => simp [hs, has_or_left, hmedia]

/-- A bit for the kind of medium counts as given when neither of the two is.
-/
theorem has_adjustDefaults_media {b : UINT32} (a : UINT32)
    (hm : has (blkIoSelMediaTypeRemovable ||| blkIoSelMediaTypeNonRemovable)
      b = true)
    (hs : has (blkIoSelPartitionedGpt ||| blkIoSelPartitionedMbr) b
      = false) :
    has (adjustDefaults a) b
      = (has a b || !(has a blkIoSelMediaTypeRemovable
        || has a blkIoSelMediaTypeNonRemovable)) := by
  simp [has_adjustDefaults, hm, hs]

/-- A bit for the kind of table counts as given when neither of the two is. -/
theorem has_adjustDefaults_scheme {b : UINT32} (a : UINT32)
    (hm : has (blkIoSelMediaTypeRemovable ||| blkIoSelMediaTypeNonRemovable)
      b = false)
    (hs : has (blkIoSelPartitionedGpt ||| blkIoSelPartitionedMbr) b
      = true) :
    has (adjustDefaults a) b
      = (has a b || !(has a blkIoSelPartitionedGpt
        || has a blkIoSelPartitionedMbr)) := by
  simp [has_adjustDefaults, hm, hs]

/-- The bits that have no default. -/
theorem has_adjustDefaults_other {b : UINT32} (a : UINT32)
    (h : has (blkIoSelMediaTypeRemovable ||| blkIoSelMediaTypeNonRemovable
      ||| blkIoSelPartitionedGpt ||| blkIoSelPartitionedMbr) b = false) :
    has (adjustDefaults a) b = has a b := by
  simp only [has_or_left, Bool.or_eq_false_iff] at h
  simp [has_adjustDefaults, has_or_left, h]

-- ================================================ the volume name's test

/-- No character becomes the terminator in upper case. -/
theorem upperCase_ne_zero {c : CHAR16} (h : c ≠ 0) : upperCase c ≠ 0 := by
  unfold upperCase
  split
  next hlow =>
    intro hcon
    bv_omega
  next => exact h

/-- What is left of a string behind some of its characters. -/
theorem cstr_drop {k : Nat} {l : List CHAR16} (h : k ≤ strLen l) :
    cstr (l.drop k) = (cstr l).drop k := by
  induction l generalizing k with
  | nil => simp
  | cons x l ih =>
      cases k with
      | zero => rfl
      | succ k =>
          have hx : x ≠ 0 := by
            intro hx
            unfold strLen at h
            rw [cstr_cons_of_eq hx] at h
            exact absurd h (Nat.not_succ_le_zero k)
          unfold strLen at h
          rw [cstr_cons hx] at h ⊢
          exact ih (Nat.le_of_succ_le_succ h)

/-- Only the first fifteen characters of a label are put in upper case. -/
theorem cstr_upperLabel (label : List CHAR16) :
    cstr (upperLabel label)
      = ((cstr label).take (volumeLabelSize - 1)).map upperCase
        ++ (cstr label).drop (volumeLabelSize - 1) := by
  have hne : ∀ x ∈ ((cstr label).take (volumeLabelSize - 1)).map upperCase,
      x ≠ 0 := by
    intro x hx
    obtain ⟨c, hc, rfl⟩ := List.mem_map.1 hx
    exact upperCase_ne_zero (ne_zero_of_mem_cstr (List.mem_of_mem_take hc))
  have hdrop : cstr (label.drop (min (volumeLabelSize - 1)
      (cstr label).length)) = (cstr label).drop (min (volumeLabelSize - 1)
        (cstr label).length) := cstr_drop (Nat.min_le_right _ _)
  unfold upperLabel
  dsimp only
  rw [cstr_append hne, List.length_map, List.length_take, hdrop]
  congr 1
  rcases Nat.le_total (volumeLabelSize - 1) (cstr label).length with h | h
  · rw [Nat.min_eq_left h]
  · rw [Nat.min_eq_right h, List.drop_length, List.drop_of_length_le h]

/-- The name is cut after fifteen characters. -/
theorem cstr_requestedLabel (name : List CHAR8) :
    cstr (requestedLabel name)
      = (wideUpper (cstr8 name)).take (volumeLabelSize - 1) := by
  have hne : ∀ x ∈ wideUpper ((cstr8 name).take (volumeLabelSize - 1)),
      x ≠ 0 := by
    intro x hx
    obtain ⟨c, hc, rfl⟩ := List.mem_map.1 hx
    have hc0 := List.mem_takeWhile_imp (List.mem_of_mem_take hc)
    apply upperCase_ne_zero
    intro hcon
    simp only [ne_eq, decide_not, Bool.not_eq_true', decide_eq_false_iff_not]
      at hc0
    apply hc0
    bv_omega
  unfold requestedLabel
  rw [cstr_append_zero hne]
  exact List.map_take

/-- The label is compared with the name's first fifteen characters. -/
theorem compareVolumeLabel_eq_zero_iff (fs : Fs) (name : List CHAR8) :
    compareVolumeLabel fs name = 0
      ↔ fs.labelIs ((wideUpper (cstr8 name)).take (volumeLabelSize - 1))
        = true := by
  unfold compareVolumeLabel Fs.labelIs
  cases fs.fsInfo with
  | none => simp
  | some label =>
      simp only [Option.any_some, beq_iff_eq]
      rw [strnCmp_eq_zero_iff, cstr_upperLabel, cstr_requestedLabel]
      generalize wideUpper (cstr8 name) = s
      generalize hc : cstr label = c
      have hs : (s.take (volumeLabelSize - 1)).length < volumeLabelSize := by
        rw [List.length_take]
        exact Nat.lt_of_le_of_lt (Nat.min_le_left _ _) (by decide)
      rw [List.take_of_length_le (Nat.le_of_lt hs)]
      rcases Nat.lt_or_ge c.length volumeLabelSize with hlt | hge
      · have hle : c.length ≤ volumeLabelSize - 1 := by omega
        rw [List.take_of_length_le hle, List.drop_of_length_le hle,
          List.append_nil, List.take_of_length_le (by
            rw [List.length_map]
            exact Nat.le_of_lt hlt)]
      · -- a label that long is no name cut off
        have hlen : ∀ l : List CHAR16, volumeLabelSize ≤ l.length →
            l ≠ s.take (volumeLabelSize - 1) := by
          intro l hl heq
          rw [← heq] at hs
          omega
        refine iff_of_false (hlen _ ?_) (hlen _ ?_)
        · simp only [List.length_take, List.length_append, List.length_map,
            List.length_drop]
          omega
        · rw [List.length_map]
          exact hge

/-- A name that fits is compared in full; a longer one wrongly exactly
when the label is the name, or what is left of it. -/
theorem labelIs_take_eq_iff (fs : Fs) (name : List CHAR8) :
    fs.labelIs ((wideUpper (cstr8 name)).take (volumeLabelSize - 1))
        = fs.labelIs (wideUpper (cstr8 name))
      ↔ (cstr8 name).length < volumeLabelSize
        ∨ fs.labelIs (wideUpper (cstr8 name)) = false
          ∧ fs.labelIs ((wideUpper (cstr8 name)).take
            (volumeLabelSize - 1)) = false := by
  have hlen : (wideUpper (cstr8 name)).length = (cstr8 name).length :=
    List.length_map _
  rcases Nat.lt_or_ge (cstr8 name).length volumeLabelSize with hlt | hge
  · rw [List.take_of_length_le (by omega)]
    exact iff_of_true rfl (Or.inl hlt)
  · -- the two names differ in length: the label is at most one of them
    have hne : (wideUpper (cstr8 name)).take (volumeLabelSize - 1)
        ≠ wideUpper (cstr8 name) := by
      intro heq
      have hl := congrArg List.length heq
      rw [List.length_take, hlen] at hl
      have : volumeLabelSize = 16 := rfl
      omega
    unfold Fs.labelIs
    cases fs.fsInfo with
    | none => simp
    | some label =>
        simp only [Option.any_some, beq_eq_false_iff_ne]
        constructor
        · intro heq
          right
          constructor
          · intro hfull
            rw [hfull, beq_self_eq_true, beq_iff_eq] at heq
            exact hne heq.symm
          · intro hcut
            rw [hcut, beq_self_eq_true] at heq
            exact hne (beq_iff_eq.1 heq.symm)
        · rintro (hlt | ⟨hfull, hcut⟩)
          · omega
          · rw [beq_false_of_ne hfull, beq_false_of_ne hcut]

-- ============================================= the body and the criteria

section Body

variable (a : UINT32) (f : Option PartiSelectFilter) (h : Handle)

/-- A handle passes when its Block I/O protocol can be opened. -/
theorem openBlockIo_passes :
    (openBlockIo h).passes = (h.blockIo == efiSuccess) := by
  unfold openBlockIo
  split
  next hun => simp [hun, Verdict.passes, efiUnsupported, efiSuccess]
  next =>
    split
    next herr => simp [herr, Verdict.passes]
    next hok => simp [not_not.1 hok, Verdict.passes]

/-- A handle passes when its medium is of a kind that was asked for. -/
theorem mediaType_passes :
    (mediaType (adjustDefaults a) h).passes = mediaOk a h := by
  unfold mediaType mediaOk
  split
  · rw [Verdict.need_passes, has_adjustDefaults_media a rfl rfl]
    cases has a blkIoSelMediaTypeRemovable <;> simp
  · rw [Verdict.need_passes, has_adjustDefaults_media a rfl rfl]
    cases has a blkIoSelMediaTypeNonRemovable <;> simp

/-- A partition passes when its table is of a kind that was asked for. -/
theorem partitioned_passes (p : Node) :
    (partitioned (adjustDefaults a) p).passes
      = ((has a blkIoSelPartitionedGpt || !has a blkIoSelPartitionedMbr
            || p.mbrType != partitionedTypeGpt)
          && (has a blkIoSelPartitionedMbr || !has a blkIoSelPartitionedGpt
            || p.mbrType != partitionedTypeMbr)) := by
  unfold partitioned
  rw [Verdict.andThen_passes, Verdict.need_passes, Verdict.need_passes,
    has_adjustDefaults_scheme a rfl rfl, has_adjustDefaults_scheme a rfl rfl]
  cases has a blkIoSelPartitionedGpt <;> simp

/-- A path passes when it begins at the root device of the filter. -/
theorem rootDevice_passes (path : List Node) :
    (rootDevice (adjustDefaults a) f path).passes
      = (!(has a blkIoSelSelectRootDeviceOnly
            || has a blkIoSelMatchRootDevice)
          || f.any fun f => onRootDevice f.rootDeviceType path) := by
  unfold rootDevice
  rw [has_or_right, has_adjustDefaults_other a rfl,
    has_adjustDefaults_other a rfl]
  cases has a blkIoSelSelectRootDeviceOnly || has a blkIoSelMatchRootDevice
  with
  | false => rfl
  | true =>
      cases f with
      | none => rfl
      | some f => simp

/-- A path passes when it is that of the root device itself. -/
theorem rootDeviceOnly_passes (path : List Node) :
    (rootDeviceOnly (adjustDefaults a) path).passes
      = (!has a blkIoSelSelectRootDeviceOnly || decide (path.length ≤ 1))
    := by
  unfold rootDeviceOnly
  rw [has_adjustDefaults_other a rfl]
  cases has a blkIoSelSelectRootDeviceOnly with
  | false => rfl
  | true => simp

/-- A handle passes when the type is one of its protocols or the type in its
GPT entry. -/
theorem partitionType_passes :
    (partitionType (adjustDefaults a) f h).passes
      = (!has a blkIoSelMatchPartitionTypeGuid
          || (f.bind PartiSelectFilter.partitionType).any fun g =>
            h.protocols g
              || h.partEntry.any fun e => e.partitionTypeGuid == g) := by
  unfold partitionType
  rw [has_adjustDefaults_other a rfl]
  cases has a blkIoSelMatchPartitionTypeGuid with
  | false => rfl
  | true =>
      cases f.bind PartiSelectFilter.partitionType with
      | none => rfl
      | some g =>
          cases hp : h.protocols g with
          | false => simp [hp]
          | true => simp [hp, Verdict.passes]

/-- The device path is always needed: both schemes are the default. -/
theorem devicePath_passes :
    (devicePath (adjustDefaults a) f h).passes
      = (schemeOk a h && rootOk a f h && rootOnlyOk a h && typeOk a f h)
    := by
  have hneed : has (adjustDefaults a) filtersNeedingDevicePath = true := by
    unfold filtersNeedingDevicePath
    simp only [has_or_right]
    rw [has_adjustDefaults_scheme (b := blkIoSelPartitionedGpt) a rfl rfl,
      has_adjustDefaults_scheme (b := blkIoSelPartitionedMbr) a rfl rfl]
    cases has a blkIoSelPartitionedGpt <;>
      cases has a blkIoSelPartitionedMbr <;> simp
  unfold devicePath
  rw [if_pos hneed]
  cases hpath : h.devicePath with
  | none => simp [schemeOk, hpath, Verdict.passes]
  | some path =>
      simp only [Verdict.andThen_passes, rootDevice_passes,
        rootDeviceOnly_passes, partition, schemeOk, rootOk, rootOnlyOk,
        typeOk, hpath, Option.any_some]
      cases hp : harddrive path with
      | none =>
          simp [has_adjustDefaults_other a (b :=
            blkIoSelMatchPartitionTypeGuid) rfl, Bool.and_assoc]
      | some p =>
          simp only [Verdict.andThen_passes, partitioned_passes,
            partitionType_passes, Option.all_some, Option.isSome_some,
            Bool.true_and]
          ac_rfl

/-- A handle passes when it has a file system, and where it is looked at, the
label. -/
theorem fileSystem_passes :
    (fileSystem (adjustDefaults a) f h).passes
      = (mountedOk a h && volumeTested a f h) := by
  unfold fileSystem mountedOk volumeTested
  rw [has_adjustDefaults_other a rfl, has_adjustDefaults_other a rfl]
  cases has a blkIoSelSelectMountedFilesystem with
  | false => rfl
  | true =>
      cases h.fileSystem with
      | none => rfl
      | some fs =>
          cases has a blkIoSelSelectByVolumeName with
          | false => rfl
          | true =>
              cases f.bind PartiSelectFilter.volumeName with
              | none => rfl
              | some name =>
                  have hcmp := compareVolumeLabel_eq_zero_iff fs name
                  simp only [if_true, Verdict.need_passes,
                    Option.isSome_some, Bool.and_self, Bool.not_true,
                    Bool.false_or, Bool.true_and, Option.any_some]
                  rw [Bool.eq_iff_iff, beq_iff_eq]
                  exact hcmp

/-- A handle passes when its GPT entry has the label. -/
theorem partitionLabel_passes :
    (partitionLabel (adjustDefaults a) f h).passes = labelOk a f h := by
  unfold partitionLabel labelOk
  rw [has_adjustDefaults_other a rfl]
  cases has a blkIoSelMatchPartitionLabel with
  | false => rfl
  | true =>
      cases h.partEntry with
      | none => rfl
      | some e =>
          cases f.bind PartiSelectFilter.partitionLabel with
          | none => rfl
          | some label =>
              simp only [if_true, Verdict.need_passes, Bool.not_true,
                Bool.false_or, Option.any_some]
              rw [Bool.eq_iff_iff, beq_iff_eq, beq_iff_eq,
                strnCmp_eq_zero_iff]
              unfold strLen
              rw [List.take_of_length_le (Nat.le_max_left _ _),
                List.take_of_length_le (Nat.le_max_right _ _)]

/-- A handle passes the body when it has everything the mask asks for,
the name of the volume as far as it is tested. -/
theorem check_passes :
    (check (adjustDefaults a) f h).passes
      = (wantedSaveName a f h && volumeTested a f h) := by
  unfold check wantedSaveName
  simp only [Verdict.andThen_passes, openBlockIo_passes, mediaType_passes,
    devicePath_passes, fileSystem_passes, partitionLabel_passes]
  ac_rfl

/-- The check is right about a handle exactly when its volume name needs no
test or gets one. -/
theorem wanted_iff_volumeTested :
    ((check (adjustDefaults a) f h).passes = wanted a f h)
      ↔ (wantedSaveName a f h = true →
          volumeTested a f h = volumeOk a f h) := by
  rw [check_passes]
  unfold wanted
  cases wantedSaveName a f h <;> simp

/-- The test of the name and the name agree exactly when the code decides
for the handle. -/
theorem volumeTested_eq_iff (hfs : mountedOk a h = true) :
    volumeTested a f h = volumeOk a f h ↔ NameDecided a f h := by
  unfold NameDecided volumeTested mountedOk at *
  cases hv : has a blkIoSelSelectByVolumeName with
  | false => simp [volumeOk, hv]
  | true =>
      cases hm : has a blkIoSelSelectMountedFilesystem with
      | false =>
          simp only [Bool.false_and, Bool.not_false, Bool.true_or,
            Bool.false_eq_true, if_false, true_implies]
          exact eq_comm
      | true =>
          rw [hm] at hfs
          obtain ⟨fs, hsome⟩ := Option.isSome_iff_exists.1 hfs
          cases hname : f.bind PartiSelectFilter.volumeName with
          | none => simp [volumeOk, hv, hsome, hname]
          | some name =>
              simp only [volumeOk, hv, hsome, hname, Option.any_some,
                Bool.and_self, Bool.not_true, Bool.false_or, if_true,
                Option.some.injEq, forall_eq', true_implies]
              exact labelIs_take_eq_iff fs name

end Body

end Edk2Exynos.BlkIo
