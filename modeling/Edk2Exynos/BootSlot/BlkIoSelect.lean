/-
What `GetBlkIOHandles` selects, against what its mask asks for.

The loop is an instance of `Lib.select`, so its result is a filter cut off
at the capacity. `getBlkIOHandles_selects_iff` compares that filter with
the criteria on the handles the loop comes to.
-/
import Edk2Exynos.BootSlot.BlkIoCriteria

namespace Edk2Exynos.BlkIo

open Lib BootSlot

-- ======================================================== leaving early

/-- The errors of a criterion: its value is missing from the filter. -/
def ArgumentErrors (v : Verdict Exit) : Prop :=
  ∀ e, v.error = some e →
    e = .returned efiInvalidParameter ∨ e = .nullAccess

/-- Two checks stop only with what one of them stops with. -/
theorem ArgumentErrors.andThen {v w : Verdict Exit} (hv : ArgumentErrors v)
    (hw : ArgumentErrors w) : ArgumentErrors (v.andThen w) := by
  intro e he
  rw [Verdict.andThen_error] at he
  split at he
  next => exact hw e he
  next => exact hv e he

theorem ArgumentErrors.need (b : Bool) : ArgumentErrors (.need b) := by
  intro e he
  rw [Verdict.need_error] at he
  cases he

theorem argumentErrors_pass : ArgumentErrors .pass := fun _ he => by
  cases he

theorem argumentErrors_skip : ArgumentErrors .skip := fun _ he => by
  cases he

/-- A check may stop with EFI_INVALID_PARAMETER. -/
theorem argumentErrors_missing :
    ArgumentErrors (.stop (.returned efiInvalidParameter)) := fun _ he => by
  cases he
  exact Or.inl rfl

section Errors

variable (a : UINT32) (f : Option PartiSelectFilter) (h : Handle)

/-- The look at the medium stops with no error. -/
theorem mediaType_argumentErrors : ArgumentErrors (mediaType a h) := by
  unfold mediaType
  split <;> apply ArgumentErrors.need

/-- The look at the device path stops with no other error. -/
theorem devicePath_argumentErrors : ArgumentErrors (devicePath a f h) := by
  unfold devicePath
  split
  next =>
    cases h.devicePath with
    | none => exact argumentErrors_skip
    | some path =>
        apply ArgumentErrors.andThen
        · unfold rootDevice
          split
          next =>
            cases f with
            | none => exact argumentErrors_missing
            | some f => apply ArgumentErrors.need
          next => exact argumentErrors_pass
        · apply ArgumentErrors.andThen
          · unfold rootDeviceOnly
            split
            next => apply ArgumentErrors.need
            next => exact argumentErrors_pass
          · unfold partition
            cases harddrive path with
            | none => apply ArgumentErrors.need
            | some p =>
                apply ArgumentErrors.andThen
                · apply ArgumentErrors.andThen
                  · apply ArgumentErrors.need
                  · apply ArgumentErrors.need
                · unfold partitionType
                  split
                  next =>
                    split
                    next => exact argumentErrors_missing
                    next =>
                      split
                      next => exact argumentErrors_pass
                      next => apply ArgumentErrors.need
                  next => exact argumentErrors_pass
  next => exact argumentErrors_pass

/-- The look at the file system stops with no other error. -/
theorem fileSystem_argumentErrors : ArgumentErrors (fileSystem a f h) := by
  unfold fileSystem
  split
  next =>
    split
    next => exact argumentErrors_skip
    next =>
      split
      next =>
        split
        next => exact argumentErrors_missing
        next => apply ArgumentErrors.need
      next => exact argumentErrors_pass
  next => exact argumentErrors_pass

/-- The look at the label stops with no other error. -/
theorem partitionLabel_argumentErrors :
    ArgumentErrors (partitionLabel a f h) := by
  unfold partitionLabel
  split
  next =>
    split
    next => exact argumentErrors_skip
    next =>
      split
      next =>
        intro e he
        cases he
        exact Or.inr rfl
      next => apply ArgumentErrors.need
  next => exact argumentErrors_pass

/-- The body leaves with the error of a block I/O it cannot open, or over
a value the filter does not have. -/
theorem check_error {e : Exit} (he : (check a f h).error = some e) :
    e = .returned h.blockIo ∧ h.blockIo ≠ efiSuccess
      ∨ e = .returned efiInvalidParameter ∨ e = .nullAccess := by
  unfold check at he
  rw [Verdict.andThen_error] at he
  split at he
  next =>
    right
    apply ArgumentErrors.andThen (mediaType_argumentErrors a h)
      (ArgumentErrors.andThen (devicePath_argumentErrors a f h)
        (ArgumentErrors.andThen (fileSystem_argumentErrors a f h)
          (partitionLabel_argumentErrors a f h)))
    exact he
  next =>
    left
    unfold openBlockIo at he
    split at he
    next => cases he
    next =>
      split at he
      next herr =>
        cases he
        exact ⟨rfl, herr⟩
      next => cases he

/-- The body never leaves with `EFI_SUCCESS`. -/
theorem check_error_ne :
    (check a f h).error ≠ some (.returned efiSuccess) := by
  intro he
  rcases check_error a f h he with ⟨heq, herr⟩ | heq | heq
  · injection heq with hio
    exact herr hio.symm
  · cases heq
  · cases heq

end Errors

-- ====================================================== the whole lookup

section Lookup

variable {a : UINT32} {f : Option PartiSelectFilter} {n : Nat}
  {fw : Firmware} {r : Answer}

/-- The handles that pass the body of a lookup. -/
def passing (a : UINT32) (f : Option PartiSelectFilter) (h : Handle) :
    Bool :=
  (check (adjustDefaults a) f h).passes

/-- A search that succeeds finds the handles of the database. -/
theorem locate_ok {a : UINT32} (h : (fw.locate a).1 = efiSuccess) :
    (fw.locate a).2 = fw.located a := by
  have hnf : efiNotFound ≠ efiSuccess := by decide
  unfold Firmware.locate at h ⊢
  split at h
  next => exact absurd h hnf
  next hne =>
    rw [if_neg hne]
    split at h
    next herr => exact absurd h herr
    next hok => rw [if_neg hok]

/-- A search that fails is the result, and nothing is stored. -/
theorem getBlkIOHandles_not_located
    (h : (fw.locate (adjustDefaults a)).1 ≠ efiSuccess) :
    getBlkIOHandles a f true (some n) fw
      = some ⟨(fw.locate (adjustDefaults a)).1, [], some n⟩ := by
  unfold getBlkIOHandles
  dsimp only
  rw [if_pos h]

/-- With the handles at hand a lookup is the loop over them. -/
theorem getBlkIOHandles_located
    (h : (fw.locate (adjustDefaults a)).1 = efiSuccess) :
    getBlkIOHandles a f true (some n) fw
      = match select (check (adjustDefaults a) f) n
          (fw.located (adjustDefaults a)) [] with
        | (none, stored) =>
            some ⟨efiSuccess, stored.map (handleInfo (adjustDefaults a)),
              some stored.length⟩
        | (some (.returned status), stored) =>
            some ⟨status, stored.map (handleInfo (adjustDefaults a)),
              some n⟩
        | (some .nullAccess, _) => none := by
  unfold getBlkIOHandles
  dsimp only
  rw [if_neg (not_not.2 h)]
  have hhandles := locate_ok h
  generalize (fw.locate (adjustDefaults a)).2 = handles at hhandles
  subst hhandles
  rfl

/-- A lookup that succeeds looked through all it needed without an error,
and stored what passed. -/
theorem getBlkIOHandles_ok
    (h : getBlkIOHandles a f true (some n) fw = some r)
    (hok : r.status = efiSuccess) :
    r.stored = (((fw.located (adjustDefaults a)).filter (passing a f)).take
        (room n 0)).map (handleInfo (adjustDefaults a))
      ∧ r.maxBlkIopCnt = some r.stored.length := by
  by_cases hloc : (fw.locate (adjustDefaults a)).1 ≠ efiSuccess
  · rw [getBlkIOHandles_not_located hloc] at h
    cases h
    exact absurd hok hloc
  · rw [getBlkIOHandles_located (not_not.1 hloc)] at h
    have hstored := select_stored (check (adjustDefaults a) f) n
      (fw.located (adjustDefaults a)) []
    have herror := select_error (check (adjustDefaults a) f) n
      (fw.located (adjustDefaults a)) []
    generalize select (check (adjustDefaults a) f) n
      (fw.located (adjustDefaults a)) [] = res at h hstored herror
    obtain ⟨error, stored⟩ := res
    cases error with
    | none =>
        cases h
        refine ⟨congrArg _ (hstored rfl), ?_⟩
        rw [List.length_map]
    | some e =>
        cases e with
        | nullAccess => cases h
        | returned status =>
            cases h
            obtain ⟨x, -, hx⟩ := List.exists_of_findSome?_eq_some herror.symm
            rw [show status = efiSuccess from hok] at hx
            exact absurd hx (check_error_ne _ _ x)

/-- What the mask asks for lies among the handles that are looked up. -/
theorem filter_wanted_located :
    (fw.located (adjustDefaults a)).filter (wanted a f)
      = fw.handles.filter (wanted a f) := by
  have hfs : has (adjustDefaults a) (blkIoSelSelectMountedFilesystem
      ||| blkIoSelSelectByVolumeName)
        = (has a blkIoSelSelectMountedFilesystem
          || has a blkIoSelSelectByVolumeName) := by
    rw [has_or_right, has_adjustDefaults_other a rfl,
      has_adjustDefaults_other a rfl]
  unfold Firmware.located
  rw [hfs]
  split
  next hneed =>
    rw [List.filter_filter]
    apply List.filter_congr
    intro h _
    cases hw : wanted a f h with
    | false => rfl
    | true =>
        unfold wanted wantedSaveName at hw
        simp only [Bool.and_eq_true] at hw
        -- asked for by either bit, there is a file system
        rcases Bool.or_eq_true_iff.1 hneed with hm | hv
        · have hmount := hw.1.1.2
          unfold mountedOk at hmount
          rw [hm] at hmount
          simpa using hmount
        · have hvol := hw.2
          unfold volumeOk at hvol
          rw [hv] at hvol
          cases hfile : h.fileSystem with
          | none => simp [hfile] at hvol
          | some fs => rfl
  next =>
    rw [List.filter_filter]
    apply List.filter_congr
    intro h _
    cases hw : wanted a f h with
    | false => rfl
    | true =>
        unfold wanted wantedSaveName at hw
        simp only [Bool.and_eq_true, beq_iff_eq] at hw
        have hio := hw.1.1.1.1.1.1.1.1
        rw [hio]
        rfl

/-- Different handles have different entries in the list. -/
theorem handleInfo_injective (a : UINT32) :
    Function.Injective (handleInfo a) := fun _ _ h =>
  congrArg HandleInfo.handle h

/-- What the mask asks for is stored: the first handles with all of it,
as many as there are places, their number, and nothing further. -/
structure Selected (a : UINT32) (f : Option PartiSelectFilter) (n : Nat)
    (fw : Firmware) (r : Answer) : Prop where
  stored : r.stored = ((fw.handles.filter (wanted a f)).take n).map
    (handleInfo (adjustDefaults a))
  count : r.maxBlkIopCnt = some (min n (fw.handles.countP (wanted a f)))
  bounded : r.stored.length ≤ n

/-- With the right count only the stored entries are left to be right. -/
theorem selected_iff_stored (hcount : r.maxBlkIopCnt = some r.stored.length) :
    Selected a f n fw r
      ↔ r.stored = ((fw.handles.filter (wanted a f)).take n).map
        (handleInfo (adjustDefaults a)) := by
  constructor
  · exact Selected.stored
  · intro hstored
    have hlen : r.stored.length
        = min n (fw.handles.countP (wanted a f)) := by
      rw [hstored, List.length_map, List.length_take,
        List.countP_eq_length_filter]
    refine ⟨hstored, ?_, ?_⟩
    · rw [hcount, hlen]
    · rw [hlen]
      exact Nat.min_le_left _ _

end Lookup

/-- A lookup that succeeds selects what its mask asks for exactly when
there is a place for a handle, or none that would be stored, and the code
decides the volume name of each handle it comes to that has everything
else. -/
theorem getBlkIOHandles_selects_iff (a : UINT32)
    (f : Option PartiSelectFilter) (n : Nat) (fw : Firmware) (r : Answer)
    (h : getBlkIOHandles a f true (some n) fw = some r)
    (hok : r.status = efiSuccess) :
    Selected a f n fw r
      ↔ (n = 0 → ∀ x ∈ fw.located (adjustDefaults a),
            passing a f x = false)
        ∧ (0 < n → ∀ x ∈ reached (passing a f) n
            (fw.located (adjustDefaults a)),
              wantedSaveName a f x = true → NameDecided a f x) := by
  obtain ⟨hstored, hcount⟩ := getBlkIOHandles_ok h hok
  rw [selected_iff_stored hcount, hstored,
    List.map_inj_right fun _ _ he => handleInfo_injective _ he,
    ← filter_wanted_located]
  rcases Nat.eq_zero_or_pos n with rfl | hpos
  · rw [List.take_zero, show room 0 0 = 1 from rfl, List.take_eq_nil_iff]
    simp [List.filter_eq_nil_iff]
  · rw [show room n 0 = n by unfold room; omega, take_filter_eq_iff]
    have hdecided : ∀ x, passing a f x = wanted a f x
        ↔ (wantedSaveName a f x = true → NameDecided a f x) := by
      intro x
      unfold passing
      rw [wanted_iff_volumeTested]
      apply forall_congr'
      intro hx
      apply volumeTested_eq_iff
      unfold wantedSaveName at hx
      simp only [Bool.and_eq_true] at hx
      exact hx.1.2
    constructor
    · intro hall
      exact ⟨fun hz => absurd hz (Nat.ne_of_gt hpos), fun _ x hx =>
        (hdecided x).1 (hall x hx)⟩
    · intro hall x hx
      exact (hdecided x).2 (hall.2 hpos x hx)

/-- A block device of one path node with a volume of the label. -/
def volumeHandle (label : List CHAR16) : Handle where
  blockIo := efiSuccess
  removableMedia := false
  devicePath := some [⟨⟨1, 4, 20, EfiGuid.zero⟩, 0⟩]
  protocols := fun _ => false
  partEntry := none
  fileSystem := some ⟨efiSuccess, efiBufferTooSmall, true, efiSuccess,
    label⟩

/-- The volumes `D` and `M`. -/
def twoVolumes : Firmware where
  handles := [volumeHandle [0x44], volumeHandle [0x4d]]
  locateHandleBuffer := efiSuccess

/-- The volume `m` is asked for. -/
def volumeFilter : PartiSelectFilter where
  rootDeviceType := none
  partitionType := none
  volumeName := some [0x6d, 0]
  partitionLabel := none

/-- As a mounted file system it is found. -/
theorem getBlkIOHandles_selects_iff_sample :
    Selected (blkIoSelSelectMountedFilesystem ||| blkIoSelSelectByVolumeName)
      (some volumeFilter) 1 twoVolumes
      ⟨efiSuccess, [handleInfo 0x6f (volumeHandle [0x4d])], some 1⟩ :=
  (getBlkIOHandles_selects_iff _ _ 1 _ _ rfl rfl).2
    ⟨fun hz => absurd hz (by decide), fun _ x _ _ _ fs _ name hname => by
      cases hname
      exact Or.inl (by decide)⟩

/-- Without that bit the first volume is taken for it. -/
theorem getBlkIOHandles_any_name :
    getBlkIOHandles blkIoSelSelectByVolumeName (some volumeFilter) true
        (some 1) twoVolumes
      = some ⟨efiSuccess, [handleInfo 0x4f (volumeHandle [0x44])], some 1⟩
    ∧ ¬ ∀ a f n fw r, getBlkIOHandles a f true (some n) fw = some r →
        r.status = efiSuccess → Selected a f n fw r := by
  refine ⟨rfl, fun hall => ?_⟩
  have hsel := hall blkIoSelSelectByVolumeName (some volumeFilter) 1
    twoVolumes _ rfl rfl
  have hlabel := congrArg (List.map fun i : HandleInfo =>
    i.handle.fileSystem.map Fs.volumeLabel) hsel.stored
  exact absurd hlabel (by decide +kernel)

end Edk2Exynos.BlkIo
