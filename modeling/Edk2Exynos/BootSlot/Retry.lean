/-
Calling `UpdatePartitionAttributes` again after it failed.

# How an update is lost

The function starts by comparing the table with its backup and returns if
they are equal. But the walk of a pass makes them equal before the pass
has written anything. If all changes are in the backup table when a
write, a checksum or the second read of a LUN fails, the next call finds
nothing to do, and that LUN keeps its old backup GPT, or both old ones.

# When exactly

Calls are counted: the buffer of a LUN, then a read and, with something
to store, two checksums and a write for each copy. The update is lost
when the failing call is one of the last LUN that has a changed entry,
after the first read of its two GPTs, and every change is one the walks
record (`LostUpdate`). At every other point the second call makes up for
the first, or the first had stored everything.

# The argument

`Reached` is the state at the start of a LUN as long as no call failed,
`Stopped` that after the failure; `updateLun_faulty` takes a LUN from one
to the other, `updateLuns_faulty` the loop. Where a change is not
recorded, the second call walks every LUN and no count is needed.
-/
import Edk2Exynos.BootSlot.Faults

namespace Edk2Exynos.BootSlot

open Lib

-- ======================================================= counting the calls

/-- The same machine with other outcomes of its calls. -/
def Env.withIo (env : Env) (io : Nat → EfiStatus) : Env :=
  { env with io := io }

instance (env : Env) (d : Nat) : Decidable (HasRoot env d) := by
  unfold HasRoot
  cases env.rootDeviceType with
  | emmc => exact inferInstanceAs (Decidable (d = 0))
  | ufs => exact inferInstanceAs (Decidable (_ ≠ _))
  | unknown => exact inferInstanceAs (Decidable False)

/-- The LUN has a changed entry. -/
def ChangedOn (s : St) (d : Nat) : Prop :=
  ∃ r ∈ s.ptnEntries.zip s.ptnEntriesBak, r.1.lun = d ∧ r.1 ≠ r.2

instance (s : St) (d : Nat) : Decidable (ChangedOn s d) :=
  inferInstanceAs (Decidable (∃ r ∈ _, _))

/-- The calls of a pass: the read, and with something to store two
checksums and the write. -/
def passCalls (s : St) (d : Nat) : Nat := if ChangedOn s d then 4 else 1

/-- The calls of a LUN: the buffer and two passes. -/
def lunCalls (env : Env) (s : St) (d : Nat) : Nat :=
  if HasRoot env d then 1 + 2 * passCalls s d else 0

/-- The number of calls before those of a LUN. -/
def firstCall (env : Env) (s : St) (d : Nat) : Nat :=
  ((List.range d).map (lunCalls env s)).sum

/-- Every change is of an entry the walks handle, in fields they store,
and the `k`-th call is one of the last LUN that has a change, after its
buffer and its first read. -/
def LostUpdate (env : Env) (u : UpdateType) (s : St) (k : Nat) : Prop :=
  ∃ d, HasRoot env d ∧ ChangedOn s d
    ∧ (∀ r ∈ s.ptnEntries.zip s.ptnEntriesBak, r.1 ≠ r.2 →
      r.1.lun ≤ d ∧ HasRoot env r.1.lun ∧ r.1.handled
        ∧ OnlySelected u r.2 r.1)
    ∧ firstCall env s d + 2 ≤ k ∧ k < firstCall env s (d + 1)

section Count

variable {env : Env} {s : St} {d : Nat}

/-- The calls of a LUN come before those of the next. -/
theorem firstCall_succ (env : Env) (s : St) (d : Nat) :
    firstCall env s (d + 1) = firstCall env s d + lunCalls env s d := by
  unfold firstCall
  rw [List.range_succ, List.map_append, List.sum_append, List.map_singleton,
    List.sum_singleton]

/-- A later LUN begins later. -/
theorem firstCall_mono {d' : Nat} (h : d ≤ d') :
    firstCall env s d ≤ firstCall env s d' := by
  induction h with
  | refl => exact Nat.le_refl _
  | step _ ih =>
      rw [firstCall_succ]
      omega

/-- The calls of a LUN with a root device. -/
theorem lunCalls_root (h : HasRoot env d) :
    lunCalls env s d = 1 + 2 * passCalls s d := if_pos h

/-- A LUN without a changed entry is the same in both tables. -/
theorem sameOn_of_not_changedOn (h : ¬ ChangedOn s d) :
    SameOn d s.ptnEntries s.ptnEntriesBak := by
  intro r hr hlun
  by_contra hne
  exact h ⟨r, hr, hlun, hne⟩

/-- A LUN with a changed entry is not. -/
theorem not_sameOn_of_changedOn (h : ChangedOn s d) :
    ¬ SameOn d s.ptnEntries s.ptnEntriesBak := by
  obtain ⟨r, hr, hlun, hne⟩ := h
  exact fun hsame => hne (hsame r hr hlun)

end Count

-- =================================================== the recorded table

section Recorded

variable {ps bs : List PartitionEntry}

/-- A LUN without changes adds nothing. -/
theorem recordedTo_succ {d : Nat} (h : SameOn d ps bs) :
    recordedTo (d + 1) ps bs = recordedTo d ps bs := by
  induction ps generalizing bs with
  | nil => rfl
  | cons p ps ih =>
      cases bs with
      | nil => rfl
      | cons b bs =>
          obtain ⟨hp, hps⟩ := sameOn_cons.mp h
          rw [recordedTo_cons, recordedTo_cons, ih hps]
          congr 1
          by_cases hd : p.lun = d
          · rw [hp hd, ite_self, ite_self]
          · have hiff : p.lun < d + 1 ↔ p.lun < d := by omega
            simp only [hiff]

/-- The backup table is the table when no later LUN has a change. -/
theorem recordedTo_eq_iff {d : Nat} (hlen : ps.length = bs.length) :
    recordedTo d ps bs = ps ↔ ∀ r ∈ ps.zip bs, r.1 ≠ r.2 → r.1.lun < d := by
  induction ps generalizing bs with
  | nil => simp [recordedTo]
  | cons p ps ih =>
      cases bs with
      | nil => cases hlen
      | cons b bs =>
          rw [List.length_cons, List.length_cons] at hlen
          rw [recordedTo_cons, List.zip_cons_cons, List.forall_mem_cons,
            List.cons.injEq, ih (by omega)]
          refine and_congr_left fun _ => ?_
          by_cases hd : p.lun < d
          · simp [hd]
          · rw [if_neg hd]
            simp [hd, eq_comm]

/-- Before the first LUN nothing is recorded. -/
theorem recordedTo_zero (hlen : ps.length = bs.length) :
    recordedTo 0 ps bs = bs := by
  induction ps generalizing bs with
  | nil => exact (List.eq_nil_of_length_eq_zero hlen.symm).symm
  | cons p ps ih =>
      cases bs with
      | nil => cases hlen
      | cons b bs =>
          rw [List.length_cons, List.length_cons] at hlen
          rw [recordedTo_cons, ih (by omega), if_neg (Nat.not_lt_zero _)]

end Recorded

-- ========================================================= a failing run

/-- A run whose `k`-th call is the first to fail, of a table whose
changes the walks record. -/
structure FailingRun (env : Env) (u : UpdateType) (s : St)
    (io : Nat → EfiStatus) (k : Nat) : Prop where
  table : ChangedTable env s
  gapFree : ∀ d, HasRoot env d → GapFree (lunSlots env s d .primary)
  rows : List.Forall₂ (Recordable u) s.ptnEntriesBak s.ptnEntries
  rooted : ∀ d, ChangedOn s d → HasRoot env d
  before : ∀ n, n < k → io (s.ioTick + n) = efiSuccess
  fault : efiError (io (s.ioTick + k)) = true

/-- The array of a LUN after a fault-free call. -/
def walkedSlots (env : Env) (u : UpdateType) (s : St) (d : Nat) :
    List EfiPartitionEntry :=
  walkSlots u (selected (env.rootDeviceType == .ufs) d s.ptnEntries)
    (lunSlots env s d .primary)

/-- The start of a LUN, no call failed so far. -/
structure Reached (env : Env) (u : UpdateType) (s : St) (d : Nat) (t : St) :
    Prop where
  frame : IoFrame s t
  bak : t.ptnEntriesBak = recordedTo d s.ptnEntries s.ptnEntriesBak
  tick : t.ioTick = s.ioTick + firstCall env s d
  walked : ∀ e, e < d → HasRoot env e → ∀ c,
    lunSlots env t e c = walkedSlots env u s e
  rest : ∀ e, d ≤ e → t.disk e = s.disk e
  valid : AllValid env t

/-- Between the two passes of a LUN, no call failed so far. -/
structure Halfway (env : Env) (u : UpdateType) (s : St) (d : Nat) (t : St) :
    Prop where
  frame : IoFrame s t
  bak : t.ptnEntriesBak = recordedTo (d + 1) s.ptnEntries s.ptnEntriesBak
  tick : t.ioTick = s.ioTick + (firstCall env s d + 1 + passCalls s d)
  walked : ∀ e, e < d → HasRoot env e → ∀ c,
    lunSlots env t e c = walkedSlots env u s e
  primary : lunSlots env t d .primary = walkedSlots env u s d
  backup : lunSlots env t d .backup = lunSlots env s d .primary
  rest : ∀ e, d < e → t.disk e = s.disk e
  valid : AllValid env t

/-- The `k`-th call failed, one of this LUN. -/
structure Stopped (env : Env) (u : UpdateType) (s : St) (d k : Nat)
    (t : St) : Prop where
  bak : t.ptnEntriesBak = recordedTo
    (if k < firstCall env s d + 2 then d else d + 1) s.ptnEntries
    s.ptnEntriesBak
  walked : ∀ e, e < d → HasRoot env e → ∀ c,
    lunSlots env t e c = walkedSlots env u s e
  backup : lunSlots env t d .backup = lunSlots env s d .backup

/-- An error is no success. -/
theorem ne_efiSuccess_of_efiError {st : EfiStatus}
    (h : efiError st = true) : st ≠ efiSuccess := by
  intro hcon
  rw [hcon] at h
  exact not_efiError_efiSuccess h

namespace FailingRun

variable {env : Env} {u : UpdateType} {s : St} {io : Nat → EfiStatus}
  {k : Nat}

/-- The table has no more entries than it has room for. -/
theorem length_le (h : FailingRun env u s io k) :
    s.ptnEntries.length ≤ maxNumPartitions := by
  rw [h.table.length_eq]
  exact h.table.bakLength_le

/-- Recording keeps the number of entries. -/
theorem recordedTo_length (h : FailingRun env u s io k) (d : Nat) :
    (recordedTo d s.ptnEntries s.ptnEntriesBak).length
      = s.ptnEntries.length := by
  unfold recordedTo
  rw [List.length_zipWith, h.table.length_eq, Nat.min_self]

/-- The walk of a pass over the array as it was read. -/
theorem passWalk_records (h : FailingRun env u s io k) {d r : Nat}
    (hr : r = d ∨ r = d + 1) {c : GptCopy} {t : St}
    (hptn : t.ptnEntries = s.ptnEntries)
    (hbak : t.ptnEntriesBak = recordedTo r s.ptnEntries s.ptnEntriesBak)
    (hroot : HasRoot env d)
    (hslots : lunSlots env t d c = lunSlots env s d .primary) :
    (passWalk (env.withIo io) d u c t).2
        = recordedTo (d + 1) s.ptnEntries s.ptnEntriesBak
      ∧ ((passWalk (env.withIo io) d u c t).1.skipUpdation = true
        ↔ SameOn d s.ptnEntries s.ptnEntriesBak) := by
  have hm := (h.table.device.allValid.copy hroot c).1
  have hmeet := h.table.pairs_meet hroot (h.gapFree d hroot) h.rows
  have hload := gptEntries_loadBlocks hm c (t.disk d)
  have hone : (env.rootDeviceType == .ufs) = false →
      ∀ p ∈ s.ptnEntries, p.lun = d := by
    intro htype p hp
    have hlt := h.table.lun_lt hp
    have hd := h.table.lookup.inRange d hroot
    cases ht : env.rootDeviceType with
    | ufs =>
        rw [ht] at htype
        cases htype
    | unknown => exact absurd ht hroot.known
    | emmc =>
        obtain ⟨hluns, -⟩ := h.table.lookup.emmc ht
        omega
  let w : Walk :=
    { ptr := ptnEntriesOff (env.media d) c
      buf := loadBlocks (t.disk d) (gptAddr (env.media d) c)
        (maxGptPartEntrySzBytes (env.media d)).toNat
      skipUpdation := true }
  have hpass : passWalk (env.withIo io) d u c t
      = walkEntries (env.rootDeviceType == .ufs) d u s.ptnEntries
        (recordedTo r s.ptnEntries s.ptnEntriesBak) w := by
    unfold passWalk
    rw [hptn, hbak]
    rfl
  have hptr : w.ptr
      = ptnEntriesOff (env.media d) c + partitionEntrySize * 0 := rfl
  have hmeet' : (pairsOn d s.ptnEntries s.ptnEntriesBak).map
      (fun r => r.2.partEntry)
      <+: (gptEntries w.buf (ptnEntriesOff (env.media d) c)).drop 0 := by
    rw [List.drop_zero, hload]
    rw [← hslots] at hmeet
    exact hmeet
  have hlen := h.length_le
  obtain ⟨htab, hskip⟩ := walkEntries_records hr h.rows h.table.sorted hone
    hptr (by omega) hmeet'
  rw [hpass]
  exact ⟨htab, hskip.trans (by simp [w])⟩

/-- Every call before the `k`-th succeeds. -/
theorem io_before (h : FailingRun env u s io k) {t : St} {n m : Nat}
    (htick : t.ioTick = s.ioTick + n) (hm : n + m < k) :
    io (t.ioTick + m) = efiSuccess := by
  rw [htick, Nat.add_assoc]
  exact h.before (n + m) hm

/-- The `k`-th call fails. -/
theorem io_fault (h : FailingRun env u s io k) {t : St} {n m : Nat}
    (htick : t.ioTick = s.ioTick + n) (hm : n + m = k) :
    efiError (io (t.ioTick + m)) = true := by
  rw [htick, Nat.add_assoc, hm]
  exact h.fault

/-- The tail of a pass whose first call is the `n`-th: its three calls
succeed, or it stops at the `k`-th and has written nothing. -/
theorem storeGpt_faulty (h : FailingRun env u s io k) {d n : Nat}
    {c : GptCopy} {buf : Mem} {t : St} (hm : StdMedia (env.media d))
    (hv : GptValid (env.media d) c (t.disk d))
    (hagree : AgreeOutside (EntryField (ptnEntriesOff (env.media d) c))
      (loadBlocks (t.disk d) (gptAddr (env.media d) c)
        (maxGptPartEntrySzBytes (env.media d)).toNat) buf)
    (htick : t.ioTick = s.ioTick + n) (hn : n ≤ k) :
    (n + 3 ≤ k →
      (storeGpt (env.withIo io) d c buf t).1 = true
        ∧ (storeGpt (env.withIo io) d c buf t).2.ioTick
          = s.ioTick + (n + 3))
    ∧ (k < n + 3 →
      (storeGpt (env.withIo io) d c buf t).1 = false
        ∧ (storeGpt (env.withIo io) d c buf t).2.disk = t.disk) := by
  have hm' : StdMedia ((env.withIo io).media d) := hm
  have hio : ∀ m, (env.withIo io).io m = io m := fun _ => rfl
  have hsucc : ¬ efiSuccess ≠ efiSuccess := fun hne => hne rfl
  have hread : k ≠ n → io t.ioTick = efiSuccess := fun hne =>
    h.io_before (m := 0) htick (by omega)
  rw [storeGpt_calls hm' hv hagree]
  simp only [hio]
  by_cases hk0 : k = n
  · have herr : efiError (io t.ioTick) = true :=
      h.io_fault (m := 0) htick hk0.symm
    rw [if_pos (ne_efiSuccess_of_efiError herr)]
    exact ⟨fun hle => absurd hle (by omega), fun _ => ⟨rfl, rfl⟩⟩
  rw [hread hk0, if_neg hsucc]
  by_cases hk1 : k = n + 1
  · rw [if_pos (ne_efiSuccess_of_efiError (h.io_fault htick hk1.symm))]
    exact ⟨fun hle => absurd hle (by omega), fun _ => ⟨rfl, rfl⟩⟩
  rw [h.io_before (m := 1) htick (by omega), if_neg hsucc]
  by_cases hk2 : k = n + 2
  · rw [if_pos (h.io_fault htick hk2.symm)]
    exact ⟨fun hle => absurd hle (by omega), fun _ => ⟨rfl, rfl⟩⟩
  rw [h.io_before (m := 2) htick (by omega),
    if_neg not_efiError_efiSuccess]
  refine ⟨fun _ => ⟨rfl, ?_⟩, fun hlt => absurd hlt (by omega)⟩
  show t.ioTick + 3 = _
  omega

/-- A pass whose first call is the `n`-th: all its calls succeed, or it
stops at the `k`-th and has written nothing. -/
theorem updateCopy_faulty (h : FailingRun env u s io k) {d r n : Nat}
    (hr : r = d ∨ r = d + 1) {c : GptCopy} {t : St}
    (hptn : t.ptnEntries = s.ptnEntries)
    (hbak : t.ptnEntriesBak = recordedTo r s.ptnEntries s.ptnEntriesBak)
    (hv : AllValid env t) (hroot : HasRoot env d)
    (hslots : lunSlots env t d c = lunSlots env s d .primary)
    (htick : t.ioTick = s.ioTick + n) (hn : n ≤ k) :
    (n + passCalls s d ≤ k →
      (updateCopy (env.withIo io) d u c t).1 = true
        ∧ (updateCopy (env.withIo io) d u c t).2.ioTick
          = s.ioTick + (n + passCalls s d)
        ∧ (updateCopy (env.withIo io) d u c t).2.ptnEntriesBak
          = recordedTo (d + 1) s.ptnEntries s.ptnEntriesBak)
    ∧ (k < n + passCalls s d →
      (updateCopy (env.withIo io) d u c t).1 = false
        ∧ (updateCopy (env.withIo io) d u c t).2.disk = t.disk
        ∧ (updateCopy (env.withIo io) d u c t).2.ptnEntriesBak
          = recordedTo (if k = n then r else d + 1) s.ptnEntries
            s.ptnEntriesBak) := by
  obtain ⟨hm, hvc⟩ := hv.copy hroot c
  obtain ⟨htab, hskip⟩ := h.passWalk_records hr hptn hbak hroot hslots
  have hlen : t.ptnEntries.length ≤ maxNumPartitions := by
    rw [hptn]
    exact h.length_le
  have hbakLen : t.ptnEntries.length ≤ t.ptnEntriesBak.length := by
    rw [hptn, hbak, h.recordedTo_length]
  have hm' : StdMedia ((env.withIo io).media d) := hm
  obtain ⟨-, hagree, -, -⟩ := passWalk_pass (u := u) (c := c) (s := t)
    hlen hbakLen hm'
  rw [updateCopy_calls]
  by_cases hkn : k = n
  · have herr : efiError ((env.withIo io).io t.ioTick) = true :=
      h.io_fault (m := 0) htick hkn.symm
    have hpos : 1 ≤ passCalls s d := by
      unfold passCalls
      split <;> omega
    rw [if_pos herr, if_pos hkn]
    exact ⟨fun hle => absurd hle (by omega), fun _ => ⟨rfl, rfl, hbak⟩⟩
  have hread : (env.withIo io).io t.ioTick = efiSuccess :=
    h.io_before (m := 0) htick (by omega)
  rw [hread, if_neg not_efiError_efiSuccess, if_neg hkn]
  by_cases hchg : ChangedOn s d
  · have hcalls : passCalls s d = 4 := if_pos hchg
    have hstore : ¬ (passWalk (env.withIo io) d u c t).1.skipUpdation
        = true :=
      fun hsk => not_sameOn_of_changedOn hchg (hskip.mp hsk)
    have htick' : (afterWalk (env.withIo io) d u c t).ioTick
        = s.ioTick + (n + 1) := by
      show t.ioTick + 1 = _
      omega
    obtain ⟨hgo, hstop⟩ := h.storeGpt_faulty
      (t := afterWalk (env.withIo io) d u c t) hm hvc hagree htick'
      (by omega)
    have hkeep := storeGpt_bak (env.withIo io) d c
      (passWalk (env.withIo io) d u c t).1.buf
      (afterWalk (env.withIo io) d u c t)
    rw [if_neg hstore, hcalls, hkeep]
    refine ⟨fun hle => ?_, fun hlt => ?_⟩
    · obtain ⟨hok, hticks⟩ := hgo (by omega)
      exact ⟨hok, hticks.trans (by omega), htab⟩
    · obtain ⟨hok, hdisk⟩ := hstop (by omega)
      exact ⟨hok, hdisk, htab⟩
  · have hcalls : passCalls s d = 1 := if_neg hchg
    have hsk := hskip.mpr (sameOn_of_not_changedOn hchg)
    rw [if_pos hsk, hcalls]
    refine ⟨fun _ => ⟨rfl, ?_, htab⟩, fun hlt => absurd hlt (by omega)⟩
    show t.ioTick + 1 = _
    omega

/-- What a pass that did its work left, in terms of slots. -/
theorem copyRun_withIo {d : Nat} {c : GptCopy} {t t' : St}
    (h : CopyRun (env.withIo io) u d c t t')
    (hptn : t.ptnEntries = s.ptnEntries)
    (hslots : lunSlots env t d c = lunSlots env s d .primary) :
    lunSlots env t' d c = walkedSlots env u s d
      ∧ (∀ c', c' ≠ c → lunSlots env t' d c' = lunSlots env t d c')
      ∧ ∀ e, e ≠ d → t'.disk e = t.disk e := by
  have hwalk : lunSlots env t' d c
      = walkSlots u (selected (env.rootDeviceType == .ufs) d t.ptnEntries)
        (lunSlots env t d c) := h.walked
  rw [hptn, hslots] at hwalk
  exact ⟨hwalk, h.otherCopy, h.otherLun⟩

/-- A pass of the run, whatever comes of it. -/
theorem updateCopy_effect (h : FailingRun env u s io k) {d : Nat}
    {c : GptCopy} {t : St} (hptn : t.ptnEntries = s.ptnEntries)
    (hbak : s.ptnEntries.length ≤ t.ptnEntriesBak.length)
    (hv : AllValid env t) (hroot : HasRoot env d) :
    IoFrame t (updateCopy (env.withIo io) d u c t).2
      ∧ AllValid env (updateCopy (env.withIo io) d u c t).2
      ∧ ((updateCopy (env.withIo io) d u c t).1 = true →
        CopyRun (env.withIo io) u d c t
          (updateCopy (env.withIo io) d u c t).2) := by
  have hlen : t.ptnEntries.length ≤ maxNumPartitions := by
    rw [hptn]
    exact h.length_le
  have hbak' : t.ptnEntries.length ≤ t.ptnEntriesBak.length := by
    rw [hptn]
    exact hbak
  have hv' : AllValid (env.withIo io) t := hv
  have hroot' : HasRoot (env.withIo io) d := hroot
  have hp := updateCopy_pushed (u := u) (c := c) hlen hbak' hv' hroot'
  refine ⟨hp.frame, hp.valid, fun hdone => ?_⟩
  rcases updateCopy_result (u := u) (c := c) hlen hbak' hv' hroot' with
    ⟨-, hrun⟩ | ⟨hend, -⟩
  · exact hrun
  · rw [hend] at hdone
    cases hdone

/-- A LUN that has not been reached has its slots as they were. -/
theorem slots_of_reached (h : FailingRun env u s io k) {d : Nat} {t : St}
    (hroot : HasRoot env d) (ht : Reached env u s d t) (c : GptCopy) :
    lunSlots env t d c = lunSlots env s d .primary := by
  exact (lunSlots_congr (ht.rest d (Nat.le_refl d)) c).trans
    (h.table.copies d hroot c)

/-- The primary pass, after the buffer was allocated. -/
theorem primary_faulty (h : FailingRun env u s io k) {d : Nat} {t : St}
    (hroot : HasRoot env d) (ht : Reached env u s d t)
    (hk : firstCall env s d + 1 ≤ k) :
    (firstCall env s d + 1 + passCalls s d ≤ k →
      (updateCopy (env.withIo io) d u .primary
          (nextIo (env.withIo io) t).2).1 = true
        ∧ Halfway env u s d (updateCopy (env.withIo io) d u .primary
          (nextIo (env.withIo io) t).2).2)
    ∧ (k < firstCall env s d + 1 + passCalls s d →
      (updateCopy (env.withIo io) d u .primary
          (nextIo (env.withIo io) t).2).1 = false
        ∧ Stopped env u s d k (updateCopy (env.withIo io) d u .primary
          (nextIo (env.withIo io) t).2).2) := by
  have hslots := h.slots_of_reached hroot ht
  have hptn := ht.frame.ptnEntries
  have hbakLen : s.ptnEntries.length ≤ t.ptnEntriesBak.length := by
    rw [ht.bak, h.recordedTo_length]
  obtain ⟨hfr, hvalid, hrun⟩ := h.updateCopy_effect (c := .primary)
    (t := (nextIo (env.withIo io) t).2) hptn hbakLen ht.valid hroot
  have htick : (nextIo (env.withIo io) t).2.ioTick
      = s.ioTick + (firstCall env s d + 1) := by
    show t.ioTick + 1 = _
    rw [ht.tick]
    omega
  obtain ⟨hgo, hstop⟩ := h.updateCopy_faulty (Or.inl rfl) (c := .primary)
    (t := (nextIo (env.withIo io) t).2) hptn ht.bak ht.valid hroot
    (hslots .primary) htick hk
  generalize updateCopy (env.withIo io) d u .primary
    (nextIo (env.withIo io) t).2 = r at *
  obtain ⟨ok, t'⟩ := r
  dsimp only at hfr hvalid hrun hgo hstop ⊢
  have hfr' : IoFrame s t' := by
    have hmid : IoFrame t (nextIo (env.withIo io) t).2 :=
      ⟨rfl, rfl, rfl, rfl, rfl, rfl⟩
    exact (ht.frame.trans hmid).trans hfr
  refine ⟨fun hle => ?_, fun hlt => ?_⟩
  · obtain ⟨hok, htick', hbak'⟩ := hgo hle
    obtain ⟨hwalk, hcopy, hlun⟩ :=
      copyRun_withIo (hrun hok) hptn (hslots .primary)
    refine ⟨hok, hfr', hbak', htick', ?_, hwalk, ?_, ?_, hvalid⟩
    · intro e he hre c
      have hmid : lunSlots env t' e c = lunSlots env t e c :=
        lunSlots_congr (hlun e (Nat.ne_of_lt he)) c
      exact hmid.trans (ht.walked e he hre c)
    · exact (hcopy .backup (by decide)).trans (hslots .backup)
    · intro e he
      rw [hlun e (Nat.ne_of_gt he)]
      exact ht.rest e (Nat.le_of_lt he)
  · obtain ⟨hok, hdisk, hbak'⟩ := hstop hlt
    have hsame : t'.disk = t.disk := hdisk
    refine ⟨hok, ?_, ?_, ?_⟩
    · rw [hbak']
      congr 1
      by_cases hkn : k = firstCall env s d + 1
      · rw [if_pos hkn, if_pos (by omega)]
      · rw [if_neg hkn, if_neg (by omega)]
    · intro e he hre c
      exact (lunSlots_congr (congrFun hsame e) c).trans
        (ht.walked e he hre c)
    · exact (lunSlots_congr (congrFun hsame d) .backup).trans
        ((hslots .backup).trans (h.table.copies d hroot .backup).symm)

/-- The backup pass. -/
theorem backup_faulty (h : FailingRun env u s io k) {d : Nat} {t : St}
    (hroot : HasRoot env d) (ht : Halfway env u s d t)
    (hk : firstCall env s d + 1 + passCalls s d ≤ k) :
    (firstCall env s (d + 1) ≤ k →
      (updateCopy (env.withIo io) d u .backup t).1 = true
        ∧ Reached env u s (d + 1)
          (updateCopy (env.withIo io) d u .backup t).2)
    ∧ (k < firstCall env s (d + 1) →
      (updateCopy (env.withIo io) d u .backup t).1 = false
        ∧ Stopped env u s d k
          (updateCopy (env.withIo io) d u .backup t).2) := by
  have hptn := ht.frame.ptnEntries
  have hbakLen : s.ptnEntries.length ≤ t.ptnEntriesBak.length := by
    rw [ht.bak, h.recordedTo_length]
  have hcalls : firstCall env s (d + 1)
      = firstCall env s d + 1 + passCalls s d + passCalls s d := by
    rw [firstCall_succ, lunCalls_root hroot]
    omega
  have hpos : 1 ≤ passCalls s d := by
    unfold passCalls
    split <;> omega
  obtain ⟨hfr, hvalid, hrun⟩ := h.updateCopy_effect (c := .backup) hptn
    hbakLen ht.valid hroot
  obtain ⟨hgo, hstop⟩ := h.updateCopy_faulty (Or.inr rfl) (c := .backup)
    hptn ht.bak ht.valid hroot ht.backup ht.tick hk
  rw [hcalls]
  generalize updateCopy (env.withIo io) d u .backup t = r at *
  obtain ⟨ok, t'⟩ := r
  dsimp only at hfr hvalid hrun hgo hstop ⊢
  refine ⟨fun hle => ?_, fun hlt => ?_⟩
  · obtain ⟨hok, htick', hbak'⟩ := hgo hle
    obtain ⟨hwalk, hcopy, hlun⟩ :=
      copyRun_withIo (hrun hok) hptn ht.backup
    refine ⟨hok, ht.frame.trans hfr, hbak', ?_, ?_, ?_, hvalid⟩
    · rw [htick', hcalls]
    · intro e he hre c
      by_cases hed : e = d
      · subst hed
        cases c with
        | primary =>
            exact (hcopy .primary (by decide)).trans ht.primary
        | backup => exact hwalk
      · exact (lunSlots_congr (hlun e hed) c).trans
          (ht.walked e (by omega) hre c)
    · intro e he
      rw [hlun e (by omega)]
      exact ht.rest e (by omega)
  · obtain ⟨hok, hdisk, hbak'⟩ := hstop hlt
    refine ⟨hok, ?_, ?_, ?_⟩
    · rw [hbak', ite_self, if_neg (by omega)]
    · intro e he hre c
      exact (lunSlots_congr (congrFun hdisk e) c).trans
        (ht.walked e he hre c)
    · exact (lunSlots_congr (congrFun hdisk d) .backup).trans
        (ht.backup.trans (h.table.copies d hroot .backup).symm)

/-- A LUN: on to the next, or stopped in this one. -/
theorem updateLun_faulty (h : FailingRun env u s io k) {d : Nat} {t : St}
    (hroot : HasRoot env d) (ht : Reached env u s d t)
    (hk : firstCall env s d ≤ k) :
    (firstCall env s (d + 1) ≤ k →
      (updateLun (env.withIo io) d u t).1 = true
        ∧ Reached env u s (d + 1) (updateLun (env.withIo io) d u t).2)
    ∧ (k < firstCall env s (d + 1) →
      (updateLun (env.withIo io) d u t).1 = false
        ∧ Stopped env u s d k (updateLun (env.withIo io) d u t).2) := by
  have hm := (ht.valid.copy hroot .primary).1
  have hsize : ¬ getPartitionSize ((env.withIo io).media d) = 0 :=
    hm.getPartitionSize_ne_zero
  have hcalls : firstCall env s (d + 1)
      = firstCall env s d + 1 + passCalls s d + passCalls s d := by
    rw [firstCall_succ, lunCalls_root hroot]
    omega
  have hstatus : (nextIo (env.withIo io) t).1 = io t.ioTick := rfl
  unfold updateLun
  rw [if_neg hsize]
  dsimp only
  rw [hstatus]
  by_cases hkd : k = firstCall env s d
  · -- no buffer
    have hfail := ne_efiSuccess_of_efiError
      (h.io_fault (m := 0) ht.tick hkd.symm)
    rw [Nat.add_zero] at hfail
    rw [if_pos hfail]
    refine ⟨fun hle => absurd hle (by omega), fun _ => ⟨rfl, ?_, ?_, ?_⟩⟩
    · rw [if_pos (by omega)]
      exact ht.bak
    · exact ht.walked
    · exact (h.slots_of_reached hroot ht .backup).trans
        (h.table.copies d hroot .backup).symm
  have hgot := h.io_before (m := 0) ht.tick
    (show firstCall env s d + 0 < k by omega)
  rw [Nat.add_zero] at hgot
  rw [hgot, if_neg fun hne => hne rfl]
  obtain ⟨hgo, hstop⟩ := h.primary_faulty hroot ht (by omega)
  generalize updateCopy (env.withIo io) d u .primary
    (nextIo (env.withIo io) t).2 = r at *
  obtain ⟨ok, t'⟩ := r
  dsimp only at hgo hstop
  by_cases hle : firstCall env s d + 1 + passCalls s d ≤ k
  · obtain ⟨rfl, ht'⟩ := hgo hle
    exact h.backup_faulty hroot ht' hle
  · obtain ⟨rfl, ht'⟩ := hstop (by omega)
    exact ⟨fun hcon => absurd hcon (by omega), fun _ => ⟨rfl, ht'⟩⟩

/-- The first LUN is reached with nothing done. -/
theorem reached_start (h : FailingRun env u s io k) :
    Reached env u s 0 s where
  frame := IoFrame.refl s
  bak := (recordedTo_zero h.table.length_eq).symm
  tick := rfl
  walked := fun _ he => absurd he (Nat.not_lt_zero _)
  rest := fun _ _ => rfl
  valid := h.table.device.allValid

/-- The loop over the LUNs: to its end, or stopped in one of them. -/
theorem updateLuns_faulty (h : FailingRun env u s io k)
    (htype : env.rootDeviceType ≠ .unknown) :
    ∀ (n lun maxHandles : Nat) (t : St), lun + n = s.maxLuns →
    Reached env u s lun t → firstCall env s lun ≤ k →
    (firstCall env s s.maxLuns ≤ k ∧ Reached env u s s.maxLuns
        (updateLuns (env.withIo io) u n lun maxHandles t))
    ∨ ∃ d, HasRoot env d ∧ firstCall env s d ≤ k
      ∧ k < firstCall env s (d + 1)
      ∧ Stopped env u s d k
        (updateLuns (env.withIo io) u n lun maxHandles t) := by
  have hl := h.table.lookup
  have hlook : RootLookup (env.withIo io) s.maxLuns :=
    ⟨hl.emmc, hl.ufs, hl.inRange⟩
  intro n
  induction n with
  | zero =>
      intro lun mh t hn ht hk
      have hend : lun = s.maxLuns := hn
      subst hend
      exact Or.inl ⟨hk, ht⟩
  | succ n ih =>
      intro lun mh t hn ht hk
      rcases updateLuns_step hlook htype (show lun < s.maxLuns by omega) u n
        mh t with ⟨hroot, heq⟩ | ⟨hroot, heq⟩
      · -- no root device, and so no change to record
        have hroot' : ¬ HasRoot env lun := hroot
        have hsame : SameOn lun s.ptnEntries s.ptnEntriesBak :=
          sameOn_of_not_changedOn fun hchg => hroot' (h.rooted lun hchg)
        have hcalls : firstCall env s (lun + 1) = firstCall env s lun := by
          rw [firstCall_succ, show lunCalls env s lun = 0 from if_neg hroot',
            Nat.add_zero]
        have ht' : Reached env u s (lun + 1) t :=
          { frame := ht.frame
            bak := by rw [ht.bak, recordedTo_succ hsame]
            tick := by rw [ht.tick, hcalls]
            walked := by
              intro e he hre
              have hne : e ≠ lun := fun hcon => hroot' (hcon ▸ hre)
              exact ht.walked e (by omega) hre
            rest := fun e he => ht.rest e (by omega)
            valid := ht.valid }
        rw [heq]
        exact ih (lun + 1) 0 t (by omega) ht' (by omega)
      · have hroot' : HasRoot env lun := hroot
        obtain ⟨hgo, hstop⟩ := h.updateLun_faulty hroot' ht hk
        rw [heq]
        generalize updateLun (env.withIo io) lun u t = r at *
        obtain ⟨ok, t'⟩ := r
        dsimp only at hgo hstop
        by_cases hle : firstCall env s (lun + 1) ≤ k
        · obtain ⟨rfl, ht'⟩ := hgo hle
          exact ih (lun + 1) 1 t' (by omega) ht' hle
        · obtain ⟨rfl, ht'⟩ := hstop (by omega)
          exact Or.inr ⟨lun, hroot', hk, by omega, ht'⟩

/-- How the first call ends. -/
theorem ends (h : FailingRun env u s io k)
    (htype : env.rootDeviceType ≠ .unknown)
    (hchg : isUpdatePartitionAttributes s = true) :
    (firstCall env s s.maxLuns ≤ k ∧ Reached env u s s.maxLuns
        (updatePartitionAttributes (env.withIo io) u s))
    ∨ ∃ d, HasRoot env d ∧ firstCall env s d ≤ k
      ∧ k < firstCall env s (d + 1)
      ∧ Stopped env u s d k
        (updatePartitionAttributes (env.withIo io) u s) := by
  unfold updatePartitionAttributes
  rw [if_pos hchg]
  exact h.updateLuns_faulty htype s.maxLuns 0 _ s (Nat.zero_add _)
    h.reached_start (Nat.zero_le k)

-- ============================================ what a fault-free call stores

/-- The array of a LUN and what a fault-free call makes of it. -/
theorem slots_split (h : FailingRun env u s io k) {d : Nat}
    (hroot : HasRoot env d) :
    ∃ rest, lunSlots env s d .primary
        = (pairsOn d s.ptnEntries s.ptnEntriesBak).map
          (fun r => r.2.partEntry) ++ rest
      ∧ walkedSlots env u s d
        = (pairsOn d s.ptnEntries s.ptnEntriesBak).map
          (fun r => r.1.partEntry) ++ rest := by
  obtain ⟨rest, hrest⟩ :=
    h.table.pairs_meet hroot (h.gapFree d hroot) h.rows
  refine ⟨rest, hrest.symm, ?_⟩
  have hrec : ∀ r ∈ pairsOn d s.ptnEntries s.ptnEntriesBak,
      Recordable u r.2 r.1 := fun r hr =>
    mem_zip_of_forall₂ h.rows r (List.mem_of_mem_filter hr)
  unfold walkedSlots
  rw [h.table.selected_pairs hroot, ← hrest]
  exact walkSlots_pairs hrec

/-- A LUN without changes is left as it was, … -/
theorem walkedSlots_same (h : FailingRun env u s io k) {d : Nat}
    (hroot : HasRoot env d) (hsame : ¬ ChangedOn s d) :
    walkedSlots env u s d = lunSlots env s d .primary := by
  obtain ⟨rest, hslots, hwalk⟩ := h.slots_split hroot
  rw [hslots, hwalk]
  congr 1
  refine List.map_congr_left fun r hr => ?_
  obtain ⟨hmem, hon⟩ := List.mem_filter.mp hr
  simp only [Bool.and_eq_true, onLun, decide_eq_true_eq] at hon
  rw [sameOn_of_not_changedOn hsame r hmem hon.2]

/-- … one with changes is not. -/
theorem walkedSlots_differ (h : FailingRun env u s io k) {d : Nat}
    (hroot : HasRoot env d) (hchg : ChangedOn s d) :
    walkedSlots env u s d ≠ lunSlots env s d .primary := by
  obtain ⟨rest, hslots, hwalk⟩ := h.slots_split hroot
  obtain ⟨r, hmem, hlun, hne⟩ := hchg
  have hrec := mem_zip_of_forall₂ h.rows r hmem
  have hpair : r ∈ pairsOn d s.ptnEntries s.ptnEntriesBak :=
    List.mem_filter.mpr ⟨hmem, by
      simp [onLun, hlun, hrec.handled hne]⟩
  intro heq
  rw [hslots, hwalk] at heq
  have hentry := List.map_inj_left.mp (List.append_cancel_right heq) r hpair
  have hfields := hrec.fields.eq_of_fields
    (congrArg EfiPartitionEntry.partitionTypeGuid hentry)
    (congrArg EfiPartitionEntry.attributes hentry)
  exact hne hfields

-- ========================================================== the second call

/-- If the backup table is the table after the failure, every array is
as after a fault-free call, or the update is lost. -/
theorem walked_of_recorded (h : FailingRun env u s io k)
    (hchg : isUpdatePartitionAttributes s = true)
    (hpush : Pushed env u s (updatePartitionAttributes (env.withIo io) u s))
    (hbak : (updatePartitionAttributes (env.withIo io) u s).ptnEntriesBak
      = s.ptnEntries)
    (hnot : ¬ LostUpdate env u s k) {d : Nat} (hroot : HasRoot env d)
    (c : GptCopy) :
    lunSlots env (updatePartitionAttributes (env.withIo io) u s) d c
      = walkedSlots env u s d := by
  have hslots := hpush.slots d hroot c
  rw [h.table.copies d hroot c] at hslots
  rcases h.ends hroot.known hchg with ⟨-, ht⟩ | ⟨e, hre, -, hke', ht⟩
  · exact ht.walked d (h.table.lookup.inRange d hroot) hroot c
  · have hrec := ht.bak
    rw [hbak] at hrec
    have hlater := (recordedTo_eq_iff h.table.length_eq).mp hrec.symm
    have hquiet : ∀ d', e ≤ d' → ¬ ChangedOn s d' := by
      rintro d' hd' ⟨r, hr, hlun, hne⟩
      have hlt := hlater r hr hne
      split at hlt
      · omega
      next hlate =>
        -- then the failing call is of the last LUN that has a change
        have hde : d' = e := by omega
        subst hde
        refine hnot ⟨d', hre, ⟨r, hr, hlun, hne⟩, fun q hq hqne => ?_,
          by omega, hke'⟩
        have hqlt := hlater q hq hqne
        rw [if_neg hlate] at hqlt
        have hqrec := mem_zip_of_forall₂ h.rows q hq
        exact ⟨by omega, h.rooted _ ⟨q, hq, rfl, hqne⟩,
          hqrec.handled hqne, hqrec.selected⟩
    by_cases hde : d < e
    · exact ht.walked d hde hroot c
    · have hsame := h.walkedSlots_same hroot (hquiet d (by omega))
      rcases hslots with heq | heq
      · exact heq.trans hsame.symm
      · exact heq

/-- A lost update: nothing is left to do for the second call, and the
backup GPT of a changed LUN is the old one. -/
theorem lost (h : FailingRun env u s io k)
    (hchg : isUpdatePartitionAttributes s = true)
    (hlost : LostUpdate env u s k) :
    (updatePartitionAttributes (env.withIo io) u s).ptnEntriesBak
        = s.ptnEntries
      ∧ ∃ d, HasRoot env d
        ∧ lunSlots env (updatePartitionAttributes (env.withIo io) u s) d
          .backup ≠ walkedSlots env u s d := by
  obtain ⟨d, hroot, hon, hrows, hlate, hk⟩ := hlost
  have hd := h.table.lookup.inRange d hroot
  rcases h.ends hroot.known hchg with ⟨hend, -⟩ | ⟨e, hre, hke, hke', ht⟩
  · have hmono : firstCall env s (d + 1) ≤ firstCall env s s.maxLuns :=
      firstCall_mono hd
    omega
  · -- the failing call is of one LUN only
    have hde : e = d := by
      rcases Nat.lt_trichotomy e d with hlt | heq | hgt
      · have hmono : firstCall env s (e + 1) ≤ firstCall env s d :=
          firstCall_mono hlt
        omega
      · exact heq
      · have hmono : firstCall env s (d + 1) ≤ firstCall env s e :=
          firstCall_mono hgt
        omega
    subst hde
    refine ⟨?_, e, hroot, ?_⟩
    · rw [ht.bak, if_neg (by omega)]
      refine (recordedTo_eq_iff h.table.length_eq).mpr fun r hr hne => ?_
      have hle := (hrows r hr hne).1
      omega
    · rw [ht.backup, h.table.copies e hroot .backup]
      exact (h.walkedSlots_differ hroot hon).symm

end FailingRun

-- ============================================================ the theorem

/-- The changes are what the walks record. -/
theorem FailingRun.of_rows {env : Env} {u : UpdateType} {s : St}
    {io : Nat → EfiStatus} {k : Nat} (h : ChangedTable env s)
    (hgap : ∀ d, HasRoot env d → GapFree (lunSlots env s d .primary))
    (hbefore : ∀ n, n < k → io (s.ioTick + n) = efiSuccess)
    (hfault : efiError (io (s.ioTick + k)) = true)
    (hrows : ∀ r ∈ s.ptnEntries.zip s.ptnEntriesBak, r.1 ≠ r.2 →
      HasRoot env r.1.lun ∧ r.1.handled ∧ OnlySelected u r.2 r.1) :
    FailingRun env u s io k where
  table := h
  gapFree := hgap
  rows := by
    have hchanged := h.changed
    generalize s.ptnEntriesBak = bs at hchanged hrows
    generalize s.ptnEntries = ps at hchanged hrows
    induction hchanged with
    | nil => exact List.Forall₂.nil
    | @cons b p bs ps hbp _ ih =>
        rw [List.zip_cons_cons, List.forall_mem_cons] at hrows
        obtain ⟨hfirst, hrest⟩ := hrows
        refine List.Forall₂.cons ⟨hbp, fun hne => (hfirst hne).2.1, ?_⟩
          (ih hrest)
        by_cases hne : p = b
        · rw [hne]
          exact OnlySelected.refl u b
        · exact (hfirst hne).2.2
  rooted := by
    rintro d ⟨r, hr, rfl, hne⟩
    exact (hrows r hr hne).1
  before := hbefore
  fault := hfault

section Retry

variable {env : Env} {u : UpdateType} {s : St} {io : Nat → EfiStatus}
  {k : Nat}

/-- An update of a changed table, whatever comes of its calls. -/
theorem ChangedTable.pushed (h : ChangedTable env s) :
    Pushed env u s (updatePartitionAttributes (env.withIo io) u s) := by
  have hlen := h.length_eq
  have hmax := h.bakLength_le
  have hv : AllValid (env.withIo io) s := h.device.allValid
  have hp := (pushed_rule u).updatePartitionAttributes s (by omega)
    (by omega) hv
  exact ⟨hp.frame, hp.length, hp.valid, hp.slots, hp.rows⟩

/-- Both calls together compare with one by their slots. -/
theorem ChangedTable.sameGpts_iff (h : ChangedTable env s)
    (hchg : isUpdatePartitionAttributes s = true) :
    SameGpts env (updatePartitionAttributes env u s)
        (updatePartitionAttributes env u
          (updatePartitionAttributes (env.withIo io) u s))
      ↔ ∀ d, HasRoot env d → ∀ c,
        lunSlots env (updatePartitionAttributes env u
          (updatePartitionAttributes (env.withIo io) u s)) d c
          = walkedSlots env u s d := by
  have hlen := h.length_eq
  have hmax := h.bakLength_le
  have hle : s.ptnEntries.length ≤ maxNumPartitions := by omega
  have hv := h.device.allValid
  have hpush : Pushed env u s
      (updatePartitionAttributes (env.withIo io) u s) := h.pushed
  have hrun : WriteRun env s (updatePartitionAttributes env u s) :=
    updatePartitionAttributes_run u hle hv
  have hfail : WriteRun env s
      (updatePartitionAttributes (env.withIo io) u s) := by
    have hv' : AllValid (env.withIo io) s := hv
    exact updatePartitionAttributes_run u hle hv'
  have hagain : WriteRun env
      (updatePartitionAttributes (env.withIo io) u s)
      (updatePartitionAttributes env u
        (updatePartitionAttributes (env.withIo io) u s)) :=
    updatePartitionAttributes_run u
      (by rw [hpush.frame.ptnEntries]; exact hle) hpush.valid
  rw [BootSlot.sameGpts_iff hrun (hfail.trans hagain)]
  have hfree : ∀ d, HasRoot env d → ∀ c,
      lunSlots env (updatePartitionAttributes env u s) d c
        = walkedSlots env u s d := by
    intro d hroot c
    have hwalk := updatePartitionAttributes_walks (u := u) h.io h.lookup hle
      (by omega) hv hchg hroot c
    refine hwalk.trans ?_
    unfold walkedSlots
    rw [← h.copies d hroot c]
    rfl
  constructor
  · intro hsame d hroot c
    rw [hsame d hroot c, hfree d hroot c]
  · intro hwalk d hroot c
    rw [hwalk d hroot c, hfree d hroot c]

/-- What the first call left for the second to see: nothing, and then
every change is one the walks record, or a changed table, and then the
second call walks every array. -/
theorem ChangedTable.second_call (h : ChangedTable env s)
    (hgap : ∀ d, HasRoot env d → GapFree (lunSlots env s d .primary))
    (hbefore : ∀ n, n < k → io (s.ioTick + n) = efiSuccess)
    (hfault : efiError (io (s.ioTick + k)) = true)
    (htype : env.rootDeviceType ≠ .unknown) :
    (isUpdatePartitionAttributes
        (updatePartitionAttributes (env.withIo io) u s) = true
      ∧ ∀ d, HasRoot env d → ∀ c,
        lunSlots env (updatePartitionAttributes env u
          (updatePartitionAttributes (env.withIo io) u s)) d c
          = walkedSlots env u s d)
    ∨ ((updatePartitionAttributes (env.withIo io) u s).ptnEntriesBak
        = s.ptnEntries ∧ FailingRun env u s io k) := by
  have hlen := h.length_eq
  have hmax := h.bakLength_le
  have hpush : Pushed env u s
      (updatePartitionAttributes (env.withIo io) u s) := h.pushed
  have hptn := hpush.frame.ptnEntries
  by_cases hagain : isUpdatePartitionAttributes
      (updatePartitionAttributes (env.withIo io) u s) = true
  · refine Or.inl ⟨hagain, fun d hroot c => ?_⟩
    have hwalk := hpush.walks h.io h.lookup (by omega) (by omega) hagain
      hroot c
    rw [hwalk]
    unfold walkedSlots
    rw [h.copies d hroot c]
  · have hbak : (updatePartitionAttributes (env.withIo io) u
        s).ptnEntriesBak = s.ptnEntries := by
      unfold isUpdatePartitionAttributes at hagain
      rw [hptn, bne_iff_ne, not_not] at hagain
      exact hagain.symm
    refine Or.inr ⟨hbak, FailingRun.of_rows h hgap hbefore hfault ?_⟩
    intro r hr hne
    obtain ⟨i, hi⟩ := List.mem_iff_getElem?.mp hr
    obtain ⟨hp, hb⟩ := List.getElem?_zip_eq_some.mp hi
    rcases hpush.rows i r.1 r.2 r.1 hp hb (by rw [hbak]; exact hp) with
      heq | ⟨hh, hroot, hsel⟩
    · exact absurd heq hne
    · refine ⟨?_, hh, hsel⟩
      cases ht : env.rootDeviceType with
      | ufs => exact hroot ht
      | unknown => exact absurd ht htype
      | emmc =>
          -- the eMMC is the only device
          obtain ⟨hluns, -⟩ := h.lookup.emmc ht
          have hlt := h.lun_lt (List.mem_of_getElem? hp)
          unfold HasRoot
          rw [ht]
          show r.1.lun = 0
          omega

/-- With the backup table equal to the table the second call does
nothing. -/
theorem ChangedTable.second_skips (h : ChangedTable env s)
    (hbak : (updatePartitionAttributes (env.withIo io) u s).ptnEntriesBak
      = s.ptnEntries) :
    updatePartitionAttributes env u
        (updatePartitionAttributes (env.withIo io) u s)
      = updatePartitionAttributes (env.withIo io) u s := by
  have hpush : Pushed env u s
      (updatePartitionAttributes (env.withIo io) u s) := h.pushed
  refine if_neg ?_
  unfold isUpdatePartitionAttributes
  rw [hpush.frame.ptnEntries, hbak]
  simp

/-- A lost update is not made up for. -/
theorem ChangedTable.not_restored (h : ChangedTable env s)
    (hgap : ∀ d, HasRoot env d → GapFree (lunSlots env s d .primary))
    (hbefore : ∀ n, n < k → io (s.ioTick + n) = efiSuccess)
    (hfault : efiError (io (s.ioTick + k)) = true)
    (hlost : LostUpdate env u s k) :
    ¬ SameGpts env (updatePartitionAttributes env u s)
      (updatePartitionAttributes env u
        (updatePartitionAttributes (env.withIo io) u s)) := by
  have hlost' := hlost
  obtain ⟨d, hroot, ⟨r, hr, -, hne⟩, hrows, -, -⟩ := hlost'
  have hchg : isUpdatePartitionAttributes s = true := by
    by_contra hsame
    obtain ⟨heq, -, -⟩ := h.unchanged u hroot hsame
    rw [heq] at hr
    have hself := mem_zip_of_forall₂
      (List.forall₂_same.mpr fun _ _ => rfl : List.Forall₂
        (fun b p : PartitionEntry => p = b) s.ptnEntriesBak s.ptnEntriesBak)
    exact hne (hself r hr)
  have hrun : FailingRun env u s io k :=
    FailingRun.of_rows h hgap hbefore hfault fun q hq hqne =>
      (hrows q hq hqne).2
  obtain ⟨hbak, e, hre, hold⟩ := hrun.lost hchg hlost
  rw [h.sameGpts_iff hchg, h.second_skips hbak]
  exact fun hwalk => hold (hwalk e hre .backup)

end Retry

/-- After a call whose `k`-th block I/O, checksum or buffer call is the
first to fail, a second call on working services leaves the GPTs of one
fault-free call exactly when the update is not lost. -/
theorem retry_restores_iff (env : Env) (u : UpdateType) (s : St)
    (io : Nat → EfiStatus) (k : Nat) (h : ChangedTable env s)
    (hgap : ∀ d, HasRoot env d → GapFree (lunSlots env s d .primary))
    (hbefore : ∀ n, n < k → io (s.ioTick + n) = efiSuccess)
    (hfault : efiError (io (s.ioTick + k)) = true) :
    SameGpts env (updatePartitionAttributes env u s)
        (updatePartitionAttributes env u
          (updatePartitionAttributes (env.withIo io) u s))
      ↔ ¬ LostUpdate env u s k := by
  constructor
  · intro hsame hlost
    exact h.not_restored hgap hbefore hfault hlost hsame
  · intro hnot
    by_cases hchg : isUpdatePartitionAttributes s = true
    · rw [h.sameGpts_iff hchg]
      intro d hroot c
      rcases h.second_call (u := u) hgap hbefore hfault hroot.known with
        ⟨-, hwalk⟩ | ⟨hbak, hrun⟩
      · exact hwalk d hroot c
      · rw [h.second_skips hbak]
        exact hrun.walked_of_recorded hchg h.pushed hbak hnot hroot c
    · -- nothing to update, in any of the three calls
      have hnone : ∀ env', updatePartitionAttributes env' u s = s :=
        fun env' => if_neg hchg
      rw [hnone (env.withIo io), hnone env]
      exact fun d _ c x _ => rfl

-- one partition, in the first slot, and a device that fails a write

/-- The sample array without the unused slot before the partition. -/
def packedImage : Mem := fun x => sampleImage (partitionEntrySize + x)

/-- The `k`-th call fails with `EFI_DEVICE_ERROR`. -/
def failsAt (k n : Nat) : EfiStatus :=
  if n = k then 0x8000000000000007 else efiSuccess

/-- The packed image is a medium to which the table belongs. -/
theorem packed_changedTable :
    ChangedTable sampleEnv (sampleOn packedImage) :=
  sampleOn_changedTable (by decide +kernel)

/-- The packed image has its partitions in the first slots. -/
theorem packed_gapFree (d : Nat) :
    GapFree (lunSlots sampleEnv (sampleOn packedImage) d .primary) := by
  rw [sampleOn_lunSlots]
  refine ⟨(gptEntries packedImage 0).take 1,
    (gptEntries packedImage 0).drop 1, (List.take_append_drop 1 _).symm,
    ?_, ?_⟩
  · decide +kernel
  · have hnone : ((gptEntries packedImage 0).drop 1).filter
        EfiPartitionEntry.used = [] := by decide +kernel
    exact List.filter_eq_nil_iff.mp hnone

/-- Every call before the `k`-th succeeds. -/
theorem failsAt_before (k : Nat) :
    ∀ n, n < k → failsAt k (0 + n) = efiSuccess := by
  intro n hn
  unfold failsAt
  rw [if_neg (by omega)]

/-- The `k`-th call fails. -/
theorem failsAt_fault (k : Nat) : efiError (failsAt k (0 + k)) = true := by
  unfold failsAt
  rw [if_pos (Nat.zero_add k)]
  decide

/-- The write of the primary, the fifth call, is the first to fail. -/
theorem packed_lost :
    LostUpdate sampleEnv .partitionAttributes (sampleOn packedImage) 4 := by
  refine ⟨0, sampleEnv_hasRoot, by decide +kernel, ?_, by decide +kernel,
    by decide +kernel⟩
  intro r hr hne
  have hrows : (sampleOn packedImage).ptnEntries.zip
      (sampleOn packedImage).ptnEntriesBak
      = [(handleEntry 0 none, handleEntry 0 none),
        (handleEntry 0 (some { samplePartition with attributes := 1 }),
          handleEntry 0 (some samplePartition))] := rfl
  rw [hrows] at hr
  rcases List.mem_cons.mp hr with rfl | hr
  · exact absurd rfl hne
  · rw [List.mem_singleton.mp hr]
    exact ⟨Nat.le_refl 0, sampleEnv_hasRoot, by decide +kernel,
      fun _ => rfl, fun hu => absurd rfl hu⟩

/-- On the packed image the retry does not restore what the failing call has
missed. -/
theorem retry_restores_iff_packed :
    ¬ SameGpts sampleEnv
      (updatePartitionAttributes sampleEnv .partitionAttributes
        (sampleOn packedImage))
      (updatePartitionAttributes sampleEnv .partitionAttributes
        (updatePartitionAttributes (sampleEnv.withIo (failsAt 4))
          .partitionAttributes (sampleOn packedImage))) := by
  rw [retry_restores_iff sampleEnv .partitionAttributes
    (sampleOn packedImage) (failsAt 4) 4 packed_changedTable
    (fun d _ => packed_gapFree d) (failsAt_before 4) (failsAt_fault 4)]
  exact fun hnot => hnot packed_lost

/-- The failed write of the primary GPT is never made up for. -/
theorem retry_loses_update :
    ¬ ∀ (env : Env) (u : UpdateType) (s : St) (io : Nat → EfiStatus)
      (k : Nat), ChangedTable env s →
      (∀ d, HasRoot env d → GapFree (lunSlots env s d .primary)) →
      (∀ n, n < k → io (s.ioTick + n) = efiSuccess) →
      efiError (io (s.ioTick + k)) = true →
      SameGpts env (updatePartitionAttributes env u s)
        (updatePartitionAttributes env u
          (updatePartitionAttributes (env.withIo io) u s)) := by
  intro hall
  have hgap : ∀ d, HasRoot sampleEnv d →
      GapFree (lunSlots sampleEnv (sampleOn packedImage) d .primary) :=
    fun d _ => packed_gapFree d
  have hsame := hall sampleEnv .partitionAttributes (sampleOn packedImage)
    (failsAt 4) 4 packed_changedTable hgap (failsAt_before 4)
    (failsAt_fault 4)
  exact packed_changedTable.not_restored hgap (failsAt_before 4)
    (failsAt_fault 4) packed_lost hsame

end Edk2Exynos.BootSlot
