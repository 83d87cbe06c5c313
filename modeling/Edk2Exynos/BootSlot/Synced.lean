/-
The partition table in memory and the GPTs on the media as two copies of
one thing.

# The table of a medium

`diskEntries` is the table `UpdatePartitionEntries` builds when the
handles of every LUN report the used slots of its GPT, in order.
`Synced` says that the library's table, and its backup copy, are that
table. It is what a program finds after it has built its table, and it
is what must hold again when the program ends, or the next one will not
find what this one left.

# An update keeps the two together

On a device whose partitions fill the first slots of their arrays, an
update of a table that was changed in fields it stores ends with the
changed table on the media and in the backup copy (`Synced.update`). The
slots are known LUN by LUN, the table row by row; the two meet in
`eq_of_groups`.
-/
import Edk2Exynos.BootSlot.Enumerate
import Edk2Exynos.BootSlot.Retry
import Edk2Exynos.BootSlot.Slots
import Edk2Exynos.Lib.Grouped

namespace Edk2Exynos.BootSlot

open Lib

-- ================================================= the table of a medium

/-- The handles of a LUN: its root device and its used slots. -/
def slotHandles (env : Env) (s : St) (d : Nat) : List HandleEntry :=
  if HasRoot env d then
    none :: ((lunSlots env s d .primary).filter
      EfiPartitionEntry.used).map some
  else []

/-- The LUNs of a device. -/
def Env.lunCount (env : Env) : Nat :=
  if env.rootDeviceType = .emmc then 1 else maxLuns

/-- The handles of every LUN of a device. -/
def diskTable (env : Env) (s : St) : List (List HandleEntry) :=
  (List.range env.lunCount).map (slotHandles env s)

/-- The table built from the media. -/
def diskEntries (env : Env) (s : St) : List PartitionEntry :=
  (updatePartitionEntries (diskTable env s) s).ptnEntries

/-- Working services, and on every LUN two equal valid GPTs whose
partitions are their first slots. -/
structure GptDevice (env : Env) (s : St) : Prop where
  known : env.rootDeviceType ≠ .unknown
  io : ∀ n, env.io n = efiSuccess
  lookup : RootLookup env env.lunCount
  device : ValidDevice env s
  copies : ∀ d, HasRoot env d → ∀ c,
    lunSlots env s d c = lunSlots env s d .primary
  gapFree : ∀ d, HasRoot env d → GapFree (lunSlots env s d .primary)

/-- The table and its backup copy are those of the media. -/
structure Synced (env : Env) (s : St) : Prop where
  medium : GptDevice env s
  maxLuns : s.maxLuns = env.lunCount
  table : s.ptnEntries = diskEntries env s
  bak : s.ptnEntriesBak = s.ptnEntries

section Medium

variable {env : Env} {s s' : St}

theorem diskEntries_eq (env : Env) (s : St) : diskEntries env s
    = (allHandles (diskTable env s) 0).take maxNumPartitions := rfl

/-- There is a list for every LUN. -/
theorem diskTable_length (env : Env) (s : St) :
    (diskTable env s).length = env.lunCount := by
  unfold diskTable
  rw [List.length_map, List.length_range]

/-- The list of a LUN. -/
theorem diskTable_get {d : Nat} (hd : d < env.lunCount) :
    (diskTable env s)[d]? = some (slotHandles env s d) := by
  unfold diskTable
  rw [List.getElem?_map, List.getElem?_range hd]
  rfl

/-- The handles of a LUN with a root device. -/
theorem slotHandles_root {d : Nat} (h : HasRoot env d) :
    slotHandles env s d = none :: ((lunSlots env s d .primary).filter
      EfiPartitionEntry.used).map some := if_pos h

/-- A LUN without a root device has no handles. -/
theorem slotHandles_none {d : Nat} (h : ¬ HasRoot env d) :
    slotHandles env s d = [] := if_neg h

/-- What depends on the media only. -/
theorem GptDevice.of_disk (h : GptDevice env s)
    (hdisk : s'.disk = s.disk) : GptDevice env s' := by
  have hslots : ∀ d c, lunSlots env s' d c = lunSlots env s d c :=
    fun d => lunSlots_congr (congrFun hdisk d)
  refine ⟨h.known, h.io, h.lookup, ⟨h.device.media, fun d hd c => ?_⟩,
    fun d hd c => ?_, fun d hd => ?_⟩
  · rw [hdisk]
    exact h.device.gpt d hd c
  · rw [hslots, hslots]
    exact h.copies d hd c
  · rw [hslots]
    exact h.gapFree d hd

/-- Equal slots have equal handles. -/
theorem slotHandles_congr (hslots : ∀ d, HasRoot env d →
      lunSlots env s' d .primary = lunSlots env s d .primary) (d : Nat) :
    slotHandles env s' d = slotHandles env s d := by
  unfold slotHandles
  split
  next hroot => rw [hslots d hroot]
  next => rfl

/-- Equal slots make equal tables. -/
theorem diskEntries_congr (hslots : ∀ d, HasRoot env d →
      lunSlots env s' d .primary = lunSlots env s d .primary) :
    diskEntries env s' = diskEntries env s := by
  have htable : diskTable env s' = diskTable env s :=
    List.map_congr_left fun d _ => slotHandles_congr hslots d
  rw [diskEntries_eq, htable, diskEntries_eq]

/-- What changes neither the media nor the table leaves them alike. -/
theorem Synced.of_frame (h : Synced env s) (hdisk : s'.disk = s.disk)
    (hptn : s'.ptnEntries = s.ptnEntries)
    (hbak : s'.ptnEntriesBak = s.ptnEntriesBak)
    (hluns : s'.maxLuns = s.maxLuns) : Synced env s' where
  medium := h.medium.of_disk hdisk
  maxLuns := hluns.trans h.maxLuns
  table := by
    rw [hptn, diskEntries_congr fun d _ =>
      lunSlots_congr (congrFun hdisk d) .primary]
    exact h.table
  bak := by
    rw [hbak, hptn]
    exact h.bak

/-- The rows of the table: root devices, and partitions. -/
def Tidy (t : List PartitionEntry) : Prop :=
  ∀ p ∈ t, p.handled ∨ p = handleEntry p.lun none

/-- A row of a LUN is of one of its handles. -/
theorem mem_diskEntries {p : PartitionEntry}
    (h : p ∈ diskEntries env s) :
    ∃ x ∈ slotHandles env s p.lun, p = handleEntry p.lun x := by
  have hmem : p ∈ allHandles (diskTable env s) 0 :=
    List.mem_of_mem_take h
  have hlt := lun_lt_of_mem_allHandles hmem
  rw [diskTable_length, Nat.zero_add] at hlt
  have hgroup := allHandles_filter (k := 0) (diskTable_get (s := s) hlt)
  rw [Nat.zero_add] at hgroup
  have hp : p ∈ (allHandles (diskTable env s) 0).filter (onLun p.lun) :=
    List.mem_filter.mpr ⟨hmem, by simp [onLun]⟩
  rw [hgroup] at hp
  obtain ⟨x, hx, heq⟩ := List.mem_map.mp hp
  exact ⟨x, hx, heq.symm⟩

/-- Every entry is on a LUN with a root device. -/
theorem hasRoot_of_mem {p : PartitionEntry} (h : p ∈ diskEntries env s) :
    HasRoot env p.lun := by
  by_contra hroot
  obtain ⟨x, hx, -⟩ := mem_diskEntries h
  rw [slotHandles_none hroot] at hx
  cases hx

/-- The table of the media is made of root devices and partitions. -/
theorem GptDevice.tidy (h : GptDevice env s) :
    Tidy (diskEntries env s) := by
  intro p hp
  have hroot := hasRoot_of_mem hp
  obtain ⟨x, hx, heq⟩ := mem_diskEntries hp
  rw [slotHandles_root hroot] at hx
  rcases List.mem_cons.mp hx with rfl | hx
  · exact Or.inr heq
  · obtain ⟨e, he, rfl⟩ := List.mem_map.mp hx
    have hdata := (h.gapFree p.lun hroot).used.2 e he
    refine Or.inl (handled_iff.mpr ?_)
    rw [heq]
    exact hdata

end Medium

-- ======================================================= a working update

/-- With working I/O a pass records its walk. -/
theorem updateCopy_walk {env : Env} (hok : ∀ n, env.io n = efiSuccess)
    (lun : Nat) (u : UpdateType) (c : GptCopy) (s : St) :
    (updateCopy env lun u c s).2.ptnEntriesBak
      = (passWalk env lun u c s).2 := by
  rw [updateCopy_calls, hok, if_neg not_efiError_efiSuccess]
  split
  · rfl
  · exact storeGpt_bak env lun c _ _

namespace FailingRun

variable {env : Env} {u : UpdateType} {s : St} {io : Nat → EfiStatus}
  {k : Nat}

/-- A LUN of a run on working services, recorded whole. -/
theorem updateLun_records (h : FailingRun env u s io k)
    {d : Nat} (hroot : HasRoot env d) {t : St}
    (hptn : t.ptnEntries = s.ptnEntries)
    (hbak : t.ptnEntriesBak = recordedTo d s.ptnEntries s.ptnEntriesBak)
    (hdisk : t.disk d = s.disk d) (hv : AllValid env t) :
    (updateLun env d u t).1 = true
      ∧ (updateLun env d u t).2.ptnEntriesBak
        = recordedTo (d + 1) s.ptnEntries s.ptnEntriesBak := by
  have hok := h.table.io
  have hsucc : ¬ efiSuccess ≠ efiSuccess := fun hne => hne rfl
  have hlen : t.ptnEntries.length ≤ maxNumPartitions := by
    rw [hptn]
    exact h.length_le
  have hlenb : t.ptnEntries.length ≤ t.ptnEntriesBak.length := by
    rw [hptn, hbak, h.recordedTo_length]
  have hcopies : ∀ c, lunSlots env t d c = lunSlots env s d .primary :=
    fun c => (lunSlots_congr hdisk c).trans (h.table.copies d hroot c)
  have hdone := (updateLun_ok (u := u) hok hlen hlenb hv hroot).1
  refine ⟨hdone, ?_⟩
  -- the primary pass records the LUN, the backup pass finds it recorded
  obtain ⟨hok1, hrun1⟩ := updateCopy_ok (u := u) (c := .primary)
    (s := (nextIo env t).2) hok hlen hlenb hv hroot
  have hrec1 := (updateCopy_walk hok d u .primary (nextIo env t).2).trans
    (h.passWalk_records (Or.inl rfl) (t := (nextIo env t).2) hptn hbak
      hroot (hcopies .primary)).1
  have hptn1 := (updateCopy_frame env d u .primary
    (nextIo env t).2).ptnEntries.trans hptn
  unfold updateLun
  rw [if_neg (hv.copy hroot .primary).1.getPartitionSize_ne_zero]
  dsimp only
  rw [show (nextIo env t).1 = efiSuccess from hok t.ioTick, if_neg hsucc]
  generalize updateCopy env d u .primary (nextIo env t).2 = r at *
  obtain ⟨ok, t'⟩ := r
  dsimp only at hok1
  subst hok1
  dsimp only at hrun1 hrec1 hptn1 ⊢
  have hslots : lunSlots env t' d .backup = lunSlots env s d .primary :=
    (hrun1.otherCopy .backup (by decide)).trans (hcopies .backup)
  exact (updateCopy_walk hok d u .backup t').trans
    (h.passWalk_records (Or.inr rfl) hptn1 hrec1 hroot hslots).1

/-- The loop over the LUNs on working services. -/
theorem updateLuns_records (h : FailingRun env u s io k)
    (htype : env.rootDeviceType ≠ .unknown) :
    ∀ (n lun maxHandles : Nat) (t : St), lun + n = s.maxLuns →
    t.ptnEntries = s.ptnEntries →
    t.ptnEntriesBak = recordedTo lun s.ptnEntries s.ptnEntriesBak →
    (∀ d, lun ≤ d → t.disk d = s.disk d) → AllValid env t →
    (updateLuns env u n lun maxHandles t).ptnEntriesBak
      = recordedTo s.maxLuns s.ptnEntries s.ptnEntriesBak := by
  have hok := h.table.io
  intro n
  induction n with
  | zero =>
      intro lun mh t hn _ hbak _ _
      rw [← hn]
      exact hbak
  | succ n ih =>
      intro lun mh t hn hptn hbak hdisk hv
      rcases updateLuns_step h.table.lookup htype
        (show lun < s.maxLuns by omega) u n mh t with
        ⟨hroot, heq⟩ | ⟨hroot, heq⟩
      · have hsame : SameOn lun s.ptnEntries s.ptnEntriesBak :=
          sameOn_of_not_changedOn fun hchg => hroot (h.rooted lun hchg)
        rw [heq]
        refine ih (lun + 1) 0 t (by omega) hptn ?_
          (fun d hd => hdisk d (by omega)) hv
        rw [hbak, recordedTo_succ hsame]
      · have hlen : t.ptnEntries.length ≤ maxNumPartitions := by
          rw [hptn]
          exact h.length_le
        have hlenb : t.ptnEntries.length ≤ t.ptnEntriesBak.length := by
          rw [hptn, hbak, h.recordedTo_length]
        obtain ⟨hdone, hrec⟩ := h.updateLun_records hroot hptn hbak
          (hdisk lun (Nat.le_refl _)) hv
        obtain ⟨-, -, hother, -⟩ :=
          updateLun_ok (u := u) hok hlen hlenb hv hroot
        have hvalid := (updateLun_run (u := u) hlen hv hroot).valid
        have hptn' := (updateLun_frame hroot u t).ptnEntries.trans hptn
        rw [heq]
        generalize updateLun env lun u t = r at *
        obtain ⟨ok, t'⟩ := r
        dsimp only at hdone
        subst hdone
        refine ih (lun + 1) 1 t' (by omega) hptn' hrec (fun d hd => ?_)
          hvalid
        exact (hother d (by omega)).trans (hdisk d (by omega))

/-- A run on working services leaves the table in its backup copy. -/
theorem recorded (h : FailingRun env u s io k)
    (htype : env.rootDeviceType ≠ .unknown) :
    (updatePartitionAttributes env u s).ptnEntriesBak = s.ptnEntries := by
  unfold updatePartitionAttributes
  split
  next hchg =>
    have hall : recordedTo s.maxLuns s.ptnEntries s.ptnEntriesBak
        = s.ptnEntries := by
      refine (recordedTo_eq_iff h.table.length_eq).mpr fun r hr _ => ?_
      exact h.table.lun_lt (List.of_mem_zip hr).1
    rw [h.updateLuns_records htype s.maxLuns 0 _ s (Nat.zero_add _) rfl
      (recordedTo_zero h.table.length_eq).symm (fun _ _ => rfl)
      h.table.device.allValid, hall]
  next hsame =>
    unfold isUpdatePartitionAttributes at hsame
    have heq : s.ptnEntries = s.ptnEntriesBak := by simpa using hsame
    exact heq.symm

/-- … and every array walked. -/
theorem walked (h : FailingRun env u s io k) {d : Nat}
    (hroot : HasRoot env d) (c : GptCopy) :
    lunSlots env (updatePartitionAttributes env u s) d c
      = walkedSlots env u s d := by
  by_cases hchg : isUpdatePartitionAttributes s = true
  · rw [h.table.walked u hroot hchg c]
    unfold walkedSlots
    rw [h.table.selected_eq hroot]
  · obtain ⟨heq, hnone, -⟩ := h.table.unchanged u hroot hchg
    have hsame : ¬ ChangedOn s d := by
      rintro ⟨r, hr, -, hne⟩
      rw [heq] at hr
      obtain ⟨i, hi, rfl⟩ := List.mem_iff_getElem.mp hr
      rw [List.getElem_zip] at hne
      exact hne rfl
    rw [hnone, h.walkedSlots_same hroot hsame]
    exact h.table.copies d hroot c

end FailingRun

-- ================================================== the table written back

section Edit

variable {env : Env} {u : UpdateType} {s : St}
  {ps bs : List PartitionEntry}

/-- What is left of an array without gaps has none. -/
theorem GapFree.suffix {es rest : List EfiPartitionEntry}
    (h : GapFree (es ++ rest)) : GapFree rest := by
  obtain ⟨fs, none, heq, hfs, hnone⟩ := h
  rcases List.append_eq_append_iff.mp heq with
    ⟨as, rfl, rfl⟩ | ⟨bs, rfl, rfl⟩
  · exact ⟨as, none, rfl,
      fun e he => hfs e (List.mem_append_right _ he), hnone⟩
  · refine ⟨[], rest, rfl, List.forall_mem_nil _, fun e he => ?_⟩
    exact hnone e (List.mem_append_right _ he)

/-- Partitions before an array without gaps make no gap. -/
theorem GapFree.prepend {es rest : List EfiPartitionEntry}
    (h : GapFree rest) (hes : ∀ e ∈ es, e.partitionTypeGuid.data1 ≠ 0) :
    GapFree (es ++ rest) := by
  obtain ⟨fs, none, rfl, hfs, hnone⟩ := h
  refine ⟨es ++ fs, none, (List.append_assoc ..).symm, fun e he => ?_,
    hnone⟩
  rcases List.mem_append.mp he with he | he
  · exact hes e he
  · exact hfs e he

/-- The entries come LUN by LUN. -/
theorem diskEntries_sorted (env : Env) (s : St) :
    Ascending PartitionEntry.lun (allHandles (diskTable env s) 0) :=
  allHandles_sorted 0

/-- The handles of a LUN, in the order of the table. -/
theorem group_allHandles (env : Env) (s : St) (d : Nat) :
    group PartitionEntry.lun d (allHandles (diskTable env s) 0)
      = if d < env.lunCount then (slotHandles env s d).map (handleEntry d)
        else [] := by
  split
  next hd =>
    have hgroup := allHandles_filter (k := 0) (diskTable_get (s := s) hd)
    rw [Nat.zero_add] at hgroup
    exact hgroup
  next hd =>
    refine List.filter_eq_nil_iff.mpr fun p hp => ?_
    have hlt := lun_lt_of_mem_allHandles hp
    rw [diskTable_length, Nat.zero_add] at hlt
    simp only [decide_eq_true_eq]
    omega

/-- The entries of a LUN are those of its slots. -/
theorem map_partEntry {d : Nat} {rows : List PartitionEntry}
    (h : ∀ p ∈ rows, p.lun = d) :
    (rows.map PartitionEntry.partEntry).map
      (fun e => handleEntry d (some e)) = rows := by
  rw [List.map_map]
  refine (List.map_congr_left fun p hp => ?_).trans (List.map_id rows)
  show ({ partEntry := p.partEntry, lun := d } : PartitionEntry) = p
  rw [← h p hp]

end Edit

namespace FailingRun

variable {env : Env} {u : UpdateType} {s s' : St} {io : Nat → EfiStatus}
  {k : Nat}

/-- The block of a LUN: none of it is in the table, or its root device
and some partitions, which are the rows the walk handles. -/
theorem block (h : FailingRun env u s io k) {d : Nat}
    (hroot : HasRoot env d) :
    (group PartitionEntry.lun d s.ptnEntriesBak = []
        ∧ group PartitionEntry.lun d s.ptnEntries = []
        ∧ pairsOn d s.ptnEntries s.ptnEntriesBak = [])
      ∨ ∃ ps bs, group PartitionEntry.lun d s.ptnEntriesBak
            = handleEntry d none :: bs
        ∧ group PartitionEntry.lun d s.ptnEntries
            = handleEntry d none :: ps
        ∧ ps.length = bs.length
        ∧ pairsOn d s.ptnEntries s.ptnEntriesBak = ps.zip bs := by
  have hdata := (h.gapFree d hroot).used.2
  have hblock := h.table.bakBlock hroot
  have hrows : List.Forall₂ (Recordable u)
      (s.ptnEntriesBak.filter (onLun d))
      (s.ptnEntries.filter (onLun d)) := by
    refine List.rel_filter ?_ h.rows
    intro b p hbp
    show decide (b.lun = d) = true ↔ decide (p.lun = d) = true
    rw [hbp.fields.lun]
  have hpairs := pairsOn_eq (d := d)
    (h.rows.imp fun _ _ hbp => hbp.fields.lun)
  have hgroup : ∀ l, group PartitionEntry.lun d l = l.filter (onLun d) :=
    fun _ => rfl
  rw [hgroup, hgroup, hpairs]
  generalize s.ptnEntriesBak.filter (onLun d) = bs at hblock hrows
  generalize s.ptnEntries.filter (onLun d) = ps at hrows
  cases hrows with
  | nil => exact Or.inl ⟨rfl, rfl, rfl⟩
  | @cons b p bs ps hbp hrest =>
      obtain ⟨hb, hbs⟩ := List.cons_prefix_cons.mp hblock
      -- the root-device row is not handled, and so as it was read
      have hz := hbp.fields.device (by
        rw [hb]
        exact show ¬ EfiPartitionEntry.zero.used = true by decide)
      have hun : ¬ p.handled = true := by
        unfold PartitionEntry.handled
        rw [hz]
        decide
      have hp : p = b := by
        by_contra hne
        exact hun (hbp.handled hne)
      have hall : (ps.zip bs).filter handledRow = ps.zip bs := by
        refine List.filter_eq_self.mpr fun r hr => ?_
        have hrec := mem_zip_of_forall₂ hrest r hr
        by_cases hsame : r.1 = r.2
        · obtain ⟨e, he, heq⟩ :=
            List.mem_map.mp (hbs.subset (List.of_mem_zip hr).2)
          unfold handledRow
          rw [hsame, ← heq]
          exact decide_eq_true (hdata e he)
        · exact hrec.handled hsame
      refine Or.inr ⟨ps, bs, by rw [hb], by rw [hp, hb],
        hrest.length_eq.symm, ?_⟩
      have hneg : ¬ handledRow (p, b) = true := hun
      rw [List.zip_cons_cons, List.filter_cons_of_neg hneg, hall]

/-- The handles of a LUN, and what they are where its array is walked. -/
theorem block_handles (h : FailingRun env u s io k) {d : Nat}
    (hroot : HasRoot env d)
    (hslots : lunSlots env s' d .primary = walkedSlots env u s d) :
    ∃ rest, (slotHandles env s d).map (handleEntry d)
        = handleEntry d none
          :: ((pairsOn d s.ptnEntries s.ptnEntriesBak).map
            (fun r => r.2.partEntry) ++ rest).map
              (fun e => handleEntry d (some e))
      ∧ (slotHandles env s' d).map (handleEntry d)
        = handleEntry d none
          :: ((pairsOn d s.ptnEntries s.ptnEntriesBak).map
            (fun r => r.1.partEntry) ++ rest).map
              (fun e => handleEntry d (some e)) := by
  obtain ⟨rest, hread, hwalk⟩ := h.slots_split hroot
  have hhandles : ∀ (t : St) (es : List EfiPartitionEntry),
      lunSlots env t d .primary = es ++ rest →
      (∀ e ∈ es, e.used) →
      (slotHandles env t d).map (handleEntry d) = handleEntry d none
        :: (es ++ rest.filter EfiPartitionEntry.used).map
          (fun e => handleEntry d (some e)) := by
    intro t es heq hes
    rw [slotHandles_root hroot, heq, List.filter_append,
      List.filter_eq_self.mpr hes, List.map_cons, List.map_map]
    rfl
  refine ⟨_, hhandles s _ hread fun e he => ?_,
    hhandles s' _ (hslots.trans hwalk) fun e he => ?_⟩
  · obtain ⟨r, hr, rfl⟩ := List.mem_map.mp he
    obtain ⟨hmem, hon⟩ := List.mem_filter.mp hr
    have hrec := mem_zip_of_forall₂ h.rows r hmem
    simp only [Bool.and_eq_true] at hon
    by_contra hun
    refine handled_iff.mp hon.1 ?_
    rw [hrec.fields.device hun]
    rfl
  · obtain ⟨r, hr, rfl⟩ := List.mem_map.mp he
    have hon := (List.mem_filter.mp hr).2
    simp only [Bool.and_eq_true] at hon
    exact used_of_data1 (handled_iff.mp hon.1)

/-- Where the walked arrays are on the media, the table of the media is
the table that was walked. -/
theorem diskEntries_walked (h : FailingRun env u s io k)
    (hluns : s.maxLuns = env.lunCount)
    (hbak : s.ptnEntriesBak = diskEntries env s)
    (hslots : ∀ d, HasRoot env d →
      lunSlots env s' d .primary = walkedSlots env u s d) :
    diskEntries env s' = s.ptnEntries := by
  generalize hF : allHandles (diskTable env s) 0 = F
  have htake : s.ptnEntriesBak = F.take maxNumPartitions := by
    rw [hbak, diskEntries_eq, hF]
  have hkeys : (s.ptnEntries ++ F.drop maxNumPartitions).map
      PartitionEntry.lun = F.map PartitionEntry.lun := by
    rw [List.map_append, map_lun_of_changed h.table.changed, htake,
      ← List.map_append, List.take_append_drop]
  have hall : allHandles (diskTable env s') 0
      = s.ptnEntries ++ F.drop maxNumPartitions := by
    refine eq_of_groups (diskEntries_sorted env s') ?_ fun d => ?_
    · have hsorted := diskEntries_sorted env s
      rw [hF] at hsorted
      unfold Ascending at hsorted ⊢
      rw [← List.pairwise_map] at hsorted ⊢
      rw [hkeys]
      exact hsorted
    · rw [group_append, group_allHandles]
      have hgroupF := group_allHandles env s d
      rw [hF, ← List.take_append_drop maxNumPartitions F, group_append,
        ← htake] at hgroupF
      by_cases hroot : HasRoot env d
      · have hd := h.table.lookup.inRange d hroot
        rw [hluns] at hd
        obtain ⟨rest, hread, hwalk⟩ :=
          h.block_handles hroot (hslots d hroot)
        rw [if_pos hd, hread] at hgroupF
        rw [if_pos hd, hwalk]
        rcases h.block hroot with
          ⟨hbs, hps, hpairs⟩ | ⟨ps, bs, hbs, hps, hlen, hpairs⟩
        · rw [hbs, hpairs] at hgroupF
          rw [hps, hpairs]
          exact hgroupF.symm
        · -- the rows that are not in the table are as they were
          have hlun : ∀ l (q : PartitionEntry) (qs : List PartitionEntry),
              group PartitionEntry.lun d l = q :: qs →
              ∀ p ∈ qs, p.lun = d := by
            intro l q qs heq p hp
            refine (mem_group.mp (?_ : p ∈ group PartitionEntry.lun d l)).2
            rw [heq]
            exact List.mem_cons_of_mem q hp
          have hfst : (ps.zip bs).map (fun r => r.1.partEntry)
              = ps.map PartitionEntry.partEntry := by
            conv_rhs => rw [← List.map_fst_zip (Nat.le_of_eq hlen)]
            exact (List.map_map ..).symm
          have hsnd : (ps.zip bs).map (fun r => r.2.partEntry)
              = bs.map PartitionEntry.partEntry := by
            conv_rhs => rw [← List.map_snd_zip (Nat.le_of_eq hlen.symm)]
            exact (List.map_map ..).symm
          rw [hbs, hpairs, hsnd, List.map_append,
            map_partEntry (hlun _ _ _ hbs), List.cons_append,
            List.cons.injEq, List.append_cancel_left_eq] at hgroupF
          rw [hps, hpairs, hfst, List.map_append,
            map_partEntry (hlun _ _ _ hps), List.cons_append, hgroupF.2]
      · have hnone : ∀ t, (if d < env.lunCount then
            (slotHandles env t d).map (handleEntry d) else []) = [] := by
          intro t
          rw [slotHandles_none hroot, List.map_nil, ite_self]
        rw [hnone] at hgroupF ⊢
        obtain ⟨hbs, hdrop⟩ := List.append_eq_nil_iff.mp hgroupF
        have hps : group PartitionEntry.lun d s.ptnEntries = [] := by
          refine List.eq_nil_iff_forall_not_mem.mpr fun p hp => ?_
          obtain ⟨hmem, rfl⟩ := mem_group.mp hp
          have hlun : p.lun ∈ s.ptnEntriesBak.map PartitionEntry.lun := by
            rw [← map_lun_of_changed h.table.changed]
            exact List.mem_map_of_mem hmem
          obtain ⟨b, hb, heq⟩ := List.mem_map.mp hlun
          have hin := mem_group.mpr ⟨hb, heq⟩
          rw [hbs] at hin
          cases hin
        rw [hps, hdrop]
        rfl
  have hlen : s.ptnEntries.length = min maxNumPartitions F.length := by
    rw [h.table.length_eq, htake, List.length_take]
  rw [diskEntries_eq, hall, List.take_append, List.take_of_length_le]
  · refine (congrArg (s.ptnEntries ++ ·) ?_).trans (List.append_nil _)
    rw [List.take_eq_nil_iff, List.drop_eq_nil_iff]
    omega
  · omega

/-- The walked arrays are gap-free. -/
theorem walked_gapFree (h : FailingRun env u s io k) {d : Nat}
    (hroot : HasRoot env d) : GapFree (walkedSlots env u s d) := by
  obtain ⟨rest, hread, hwalk⟩ := h.slots_split hroot
  have hgap := h.gapFree d hroot
  rw [hread] at hgap
  rw [hwalk]
  refine hgap.suffix.prepend fun e he => ?_
  obtain ⟨r, hr, rfl⟩ := List.mem_map.mp he
  have hon := (List.mem_filter.mp hr).2
  simp only [Bool.and_eq_true] at hon
  exact handled_iff.mp hon.1

end FailingRun

namespace Synced

variable {env : Env} {u : UpdateType} {s : St} {ps : List PartitionEntry}

/-- A table changed in fields an update stores is one whose changes the
walks record. -/
theorem edit (h : Synced env s)
    (hrows : List.Forall₂ (Recordable u) s.ptnEntries ps) :
    FailingRun env u (s.withEntries ps) (fun _ => efiNotFound) 0 where
  table :=
    { io := h.medium.io
      device := ⟨h.medium.device.media, h.medium.device.gpt⟩
      lookup := by
        rw [show (s.withEntries ps).maxLuns = env.lunCount from h.maxLuns]
        exact h.medium.lookup
      copies := h.medium.copies
      built := by
        refine ⟨diskTable env s, ?_, fun d hs hroot hget => ?_,
          h.bak.trans h.table⟩
        · exact (diskTable_length env s).trans h.maxLuns.symm
        · rw [diskTable_get (h.medium.lookup.inRange d hroot),
            Option.some.injEq] at hget
          rw [← hget]
          exact slotHandles_root hroot
      changed := by
        show List.Forall₂ FieldsChanged s.ptnEntriesBak ps
        rw [h.bak]
        exact hrows.imp fun _ _ hbp => hbp.fields }
  gapFree := h.medium.gapFree
  rows := by
    show List.Forall₂ (Recordable u) s.ptnEntriesBak ps
    rw [h.bak]
    exact hrows
  rooted := by
    rintro d ⟨r, hr, rfl, -⟩
    have hr' : r ∈ ps.zip s.ptnEntries := by
      rw [← h.bak]
      exact hr
    have hrec := mem_zip_of_forall₂ hrows r hr'
    have hmem := (List.of_mem_zip hr').2
    rw [h.table] at hmem
    rw [hrec.fields.lun]
    exact hasRoot_of_mem hmem
  before := fun _ hn => absurd hn (Nat.not_lt_zero _)
  fault := rfl

/-- After the update of such a table the media have it. -/
theorem update (h : Synced env s)
    (hrows : List.Forall₂ (Recordable u) s.ptnEntries ps) :
    Synced env (updatePartitionAttributes env u (s.withEntries ps))
      ∧ (updatePartitionAttributes env u (s.withEntries ps)).ptnEntries
        = ps := by
  have hedit := h.edit hrows
  have hframe := updatePartitionAttributes_frame env u (s.withEntries ps)
  have hrun := updatePartitionAttributes_run u hedit.length_le
    hedit.table.device.allValid
  have hwalked := fun d (hroot : HasRoot env d) => hedit.walked hroot
  have hptn : (updatePartitionAttributes env u
      (s.withEntries ps)).ptnEntries = ps := hframe.ptnEntries
  refine ⟨⟨⟨h.medium.known, h.medium.io, h.medium.lookup,
    ⟨h.medium.device.media, fun d hd c => ?_⟩, fun d hd c => ?_,
    fun d hd => ?_⟩, ?_, ?_, ?_⟩, hptn⟩
  · exact (hrun.valid.copy hd c).2
  · rw [hwalked d hd c, hwalked d hd .primary]
  · rw [hwalked d hd .primary]
    exact hedit.walked_gapFree hd
  · exact hframe.maxLuns.trans h.maxLuns
  · rw [hptn]
    refine (hedit.diskEntries_walked h.maxLuns (h.bak.trans h.table)
      fun d hd => hwalked d hd .primary).symm
  · rw [hptn]
    exact hedit.recorded h.medium.known

end Synced

-- ================================================= what a program starts on

/-- The answers of `GetBlkIOHandles` when every handle reports what is on
the media. -/
def diskHandles (env : Env) (s : St) : BlkIoHandles := fun lun =>
  (efiSuccess,
    if env.rootDeviceType = .emmc then
      lun.elim (slotHandles env s 0) fun _ => []
    else lun.elim [] (slotHandles env s))

/-- The globals of a program that was just loaded. -/
def St.loaded (s : St) : St :=
  { s with
    ptnEntries := []
    ptnEntriesBak := []
    maxLuns := 0
    headNode := [] }

/-- The state after `EnumeratePartitions` and `UpdatePartitionEntries` of
a program that was just loaded. -/
def startState (env : Env) (s : St) : St :=
  enumeratedState (diskHandles env s) s.loaded

/-- The handles of an eMMC device. -/
theorem diskHandles_emmc {env : Env} (h : env.rootDeviceType = .emmc)
    (s : St) :
    diskHandles env s none = (efiSuccess, slotHandles env s 0) := by
  unfold diskHandles
  rw [if_pos h]
  rfl

/-- The handles of a UFS device, LUN by LUN. -/
theorem diskHandles_ufs {env : Env} (h : env.rootDeviceType ≠ .emmc)
    (s : St) : diskHandles env s none = (efiSuccess, [])
      ∧ ∀ d, diskHandles env s (some d)
        = (efiSuccess, slotHandles env s d) := by
  unfold diskHandles
  simp only [if_neg h]
  exact ⟨rfl, fun _ => rfl⟩

/-- `EnumeratePartitions` finds the table of the media. -/
theorem enumeratePartitions_disk (env : Env) (s t : St) :
    enumeratePartitions (diskHandles env s) t
      = (efiSuccess, diskTable env s,
        { t with maxLuns := env.lunCount }) := by
  have hinfo : ∀ before hs, handleInfoList before (efiSuccess, hs) = hs := by
    intro before hs
    unfold handleInfoList
    exact if_pos rfl
  unfold enumeratePartitions diskTable Env.lunCount
  by_cases htype : env.rootDeviceType = .emmc
  · have hroot : HasRoot env 0 := by
      unfold HasRoot
      rw [htype]
    have hpos : 0 < (slotHandles env s 0).length := by
      rw [slotHandles_root hroot]
      exact Nat.zero_lt_succ _
    rw [diskHandles_emmc htype, hinfo, if_pos htype]
    exact if_pos ⟨rfl, hpos⟩
  · obtain ⟨hnone, hsome⟩ := diskHandles_ufs htype s
    rw [hnone, hinfo, if_neg htype]
    dsimp only
    have hempty : ¬ (efiSuccess = efiSuccess
        ∧ 0 < ([] : List HandleEntry).length) := fun h => by cases h.2
    have hzero : efiError efiSuccess = true
        ∨ ([] : List HandleEntry).length = 0 := Or.inr rfl
    rw [if_neg hempty, if_pos hzero]
    simp only [hsome, hinfo]

/-- What a program has before its first call. -/
theorem startState_eq (env : Env) (s : St) :
    startState env s = { s.loaded with
      ptnEntries := diskEntries env s
      ptnEntriesBak := diskEntries env s
      maxLuns := env.lunCount } := by
  unfold startState enumeratedState
  rw [enumeratePartitions_disk]
  rfl

/-- A program starts with table and media together. -/
theorem startState_synced {env : Env} {s : St} (h : GptDevice env s) :
    Synced env (startState env s) := by
  rw [startState_eq]
  refine ⟨h.of_disk rfl, rfl, ?_, rfl⟩
  exact diskEntries_congr fun d _ => rfl

end Edk2Exynos.BootSlot
