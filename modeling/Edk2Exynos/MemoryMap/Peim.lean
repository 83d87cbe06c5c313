/-
MemoryInitPeiLib: what becomes of the platform's memory map.

# The code

`MemoryPeim` goes through the regions of the map up to the one of length 0.
By its option a region is announced to the firmware (`AddHob`), listed for
the MMU, or both; a region of another memory size is passed over.

# What the list means

The list is read up to its entry of length 0, and where two entries
contain an address the later one counts (`attributesAt`). Of two regions
that overlap the later one in the map decides the attributes, and the
regions of the map do overlap.
-/
import Mathlib.Tactic

namespace Edk2Exynos.MemoryMap

/-- A 32-bit word. -/
abbrev UINT32 := BitVec 32
/-- A 64-bit word. -/
abbrev UINT64 := BitVec 64

-- ========================================================= the memory map

/-- `DeviceMemoryAddHob`, what becomes of a region. -/
inductive DeviceMemoryAddHob where
  | noHob
  | addMem
  | addDev
  | hobOnlyNoCacheSetting
  | mem4G
  | mem6G
  | mem8G
  | mem10G
  | mem12G
  | maxMem
  deriving DecidableEq

/-- The resource types of the map's regions. -/
inductive EfiResourceType where
  | systemMemory
  | memoryMappedIo
  | memoryReserved
  deriving DecidableEq

/-- The memory types of the map's regions. -/
inductive EfiMemoryType where
  | reservedMemoryType
  | bootServicesCode
  | bootServicesData
  | runtimeServicesCode
  | runtimeServicesData
  | conventionalMemory
  | memoryMappedIo
  deriving DecidableEq

/-- The attributes of the map's regions. -/
inductive ArmAttributes where
  | nonsecureDevice
  | device
  | writeThrough
  | writeBack
  | uncachedUnbuffered
  deriving DecidableEq

/-- `ARM_MEMORY_REGION_DESCRIPTOR_EX` -/
structure RegionDescriptor where
  name : String
  address : UINT64
  length : UINT64
  hobOption : DeviceMemoryAddHob
  resourceType : EfiResourceType
  resourceAttribute : UINT32
  memoryType : EfiMemoryType
  armAttributes : ArmAttributes

/-- `MAX_ARM_MEMORY_REGION_DESCRIPTOR_COUNT` -/
def maxRegionCount : Nat := 128

/-- `ARM_MEMORY_REGION_DESCRIPTOR` -/
structure MmuEntry where
  physicalBase : UINT64
  virtualBase : UINT64
  length : UINT64
  attributes : ArmAttributes

/-- What is announced: a resource, or an allocation of memory. -/
inductive Hob where
  | resource (type : EfiResourceType) (attributes : UINT32)
      (base length : UINT64)
  | allocation (base length : UINT64) (type : EfiMemoryType)

-- ============================================================= MemoryPeim

/-- How `MemoryPeim` does not come to its end. -/
inductive PeimError where
  /-- `ASSERT(Index < MAX_ARM_MEMORY_REGION_DESCRIPTOR_COUNT)` -/
  | index
  /-- no region of length 0 ends the map -/
  | unterminated

/-- What the loop over the regions has made so far. -/
structure PeimState where
  hobs : List Hob
  /-- the first `Index` entries of `MemoryDescriptor` -/
  table : List MmuEntry
  memoryTotal : UINT64

/-- The memory size, `Mem`, which nothing changes. -/
def deviceMemory : DeviceMemoryAddHob := .mem4G

/-- `AddHob` -/
def addHob (desc : RegionDescriptor) (s : PeimState) : PeimState :=
  let s := { s with
    hobs := s.hobs ++ [.resource desc.resourceType desc.resourceAttribute
      desc.address desc.length] }
  if desc.resourceType = .systemMemory
      ∨ desc.memoryType = .runtimeServicesData then
    { s with
      hobs := s.hobs ++ [.allocation desc.address desc.length
        desc.memoryType] }
  else s

/-- The entry of a region: where it is it stays. -/
def RegionDescriptor.entry (desc : RegionDescriptor) : MmuEntry where
  physicalBase := desc.address
  virtualBase := desc.address
  length := desc.length
  attributes := desc.armAttributes

/-- From the label `update` on. -/
def update (desc : RegionDescriptor) (s : PeimState) :
    Except PeimError PeimState :=
  if s.table.length < maxRegionCount then
    .ok { s with table := s.table ++ [desc.entry] }
  else .error .index

/-- The `switch` and what follows it. -/
def switchHobOption (desc : RegionDescriptor) (s : PeimState) :
    Except PeimError PeimState :=
  match desc.hobOption with
  | .mem4G | .mem6G | .mem8G | .mem10G | .mem12G =>
      if desc.hobOption ≠ deviceMemory then .ok s
      else update desc (addHob desc s)
  | .addMem | .addDev => update desc (addHob desc s)
  | .hobOnlyNoCacheSetting => .ok (addHob desc s)
  | .noHob | .maxMem => update desc s

/-- One turn of the loop. -/
def peimRegion (desc : RegionDescriptor) (s : PeimState) :
    Except PeimError PeimState :=
  if desc.memoryType = .conventionalMemory then
    switchHobOption desc
      { s with memoryTotal := s.memoryTotal + desc.length }
  else switchHobOption desc s

/-- The loop over the regions, up to the one of length 0. -/
def peimLoop : List RegionDescriptor → PeimState →
    Except PeimError PeimState
  | [], _ => .error .unterminated
  | desc :: descs, s =>
      if desc.length = 0 then .ok s
      else do
        let s ← peimRegion desc s
        peimLoop descs s

/-- all zeros -/
def terminator : MmuEntry where
  physicalBase := 0
  virtualBase := 0
  length := 0
  attributes := .uncachedUnbuffered

/-- `MemoryPeim`, of a platform with this map: the HOBs built, and the list
`ArmConfigureMmu` is called with. -/
def memoryPeim (map : List RegionDescriptor) :
    Except PeimError PeimState := do
  let s ← peimLoop map ⟨[], [], 0⟩
  if s.table.length < maxRegionCount then
    .ok { s with table := s.table ++ [terminator] }
  else .error .index

-- ==================================================== what it is turned into

/-- The option puts the region into the list of the MMU. -/
def RegionDescriptor.inTable (desc : RegionDescriptor) : Bool :=
  match desc.hobOption with
  | .noHob | .addMem | .addDev | .mem4G | .maxMem => true
  | _ => false

/-- The option announces the region. -/
def RegionDescriptor.announced (desc : RegionDescriptor) : Bool :=
  match desc.hobOption with
  | .addMem | .addDev | .mem4G | .hobOnlyNoCacheSetting => true
  | _ => false

/-- The HOBs of an announced region. -/
def RegionDescriptor.hobs (desc : RegionDescriptor) : List Hob :=
  .resource desc.resourceType desc.resourceAttribute desc.address
      desc.length
    :: if desc.resourceType = .systemMemory
          ∨ desc.memoryType = .runtimeServicesData then
        [.allocation desc.address desc.length desc.memoryType] else []

/-- What a region adds to the conventional memory. -/
def RegionDescriptor.conventional (desc : RegionDescriptor) : UINT64 :=
  if desc.memoryType = .conventionalMemory then desc.length else 0

/-- What a region adds. -/
def RegionDescriptor.turn (desc : RegionDescriptor) (s : PeimState) :
    PeimState where
  hobs := s.hobs ++ if desc.announced then desc.hobs else []
  table := s.table ++ if desc.inTable then [desc.entry] else []
  memoryTotal := s.memoryTotal + desc.conventional

/-- What the regions add, one list each. -/
def turned (descs : List RegionDescriptor) (s : PeimState) : PeimState where
  hobs := s.hobs
    ++ (descs.filter RegionDescriptor.announced).flatMap
        RegionDescriptor.hobs
  table := s.table
    ++ (descs.filter RegionDescriptor.inTable).map RegionDescriptor.entry
  memoryTotal := descs.foldl
    (fun total desc => total + desc.conventional) s.memoryTotal

theorem turned_nil (s : PeimState) : turned [] s = s := by
  simp [turned]

/-- The first region takes its turn, then the others. -/
theorem turned_cons (desc : RegionDescriptor)
    (descs : List RegionDescriptor) (s : PeimState) :
    turned (desc :: descs) s = turned descs (desc.turn s) := by
  unfold turned RegionDescriptor.turn
  rw [List.filter_cons, List.filter_cons, List.foldl_cons]
  cases desc.announced <;> cases desc.inTable <;> simp

/-- `AddHob` adds the HOBs of the region. -/
theorem addHob_eq (desc : RegionDescriptor) (s : PeimState) :
    addHob desc s = { s with hobs := s.hobs ++ desc.hobs } := by
  unfold addHob RegionDescriptor.hobs
  split_ifs
  · exact congrArg (PeimState.mk · _ _) (List.append_assoc ..)
  · rfl

/-- With room in the list a region becomes its last entry. -/
theorem update_eq (desc : RegionDescriptor) {s : PeimState}
    (hroom : s.table.length < maxRegionCount) :
    update desc s = .ok { s with table := s.table ++ [desc.entry] } :=
  if_pos hroom

/-- With room in the list a region is announced and listed as its option says.
-/
theorem switchHobOption_eq {desc : RegionDescriptor} {s : PeimState}
    (hroom : desc.inTable = true → s.table.length < maxRegionCount) :
    switchHobOption desc s = .ok { s with
      hobs := s.hobs ++ if desc.announced then desc.hobs else []
      table := s.table ++ if desc.inTable then [desc.entry] else [] } := by
  unfold switchHobOption
  unfold RegionDescriptor.announced
  unfold RegionDescriptor.inTable at hroom ⊢
  cases hoption : desc.hobOption
  all_goals
    simp only [hoption] at hroom
    simp only [deviceMemory, addHob_eq]
  case noHob | maxMem =>
    rw [update_eq desc (hroom trivial)]
    simp
  case addMem | addDev =>
    exact update_eq desc (hroom trivial)
  case mem4G =>
    rw [if_neg (not_not.2 rfl)]
    exact update_eq desc (hroom trivial)
  all_goals simp

/-- A turn of the loop. -/
theorem peimRegion_eq {desc : RegionDescriptor} {s : PeimState}
    (hroom : desc.inTable = true → s.table.length < maxRegionCount) :
    peimRegion desc s = .ok (desc.turn s) := by
  unfold peimRegion RegionDescriptor.turn RegionDescriptor.conventional
  by_cases hconventional : desc.memoryType = .conventionalMemory
  · rw [if_pos hconventional, if_pos hconventional]
    exact switchHobOption_eq hroom
  · have hzero : s.memoryTotal + 0 = s.memoryTotal := BitVec.add_zero _
    rw [if_neg hconventional, if_neg hconventional, hzero]
    exact switchHobOption_eq hroom

/-- The loop, up to the terminator. -/
theorem peimLoop_eq {t : RegionDescriptor} (ht : t.length = 0)
    (rest descs : List RegionDescriptor)
    (hdescs : ∀ desc ∈ descs, desc.length ≠ 0) (s : PeimState)
    (hroom : (turned descs s).table.length ≤ maxRegionCount) :
    peimLoop (descs ++ t :: rest) s = .ok (turned descs s) := by
  induction descs generalizing s with
  | nil => rw [turned_nil, List.nil_append, peimLoop, if_pos ht]
  | cons desc descs ih =>
      rw [turned_cons] at hroom ⊢
      have hlength := hdescs desc (List.mem_cons_self ..)
      have hin : desc.inTable = true → s.table.length < maxRegionCount := by
        intro hin
        simp only [turned, RegionDescriptor.turn, hin, if_true,
          List.length_append, List.length_singleton] at hroom
        omega
      rw [List.cons_append, peimLoop, if_neg hlength, peimRegion_eq hin]
      exact ih (fun d hd => hdescs d (List.mem_cons_of_mem _ hd)) _ hroom

-- ---- no room

/-- A region without room in the list ends in the assertion. -/
theorem switchHobOption_full {desc : RegionDescriptor} {s : PeimState}
    (hin : desc.inTable = true) (hfull : maxRegionCount ≤ s.table.length) :
    switchHobOption desc s = .error .index := by
  have hupdate : ∀ s' : PeimState, s'.table = s.table →
      update desc s' = .error .index := fun s' hs' =>
    if_neg (hs' ▸ Nat.not_lt.2 hfull)
  unfold RegionDescriptor.inTable at hin
  unfold switchHobOption
  cases hoption : desc.hobOption
  case noHob | maxMem => exact hupdate s rfl
  case addMem | addDev =>
    rw [addHob_eq]
    exact hupdate _ rfl
  case mem4G =>
    rw [addHob_eq]
    exact (if_neg (not_not.2 rfl)).trans (hupdate _ rfl)
  all_goals simp [hoption] at hin

/-- So does its turn of the loop. -/
theorem peimRegion_full {desc : RegionDescriptor} {s : PeimState}
    (hin : desc.inTable = true) (hfull : maxRegionCount ≤ s.table.length) :
    peimRegion desc s = .error .index := by
  unfold peimRegion
  split_ifs
  · exact switchHobOption_full hin hfull
  · exact switchHobOption_full hin hfull

/-- With more entries than there is room for, the assertion fails. -/
theorem peimLoop_full {t : RegionDescriptor} (rest : List RegionDescriptor)
    (descs : List RegionDescriptor)
    (hdescs : ∀ desc ∈ descs, desc.length ≠ 0) (s : PeimState)
    (hs : s.table.length ≤ maxRegionCount)
    (hfull : maxRegionCount < (turned descs s).table.length) :
    peimLoop (descs ++ t :: rest) s = .error .index := by
  induction descs generalizing s with
  | nil =>
      rw [turned_nil] at hfull
      exact absurd hs (Nat.not_le.2 hfull)
  | cons desc descs ih =>
      have hlength := hdescs desc (List.mem_cons_self ..)
      have hrest := fun d hd => hdescs d (List.mem_cons_of_mem desc hd)
      rw [List.cons_append, peimLoop, if_neg hlength]
      rw [turned_cons] at hfull
      by_cases hroom : desc.inTable = true → s.table.length < maxRegionCount
      · rw [peimRegion_eq hroom]
        refine ih hrest _ ?_ hfull
        unfold RegionDescriptor.turn
        cases hin : desc.inTable with
        | false => simpa using hs
        | true => simpa using hroom hin
      · rw [Classical.not_imp, Nat.not_lt] at hroom
        rw [peimRegion_full hroom.1 hroom.2]
        rfl

-- ============================================================ the addresses

/-- The address lies in the entry. -/
def MmuEntry.Contains (e : MmuEntry) (a : Nat) : Prop :=
  e.physicalBase.toNat ≤ a ∧ a < e.physicalBase.toNat + e.length.toNat

instance (e : MmuEntry) : DecidablePred e.Contains :=
  fun _ => inferInstanceAs (Decidable (_ ∧ _))

/-- The address lies in the region. -/
def RegionDescriptor.Contains (desc : RegionDescriptor) (a : Nat) : Prop :=
  desc.entry.Contains a

/-- What the list says of an address: it is read up to the entry of length
0, and the last entry that contains the address counts. -/
def attributesAt : List MmuEntry → Nat → Option ArmAttributes
  | [], _ => none
  | e :: es, a =>
      if e.length = 0 then none
      else (attributesAt es a).or
        (if e.Contains a then some e.attributes else none)

/-- Of two lists the later one counts first. -/
theorem attributesAt_append {es : List MmuEntry}
    (hes : ∀ e ∈ es, e.length ≠ 0) (fs : List MmuEntry) (a : Nat) :
    attributesAt (es ++ fs) a
      = (attributesAt fs a).or (attributesAt es a) := by
  induction es with
  | nil => rw [List.nil_append, attributesAt, Option.or_none]
  | cons e es ih =>
      have hlength := hes e (List.mem_cons_self ..)
      rw [List.cons_append, attributesAt, attributesAt, if_neg hlength,
        if_neg hlength, ih fun e he => hes e (List.mem_cons_of_mem _ he),
        Option.or_assoc]

/-- An address that no entry contains gets nothing. -/
theorem attributesAt_none {es : List MmuEntry} {a : Nat}
    (hes : ∀ e ∈ es, ¬ e.Contains a) : attributesAt es a = none := by
  induction es with
  | nil => rfl
  | cons e es ih =>
      rw [attributesAt, if_neg (hes e (List.mem_cons_self ..)),
        ih fun e he => hes e (List.mem_cons_of_mem _ he)]
      exact ite_self _

theorem attributesAt_terminator (a : Nat) :
    attributesAt [terminator] a = none := rfl

/-- An address that an entry contains gets something. -/
theorem attributesAt_isSome {es : List MmuEntry}
    (hes : ∀ e ∈ es, e.length ≠ 0) {e : MmuEntry} (he : e ∈ es) {a : Nat}
    (ha : e.Contains a) : (attributesAt es a).isSome := by
  obtain ⟨before, after, rfl⟩ := List.append_of_mem he
  rw [List.forall_mem_append] at hes
  have hlength := hes.2 e (List.mem_cons_self ..)
  rw [attributesAt_append hes.1, attributesAt, if_neg hlength, if_pos ha]
  simp

-- ============================================================== the result

/-- What `MemoryPeim` does with the regions of a map. -/
structure PeimRight (descs : List RegionDescriptor) (s : PeimState) :
    Prop where
  /-- every announced region has its HOBs, in the order of the map -/
  hobs : s.hobs = (descs.filter RegionDescriptor.announced).flatMap
    RegionDescriptor.hobs
  /-- the list fits and ends, and maps every address to itself -/
  ends : s.table.getLast? = some terminator
  fits : s.table.length ≤ maxRegionCount
  identity : ∀ e ∈ s.table, e.virtualBase = e.physicalBase
  /-- an address has the attributes of the last region it lies in -/
  last : ∀ before desc after, descs = before ++ desc :: after →
    desc.inTable = true → ∀ a, desc.Contains a →
    (∀ later ∈ after, later.inTable = true → ¬ later.Contains a) →
    attributesAt s.table a = some desc.armAttributes
  /-- and none where no region is listed -/
  none : ∀ a, (∀ desc ∈ descs, desc.inTable = true → ¬ desc.Contains a) →
    attributesAt s.table a = none
  /-- what is announced as memory can be accessed, unless the option says
  that it is not to be listed -/
  announced : ∀ desc ∈ descs, desc.announced = true →
    desc.hobOption ≠ .hobOnlyNoCacheSetting →
    ∀ a, desc.Contains a → (attributesAt s.table a).isSome

/-- A region that is announced is listed, but for one option. -/
theorem announced_inTable {desc : RegionDescriptor}
    (h : desc.announced = true)
    (hoption : desc.hobOption ≠ .hobOnlyNoCacheSetting) :
    desc.inTable = true := by
  unfold RegionDescriptor.announced at h
  unfold RegionDescriptor.inTable
  cases hcase : desc.hobOption <;> simp_all

/-- The entries of the listed regions. -/
def entries (descs : List RegionDescriptor) : List MmuEntry :=
  (descs.filter RegionDescriptor.inTable).map RegionDescriptor.entry

/-- The entries are those of the listed regions. -/
theorem mem_entries {descs : List RegionDescriptor} {e : MmuEntry} :
    e ∈ entries descs
      ↔ ∃ desc ∈ descs, desc.inTable = true ∧ desc.entry = e := by
  simp [entries, and_assoc]

/-- No entry but the last has length 0. -/
theorem entries_length_ne {descs : List RegionDescriptor}
    (hdescs : ∀ desc ∈ descs, desc.length ≠ 0) :
    ∀ e ∈ entries descs, e.length ≠ 0 := by
  intro e he
  obtain ⟨desc, hdesc, -, rfl⟩ := mem_entries.1 he
  exact hdescs desc hdesc

/-- An address outside the listed regions gets nothing. -/
theorem entries_none {descs : List RegionDescriptor} {a : Nat}
    (hdescs : ∀ desc ∈ descs, desc.inTable = true → ¬ desc.Contains a) :
    attributesAt (entries descs) a = none := by
  refine attributesAt_none fun e he => ?_
  obtain ⟨desc, hdesc, hin, rfl⟩ := mem_entries.1 he
  exact hdescs desc hdesc hin

/-- The terminator adds nothing. -/
theorem attributesAt_entries {descs : List RegionDescriptor}
    (hdescs : ∀ desc ∈ descs, desc.length ≠ 0) (a : Nat) :
    attributesAt (entries descs ++ [terminator]) a
      = attributesAt (entries descs) a := by
  rw [attributesAt_append (entries_length_ne hdescs),
    attributesAt_terminator, Option.none_or]

/-- An address gets the attributes of the last listed region it lies in. -/
theorem entries_last {before after : List RegionDescriptor}
    {desc : RegionDescriptor}
    (hbefore : ∀ d ∈ before, d.length ≠ 0) (hlength : desc.length ≠ 0)
    (hin : desc.inTable = true) {a : Nat} (ha : desc.Contains a)
    (hafter : ∀ later ∈ after, later.inTable = true → ¬ later.Contains a) :
    attributesAt (entries (before ++ desc :: after)) a
      = some desc.armAttributes := by
  have hsplit : entries (before ++ desc :: after)
      = entries before ++ desc.entry :: entries after := by
    simp [entries, hin]
  rw [hsplit, attributesAt_append (entries_length_ne hbefore),
    attributesAt, if_neg (show desc.entry.length ≠ 0 from hlength),
    entries_none hafter, if_pos (show desc.entry.Contains a from ha)]
  rfl

/-- The list holds the entries of the regions. -/
theorem turned_table (descs : List RegionDescriptor) :
    (turned descs ⟨[], [], 0⟩).table = entries descs :=
  List.nil_append _

/-- With room for all entries the list is made. -/
theorem memoryPeim_ok {descs : List RegionDescriptor}
    (hdescs : ∀ desc ∈ descs, desc.length ≠ 0) {t : RegionDescriptor}
    (ht : t.length = 0) (rest : List RegionDescriptor)
    (hfits : (entries descs).length < maxRegionCount) :
    memoryPeim (descs ++ t :: rest) = .ok { turned descs ⟨[], [], 0⟩ with
      table := entries descs ++ [terminator] } := by
  have hloop := peimLoop_eq ht rest descs hdescs ⟨[], [], 0⟩
    (turned_table descs ▸ Nat.le_of_lt hfits)
  unfold memoryPeim
  rw [hloop]
  show (if _ then _ else _) = _
  rw [turned_table, if_pos hfits]

/-- Without room for all entries the assertion fails. -/
theorem memoryPeim_full {descs : List RegionDescriptor}
    (hdescs : ∀ desc ∈ descs, desc.length ≠ 0) {t : RegionDescriptor}
    (ht : t.length = 0) (rest : List RegionDescriptor)
    (hfull : maxRegionCount ≤ (entries descs).length) :
    memoryPeim (descs ++ t :: rest) = .error .index := by
  unfold memoryPeim
  rcases Nat.eq_or_lt_of_le hfull with hlast | hmore
  · -- the regions just fit, the terminator does not
    rw [peimLoop_eq ht rest descs hdescs ⟨[], [], 0⟩
      (turned_table descs ▸ hlast.ge)]
    show (if _ then _ else _) = _
    rw [turned_table, if_neg (Nat.not_lt.2 hfull)]
  · rw [peimLoop_full rest descs hdescs ⟨[], [], 0⟩ (Nat.zero_le _)
      (turned_table descs ▸ hmore)]
    rfl

/-- What is made is right. -/
theorem entries_right {descs : List RegionDescriptor}
    (hdescs : ∀ desc ∈ descs, desc.length ≠ 0)
    (hfits : (entries descs).length < maxRegionCount) :
    PeimRight descs { turned descs ⟨[], [], 0⟩ with
      table := entries descs ++ [terminator] } := by
  constructor
  case hobs => exact List.nil_append _
  case ends => exact List.getLast?_concat
  case fits => exact List.length_append.trans_le hfits
  case identity =>
    intro e he
    rcases List.mem_append.1 he with he | he
    · obtain ⟨desc, -, -, rfl⟩ := mem_entries.1 he
      rfl
    · rw [List.mem_singleton.1 he]
      rfl
  case last =>
    rintro before desc after rfl hin a ha hafter
    rw [attributesAt_entries hdescs]
    rw [List.forall_mem_append, List.forall_mem_cons] at hdescs
    exact entries_last hdescs.1 hdescs.2.1 hin ha hafter
  case none =>
    intro a hnone
    exact (attributesAt_entries hdescs a).trans (entries_none hnone)
  case announced =>
    intro desc hdesc hannounced hoption a ha
    rw [attributesAt_entries hdescs]
    have hin := announced_inTable hannounced hoption
    exact attributesAt_isSome (entries_length_ne hdescs)
      (mem_entries.2 ⟨desc, hdesc, hin, rfl⟩) ha

/-- Of any map that ends, `MemoryPeim` makes the right HOBs and the right
list, or it has more regions to list than the list has room for, and the
assertion fails. -/
theorem memoryPeim_right (descs : List RegionDescriptor)
    (hdescs : ∀ desc ∈ descs, desc.length ≠ 0) (t : RegionDescriptor)
    (ht : t.length = 0) (rest : List RegionDescriptor) :
    ((descs.filter RegionDescriptor.inTable).length < maxRegionCount →
        ∃ s, memoryPeim (descs ++ t :: rest) = .ok s ∧ PeimRight descs s)
      ∧ (maxRegionCount ≤ (descs.filter RegionDescriptor.inTable).length →
        memoryPeim (descs ++ t :: rest) = .error .index) := by
  have hlen : (entries descs).length
      = (descs.filter RegionDescriptor.inTable).length := List.length_map _
  rw [← hlen]
  exact ⟨fun hfits => ⟨_, memoryPeim_ok hdescs ht rest hfits,
    entries_right hdescs hfits⟩, memoryPeim_full hdescs ht rest⟩

/-- `SYS_MEM_CAP` -/
def sysMemCap : UINT32 := 0x403C07

/-- The regions of the Exynos9820 map. -/
def exynos9820 : List RegionDescriptor :=
  [⟨"Periphs", 0x00000000, 0x20000000, .addMem, .memoryReserved, 0x400,
      .runtimeServicesCode, .nonsecureDevice⟩,
    ⟨"HLOS 0", 0x80000000, 0x00C00000, .addMem, .systemMemory, sysMemCap,
      .conventionalMemory, .writeBack⟩,
    ⟨"UEFI Stack", 0x80C00000, 0x00040000, .addMem, .systemMemory,
      sysMemCap, .bootServicesData, .writeBack⟩,
    ⟨"CPU Vectors", 0x80C40000, 0x00010000, .addMem, .systemMemory,
      sysMemCap, .bootServicesCode, .writeBack⟩,
    ⟨"HLOS 0 Split", 0x80C50000, 0x2AB00000, .addMem, .systemMemory,
      sysMemCap, .conventionalMemory, .writeBack⟩,
    ⟨"UEFI FD", 0x90000000, 0x00700000, .addMem, .systemMemory, sysMemCap,
      .bootServicesCode, .writeBack⟩,
    ⟨"HLOS 0 Split 2", 0x90700000, 0x30B00000, .addMem, .systemMemory,
      sysMemCap, .bootServicesCode, .writeBack⟩,
    ⟨"HLOS 1", 0xC1200000, 0x3EE00000, .addMem, .systemMemory, sysMemCap,
      .conventionalMemory, .writeBack⟩,
    ⟨"HLOS 2", 0xE1900000, 0x1E700000, .addMem, .systemMemory, sysMemCap,
      .conventionalMemory, .writeBack⟩,
    ⟨"Display Reserved", 0xf1000000, 0x00800000, .addMem, .memoryReserved,
      sysMemCap, .reservedMemoryType, .writeThrough⟩,
    ⟨"HLOS 3", 0x880000000, 0x280000000, .addMem, .systemMemory, sysMemCap,
      .conventionalMemory, .writeBack⟩]

/-- The last line of the map, of length 0. -/
def exynos9820Terminator : RegionDescriptor :=
  ⟨"Terminator", 0, 0, .noHob, .systemMemory, 0, .reservedMemoryType,
    .uncachedUnbuffered⟩

/-- The display memory lies in two regions more, `HLOS 1` and `HLOS 2`, but
comes behind them. -/
theorem memoryPeim_right_display :
    ∃ s, memoryPeim (exynos9820 ++ [exynos9820Terminator]) = .ok s
      ∧ ∀ a, 0xf1000000 ≤ a → a < 0xf1800000 →
        attributesAt s.table a = some .writeThrough := by
  obtain ⟨s, hs, hright⟩ := (memoryPeim_right exynos9820 (by decide)
    exynos9820Terminator rfl []).1 (by decide)
  refine ⟨s, hs, fun a hlow hhigh => ?_⟩
  refine hright.last (exynos9820.take 9) _ (exynos9820.drop 10) rfl rfl a
    ⟨hlow, hhigh⟩ ?_
  intro later hlater _ hcontains
  obtain rfl := List.mem_singleton.1 hlater
  exact absurd (Nat.lt_of_le_of_lt hcontains.1 hhigh) (by decide)

end Edk2Exynos.MemoryMap
