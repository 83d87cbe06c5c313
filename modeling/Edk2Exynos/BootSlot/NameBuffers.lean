/-
The buffers that the names of a slot pair go through.

# The buffers

`GetMultiSlotPartsList` copies a base into the `CHAR16[BOOT_PART_SIZE]`
of a node and gives `StrnCpyS` the size of that array in bytes: up to 63
characters and a terminator are accepted, and what does not fit lies on
the node's `Next`. `SwitchPtnSlots` gives the right size, drops both
statuses, and goes on with what is in the buffers.

# Long names

A partition name has up to 35 characters, a base up to 33. It fits the
node up to 31, and both full names fit up to 29 (`pairNames_iff`); with
anything longer the two names built are the same, or no more than the
suffixes, and the pair is not found (`builtPair`).
-/
import Edk2Exynos.BootSlot.SlotExchange

namespace Edk2Exynos.BootSlot

open Lib

-- =========================================================== the buffers

/-- What `StrnCpyS` stores, from `PartName` on, of the partition name
`searchString`: the characters copied and a terminator. -/
def partNameStores (searchString : List CHAR16) : List CHAR16 :=
  (strnCpyS [] (2 * bootPartSize) searchString
    (strLen searchString - 2)).2 ++ [0]

/-- The units of a zeroed node after these stores, `PartName` first and
then `Next`. -/
def nodeUnits (searchString : List CHAR16) : List CHAR16 :=
  partNameStores searchString
    ++ (List.replicate (bootPartSize + 4) 0).drop
      (partNameStores searchString).length

/-- The array of a node is the first of these units. -/
theorem newNode_partName (addr : UINT64) (searchString : List CHAR16)
    (nodes : List BootPartsNode) :
    (newNode addr searchString nodes).partName
      = (nodeUnits searchString).take bootPartSize := by
  unfold newNode nodeUnits partNameStores
  dsimp only
  generalize (strnCpyS [] (2 * bootPartSize) searchString
    (strLen searchString - 2)).2 = base
  rw [List.drop_replicate, List.length_append, List.length_singleton,
    List.append_assoc]
  apply List.ext_getElem?
  intro k
  rw [List.getElem?_take, List.getElem?_take]
  split
  next hk =>
    by_cases hin : k < base.length
    · rw [List.getElem?_append_left hin, List.getElem?_append_left hin]
    · rw [List.getElem?_append_right (by omega),
        List.getElem?_append_right (by omega), List.getElem?_replicate,
        if_pos (by omega), List.singleton_append, List.getElem?_cons]
      split
      · rfl
      · rw [List.getElem?_replicate, if_pos (by omega)]
  · rfl

/-- The base is in `PartName`, terminated, and nothing has been stored
behind the array, where `Next` is. -/
structure BaseStored (searchString base : List CHAR16) : Prop where
  name : (nodeUnits searchString).take (base.length + 1) = base ++ [0]
  inside : (partNameStores searchString).length ≤ bootPartSize

/-- A full name in its buffer: the statuses of `StrnCpyS` and of
`StrnCatS`, and what the buffer then holds. -/
def buildName (base suffix : List CHAR16) :
    EfiStatus × EfiStatus × List CHAR16 :=
  let (copied, name) := strnCpyS [] bootPartSize base (strLen base)
  let (appended, name) := strnCatS name bootPartSize suffix (strLen suffix)
  (copied, appended, name)

theorem buildName_slotName (base suffix : List CHAR16) :
    (buildName base suffix).2.2 = slotName base suffix := rfl

/-- Both names are built whole, from whatever node is made for
`searchString`. -/
def NamesBuilt (searchString base : List CHAR16) : Prop :=
  ∀ (addr : UINT64) (nodes : List BootPartsNode) (y : Side),
    buildName (newNode addr searchString nodes).name y.slot.suffix
      = (efiSuccess, efiSuccess, base ++ y.slot.suffix)

-- ============================================================ what fits

section

variable {searchString base : List CHAR16} {y : Side}

/-- What the search stores of a slotted name is its base. -/
theorem partNameStores_slotted
    (h : cstr searchString = base ++ y.slot.suffix)
    (hfield : (cstr searchString).length ≤ 35) :
    partNameStores searchString = base ++ [0] := by
  unfold partNameStores
  rw [strnCpyS_partName hfield, h, slotted_take]

/-- The base is stored right when it has 31 characters at most. -/
theorem baseStored_iff (h : cstr searchString = base ++ y.slot.suffix)
    (hfield : (cstr searchString).length ≤ 35) :
    BaseStored searchString base ↔ base.length ≤ 31 := by
  have hstores := partNameStores_slotted h hfield
  have hlen : (partNameStores searchString).length = base.length + 1 := by
    rw [hstores, List.length_append, List.length_singleton]
  constructor
  · intro hst
    have hin := hst.inside
    rw [hlen] at hin
    unfold bootPartSize at hin
    omega
  · intro hle
    constructor
    case name =>
      unfold nodeUnits
      rw [← hlen, List.take_left, hstores]
    case inside =>
      rw [hlen]
      unfold bootPartSize
      omega

/-- A name is built right when its base has 29 characters at most. -/
theorem buildName_eq (name : List CHAR16) (x : Side) :
    buildName name x.slot.suffix
        = (efiSuccess, efiSuccess, cstr name ++ x.slot.suffix)
      ↔ (cstr name).length ≤ 29 := by
  have hne : efiBufferTooSmall ≠ efiSuccess := by decide
  unfold buildName
  dsimp only
  rw [strnCatS_suffix, strnCpyS_base]
  constructor
  · intro heq
    by_contra hlong
    by_cases h31 : (cstr name).length ≤ 31
    · rw [if_pos h31, cstr_cstr, if_neg hlong] at heq
      exact hne (congrArg (fun r => r.2.1) heq)
    · rw [if_neg h31] at heq
      exact hne (congrArg (fun r => r.1) heq)
  · intro hle
    rw [if_pos (show (cstr name).length ≤ 31 by omega), cstr_cstr,
      if_pos hle]

/-- Both names of a base are built right when it has 29 characters at most. -/
theorem namesBuilt_iff (h : cstr searchString = base ++ y.slot.suffix)
    (hfield : (cstr searchString).length ≤ 35) :
    NamesBuilt searchString base ↔ base.length ≤ 29 := by
  have hlen : (cstr searchString).length = base.length + 2 := by
    rw [h, slotted_length]
  have hshort : base.length ≤ 31 → ∀ addr nodes,
      cstr (newNode addr searchString nodes).name = base := by
    intro hle addr nodes
    rw [cstr_newNode addr nodes (by omega), h, slotted_take]
  constructor
  · intro hbuilt
    by_contra hlong
    have hname := hbuilt 0 [] .a
    by_cases h31 : base.length ≤ 31
    · have hbase := hshort h31 0 []
      rw [← hbase] at hname
      have hle := (buildName_eq _ .a).1 hname
      rw [hbase] at hle
      exact hlong hle
    · -- the copy of what runs on is refused
      have hrun := le_cstr_newNode 0 [] (show 34 ≤ (cstr
        searchString).length by omega) hfield
      have hcopied := congrArg (fun r => r.1) hname
      unfold buildName at hcopied
      dsimp only at hcopied
      rw [strnCpyS_base, if_neg (by omega)] at hcopied
      exact absurd hcopied (by decide)
  · intro hle addr nodes x
    have hbase := hshort (by omega) addr nodes
    have hbuild := (buildName_eq
      (newNode addr searchString nodes).name x).2 (by rw [hbase]; exact hle)
    rw [hbuild, hbase]

/-- The node holds the base and both full names are built. -/
theorem pairNames_iff (h : cstr searchString = base ++ y.slot.suffix)
    (hfield : (cstr searchString).length ≤ 35) :
    BaseStored searchString base ∧ NamesBuilt searchString base
      ↔ base.length ≤ 29 := by
  rw [baseStored_iff h hfield, namesBuilt_iff h hfield]
  omega

end

-- ============================================================== the pairs

/-- A call handles the pair of `base`, its slots at `i` and `j`: the base
fits the node, both names fit their buffers, and the type GUIDs have
changed places. -/
structure PairSwitched (env : Env) (x : Side) (s : St)
    (base : List CHAR16) (i j : Nat) : Prop where
  names : ∀ p ∈ s.ptnEntries, ∀ y : Side,
    cstr p.name = base ++ y.slot.suffix →
    BaseStored p.name base ∧ NamesBuilt p.name base
  swapped : guidAtIndex (switchPtnSlots env x.slot.suffix s).ptnEntries i
        = guidAtIndex s.ptnEntries j
      ∧ guidAtIndex (switchPtnSlots env x.slot.suffix s).ptnEntries j
        = guidAtIndex s.ptnEntries i

/-- It handles every pair of the table. -/
def PairsSwitched (env : Env) (x : Side) (s : St) : Prop :=
  ∀ (base : List CHAR16) (i j : Nat),
    (names s.ptnEntries)[i]? = some (base ++ suffixA) →
    (names s.ptnEntries)[j]? = some (base ++ suffixB) →
    PairSwitched env x s base i j

/-- The names of every pair fit, and exchanging what is found for the
bases brings the type GUIDs of the two slots to each other's place; or
there is no memory for the list, and they are equal. -/
structure PairsFit (env : Env) (s : St) : Prop where
  short : ∀ base, BothSlots (names s.ptnEntries) base → base.length ≤ 29
  table : NodesAllocated env s → ∀ (base : List CHAR16) (i j : Nat),
    (names s.ptnEntries)[i]? = some (base ++ suffixA) →
    (names s.ptnEntries)[j]? = some (base ++ suffixB) →
    guidAtIndex s.ptnEntries
        (swaps (builtExchanges (names s.ptnEntries)) i)
      = guidAtIndex s.ptnEntries j
    ∧ guidAtIndex s.ptnEntries
        (swaps (builtExchanges (names s.ptnEntries)) j)
      = guidAtIndex s.ptnEntries i
  memory : ¬ NodesAllocated env s → ∀ (base : List CHAR16) (i j : Nat),
    (names s.ptnEntries)[i]? = some (base ++ suffixA) →
    (names s.ptnEntries)[j]? = some (base ++ suffixB) →
    guidAtIndex s.ptnEntries i = guidAtIndex s.ptnEntries j

/-- Names whose search and whose list come to the slots and to nothing
else. -/
structure TidyPairs (ns : List (List CHAR16)) : Prop where
  slots : SlotNames ns
  distinct : ns.Pairwise fun m n => n ≠ [] → m ≠ n
  paired : ∀ b ∈ pairBases ns, BothSlots ns b

/-- Paired names make tidy pairs. -/
theorem PairedNames.tidyPairs {ns : List (List CHAR16)}
    (h : PairedNames ns) : TidyPairs ns where
  slots := h.slotNames
  distinct := h.distinct
  paired := fun _ hb => (mem_pairBases_iff h).1 hb

variable {s : St}

/-- The buffers are long enough exactly for bases of 29 characters. -/
theorem pairNames_short (hfield : ∀ n ∈ names s.ptnEntries, n.length ≤ 35)
    {base : List CHAR16} (hboth : BothSlots (names s.ptnEntries) base) :
    (∀ p ∈ s.ptnEntries, ∀ y : Side,
        cstr p.name = base ++ y.slot.suffix →
        BaseStored p.name base ∧ NamesBuilt p.name base)
      ↔ base.length ≤ 29 := by
  constructor
  · intro h
    obtain ⟨p, hp, hname⟩ := List.mem_map.1 (hboth .a)
    exact (pairNames_iff hname (hfield _ (List.mem_map_of_mem hp))).1
      (h p hp .a hname)
  · intro hle p hp y hname
    exact (pairNames_iff hname (hfield _ (List.mem_map_of_mem hp))).2 hle

/-- A pair that was switched has a short base. -/
theorem PairsSwitched.short {env : Env} {x : Side}
    (hfield : ∀ n ∈ names s.ptnEntries, n.length ≤ 35)
    (h : PairsSwitched env x s) {base : List CHAR16}
    (hboth : BothSlots (names s.ptnEntries) base) : base.length ≤ 29 := by
  obtain ⟨i, hi⟩ := List.mem_iff_getElem?.1 (hboth .a)
  obtain ⟨j, hj⟩ := List.mem_iff_getElem?.1 (hboth .b)
  exact (pairNames_short hfield hboth).1 (h base i j hi hj).names

/-- All pairs are switched exactly when the names fit their buffers. -/
theorem pairsSwitched_iff (env : Env) (x : Side)
    (hfield : ∀ n ∈ names s.ptnEntries, n.length ≤ 35)
    (hnil : s.headNode = []) : PairsSwitched env x s ↔ PairsFit env s := by
  obtain ⟨hkept, hguids⟩ := switchPtnSlots_built env x s hfield hnil
  constructor
  · intro h
    constructor
    case short => exact fun base hboth => h.short hfield hboth
    case table =>
      intro halloc base i j hi hj
      rw [← hguids halloc, ← hguids halloc]
      exact (h base i j hi hj).swapped
    case memory =>
      intro hno base i j hi hj
      have hswapped := (h base i j hi hj).swapped
      rw [hkept hno] at hswapped
      exact hswapped.1
  · intro h base i j hi hj
    constructor
    case names =>
      have hboth := bothSlots_of_getElem hi hj
      exact (pairNames_short hfield hboth).2 (h.short base hboth)
    case swapped =>
      by_cases halloc : NodesAllocated env s
      · rw [hguids halloc, hguids halloc]
        exact h.table halloc base i j hi hj
      · have heq := h.memory halloc base i j hi hj
        rw [hkept halloc]
        exact ⟨heq, heq.symm⟩

/-- On tidy names only the length matters. -/
theorem TidyPairs.fit {env : Env} (h : TidyPairs (names s.ptnEntries))
    (halloc : NodesAllocated env s)
    (hshort : ∀ base, BothSlots (names s.ptnEntries) base →
      base.length ≤ 29) : PairsFit env s := by
  have hbuilt := builtExchanges_short fun b hb =>
    hshort b (h.paired b hb)
  constructor
  case short => exact hshort
  case table =>
    intro _ base i j hi hj
    obtain ⟨hij, hji⟩ :=
      (h.slots.exchange_slots h.distinct).1 base i j hi hj
    rw [hbuilt, hij, hji]
    exact ⟨rfl, rfl⟩
  case memory => exact fun hno => absurd halloc hno

/-- Every pair's base fits its node, both its names fit their buffers, and
the pair is swapped, exactly when no pair has a base of more than 29
characters and what is found for the collected bases makes up the swap. On
tidy names, with memory for the list, the length of the bases decides. -/
theorem switchPtnSlots_pairs_switched (env : Env) (x : Side) (s : St)
    (hfield : ∀ n ∈ names s.ptnEntries, n.length ≤ 35)
    (hnil : s.headNode = []) :
    (PairsSwitched env x s ↔ PairsFit env s)
      ∧ (TidyPairs (names s.ptnEntries) → NodesAllocated env s →
        (PairsSwitched env x s ↔ ∀ base,
          BothSlots (names s.ptnEntries) base → base.length ≤ 29)) := by
  have hiff := pairsSwitched_iff env x hfield hnil
  refine ⟨hiff, fun htidy halloc => ?_⟩
  constructor
  · exact fun h base hboth => h.short hfield hboth
  · exact fun hshort => hiff.2 (htidy.fit halloc hshort)

/-- The pair of the sample is switched. -/
theorem switchPtnSlots_pairs_switched_sample :
    PairsSwitched sampleEnv .b sampleSlots := by
  have hfield : ∀ n ∈ names sampleSlots.ptnEntries, n.length ≤ 35 :=
    fun n hn => (sampleSlots_paired.short n hn).trans (by decide)
  obtain ⟨-, htidy⟩ := switchPtnSlots_pairs_switched sampleEnv .b
    sampleSlots hfield rfl
  have halloc : NodesAllocated sampleEnv sampleSlots := by
    refine sampleEnv_allocated rfl ?_
    rw [sampleSlots_names]
    decide
  refine (htidy sampleSlots_paired.tidyPairs halloc).2 fun base hboth => ?_
  exact pairBases_short sampleSlots_paired (mem_pairBases_of_both hboth)

/-- A pair with names of 35 characters. -/
def longBase : List CHAR16 := List.replicate 33 0x78

/-- A table with a pair of slots whose base is `longBase`. -/
def longSlots : St :=
  sampleState.withEntries
    [sampleEntry (longBase ++ suffixA) 1 0,
    sampleEntry (longBase ++ suffixB) 2 0]

/-- The names of `longSlots`. -/
theorem longSlots_names : names longSlots.ptnEntries
    = [longBase ++ suffixA, longBase ++ suffixB] := by
  decide +kernel

/-- Its base runs over `Next`, both copies are refused, and what is looked
for is the suffixes alone: the pair keeps its type GUIDs. -/
theorem switchPtnSlots_long_names :
    (partNameStores (longBase ++ suffixA)).length = bootPartSize + 2
      ∧ (∀ y : Side, (buildName (newNode 4096 (longBase ++ suffixA)
        []).name y.slot.suffix)
          = (efiBufferTooSmall, efiSuccess, y.slot.suffix))
      ∧ guidAtIndex
          (switchPtnSlots sampleEnv suffixB longSlots).ptnEntries 0
        = guidAtIndex longSlots.ptnEntries 0
      ∧ ¬ ∀ (env : Env) (x : Side) (s : St),
        (∀ n ∈ names s.ptnEntries, n.length ≤ 35) → s.headNode = [] →
        NodesAllocated env s → PairsSwitched env x s := by
  have hfield : ∀ n ∈ names longSlots.ptnEntries, n.length ≤ 35 := by
    rw [longSlots_names]
    decide
  have halloc : NodesAllocated sampleEnv longSlots := by
    refine sampleEnv_allocated rfl ?_
    rw [longSlots_names]
    decide
  refine ⟨by decide, ?_, ?_, fun hall => ?_⟩
  · intro y
    cases y with
    | a => decide +kernel
    | b => decide +kernel
  · have hguid := (switchPtnSlots_built sampleEnv .b longSlots hfield
      rfl).2 halloc 0
    have hnone : builtExchanges (names longSlots.ptnEntries) = [] := by
      rw [longSlots_names]
      decide
    rw [hnone] at hguid
    exact hguid
  · have hboth : BothSlots (names longSlots.ptnEntries) longBase := by
      rw [longSlots_names]
      intro x
      cases x with
      | a => exact List.mem_cons_self
      | b => exact List.mem_cons_of_mem _ List.mem_cons_self
    have hle := (hall sampleEnv .b longSlots hfield rfl halloc).short
      hfield hboth
    exact absurd hle (by decide)

end Edk2Exynos.BootSlot
