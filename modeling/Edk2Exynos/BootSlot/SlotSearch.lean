/-
How the library finds the two slots of a partition, on a table of any
names.

# The list

`names t` is the list of the names' contents. `GetMultiSlotPartsList`
collects the base of a name when a later name agrees with it in length and
all but the last character and the name has a slot suffix anywhere:
`pairBases` lists these bases, and the list it builds is this one in
reverse.

# The search

`SwitchPtnSlots` looks for a base with each suffix as a prefix, the last
hit winning. `foundPair` is what this finds, and the loop over the list is
on the GUIDs, as a function of the entry's index, the permutation of the
pairs found.
-/
import Edk2Exynos.BootSlot.SlotTable
import Edk2Exynos.Lib.Swaps

namespace Edk2Exynos.BootSlot

open Lib

-- ================================================================= names

/-- The names of a table. -/
def names (t : List PartitionEntry) : List (List CHAR16) :=
  t.map fun p => cstr p.name

/-- Tables with the same names have the same names as strings. -/
theorem SameNames.names_eq {t t' : List PartitionEntry}
    (h : SameNames t t') : names t' = names t := by
  have hmap : ∀ l : List PartitionEntry,
      names l = (l.map PartitionEntry.name).map cstr := by
    intro l
    unfold names
    rw [List.map_map]
    rfl
  rw [hmap, hmap, h]

theorem length_names (t : List PartitionEntry) :
    (names t).length = t.length := List.length_map _

/-- What `isOtherSlot` asks of the names. -/
def isOtherName (n m : List CHAR16) : Bool :=
  m != [] && m.length == n.length
    && m.take (n.length - 1) == n.take (n.length - 1)
    && (decide (suffixA <:+: n) || decide (suffixB <:+: n))

/-- The bases of the names with another slot further on. -/
def pairBases : List (List CHAR16) → List (List CHAR16)
  | [] => []
  | n :: ns =>
      if n ≠ [] ∧ ns.any (isOtherName n) then
        n.take (n.length - 2) :: pairBases ns
      else pairBases ns

/-- Whether an entry is of the other slot depends on its name. -/
theorem isOtherSlot_eq (searchString : List CHAR16) (q : PartitionEntry) :
    isOtherSlot searchString q
      = isOtherName (cstr searchString) (cstr q.name) := by
  have hsub : ∀ x : Side, strStr searchString x.slot.suffix
      = decide (x.slot.suffix <:+: cstr searchString) := by
    intro x
    unfold strStr
    cases x <;> rfl
  have ha := hsub .a
  have hb := hsub .b
  unfold isOtherSlot isOtherName
  dsimp only
  rw [show suffixA = Side.a.slot.suffix from rfl,
    show suffixB = Side.b.slot.suffix from rfl, ha, hb]
  rw [Bool.eq_iff_iff]
  simp only [Bool.and_eq_true, bne_iff_ne, ne_eq, beq_iff_eq,
    headD_eq_zero_iff, strnCmp_eq_zero_iff]
  unfold strLen
  rfl

/-- Whether there is another slot depends on the names. -/
theorem any_isOtherSlot (searchString : List CHAR16)
    (ps : List PartitionEntry) :
    ps.any (isOtherSlot searchString)
      = (names ps).any (isOtherName (cstr searchString)) := by
  unfold names
  rw [List.any_map]
  exact List.any_congr rfl fun q => isOtherSlot_eq searchString q

/-- A suffix has two characters. -/
theorem Side.suffix_length (x : Side) : x.slot.suffix.length = 2 := by
  cases x <;> rfl

/-- The two suffixes differ. -/
theorem Side.suffix_inj {x y : Side} :
    x.slot.suffix = y.slot.suffix ↔ x = y := by
  cases x <;> cases y <;> decide

/-- A slotted name determines its base and its slot. -/
theorem slotted_inj {base base' : List CHAR16} {x y : Side} :
    base ++ x.slot.suffix = base' ++ y.slot.suffix
      ↔ base = base' ∧ x = y := by
  constructor
  · intro h
    have hlen : x.slot.suffix.length = y.slot.suffix.length := by
      rw [x.suffix_length, y.suffix_length]
    obtain ⟨hb, hs⟩ := List.append_inj' h hlen
    exact ⟨hb, Side.suffix_inj.mp hs⟩
  · rintro ⟨rfl, rfl⟩
    rfl

/-- A slotted name is not empty. -/
theorem slotted_ne_nil (base : List CHAR16) (x : Side) :
    base ++ x.slot.suffix ≠ [] := by
  intro h
  have hlen := congrArg List.length h
  rw [List.length_append, x.suffix_length] at hlen
  simp at hlen

/-- A slotted name is two characters longer than its base. -/
theorem slotted_length (base : List CHAR16) (x : Side) :
    (base ++ x.slot.suffix).length = base.length + 2 := by
  rw [List.length_append, x.suffix_length]

/-- The base of a slotted name, as the library cuts it off. -/
theorem slotted_take (base : List CHAR16) (x : Side) :
    (base ++ x.slot.suffix).take ((base ++ x.slot.suffix).length - 2)
      = base := by
  rw [slotted_length, Nat.add_sub_cancel, List.take_left]

/-- The names of a base agree in all but the last character. -/
theorem isOtherName_slotted (base : List CHAR16) (x y : Side) :
    isOtherName (base ++ x.slot.suffix) (base ++ y.slot.suffix) = true := by
  have hsuffix : suffixA <:+: base ++ x.slot.suffix
      ∨ suffixB <:+: base ++ x.slot.suffix := by
    cases x with
    | a => exact Or.inl (List.suffix_append _ _).isInfix
    | b => exact Or.inr (List.suffix_append _ _).isInfix
  unfold isOtherName
  simp only [Bool.and_eq_true, bne_iff_ne, ne_eq, beq_iff_eq,
    Bool.or_eq_true, decide_eq_true_eq]
  refine ⟨⟨⟨slotted_ne_nil _ _, ?_⟩, ?_⟩, hsuffix⟩
  · rw [slotted_length, slotted_length]
  · rw [slotted_length, show base.length + 2 - 1 = base.length + 1 by omega,
      List.take_length_add_append, List.take_length_add_append]
    cases x <;> cases y <;> rfl

/-- A slotted name has no terminator in it. -/
theorem cstr_slotted {base : List CHAR16} (hbase : cstr base = base)
    (y : Side) : cstr (base ++ y.slot.suffix) = base ++ y.slot.suffix := by
  apply cstr_of_nonzero
  intro c hc
  rcases List.mem_append.1 hc with hc | hc
  · rw [← hbase] at hc
    exact ne_zero_of_mem_cstr hc
  · intro hzero
    rw [hzero] at hc
    revert hc
    cases y <;> decide

/-- An index is determined by its name. -/
theorem index_unique {ns : List (List CHAR16)}
    (hdist : ns.Pairwise fun m n => n ≠ [] → m ≠ n)
    {n : List CHAR16} (hne : n ≠ []) {i j : Nat} (hi : ns[i]? = some n)
    (hj : ns[j]? = some n) : i = j := by
  obtain ⟨hilt, hi⟩ := List.getElem?_eq_some_iff.1 hi
  obtain ⟨hjlt, hj⟩ := List.getElem?_eq_some_iff.1 hj
  have hd := List.pairwise_iff_getElem.1 hdist
  rcases Nat.lt_trichotomy i j with hlt | heq | hlt
  · exact absurd (hi.trans hj.symm) (hd i j hilt hjlt hlt (hj ▸ hne))
  · exact heq
  · exact absurd (hj.trans hi.symm) (hd j i hjlt hilt hlt (hi ▸ hne))

-- ===================================================== the list of nodes

/-- The base names of the nodes. -/
def nodeBases (nodes : List BootPartsNode) : List (List CHAR16) :=
  nodes.map fun n => cstr n.name

/-- What `StrnCpyS` copies of a name that the field has room for. -/
theorem strnCpyS_partName {searchString : List CHAR16}
    (h : (cstr searchString).length ≤ 35) :
    (strnCpyS [] (2 * bootPartSize) searchString
      (strLen searchString - 2)).2
        = (cstr searchString).take ((cstr searchString).length - 2) := by
  unfold strnCpyS strLen bootPartSize
  rw [if_neg (by omega)]

/-- A node holds the name without its last two characters. -/
theorem cstr_newNode (addr : UINT64) {searchString : List CHAR16}
    (nodes : List BootPartsNode) (h : (cstr searchString).length ≤ 33) :
    cstr (newNode addr searchString nodes).name
      = (cstr searchString).take ((cstr searchString).length - 2) := by
  unfold newNode BootPartsNode.name
  dsimp only
  rw [strnCpyS_partName (by omega)]
  generalize hb : (cstr searchString).take ((cstr searchString).length - 2)
    = base
  have hlen : base.length ≤ 31 := by
    rw [← hb, List.length_take]
    omega
  have hnz : ∀ x ∈ base, x ≠ 0 := by
    intro x hx
    rw [← hb] at hx
    exact ne_zero_of_mem_cstr (List.mem_of_mem_take hx)
  obtain ⟨k, hk⟩ : ∃ k, bootPartSize - base.length = k + 1 :=
    ⟨31 - base.length, by unfold bootPartSize; omega⟩
  rw [List.take_append,
    List.take_of_length_le (by unfold bootPartSize; omega),
    List.take_replicate, hk,
    Nat.min_eq_left (by unfold bootPartSize at *; omega),
    List.replicate_succ, List.append_assoc, List.cons_append]
  exact cstr_append_zero hnz _

/-- A longer base fills `PartName`, and reading it runs on. -/
theorem le_cstr_newNode (addr : UINT64) {searchString : List CHAR16}
    (nodes : List BootPartsNode) (h : 34 ≤ (cstr searchString).length)
    (hfield : (cstr searchString).length ≤ 35) :
    32 ≤ (cstr (newNode addr searchString nodes).name).length := by
  unfold newNode BootPartsNode.name
  dsimp only
  rw [strnCpyS_partName hfield]
  generalize hb : (cstr searchString).take ((cstr searchString).length - 2)
    = base
  have hlen : 32 ≤ base.length := by
    rw [← hb, List.length_take]
    omega
  have hnz : ∀ x ∈ base.take bootPartSize, x ≠ 0 := by
    intro x hx
    have hx := List.mem_of_mem_take hx
    rw [← hb] at hx
    exact ne_zero_of_mem_cstr (List.mem_of_mem_take hx)
  rw [List.take_append_of_le_length (by unfold bootPartSize; omega),
    cstr_append hnz, List.length_append, List.length_take]
  unfold bootPartSize
  omega

/-- What `GetMultiSlotPartsList` puts in front of the list, as far as `f`
tells. -/
theorem multiSlotParts_map {β : Type} (f : List CHAR16 → β) (env : Env)
    {ps : List PartitionEntry} {s : St}
    (hf : ∀ p ∈ ps, ∀ addr nodes,
      f (cstr (newNode addr p.name nodes).name)
        = f ((cstr p.name).take ((cstr p.name).length - 2)))
    (hok : (multiSlotParts env ps s).1 = efiSuccess) :
    (nodeBases (multiSlotParts env ps s).2.headNode).map f
      = (pairBases (names ps)).reverse.map f
        ++ (nodeBases s.headNode).map f := by
  induction ps generalizing s with
  | nil => rfl
  | cons p ps ih =>
      have hf' := fun q hq => hf q (List.mem_cons_of_mem p hq)
      have hany := any_isOtherSlot p.name ps
      have hnames : names (p :: ps) = cstr p.name :: names ps := rfl
      rw [hnames]
      unfold multiSlotParts at hok ⊢
      unfold pairBases
      by_cases hempty : cstr p.name = []
      · rw [if_pos ((headD_eq_zero_iff _).mpr hempty)] at hok ⊢
        rw [if_neg fun hcon => hcon.1 hempty]
        exact ih hf' hok
      · have hhead := fun hcon => hempty ((headD_eq_zero_iff _).mp hcon)
        rw [if_neg hhead] at hok ⊢
        by_cases hpair : ps.any (isOtherSlot p.name) = true
        · rw [if_pos hpair] at hok ⊢
          have hcons : cstr p.name ≠ [] ∧ (names ps).any
              (isOtherName (cstr p.name)) = true :=
            ⟨hempty, hany.symm.trans hpair⟩
          rw [if_pos hcons, List.reverse_cons, List.map_append,
            List.append_assoc]
          dsimp only at hok ⊢
          split at hok
          next haddr =>
            exact absurd hok (show efiOutOfResources ≠ efiSuccess by decide)
          next haddr =>
            have hnode := hf p List.mem_cons_self
              (env.nodeAddr s.nodeTick) s.headNode
            rw [if_neg haddr, ih hf' hok]
            unfold nodeBases
            rw [List.map_cons, List.map_cons, hnode]
            rfl
        · rw [if_neg hpair] at hok ⊢
          rw [if_neg fun hcon => hpair (hany.trans hcon.2)]
          exact ih hf' hok

/-- The list holds the bases, the last collected one first. -/
theorem multiSlotParts_bases (env : Env) {ps : List PartitionEntry} {s : St}
    (hshort : ∀ p ∈ ps, (cstr p.name).length ≤ 31)
    (hok : (multiSlotParts env ps s).1 = efiSuccess) :
    nodeBases (multiSlotParts env ps s).2.headNode
      = (pairBases (names ps)).reverse ++ nodeBases s.headNode := by
  have hmap := multiSlotParts_map id env (fun p hp addr nodes =>
    cstr_newNode addr nodes ((hshort p hp).trans (by decide))) hok
  rwa [List.map_id, List.map_id, List.map_id] at hmap

-- ============================================================ the search

/-- The base that the two names are built of: the copy is refused for a
base of 32 characters or more, either suffix after one of 30 or 31. -/
def builtBase (base : List CHAR16) : Option (List CHAR16) :=
  if base.length ≤ 29 then some base
  else if base.length ≤ 31 then none
  else some []

/-- A base that fits its buffers is built as it is. -/
theorem builtBase_short {base : List CHAR16} (h : base.length ≤ 29) :
    builtBase base = some base := if_pos h

/-- The suffix after a name that has been copied. -/
theorem strnCatS_suffix (name : List CHAR16) (x : Side) :
    strnCatS name bootPartSize x.slot.suffix (strLen x.slot.suffix)
      = if (cstr name).length ≤ 29 then
          (efiSuccess, cstr name ++ x.slot.suffix)
        else (efiBufferTooSmall, name) := by
  have h2 : strLen x.slot.suffix = 2 := by cases x <;> rfl
  have hcat : (cstr x.slot.suffix).take 2 = x.slot.suffix := by
    cases x <;> rfl
  unfold strnCatS
  dsimp only
  rw [h2, hcat, show strLen name = (cstr name).length from rfl]
  unfold bootPartSize
  by_cases h : (cstr name).length ≤ 29
  · rw [if_neg (by omega), if_pos h]
  · rw [if_pos (by omega), if_neg h]

/-- The copy of a base. -/
theorem strnCpyS_base (base : List CHAR16) :
    strnCpyS [] bootPartSize base (strLen base)
      = if (cstr base).length ≤ 31 then (efiSuccess, cstr base)
        else (efiBufferTooSmall, []) := by
  unfold strnCpyS strLen bootPartSize
  by_cases h : (cstr base).length ≤ 31
  · rw [if_neg (by omega), if_pos h, List.take_length]
  · rw [if_pos (by omega), if_neg h]

/-- The two full names `SwitchPtnSlots` builds from a node. -/
theorem slotName_eq (base : List CHAR16) (x : Side) :
    slotName base x.slot.suffix
      = match builtBase (cstr base) with
        | some b => b ++ x.slot.suffix
        | none => cstr base := by
  unfold slotName builtBase
  dsimp only
  rw [strnCatS_suffix, strnCpyS_base]
  by_cases h31 : (cstr base).length ≤ 31
  · rw [if_pos h31, cstr_cstr]
    by_cases h29 : (cstr base).length ≤ 29
    · rw [if_pos h29, if_pos h29]
    · rw [if_neg h29, if_neg h29, if_pos h31]
  · rw [if_neg h31, if_pos (by decide), if_neg (by omega), if_neg h31]
    rfl

/-- The index of the last name that begins with `n`, the list starting at
index `k`. -/
def lastPrefix (n : List CHAR16) : List (List CHAR16) → Nat → Option Nat
  | [], _ => none
  | m :: ms, k =>
      (lastPrefix n ms (k + 1)).or (if n <+: m then some k else none)

/-- The entries found for a base, that of slot `x` first. -/
def foundPair (ns : List (List CHAR16)) (x : Side) (base : List CHAR16) :
    Option (Nat × Nat) :=
  match lastPrefix (base ++ x.slot.suffix) ns 0,
    lastPrefix (base ++ x.other.slot.suffix) ns 0 with
  | some i, some j => some (i, j)
  | _, _ => none

theorem lastPrefix_cons (n m : List CHAR16) (ms : List (List CHAR16))
    (k : Nat) :
    lastPrefix n (m :: ms) k
      = (lastPrefix n ms (k + 1)).or (if n <+: m then some k else none) :=
  rfl

/-- What is found begins with the name searched for. -/
theorem lastPrefix_some {n : List CHAR16} {ms : List (List CHAR16)}
    {k l : Nat} (h : lastPrefix n ms k = some l) :
    ∃ m, k ≤ l ∧ ms[l - k]? = some m ∧ n <+: m := by
  induction ms generalizing k with
  | nil => cases h
  | cons m ms ih =>
      rw [lastPrefix_cons] at h
      rcases Option.or_eq_some_iff.1 h with hlater | ⟨-, hhere⟩
      · obtain ⟨m', hk, hget, hpre⟩ := ih hlater
        refine ⟨m', by omega, ?_, hpre⟩
        rw [show l - k = (l - (k + 1)) + 1 by omega, List.getElem?_cons_succ]
        exact hget
      · split at hhere
        next hpre =>
          cases hhere
          exact ⟨m, Nat.le_refl _, by rw [Nat.sub_self]; rfl, hpre⟩
        next => cases hhere

/-- A name that some entry begins with is found. -/
theorem lastPrefix_isSome {n m : List CHAR16} {ms : List (List CHAR16)}
    (k : Nat) (hm : m ∈ ms) (h : n <+: m) :
    ∃ l, lastPrefix n ms k = some l := by
  induction ms generalizing k with
  | nil => cases hm
  | cons m' ms ih =>
      rw [lastPrefix_cons]
      cases hm with
      | head =>
          rw [if_pos h]
          cases lastPrefix n ms (k + 1) with
          | none => exact ⟨k, rfl⟩
          | some l => exact ⟨l, rfl⟩
      | tail _ hm =>
          obtain ⟨l, hl⟩ := ih (k + 1) hm
          rw [hl]
          exact ⟨l, rfl⟩

/-- The entries found begin with the names of the two slots. -/
theorem foundPair_some {ns : List (List CHAR16)} {x : Side}
    {base : List CHAR16} {p : Nat × Nat} (h : foundPair ns x base = some p) :
    (∃ m, ns[p.1]? = some m ∧ base ++ x.slot.suffix <+: m)
      ∧ ∃ m, ns[p.2]? = some m ∧ base ++ x.other.slot.suffix <+: m := by
  unfold foundPair at h
  split at h
  next i j hi hj =>
    cases h
    obtain ⟨m, -, hm, hpre⟩ := lastPrefix_some hi
    obtain ⟨m', -, hm', hpre'⟩ := lastPrefix_some hj
    exact ⟨⟨m, hm, hpre⟩, m', hm', hpre'⟩
  next => cases h

/-- Where both slots have the base, entries are found. -/
theorem foundPair_of_both {ns : List (List CHAR16)} {b : List CHAR16}
    (h : ∀ x : Side, b ++ x.slot.suffix ∈ ns) (x : Side) :
    ∃ p, foundPair ns x b = some p := by
  obtain ⟨i, hi⟩ := lastPrefix_isSome 0 (h x) (List.prefix_refl _)
  obtain ⟨j, hj⟩ := lastPrefix_isSome 0 (h x.other) (List.prefix_refl _)
  refine ⟨(i, j), ?_⟩
  unfold foundPair
  rw [hi, hj]

/-- Both orders of the slots find the same pair. -/
theorem foundPair_other (ns : List (List CHAR16)) (x : Side)
    (base : List CHAR16) :
    foundPair ns x.other base = (foundPair ns x base).map Prod.swap := by
  unfold foundPair
  rw [x.other_other]
  cases lastPrefix (base ++ x.slot.suffix) ns 0 with
  | none =>
      cases lastPrefix (base ++ x.other.slot.suffix) ns 0 with
      | none => rfl
      | some j => rfl
  | some i =>
      cases lastPrefix (base ++ x.other.slot.suffix) ns 0 with
      | none => rfl
      | some j => rfl

/-- A name has one character after a base. -/
theorem not_both_begin {base m : List CHAR16} {x : Side}
    (h : base ++ x.slot.suffix <+: m) :
    ¬ base ++ x.other.slot.suffix <+: m := by
  intro h'
  have hlen : (base ++ x.slot.suffix).length
      = (base ++ x.other.slot.suffix).length := by
    rw [slotted_length, slotted_length]
  have heq := List.prefix_of_prefix_length_le h h' (Nat.le_of_eq hlen)
  have hall := heq.eq_of_length hlen
  exact x.other_ne (slotted_inj.1 hall).2.symm

/-- The search of `SwitchPtnSlots` is two searches in one. -/
theorem findPair_foldl_lastPrefix {x : Side} {base : List CHAR16}
    (hbase : ∀ y : Side, cstr (base ++ y.slot.suffix)
      = base ++ y.slot.suffix)
    (t : List PartitionEntry) (k : Nat) (acc : Option Nat × Option Nat) :
    (t.zipIdx k).foldl (fun (cur, new) (p, i) =>
      if strnCmp p.name (base ++ x.slot.suffix)
          (strLen (base ++ x.slot.suffix)) = 0 then (some i, new)
      else if strnCmp p.name (base ++ x.other.slot.suffix)
          (strLen (base ++ x.other.slot.suffix)) = 0 then (cur, some i)
      else (cur, new)) acc
      = ((lastPrefix (base ++ x.slot.suffix) (names t) k).or acc.1,
        (lastPrefix (base ++ x.other.slot.suffix) (names t) k).or acc.2)
    := by
  induction t generalizing k acc with
  | nil => rfl
  | cons p t ih =>
      have hnames : names (p :: t) = cstr p.name :: names t := rfl
      rw [List.zipIdx_cons, List.foldl_cons, ih, hnames, lastPrefix_cons,
        lastPrefix_cons]
      simp only [strnCmp_strLen_eq_zero_iff, hbase, Option.or_assoc]
      by_cases hx : base ++ x.slot.suffix <+: cstr p.name
      · rw [if_pos hx, if_pos hx, if_neg (not_both_begin hx)]
        rfl
      · rw [if_neg hx, if_neg hx]
        by_cases hy : base ++ x.other.slot.suffix <+: cstr p.name
        · rw [if_pos hy, if_pos hy]
          rfl
        · rw [if_neg hy, if_neg hy]
          rfl

/-- The two searches of the code find the last prefixes. -/
theorem findPair_lastPrefix {base : List CHAR16} (hbase : cstr base = base)
    (x : Side) (t : List PartitionEntry) :
    findPair (base ++ x.slot.suffix) (base ++ x.other.slot.suffix) t
      = (lastPrefix (base ++ x.slot.suffix) (names t) 0,
        lastPrefix (base ++ x.other.slot.suffix) (names t) 0) := by
  unfold findPair
  rw [findPair_foldl_lastPrefix (cstr_slotted hbase) t 0 (none, none),
    Option.or_none, Option.or_none]

-- ========================================================== the exchange

theorem guidAtIndex_eq (t : List PartitionEntry) (k : Nat) :
    guidAtIndex t k = ((t[k]?).map fun p =>
      p.partEntry.partitionTypeGuid).getD EfiGuid.zero := by
  unfold guidAtIndex
  rw [List.getD_eq_getElem?_getD]
  cases t[k]? with
  | none => rfl
  | some p => rfl

/-- One entry's type GUID is replaced. -/
theorem guidAtIndex_modify {t : List PartitionEntry} {i : Nat}
    (hi : i < t.length) (g : EfiGuid) (k : Nat) :
    guidAtIndex (t.modify i (PartitionEntry.withGuid g)) k
      = if k = i then g else guidAtIndex t k := by
  rw [guidAtIndex_eq, guidAtIndex_eq, List.getElem?_modify]
  by_cases hk : k = i
  · rw [if_pos hk, hk, List.getElem?_eq_getElem hi]
    simp [PartitionEntry.withGuid]
  · rw [if_neg hk]
    cases t[k]? with
    | none => rfl
    | some p => simp [Ne.symm hk]

/-- Two entries' type GUIDs change places. -/
theorem guidAtIndex_swap {t : List PartitionEntry} {i j : Nat}
    (hi : i < t.length) (hj : j < t.length) (k : Nat) :
    guidAtIndex (swapPtnGuid (some i) (some j) t) k
      = guidAtIndex t (Equiv.swap i j k) := by
  have hj' : j < (t.modify i (PartitionEntry.withGuid
      (guidAtIndex t j))).length := by
    rw [List.length_modify]
    exact hj
  unfold swapPtnGuid
  dsimp only
  rw [guidAtIndex_modify hj', guidAtIndex_modify hi,
    swap_update (guidAtIndex t)]

/-- The inactive suffix is that of the other slot. -/
theorem inactiveSuffix_eq (x : Side) :
    inactiveSuffix x.slot.suffix = x.other.slot.suffix := by
  cases x <;> rfl

/-- The exchange of a pair, where both are found. -/
theorem swapPtnGuid_foundPair (x : Side) (base : List CHAR16)
    (t : List PartitionEntry) :
    swapPtnGuid (lastPrefix (base ++ x.slot.suffix) (names t) 0)
        (lastPrefix (base ++ x.other.slot.suffix) (names t) 0) t
      = match foundPair (names t) x base with
        | none => t
        | some p => swapPtnGuid (some p.1) (some p.2) t := by
  unfold foundPair
  cases lastPrefix (base ++ x.slot.suffix) (names t) 0 with
  | none => rfl
  | some i =>
      cases lastPrefix (base ++ x.other.slot.suffix) (names t) 0 with
      | none => rfl
      | some j => rfl

/-- What is found is in the table. -/
theorem foundPair_lt {t : List PartitionEntry} {x : Side}
    {base : List CHAR16} {p : Nat × Nat}
    (h : foundPair (names t) x base = some p) :
    p.1 < t.length ∧ p.2 < t.length := by
  obtain ⟨⟨m, hm, -⟩, m', hm', -⟩ := foundPair_some h
  have hlen := length_names t
  have h1 := (List.getElem?_eq_some_iff.1 hm).1
  have h2 := (List.getElem?_eq_some_iff.1 hm').1
  exact ⟨by omega, by omega⟩

/-- Searching for one name twice finds nothing the second time. -/
theorem findPair_same (n : List CHAR16) (t : List PartitionEntry) :
    (findPair n n t).2 = none := by
  have hfold : ∀ (l : List (PartitionEntry × Nat))
      (acc : Option Nat × Option Nat), acc.2 = none →
      (l.foldl (fun (cur, new) (p, i) =>
        if strnCmp p.name n (strLen n) = 0 then (some i, new)
        else if strnCmp p.name n (strLen n) = 0 then (cur, some i)
        else (cur, new)) acc).2 = none := by
    intro l
    induction l with
    | nil => exact fun acc h => h
    | cons q l ih =>
        intro acc h
        rw [List.foldl_cons]
        apply ih
        dsimp only
        split
        · exact h
        · exact h
  exact hfold t.zipIdx (none, none) rfl

/-- Without the second entry nothing is exchanged. -/
theorem swapPtnGuid_none (p1 : Option Nat) (t : List PartitionEntry) :
    swapPtnGuid p1 none t = t := by
  cases p1 with
  | none => rfl
  | some i => rfl

/-- The entries found for a base as it is stored in a node. -/
def builtPair (ns : List (List CHAR16)) (x : Side) (base : List CHAR16) :
    Option (Nat × Nat) :=
  (builtBase base).bind (foundPair ns x)

/-- A short base is searched for under its own name. -/
theorem builtPair_short {base : List CHAR16} (h : base.length ≤ 29)
    (ns : List (List CHAR16)) (x : Side) :
    builtPair ns x base = foundPair ns x base := by
  unfold builtPair
  rw [builtBase_short h]
  rfl

/-- One turn of the loop. -/
theorem swapPairs_singleton (x : Side) (n : BootPartsNode)
    (t : List PartitionEntry) :
    swapPairs x.other.slot.suffix x.slot.suffix [n] t
      = match builtPair (names t) x.other (cstr n.name) with
        | none => t
        | some p => swapPtnGuid (some p.1) (some p.2) t := by
  have hbuilt : ∀ b, builtBase (cstr n.name) = some b → cstr b = b := by
    intro b hb
    unfold builtBase at hb
    split at hb
    · cases hb
      exact cstr_cstr n.name
    split at hb
    · cases hb
    · cases hb
      rfl
  unfold swapPairs builtPair
  rw [List.foldl_cons, List.foldl_nil, slotName_eq, slotName_eq]
  cases hb : builtBase (cstr n.name) with
  | none =>
      dsimp only
      rw [findPair_same, swapPtnGuid_none]
      rfl
  | some b =>
      have hfind := findPair_lastPrefix (hbuilt b hb) x.other t
      have hguid := swapPtnGuid_foundPair x.other b t
      rw [x.other_other] at hfind hguid
      dsimp only
      rw [hfind, hguid]
      rfl

/-- The loop over the nodes, on the GUIDs, whatever the names are. -/
theorem swapPairs_built (x : Side) (nodes : List BootPartsNode)
    (t : List PartitionEntry) (k : Nat) :
    guidAtIndex (swapPairs (inactiveSuffix x.slot.suffix) x.slot.suffix
        nodes t) k
      = guidAtIndex t (swaps ((nodeBases nodes).filterMap
          (builtPair (names t) x.other)) k) := by
  rw [inactiveSuffix_eq]
  induction nodes generalizing t with
  | nil => rfl
  | cons n nodes ih =>
      have hturn : swapPairs x.other.slot.suffix x.slot.suffix (n :: nodes) t
          = swapPairs x.other.slot.suffix x.slot.suffix nodes
            (swapPairs x.other.slot.suffix x.slot.suffix [n] t) := rfl
      have hcons : nodeBases (n :: nodes) = cstr n.name :: nodeBases nodes :=
        rfl
      rw [hturn, swapPairs_singleton, hcons, ih]
      cases hf : builtPair (names t) x.other (cstr n.name) with
      | none => rw [List.filterMap_cons_none hf]
      | some p =>
          obtain ⟨b, -, hb⟩ := Option.bind_eq_some_iff.1 hf
          obtain ⟨h1, h2⟩ := foundPair_lt hb
          have hnames := (swapPtnGuid_guids (some p.1) (some p.2)
            t).names.names_eq
          rw [List.filterMap_cons_some hf]
          dsimp only
          rw [hnames, guidAtIndex_swap h1 h2]
          rfl

/-- The same where every name can be built. -/
theorem swapPairs_found (x : Side) (nodes : List BootPartsNode)
    (hshort : ∀ b ∈ nodeBases nodes, b.length ≤ 29)
    (t : List PartitionEntry) (k : Nat) :
    guidAtIndex (swapPairs (inactiveSuffix x.slot.suffix) x.slot.suffix
        nodes t) k
      = guidAtIndex t (swaps ((nodeBases nodes).filterMap
          (foundPair (names t) x.other)) k) := by
  have hsame : (nodeBases nodes).filterMap (builtPair (names t) x.other)
      = (nodeBases nodes).filterMap (foundPair (names t) x.other) :=
    List.filterMap_congr fun b hb =>
      builtPair_short (hshort b hb) (names t) x.other
  rw [swapPairs_built, hsame]

end Edk2Exynos.BootSlot
