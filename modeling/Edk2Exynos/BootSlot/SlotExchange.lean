/-
One `SwitchPtnSlots` on a table of any names.

The exchange is the permutation of the pairs found, one for each time a
base was collected (`exchanges`). On tidy names (`PairedNames`) this is
the exchange of the slots.

# When it is the exchange of the slots

`ExchangesSlots` says it of the table, and `switchPtnSlots_exchanges_slots`
that it is exact. `SlotNames` says it of the names alone: no entry is found
for two bases, a base is collected an odd number of times exactly if both
of its names exist, and then they are what is found. This is enough on
every table, and needed where no entry is found for two bases and no equal
GUIDs hide a wrong exchange.
-/
import Edk2Exynos.BootSlot.SlotSwap

namespace Edk2Exynos.BootSlot

open Lib

-- ============================================================== the list

/-- A base is a name without its last two characters. -/
theorem mem_pairBases_take {ns : List (List CHAR16)} {base : List CHAR16}
    (h : base ∈ pairBases ns) : ∃ n ∈ ns, base = n.take (n.length - 2) := by
  induction ns with
  | nil => cases h
  | cons n ns ih =>
      unfold pairBases at h
      split at h
      next =>
        rcases List.mem_cons.1 h with rfl | h
        · exact ⟨n, List.mem_cons_self, rfl⟩
        · obtain ⟨m, hm, heq⟩ := ih h
          exact ⟨m, List.mem_cons_of_mem n hm, heq⟩
      next =>
        obtain ⟨m, hm, heq⟩ := ih h
        exact ⟨m, List.mem_cons_of_mem n hm, heq⟩

/-- A base with both names is collected, at the first of them. -/
theorem mem_pairBases_of_both {ns : List (List CHAR16)}
    {base : List CHAR16} (h : ∀ x : Side, base ++ x.slot.suffix ∈ ns) :
    base ∈ pairBases ns := by
  induction ns with
  | nil => exact absurd (h .a) List.not_mem_nil
  | cons n ns ih =>
      unfold pairBases
      by_cases hn : ∃ x : Side, n = base ++ x.slot.suffix
      · obtain ⟨x, rfl⟩ := hn
        have hother : base ++ x.other.slot.suffix ∈ ns := by
          rcases List.mem_cons.1 (h x.other) with heq | hmem
          · exact absurd (slotted_inj.1 heq).2 x.other_ne
          · exact hmem
        rw [if_pos ⟨slotted_ne_nil _ _, List.any_eq_true.2
          ⟨_, hother, isOtherName_slotted base x x.other⟩⟩, slotted_take]
        exact List.mem_cons_self
      · have hmem : base ∈ pairBases ns := by
          apply ih
          intro x
          rcases List.mem_cons.1 (h x) with heq | hmem
          · exact absurd ⟨x, heq.symm⟩ hn
          · exact hmem
        split
        next => exact List.mem_cons_of_mem _ hmem
        next => exact hmem

/-- `GetMultiSlotPartsList` succeeds when it gets memory for each base it
collects. -/
theorem multiSlotParts_ok_iff (env : Env) (ps : List PartitionEntry)
    (s : St) :
    (multiSlotParts env ps s).1 = efiSuccess
      ↔ ∀ m, m < (pairBases (names ps)).length →
        env.nodeAddr (s.nodeTick + m) ≠ 0 := by
  induction ps generalizing s with
  | nil => exact iff_of_true rfl fun m hm => absurd hm (Nat.not_lt_zero m)
  | cons p ps ih =>
      have hany := any_isOtherSlot p.name ps
      have hnames : names (p :: ps) = cstr p.name :: names ps := rfl
      rw [hnames]
      unfold multiSlotParts pairBases
      by_cases hempty : cstr p.name = []
      · rw [if_pos ((headD_eq_zero_iff _).2 hempty),
          if_neg fun hcon => hcon.1 hempty]
        exact ih s
      · rw [if_neg fun hcon => hempty ((headD_eq_zero_iff _).1 hcon)]
        by_cases hpair : ps.any (isOtherSlot p.name) = true
        · have hcons : cstr p.name ≠ [] ∧ (names ps).any
              (isOtherName (cstr p.name)) = true :=
            ⟨hempty, hany.symm.trans hpair⟩
          rw [if_pos hpair, if_pos hcons, List.length_cons]
          dsimp only
          split
          next haddr =>
            refine iff_of_false (show efiOutOfResources ≠ efiSuccess by
              decide) fun hall => ?_
            exact hall 0 (Nat.succ_pos _) haddr
          next haddr =>
            rw [ih]
            dsimp only
            constructor
            · intro hall m hm
              cases m with
              | zero => exact haddr
              | succ m =>
                  have hm' := hall m (by omega)
                  rwa [Nat.add_assoc, Nat.add_comm 1 m] at hm'
            · intro hall m hm
              rw [Nat.add_assoc, Nat.add_comm 1 m]
              exact hall (m + 1) (by omega)
        · rw [if_neg hpair, if_neg fun hcon =>
            hpair (hany.trans hcon.2)]
          exact ih s

-- ============================================================== one call

/-- The exchanges of a call, last base collected first. -/
def exchanges (ns : List (List CHAR16)) : List (Nat × Nat) :=
  (pairBases ns).reverse.filterMap (foundPair ns .a)

/-- There is memory for the list. -/
def NodesAllocated (env : Env) (s : St) : Prop :=
  ∀ m, m < (pairBases (names s.ptnEntries)).length →
    env.nodeAddr (s.nodeTick + m) ≠ 0

/-- The sample has memory for 128 bases. -/
theorem sampleEnv_allocated {s : St} (htick : s.nodeTick = 0)
    (hlen : (pairBases (names s.ptnEntries)).length ≤ 128) :
    NodesAllocated sampleEnv s := by
  intro m hm heq
  have haddr : (4096 + 128 * (s.nodeTick + m)) % 2 ^ 64 = 0 :=
    congrArg BitVec.toNat heq
  omega

/-- The exchanges of a call, whatever the length of the names. -/
def builtExchanges (ns : List (List CHAR16)) : List (Nat × Nat) :=
  (pairBases ns).reverse.filterMap (builtPair ns .a)

/-- Seen from the other slot the pair is the other way round. -/
theorem builtPair_other (ns : List (List CHAR16)) (x : Side)
    (base : List CHAR16) :
    builtPair ns x.other base = (builtPair ns x base).map Prod.swap := by
  unfold builtPair
  rw [Option.map_bind]
  exact congrArg _ (funext (foundPair_other ns x))

/-- A base in a node that is too short to run on is what was collected,
and no base that runs on can be built. -/
theorem builtPair_newNode (ns : List (List CHAR16)) (x : Side)
    {searchString : List CHAR16} (h : (cstr searchString).length ≤ 35)
    (addr : UINT64) (nodes : List BootPartsNode) :
    builtPair ns x (cstr (newNode addr searchString nodes).name)
      = builtPair ns x
        ((cstr searchString).take ((cstr searchString).length - 2)) := by
  by_cases hshort : (cstr searchString).length ≤ 33
  · rw [cstr_newNode addr nodes hshort]
  · have hlong : ∀ b : List CHAR16, 32 ≤ b.length →
        builtBase b = some [] := by
      intro b hb
      unfold builtBase
      rw [if_neg (by omega), if_neg (by omega)]
    unfold builtPair
    rw [hlong _ (le_cstr_newNode addr nodes (by omega) h), hlong _ ?_]
    rw [List.length_take]
    omega

/-- The entries found for the nodes of a new list. -/
theorem multiSlotParts_builtPairs (ns : List (List CHAR16)) (x : Side)
    {env : Env} {ps : List PartitionEntry} {s : St}
    (hfield : ∀ n ∈ names ps, n.length ≤ 35) (hnil : s.headNode = [])
    (hok : (multiSlotParts env ps s).1 = efiSuccess) :
    (nodeBases (multiSlotParts env ps s).2.headNode).filterMap
        (builtPair ns x)
      = (pairBases (names ps)).reverse.filterMap (builtPair ns x) := by
  have hmap := multiSlotParts_map (builtPair ns x) env
    (fun p hp => builtPair_newNode ns x
      (hfield _ (List.mem_map_of_mem hp))) hok
  rw [hnil, show nodeBases [] = [] from rfl, List.map_nil,
    List.append_nil] at hmap
  have hsome : ∀ l : List (List CHAR16), l.filterMap (builtPair ns x)
      = (l.map (builtPair ns x)).filterMap id := by
    intro l
    rw [List.filterMap_map, Function.id_comp]
  rw [hsome, hmap, ← hsome]

/-- What a call does to the GUIDs. -/
theorem switchPtnSlots_built (env : Env) (x : Side) (s : St)
    (hfield : ∀ n ∈ names s.ptnEntries, n.length ≤ 35)
    (hnil : s.headNode = []) :
    (¬ NodesAllocated env s →
      (switchPtnSlots env x.slot.suffix s).ptnEntries = s.ptnEntries)
    ∧ (NodesAllocated env s → ∀ k,
      guidAtIndex (switchPtnSlots env x.slot.suffix s).ptnEntries k
        = guidAtIndex s.ptnEntries
          (swaps (builtExchanges (names s.ptnEntries)) k)) := by
  obtain ⟨-, hent⟩ := switchPtnSlots_eq env x.slot.suffix s
  have hlist : pairList env s = multiSlotParts env s.ptnEntries s := by
    unfold pairList
    rw [if_pos hnil]
    rfl
  have hok := multiSlotParts_ok_iff env s.ptnEntries s
  rw [hent, hlist]
  constructor
  · intro hno
    rw [if_pos fun hcon => hno (hok.1 hcon)]
  · intro hyes k
    have hsucc := hok.2 hyes
    have hfound := multiSlotParts_builtPairs (names s.ptnEntries) x.other
      hfield hnil hsucc
    rw [if_neg (not_not.2 hsucc), swapPairs_built, hfound]
    cases x with
    | b => rfl
    | a =>
        have hmap : (pairBases (names s.ptnEntries)).reverse.filterMap
            (builtPair (names s.ptnEntries) Side.a.other)
              = (builtExchanges (names s.ptnEntries)).map Prod.swap := by
          unfold builtExchanges
          rw [List.map_filterMap]
          exact List.filterMap_congr fun b _ => builtPair_other _ .a b
        rw [hmap, swaps_map_swap]

/-- With short bases the names built are the names searched for. -/
theorem builtExchanges_short {ns : List (List CHAR16)}
    (h : ∀ b ∈ pairBases ns, b.length ≤ 29) :
    builtExchanges ns = exchanges ns := by
  unfold builtExchanges exchanges
  refine List.filterMap_congr fun b hb => ?_
  exact builtPair_short (h b (List.mem_reverse.1 hb)) ns .a

/-- The same where every name can be built. -/
theorem switchPtnSlots_exchanges (env : Env) (x : Side) (s : St)
    (hshort : ∀ n ∈ names s.ptnEntries, n.length ≤ 31)
    (hnil : s.headNode = []) :
    (¬ NodesAllocated env s →
      (switchPtnSlots env x.slot.suffix s).ptnEntries = s.ptnEntries)
    ∧ (NodesAllocated env s → ∀ k,
      guidAtIndex (switchPtnSlots env x.slot.suffix s).ptnEntries k
        = guidAtIndex s.ptnEntries
          (swaps (exchanges (names s.ptnEntries)) k)) := by
  have hbases : ∀ b ∈ pairBases (names s.ptnEntries), b.length ≤ 29 := by
    intro b hb
    obtain ⟨n, hn, rfl⟩ := mem_pairBases_take hb
    have hlen := hshort n hn
    rw [List.length_take]
    omega
  rw [← builtExchanges_short hbases]
  exact switchPtnSlots_built env x s
    (fun n hn => (hshort n hn).trans (by decide)) hnil

-- ======================================================= which names work

/-- Both slots of a base are in the table. -/
def BothSlots (ns : List (List CHAR16)) (base : List CHAR16) : Prop :=
  ∀ x : Side, base ++ x.slot.suffix ∈ ns

/-- The entry is a slot whose other slot exists. -/
def HasOther (ns : List (List CHAR16)) (k : Nat) : Prop :=
  ∃ (x : Side) (base : List CHAR16),
    ns[k]? = some (base ++ x.slot.suffix) ∧ BothSlots ns base

/-- No entry is found for two of the bases collected. -/
def FoundApart (ns : List (List CHAR16)) : Prop :=
  ∀ b ∈ pairBases ns, ∀ c ∈ pairBases ns, b ≠ c → ∀ p q,
    foundPair ns .a b = some p → foundPair ns .a c = some q → Apart p q

/-- The names by which the search and the list come to the slots. -/
structure SlotNames (ns : List (List CHAR16)) : Prop where
  apart : FoundApart ns
  odd : ∀ b ∈ pairBases ns, (foundPair ns .a b).isSome →
    ((pairBases ns).count b % 2 = 1 ↔ BothSlots ns b)
  exact : ∀ b, BothSlots ns b → ∀ i j, foundPair ns .a b = some (i, j) →
    ns[i]? = some (b ++ suffixA) ∧ ns[j]? = some (b ++ suffixB)

section Names

variable {ns : List (List CHAR16)}

/-- Two names with a base and its two suffixes as prefixes, if they are
slots of one base, are those of this one. -/
theorem base_eq_of_begins {b c : List CHAR16} {x y z : Side}
    (h : b ++ y.slot.suffix <+: c ++ x.slot.suffix)
    (h' : b ++ y.other.slot.suffix <+: c ++ z.slot.suffix) : b = c := by
  have hle := h.length_le
  rw [slotted_length, slotted_length] at hle
  rcases Nat.lt_or_ge b.length c.length with hlt | hge
  · -- the suffix of `b` would end before that of `c` begins to differ
    exfalso
    have htake : ∀ w : Side, (c ++ w.slot.suffix).take (b.length + 2)
        = (c ++ [0x5f]).take (b.length + 2) := by
      intro w
      have hone : (c ++ w.slot.suffix).take (c.length + 1) = c ++ [0x5f] := by
        rw [List.take_length_add_append]
        cases w <;> rfl
      rw [← hone, List.take_take, Nat.min_eq_left (by omega)]
    have h1 := List.prefix_iff_eq_take.1 h
    have h2 := List.prefix_iff_eq_take.1 h'
    rw [slotted_length, htake] at h1 h2
    exact y.other_ne (slotted_inj.1 (h1.trans h2.symm)).2.symm
  · have heq := h.eq_of_length
      (by rw [slotted_length, slotted_length]; omega)
    exact (slotted_inj.1 heq).1

/-- Names in the table are names of both slots. -/
theorem bothSlots_of_getElem {base : List CHAR16} {i j : Nat}
    (hi : ns[i]? = some (base ++ suffixA))
    (hj : ns[j]? = some (base ++ suffixB)) : BothSlots ns base := by
  intro x
  cases x with
  | a => exact List.mem_of_getElem? hi
  | b => exact List.mem_of_getElem? hj

/-- An exchange is one of a base for which both entries are found. -/
theorem mem_exchanges {q : Nat × Nat} :
    q ∈ exchanges ns
      ↔ ∃ b ∈ pairBases ns, foundPair ns .a b = some q := by
  unfold exchanges
  rw [List.mem_filterMap]
  simp only [List.mem_reverse]

/-- The two entries found are different. -/
theorem foundPair_ne {b : List CHAR16} {p : Nat × Nat}
    (h : foundPair ns .a b = some p) : p.1 ≠ p.2 := by
  obtain ⟨⟨m, hm, hpre⟩, m', hm', hpre'⟩ := foundPair_some h
  intro heq
  rw [heq, hm'] at hm
  cases hm
  exact not_both_begin hpre hpre'

/-- The entries found for a base change places when it was collected an
odd number of times. -/
theorem exchanges_parity (hap : FoundApart ns) {b : List CHAR16}
    {p : Nat × Nat} (hb : b ∈ pairBases ns)
    (hp : foundPair ns .a b = some p) :
    let odd := (pairBases ns).count b % 2 = 1
    swaps (exchanges ns) p.1 = (if odd then p.2 else p.1)
      ∧ swaps (exchanges ns) p.2 = (if odd then p.1 else p.2) := by
  have hcount : (exchanges ns).count p = (pairBases ns).count b := by
    unfold exchanges
    rw [List.count_filterMap, List.countP_reverse, List.count_eq_countP]
    apply List.countP_congr
    intro c hc
    rw [beq_iff_eq, beq_iff_eq]
    constructor
    · intro hcp
      by_contra hne
      exact (hap c hc b hb hne p p hcp hp).1 rfl
    · rintro rfl
      exact hp
  intro odd
  have hpar := swaps_parity (l := exchanges ns) (p := p) fun q hq => by
    obtain ⟨c, hc, hcq⟩ := mem_exchanges.1 hq
    by_cases hbc : b = c
    · left
      rw [← hbc, hp] at hcq
      exact (Option.some.inj hcq).symm
    · right
      exact hap b hb c hc hbc p q hp hcq
  rwa [hcount] at hpar

/-- What the exchanges move was found. -/
theorem exchanges_moved {k : Nat} (h : swaps (exchanges ns) k ≠ k) :
    ∃ b ∈ pairBases ns, ∃ p, foundPair ns .a b = some p
      ∧ (k = p.1 ∨ k = p.2) := by
  by_contra hnone
  apply h
  apply swaps_fixed
  intro q hq
  obtain ⟨b, hb, hbq⟩ := mem_exchanges.1 hq
  exact ⟨fun h1 => hnone ⟨b, hb, q, hbq, Or.inl h1⟩,
    fun h2 => hnone ⟨b, hb, q, hbq, Or.inr h2⟩⟩

/-- The exchanges are those of the two slots of every base. -/
def ExchangePairs (ns : List (List CHAR16)) : Prop :=
  ∀ (base : List CHAR16) (i j : Nat), ns[i]? = some (base ++ suffixA) →
    ns[j]? = some (base ++ suffixB) →
    swaps (exchanges ns) i = j ∧ swaps (exchanges ns) j = i

/-- On such names the exchanges are those of the slots. -/
theorem SlotNames.exchange_slots (h : SlotNames ns)
    (hdist : ns.Pairwise fun m n => n ≠ [] → m ≠ n) :
    ExchangePairs ns
      ∧ ∀ k, ¬ HasOther ns k → swaps (exchanges ns) k = k := by
  constructor
  · intro base i j hi hj
    have hboth := bothSlots_of_getElem hi hj
    obtain ⟨⟨i', j'⟩, hp⟩ := foundPair_of_both hboth .a
    have hb := mem_pairBases_of_both hboth
    obtain ⟨hi', hj'⟩ := h.exact base hboth i' j' hp
    have hieq := index_unique hdist (slotted_ne_nil base .a) hi' hi
    have hjeq := index_unique hdist (slotted_ne_nil base .b) hj' hj
    subst hieq hjeq
    have hodd := (h.odd base hb (by rw [hp]; rfl)).2 hboth
    have hpar := exchanges_parity h.apart hb hp
    dsimp only at hpar
    rwa [if_pos hodd, if_pos hodd] at hpar
  · intro k hk
    by_contra hmoved
    obtain ⟨b, hb, ⟨i, j⟩, hp, hkp⟩ := exchanges_moved hmoved
    have hnot : ¬ BothSlots ns b := by
      intro hboth
      obtain ⟨hi, hj⟩ := h.exact b hboth i j hp
      rcases hkp with rfl | rfl
      · exact hk ⟨.a, b, hi, hboth⟩
      · exact hk ⟨.b, b, hj, hboth⟩
    have heven := mt (h.odd b hb (by rw [hp]; rfl)).1 hnot
    have hpar := exchanges_parity h.apart hb hp
    dsimp only at hpar
    rw [if_neg heven, if_neg heven] at hpar
    rcases hkp with rfl | rfl
    · exact hmoved hpar.1
    · exact hmoved hpar.2

/-- If the two slots of a base change places, they are the entries found
for it. -/
theorem ExchangePairs.found (h : ExchangePairs ns) (hap : FoundApart ns)
    {b : List CHAR16} (hboth : BothSlots ns b) {i j : Nat}
    (hp : foundPair ns .a b = some (i, j)) :
    ns[i]? = some (b ++ suffixA) ∧ ns[j]? = some (b ++ suffixB) := by
  obtain ⟨i0, hi0⟩ := List.mem_iff_getElem?.1 (hboth .a)
  obtain ⟨j0, hj0⟩ := List.mem_iff_getElem?.1 (hboth .b)
  have hij := (h b i0 j0 hi0 hj0).1
  have hne : i0 ≠ j0 := by
    rintro rfl
    rw [hi0] at hj0
    have heq := (slotted_inj (x := .a) (y := .b)).1 (Option.some.inj hj0)
    cases heq.2
  -- the slot `i0` is moved, so it was found, for some base `c`
  have hmoved : swaps (exchanges ns) i0 ≠ i0 := by
    rw [hij]
    exact hne.symm
  obtain ⟨c, hc, p, hcp, hside⟩ := exchanges_moved hmoved
  obtain ⟨⟨m1, hm1, hpre1⟩, m2, hm2, hpre2⟩ := foundPair_some hcp
  have hpar := exchanges_parity hap hc hcp
  dsimp only at hpar
  rcases hside with rfl | rfl
  · rw [hpar.1] at hij
    split at hij
    next =>
      subst hij
      rw [hi0] at hm1
      rw [hj0] at hm2
      cases hm1
      cases hm2
      have hcb : c = b := @base_eq_of_begins c b .a .a .b hpre1 hpre2
      rw [hcb, hp] at hcp
      cases hcp
      exact ⟨hi0, hj0⟩
    next => exact absurd hij hne
  · rw [hpar.2] at hij
    split at hij
    next =>
      -- found the other way round, `b_b` would begin with `c_a`
      subst hij
      rw [hj0] at hm1
      rw [hi0] at hm2
      cases hm1
      cases hm2
      have hcb : c = b := @base_eq_of_begins c b .b .a .a hpre1 hpre2
      rw [hcb] at hpre1
      exact absurd (List.prefix_refl _)
        (@not_both_begin b (b ++ suffixB) .a hpre1)
    next => exact absurd hij hne

/-- Exchanges of found entries that are those of the slots need such
names. -/
theorem slotNames_of_exchanges (hap : FoundApart ns)
    (hpair : ExchangePairs ns)
    (hfix : ∀ k, k < ns.length → ¬ HasOther ns k →
      swaps (exchanges ns) k = k) : SlotNames ns := by
  refine ⟨hap, fun b hb hsome => ?_, fun b hboth i j hp =>
    hpair.found hap hboth hp⟩
  obtain ⟨⟨i, j⟩, hp⟩ := Option.isSome_iff_exists.1 hsome
  have hne := foundPair_ne hp
  obtain ⟨⟨m1, hm1, hpre1⟩, m2, hm2, hpre2⟩ := foundPair_some hp
  have hpar := exchanges_parity hap hb hp
  dsimp only at hpar hne hm1 hm2
  constructor
  · intro hodd
    rw [if_pos hodd] at hpar
    have hother : HasOther ns i := by
      by_contra hno
      exact hne ((hfix i (List.getElem?_eq_some_iff.1 hm1).1 hno).symm.trans
        hpar.1)
    obtain ⟨x, c, hci, hboth⟩ := hother
    obtain ⟨m, hm⟩ := List.mem_iff_getElem?.1 (hboth x.other)
    have hmj : m = j := by
      cases x with
      | a => exact (hpair c i m hci hm).1.symm.trans hpar.1
      | b => exact (hpair c m i hm hci).2.symm.trans hpar.1
    subst hmj
    rw [hci] at hm1
    rw [hm] at hm2
    cases hm1
    cases hm2
    rw [base_eq_of_begins hpre1 hpre2]
    exact hboth
  · intro hboth
    obtain ⟨hi, hj⟩ := hpair.found hap hboth hp
    by_contra heven
    rw [if_neg heven] at hpar
    exact hne (hpar.1.symm.trans (hpair b i j hi hj).1)

/-- The names of a device with A/B slots work. -/
theorem PairedNames.slotNames (h : PairedNames ns) : SlotNames ns := by
  have hsame : ∀ {b c : List CHAR16} {x y : Side} {i j : Nat},
      ns[i]? = some (b ++ x.slot.suffix) → ns[j]? = some (c ++ y.slot.suffix)
      → i = j → b = c := by
    rintro b c x y i j hi hj rfl
    rw [hi] at hj
    exact (slotted_inj.1 (Option.some.inj hj)).1
  constructor
  case apart =>
    intro b _ c _ hbc p q hp hq
    obtain ⟨hp1, hp2⟩ := foundPair_names h hp
    obtain ⟨hq1, hq2⟩ := foundPair_names h hq
    exact ⟨fun heq => hbc (@hsame b c .a .a _ _ hp1 hq1 heq),
      fun heq => hbc (@hsame b c .a .b _ _ hp1 hq2 heq),
      fun heq => hbc (@hsame b c .b .a _ _ hp2 hq1 heq),
      fun heq => hbc (@hsame b c .b .b _ _ hp2 hq2 heq)⟩
  case odd =>
    intro b hb _
    have hnodup := (pairBases_spec h (fun _ hm => hm) h.distinct).2
    rw [List.count_eq_one_of_mem hnodup hb]
    exact iff_of_true rfl ((mem_pairBases_iff h).1 hb)
  case exact => exact fun b _ i j hp => foundPair_names h hp

end Names

-- =========================================================== the exchange

/-- The type GUIDs of the two slots of every base have changed places,
and no other type GUID has changed. -/
structure SlotsExchanged (t t' : List PartitionEntry) : Prop where
  pair : ∀ (base : List CHAR16) (i j : Nat),
    (names t)[i]? = some (base ++ suffixA) →
    (names t)[j]? = some (base ++ suffixB) →
    guidAtIndex t' i = guidAtIndex t j ∧ guidAtIndex t' j = guidAtIndex t i
  others : ∀ k, ¬ HasOther (names t) k → guidAtIndex t' k = guidAtIndex t k

/-- Exchanging what was found for the bases, one after the other, does to
the type GUIDs what exchanging the slots does. -/
structure ExchangesSlots (t : List PartitionEntry) : Prop where
  pair : ∀ (base : List CHAR16) (i j : Nat),
    (names t)[i]? = some (base ++ suffixA) →
    (names t)[j]? = some (base ++ suffixB) →
    guidAtIndex t (swaps (exchanges (names t)) i) = guidAtIndex t j
      ∧ guidAtIndex t (swaps (exchanges (names t)) j) = guidAtIndex t i
  others : ∀ k, ¬ HasOther (names t) k →
    guidAtIndex t (swaps (exchanges (names t)) k) = guidAtIndex t k

/-- The call has memory for its list and a table it can work with, or
nothing to exchange. -/
structure ExchangeReady (env : Env) (s : St) : Prop where
  table : NodesAllocated env s → ExchangesSlots s.ptnEntries
  memory : ¬ NodesAllocated env s →
    ∀ (base : List CHAR16) (i j : Nat),
      (names s.ptnEntries)[i]? = some (base ++ suffixA) →
      (names s.ptnEntries)[j]? = some (base ++ suffixB) →
      guidAtIndex s.ptnEntries i = guidAtIndex s.ptnEntries j

/-- The type GUIDs of a table are pairwise different. -/
def DistinctGuids (t : List PartitionEntry) : Prop :=
  ∀ i j, i < t.length → j < t.length →
    guidAtIndex t i = guidAtIndex t j → i = j

/-- Names that are found right make the right exchange. -/
theorem SlotNames.exchangesSlots {t : List PartitionEntry}
    (h : SlotNames (names t))
    (hdist : (names t).Pairwise fun m n => n ≠ [] → m ≠ n) :
    ExchangesSlots t := by
  obtain ⟨hpair, hfix⟩ := h.exchange_slots hdist
  constructor
  · intro base i j hi hj
    obtain ⟨hij, hji⟩ := hpair base i j hi hj
    rw [hij, hji]
    exact ⟨rfl, rfl⟩
  · intro k hk
    rw [hfix k hk]

/-- With distinct GUIDs the exchange is known place by place. -/
theorem DistinctGuids.slotNames {t : List PartitionEntry}
    (hinj : DistinctGuids t) (hap : FoundApart (names t))
    (h : ExchangesSlots t) : SlotNames (names t) := by
  have hplace : ∀ k m, k < t.length → m < t.length →
      guidAtIndex t (swaps (exchanges (names t)) k) = guidAtIndex t m →
      swaps (exchanges (names t)) k = m := by
    intro k m hk hm heq
    apply hinj _ _ ?_ hm heq
    apply swaps_closed (P := fun k => k < t.length) ?_ hk
    intro p hp
    obtain ⟨b, -, hbp⟩ := mem_exchanges.1 hp
    exact foundPair_lt hbp
  have hlt : ∀ {n : List CHAR16} {i : Nat}, (names t)[i]? = some n →
      i < t.length := by
    intro n i hi
    rw [← length_names]
    exact (List.getElem?_eq_some_iff.1 hi).1
  apply slotNames_of_exchanges hap
  · intro base i j hi hj
    obtain ⟨hij, hji⟩ := h.pair base i j hi hj
    exact ⟨hplace i j (hlt hi) (hlt hj) hij,
      hplace j i (hlt hj) (hlt hi) hji⟩
  · intro k hk hno
    rw [length_names] at hk
    exact hplace k k hk hk (h.others k hno)

/-- On a table of distinct names a call exchanges the slots exactly when it
has memory for its list and what it finds for the bases makes up that
exchange, or has no memory and nothing to exchange. The names are enough
for that if no entry is found for two bases, a base is collected an odd
number of times exactly if both of its names exist, and these are found;
and where no entry is found for two bases, and no two type GUIDs are equal,
they are enough only then. -/
theorem switchPtnSlots_exchanges_slots (env : Env) (x : Side) (s : St)
    (hshort : ∀ n ∈ names s.ptnEntries, n.length ≤ 31)
    (hdist : (names s.ptnEntries).Pairwise fun m n => n ≠ [] → m ≠ n)
    (hnil : s.headNode = []) :
    (SlotsExchanged s.ptnEntries
        (switchPtnSlots env x.slot.suffix s).ptnEntries
        ↔ ExchangeReady env s)
      ∧ (SlotNames (names s.ptnEntries) → ExchangesSlots s.ptnEntries)
      ∧ (FoundApart (names s.ptnEntries) → DistinctGuids s.ptnEntries →
        ExchangesSlots s.ptnEntries → SlotNames (names s.ptnEntries)) := by
  obtain ⟨hkept, hguids⟩ := switchPtnSlots_exchanges env x s hshort hnil
  refine ⟨?_, fun h => h.exchangesSlots hdist, fun hap hinj h =>
    hinj.slotNames hap h⟩
  by_cases halloc : NodesAllocated env s
  · have hready : ExchangeReady env s ↔ ExchangesSlots s.ptnEntries :=
      ⟨fun h => h.table halloc,
        fun h => ⟨fun _ => h, fun hno => absurd halloc hno⟩⟩
    rw [hready]
    constructor
    · intro h
      constructor
      · intro base i j hi hj
        rw [← hguids halloc, ← hguids halloc]
        exact h.pair base i j hi hj
      · intro k hk
        rw [← hguids halloc]
        exact h.others k hk
    · intro h
      constructor
      · intro base i j hi hj
        rw [hguids halloc, hguids halloc]
        exact h.pair base i j hi hj
      · intro k hk
        rw [hguids halloc]
        exact h.others k hk
  · rw [hkept halloc]
    constructor
    · intro h
      exact ⟨fun hyes => absurd hyes halloc, fun _ base i j hi hj =>
        (h.pair base i j hi hj).1⟩
    · intro h
      constructor
      · intro base i j hi hj
        have heq := h.memory halloc base i j hi hj
        exact ⟨heq, heq.symm⟩
      · exact fun k _ => rfl

/-- `boot_a` and `boot_b` change places. -/
theorem switchPtnSlots_exchanges_slots_sample :
    SlotsExchanged sampleSlots.ptnEntries
      (switchPtnSlots sampleEnv suffixB sampleSlots).ptnEntries := by
  obtain ⟨hexact, hnames, -⟩ := switchPtnSlots_exchanges_slots sampleEnv .b
    sampleSlots sampleSlots_paired.short sampleSlots_paired.distinct rfl
  refine hexact.2 ⟨fun _ => hnames sampleSlots_paired.slotNames, ?_⟩
  intro hno
  refine absurd (sampleEnv_allocated rfl ?_) hno
  rw [sampleSlots_names]
  decide

/-- A third name beside the two slots, `boot_c`. -/
def siblingSlots : St :=
  sampleState.withEntries
    [sampleEntry (bootName ++ suffixA) 1 0,
    sampleEntry (bootName ++ suffixB) 2 0,
    sampleEntry (bootName ++ [0x5f, 0x63]) 3 0]

/-- The names of the sample with a third slot. -/
theorem siblingSlots_names : names siblingSlots.ptnEntries
    = [bootName ++ suffixA, bootName ++ suffixB, bootName ++ [0x5f, 0x63]]
    := by
  decide +kernel

/-- With it `boot` is collected twice, and exchanged back. -/
theorem switchPtnSlots_sibling :
    pairBases (names siblingSlots.ptnEntries) = [bootName, bootName]
      ∧ ¬ ∀ (env : Env) (x : Side) (s : St),
        (names s.ptnEntries).Nodup →
        (∀ n ∈ names s.ptnEntries, n.length ≤ 31) → s.headNode = [] →
        SlotsExchanged s.ptnEntries
          (switchPtnSlots env x.slot.suffix s).ptnEntries := by
  have hnodup : (names siblingSlots.ptnEntries).Nodup := by
    rw [siblingSlots_names]
    decide
  have hshort : ∀ n ∈ names siblingSlots.ptnEntries, n.length ≤ 31 := by
    rw [siblingSlots_names]
    decide
  have hbases : pairBases (names siblingSlots.ptnEntries)
      = [bootName, bootName] := by
    rw [siblingSlots_names]
    decide
  have halloc : NodesAllocated sampleEnv siblingSlots := by
    refine sampleEnv_allocated rfl ?_
    rw [hbases]
    decide
  refine ⟨hbases, fun hall => ?_⟩
  have hex := (hall sampleEnv .b siblingSlots hnodup hshort rfl).pair
    bootName 0 1 (by rw [siblingSlots_names]; rfl)
    (by rw [siblingSlots_names]; rfl)
  have hguid := (switchPtnSlots_exchanges sampleEnv .b siblingSlots hshort
    rfl).2 halloc 0
  have hback : swaps (exchanges (names siblingSlots.ptnEntries)) 0 = 0 := by
    rw [siblingSlots_names]
    decide
  rw [hex.1, hback] at hguid
  exact absurd hguid (by decide +kernel)

end Edk2Exynos.BootSlot
