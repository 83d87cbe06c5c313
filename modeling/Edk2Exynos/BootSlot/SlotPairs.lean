/-
The slot pairs of a partition table with tidy names, and what one
`SwitchPtnSlots` does to its type GUIDs.

# Names

`PairedNames` is the shape the names have on a device with A/B slots.
Under it `pairBases` lists the bases of the pairs, each once, at the first
of its two entries.

# The exchange

Under `PairedNames` a prefix of an entry's name that ends in a slot
suffix is the whole name, so `SwitchPtnSlots` finds the two entries of
each pair, whatever their order. Its effect on the GUIDs, as a function
of the entry's index, is the permutation `pairSwaps`.
-/
import Edk2Exynos.BootSlot.SlotSearch

namespace Edk2Exynos.BootSlot

open Lib

-- ================================================================= names

/-- The names of a device with A/B slots. Entries without a name, such
as a root device's, are not restricted. -/
structure PairedNames (ns : List (List CHAR16)) : Prop where
  short : ∀ n ∈ ns, n.length ≤ 31
  distinct : ns.Pairwise fun m n => n ≠ [] → m ≠ n
  /-- `_a` and `_b` occur as the last two characters only -/
  suffixLast : ∀ n ∈ ns, ∀ (x : Side) (pre post : List CHAR16),
    n = pre ++ x.slot.suffix ++ post → post = []
  complete : ∀ (x : Side) (base : List CHAR16),
    base ++ x.slot.suffix ∈ ns → base ++ x.other.slot.suffix ∈ ns
  /-- no third name agrees with a pair in length and all but the last
  character -/
  noThird : ∀ (x : Side) (base n : List CHAR16),
    base ++ x.slot.suffix ∈ ns → n ∈ ns →
    n.length = (base ++ x.slot.suffix).length →
    n.take (n.length - 1) = (base ++ x.slot.suffix).take (n.length - 1) →
    n = base ++ x.slot.suffix ∨ n = base ++ x.other.slot.suffix

section Paired

variable {ns : List (List CHAR16)} (h : PairedNames ns)

include h

/-- Under `PairedNames` the other slot's test finds the pair only. -/
theorem isOtherName_iff {n m : List CHAR16} (hn : n ∈ ns) (hm : m ∈ ns) :
    isOtherName n m = true ↔ ∃ (x : Side) (base : List CHAR16),
      n = base ++ x.slot.suffix
        ∧ (m = n ∨ m = base ++ x.other.slot.suffix) := by
  constructor
  · intro hother
    unfold isOtherName at hother
    simp only [Bool.and_eq_true, bne_iff_ne, ne_eq, beq_iff_eq,
      Bool.or_eq_true, decide_eq_true_eq] at hother
    obtain ⟨⟨⟨-, hlen⟩, htake⟩, hsub⟩ := hother
    have hslot : ∃ x : Side, x.slot.suffix <:+: n := by
      rcases hsub with ha | hb
      · exact ⟨.a, ha⟩
      · exact ⟨.b, hb⟩
    obtain ⟨x, base, post, heq⟩ := hslot
    have hpost := h.suffixLast n hn x base post heq.symm
    rw [hpost, List.append_nil] at heq
    subst heq
    rw [← hlen] at htake
    exact ⟨x, base, rfl, h.noThird x base m hn hm hlen htake⟩
  · rintro ⟨x, base, rfl, rfl | rfl⟩
    · exact isOtherName_slotted base x x
    · exact isOtherName_slotted base x x.other

/-- A name is followed by its pair exactly when its other slot comes
later. -/
theorem any_isOtherName_iff {n : List CHAR16} {ms : List (List CHAR16)}
    (hn : n ∈ ns) (hms : ∀ m ∈ ms, m ∈ ns) (hnot : n ≠ [] → n ∉ ms) :
    ms.any (isOtherName n) = true ↔ ∃ (x : Side) (base : List CHAR16),
      n = base ++ x.slot.suffix ∧ base ++ x.other.slot.suffix ∈ ms := by
  rw [List.any_eq_true]
  constructor
  · rintro ⟨m, hm, hother⟩
    obtain ⟨x, base, rfl, hm'⟩ :=
      (isOtherName_iff h hn (hms m hm)).mp hother
    rcases hm' with rfl | rfl
    · exact absurd hm (hnot (slotted_ne_nil _ _))
    · exact ⟨x, base, rfl, hm⟩
  · rintro ⟨x, base, rfl, hm⟩
    exact ⟨_, hm, (isOtherName_iff h hn (hms _ hm)).mpr
      ⟨x, base, rfl, Or.inr rfl⟩⟩

/-- `pairBases` lists the pairs of a part of the table, each once. -/
theorem pairBases_spec {ms : List (List CHAR16)} (hms : ∀ m ∈ ms, m ∈ ns)
    (hdist : ms.Pairwise fun m n => n ≠ [] → m ≠ n) :
    (∀ base, base ∈ pairBases ms ↔ ∀ x : Side, base ++ x.slot.suffix ∈ ms)
      ∧ (pairBases ms).Nodup := by
  induction ms with
  | nil =>
      refine ⟨fun base => ⟨fun hb => absurd hb List.not_mem_nil, ?_⟩,
        List.nodup_nil⟩
      exact fun hall => absurd (hall .a) List.not_mem_nil
  | cons n ms ih =>
      rw [List.pairwise_cons] at hdist
      have hn := hms n List.mem_cons_self
      have hms' : ∀ m ∈ ms, m ∈ ns := fun m hm =>
        hms m (List.mem_cons_of_mem n hm)
      have hnot : n ≠ [] → n ∉ ms := fun hne hmem =>
        hdist.1 n hmem hne rfl
      obtain ⟨ihmem, ihnodup⟩ := ih hms' hdist.2
      have hany := any_isOtherName_iff h hn hms' hnot
      unfold pairBases
      split
      next hcons =>
        obtain ⟨x, b, rfl, hother⟩ := hany.mp hcons.2
        have hb : b ∉ pairBases ms := fun hmem =>
          hnot hcons.1 ((ihmem b).mp hmem x)
        rw [slotted_take]
        refine ⟨fun base => ?_, List.nodup_cons.mpr ⟨hb, ihnodup⟩⟩
        rw [List.mem_cons, ihmem]
        constructor
        · rintro (rfl | hall) y
          · rcases x.eq_or_other y with rfl | rfl
            · exact List.mem_cons_self
            · exact List.mem_cons_of_mem _ hother
          · exact List.mem_cons_of_mem _ (hall y)
        · intro hall
          by_cases hbase : base = b
          · exact Or.inl hbase
          · refine Or.inr fun y => ?_
            rcases List.mem_cons.mp (hall y) with heq | hmem
            · exact absurd (slotted_inj.mp heq).1 hbase
            · exact hmem
      next hskip =>
        refine ⟨fun base => ?_, ihnodup⟩
        rw [ihmem]
        refine ⟨fun hall y => List.mem_cons_of_mem _ (hall y), ?_⟩
        -- were `n` one of the two names, the other would come later
        intro hall y
        rcases List.mem_cons.mp (hall y) with rfl | hmem
        · exfalso
          rcases List.mem_cons.mp (hall y.other) with heq | hmem'
          · exact y.other_ne (slotted_inj.mp heq).2
          · exact hskip ⟨slotted_ne_nil _ _, hany.mpr ⟨y, base, rfl, hmem'⟩⟩
        · exact hmem

/-- With paired names a base is collected when both slots have it. -/
theorem mem_pairBases_iff {base : List CHAR16} :
    base ∈ pairBases ns ↔ ∀ x : Side, base ++ x.slot.suffix ∈ ns :=
  (pairBases_spec h (fun _ hm => hm) h.distinct).1 base

/-- One name of a pair is enough. -/
theorem mem_pairBases {base : List CHAR16} {x : Side}
    (hx : base ++ x.slot.suffix ∈ ns) : base ∈ pairBases ns := by
  rw [mem_pairBases_iff h]
  intro y
  rcases x.eq_or_other y with rfl | rfl
  · exact hx
  · exact h.complete x base hx

/-- The bases that are collected are short. -/
theorem pairBases_short {base : List CHAR16} (hb : base ∈ pairBases ns) :
    base.length ≤ 29 := by
  have hs := h.short _ ((mem_pairBases_iff h).mp hb .a)
  rw [slotted_length] at hs
  omega

end Paired

-- ============================================================ the search

/-- Where the two entries of a pair are, the `x` one first. -/
def pairAt (ns : List (List CHAR16)) (x : Side) (base : List CHAR16) :
    Nat × Nat :=
  (ns.idxOf (base ++ x.slot.suffix), ns.idxOf (base ++ x.other.slot.suffix))

section Search

variable {ns : List (List CHAR16)} (h : PairedNames ns)

include h

/-- The prefixes found are the whole names. -/
theorem foundPair_names {x : Side} {base : List CHAR16} {p : Nat × Nat}
    (hp : foundPair ns x base = some p) :
    ns[p.1]? = some (base ++ x.slot.suffix)
      ∧ ns[p.2]? = some (base ++ x.other.slot.suffix) := by
  obtain ⟨⟨m, hm, post, rfl⟩, m', hm', post', rfl⟩ := foundPair_some hp
  have hpost := h.suffixLast _ (List.mem_of_getElem? hm) x base post rfl
  have hpost' := h.suffixLast _ (List.mem_of_getElem? hm') x.other base
    post' rfl
  rw [hpost, List.append_nil] at hm
  rw [hpost', List.append_nil] at hm'
  exact ⟨hm, hm'⟩

/-- A name is found where it is. -/
theorem idxOf_getElem {n : List CHAR16} {k : Nat} (hk : ns[k]? = some n)
    (hne : n ≠ []) : ns.idxOf n = k := by
  have hlt := List.idxOf_lt_length_iff.mpr (List.mem_of_getElem? hk)
  apply index_unique h.distinct hne ?_ hk
  rw [List.getElem?_eq_getElem hlt, List.getElem_idxOf]

/-- The entries found for a base are those of its slots. -/
theorem foundPair_pairAt {base : List CHAR16} (hb : base ∈ pairBases ns)
    (x : Side) : foundPair ns x base = some (pairAt ns x base) := by
  obtain ⟨p, hp⟩ := foundPair_of_both ((mem_pairBases_iff h).mp hb) x
  obtain ⟨h1, h2⟩ := foundPair_names h hp
  rw [hp]
  refine congrArg some (Prod.ext ?_ ?_)
  · exact (idxOf_getElem h h1 (slotted_ne_nil base x)).symm
  · exact (idxOf_getElem h h2 (slotted_ne_nil base x.other)).symm

end Search

-- ========================================================== the exchange

/-- The exchange of the GUIDs of every pair. -/
def pairSwaps (ns : List (List CHAR16)) : Equiv.Perm Nat :=
  swaps ((pairBases ns).map (pairAt ns .a))

section Exchange

variable {ns : List (List CHAR16)} (h : PairedNames ns)

include h

/-- No entry is in two pairs. -/
theorem pairs_apart (x : Side) {bases : List (List CHAR16)}
    (hsub : ∀ b ∈ bases, b ∈ pairBases ns) (hnodup : bases.Nodup) :
    (bases.map (pairAt ns x)).Pairwise Apart := by
  rw [List.pairwise_map]
  refine List.Pairwise.imp_of_mem ?_ hnodup
  intro b b' hb hb' hne
  have hin := (mem_pairBases_iff h).mp (hsub b hb)
  have hdiff : ∀ y z : Side,
      ns.idxOf (b ++ y.slot.suffix) ≠ ns.idxOf (b' ++ z.slot.suffix) := by
    intro y z heq
    exact hne (slotted_inj.mp ((List.idxOf_inj (hin y)).mp heq)).1
  exact ⟨hdiff _ _, hdiff _ _, hdiff _ _, hdiff _ _⟩

/-- The exchange does not depend on which slot comes first, nor on the
order of the pairs. -/
theorem swaps_pairAt (x : Side) {bases : List (List CHAR16)}
    (hnodup : bases.Nodup) (hmem : ∀ b, b ∈ bases ↔ b ∈ pairBases ns) :
    swaps (bases.map (pairAt ns x)) = pairSwaps ns := by
  have hbases := (pairBases_spec h (fun _ hm => hm) h.distinct).2
  have horder : swaps (bases.map (pairAt ns x))
      = swaps ((pairBases ns).map (pairAt ns x)) := by
    refine swaps_congr (pairs_apart h x (fun b => (hmem b).mp) hnodup)
      (pairs_apart h x (fun _ hb => hb) hbases) fun p => ?_
    rw [List.mem_map, List.mem_map]
    exact exists_congr fun b => and_congr (hmem b) Iff.rfl
  rw [horder]
  cases x with
  | a => rfl
  | b =>
      have hmap : (pairBases ns).map (pairAt ns .b)
          = ((pairBases ns).map (pairAt ns .a)).map Prod.swap := by
        rw [List.map_map]
        rfl
      rw [hmap, swaps_map_swap]
      rfl

/-- The pairs have no entry in common. -/
theorem pairSwaps_apart :
    ((pairBases ns).map (pairAt ns .a)).Pairwise Apart :=
  pairs_apart h .a (fun _ hb => hb)
    (pairBases_spec h (fun _ hm => hm) h.distinct).2

/-- A second exchange undoes the first. -/
theorem pairSwaps_pairSwaps (k : Nat) :
    pairSwaps ns (pairSwaps ns k) = k :=
  swaps_swaps (pairSwaps_apart h) k

/-- The two entries of a pair change places. -/
theorem pairSwaps_slotted {base : List CHAR16} {i j : Nat}
    (hi : ns[i]? = some (base ++ suffixA))
    (hj : ns[j]? = some (base ++ suffixB)) :
    pairSwaps ns i = j ∧ pairSwaps ns j = i := by
  have hb : base ∈ pairBases ns := mem_pairBases h (x := .a)
    (List.mem_of_getElem? hi)
  have hpair : pairAt ns .a base = (i, j) := by
    refine Prod.ext ?_ ?_
    · exact idxOf_getElem h hi (slotted_ne_nil base .a)
    · exact idxOf_getElem h hj (slotted_ne_nil base .b)
  have hswap := swaps_pair (pairSwaps_apart h)
    (List.mem_map_of_mem (f := pairAt ns .a) hb)
  rw [hpair] at hswap
  exact hswap

/-- Every other place is fixed. -/
theorem pairSwaps_fixed {k : Nat}
    (hk : ∀ (x : Side) (base : List CHAR16),
      ns[k]? ≠ some (base ++ x.slot.suffix)) : pairSwaps ns k = k := by
  refine swaps_fixed fun p hp => ?_
  obtain ⟨base, hb, rfl⟩ := List.mem_map.mp hp
  have hin := (mem_pairBases_iff h).mp hb
  have hne : ∀ x : Side, k ≠ ns.idxOf (base ++ x.slot.suffix) := by
    rintro x rfl
    refine hk x base ?_
    rw [List.getElem?_eq_getElem (List.idxOf_lt_length_iff.mpr (hin x)),
      List.getElem_idxOf]
  exact ⟨hne .a, hne .b⟩

end Exchange

/-- The loop over the nodes, on the GUIDs. -/
theorem swapPairs_swaps {t : List PartitionEntry}
    (h : PairedNames (names t)) (x : Side) (nodes : List BootPartsNode)
    (hsub : ∀ b ∈ nodeBases nodes, b ∈ pairBases (names t)) (k : Nat) :
    guidAtIndex (swapPairs (inactiveSuffix x.slot.suffix) x.slot.suffix
        nodes t) k
      = guidAtIndex t (swaps ((nodeBases nodes).map
          (pairAt (names t) x.other)) k) := by
  have hfound : (nodeBases nodes).filterMap (foundPair (names t) x.other)
      = (nodeBases nodes).map (pairAt (names t) x.other) := by
    rw [← List.filterMap_eq_map]
    exact List.filterMap_congr fun b hb =>
      foundPair_pairAt h (hsub b hb) x.other
  rw [swapPairs_found x nodes (fun b hb => pairBases_short h (hsub b hb)),
    hfound]

end Edk2Exynos.BootSlot
