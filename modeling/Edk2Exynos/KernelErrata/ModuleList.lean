/-
`GetModule` on the loader's own list (Utilities.c): its entries in memory,
and the characters it reads.

# Counted and terminated

The name asked for ends with a NUL. That of an entry has a count of bytes,
and need not end with one. `GetModule` compares with `StrnCmp`, which
stops at a NUL or after as many characters as the count has bytes, twice
the characters there are.

# Running along the list

`visit` is what a search does on the list of entries; the loop over the
links does that, given a step for each entry and one for the end
(`getModuleLoop_eq`). The module list of the hook is the same search
(`visit_getModule`).

# When it is right

`getModule_right_iff`. An entry whose name is the one asked for is found
only by reading the character behind it, so what is left is the absence
of the module, and the empty name.
-/
import Edk2Exynos.KernelErrata.ExitBootServices

namespace Edk2Exynos.KernelErrata

open Lib
open BootSlot (CHAR16 strnCmp)

-- ================================================================ memory

/-- The loader's memory, as far as `GetModule` looks: the links, and the
two fields of `BaseDllName` for the entry at an address, the buffer by the
characters from there on. -/
structure LoaderMem where
  forwardLink : UINT64 → UINT64
  length : UINT64 → BitVec 16
  buffer : UINT64 → Nat → CHAR16

/-- The characters that an entry's count covers. -/
def LoaderMem.chars (m : LoaderMem) (entry : UINT64) : Nat :=
  (m.length entry).toNat / 2

/-- The name of an entry. -/
def LoaderMem.baseDllName (m : LoaderMem) (entry : UINT64) : List CHAR16 :=
  (List.range (m.chars entry)).map (m.buffer entry)

/-- From the address `p` on, the links lead through `entries` to the head
of the list. -/
def Linked (m : LoaderMem) (list : UINT64) : UINT64 → List UINT64 → Prop
  | p, [] => p = list
  | p, e :: es => p = e ∧ e ≠ list ∧ e ≠ 0
      ∧ Linked m list (m.forwardLink e) es

/-- The string at `name` has `n` characters before its NUL. -/
structure NulTerminated (name : Nat → CHAR16) (n : Nat) : Prop where
  nul : name n = 0
  chars : ∀ i < n, name i ≠ 0

-- =============================================================== the code

/-- The loop of `StrnCmp` from index `i` on, with `length` characters to
go: the index at which it ends. -/
def strnCmpStop (first second : Nat → CHAR16) : Nat → Nat → Nat
  | 0, i => i
  | length + 1, i =>
      if first i ≠ 0 ∧ second i ≠ 0 ∧ first i = second i ∧ 0 < length then
        strnCmpStop first second length (i + 1)
      else i

/-- `StrnCmp` on two addresses. -/
def strnCmpAt (first second : Nat → CHAR16) (length : Nat) : Int :=
  if length = 0 then 0
  else
    let i := strnCmpStop first second length 0
    ((first i).toNat : Int) - (second i).toNat

/-- The characters of the second string that it reads. -/
def strnCmpReads (first second : Nat → CHAR16) (length : Nat) : List Nat :=
  if length = 0 then []
  else List.range (strnCmpStop first second length 0 + 1)

/-- A result of `GetModule`, with the characters it has read: an entry and
an index. -/
structure ModuleSearch where
  result : Option UINT64
  reads : List (UINT64 × Nat)

section

variable (m : LoaderMem) (list : UINT64) (name : Nat → CHAR16)

/-- The comparison with one entry. -/
def entryMatches (entry : UINT64) : Prop :=
  strnCmpAt name (m.buffer entry) (m.length entry).toNat = 0

instance (entry : UINT64) : Decidable (entryMatches m name entry) :=
  inferInstanceAs (Decidable (_ = _))

/-- The characters of an entry's name that are read. -/
def entryReads (entry : UINT64) : List (UINT64 × Nat) :=
  (strnCmpReads name (m.buffer entry) (m.length entry).toNat).map
    fun i => (entry, i)

/-- The loop of `GetModule`, no further than `fuel` tests. The links are
the first member of an entry. -/
def getModuleLoop : Nat → UINT64 → List (UINT64 × Nat) →
    Option ModuleSearch
  | 0, _, _ => none
  | fuel + 1, entry, reads =>
      if entry = list then some ⟨none, reads⟩
      else if entry ≠ 0 then
        let reads := reads ++ entryReads m name entry
        if entryMatches m name entry then some ⟨some entry, reads⟩
        else getModuleLoop fuel (m.forwardLink entry) reads
      else getModuleLoop fuel (m.forwardLink entry) reads

/-- `GetModule` -/
def getModuleAt (fuel : Nat) : Option ModuleSearch :=
  getModuleLoop m list name fuel (m.forwardLink list) []

-- ============================================================= the search

/-- The search on the list of entries. -/
def visit : List UINT64 → ModuleSearch
  | [] => ⟨none, []⟩
  | e :: es =>
      if entryMatches m name e then ⟨some e, entryReads m name e⟩
      else ⟨(visit es).result, entryReads m name e ++ (visit es).reads⟩

/-- The loop over the links ends, with the result of the search. -/
theorem getModuleLoop_eq (entries : List UINT64) (p : UINT64)
    (hlinked : Linked m list p entries) (reads : List (UINT64 × Nat))
    (fuel : Nat) (hfuel : entries.length < fuel) :
    getModuleLoop m list name fuel p reads
      = some ⟨(visit m name entries).result,
        reads ++ (visit m name entries).reads⟩ := by
  induction entries generalizing p reads fuel with
  | nil =>
    obtain ⟨fuel, rfl⟩ := Nat.exists_eq_succ_of_ne_zero
      (Nat.ne_zero_of_lt hfuel)
    have hend : p = list := hlinked
    unfold getModuleLoop
    rw [if_pos hend]
    show some (ModuleSearch.mk none reads) = some ⟨none, reads ++ []⟩
    rw [List.append_nil]
  | cons e es ih =>
    obtain ⟨fuel, rfl⟩ := Nat.exists_eq_succ_of_ne_zero
      (Nat.ne_zero_of_lt hfuel)
    obtain ⟨rfl, hlist, hnull, hrest⟩ := hlinked
    unfold getModuleLoop visit
    rw [if_neg hlist, if_pos hnull]
    dsimp only
    split
    · rfl
    · rw [ih _ hrest _ fuel (Nat.lt_of_succ_lt_succ hfuel),
        List.append_assoc]

-- ============================================================= one entry

/-- The string at `name` is the name of the entry. -/
def IsNamed (n : Nat) (entry : UINT64) : Prop :=
  m.baseDllName entry = (List.range n).map name

instance (n : Nat) : DecidablePred (IsNamed m name n) :=
  fun _ => inferInstanceAs (Decidable (_ = _))

/-- The entry differs from the name, its NUL included, in a character of
its own. -/
def Differs (n : Nat) (entry : UINT64) : Prop :=
  ∃ i < m.chars entry, i ≤ n ∧ m.buffer entry i ≠ name i

/-- No character behind the count of an entry is read. -/
def ReadsInside (reads : List (UINT64 × Nat)) : Prop :=
  ∀ r ∈ reads, r.2 < m.chars r.1

variable {m name}

/-- The loop goes past a character that agrees and is no NUL. -/
theorem strnCmpStop_agree {first second : Nat → CHAR16} {k : Nat}
    (length i : Nat) (hlen : k < length)
    (hagree : ∀ j, i ≤ j → j < i + k →
      first j ≠ 0 ∧ first j = second j) :
    strnCmpStop first second length i
      = strnCmpStop first second (length - k) (i + k) := by
  induction k generalizing length i with
  | zero => rfl
  | succ k ih =>
    obtain ⟨length, rfl⟩ := Nat.exists_eq_succ_of_ne_zero
      (Nat.ne_zero_of_lt hlen)
    obtain ⟨hne, heq⟩ := hagree i (Nat.le_refl i) (by omega)
    have hgo : first i ≠ 0 ∧ second i ≠ 0 ∧ first i = second i
        ∧ 0 < length := ⟨hne, heq ▸ hne, heq, by omega⟩
    rw [strnCmpStop, if_pos hgo, ih length (i + 1) (by omega)
      (fun j hj hlt => hagree j (by omega) (by omega)), Nat.succ_sub_succ,
      Nat.add_assoc, Nat.add_comm 1 k]

/-- It ends at a NUL, or where the strings differ. -/
theorem strnCmpStop_here {first second : Nat → CHAR16} {i : Nat}
    (length : Nat) (h : first i = 0 ∨ first i ≠ second i) :
    strnCmpStop first second length i = i := by
  cases length with
  | zero => rfl
  | succ length =>
    rw [strnCmpStop, if_neg]
    rintro ⟨hne, -, heq, -⟩
    rcases h with hnul | hdiff
    · exact hne hnul
    · exact hdiff heq

theorem strnCmpStop_ge (first second : Nat → CHAR16) (length i : Nat) :
    i ≤ strnCmpStop first second length i := by
  induction length generalizing i with
  | zero => exact Nat.le_refl i
  | succ length ih =>
    rw [strnCmpStop]
    split
    · exact Nat.le_of_succ_le (ih (i + 1))
    · exact Nat.le_refl i

variable {n : Nat} {e : UINT64}

theorem LoaderMem.chars_lt (hlen : m.length e ≠ 0) :
    m.chars e < (m.length e).toNat := by
  have hpos : 0 < (m.length e).toNat := BitVec.toNat_pos_of_ne_zero hlen
  unfold LoaderMem.chars
  omega

theorem Differs.length_ne_zero (h : Differs m name n e) :
    m.length e ≠ 0 := by
  obtain ⟨i, hi, -, -⟩ := h
  intro hzero
  unfold LoaderMem.chars at hi
  rw [hzero] at hi
  exact absurd hi (Nat.not_lt_zero i)

theorem isNamed_iff : IsNamed m name n e
    ↔ m.chars e = n ∧ ∀ i < n, m.buffer e i = name i := by
  unfold IsNamed LoaderMem.baseDllName
  constructor
  · intro h
    have hlen := congrArg List.length h
    rw [List.length_map, List.length_map, List.length_range,
      List.length_range] at hlen
    rw [hlen] at h
    refine ⟨hlen, fun i hi => ?_⟩
    exact List.map_inj_left.mp h i (List.mem_range.mpr hi)
  · rintro ⟨hlen, hall⟩
    rw [hlen]
    exact List.map_congr_left fun i hi => hall i (List.mem_range.mp hi)

theorem Differs.not_named (h : Differs m name n e) :
    ¬ IsNamed m name n e := by
  obtain ⟨i, hi, -, hne⟩ := h
  intro hnamed
  obtain ⟨hlen, hall⟩ := isNamed_iff.mp hnamed
  exact hne (hall i (hlen ▸ hi))

/-- Where the comparison of an entry ends. -/
theorem stop_eq {i : Nat} (hi : i < (m.length e).toNat)
    (hagree : ∀ j < i, name j ≠ 0 ∧ name j = m.buffer e j)
    (hend : name i = 0 ∨ name i ≠ m.buffer e i) :
    strnCmpStop name (m.buffer e) (m.length e).toNat 0 = i := by
  rw [strnCmpStop_agree (k := i) _ 0 hi (fun j _ hlt =>
    hagree j (by omega)), Nat.zero_add]
  exact strnCmpStop_here _ hend

theorem entryMatches_iff (hlen : m.length e ≠ 0) {i : Nat}
    (hstop : strnCmpStop name (m.buffer e) (m.length e).toNat 0 = i) :
    entryMatches m name e ↔ name i = m.buffer e i := by
  have hpos : ¬ (m.length e).toNat = 0 :=
    fun h => hlen (BitVec.eq_of_toNat_eq h)
  unfold entryMatches strnCmpAt
  dsimp only
  rw [if_neg hpos, hstop, ← BitVec.toNat_inj]
  omega

theorem mem_entryReads_iff (hlen : m.length e ≠ 0) {i : Nat}
    (hstop : strnCmpStop name (m.buffer e) (m.length e).toNat 0 = i)
    (r : UINT64 × Nat) :
    r ∈ entryReads m name e ↔ r.1 = e ∧ r.2 ≤ i := by
  have hpos : ¬ (m.length e).toNat = 0 :=
    fun h => hlen (BitVec.eq_of_toNat_eq h)
  unfold entryReads strnCmpReads
  rw [if_neg hpos, hstop, List.mem_map]
  constructor
  · rintro ⟨j, hj, rfl⟩
    exact ⟨rfl, Nat.le_of_lt_succ (List.mem_range.mp hj)⟩
  · rintro ⟨hr, hle⟩
    exact ⟨r.2, List.mem_range.mpr (Nat.lt_succ_of_le hle),
      Prod.ext hr.symm rfl⟩

/-- An entry that differs is passed over, and only its own characters are
read. -/
theorem Differs.passed (h : Differs m name n e)
    (hname : NulTerminated name n) :
    ¬ entryMatches m name e ∧ ReadsInside m (entryReads m name e) := by
  have hlen := h.length_ne_zero
  have hlt := LoaderMem.chars_lt hlen
  -- the first character that differs
  obtain ⟨hi, hn, hne⟩ := Nat.find_spec h
  have hmin : ∀ j < Nat.find h, name j ≠ 0 ∧ name j = m.buffer e j := by
    intro j hj
    refine ⟨hname.chars j (by omega), ?_⟩
    by_contra hcon
    exact Nat.find_min h hj ⟨by omega, by omega, fun heq => hcon heq.symm⟩
  have hstop := stop_eq (by omega) hmin (Or.inr fun heq => hne heq.symm)
  refine ⟨fun hmatch => ?_, fun r hr => ?_⟩
  · exact hne ((entryMatches_iff hlen hstop).mp hmatch).symm
  · obtain ⟨hr, hle⟩ := (mem_entryReads_iff hlen hstop r).mp hr
    rw [hr]
    exact Nat.lt_of_le_of_lt hle hi

/-- An empty entry matches whatever is asked for. -/
theorem empty_matches (h : m.length e = 0) :
    entryMatches m name e ∧ entryReads m name e = [] := by
  have hzero : (m.length e).toNat = 0 := congrArg BitVec.toNat h
  unfold entryMatches entryReads strnCmpAt strnCmpReads
  rw [if_pos hzero, if_pos hzero]
  exact ⟨rfl, rfl⟩

theorem empty_named_iff (h : m.length e = 0) :
    IsNamed m name n e ↔ n = 0 := by
  have hzero : m.chars e = 0 := by
    unfold LoaderMem.chars
    rw [h]
    rfl
  unfold IsNamed LoaderMem.baseDllName
  rw [hzero, List.range_zero, List.map_nil, eq_comm, List.map_eq_nil_iff,
    List.range_eq_nil]

/-- Any other entry is taken for another one's name, or read beyond its
end. -/
theorem wrong_of_not_differs (hlen : m.length e ≠ 0)
    (hname : NulTerminated name n) (h : ¬ Differs m name n e) :
    (entryMatches m name e ∧ ¬ IsNamed m name n e)
      ∨ ¬ ReadsInside m (entryReads m name e) := by
  have hlt := LoaderMem.chars_lt hlen
  have hagree : ∀ j < m.chars e, j ≤ n → name j = m.buffer e j := by
    intro j hj hle
    by_contra hcon
    exact h ⟨j, hj, hle, fun heq => hcon heq.symm⟩
  rcases Nat.lt_or_ge n (m.chars e) with hn | hn
  · -- the entry begins with the name and its NUL
    have hstop := stop_eq (e := e) (by omega) (fun j hj =>
      ⟨hname.chars j hj, hagree j (by omega) (by omega)⟩)
      (Or.inl hname.nul)
    refine Or.inl ⟨(entryMatches_iff hlen hstop).mpr
      (hagree n hn (Nat.le_refl n)), fun hnamed => ?_⟩
    have hlen' := (isNamed_iff.mp hnamed).1
    omega
  · -- the name begins with the entry
    right
    intro hin
    have hge : m.chars e
        ≤ strnCmpStop name (m.buffer e) (m.length e).toNat 0 := by
      rw [strnCmpStop_agree (k := m.chars e) _ 0 hlt (fun j _ hj =>
        ⟨hname.chars j (by omega), hagree j (by omega) (by omega)⟩),
        Nat.zero_add]
      exact strnCmpStop_ge _ _ _ _
    have hread := hin (e, m.chars e)
      ((mem_entryReads_iff hlen rfl _).mpr ⟨rfl, hge⟩)
    exact absurd hread (Nat.lt_irrefl _)

-- ========================================================= the whole list

variable {es : List UINT64}

/-- The first entry of the name. -/
def firstNamed (m : LoaderMem) (name : Nat → CHAR16) (n : Nat)
    (entries : List UINT64) : Option UINT64 :=
  entries.find? fun e => IsNamed m name n e

/-- The entries before the first empty one. -/
def beforeEmpty (m : LoaderMem) (entries : List UINT64) : List UINT64 :=
  entries.takeWhile fun e => m.length e ≠ 0

theorem firstNamed_pass (h : ¬ IsNamed m name n e) :
    firstNamed m name n (e :: es) = firstNamed m name n es := by
  simp [firstNamed, h]

theorem firstNamed_stop (h : IsNamed m name n e) :
    firstNamed m name n (e :: es) = some e := by
  simp [firstNamed, h]

theorem isNamed_of_firstNamed {entries : List UINT64}
    (h : firstNamed m name n entries = some e) : IsNamed m name n e := by
  simpa using List.find?_some h

theorem beforeEmpty_pass (h : m.length e ≠ 0) :
    beforeEmpty m (e :: es) = e :: beforeEmpty m es := by
  unfold beforeEmpty
  rw [List.takeWhile_cons_of_pos (by simpa using h)]

theorem beforeEmpty_stop (h : m.length e = 0) :
    beforeEmpty m (e :: es) = [] := by
  unfold beforeEmpty
  rw [List.takeWhile_cons_of_neg (by simpa using h)]

/-- What is asked of a search along a list: the first entry of the name,
and nothing read behind a count. -/
structure FindsModule (m : LoaderMem) (name : Nat → CHAR16) (n : Nat)
    (entries : List UINT64) (r : ModuleSearch) : Prop where
  result : r.result = firstNamed m name n entries
  reads : ReadsInside m r.reads

/-- Each entry before the first empty one differs from the name, and there
is an empty one for the empty name only. -/
structure NamesDiffer (m : LoaderMem) (name : Nat → CHAR16) (n : Nat)
    (entries : List UINT64) : Prop where
  differ : ∀ e ∈ beforeEmpty m entries, Differs m name n e
  empty : (∃ e ∈ entries, m.length e = 0) → n = 0

theorem readsInside_append {l l' : List (UINT64 × Nat)} :
    ReadsInside m (l ++ l') ↔ ReadsInside m l ∧ ReadsInside m l' := by
  unfold ReadsInside
  exact List.forall_mem_append

/-- Past an entry that does not match. -/
theorem visit_pass (h : ¬ entryMatches m name e) :
    visit m name (e :: es) = ⟨(visit m name es).result,
      entryReads m name e ++ (visit m name es).reads⟩ := if_neg h

theorem visit_stop (h : entryMatches m name e) :
    visit m name (e :: es) = ⟨some e, entryReads m name e⟩ := if_pos h

/-- An entry that differs takes no part in the search. -/
theorem findsModule_differs (hname : NulTerminated name n)
    (h : Differs m name n e) :
    FindsModule m name n (e :: es) (visit m name (e :: es))
      ↔ FindsModule m name n es (visit m name es) := by
  obtain ⟨hpass, hreads⟩ := h.passed hname
  rw [visit_pass hpass]
  constructor
  · rintro ⟨hres, hin⟩
    rw [firstNamed_pass h.not_named] at hres
    exact ⟨hres, (readsInside_append.mp hin).2⟩
  · rintro ⟨hres, hin⟩
    refine ⟨?_, readsInside_append.mpr ⟨hreads, hin⟩⟩
    rw [firstNamed_pass h.not_named]
    exact hres

theorem namesDiffer_differs (h : Differs m name n e) :
    NamesDiffer m name n (e :: es) ↔ NamesDiffer m name n es := by
  have hlen := h.length_ne_zero
  constructor
  · rintro ⟨hdiff, hempty⟩
    rw [beforeEmpty_pass hlen] at hdiff
    refine ⟨fun x hx => hdiff x (List.mem_cons_of_mem e hx), ?_⟩
    rintro ⟨x, hx, hzero⟩
    exact hempty ⟨x, List.mem_cons_of_mem e hx, hzero⟩
  · rintro ⟨hdiff, hempty⟩
    refine ⟨?_, ?_⟩
    · rw [beforeEmpty_pass hlen, List.forall_mem_cons]
      exact ⟨h, hdiff⟩
    · rintro ⟨x, hx, hzero⟩
      rcases List.mem_cons.mp hx with rfl | hx
      · exact absurd hzero hlen
      · exact hempty ⟨x, hx, hzero⟩

/-- An empty entry ends the search, rightly for the empty name. -/
theorem findsModule_empty (h : m.length e = 0) :
    FindsModule m name n (e :: es) (visit m name (e :: es)) ↔ n = 0 := by
  obtain ⟨hmatch, hreads⟩ :
      entryMatches m name e ∧ entryReads m name e = [] := empty_matches h
  have hnamed : IsNamed m name n e ↔ n = 0 := empty_named_iff h
  rw [visit_stop hmatch, hreads, ← hnamed]
  constructor
  · rintro ⟨hres, -⟩
    exact isNamed_of_firstNamed hres.symm
  · intro hnamed
    refine ⟨?_, List.forall_mem_nil _⟩
    rw [firstNamed_stop hnamed]

theorem namesDiffer_empty (h : m.length e = 0) :
    NamesDiffer m name n (e :: es) ↔ n = 0 := by
  constructor
  · intro hdiff
    exact hdiff.empty ⟨e, List.mem_cons_self, h⟩
  · intro hn
    refine ⟨?_, fun _ => hn⟩
    rw [beforeEmpty_stop h]
    exact List.forall_mem_nil _

theorem visit_findsModule_iff (hname : NulTerminated name n)
    (entries : List UINT64) :
    FindsModule m name n entries (visit m name entries)
      ↔ NamesDiffer m name n entries := by
  induction entries with
  | nil =>
    refine ⟨fun _ => ⟨List.forall_mem_nil _, ?_⟩, fun _ => ⟨rfl, ?_⟩⟩
    · rintro ⟨e, he, -⟩
      cases he
    · exact List.forall_mem_nil _
  | cons e es ih =>
    by_cases hdiffers : Differs m name n e
    · rw [findsModule_differs hname hdiffers, namesDiffer_differs hdiffers]
      exact ih
    by_cases hlen : m.length e = 0
    · rw [findsModule_empty hlen, namesDiffer_empty hlen]
    · have htake : e ∈ beforeEmpty m (e :: es) := by
        rw [beforeEmpty_pass hlen]
        exact List.mem_cons_self
      refine iff_of_false (fun h => ?_) (fun h => hdiffers (h.differ e htake))
      have hreads := h.reads
      have hres := h.result
      rcases wrong_of_not_differs hlen hname hdiffers with ⟨hmatch, hno⟩ | hout
      · rw [visit_stop hmatch] at hres
        exact hno (isNamed_of_firstNamed hres.symm)
      · by_cases hmatch : entryMatches m name e
        · rw [visit_stop hmatch] at hreads
          exact hout hreads
        · rw [visit_pass hmatch] at hreads
          exact hout (readsInside_append.mp hreads).1

-- ======================================== the module list of the hook

/-- `StrnCmp` on two strings, by their characters. -/
theorem strnCmp_drop (a b : List CHAR16) (length i : Nat) :
    strnCmp (a.drop i) (b.drop i) length
      = if length = 0 then 0
        else
          let k := strnCmpStop (a.getD · 0) (b.getD · 0) length i
          ((a.getD k 0).toNat : Int) - (b.getD k 0).toNat := by
  have hhead : ∀ (l : List CHAR16) (i : Nat),
      (l.drop i).headD 0 = l.getD i 0 := by
    intro l i
    rw [List.headD_eq_head?_getD, List.head?_drop, List.getD_eq_getElem?_getD]
  induction length generalizing i with
  | zero => rfl
  | succ length ih =>
    rw [strnCmp, if_neg (Nat.succ_ne_zero length), strnCmpStop]
    dsimp only
    rw [hhead, hhead, List.tail_drop, List.tail_drop]
    split
    · next hgo =>
      rw [ih (i + 1), if_neg (Nat.ne_of_gt hgo.2.2.2)]
    · rfl

/-- What `StrnCmp` depends on: the name up to its NUL, and the characters
the count allows. -/
theorem strnCmpStop_congr {first first' second second' : Nat → CHAR16}
    (length i : Nat) (hin : i ≤ n) (hfirst : ∀ j ≤ n, first j = first' j)
    (hnul : first n = 0)
    (hsecond : ∀ j, i ≤ j → j < i + length → second j = second' j) :
    strnCmpStop first second length i = strnCmpStop first' second' length i
      ∧ strnCmpStop first second length i ≤ n := by
  induction length generalizing i with
  | zero => exact ⟨rfl, hin⟩
  | succ length ih =>
    have hheads := hsecond i (Nat.le_refl i) (by omega)
    rw [strnCmpStop, strnCmpStop, hfirst i hin, hheads]
    split
    · next hgo =>
      have hne : i ≠ n := by
        rintro rfl
        rw [← hfirst i hin] at hgo
        exact hgo.1 hnul
      exact ih (i + 1) (by omega) fun j hj hlt =>
        hsecond j (by omega) (by omega)
    · exact ⟨rfl, hin⟩

theorem strnCmpStop_lt (first second : Nat → CHAR16) (length i : Nat)
    (hpos : 0 < length) :
    strnCmpStop first second length i < i + length := by
  induction length generalizing i with
  | zero => exact absurd hpos (Nat.lt_irrefl 0)
  | succ length ih =>
    rw [strnCmpStop]
    split
    · next hgo =>
      have hlt := ih (i + 1) hgo.2.2.2
      omega
    · omega

/-- The entries as the hook's own list has them. -/
structure Records (m : LoaderMem) (record : UINT64 → KldrDataTableEntry) :
    Prop where
  length : ∀ e, (record e).baseDllNameLength = m.length e
  name : ∀ e, ∀ i < (m.length e).toNat,
    (record e).baseDllName.getD i 0 = m.buffer e i

theorem strnCmp_eq_at {record : UINT64 → KldrDataTableEntry}
    (hrecord : Records m record) (hname : NulTerminated name n)
    {names : List CHAR16} (hnames : ∀ i ≤ n, names.getD i 0 = name i)
    (e : UINT64) :
    strnCmp names (record e).baseDllName
        (record e).baseDllNameLength.toNat
      = strnCmpAt name (m.buffer e) (m.length e).toNat := by
  rw [hrecord.length]
  have hdrop := strnCmp_drop names (record e).baseDllName
    (m.length e).toNat 0
  rw [List.drop_zero, List.drop_zero] at hdrop
  rw [hdrop]
  unfold strnCmpAt
  split
  · rfl
  · next hpos =>
    have hstop : strnCmpStop (names.getD · 0)
          ((record e).baseDllName.getD · 0) (m.length e).toNat 0
          = strnCmpStop name (m.buffer e) (m.length e).toNat 0
        ∧ strnCmpStop (names.getD · 0)
          ((record e).baseDllName.getD · 0) (m.length e).toNat 0 ≤ n :=
      strnCmpStop_congr _ 0 (Nat.zero_le n) hnames
        ((hnames n (Nat.le_refl n)).trans hname.nul)
        (fun j _ hlt => hrecord.name e j (by omega))
    have hlt := strnCmpStop_lt name (m.buffer e) (m.length e).toNat 0
      (Nat.pos_of_ne_zero hpos)
    obtain ⟨heq, hle⟩ := hstop
    dsimp only
    rw [heq] at hle ⊢
    rw [hnames _ hle, hrecord.name e _ (by omega)]

/-- The search on the list in memory is that of the hook's list. -/
theorem visit_getModule {record : UINT64 → KldrDataTableEntry}
    (hrecord : Records m record) (hname : NulTerminated name n)
    {names : List CHAR16} (hnames : ∀ i ≤ n, names.getD i 0 = name i)
    (entries : List UINT64) :
    (visit m name entries).result.map record
      = getModule (entries.map record) names := by
  unfold getModule
  induction entries with
  | nil => rfl
  | cons e es ih =>
    have hmatch := strnCmp_eq_at hrecord hname hnames e
    rw [List.map_cons]
    by_cases h : entryMatches m name e
    · have hzero : strnCmpAt name (m.buffer e) (m.length e).toNat = 0 := h
      rw [visit_stop h, List.find?_cons_of_pos (by
        rw [hmatch, hzero]
        rfl)]
      rfl
    · have hne : ¬ strnCmpAt name (m.buffer e) (m.length e).toNat = 0 := h
      rw [visit_pass h, List.find?_cons_of_neg (by
        rw [hmatch]
        simpa using hne)]
      exact ih

/-- Nonempty names that end with a NUL, and have none before. -/
def TerminatedEntry (m : LoaderMem) (e : UINT64) : Prop :=
  (m.length e).toNat = 2 * m.chars e ∧ 0 < m.chars e
    ∧ NulTerminated (m.buffer e) (m.chars e)

/-- Such an entry matches when it has the name. -/
theorem TerminatedEntry.matches_iff (h : TerminatedEntry m e)
    (hname : NulTerminated name n) :
    entryMatches m name e ↔ IsNamed m name n e := by
  obtain ⟨heven, hpos, hterm⟩ := h
  have hlen : m.length e ≠ 0 := by
    intro hzero
    rw [hzero] at heven
    have hnat : (0 : BitVec 16).toNat = 0 := rfl
    omega
  constructor
  · intro hmatch
    have hsame : ¬ Differs m name n e := fun hd => (hd.passed hname).1 hmatch
    have hagree : ∀ j < m.chars e, j ≤ n → m.buffer e j = name j := by
      intro j hj hle
      by_contra hcon
      exact hsame ⟨j, hj, hle, hcon⟩
    have hle : m.chars e ≤ n := by
      by_contra hlt
      have hnul := hagree n (by omega) (Nat.le_refl n)
      rw [hname.nul] at hnul
      exact hterm.chars n (by omega) hnul
    have hge : n ≤ m.chars e := by
      by_contra hlt
      have hchar := hname.chars (m.chars e) (by omega)
      have hstop := stop_eq (i := m.chars e) (e := e) (by omega)
        (fun j hj => ⟨hname.chars j (by omega),
          (hagree j hj (by omega)).symm⟩)
        (Or.inr fun heq => hchar (heq.trans hterm.nul))
      have hcon := (entryMatches_iff hlen hstop).mp hmatch
      exact hchar (hcon.trans hterm.nul)
    refine isNamed_iff.mpr ⟨Nat.le_antisymm hle hge, fun i hi => ?_⟩
    exact hagree i (by omega) (by omega)
  · intro hnamed
    obtain ⟨hchars, hall⟩ := isNamed_iff.mp hnamed
    have hstop := stop_eq (i := n) (e := e) (by omega) (fun j hj =>
      ⟨hname.chars j hj, (hall j hj).symm⟩) (Or.inl hname.nul)
    rw [entryMatches_iff hlen hstop, hname.nul, ← hchars, hterm.nul]

/-- So the result is right on a list of such entries, for all that is
read behind them. -/
theorem visit_result_of_terminated (hname : NulTerminated name n)
    (entries : List UINT64) (hall : ∀ e ∈ entries, TerminatedEntry m e) :
    (visit m name entries).result = firstNamed m name n entries := by
  induction entries with
  | nil => rfl
  | cons e es ih =>
    rw [List.forall_mem_cons] at hall
    have hiff := hall.1.matches_iff hname
    by_cases hmatch : entryMatches m name e
    · rw [visit_stop hmatch, firstNamed_stop (hiff.mp hmatch)]
    · rw [visit_pass hmatch, firstNamed_pass fun h => hmatch (hiff.mpr h)]
      exact ih hall.2

/-- For every well-formed list and every name: `GetModule` ends, and it
returns the first entry of that name (none if there is none) without
reading behind the count of an entry exactly when each entry before the
first empty one differs from the name, its NUL included, in a character
of its own, and there is an empty one for the empty name only. -/
theorem getModule_right_iff (m : LoaderMem) (list : UINT64)
    (entries : List UINT64)
    (hlinked : Linked m list (m.forwardLink list) entries)
    (name : Nat → CHAR16) (n : Nat) (hname : NulTerminated name n) :
    ∃ r, (∀ fuel, entries.length < fuel →
        getModuleAt m list name fuel = some r)
      ∧ (FindsModule m name n entries r ↔ NamesDiffer m name n entries) := by
  refine ⟨visit m name entries, fun fuel hfuel => ?_,
    visit_findsModule_iff hname entries⟩
  exact getModuleLoop_eq m list name entries _ hlinked [] fuel hfuel

end

/-- A list of one entry, of one character and what stands behind it. -/
def oneEntry (char behind : CHAR16) : LoaderMem where
  forwardLink := fun p => if p = 0x1000 then 0x2000 else 0x1000
  length := fun _ => 2
  buffer := fun _ i => if i = 0 then char else behind

/-- `a` -/
def nameA (i : Nat) : CHAR16 := if i = 0 then 0x61 else 0

/-- The characters of a string, and NULs behind them. -/
def wide (s : String) (i : Nat) : CHAR16 :=
  BitVec.ofNat 16 ((s.toList.map Char.toNat).getD i 0)

/-- A list of three modules; the second has the beginning of the name of
the kernel. -/
def threeModules : LoaderMem where
  forwardLink := fun p =>
    if p = 0x1000 then 0x2000 else if p = 0x2000 then 0x3000
    else if p = 0x3000 then 0x4000 else 0x1000
  length := fun p =>
    if p = 0x2000 then 2 * 9 else if p = 0x3000 then 2 * 8 else 2 * 7
  buffer := fun p =>
    if p = 0x2000 then wide "ntdll.dll" else if p = 0x3000 then
      wide "ntos.exe" else wide "hal.dll"

/-- `ntoskrnl.exe` is none of them. -/
theorem getModule_right_iff_three :
    ∃ r, (∀ fuel, 3 < fuel →
        getModuleAt threeModules 0x1000 (wide "ntoskrnl.exe") fuel = some r)
      ∧ FindsModule threeModules (wide "ntoskrnl.exe") 12
        [0x2000, 0x3000, 0x4000] r := by
  obtain ⟨r, hrun, hright⟩ := getModule_right_iff threeModules 0x1000
    [0x2000, 0x3000, 0x4000]
    ⟨rfl, by decide, by decide, rfl, by decide, by decide, rfl, by decide,
      by decide, rfl⟩ (wide "ntoskrnl.exe") 12
    ⟨by decide +kernel, by decide +kernel⟩
  refine ⟨r, hrun, hright.mpr ⟨?_, ?_⟩⟩
  · rw [beforeEmpty_pass (by decide), beforeEmpty_pass (by decide),
      beforeEmpty_pass (by decide), List.forall_mem_cons,
      List.forall_mem_cons, List.forall_mem_cons]
    -- they differ at `d`, at the full stop and at `h`
    refine ⟨⟨2, ?_⟩, ⟨4, ?_⟩, ⟨0, ?_⟩, List.forall_mem_nil _⟩
    · decide +kernel
    · decide +kernel
    · decide +kernel
  · rintro ⟨e, -, hzero⟩
    have hlength : ∀ p, threeModules.length p ≠ 0 := by
      intro p
      unfold threeModules
      dsimp only
      split
      · decide
      split
      · decide
      · decide
    exact absurd hzero (hlength e)

/-- An entry `a` with another character behind it is not found, and that
character is read; with a NUL behind it, it is found, and the NUL read. -/
theorem getModule_reads_behind :
    getModuleAt (oneEntry 0x61 0x62) 0x1000 nameA 2
        = some ⟨none, [(0x2000, 0), (0x2000, 1)]⟩
      ∧ firstNamed (oneEntry 0x61 0x62) nameA 1 [0x2000] = some 0x2000
      ∧ getModuleAt (oneEntry 0x61 0) 0x1000 nameA 2
        = some ⟨some 0x2000, [(0x2000, 0), (0x2000, 1)]⟩
      ∧ ¬ FindsModule (oneEntry 0x61 0x62) nameA 1 [0x2000]
        ⟨none, [(0x2000, 0), (0x2000, 1)]⟩
      ∧ ¬ FindsModule (oneEntry 0x61 0) nameA 1 [0x2000]
        ⟨some 0x2000, [(0x2000, 0), (0x2000, 1)]⟩ := by
  refine ⟨rfl, rfl, rfl, fun h => ?_, fun h => ?_⟩
  · have hread := h.reads (0x2000, 1) (by simp)
    revert hread
    decide
  · have hread := h.reads (0x2000, 1) (by simp)
    revert hread
    decide

end Edk2Exynos.KernelErrata
