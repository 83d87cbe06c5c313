/-
When the walk of a LUN's table entries over its slots stores every entry
in its own slot: the list-level half of the write-back law.

# The two lists

`storedSlots` is the specification: the used slots of an entry array
take the table entries of the LUN in turn, which is the order in which
the table was read from them, and an unused slot takes none. `walkSlots`
is what the code does: every entry with a nonzero `Data1` takes the next
slot that accepts it, used or not.

The two agree for one reason only. `Aligned` says that the n-th entry
finds its slot in the n-th place: no unused slot lies before it, no
entry before it was skipped, and the slot accepts it. A GUID-only update
also tolerates a tail of skipped entries as long as nothing was to be
stored for them.

# Why the condition is exact

`aligned_of_walk` turns one misplaced entry into a wrong slot. With
attributes to store, giving that entry an attribute word of its own
shows the slot it misses; with GUIDs alone, an unused slot under a
stored GUID shows by itself.
-/
import Edk2Exynos.BootSlot.SlotWalk

namespace Edk2Exynos.BootSlot

open Lib

-- ===================================================== the specification

/-- The entry's type GUID is not all zero. -/
def EfiPartitionEntry.used (e : EfiPartitionEntry) : Bool :=
  decide (e.partitionTypeGuid ≠ EfiGuid.zero)

/-- The walk handles the table entry: `Data1` is nonzero. -/
def PartitionEntry.handled (p : PartitionEntry) : Bool :=
  decide (p.partEntry.partitionTypeGuid.data1 ≠ 0)

/-- An entry is handled exactly when its type GUID has a `Data1`. -/
theorem handled_iff {p : PartitionEntry} :
    p.handled ↔ p.partEntry.partitionTypeGuid.data1 ≠ 0 :=
  decide_eq_true_iff

/-- The array an update should leave: each used slot with the selected
fields of its own table entry, as far as the table goes. -/
def storedSlots (u : UpdateType) :
    List PartitionEntry → List EfiPartitionEntry → List EfiPartitionEntry
  | _, [] => []
  | [], e :: es => e :: es
  | r :: rs, e :: es =>
      if e.used then storeFields u r e :: storedSlots u rs es
      else e :: storedSlots u (r :: rs) es

/-- Every table entry meets its own slot. -/
def Aligned (u : UpdateType) :
    List PartitionEntry → List EfiPartitionEntry → Prop
  | [], _ => True
  | _ :: _, [] => False
  | r :: rs, e :: es =>
      (e.used ∧ r.handled ∧ Accepts u r e ∧ Aligned u rs es)
      ∨ (u = .partitionGuid ∧ (∀ q ∈ r :: rs, ¬ q.handled)
        ∧ storedSlots u (r :: rs) (e :: es) = e :: es)

/-- The table with new attribute words. -/
def setAttributes (f : Nat → UINT64) (ps : List PartitionEntry) :
    List PartitionEntry :=
  ps.mapIdx fun i p => p.withAttributes (f i)

-- ========================================================== small lemmas

theorem storedSlots_nil (u : UpdateType) (es : List EfiPartitionEntry) :
    storedSlots u [] es = es := by
  cases es <;> rfl

/-- The first entry gets the first word, the others the rest. -/
theorem setAttributes_cons (f : Nat → UINT64) (p : PartitionEntry)
    (ps : List PartitionEntry) :
    setAttributes f (p :: ps)
      = p.withAttributes (f 0) :: setAttributes (fun i => f (i + 1)) ps :=
  List.mapIdx_cons

/-- A choice of attribute words with `v` put first. -/
def consAttr (v : UINT64) (f : Nat → UINT64) : Nat → UINT64
  | 0 => v
  | i + 1 => f i

theorem setAttributes_consAttr (v : UINT64) (f : Nat → UINT64)
    (p : PartitionEntry) (ps : List PartitionEntry) :
    setAttributes (consAttr v f) (p :: ps)
      = p.withAttributes v :: setAttributes f ps :=
  setAttributes_cons _ p ps

-- a new attribute word changes neither what the walk handles nor what a
-- slot accepts

theorem filter_handled_pos {r : PartitionEntry} (h : r.handled)
    (v : UINT64) (rs : List PartitionEntry) :
    (r.withAttributes v :: rs).filter PartitionEntry.handled
      = r.withAttributes v :: rs.filter PartitionEntry.handled :=
  List.filter_cons_of_pos h

theorem filter_handled_neg {r : PartitionEntry} (h : ¬ r.handled)
    (v : UINT64) (rs : List PartitionEntry) :
    (r.withAttributes v :: rs).filter PartitionEntry.handled
      = rs.filter PartitionEntry.handled :=
  List.filter_cons_of_neg h

/-- An entry that its slot accepts is stored there, and both move on. -/
theorem walkSlots_accept {u : UpdateType} {r : PartitionEntry}
    {e : EfiPartitionEntry} (h : Accepts u r e) (v : UINT64)
    (qs : List PartitionEntry) (es : List EfiPartitionEntry) :
    walkSlots u (r.withAttributes v :: qs) (e :: es)
      = storeFields u (r.withAttributes v) e :: walkSlots u qs es :=
  if_pos h

/-- An entry that the slot refuses is passed over, and the slot stays. -/
theorem walkSlots_refuse {u : UpdateType} {r : PartitionEntry}
    {e : EfiPartitionEntry} (h : ¬ Accepts u r e) (v : UINT64)
    (qs : List PartitionEntry) (es : List EfiPartitionEntry) :
    walkSlots u (r.withAttributes v :: qs) (e :: es)
      = walkSlots u qs (e :: es) :=
  if_neg h

/-- An unused slot has `Data1 = 0`. -/
theorem data1_of_not_used {e : EfiPartitionEntry} (h : ¬ e.used) :
    e.partitionTypeGuid.data1 = 0 := by
  have hz : e.partitionTypeGuid = EfiGuid.zero := by
    unfold EfiPartitionEntry.used at h
    simpa using h
  rw [hz]
  rfl

/-- A GUID-only update does not look at attribute words. -/
theorem storedSlots_guid (f : Nat → UINT64) :
    ∀ (rows : List PartitionEntry) (slots : List EfiPartitionEntry),
    storedSlots .partitionGuid (setAttributes f rows) slots
      = storedSlots .partitionGuid rows slots := by
  intro rows slots
  induction slots generalizing f rows with
  | nil => cases rows <;> rfl
  | cons e es ih =>
      cases rows with
      | nil => rfl
      | cons r rs =>
          rw [setAttributes_cons]
          unfold storedSlots
          split
          · rw [ih]
            rfl
          · have h := ih f (r :: rs)
            rw [setAttributes_cons] at h
            rw [h]

/-- Alignment does not look at attribute words. -/
theorem Aligned.setAttributes {u : UpdateType}
    {rows : List PartitionEntry} {slots : List EfiPartitionEntry}
    (h : Aligned u rows slots) (f : Nat → UINT64) :
    Aligned u (setAttributes f rows) slots := by
  induction rows generalizing f slots with
  | nil => trivial
  | cons r rs ih =>
      cases slots with
      | nil => cases h
      | cons e es =>
          rw [setAttributes_cons]
          rcases h with ⟨hu, hr, hacc, hrest⟩ | ⟨rfl, hnone, hsame⟩
          · exact Or.inl ⟨hu, hr, hacc, ih hrest _⟩
          · refine Or.inr ⟨rfl, ?_, ?_⟩
            · intro q hq
              rw [← setAttributes_cons] at hq
              obtain ⟨i, hi, rfl⟩ := List.mem_mapIdx.mp hq
              exact hnone (r :: rs)[i] (List.getElem_mem hi)
            · rw [← setAttributes_cons, storedSlots_guid]
              exact hsame

-- ==================================================== alignment suffices

/-- Aligned entries are stored where they belong. -/
theorem walkSlots_of_aligned {u : UpdateType} {rows : List PartitionEntry}
    {slots : List EfiPartitionEntry} (h : Aligned u rows slots) :
    walkSlots u (rows.filter PartitionEntry.handled) slots
      = storedSlots u rows slots := by
  induction rows generalizing slots with
  | nil => rw [List.filter_nil, walkSlots_nil, storedSlots_nil]
  | cons r rs ih =>
      cases slots with
      | nil => cases h
      | cons e es =>
          rcases h with ⟨hu, hr, hacc, hrest⟩ | ⟨-, hnone, hsame⟩
          · rw [List.filter_cons_of_pos hr]
            unfold walkSlots storedSlots
            rw [if_pos hacc, if_pos hu, ih hrest]
          · have hfil : (r :: rs).filter PartitionEntry.handled = [] :=
              List.filter_eq_nil_iff.mpr hnone
            rw [hfil, walkSlots_nil, hsame]

-- =================================================== alignment is needed

/-- The stored attributes are those of the table. -/
theorem storeFields_attributes {u : UpdateType} (hu : u.attributesMask)
    (p : PartitionEntry) (e : EfiPartitionEntry) :
    (storeFields u p e).attributes = p.partEntry.attributes := by
  unfold storeFields
  exact if_pos hu

/-- The stored type GUID is that of the table. -/
theorem storeFields_guid {u : UpdateType} (hu : u.guidMask)
    (p : PartitionEntry) (e : EfiPartitionEntry) :
    (storeFields u p e).partitionTypeGuid
      = p.partEntry.partitionTypeGuid := by
  unfold storeFields
  exact if_pos hu

/-- A walk of entries that all carry the attribute word of a slot leaves
that word there. -/
theorem walkSlots_attributes {u : UpdateType} :
    ∀ {qs : List PartitionEntry} {slots : List EfiPartitionEntry}
      {k : Nat} {e e' : EfiPartitionEntry}, slots[k]? = some e →
    (∀ q ∈ qs, q.partEntry.attributes = e.attributes) →
    (walkSlots u qs slots)[k]? = some e' →
    e'.attributes = e.attributes := by
  intro qs
  induction qs with
  | nil =>
      intro slots k e e' h _ h'
      rw [walkSlots_nil, h, Option.some.injEq] at h'
      rw [h']
  | cons q qs ih =>
      intro slots k e e' h hq h'
      have hqs : ∀ p ∈ qs, p.partEntry.attributes = e.attributes :=
        fun p hp => hq p (List.mem_cons_of_mem q hp)
      cases slots with
      | nil => cases h
      | cons x xs =>
          unfold walkSlots at h'
          by_cases hacc : Accepts u q x
          · rw [if_pos hacc] at h'
            cases k with
            | zero =>
                rw [List.getElem?_cons_zero, Option.some.injEq] at h h'
                subst h
                subst h'
                unfold storeFields
                dsimp only
                rw [hq q List.mem_cons_self, ite_self]
            | succ k =>
                exact ih (show xs[k]? = some e from h) hqs h'
          · rw [if_neg hacc] at h'
            exact ih h hqs h'

/-- The first table entry belongs in the first used slot. -/
theorem storedSlots_first {u : UpdateType} :
    ∀ {slots : List EfiPartitionEntry},
    0 < (slots.filter EfiPartitionEntry.used).length →
    ∃ (k : Nat) (e : EfiPartitionEntry), slots[k]? = some e
      ∧ ∀ r rs, (storedSlots u (r :: rs) slots)[k]?
        = some (storeFields u r e) := by
  intro slots
  induction slots with
  | nil => intro h; cases h
  | cons e es ih =>
      intro h
      by_cases hu : e.used = true
      · refine ⟨0, e, rfl, fun r rs => ?_⟩
        unfold storedSlots
        rw [if_pos hu, List.getElem?_cons_zero]
      · rw [List.filter_cons_of_neg hu] at h
        obtain ⟨k, x, hx, hs⟩ := ih h
        refine ⟨k + 1, x, hx, fun r rs => ?_⟩
        unfold storedSlots
        rw [if_neg hu, List.getElem?_cons_succ]
        exact hs r rs

theorem mem_setAttributes_const {v : UINT64} {ps : List PartitionEntry}
    {q : PartitionEntry} (h : q ∈ setAttributes (fun _ => v) ps) :
    q.partEntry.attributes = v := by
  induction ps with
  | nil => cases h
  | cons p ps ih =>
      rw [setAttributes_cons] at h
      rcases List.mem_cons.mp h with rfl | h
      · rfl
      · exact ih h

/-- With attributes to store, the first entry of the table cannot be
left out of the walk: some attribute word would be lost. -/
theorem first_entry_stored (r : PartitionEntry)
    (rs : List PartitionEntry) {u : UpdateType} (hu : u.attributesMask)
    {slots : List EfiPartitionEntry}
    (hlen : 0 < (slots.filter EfiPartitionEntry.used).length) :
    ∃ v f, walkSlots u
        ((setAttributes f rs).filter PartitionEntry.handled) slots
      ≠ storedSlots u (r.withAttributes v :: setAttributes f rs) slots := by
  obtain ⟨k, e, hk, hstored⟩ := storedSlots_first (u := u) hlen
  refine ⟨e.attributes + 1, fun _ => e.attributes, fun heq => ?_⟩
  have hk' := hstored (r.withAttributes (e.attributes + 1))
    (setAttributes (fun _ => e.attributes) rs)
  rw [← heq] at hk'
  have hv := walkSlots_attributes hk (fun q hq =>
    mem_setAttributes_const (List.mem_of_mem_filter hq)) hk'
  rw [storeFields_attributes hu] at hv
  have hne : e.attributes + 1 ≠ e.attributes := by
    intro hcon
    bv_omega
  exact hne hv

/-- Keeping every attribute word is one choice of attribute words. -/
theorem exists_setAttributes_self (ps : List PartitionEntry) :
    ∃ f, setAttributes f ps = ps := by
  induction ps with
  | nil => exact ⟨fun _ => 0, rfl⟩
  | cons p ps ih =>
      obtain ⟨f, hf⟩ := ih
      refine ⟨consAttr p.partEntry.attributes f, ?_⟩
      rw [setAttributes_consAttr, hf]
      rfl

/-- One entry of the induction: the first entry is handled, and its slot
is the first one and accepts it. -/
theorem first_aligned {u : UpdateType} (hu : u.attributesMask)
    {r : PartitionEntry} {rs : List PartitionEntry}
    {e : EfiPartitionEntry} {es : List EfiPartitionEntry}
    (hlen : 0 < ((e :: es).filter EfiPartitionEntry.used).length)
    (hall : ∀ v f, walkSlots u
        ((r.withAttributes v :: setAttributes f rs).filter
          PartitionEntry.handled) (e :: es)
      = storedSlots u (r.withAttributes v :: setAttributes f rs)
          (e :: es)) :
    r.handled ∧ Accepts u r e ∧ e.used := by
  have hr : r.handled = true := by
    by_contra hr
    obtain ⟨v, f, hf⟩ := first_entry_stored r rs hu hlen
    have h := hall v f
    rw [filter_handled_neg hr] at h
    exact hf h
  have hacc : Accepts u r e := by
    by_contra hacc
    obtain ⟨v, f, hf⟩ := first_entry_stored r rs hu hlen
    have h := hall v f
    rw [filter_handled_pos hr, walkSlots_refuse hacc] at h
    exact hf h
  refine ⟨hr, hacc, ?_⟩
  by_contra hused
  -- an unused slot would keep the word of the entry walked over it
  have h := hall (e.attributes + 1) fun _ => 0
  rw [filter_handled_pos hr, walkSlots_accept hacc] at h
  unfold storedSlots at h
  rw [if_neg hused] at h
  have hhead := congrArg EfiPartitionEntry.attributes (List.cons.inj h).1
  rw [storeFields_attributes hu] at hhead
  have hne : e.attributes + 1 ≠ e.attributes := by
    intro hcon
    bv_omega
  exact hne hhead

/-- The same for GUIDs: the first GUID the walk stores is the first
entry's, and the first slot is used. -/
theorem first_guid_aligned {r q : PartitionEntry}
    {rs qs : List PartitionEntry} {e : EfiPartitionEntry}
    {es : List EfiPartitionEntry}
    (hq : (r :: rs).filter PartitionEntry.handled = q :: qs)
    (h : walkSlots .partitionGuid
        ((r :: rs).filter PartitionEntry.handled) (e :: es)
      = storedSlots .partitionGuid (r :: rs) (e :: es)) :
    r.handled ∧ e.used := by
  have hqh : q.handled = true := by
    have hmem : q ∈ (r :: rs).filter PartitionEntry.handled := by
      rw [hq]
      exact List.mem_cons_self
    exact (List.mem_filter.mp hmem).2
  have hacc : Accepts .partitionGuid q e := Or.inl rfl
  rw [hq] at h
  unfold walkSlots storedSlots at h
  rw [if_pos hacc] at h
  by_cases hused : e.used = true
  · rw [if_pos hused] at h
    have hg := congrArg EfiPartitionEntry.partitionTypeGuid
      (List.cons.inj h).1
    rw [storeFields_guid rfl, storeFields_guid rfl] at hg
    refine ⟨?_, hused⟩
    unfold PartitionEntry.handled at hqh ⊢
    rw [← hg]
    exact hqh
  · rw [if_neg hused] at h
    have hg := congrArg EfiPartitionEntry.partitionTypeGuid
      (List.cons.inj h).1
    rw [storeFields_guid rfl] at hg
    unfold PartitionEntry.handled at hqh
    rw [hg, data1_of_not_used hused] at hqh
    cases hqh

/-- If the walk stores every choice of attribute words where it belongs,
the entries are aligned. -/
theorem aligned_of_walk {u : UpdateType} :
    ∀ {rows : List PartitionEntry} {slots : List EfiPartitionEntry},
    rows.length ≤ (slots.filter EfiPartitionEntry.used).length →
    (∀ f, walkSlots u
        ((setAttributes f rows).filter PartitionEntry.handled) slots
      = storedSlots u (setAttributes f rows) slots) →
    Aligned u rows slots := by
  intro rows
  induction rows with
  | nil => intro slots _ _; trivial
  | cons r rs ih =>
      intro slots hlen hall
      cases slots with
      | nil => cases hlen
      | cons e es =>
          have hpos : 0 < ((e :: es).filter
              EfiPartitionEntry.used).length := by
            rw [List.length_cons] at hlen
            omega
          -- once the first entry has its slot, the rest follows
          have hrest : e.used → r.handled → Accepts u r e →
              Aligned u rs es := by
            intro hused hr hacc
            rw [List.filter_cons_of_pos hused, List.length_cons,
              List.length_cons] at hlen
            refine ih (by omega) fun f => ?_
            have h := hall (consAttr 0 f)
            rw [setAttributes_consAttr, filter_handled_pos hr,
              walkSlots_accept hacc] at h
            unfold storedSlots at h
            rw [if_pos hused] at h
            exact (List.cons.inj h).2
          by_cases hu : u.attributesMask = true
          · obtain ⟨hr, hacc, hused⟩ := first_aligned hu hpos fun v f => by
              rw [← setAttributes_consAttr]
              exact hall _
            exact Or.inl ⟨hused, hr, hacc, hrest hused hr hacc⟩
          · have hguid : u = .partitionGuid := by
              cases u with
              | partitionGuid => rfl
              | partitionAttributes => exact absurd rfl hu
              | partitionAll => exact absurd rfl hu
            subst hguid
            obtain ⟨f, hf⟩ := exists_setAttributes_self (r :: rs)
            have h := hall f
            rw [hf] at h
            cases hq : (r :: rs).filter PartitionEntry.handled with
            | nil =>
                rw [hq, walkSlots_nil] at h
                exact Or.inr ⟨rfl, List.filter_eq_nil_iff.mp hq, h.symm⟩
            | cons q qs =>
                obtain ⟨hr, hused⟩ := first_guid_aligned hq h
                exact Or.inl ⟨hused, hr, Or.inl rfl,
                  hrest hused hr (Or.inl rfl)⟩

end Edk2Exynos.BootSlot
