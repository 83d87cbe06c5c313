/-
Sets of terminated strings: strings one after the other, each with a
terminator behind it, and one more terminator behind the last. A reader
takes what stands in front of the first two terminators in a row, and
splits it; a set of no strings is two terminators.

# What is proved here

`parseSet_printSet_iff`: a set is read back exactly when no string but
the first is empty, and the first is not an empty one alone. The proof
goes string by string: in front of a nonempty string the reader passes
the one before it (`cutAtDouble_cons`), in front of an empty one it stops
(`cutAtDouble_stop`).
-/
import Mathlib.Data.List.Basic

namespace Edk2Exynos.Lib

/-- Nothing stands between terminators only in a set of one empty
string. -/
theorem intercalate_ne_nil {α : Type*} {z : α} {s : List α}
    {ss : List (List α)} (h : s :: ss ≠ [[]]) :
    [z].intercalate (s :: ss) ≠ [] := by
  cases ss with
  | nil =>
    intro hnil
    rw [List.intercalate_singleton] at hnil
    exact h (by rw [hnil])
  | cons t ss => simp [List.intercalate_cons_cons]

section

variable {α : Type*} [DecidableEq α] (z : α)

-- ================================================================ the set

/-- A set, as it is written. -/
def printSet (ss : List (List α)) : List α :=
  (if ss = [] then [z] else ss.flatMap fun s => s ++ [z]) ++ [z]

/-- What stands in front of the first two terminators in a row, and what
stands behind them. -/
def cutAtDouble : List α → Option (List α × List α)
  | [] => none
  | [_] => none
  | a :: b :: rest =>
    if a = z ∧ b = z then some ([], rest)
    else (cutAtDouble (b :: rest)).map fun p => (a :: p.1, p.2)

/-- A set, as it is read, and what stands behind it. -/
def parseSet (bs : List α) : Option (List (List α) × List α) :=
  (cutAtDouble z bs).map fun p =>
    (if p.1 = [] then [] else p.1.splitOn z, p.2)

/-- The sets that can be told from their bytes. -/
def Readable (ss : List (List α)) : Prop :=
  (∀ s ∈ ss.tail, s ≠ []) ∧ ss ≠ [[]]

instance (ss : List (List α)) : Decidable (Readable ss) :=
  inferInstanceAs (Decidable (_ ∧ _))

-- ============================================================ the reader

variable {z}

/-- A byte that is no terminator is passed. -/
theorem cutAtDouble_of_ne {a : α} (ha : a ≠ z) (bs : List α) :
    cutAtDouble z (a :: bs)
      = (cutAtDouble z bs).map fun p => (a :: p.1, p.2) := by
  cases bs with
  | nil => rfl
  | cons b bs => exact if_neg fun h => ha h.1

/-- A string is passed as a whole. -/
theorem cutAtDouble_append {s : List α} (hs : z ∉ s) (bs : List α) :
    cutAtDouble z (s ++ bs)
      = (cutAtDouble z bs).map fun p => (s ++ p.1, p.2) := by
  induction s with
  | nil =>
    rw [List.nil_append]
    cases cutAtDouble z bs <;> rfl
  | cons a s ih =>
    rw [List.mem_cons, not_or] at hs
    rw [List.cons_append, cutAtDouble_of_ne (Ne.symm hs.1), ih hs.2,
      Option.map_map]
    rfl

/-- In front of two terminators the reader stops. -/
theorem cutAtDouble_stop {s : List α} (hs : z ∉ s) (rest : List α) :
    cutAtDouble z (s ++ z :: z :: rest) = some (s, rest) := by
  have hstop : cutAtDouble z (z :: z :: rest) = some ([], rest) :=
    if_pos ⟨rfl, rfl⟩
  rw [cutAtDouble_append hs, hstop, Option.map_some, List.append_nil]

/-- A terminator with something else behind it is passed. -/
theorem cutAtDouble_cons {s : List α} (hs : z ∉ s) {a : α} (ha : a ≠ z)
    (rest : List α) :
    cutAtDouble z (s ++ z :: a :: rest)
      = (cutAtDouble z (a :: rest)).map fun p => (s ++ z :: p.1, p.2) := by
  have hpass : cutAtDouble z (z :: a :: rest)
      = (cutAtDouble z (a :: rest)).map fun p => (z :: p.1, p.2) :=
    if_neg fun h => ha h.2
  rw [cutAtDouble_append hs, hpass, Option.map_map]
  rfl

/-- The reader comes to the end of a set exactly when no string but the
first is empty, and has the strings between their terminators then. -/
theorem cutAtDouble_strings {s : List α} {ss : List (List α)}
    (hs : ∀ t ∈ s :: ss, z ∉ t) (rest : List α) :
    ((∀ t ∈ ss, t ≠ []) →
      cutAtDouble z ((s :: ss).flatMap (fun t => t ++ [z]) ++ z :: rest)
        = some ([z].intercalate (s :: ss), rest))
    ∧ (∀ c, cutAtDouble z
        ((s :: ss).flatMap (fun t => t ++ [z]) ++ z :: rest)
          = some (c, rest) → ∀ t ∈ ss, t ≠ []) := by
  induction ss generalizing s with
  | nil =>
    refine ⟨fun _ => ?_, fun _ _ t ht => absurd ht List.not_mem_nil⟩
    have hstop := cutAtDouble_stop (hs s List.mem_cons_self) rest
    simpa using hstop
  | cons t ss ih =>
    have hs1 : z ∉ s := hs s List.mem_cons_self
    have ht := ih (s := t) fun u hu => hs u (List.mem_cons_of_mem s hu)
    have hsplit : (s :: t :: ss).flatMap (fun u => u ++ [z]) ++ z :: rest
        = s ++ z :: ((t :: ss).flatMap (fun u => u ++ [z])
            ++ z :: rest) := by
      simp
    rw [hsplit]
    cases t with
    | nil =>
      refine ⟨fun h => absurd rfl (h [] List.mem_cons_self), ?_⟩
      intro c hc
      -- the reader stops in front of the empty string
      have hstop := cutAtDouble_stop hs1
        (ss.flatMap (fun u => u ++ [z]) ++ z :: rest)
      have hrest := (Prod.ext_iff.mp (Option.some.inj
        (hstop.symm.trans hc))).2
      have hlen := congrArg List.length hrest
      simp only [List.length_append, List.length_cons] at hlen
      omega
    | cons a t =>
      have ha : a ≠ z := fun h => hs (a :: t)
        (List.mem_cons_of_mem s List.mem_cons_self) (h ▸ List.mem_cons_self)
      have hpass := cutAtDouble_cons hs1 ha
        (t ++ z :: (ss.flatMap (fun u => u ++ [z]) ++ z :: rest))
      have hbody : ((a :: t) :: ss).flatMap (fun u => u ++ [z]) ++ z :: rest
          = a :: (t ++ z :: (ss.flatMap (fun u => u ++ [z])
              ++ z :: rest)) := by
        simp
      rw [← hbody] at hpass
      rw [hpass]
      constructor
      · intro h
        rw [ht.1 fun u hu => h u (List.mem_cons_of_mem _ hu),
          Option.map_some, List.intercalate_cons_cons]
        simp
      · intro c hc u hu
        obtain ⟨p, hp, heq⟩ := Option.map_eq_some_iff.mp hc
        have hrest : p.2 = rest := congrArg Prod.snd heq
        rcases List.mem_cons.mp hu with rfl | hmem
        · exact List.cons_ne_nil a t
        · exact ht.2 p.1 (by rw [hp, ← hrest]) u hmem

-- ========================================================== read back

theorem parseSet_double : parseSet z [z, z] = some ([], []) := by
  unfold parseSet
  rw [show [z, z] = [] ++ z :: z :: [] from rfl,
    cutAtDouble_stop List.not_mem_nil]
  rfl

/-- The sets that are read back. -/
theorem parseSet_printSet_iff {ss : List (List α)}
    (hss : ∀ s ∈ ss, z ∉ s) :
    parseSet z (printSet z ss) = some (ss, []) ↔ Readable ss := by
  cases ss with
  | nil =>
    have hread : Readable ([] : List (List α)) := by
      refine ⟨fun s hs => ?_, by simp⟩
      exact absurd hs List.not_mem_nil
    exact iff_of_true parseSet_double hread
  | cons s ss =>
    obtain ⟨hback, hforth⟩ := cutAtDouble_strings hss []
    have hprint : printSet z (s :: ss)
        = (s :: ss).flatMap (fun t => t ++ [z]) ++ [z] :=
      congrArg (· ++ [z]) (if_neg (List.cons_ne_nil s ss))
    constructor
    · intro h
      constructor
      · unfold parseSet at h
        rw [hprint] at h
        obtain ⟨p, hp, heq⟩ := Option.map_eq_some_iff.mp h
        have hrest : p.2 = [] := congrArg Prod.snd heq
        exact hforth p.1 (by rw [hp, ← hrest])
      · intro hsingle
        rw [hsingle, show printSet z [[]] = [z, z] from rfl,
          parseSet_double] at h
        cases h
    · intro h
      unfold parseSet
      rw [hprint, hback h.1, Option.map_some,
        if_neg (intercalate_ne_nil h.2),
        List.splitOn_intercalate z hss (List.cons_ne_nil s ss)]

end

end Edk2Exynos.Lib
