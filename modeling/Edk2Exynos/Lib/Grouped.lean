/-
Lists in ascending order of a key: such a list is told by its groups, the
members of each key in their order (`eq_of_groups`). What changes a list
group by group can so be compared with what changes it row by row.
-/
import Mathlib.Data.List.Basic

namespace Edk2Exynos.Lib

variable {α : Type} {key : α → Nat}

/-- The keys ascend. -/
def Ascending (key : α → Nat) (l : List α) : Prop :=
  l.Pairwise fun x y => key x ≤ key y

/-- The members of one key. -/
def group (key : α → Nat) (d : Nat) (l : List α) : List α :=
  l.filter fun x => decide (key x = d)

theorem mem_group {d : Nat} {x : α} {l : List α} :
    x ∈ group key d l ↔ x ∈ l ∧ key x = d := by
  unfold group
  rw [List.mem_filter, decide_eq_true_iff]

theorem group_cons (d : Nat) (x : α) (l : List α) :
    group key d (x :: l)
      = if key x = d then x :: group key d l else group key d l := by
  unfold group
  rw [List.filter_cons]
  simp only [decide_eq_true_eq]

theorem group_append (d : Nat) (l l' : List α) :
    group key d (l ++ l') = group key d l ++ group key d l' :=
  List.filter_append l l'

/-- The first member has the least key. -/
theorem Ascending.head_le {x y : α} {l : List α}
    (h : Ascending key (x :: l)) (hy : y ∈ x :: l) : key x ≤ key y := by
  rcases List.mem_cons.mp hy with rfl | hy
  · exact Nat.le_refl _
  · exact (List.pairwise_cons.mp h).1 y hy

/-- Two lists in order of the key with the same groups are one. -/
theorem eq_of_groups {l l' : List α} (h : Ascending key l)
    (h' : Ascending key l')
    (hgroups : ∀ d, group key d l = group key d l') : l = l' := by
  induction l generalizing l' with
  | nil =>
      cases l' with
      | nil => rfl
      | cons y l' =>
          have hy : y ∈ group key (key y) (y :: l') :=
            mem_group.mpr ⟨List.mem_cons_self, rfl⟩
          rw [← hgroups] at hy
          cases hy
  | cons x l ih =>
      have hx : x ∈ group key (key x) l' := by
        rw [← hgroups]
        exact mem_group.mpr ⟨List.mem_cons_self, rfl⟩
      cases l' with
      | nil => cases hx
      | cons y l' =>
          have hy : y ∈ group key (key y) (x :: l) := by
            rw [hgroups]
            exact mem_group.mpr ⟨List.mem_cons_self, rfl⟩
          -- each head is a member of the other list
          have hkey : key x = key y :=
            Nat.le_antisymm (h.head_le (mem_group.mp hy).1)
              (h'.head_le (mem_group.mp hx).1)
          have hhead := hgroups (key x)
          rw [group_cons, group_cons, if_pos rfl, if_pos hkey.symm] at hhead
          obtain ⟨rfl, -⟩ := List.cons.inj hhead
          refine congrArg (x :: ·) (ih (List.pairwise_cons.mp h).2
            (List.pairwise_cons.mp h').2 fun d => ?_)
          have hd := hgroups d
          rw [group_cons, group_cons] at hd
          split at hd
          · exact (List.cons.inj hd).2
          · exact hd

end Edk2Exynos.Lib
