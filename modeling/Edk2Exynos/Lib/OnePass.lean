/-
Looking for a word in a text in one pass, without going back.

# The search

`onePass` compares the text with what is left of the word. After a
mismatch it starts over with the whole word behind the mismatch, not at
the second position of the attempt that failed, so it meets the positions
of `Attempts` only: the first one, and behind each failed attempt the
position after its mismatch.

# What it finds

`onePass_eq_some_iff`: the result is the attempt at which the word occurs.
So it is the first occurrence exactly when that is an attempt: always for
a word of equal letters (`attempts_of_equal`), and not in every text for
any other (`missed_of_ne`).
-/
import Mathlib.Data.List.GetD
import Mathlib.Tactic

namespace Edk2Exynos.Lib

variable {α : Type} [DecidableEq α]

-- ============================================================== the search

/-- The search from `pos` on, with `left` positions to go: `rest` is what
is left of the word `p`, and `start` where the attempt began. -/
def onePass (p : List α) (t : Nat → α) : Nat → Nat → List α → Nat →
    Option Nat
  | 0, _, _, _ => none
  | _ + 1, _, [], start => some start
  | left + 1, pos, a :: rest, start =>
      if t pos = a then
        if rest = [] then some start
        else onePass p t left (pos + 1) rest start
      else onePass p t left (pos + 1) p (pos + 1)

/-- How many letters of `p` stand in the text at `s`. -/
def agreeing (t : Nat → α) : List α → Nat → Nat
  | [], _ => 0
  | a :: p, s => if t s = a then agreeing t p (s + 1) + 1 else 0

/-- `p` stands in the text at `s`. -/
def OccursAt (t : Nat → α) (p : List α) (s : Nat) : Prop :=
  agreeing t p s = p.length

/-- `b` is the next position after a failed attempt at `a`. -/
def NextAttempt (p : List α) (t : Nat → α) (a b : Nat) : Prop :=
  ¬ OccursAt t p a ∧ b = a + agreeing t p a + 1

/-- The positions at which a search from `s` on begins an attempt. -/
def Attempts (p : List α) (t : Nat → α) (s : Nat) : Nat → Prop :=
  Relation.ReflTransGen (NextAttempt p t) s

instance (t : Nat → α) (p : List α) (s : Nat) :
    Decidable (OccursAt t p s) :=
  inferInstanceAs (Decidable (_ = _))

-- ============================================================ occurrences

variable {p : List α} {t : Nat → α} {s x : Nat}

/-- No more elements agree than the pattern has. -/
theorem agreeing_le (p : List α) (s : Nat) :
    agreeing t p s ≤ p.length := by
  induction p generalizing s with
  | nil => exact Nat.le_refl _
  | cons a p ih =>
    unfold agreeing
    split
    · exact Nat.succ_le_succ (ih (s + 1))
    · exact Nat.zero_le _

/-- The elements that agree are the text's. -/
theorem agreeing_of_lt {i : Nat} (h : i < agreeing t p s) :
    p[i]? = some (t (s + i)) := by
  induction p generalizing s i with
  | nil => exact absurd h (Nat.not_lt_zero _)
  | cons a p ih =>
    unfold agreeing at h
    split at h
    · next ha =>
      cases i with
      | zero => rw [← ha]; rfl
      | succ i =>
        rw [List.getElem?_cons_succ, ih (Nat.lt_of_succ_lt_succ h)]
        congr 2
        omega
    · exact absurd h (Nat.not_lt_zero _)

/-- A first element that agrees counts. -/
theorem agreeing_match {a : α} (ha : t s = a) :
    agreeing t (a :: p) s = agreeing t p (s + 1) + 1 := if_pos ha

/-- A first element that does not agree ends the count. -/
theorem agreeing_mismatch {a : α} (ha : t s ≠ a) :
    agreeing t (a :: p) s = 0 := if_neg ha

/-- Past an element that agrees, the rest has to occur. -/
theorem occursAt_match {a : α} (ha : t s = a) :
    OccursAt t (a :: p) s ↔ OccursAt t p (s + 1) := by
  unfold OccursAt
  rw [agreeing_match ha, List.length_cons]
  exact Nat.succ_inj

/-- A pattern whose first element differs does not occur. -/
theorem not_occursAt_mismatch {a : α} (ha : t s ≠ a) :
    ¬ OccursAt t (a :: p) s := by
  unfold OccursAt
  rw [agreeing_mismatch ha]
  exact fun h => Nat.succ_ne_zero _ h.symm

/-- The letter after the agreeing ones is another one. -/
theorem next_ne_of_not_occursAt (h : ¬ OccursAt t p s) :
    p[agreeing t p s]? ≠ some (t (s + agreeing t p s)) := by
  induction p generalizing s with
  | nil => exact absurd rfl h
  | cons a p ih =>
    by_cases ha : t s = a
    · have hrest := ih fun hp => h ((occursAt_match ha).mpr hp)
      have hshift : s + (agreeing t p (s + 1) + 1)
          = s + 1 + agreeing t p (s + 1) := by omega
      rw [agreeing_match ha, List.getElem?_cons_succ, hshift]
      exact hrest
    · rw [agreeing_mismatch ha]
      exact fun heq => ha (Option.some.inj heq).symm

/-- An occurrence agrees at every index. -/
theorem occursAt_iff : OccursAt t p s
    ↔ ∀ i < p.length, p[i]? = some (t (s + i)) := by
  constructor
  · intro h i hi
    exact agreeing_of_lt (h.symm ▸ hi)
  · intro h
    by_contra hno
    have hlt := Nat.lt_of_le_of_ne (agreeing_le p s) hno
    exact next_ne_of_not_occursAt hno (h _ hlt)

-- =============================================================== attempts

/-- With no element left the pass fails. -/
theorem onePass_zero (pos start : Nat) (rest : List α) :
    onePass p t 0 pos rest start = none := rfl

/-- A match goes on with the rest of the pattern. -/
theorem onePass_match {a : α} {pos : Nat} (ha : t pos = a)
    (left start : Nat) (rest : List α) :
    onePass p t (left + 1) pos (a :: rest) start
      = if rest = [] then some start
        else onePass p t left (pos + 1) rest start := if_pos ha

/-- A mismatch starts the pattern again, behind the element read. -/
theorem onePass_mismatch {a : α} {pos : Nat} (ha : t pos ≠ a)
    (left start : Nat) (rest : List α) :
    onePass p t (left + 1) pos (a :: rest) start
      = onePass p t left (pos + 1) p (pos + 1) := if_neg ha

/-- An attempt where the word occurs. -/
theorem onePass_of_occurs (left pos start : Nat) {rest : List α}
    (hrest : rest ≠ []) (h : OccursAt t rest pos) :
    onePass p t left pos rest start
      = if rest.length ≤ left then some start else none := by
  induction rest generalizing left pos with
  | nil => exact absurd rfl hrest
  | cons a rest ih =>
    have ha : t pos = a := by
      by_contra hno
      exact not_occursAt_mismatch hno h
    cases left with
    | zero => exact (if_neg (Nat.not_succ_le_zero _)).symm
    | succ left =>
      rw [onePass_match ha]
      by_cases hnil : rest = []
      · have hlen : (a :: rest).length ≤ left + 1 := by
          rw [hnil]
          exact Nat.succ_le_succ (Nat.zero_le left)
        rw [if_pos hnil, if_pos hlen]
      · rw [if_neg hnil, ih left (pos + 1) hnil ((occursAt_match ha).mp h)]
        exact if_congr Nat.succ_le_succ_iff.symm rfl rfl

/-- An attempt that fails. -/
theorem onePass_of_not_occurs (left pos start : Nat) {rest : List α}
    (h : ¬ OccursAt t rest pos) :
    onePass p t left pos rest start
      = onePass p t (left - (agreeing t rest pos + 1))
          (pos + agreeing t rest pos + 1) p
          (pos + agreeing t rest pos + 1) := by
  induction rest generalizing left pos with
  | nil => exact absurd rfl h
  | cons a rest ih =>
    cases left with
    | zero => rw [Nat.zero_sub, onePass_zero, onePass_zero]
    | succ left =>
      by_cases ha : t pos = a
      · have hrest : ¬ OccursAt t rest (pos + 1) :=
          fun hp => h ((occursAt_match ha).mpr hp)
        have hnil : rest ≠ [] := by
          rintro rfl
          exact hrest rfl
        rw [onePass_match ha, if_neg hnil, ih left (pos + 1) hrest,
          agreeing_match ha, Nat.succ_sub_succ, Nat.succ_add_eq_add_succ]
      · rw [onePass_mismatch ha, agreeing_mismatch ha]
        rfl

/-- Attempts start no earlier than the first. -/
theorem Attempts.le (h : Attempts p t s x) : s ≤ x := by
  induction h with
  | refl => exact Nat.le_refl s
  | tail _ hnext ih =>
    have heq := hnext.2
    omega

/-- The attempts are the first one and those behind it, if it fails. -/
theorem attempts_iff : Attempts p t s x
    ↔ x = s ∨ ¬ OccursAt t p s
      ∧ Attempts p t (s + agreeing t p s + 1) x := by
  unfold Attempts
  rw [Relation.ReflTransGen.cases_head_iff]
  constructor
  · rintro (heq | ⟨y, ⟨hno, rfl⟩, hrest⟩)
    · exact Or.inl heq.symm
    · exact Or.inr ⟨hno, hrest⟩
  · rintro (heq | ⟨hno, hrest⟩)
    · exact Or.inl heq.symm
    · exact Or.inr ⟨_, ⟨hno, rfl⟩, hrest⟩

/-- The result of a search is the attempt at which the word occurs. -/
theorem onePass_eq_some_iff (hp : p ≠ []) (s left : Nat) :
    onePass p t left s p s = some x
      ↔ Attempts p t s x ∧ OccursAt t p x ∧ x + p.length ≤ s + left := by
  have hpos : 0 < p.length := List.length_pos_of_ne_nil hp
  induction left using Nat.strong_induction_on generalizing s with
  | h left ih =>
    rw [attempts_iff]
    by_cases hs : OccursAt t p s
    · rw [onePass_of_occurs left s s hp hs]
      constructor
      · intro h
        split at h
        · next hle =>
          cases h
          exact ⟨Or.inl rfl, hs, Nat.add_le_add_left hle _⟩
        · cases h
      · rintro ⟨hx | ⟨hno, -⟩, -, hle⟩
        · rw [hx, if_pos (by omega)]
        · exact absurd hs hno
    · rw [onePass_of_not_occurs left s s hs]
      cases left with
      | zero =>
        rw [Nat.zero_sub, onePass_zero]
        refine ⟨fun h => absurd h.symm (Option.some_ne_none x), ?_⟩
        rintro ⟨hx | ⟨-, hx⟩, -, hle⟩
        · omega
        · have hge := hx.le
          omega
      | succ left =>
        have hlt : left + 1 - (agreeing t p s + 1) < left + 1 := by omega
        refine (ih _ hlt (s + agreeing t p s + 1)).trans ?_
        constructor
        · rintro ⟨hx, hocc, hle⟩
          have hge := hx.le
          exact ⟨Or.inr ⟨hs, hx⟩, hocc, by omega⟩
        · rintro ⟨hx | ⟨-, hx⟩, hocc, hle⟩
          · rw [hx] at hocc
            exact absurd hocc hs
          · have hge := hx.le
            exact ⟨hx, hocc, by omega⟩

-- ====================================================== the first occurrence

/-- `p` stands at `x`, inside the `left` letters from `s` on, and nowhere
before. -/
structure IsFirstOccurrence (p : List α) (t : Nat → α) (s left x : Nat) :
    Prop where
  start : s ≤ x
  inside : x + p.length ≤ s + left
  occurs : OccursAt t p x
  first : ∀ y, s ≤ y → y < x → ¬ OccursAt t p y

/-- Equal letters cannot hide an occurrence: a mismatch ends the run of
them. -/
theorem attempts_of_equal {a : α} (hall : ∀ b ∈ p, b = a)
    (hocc : OccursAt t p x) (s : Nat) (hs : s ≤ x)
    (hfirst : ∀ y, s ≤ y → y < x → ¬ OccursAt t p y) :
    Attempts p t s x := by
  obtain ⟨k, hk⟩ := Nat.exists_eq_add_of_le hs
  induction k using Nat.strong_induction_on generalizing s with
  | h k ih =>
    rw [attempts_iff]
    by_cases hx : x = s
    · exact Or.inl hx
    have hno : ¬ OccursAt t p s := hfirst s (Nat.le_refl s) (by omega)
    have hlt : agreeing t p s < p.length :=
      Nat.lt_of_le_of_ne (agreeing_le p s) hno
    have hmiss : t (s + agreeing t p s) ≠ a := by
      intro hcon
      apply next_ne_of_not_occursAt hno
      rw [List.getElem?_eq_getElem hlt, hcon]
      exact congrArg some (hall _ (List.getElem_mem hlt))
    have hbefore : s + agreeing t p s < x := by
      by_contra hge
      have hpos := occursAt_iff.mp hocc (s + agreeing t p s - x) (by omega)
      have hmem := hall _ (List.mem_of_getElem? hpos)
      rw [show x + (s + agreeing t p s - x) = s + agreeing t p s by omega]
        at hmem
      exact hmiss hmem
    refine Or.inr ⟨hno, ih (x - (s + agreeing t p s + 1)) (by omega) _
      hbefore (fun y hy hlt => hfirst y (by omega) hlt) (by omega)⟩

/-- The first letter of a word, and the word. -/
def doubled (p : List α) (a : α) (s : Nat) : Nat → α :=
  fun i => (a :: p).getD (i - s) a

/-- Behind its own first letter, a word with a different letter further
on is missed. -/
theorem missed_of_ne {a b : α} (hb : b ∈ p) (hne : b ≠ a) (s : Nat) :
    IsFirstOccurrence (a :: p) (doubled (a :: p) a s) s (p.length + 2)
        (s + 1)
      ∧ ¬ Attempts (a :: p) (doubled (a :: p) a s) s (s + 1) := by
  have hletter : ∀ i < (a :: p).length,
      (a :: p)[i]? = some (doubled (a :: p) a s (s + 1 + i)) := by
    intro i hi
    have hsub : s + 1 + i - s = i + 1 := by omega
    unfold doubled
    rw [hsub, List.getD_cons_succ, List.getD_eq_getElem _ _ hi,
      List.getElem?_eq_getElem hi]
  have hfirst : doubled (a :: p) a s s = a := by
    unfold doubled
    rw [Nat.sub_self]
    rfl
  have hno : ¬ OccursAt (doubled (a :: p) a s) (a :: p) s := by
    intro hocc
    -- every letter is the one before it
    have hsame : ∀ i < (a :: p).length, (a :: p)[i]? = some a := by
      intro i
      induction i with
      | zero => exact fun _ => rfl
      | succ i ih =>
        intro hi
        have hprev := ih (by omega)
        rw [hletter i (by omega), show s + 1 + i = s + (i + 1) by omega,
          ← occursAt_iff.mp hocc (i + 1) hi] at hprev
        exact hprev
    obtain ⟨i, hi⟩ := List.mem_iff_getElem?.mp (List.mem_cons_of_mem a hb)
    have hlt : i < (a :: p).length := (List.getElem?_eq_some_iff.mp hi).1
    rw [hsame i hlt] at hi
    exact hne (Option.some.inj hi).symm
  refine ⟨⟨Nat.le_succ s, ?_, occursAt_iff.mpr hletter, ?_⟩, ?_⟩
  · rw [List.length_cons]
    omega
  · intro y hy hlt
    have heq : y = s := by omega
    rw [heq]
    exact hno
  · intro h
    rcases attempts_iff.mp h with heq | ⟨-, hrest⟩
    · omega
    · have hle := hrest.le
      rw [agreeing_match hfirst] at hle
      omega

end Edk2Exynos.Lib
