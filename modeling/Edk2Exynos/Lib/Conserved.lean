/-
What goes into a machine and what comes out of it, over a run.

Each action puts a list in and takes a list out, and between actions the
machine holds one. Where every step accounts for what it takes out and
what it then holds by what was held and what was put in, so does a run
(`run_accounts`). The account may be exact, or say only that nothing is
made up, doubled or out of order: `Accounts` is what a relation of lists
needs for that, and equality and `Sublist` have it.
-/
import Edk2Exynos.Lib.Runs

namespace Edk2Exynos.Lib

variable {α β σ : Type}

/-- A relation of lists that is kept when lists are put together. -/
structure Accounts (r : List β → List β → Prop) : Prop where
  refl : ∀ l, r l l
  trans : ∀ {a b c}, r a b → r b c → r a c
  append : ∀ {a b c d}, r a b → r c d → r (a ++ c) (b ++ d)

theorem accounts_eq : Accounts (@Eq (List β)) where
  refl _ := rfl
  trans := Eq.trans
  append h h' := by rw [h, h']

theorem accounts_sublist : Accounts (@List.Sublist β) where
  refl := List.Sublist.refl
  trans := List.Sublist.trans
  append := List.Sublist.append

variable {step : α → σ → σ} (held : σ → List β)
variable (out into : α → σ → List β) {r : List β → List β → Prop}

/-- An account of every step is one of the run. -/
theorem run_accounts (hr : Accounts r) {P : α → σ → Prop} {Inv : σ → Prop}
    (hinv : ∀ a s, P a s → Inv s → Inv (step a s))
    (hstep : ∀ a s, P a s → Inv s →
      r (out a s ++ held (step a s)) (held s ++ into a s))
    {as : List α} {s : σ} (has : EveryStep step P as s) (hs : Inv s) :
    r ((answers step out as s).flatten ++ held (run step as s))
      (held s ++ (answers step into as s).flatten) := by
  induction as generalizing s with
  | nil =>
    show r ([] ++ held s) (held s ++ [])
    rw [List.nil_append, List.append_nil]
    exact hr.refl _
  | cons a as ih =>
    obtain ⟨ha, has⟩ := has
    have hrest := ih has (hinv a s ha hs)
    have hfirst := hstep a s ha hs
    show r (out a s ++ (answers step out as (step a s)).flatten
        ++ held (run step as (step a s)))
      (held s ++ (into a s ++ (answers step into as (step a s)).flatten))
    rw [List.append_assoc, ← List.append_assoc (held s)]
    have hlater := hr.append (hr.refl (out a s)) hrest
    rw [← List.append_assoc (out a s)
      (held (step a s))] at hlater
    exact hr.trans hlater (hr.append hfirst (hr.refl _))

end Edk2Exynos.Lib
