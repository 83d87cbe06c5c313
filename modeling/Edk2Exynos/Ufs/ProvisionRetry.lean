/-
What `ufs_set_configuration_descriptor` returns.

# The documentation

"0: no error, 1: LU configuration done, others: uncorrectable error".
`Documented` reads it as follows: 0 exactly when the first check passed, 1
exactly when there was an attempt and the last check passed, and another
value when no check did.

# What it does

The loop leaves on anything that is not RET_FAILURE, a failed query
included, and after three attempts in any case; `ret` is then 1 if there
was an attempt and 0 if there was none. So it is truthful exactly when it
leaves because a check passed
(`ufsSetConfigurationDescriptor_documented_iff`).
-/
import Edk2Exynos.Ufs.Provision

namespace Edk2Exynos.Ufs

open Lib

variable {E : Type} {codes : ProvisionCodes} {query : Query E}
  {luConf : UfsConfigDesc}

-- ========================================================== the outcomes

/-- The world before the check number `n`, counted from 0. -/
def worldBefore (codes : ProvisionCodes) (query : Query E)
    (luConf : UfsConfigDesc) : Nat → World E → World E
  | 0, w => w
  | n + 1, w =>
      let (_, w) := ufsCheckConfigDesc codes query luConf w
      let (_, _, w) := provisionAttempt query luConf w
      worldBefore codes query luConf n w

/-- What it returns. -/
def checkOutcome (codes : ProvisionCodes) (query : Query E)
    (luConf : UfsConfigDesc) (n : Nat) (w : World E) : Int :=
  (ufsCheckConfigDesc codes query luConf
    (worldBefore codes query luConf n w)).1

/-- The outcomes from the world after the first attempt on are those of
this one, one check later. -/
theorem checkOutcome_succ (n : Nat) (w : World E) :
    checkOutcome codes query luConf (n + 1) w
      = checkOutcome codes query luConf n (provisionAttempt query luConf
        (ufsCheckConfigDesc codes query luConf w).2).2.2 := rfl

-- ============================================================== the loop

/-- The loop after `n` attempts. -/
structure LoopSpec (codes : ProvisionCodes) (query : Query E)
    (luConf : UfsConfigDesc) (left retry : Nat) (ret : Int) (w : World E)
    (n : Nat) (r : ConfigRun E) : Prop where
  le : n ≤ left
  fail : r.fail = false
  retry : r.retry = retry + n
  ret : n = 0 → r.ret = ret
  lastCheck : r.lastCheck = checkOutcome codes query luConf n w
  failed : ∀ i < n, checkOutcome codes query luConf i w = codes.retFailure
  left : n < left →
    checkOutcome codes query luConf n w ≠ codes.retFailure

/-- The loop left at its first check. -/
theorem LoopSpec.stop {left retry : Nat} {ret : Int} {w w' : World E}
    (hleft : 0 < left →
      checkOutcome codes query luConf 0 w ≠ codes.retFailure) :
    LoopSpec codes query luConf left retry ret w 0
      ⟨false, ret, retry, checkOutcome codes query luConf 0 w, w'⟩ where
  le := Nat.zero_le _
  fail := rfl
  retry := rfl
  ret := fun _ => rfl
  lastCheck := rfl
  failed := fun i hi => absurd hi (Nat.not_lt_zero i)
  left := hleft

/-- An attempt, and then the loop from the world after it. -/
theorem LoopSpec.attempt {left retry n : Nat} {ret ret' : Int}
    {w : World E} {r : ConfigRun E}
    (hfirst : checkOutcome codes query luConf 0 w = codes.retFailure)
    (h : LoopSpec codes query luConf left (retry + 1) ret'
      (provisionAttempt query luConf
        (ufsCheckConfigDesc codes query luConf w).2).2.2 n r) :
    LoopSpec codes query luConf (left + 1) retry ret w (n + 1) r where
  le := Nat.succ_le_succ h.le
  fail := h.fail
  retry := by
    have hretry := h.retry
    omega
  ret := fun hn => absurd hn (Nat.succ_ne_zero n)
  lastCheck := by
    rw [checkOutcome_succ]
    exact h.lastCheck
  failed := by
    intro i hi
    cases i with
    | zero => exact hfirst
    | succ i =>
        rw [checkOutcome_succ]
        exact h.failed i (Nat.lt_of_succ_lt_succ hi)
  left := by
    intro hn
    rw [checkOutcome_succ]
    exact h.left (Nat.lt_of_succ_lt_succ hn)

variable (codes query luConf) in
theorem provisionLoop_spec (left retry : Nat) (ret : Int) (w : World E) :
    ∃ n, LoopSpec codes query luConf left retry ret w n
      (provisionLoop codes query luConf left retry ret w) := by
  induction left generalizing retry ret w with
  | zero =>
      refine ⟨0, ?_⟩
      unfold provisionLoop
      dsimp only
      split
      · exact LoopSpec.stop fun hn => absurd hn (Nat.lt_irrefl 0)
      · exact LoopSpec.stop fun hn => absurd hn (Nat.lt_irrefl 0)
  | succ left ih =>
      unfold provisionLoop
      dsimp only
      by_cases hres : (ufsCheckConfigDesc codes query luConf w).1
          = codes.retFailure
      · have hfst := provisionAttempt_fst query luConf
          (ufsCheckConfigDesc codes query luConf w).2
        rw [if_neg (not_not.mpr hres)]
        generalize hatt : provisionAttempt query luConf
          (ufsCheckConfigDesc codes query luConf w).2 = att at hfst ⊢
        obtain ⟨fail, ret', w'⟩ := att
        have hfail : fail = false := hfst
        rw [hfail]
        obtain ⟨n, hspec⟩ := ih (retry + 1) ret' w'
        have hw' : w' = (provisionAttempt query luConf
            (ufsCheckConfigDesc codes query luConf w).2).2.2 := by
          rw [hatt]
        rw [hw'] at hspec ⊢
        exact ⟨n + 1, LoopSpec.attempt hres hspec⟩
      · rw [if_pos hres]
        exact ⟨0, LoopSpec.stop fun _ => hres⟩

/-- There is a number of attempts, at most three, with everything the
function does; only the last check may have returned anything other than
RET_FAILURE. -/
structure ConfigSpec (codes : ProvisionCodes) (query : Query E)
    (luConf : UfsConfigDesc) (w : World E) (r : ConfigRun E) : Prop where
  le : r.retry ≤ 3
  ret : r.ret = if r.retry = 0 then 0 else 1
  lastCheck : r.lastCheck = checkOutcome codes query luConf r.retry w
  failed : ∀ i < r.retry,
    checkOutcome codes query luConf i w = codes.retFailure
  left : r.retry < 3 →
    checkOutcome codes query luConf r.retry w ≠ codes.retFailure

variable (codes query luConf) in
theorem ufsSetConfigurationDescriptor_spec (w : World E) :
    ConfigSpec codes query luConf w
      (ufsSetConfigurationDescriptor codes query luConf w) := by
  obtain ⟨n, hspec⟩ := provisionLoop_spec codes query luConf 3 0 0 w
  have hn := hspec.retry
  rw [Nat.zero_add] at hn
  unfold ufsSetConfigurationDescriptor
  dsimp only
  rw [hspec.fail, if_neg Bool.false_ne_true, hn]
  by_cases h0 : n = 0
  · rw [if_neg (not_not.mpr h0)]
    refine ⟨hn ▸ hspec.le, ?_, hn ▸ hspec.lastCheck, hn ▸ hspec.failed,
      hn ▸ hspec.left⟩
    rw [if_pos (hn.trans h0)]
    exact hspec.ret h0
  · rw [if_pos h0]
    refine ⟨hn ▸ hspec.le, ?_, hn ▸ hspec.lastCheck, hn ▸ hspec.failed,
      hn ▸ hspec.left⟩
    exact (if_neg (hn ▸ h0)).symm

-- ======================================================= the main result

/-- The documented return values; `n` runs over the checks made. -/
structure Documented (codes : ProvisionCodes) (query : Query E)
    (luConf : UfsConfigDesc) (w : World E) (r : ConfigRun E) : Prop where
  zero_iff : r.ret = 0
    ↔ checkOutcome codes query luConf 0 w = codes.retSuccess
  one_iff : r.ret = 1 ↔ 1 ≤ r.retry ∧ r.lastCheck = codes.retSuccess
  others : (∀ n ≤ r.retry,
      checkOutcome codes query luConf n w ≠ codes.retSuccess) →
    r.ret ≠ 0 ∧ r.ret ≠ 1

theorem documented_iff_lastCheck {w : World E} {r : ConfigRun E}
    (hspec : ConfigSpec codes query luConf w r) :
    Documented codes query luConf w r ↔ r.lastCheck = codes.retSuccess := by
  have hret := hspec.ret
  constructor
  · intro hdoc
    by_cases h0 : r.retry = 0
    · rw [if_pos h0] at hret
      rw [hspec.lastCheck, h0]
      exact hdoc.zero_iff.mp hret
    · rw [if_neg h0] at hret
      exact (hdoc.one_iff.mp hret).2
  · intro hlast
    have hpassed := hspec.lastCheck.symm.trans hlast
    refine ⟨?_, ?_, fun hnever => absurd hpassed (hnever _ le_rfl)⟩
    · by_cases h0 : r.retry = 0
      · rw [if_pos h0] at hret
        rw [h0] at hpassed
        exact ⟨fun _ => hpassed, fun _ => hret⟩
      · rw [if_neg h0] at hret
        have hfirst := hspec.failed 0 (Nat.pos_of_ne_zero h0)
        refine ⟨fun hcon => ?_, fun hcon => ?_⟩
        · rw [hret] at hcon
          exact absurd hcon (by decide)
        · exact absurd (hcon.symm.trans hfirst) codes.distinct
    · by_cases h0 : r.retry = 0
      · rw [if_pos h0] at hret
        refine ⟨fun hcon => ?_, fun hcon => absurd hcon.1 (by omega)⟩
        rw [hret] at hcon
        exact absurd hcon (by decide)
      · rw [if_neg h0] at hret
        exact ⟨fun _ => ⟨Nat.pos_of_ne_zero h0, hlast⟩, fun _ => hret⟩

/-- The run ends with a check that passed exactly when the checks fail a
number of times, three at most, and then one passes. -/
theorem lastCheck_iff {w : World E} {r : ConfigRun E}
    (hspec : ConfigSpec codes query luConf w r) :
    r.lastCheck = codes.retSuccess ↔ ∃ k ≤ 3,
      checkOutcome codes query luConf k w = codes.retSuccess
      ∧ ∀ i < k, checkOutcome codes query luConf i w = codes.retFailure := by
  rw [hspec.lastCheck]
  constructor
  · intro hpassed
    exact ⟨r.retry, hspec.le, hpassed, hspec.failed⟩
  · rintro ⟨k, hk, hpassed, hfailed⟩
    rcases Nat.lt_trichotomy r.retry k with hlt | heq | hgt
    · exact absurd (hfailed _ hlt)
        (hspec.left (Nat.lt_of_lt_of_le hlt hk))
    · rw [heq]
      exact hpassed
    · exact absurd (hpassed.symm.trans (hspec.failed k hgt))
        codes.distinct

/-- Whatever the checks and the write queries return: there are at most
three attempts, and the documentation holds exactly when the checks fail a
number of times, three at most, and then one passes. -/
theorem ufsSetConfigurationDescriptor_documented_iff
    (codes : ProvisionCodes) (query : Query E) (luConf : UfsConfigDesc)
    (w : World E) :
    (ufsSetConfigurationDescriptor codes query luConf w).retry ≤ 3
    ∧ (Documented codes query luConf w
        (ufsSetConfigurationDescriptor codes query luConf w)
      ↔ ∃ k ≤ 3, checkOutcome codes query luConf k w = codes.retSuccess
        ∧ ∀ i < k,
          checkOutcome codes query luConf i w = codes.retFailure) := by
  have hspec := ufsSetConfigurationDescriptor_spec codes query luConf w
  exact ⟨hspec.le, (documented_iff_lastCheck hspec).trans
    (lastCheck_iff hspec)⟩

-- ================================================= a device that ignores

/-- The device takes every query and changes nothing; the configuration
read from it has no unit. -/
def ignoringQuery : Query Unit := fun qry _ w =>
  if qry = .descRConfigDesc then (0, w.setConfigDesc blankHost.configDesc)
  else (0, w)

/-- All four checks fail, and the function reports a configuration done. -/
theorem ufsSetConfigurationDescriptor_never_verified :
    let w : World Unit := ⟨blankHost, ()⟩
    let r := ufsSetConfigurationDescriptor sampleCodes ignoringQuery
      oneUnitConf w
    r.ret = 1 ∧ (∀ n ≤ r.retry, checkOutcome sampleCodes ignoringQuery
        oneUnitConf n w = sampleCodes.retFailure)
      ∧ ¬ Documented sampleCodes ignoringQuery oneUnitConf w r := by
  have hret : (ufsSetConfigurationDescriptor sampleCodes ignoringQuery
      oneUnitConf ⟨blankHost, ()⟩).ret = 1 := by decide +kernel
  have hlast : (ufsSetConfigurationDescriptor sampleCodes ignoringQuery
      oneUnitConf ⟨blankHost, ()⟩).lastCheck = 1 := by decide +kernel
  have hspec := ufsSetConfigurationDescriptor_spec sampleCodes
    ignoringQuery oneUnitConf ⟨blankHost, ()⟩
  refine ⟨hret, fun n hn => ?_, fun hdoc => ?_⟩
  · rcases Nat.lt_or_eq_of_le hn with hlt | heq
    · exact hspec.failed n hlt
    · rw [heq, ← hspec.lastCheck]
      exact hlast
  · have hpassed := (hdoc.one_iff.mp hret).2
    rw [hlast] at hpassed
    exact absurd hpassed (by decide)

end Edk2Exynos.Ufs
