/-
The architectural timer (ArmArchTimerLib.c): how long a count of ticks
is, and waiting for a time to pass.

# Times

`GetTimeInNanoSecond` multiplies whole seconds and the rest apart. Up to
the point where the time itself leaves 64 bits, that is the time rounded
down to a nanosecond (`getTimeInNanoSecond_toNat`), although `Ticks` times
a thousand million leaves them much sooner.

# Delays

A delay is turned into ticks, rounded down, and the counter is read until
it has come that far. The readings are the environment's: the first is
made before the loop. The header of `NanoSecondDelay` promises at least
the time asked for; with a frequency that is no whole number of megahertz
the promise is kept up to less than one tick (`nanoSecondDelay_waits`).
-/
import Edk2Exynos.Lib.TickRate

namespace Edk2Exynos.Timer

open Lib

/-- A 32-bit word. -/
abbrev UINT32 := BitVec 32
/-- A 64-bit word. -/
abbrev UINT64 := BitVec 64
/-- A word of the machine. -/
abbrev UINTN := BitVec 64

-- ============================================================= the source

/-- `GetPlatformTimerFreq`, of the PCD and of `CNTFRQ_EL0`. -/
def getPlatformTimerFreq (pcd : UINT32) (cntfrq : UINTN) : UINTN :=
  if pcd = 0 then cntfrq else pcd.setWidth 64

/-- `GetTimeInNanoSecond` -/
def getTimeInNanoSecond (platformTimerFreq : UINTN) (ticks : UINT64) :
    UINT64 :=
  let timerFreq : UINT32 := platformTimerFreq.setWidth 32
  let remainder : UINT32 := (ticks % timerFreq.setWidth 64).setWidth 32
  let nanoSeconds := ticks / timerFreq.setWidth 64 * 1000000000
  nanoSeconds
    + remainder.setWidth 64 * 1000000000 / timerFreq.setWidth 64

/-- The ticks `MicroSecondDelay` waits for. -/
def delayTicks (platformTimerFreq microSeconds : UINTN) : UINT64 :=
  microSeconds * platformTimerFreq / 1000000

/-- `MicroSecondDelay`: the reading of the counter that ends it, none
when there is no such reading. -/
def microSecondDelay (platformTimerFreq microSeconds : UINTN)
    (systemCounterVal : UINT64) (readings : List UINT64) : Option UINT64 :=
  let timerTicks64 :=
    delayTicks platformTimerFreq microSeconds + systemCounterVal
  (systemCounterVal :: readings).find? fun r => ¬ r < timerTicks64

/-- The rounding up of `NanoSecondDelay`. -/
def coveringMicroSeconds (nanoSeconds : UINTN) : UINTN :=
  nanoSeconds / 1000 + if nanoSeconds % 1000 = 0 then 0 else 1

/-- `NanoSecondDelay` -/
def nanoSecondDelay (platformTimerFreq nanoSeconds : UINTN)
    (systemCounterVal : UINT64) (readings : List UINT64) : Option UINT64 :=
  microSecondDelay platformTimerFreq (coveringMicroSeconds nanoSeconds)
    systemCounterVal readings

-- ================================================================== times

/-- The frequency as `GetTimeInNanoSecond` uses it. -/
def hertz (platformTimerFreq : UINTN) : Nat :=
  platformTimerFreq.toNat % 2 ^ 32

/-- Nanoseconds in a second. -/
def giga : Nat := 1000000000

theorem toNat_giga : (1000000000 : UINT64).toNat = giga := rfl

/-- The rest of a division by a frequency is a 32-bit word, and its
nanoseconds are a 64-bit one. -/
theorem remainder_fits {freq : UINTN} (hf : 0 < hertz freq) (t : Nat) :
    t % hertz freq < 2 ^ 32 ∧ t % hertz freq * giga < 2 ^ 64 := by
  have hlt : hertz freq < 2 ^ 32 := Nat.mod_lt _ (by norm_num)
  have hrest : t % hertz freq < hertz freq := Nat.mod_lt _ hf
  unfold giga
  omega

/-- The frequency as the code uses it. -/
theorem toNat_setWidth_hertz (freq : UINTN) :
    ((freq.setWidth 32).setWidth 64).toNat = hertz freq := by
  have hlt : hertz freq < 2 ^ 64 :=
    (Nat.mod_lt _ (by norm_num)).trans (by norm_num)
  rw [BitVec.toNat_setWidth, BitVec.toNat_setWidth]
  exact Nat.mod_eq_of_lt hlt

/-- The two products of `GetTimeInNanoSecond` are the one of the
definition, up to what 64 bits hold. -/
theorem getTimeInNanoSecond_toNat {freq : UINTN} (hf : 0 < hertz freq)
    (ticks : UINT64) :
    (getTimeInNanoSecond freq ticks).toNat
      = rescale giga (hertz freq) ticks.toNat % 2 ^ 64 := by
  obtain ⟨hrest, hproduct⟩ := remainder_fits hf ticks.toNat
  have hremainder :
      (((ticks % (freq.setWidth 32).setWidth 64).setWidth 32).setWidth
        64).toNat = ticks.toNat % hertz freq := by
    rw [BitVec.toNat_setWidth, BitVec.toNat_setWidth, BitVec.toNat_umod,
      toNat_setWidth_hertz, Nat.mod_eq_of_lt hrest]
    exact Nat.mod_eq_of_lt (hrest.trans (by norm_num))
  rw [← rescale_split hf, getTimeInNanoSecond, BitVec.toNat_add,
    BitVec.toNat_mul, BitVec.toNat_udiv, BitVec.toNat_udiv,
    BitVec.toNat_mul, hremainder, toNat_setWidth_hertz, toNat_giga,
    Nat.mod_eq_of_lt hproduct, Nat.mod_add_mod, rescale]

/-- The time of a number of ticks that 64 bits hold. -/
def Fits (freq : UINTN) (ticks : Nat) : Prop :=
  rescale giga (hertz freq) ticks < 2 ^ 64

instance (freq : UINTN) (ticks : Nat) : Decidable (Fits freq ticks) :=
  inferInstanceAs (Decidable (_ < _))

/-- Fewer ticks fit where more do. -/
theorem Fits.mono {freq : UINTN} {ticks ticks' : Nat}
    (h : Fits freq ticks) (hle : ticks' ≤ ticks) : Fits freq ticks' :=
  (rescale_mono hle).trans_lt h

/-- Ticks that fit are converted without overflow. -/
theorem getTimeInNanoSecond_of_fits {freq : UINTN} (hf : 0 < hertz freq)
    {ticks : UINT64} (h : Fits freq ticks.toNat) :
    (getTimeInNanoSecond freq ticks).toNat
      = rescale giga (hertz freq) ticks.toNat := by
  rw [getTimeInNanoSecond_toNat hf, Nat.mod_eq_of_lt h]

-- ================================================================= delays

variable {freq us ns start : UINT64} {readings : List UINT64}

/-- A product and a target that 64 bits hold. -/
structure DelayFits (freq us start : UINT64) : Prop where
  product : us.toNat * freq.toNat < 2 ^ 64
  target : start.toNat + us.toNat * freq.toNat / 1000000 < 2 ^ 64

/-- The counter a delay waits for. -/
theorem DelayFits.target_toNat (h : DelayFits freq us start) :
    (delayTicks freq us + start).toNat
      = start.toNat + us.toNat * freq.toNat / 1000000 := by
  unfold delayTicks
  rw [BitVec.toNat_add, BitVec.toNat_udiv, BitVec.toNat_mul,
    Nat.mod_eq_of_lt h.product, Nat.add_comm]
  exact Nat.mod_eq_of_lt h.target

/-- A delay ends with the first reading that has come far enough. -/
theorem microSecondDelay_eq_some_iff (h : DelayFits freq us start)
    (r : UINT64) :
    microSecondDelay freq us start readings = some r
      ↔ ∃ before after, start :: readings = before ++ r :: after
        ∧ start.toNat + us.toNat * freq.toNat / 1000000 ≤ r.toNat
        ∧ ∀ b ∈ before,
          b.toNat < start.toNat + us.toNat * freq.toNat / 1000000 := by
  unfold microSecondDelay
  rw [List.find?_eq_some_iff_append]
  simp only [Bool.not_eq_true', decide_eq_false_iff_not, BitVec.lt_def,
    h.target_toNat, Nat.not_lt, decide_eq_true_eq]
  constructor
  · rintro ⟨hr, before, after, hsplit, hbefore⟩
    exact ⟨before, after, hsplit, hr,
      fun b hb => Nat.lt_of_not_le (hbefore b hb)⟩
  · rintro ⟨before, after, hsplit, hr, hbefore⟩
    exact ⟨hr, before, after, hsplit,
      fun b hb => Nat.not_le_of_lt (hbefore b hb)⟩

/-- The microseconds that cover some nanoseconds. -/
theorem coveringMicroSeconds_toNat (ns : UINT64) :
    (coveringMicroSeconds ns).toNat = (ns.toNat + 999) / 1000 := by
  have hns := ns.isLt
  have hmod : ns % 1000 = 0 ↔ ns.toNat % 1000 = 0 := by
    rw [← BitVec.toNat_inj]
    rfl
  have hone : (if ns % 1000 = 0 then 0 else 1 : UINT64).toNat
      = if ns.toNat % 1000 = 0 then 0 else 1 := by
    rw [apply_ite BitVec.toNat]
    simp only [hmod]
    rfl
  have hthousand : (1000 : UINT64).toNat = 1000 := rfl
  unfold coveringMicroSeconds
  rw [BitVec.toNat_add, BitVec.toNat_udiv, hone, hthousand]
  split <;> omega

/-- A delay lasts for what was asked for, less at most a part of a tick,
and for all of it when the frequency is in whole megahertz. -/
theorem nanoSecondDelay_waits (freq ns start : UINT64)
    (readings : List UINT64) (r : UINT64)
    (h : DelayFits freq (coveringMicroSeconds ns) start)
    (hr : nanoSecondDelay freq ns start readings = some r) :
    start.toNat ≤ r.toNat
      ∧ ns.toNat * freq.toNat < (r.toNat - start.toNat + 1) * giga
      ∧ (1000000 ∣ freq.toNat →
        ns.toNat * freq.toNat ≤ (r.toNat - start.toNat) * giga) := by
  obtain ⟨before, after, -, hreached, -⟩ :=
    (microSecondDelay_eq_some_iff h r).mp hr
  generalize hus : (coveringMicroSeconds ns).toNat = us at hreached
  have hcover : ns.toNat ≤ us * 1000 := by
    rw [← hus, coveringMicroSeconds_toNat]
    omega
  have hasked : ns.toNat * freq.toNat ≤ us * freq.toNat * 1000 := by
    calc ns.toNat * freq.toNat ≤ us * 1000 * freq.toNat :=
          Nat.mul_le_mul_right _ hcover
      _ = us * freq.toNat * 1000 := by ring
  unfold giga
  refine ⟨?_, ?_, ?_⟩
  · omega
  · omega
  · intro hmega
    obtain ⟨ticks, hticks⟩ := Dvd.dvd.mul_left hmega us
    rw [hticks, Nat.mul_div_cancel_left _ (by norm_num)] at hreached
    have hpassed : ticks ≤ r.toNat - start.toNat := by omega
    calc ns.toNat * freq.toNat ≤ us * freq.toNat * 1000 := hasked
      _ = ticks * 1000000000 := by rw [hticks]; ring
      _ ≤ (r.toNat - start.toNat) * 1000000000 :=
          Nat.mul_le_mul_right _ hpassed

/-- At 24.576 MHz two microseconds are 49 ticks, six nanoseconds short. -/
theorem nanoSecondDelay_waits_short :
    nanoSecondDelay 24576000 2000 0 [10, 48, 49, 50] = some 49
      ∧ 2000 * 24576000 < (49 + 1) * giga ∧ 49 * giga < 2000 * 24576000 := by
  have hr : nanoSecondDelay 24576000 2000 0 [10, 48, 49, 50] = some 49 := by
    decide +kernel
  have h : DelayFits 24576000 (coveringMicroSeconds 2000) 0 :=
    ⟨by decide +kernel, by decide +kernel⟩
  obtain ⟨-, hshort, -⟩ := nanoSecondDelay_waits _ _ _ _ _ h hr
  exact ⟨hr, hshort, by decide +kernel⟩

end Edk2Exynos.Timer
