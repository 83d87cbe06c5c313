/-
The virtual real-time clock: `LibGetTime` splits the seconds since the
counter started into the fields of an `EFI_TIME` that begins in January
2019.

# What it reports

The day is a byte, counted from zero and never carried into the month:
what is reported repeats every 256 days. `libGetTime_reports` says so,
and the order of two times is that of these seconds
(`Reports.earlier_iff`). A first day has the number zero, which no date
has.
-/
import Edk2Exynos.BootSlot.Base

namespace Edk2Exynos.Rtc

open BootSlot (EfiStatus efiSuccess efiInvalidParameter)

/-- An 8-bit word. -/
abbrev UINT8 := BitVec 8
/-- A 16-bit word. -/
abbrev UINT16 := BitVec 16
/-- A 32-bit word. -/
abbrev UINT32 := BitVec 32
/-- A 64-bit word. -/
abbrev UINT64 := BitVec 64

-- =============================================================== the data

/-- `EFI_TIME` -/
structure EfiTime where
  year : UINT16
  month : UINT8
  day : UINT8
  hour : UINT8
  minute : UINT8
  second : UINT8
  nanosecond : UINT32
  timeZone : BitVec 16
  daylight : UINT8
  deriving DecidableEq

/-- `EFI_TIME_CAPABILITIES` -/
structure EfiTimeCapabilities where
  resolution : UINT32
  accuracy : UINT32
  setsToZero : Bool

/-- `EFI_DEVICE_ERROR` -/
def efiDeviceError : EfiStatus := 0x8000000000000007#64

-- =============================================================== the code

/-- `LibRtcInitialize`: what it does to `BaseTime`. -/
def libRtcInitialize (baseTime : EfiTime) : EfiTime :=
  { baseTime with year := 2019, month := 1 }

/-- `SECONDS_PER_DAY` -/
def secondsPerDay : UINT64 := 24 * 60 * 60
/-- `SECONDS_PER_HOUR` -/
def secondsPerHour : UINT64 := 60 * 60
/-- `SECONDS_PER_MINUTE` -/
def secondsPerMinute : UINT64 := 60

/-- `LibGetTime`, given the frequency and the value of the counter: the
status, and what the two pointers, if they are not NULL, point to then. -/
def libGetTime (baseTime : EfiTime) (freq : UINT32)
    (performanceCounter : UINT64) (time : Option EfiTime)
    (capabilities : Option EfiTimeCapabilities) :
    EfiStatus × Option EfiTime × Option EfiTimeCapabilities :=
  match time with
  | none => (efiInvalidParameter, none, capabilities)
  | some old =>
    if freq = 0 then (efiDeviceError, some old, capabilities)
    else
      let capabilities := capabilities.map fun _ => ⟨freq, 0, false⟩
      let elapsedSeconds := performanceCounter / freq.setWidth 64
      let day : UINT8 := (elapsedSeconds / secondsPerDay).setWidth 8
      let elapsedSeconds := elapsedSeconds % secondsPerDay
      let hour : UINT8 := (elapsedSeconds / secondsPerHour).setWidth 8
      let elapsedSeconds := elapsedSeconds % secondsPerHour
      let minute : UINT8 := (elapsedSeconds / secondsPerMinute).setWidth 8
      let elapsedSeconds := elapsedSeconds % secondsPerMinute
      (efiSuccess, some {
        year := baseTime.year
        month := baseTime.month
        day := day
        hour := hour
        minute := minute
        second := elapsedSeconds.setWidth 8
        nanosecond := 0
        timeZone := 0
        daylight := 0 }, capabilities)

-- =============================================================== the rule

/-- The ranges of a date and a time of day. -/
structure EfiTime.Valid (t : EfiTime) : Prop where
  day : 1 ≤ t.day.toNat ∧ t.day.toNat ≤ 31
  hour : t.hour.toNat < 24
  minute : t.minute.toNat < 60
  second : t.second.toNat < 60

/-- The fields that order times, the most significant first. -/
def EfiTime.fields (t : EfiTime) : List Nat :=
  [t.year.toNat, t.month.toNat, t.day.toNat, t.hour.toNat,
    t.minute.toNat, t.second.toNat, t.nanosecond.toNat]

/-- One time is before another. -/
def EfiTime.Earlier (t t' : EfiTime) : Prop := t.fields < t'.fields

-- ======================================================= what is reported

/-- The elapsed seconds, modulo the 256 days a byte counts. -/
def shownSeconds (freq : UINT32) (performanceCounter : UINT64) : Nat :=
  performanceCounter.toNat / freq.toNat % (256 * 86400)

/-- A time of the clock has the base's year and month, and its other
fields make up the elapsed seconds. -/
structure Reports (baseTime : EfiTime) (seconds : Nat) (t : EfiTime) :
    Prop where
  year : t.year = baseTime.year
  month : t.month = baseTime.month
  day : t.day.toNat = seconds / 86400
  hour : t.hour.toNat = seconds % 86400 / 3600
  minute : t.minute.toNat = seconds % 3600 / 60
  second : t.second.toNat = seconds % 60
  nanosecond : t.nanosecond = 0

/-- Every reading of the counter is reported as some time. -/
theorem libGetTime_reports (baseTime old : EfiTime)
    (capabilities : Option EfiTimeCapabilities) (freq : UINT32)
    (hfreq : freq ≠ 0) (c : UINT64) :
    ∃ t k, libGetTime baseTime freq c (some old) capabilities
        = (efiSuccess, some t, k)
      ∧ Reports baseTime (shownSeconds freq c) t := by
  refine ⟨_, _, if_neg hfreq, ?_⟩
  have helapsed : (c / freq.setWidth 64).toNat = c.toNat / freq.toNat := by
    rw [BitVec.toNat_udiv, BitVec.toNat_setWidth,
      Nat.mod_eq_of_lt (by omega)]
  have hday : secondsPerDay.toNat = 86400 := rfl
  have hhour : secondsPerHour.toNat = 3600 := rfl
  have hminute : secondsPerMinute.toNat = 60 := rfl
  unfold shownSeconds
  constructor
  case year => rfl
  case month => rfl
  case nanosecond => rfl
  all_goals
    simp only [BitVec.toNat_setWidth, BitVec.toNat_udiv,
      BitVec.toNat_umod, helapsed, hday, hhour, hminute]
    omega

section

variable {baseTime t t' : EfiTime} {seconds seconds' : Nat}

/-- The time is one of a date exactly from the second day to the end of
the 31st counted so. -/
theorem Reports.valid_iff (h : Reports baseTime seconds t) :
    t.Valid ↔ 86400 ≤ seconds ∧ seconds < 32 * 86400 := by
  constructor
  · intro hv
    have hday := hv.day
    rw [h.day] at hday
    omega
  · intro hs
    constructor
    case day =>
      rw [h.day]
      omega
    case hour =>
      rw [h.hour]
      omega
    case minute =>
      rw [h.minute]
      omega
    case second =>
      rw [h.second]
      omega

/-- Times of one base are ordered as their seconds. -/
theorem Reports.earlier_iff (h : Reports baseTime seconds t)
    (h' : Reports baseTime seconds' t') :
    t.Earlier t' ↔ seconds < seconds' := by
  unfold EfiTime.Earlier EfiTime.fields
  rw [h.year, h.month, h.nanosecond, h'.year, h'.month, h'.nanosecond,
    h.day, h.hour, h.minute, h.second, h'.day, h'.hour, h'.minute,
    h'.second]
  simp only [List.cons_lt_cons_iff, Nat.lt_irrefl, false_or, true_and,
    List.not_lt_nil, and_false, or_false]
  omega

end

/-- When two reported times are valid and in order: the seconds since the
counter started, modulo 256 days, are past the first day, before the 33rd,
and in order. -/
theorem libGetTime_ordered_iff (baseTime old old' : EfiTime)
    (k k' : Option EfiTimeCapabilities) (freq : UINT32)
    (hfreq : freq ≠ 0) (c c' : UINT64) :
    ∃ t t' l l',
      libGetTime (libRtcInitialize baseTime) freq c (some old) k
        = (efiSuccess, some t, l)
      ∧ libGetTime (libRtcInitialize baseTime) freq c' (some old') k'
        = (efiSuccess, some t', l')
      ∧ ((t.Valid ∧ t'.Valid ∧ ¬ t'.Earlier t)
        ↔ 86400 ≤ shownSeconds freq c
          ∧ shownSeconds freq c ≤ shownSeconds freq c'
          ∧ shownSeconds freq c' < 32 * 86400) := by
  obtain ⟨t, l, hget, ht⟩ :=
    libGetTime_reports (libRtcInitialize baseTime) old k freq hfreq c
  obtain ⟨t', l', hget', ht'⟩ :=
    libGetTime_reports (libRtcInitialize baseTime) old' k' freq hfreq c'
  refine ⟨t, t', l, l', hget, hget', ?_⟩
  rw [ht.valid_iff, ht'.valid_iff, ht'.earlier_iff ht]
  omega

-- `BaseTime` before the initialisation, and a buffer for the time
/-- A time with nothing in it yet. -/
def zeroTime : EfiTime := ⟨0, 0, 0, 0, 0, 0, 0, 0, 0⟩

/-- Two readings a second apart. -/
theorem libGetTime_ordered_iff_second :
    ∃ t t' l l',
      libGetTime (libRtcInitialize zeroTime) 26000000 2600000000000
          (some zeroTime) none = (efiSuccess, some t, l)
      ∧ libGetTime (libRtcInitialize zeroTime) 26000000 2600000026000
          (some zeroTime) none = (efiSuccess, some t', l')
      ∧ ((t.Valid ∧ t'.Valid ∧ ¬ t'.Earlier t)
        ↔ 86400 ≤ shownSeconds 26000000 2600000000000
          ∧ shownSeconds 26000000 2600000000000
            ≤ shownSeconds 26000000 2600000026000
          ∧ shownSeconds 26000000 2600000026000 < 32 * 86400) :=
  libGetTime_ordered_iff zeroTime zeroTime zeroTime none none 26000000
    (by decide) 2600000000000 2600000026000

/-- The time at power-on is no date; and the day after the 255th is before
it. -/
theorem libGetTime_first_day :
    (∃ t l, libGetTime (libRtcInitialize zeroTime) 26000000 0
          (some zeroTime) none = (efiSuccess, some t, l) ∧ ¬ t.Valid)
      ∧ ∃ t t' l l',
        libGetTime (libRtcInitialize zeroTime) 1 (255 * 86400)
            (some zeroTime) none = (efiSuccess, some t, l)
        ∧ libGetTime (libRtcInitialize zeroTime) 1 (256 * 86400)
            (some zeroTime) none = (efiSuccess, some t', l')
        ∧ t'.Earlier t := by
  constructor
  · obtain ⟨t, l, hget, ht⟩ := libGetTime_reports
      (libRtcInitialize zeroTime) zeroTime none 26000000
      (by decide) 0
    refine ⟨t, l, hget, fun hv => ?_⟩
    have hseconds := ht.valid_iff.mp hv
    exact absurd hseconds.1 (by decide)
  · obtain ⟨t, l, hget, ht⟩ := libGetTime_reports
      (libRtcInitialize zeroTime) zeroTime none 1
      (by decide) (255 * 86400)
    obtain ⟨t', l', hget', ht'⟩ := libGetTime_reports
      (libRtcInitialize zeroTime) zeroTime none 1
      (by decide) (256 * 86400)
    exact ⟨t, t', l, l', hget, hget',
      (ht'.earlier_iff ht).mpr (by decide)⟩

end Edk2Exynos.Rtc
