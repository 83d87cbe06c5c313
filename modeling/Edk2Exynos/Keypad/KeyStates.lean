/-
The states of the keys (KeypadDeviceImplLib.c): what `KeySetState` set
last, and what `KeyGetState` answers.

# One index for two codes

The bit of a character is the value set last with its scan code and any
character in range (`bitsAfter_unicodeChars`). Two characters with one
scan code share a bit, one character with two scan codes has two, and a
scan code from 128 on has none. So the answers are right, after any
calls, just when the pairs in use match scan codes with characters one to
one (`keysRight_iff`).

The keys of the device have one character between them, so theirs are
(`deviceKeys_right`).
-/
import Edk2Exynos.Keypad.KeyBitmaps

namespace Edk2Exynos.Keypad.KeyBitmaps

open Lib

-- ================================================================ calls

/-- A call of `KeySetState`. -/
structure KeyCall where
  scanCode : BitVec 16
  unicodeChar : CHAR16
  value : Bool

/-- The bitmaps after some calls; none once an access was outside. -/
def afterCalls (calls : List KeyCall) : Option Words :=
  calls.foldlM
    (fun w c => keySetState c.scanCode c.unicodeChar c.value w) zeroWords

/-- The last value set by the calls that `p` holds of, false before. -/
def lastValue (p : KeyCall → Bool) (calls : List KeyCall) : Bool :=
  match (calls.filter p).getLast? with
  | some c => c.value
  | none => false

/-- Every code in range had true as the last value set for it. -/
def Held (scanCode : BitVec 16) (unicodeChar : CHAR16)
    (calls : List KeyCall) : Prop :=
  (ScanInRange scanCode → lastValue (fun c => c.scanCode = scanCode) calls)
    ∧ (CharInRange unicodeChar →
      lastValue (fun c => c.unicodeChar = unicodeChar) calls)

instance (scanCode : BitVec 16) (unicodeChar : CHAR16)
    (calls : List KeyCall) :
    Decidable (Held scanCode unicodeChar calls) :=
  inferInstanceAs (Decidable (_ ∧ _))

/-- A call for neither code. -/
def KeyCall.Apart (c : KeyCall) (scanCode : BitVec 16)
    (unicodeChar : CHAR16) : Prop :=
  (ScanInRange scanCode → c.scanCode ≠ scanCode)
    ∧ (CharInRange unicodeChar → c.unicodeChar ≠ unicodeChar)

/-- With the pairs `Used` alone, after any calls: every access is inside
its array and `KeyGetState` answers by the values set last; and a further
call for other codes does not change the answer. -/
def KeysRight (Used : BitVec 16 → CHAR16 → Prop) : Prop :=
  ∀ calls : List KeyCall,
    (∀ c ∈ calls, Used c.scanCode c.unicodeChar) →
    ∀ scanCode unicodeChar, Used scanCode unicodeChar →
      (afterCalls calls).bind (keyGetState scanCode unicodeChar)
          = some (decide (Held scanCode unicodeChar calls))
        ∧ ∀ c : KeyCall, Used c.scanCode c.unicodeChar →
          c.Apart scanCode unicodeChar →
          (afterCalls (calls ++ [c])).bind
              (keyGetState scanCode unicodeChar)
            = (afterCalls calls).bind (keyGetState scanCode unicodeChar)

/-- The pairs with a character in range match scan codes with characters
one to one, and the scan codes have a bit in two words. -/
structure Paired (Used : BitVec 16 → CHAR16 → Prop) : Prop where
  inside : ∀ s u, Used s u → CharInRange u → s < 128
  unique : ∀ s u s' u', Used s u → Used s' u' →
    CharInRange u → CharInRange u' → (s = s' ↔ u = u')

-- ======================================================== last values

theorem lastValue_concat (p : KeyCall → Bool) (calls : List KeyCall)
    (c : KeyCall) :
    lastValue p (calls ++ [c])
      = if p c then c.value else lastValue p calls := by
  unfold lastValue
  rw [List.filter_append, List.filter_singleton]
  cases p c with
  | true => simp
  | false => simp

/-- Calls for which two predicates agree have the same last value. -/
theorem lastValue_congr {p q : KeyCall → Bool} {calls : List KeyCall}
    (h : ∀ c ∈ calls, p c = q c) : lastValue p calls = lastValue q calls := by
  unfold lastValue
  rw [List.filter_congr h]

/-- The bits after some calls, as long as the accesses are inside. -/
def bitsAfter (calls : List KeyCall) : Bitmaps :=
  calls.foldl
    (fun b c => Keypad.keySetState c.scanCode c.unicodeChar c.value b)
    ⟨fun _ => false, fun _ => false⟩

theorem zeroWords_bits :
    zeroWords.bits = ⟨fun _ => false, fun _ => false⟩ := by
  unfold Words.bits zeroWords
  congr 1
  · funext i
    exact wordBit_zero i
  · funext i
    exact wordBit_zero i

theorem afterCalls_bits {calls : List KeyCall}
    (h : ∀ c ∈ calls, Inside c.scanCode c.unicodeChar) :
    ∃ w, afterCalls calls = some w ∧ w.bits = bitsAfter calls := by
  induction calls using List.reverseRecOn with
  | nil => exact ⟨zeroWords, rfl, zeroWords_bits⟩
  | append_singleton calls c ih =>
    obtain ⟨w, hw, hbits⟩ := ih fun d hd =>
      h d (List.mem_append_left _ hd)
    obtain ⟨w', hw', hbits'⟩ := keySetState_bits w c.value
      (h c (List.mem_append_right _ (List.mem_singleton_self c)))
    refine ⟨w', ?_, ?_⟩
    · unfold afterCalls at hw ⊢
      rw [List.foldlM_append, hw]
      simp [hw']
    · unfold bitsAfter at hbits ⊢
      rw [List.foldl_append, ← hbits]
      exact hbits'

theorem bitsAfter_concat (calls : List KeyCall) (c : KeyCall) :
    bitsAfter (calls ++ [c])
      = Keypad.keySetState c.scanCode c.unicodeChar c.value
          (bitsAfter calls) := by
  unfold bitsAfter
  rw [List.foldl_append]
  rfl

theorem bitmapPut_apply (bitmap : Nat → Bool) (bit bit' : BitVec 16)
    (value : Bool) :
    bitmapPut bitmap bit value bit'.toNat
      = if bit = bit' then value else bitmap bit'.toNat := by
  unfold bitmapPut
  rw [Function.update_apply]
  exact if_congr (by rw [BitVec.toNat_inj, eq_comm]) rfl rfl

/-- A bit that just the calls with `p` put holds the last value these
set. -/
theorem bitsAfter_lastValue {f : Bitmaps → Bool} {p : KeyCall → Bool}
    (hzero : f ⟨fun _ => false, fun _ => false⟩ = false)
    (hstep : ∀ (c : KeyCall) (b : Bitmaps),
      f (Keypad.keySetState c.scanCode c.unicodeChar c.value b)
        = if p c then c.value else f b)
    (calls : List KeyCall) :
    f (bitsAfter calls) = lastValue p calls := by
  induction calls using List.reverseRecOn with
  | nil => exact hzero
  | append_singleton calls c ih =>
    rw [lastValue_concat, ← ih, bitsAfter_concat]
    exact hstep c (bitsAfter calls)

/-- The bit of a scan code is what was set last for it. -/
theorem bitsAfter_scanCodes {scanCode : BitVec 16}
    (h : ScanInRange scanCode) (calls : List KeyCall) :
    (bitsAfter calls).scanCodes scanCode.toNat
      = lastValue (fun c => c.scanCode = scanCode) calls := by
  apply bitsAfter_lastValue (f := fun b => b.scanCodes scanCode.toNat)
  · rfl
  · intro c b
    simp only [Keypad.keySetState, decide_eq_true_eq]
    split
    next hrange => exact bitmapPut_apply _ _ _ _
    next hrange =>
      have hne : c.scanCode ≠ scanCode := by
        intro heq
        rw [heq] at hrange
        exact hrange h
      rw [if_neg hne]

/-- The bit a character is looked up in is what was set last with the
same scan code and any character in range. -/
theorem bitsAfter_unicodeChars (scanCode : BitVec 16)
    (calls : List KeyCall) :
    (bitsAfter calls).unicodeChars scanCode.toNat
      = lastValue (fun c => CharInRange c.unicodeChar
          ∧ c.scanCode = scanCode) calls := by
  apply bitsAfter_lastValue (f := fun b => b.unicodeChars scanCode.toNat)
  · rfl
  · intro c b
    simp only [Keypad.keySetState, decide_eq_true_eq]
    split
    next hrange =>
      rw [bitmapPut_apply]
      exact if_congr (iff_and_self.mpr fun _ => hrange) rfl rfl
    next hrange => rw [if_neg fun hboth => hrange hboth.1]

/-- The answer after some calls: each code has the bit of the scan
code. -/
theorem answer_eq (calls : List KeyCall) (scanCode : BitVec 16)
    (unicodeChar : CHAR16)
    (hcalls : ∀ c ∈ calls, Inside c.scanCode c.unicodeChar)
    (h : Inside scanCode unicodeChar) :
    (afterCalls calls).bind (keyGetState scanCode unicodeChar)
      = some (decide (
          (ScanInRange scanCode →
            lastValue (fun c => c.scanCode = scanCode) calls)
          ∧ (CharInRange unicodeChar →
            lastValue (fun c => CharInRange c.unicodeChar
              ∧ c.scanCode = scanCode) calls))) := by
  obtain ⟨w, hw, hbits⟩ := afterCalls_bits hcalls
  rw [hw, Option.bind_some, keyGetState_bits w h, hbits, keyGetState_eq,
    bitsAfter_unicodeChars]
  congr 1
  by_cases hscan : ScanInRange scanCode
  · rw [if_pos hscan, bitsAfter_scanCodes hscan]
    by_cases hchar : CharInRange unicodeChar
    · simp [hscan, hchar]
    · simp [hscan, hchar]
  · by_cases hchar : CharInRange unicodeChar
    · simp [hscan, hchar]
    · simp [hscan, hchar]

-- ==================================================== pairs one to one

/-- A call for neither code leaves what was set last for them. -/
theorem held_concat {c : KeyCall} {scanCode : BitVec 16}
    {unicodeChar : CHAR16} (h : c.Apart scanCode unicodeChar)
    (calls : List KeyCall) :
    Held scanCode unicodeChar (calls ++ [c])
      ↔ Held scanCode unicodeChar calls := by
  unfold Held
  simp only [lastValue_concat, decide_eq_true_eq]
  refine and_congr (imp_congr_right fun hscan => ?_)
    (imp_congr_right fun hchar => ?_)
  · rw [if_neg (h.1 hscan)]
  · rw [if_neg (h.2 hchar)]

variable {Used : BitVec 16 → CHAR16 → Prop}

/-- Where scan codes and characters in use match one to one, the scan
code is as good an index as the character. -/
theorem answer_of_paired (h : Paired Used) {calls : List KeyCall}
    (hcalls : ∀ c ∈ calls, Used c.scanCode c.unicodeChar)
    {scanCode : BitVec 16} {unicodeChar : CHAR16}
    (hused : Used scanCode unicodeChar) :
    (afterCalls calls).bind (keyGetState scanCode unicodeChar)
      = some (decide (Held scanCode unicodeChar calls)) := by
  rw [answer_eq calls scanCode unicodeChar
    (fun c hc => h.inside _ _ (hcalls c hc)) (h.inside _ _ hused)]
  congr 1
  refine decide_eq_decide.mpr (and_congr_right fun _ =>
    imp_congr_right fun hchar => ?_)
  have hsame : ∀ c ∈ calls,
      decide (CharInRange c.unicodeChar ∧ c.scanCode = scanCode)
        = decide (c.unicodeChar = unicodeChar) := by
    intro c hc
    refine decide_eq_decide.mpr ⟨?_, ?_⟩
    · intro hboth
      exact (h.unique _ _ _ _ (hcalls c hc) hused hboth.1 hchar).mp hboth.2
    · intro heq
      have hrange : CharInRange c.unicodeChar := by rwa [heq]
      exact ⟨hrange,
        (h.unique _ _ _ _ (hcalls c hc) hused hrange hchar).mpr heq⟩
  rw [lastValue_congr hsame]

theorem keysRight_of_paired (h : Paired Used) : KeysRight Used := by
  intro calls hcalls scanCode unicodeChar hused
  have hanswer := answer_of_paired h hcalls hused
  refine ⟨hanswer, ?_⟩
  intro c hc hapart
  have hcalls' : ∀ d ∈ calls ++ [c], Used d.scanCode d.unicodeChar := by
    intro d hd
    rcases List.mem_append.mp hd with hd | hd
    · exact hcalls d hd
    · rw [List.mem_singleton.mp hd]
      exact hc
  rw [hanswer, answer_of_paired h hcalls' hused]
  exact congrArg some (decide_eq_decide.mpr (held_concat hapart calls))

/-- A read outside the array is no answer. -/
theorem KeysRight.inside (h : KeysRight Used) {s : BitVec 16}
    {u : CHAR16} (hused : Used s u) : Inside s u := by
  by_contra hout
  have hanswer := (h [] (by simp) s u hused).1
  rw [show afterCalls [] = some zeroWords from rfl, Option.bind_some,
    keyGetState_outside zeroWords hout] at hanswer
  cases hanswer

/-- Two characters with one scan code: set for one, the other reads as
held. -/
theorem KeysRight.one_char (h : KeysRight Used) {s : BitVec 16}
    {u u' : CHAR16} (hused : Used s u) (hused' : Used s u')
    (hchar : CharInRange u) (hchar' : CharInRange u') : u = u' := by
  by_contra hne
  have hcalls : ∀ c ∈ [(⟨s, u, true⟩ : KeyCall)],
      Used c.scanCode c.unicodeChar := by simpa using hused
  have hright := (h _ hcalls s u' hused').1
  rw [answer_eq _ s u' (fun c hc => h.inside (hcalls c hc))
    (h.inside hused')] at hright
  simp [Held, lastValue, hchar, hchar', hne] at hright

/-- One character with two scan codes: it is cleared with one of them and
still held with the other. -/
theorem KeysRight.one_scan (h : KeysRight Used) {s s' : BitVec 16}
    {u : CHAR16} (hused : Used s u) (hused' : Used s' u)
    (hchar : CharInRange u) : s = s' := by
  by_contra hne
  have hcalls : ∀ c ∈ [(⟨s', u, true⟩ : KeyCall), ⟨s, u, false⟩],
      Used c.scanCode c.unicodeChar := by
    simpa using ⟨hused', hused⟩
  have hright := (h _ hcalls s' u hused').1
  rw [answer_eq _ s' u (fun c hc => h.inside (hcalls c hc))
    (h.inside hused')] at hright
  simp [Held, lastValue, hchar, hne] at hright

/-- The states of the keys in use are right, after any calls, exactly
when their scan codes and characters match one to one and have bits. -/
theorem keysRight_iff (Used : BitVec 16 → CHAR16 → Prop) :
    KeysRight Used ↔ Paired Used := by
  constructor
  · intro h
    refine ⟨fun _ _ hused hchar => h.inside hused hchar, ?_⟩
    intro s u s' u' hused hused' hchar hchar'
    constructor
    · intro heq
      subst heq
      exact h.one_char hused hused' hchar hchar'
    · intro heq
      subst heq
      exact h.one_scan hused hused' hchar
  · exact keysRight_of_paired

/-- With every pair in use they are not: set for `a`, the state of `b`
reads as held, and with scan code 128 the access is outside. -/
theorem keySetState_mixes_characters :
    (afterCalls [⟨0, 0x61, true⟩]).bind (keyGetState 0 0x62) = some true
      ∧ ¬ Held 0 0x62 [⟨0, 0x61, true⟩]
      ∧ keySetState 0x80 0x61 true zeroWords = none
      ∧ ¬ KeysRight fun _ _ => True := by
  have hanswer : (afterCalls [⟨0, 0x61, true⟩]).bind (keyGetState 0 0x62)
      = some true := by decide
  have hheld : ¬ Held 0 0x62 [⟨0, 0x61, true⟩] := by decide
  refine ⟨hanswer, hheld, by decide, ?_⟩
  intro hright
  have hanswer' := (hright [⟨0, 0x61, true⟩] (fun _ _ => trivial)
    0 0x62 trivial).1
  rw [hanswer, decide_eq_false hheld] at hanswer'
  cases hanswer'

-- =========================================================== the device

/-- The pairs of the keys of the device. -/
def DeviceKeys (scanCode : BitVec 16) (unicodeChar : CHAR16) : Prop :=
  ∃ key : Key, key.keyData.key = ⟨scanCode, unicodeChar⟩

theorem DeviceKeys.of_char {scanCode : BitVec 16} {unicodeChar : CHAR16}
    (h : DeviceKeys scanCode unicodeChar) (hchar : CharInRange unicodeChar) :
    scanCode = 0 ∧ unicodeChar = charCarriageReturn := by
  obtain ⟨key, hkey⟩ := h
  cases key with
  | volumeDown | volumeUp =>
    obtain ⟨-, hzero⟩ := EfiInputKey.mk.inj hkey
    exact absurd hzero.symm hchar.1
  | power =>
    obtain ⟨hscan, hpower⟩ := EfiInputKey.mk.inj hkey
    exact ⟨hscan.symm, hpower.symm⟩

/-- Only one of them has a character, so their states are right. -/
theorem deviceKeys_right : KeysRight DeviceKeys := by
  apply keysRight_of_paired
  constructor
  · intro s u hused hchar
    rw [(hused.of_char hchar).1]
    decide
  · intro s u s' u' hused hused' hchar hchar'
    obtain ⟨hs, hu⟩ := hused.of_char hchar
    obtain ⟨hs', hu'⟩ := hused'.of_char hchar'
    rw [hs, hu, hs', hu']
    exact iff_of_true rfl rfl

end Edk2Exynos.Keypad.KeyBitmaps
