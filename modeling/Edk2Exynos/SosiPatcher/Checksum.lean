/-
What the patched table differs in, and what its bytes add up to.

# One accumulator

The second pass adds to the checksum of the first instead of to zero.
The bytes of the file cancel, and with the checksum byte set the patched
table adds up to what the *input* adds up to without its checksum byte
(`sum_output`): zero only for an input whose right checksum is zero.

# Offsets

The value is stored in the eight bytes from offset 5 of "SOSI". Found at
offset 0, 1 or 2 it reaches into the length in the header, by which the
second pass goes. And the search is made when the checksum byte has been
cleared: an occurrence that has the checksum byte for a letter is not
found, but a later one may be.
-/
import Edk2Exynos.SosiPatcher.Main
import Edk2Exynos.Lib.ByteSum

namespace Edk2Exynos.SosiPatcher

open Lib

-- ========================================================== the meanings

/-- The first "SOSI", and it is in the range that is searched. -/
def IsFirstSosi (table : Mem) (stSize s : Nat) : Prop :=
  s < stSize - 16 ∧ readBytes table s 4 = sosi
    ∧ ∀ r < s, readBytes table r 4 ≠ sosi

/-- The eight bytes at offset 5 after it. -/
def Patchable (table : Mem) (stSize i : Nat) : Prop :=
  ∃ s, IsFirstSosi table stSize s ∧ s + 5 ≤ i ∧ i < s + 13

/-- The output is the input except in these bytes and the checksum, and
its bytes add up to zero. -/
def Right (stSize : Nat) (input output : Mem) : Prop :=
  (∀ i < stSize, ¬ Patchable input stSize i → i ≠ checksumOffset →
    output i = input i)
  ∧ 256 ∣ ∑ i ∈ Finset.range stSize, (output i).toNat

/-- The table as it is searched. -/
def cleared (input : Mem) : Mem := setChecksum input 0

/-- The table that the second pass adds up. -/
def patched (stSize : Nat) (val : BitVec 64) (input : Mem) : Mem :=
  setChecksum (patchSosi stSize val (cleared input)) 0

/-- What is found in the cleared table is the first "SOSI" of the input,
or the value is there already. -/
def Framed (stSize : Nat) (val : BitVec 64) (input : Mem) : Prop :=
  ∀ s, IsFirstSosi (cleared input) stSize s → ∀ k < 8,
    ¬ Patchable input stSize (s + 5 + k) → s + 5 + k ≠ checksumOffset →
    input (s + 5 + k) = byteOf val k

/-- The input without its checksum adds up to zero, give and take what
the second pass leaves out of the file and what it reads behind it. -/
def Balanced (stSize : Nat) (behind : Nat → Option Byte)
    (val : BitVec 64) (input : Mem) : Prop :=
  ∑ i ∈ Finset.range stSize, cleared input i
      + ∑ i ∈ Finset.Ico (headerLen (patched stSize val input)) stSize,
        patched stSize val input i
    = ∑ i ∈ Finset.Ico stSize (headerLen (patched stSize val input)),
      (behind i).getD 0

-- ============================================================== the loop

/-- The loop adds up all bytes it can read. -/
theorem addUp_eq {mapped : Nat → Option Byte} {size pos : Nat}
    {sum r : Byte} (h : addUp mapped size pos sum = some r) :
    r = sum + ∑ i ∈ Finset.range size, (mapped (pos + i)).getD 0 := by
  induction size generalizing pos sum with
  | zero =>
      cases h
      simp
  | succ size ih =>
      unfold addUp at h
      split at h
      · cases h
      next c hc =>
        have hshift : ∀ i, pos + 1 + i = pos + (i + 1) := by
          intro i
          omega
        have hzero : (mapped (pos + 0)).getD 0 = c := by
          rw [Nat.add_zero, hc, Option.getD_some]
        rw [ih h, Finset.sum_range_succ', hzero]
        simp only [hshift]
        ring

/-- The loop ends when everything it reads is mapped. -/
theorem addUp_isSome {mapped : Nat → Option Byte} {size pos : Nat}
    {sum : Byte} (h : ∀ i < size, (mapped (pos + i)).isSome) :
    (addUp mapped size pos sum).isSome := by
  induction size generalizing pos sum with
  | zero => rfl
  | succ size ih =>
      unfold addUp
      obtain ⟨c, hc⟩ := Option.isSome_iff_exists.1 (h 0 (Nat.succ_pos _))
      rw [Nat.add_zero] at hc
      simp only [hc]
      apply ih
      intro i hi
      rw [Nat.add_assoc, Nat.add_comm 1 i]
      exact h (i + 1) (by omega)

/-- The loop makes the negative of the sum. -/
theorem negateSum_eq (sum : Byte) : negateSum sum = -sum := by
  unfold negateSum
  have hff : (0xFF : Byte) = -1 := rfl
  rw [hff]
  ring

/-- What is found is the first `SOSI`. -/
theorem findSosi_iff {table : Mem} {left s r : Nat} :
    findSosi table left s = some r
      ↔ s ≤ r ∧ r < s + left ∧ readBytes table r 4 = sosi
        ∧ ∀ q, s ≤ q → q < r → readBytes table q 4 ≠ sosi := by
  induction left generalizing s with
  | zero =>
      refine ⟨nofun, ?_⟩
      rintro ⟨hle, hlt, -⟩
      omega
  | succ left ih =>
      unfold findSosi
      split
      next hat =>
        constructor
        · intro h
          rw [← Option.some.inj h]
          exact ⟨le_refl s, by omega, hat, fun q _ _ => by omega⟩
        · rintro ⟨hle, -, -, hfirst⟩
          by_contra hne
          have hlt : s < r := lt_of_le_of_ne hle fun h => hne (by rw [h])
          exact hfirst s (le_refl s) hlt hat
      next hat =>
        rw [ih]
        constructor
        · rintro ⟨hle, hlt, hr, hfirst⟩
          refine ⟨by omega, by omega, hr, ?_⟩
          intro q hq hqr
          by_cases hqs : q = s
          · rw [hqs]
            exact hat
          · exact hfirst q (by omega) hqr
        · rintro ⟨hle, hlt, hr, hfirst⟩
          have hne : s ≠ r := fun h => hat (h ▸ hr)
          refine ⟨by omega, by omega, hr, ?_⟩
          intro q hq hqr
          exact hfirst q (by omega) hqr

/-- What is found is the first `SOSI` of the table. -/
theorem findSosi_isFirst {table : Mem} {stSize s : Nat} :
    findSosi table (stSize - 16) 0 = some s
      ↔ IsFirstSosi table stSize s := by
  rw [findSosi_iff, Nat.zero_add]
  unfold IsFirstSosi
  constructor
  · rintro ⟨-, hlt, hs, hfirst⟩
    exact ⟨hlt, hs, fun r hr => hfirst r (Nat.zero_le r) hr⟩
  · rintro ⟨hlt, hs, hfirst⟩
    exact ⟨Nat.zero_le s, hlt, hs, fun r _ hr => hfirst r hr⟩

-- ============================================================== the edit

/-- The checksum changes its own byte only. -/
theorem setChecksum_outside {table : Mem} {b : Byte} {i : Nat}
    (hi : i ≠ checksumOffset) : setChecksum table b i = table i := by
  apply writeBytes_outside
  simp only [List.length_singleton]
  omega

/-- The checksum is stored in its byte. -/
theorem setChecksum_at (table : Mem) (b : Byte) :
    setChecksum table b checksumOffset = b := by
  have hat : writeBytes table checksumOffset [b] (checksumOffset + 0)
      = [b][0] := writeBytes_inside Nat.one_pos
  exact hat

/-- A new checksum changes the sum by the difference. -/
theorem sum_setChecksum (table : Mem) (b : Byte) {stSize : Nat}
    (hsize : 36 ≤ stSize) :
    ∑ i ∈ Finset.range stSize, setChecksum table b i
      = (∑ i ∈ Finset.range stSize, table i) - table checksumOffset
        + b := by
  apply sum_writeByte
  unfold checksumOffset
  omega

/-- What the patch does to a byte. -/
theorem patchSosi_none {table : Mem} {stSize : Nat} {val : BitVec 64}
    {i : Nat} (h : ¬ Patchable table stSize i) :
    patchSosi stSize val table i = table i := by
  unfold patchSosi
  cases hs : findSosi table (stSize - 16) 0 with
  | none => rfl
  | some s =>
      apply putLongLong_outside
      by_contra hin
      exact h ⟨s, findSosi_isFirst.1 hs, by omega, by omega⟩

/-- The bytes of a word, lowest first. -/
theorem bytesOfLongLong_getElem (y : BitVec 64) (k : Nat)
    (hk : k < (bytesOfLongLong y).length) :
    (bytesOfLongLong y)[k] = byteOf y k := by
  have hlt : k < 8 := hk
  interval_cases k <;> rfl

/-- The value stands behind `SOSI`. -/
theorem patchSosi_at {table : Mem} {stSize : Nat} {val : BitVec 64}
    {s k : Nat} (hs : IsFirstSosi table stSize s) (hk : k < 8) :
    patchSosi stSize val table (s + 5 + k) = byteOf val k := by
  unfold patchSosi
  rw [findSosi_isFirst.2 hs]
  show putLongLong table (s + 5) val (s + 5 + k) = _
  have hlen : k < (bytesOfLongLong val).length := hk
  rw [← bytesOfLongLong_getElem val k hlen]
  exact writeBytes_inside hlen

/-- The header keeps its length when "SOSI" is not in front of it. -/
theorem headerLen_patched {stSize : Nat} {val : BitVec 64} {input : Mem}
    (h : ∀ s, IsFirstSosi (cleared input) stSize s → 3 ≤ s) :
    headerLen (patched stSize val input) = headerLen input := by
  unfold headerLen
  congr 1
  apply getLword_congr
  apply readBytes_congr
  intro i hi
  have hne : 4 + i ≠ checksumOffset := by
    unfold checksumOffset
    omega
  unfold patched
  rw [setChecksum_outside hne, patchSosi_none, cleared,
    setChecksum_outside hne]
  rintro ⟨s, hs, hle, -⟩
  have hs := h s hs
  omega

-- ============================================================= the result

/-- What `patchTable` computes. -/
theorem patchTable_eq {stSize : Nat} {behind : Nat → Option Byte}
    {val : BitVec 64} {input output : Mem}
    (h : patchTable stSize behind val input = some output) :
    ∃ sum sum', addUp (mapping stSize behind (cleared input))
        (headerLen input) 0 0 = some sum
      ∧ addUp (mapping stSize behind (patched stSize val input))
        (headerLen (patchSosi stSize val (cleared input))) 0 (negateSum sum)
          = some sum'
      ∧ output = setChecksum (patched stSize val input)
        (negateSum sum') := by
  unfold patchTable at h
  simp only at h
  split at h
  · cases h
  next sum hsum =>
    split at h
    · cases h
    next sum' hsum' =>
      cases h
      exact ⟨sum, sum', hsum, hsum', rfl⟩

/-- A run that succeeds writes the patched table. -/
theorem main_eq {v : Invocation} {output : Mem} {stSize : Nat}
    {val : BitVec 64} (hsize : v.fstat = some stSize)
    (hval : v.strtoll = some val) (h : main v = .ok output) :
    patchTable stSize v.behind val v.input = some output := by
  unfold main at h
  simp only [hsize, hval] at h
  split at h
  · cases h
  split at h
  · cases h
  split at h
  · cases h
  split at h
  · cases h
  split at h
  · cases h
  split at h
  · cases h
  split at h
  · cases h
  next hpatch =>
    cases h
    exact hpatch

/-- The byte that is added up at `i`. -/
theorem mapping_getD {stSize : Nat} {behind : Nat → Option Byte}
    {table : Mem} {i : Nat} (hi : i < stSize) :
    (mapping stSize behind table i).getD 0 = table i := by
  unfold mapping
  rw [if_pos hi, Option.getD_some]

/-- The sum over the mapping is that over the table and what is behind it. -/
theorem sum_mapping (stSize : Nat) (behind : Nat → Option Byte)
    (table : Mem) (len : Nat) :
    ∑ i ∈ Finset.range stSize, table i
        + ∑ i ∈ Finset.Ico stSize len, (behind i).getD 0
      = ∑ i ∈ Finset.range len, (mapping stSize behind table i).getD 0
        + ∑ i ∈ Finset.Ico len stSize, table i := by
  have hin : ∑ i ∈ Finset.range stSize, table i
      = ∑ i ∈ Finset.range stSize,
        (mapping stSize behind table i).getD 0 := by
    apply Finset.sum_congr rfl
    intro i hi
    exact (mapping_getD (Finset.mem_range.1 hi)).symm
  have hrest : ∑ i ∈ Finset.Ico len stSize, table i
      = ∑ i ∈ Finset.Ico len stSize,
        (mapping stSize behind table i).getD 0 := by
    apply Finset.sum_congr rfl
    intro i hi
    exact (mapping_getD (Finset.mem_Ico.1 hi).2).symm
  have hover : ∑ i ∈ Finset.Ico stSize len, (behind i).getD 0
      = ∑ i ∈ Finset.Ico stSize len,
        (mapping stSize behind table i).getD 0 := by
    apply Finset.sum_congr rfl
    intro i hi
    have hle := (Finset.mem_Ico.1 hi).1
    unfold mapping
    rw [if_neg (Nat.not_lt.2 hle)]
  rw [hin, hrest, hover]
  exact sum_range_sub_sum_range _ stSize len

/-- The checksum leaves the length. -/
theorem headerLen_setChecksum (table : Mem) (b : Byte) :
    headerLen (setChecksum table b) = headerLen table := by
  have hword : getLword (setChecksum table b) 4 = getLword table 4 :=
    getLword_congr (readBytes_writeBytes_disjoint (.inl (by decide)))
  unfold headerLen
  rw [hword]

/-- The output adds up to what the input adds up to without its checksum,
when the second pass goes over the whole file and no further. -/
theorem sum_output {stSize : Nat} {behind : Nat → Option Byte}
    {val : BitVec 64} {input output : Mem}
    (hlen : headerLen input = stSize) (hsize : 36 ≤ stSize)
    (h : patchTable stSize behind val input = some output) :
    ∑ i ∈ Finset.range stSize, output i
        + ∑ i ∈ Finset.Ico stSize (headerLen (patched stSize val input)),
          (behind i).getD 0
      = ∑ i ∈ Finset.range stSize, cleared input i
        + ∑ i ∈ Finset.Ico (headerLen (patched stSize val input)) stSize,
          patched stSize val input i := by
  obtain ⟨sum, sum', hsum, hsum', rfl⟩ := patchTable_eq h
  have hfirst : sum = ∑ i ∈ Finset.range stSize, cleared input i := by
    rw [addUp_eq hsum, zero_add, hlen]
    apply Finset.sum_congr rfl
    intro i hi
    rw [Nat.zero_add]
    exact mapping_getD (Finset.mem_range.1 hi)
  have hsecond := addUp_eq hsum'
  rw [← headerLen_setChecksum _ 0] at hsecond
  simp only [Nat.zero_add] at hsecond
  change sum' = _ + ∑ i ∈ Finset.range (headerLen (patched stSize val
    input)), _ at hsecond
  have hmap := sum_mapping stSize behind (patched stSize val input)
    (headerLen (patched stSize val input))
  have hzero : patched stSize val input checksumOffset = 0 :=
    setChecksum_at _ _
  rw [sum_setChecksum _ _ hsize, hzero, negateSum_eq, hsecond,
    negateSum_eq, hfirst]
  linear_combination hmap

/-- The output outside the checksum byte is the patch of the input. -/
theorem output_outside {stSize : Nat} {behind : Nat → Option Byte}
    {val : BitVec 64} {input output : Mem}
    (h : patchTable stSize behind val input = some output) {i : Nat}
    (hi : i ≠ checksumOffset) :
    output i = patchSosi stSize val (cleared input) i := by
  obtain ⟨sum, sum', -, -, rfl⟩ := patchTable_eq h
  rw [setChecksum_outside hi]
  unfold patched
  rw [setChecksum_outside hi]

/-- Where the output may differ from the input. -/
theorem output_frame_iff {stSize : Nat} {behind : Nat → Option Byte}
    {val : BitVec 64} {input output : Mem}
    (h : patchTable stSize behind val input = some output) :
    (∀ i < stSize, ¬ Patchable input stSize i → i ≠ checksumOffset →
      output i = input i) ↔ Framed stSize val input := by
  constructor
  · intro hframe s hs k hk hout hne
    have hlt : s < stSize - 16 := hs.1
    rw [← hframe (s + 5 + k) (by omega) hout hne, output_outside h hne,
      patchSosi_at hs hk]
  · intro hframed i hi hout hne
    rw [output_outside h hne]
    by_cases hpatch : Patchable (cleared input) stSize i
    · obtain ⟨s, hs, hle, hlt⟩ := hpatch
      obtain ⟨k, rfl⟩ := Nat.exists_eq_add_of_le hle
      rw [patchSosi_at hs (by omega)]
      exact (hframed s hs k (by omega) hout hne).symm
    · rw [patchSosi_none hpatch]
      exact setChecksum_outside hne

/-- The bytes of the input without the checksum. -/
theorem sum_cleared_iff (input : Mem) {stSize : Nat}
    (hsize : 36 ≤ stSize) :
    ∑ i ∈ Finset.range stSize, cleared input i = 0
      ↔ 256 ∣ ∑ i ∈ (Finset.range stSize).erase checksumOffset,
        (input i).toNat := by
  have hmem : checksumOffset ∈ Finset.range stSize := by
    rw [Finset.mem_range]
    unfold checksumOffset
    omega
  have hzero : cleared input checksumOffset = 0 := setChecksum_at _ _
  have hsame : ∀ i ∈ (Finset.range stSize).erase checksumOffset,
      (cleared input i).toNat = (input i).toNat := by
    intro i hi
    exact congrArg BitVec.toNat
      (setChecksum_outside (Finset.ne_of_mem_erase hi))
  rw [← dvd_sum_toNat_iff, ← Finset.add_sum_erase _ _ hmem, hzero,
    Finset.sum_congr rfl hsame]
  simp

/-- When "SOSI" is not in front of the length, the second pass goes over
the whole file and no further. -/
theorem balanced_iff {stSize : Nat} {behind : Nat → Option Byte}
    {val : BitVec 64} {input : Mem} (hlen : headerLen input = stSize)
    (hsize : 36 ≤ stSize)
    (h : ∀ s, IsFirstSosi (cleared input) stSize s → 3 ≤ s) :
    Balanced stSize behind val input
      ↔ 256 ∣ ∑ i ∈ (Finset.range stSize).erase checksumOffset,
        (input i).toNat := by
  unfold Balanced
  rw [headerLen_patched h, hlen, Finset.Ico_self, Finset.sum_empty,
    Finset.sum_empty, add_zero, sum_cleared_iff input hsize]

/-- A patched table is right when the input is: framed, and balanced
without its checksum. -/
theorem patchTable_right_iff {stSize : Nat} {behind : Nat → Option Byte}
    {val : BitVec 64} {input output : Mem}
    (hlen : headerLen input = stSize) (hsize : 36 ≤ stSize)
    (h : patchTable stSize behind val input = some output) :
    Right stSize input output
      ↔ Framed stSize val input ∧ Balanced stSize behind val input := by
  have hsum := sum_output hlen hsize h
  unfold Right
  rw [output_frame_iff h, dvd_sum_toNat_iff]
  refine and_congr_right fun _ => ?_
  unfold Balanced
  constructor
  · intro hzero
    rw [hzero, zero_add] at hsum
    exact hsum.symm
  · intro hbalanced
    rw [hbalanced] at hsum
    exact add_eq_right.1 hsum

/-- The program ends when "SOSI" is not in front of the length. -/
theorem patchTable_isSome {stSize : Nat} {behind : Nat → Option Byte}
    {val : BitVec 64} {input : Mem} (hlen : headerLen input = stSize)
    (h : ∀ s, IsFirstSosi (cleared input) stSize s → 3 ≤ s) :
    (patchTable stSize behind val input).isSome := by
  have hmapped : ∀ (table : Mem) (sum : Byte),
      (addUp (mapping stSize behind table) stSize 0 sum).isSome := by
    intro table sum
    apply addUp_isSome
    intro i hi
    rw [Nat.zero_add]
    unfold mapping
    rw [if_pos hi]
    rfl
  have hpatched : headerLen (patchSosi stSize val (setChecksum input 0))
      = stSize := by
    rw [← headerLen_setChecksum _ 0]
    exact (headerLen_patched h).trans hlen
  unfold patchTable
  simp only [hlen, hpatched]
  obtain ⟨sum, hsum⟩ := Option.isSome_iff_exists.1
    (hmapped (setChecksum input 0) 0)
  obtain ⟨sum', hsum'⟩ := Option.isSome_iff_exists.1
    (hmapped (setChecksum (patchSosi stSize val (setChecksum input 0)) 0)
      (negateSum sum))
  simp only [hsum, hsum']
  rfl

-- ============================================================ the program

/-- Every successful run: what comes out is right exactly when what goes
in is framed and balanced, and away from the header's length the latter
says that the input without its checksum adds up to zero. -/
theorem main_right_iff (v : Invocation) (stSize : Nat) (val : BitVec 64)
    (output : Mem) (hfstat : v.fstat = some stSize)
    (hval : v.strtoll = some val) (hlen : headerLen v.input = stSize)
    (hsize : 36 ≤ stSize) (h : main v = .ok output) :
    (Right stSize v.input output
      ↔ Framed stSize val v.input ∧ Balanced stSize v.behind val v.input)
    ∧ ((∀ s, IsFirstSosi (cleared v.input) stSize s → 3 ≤ s) →
      (Balanced stSize v.behind val v.input
        ↔ 256 ∣ ∑ i ∈ (Finset.range stSize).erase checksumOffset,
          (v.input i).toNat)) :=
  ⟨patchTable_right_iff hlen hsize (main_eq hfstat hval h),
    balanced_iff hlen hsize⟩

/-- A table of 36 bytes: its length, its checksum and one more. -/
def plainTable (checksum oemid : Byte) : Mem := fun i =>
  if i = 4 then 36
  else if i = checksumOffset then checksum
  else if i = 10 then oemid
  else 0

/-- A run over a table of 36 bytes that is not the one to patch. -/
def plainRun (input : Mem) : Invocation :=
  ⟨4, some 0, true, true, some 36, 36, true, input, fun _ => none⟩

/-- A run on a plain table without "SOSI". -/
theorem plainRun_ok {input : Mem} (hlen : headerLen input = 36)
    (h : ∀ s, IsFirstSosi (cleared input) 36 s → 3 ≤ s) :
    ∃ output, main (plainRun input) = .ok output := by
  have hsome : (patchTable 36 (fun _ => none) 0#64 input).isSome :=
    patchTable_isSome hlen h
  obtain ⟨output, hpatch⟩ := Option.isSome_iff_exists.1 hsome
  refine ⟨output, ?_⟩
  unfold main plainRun
  simp [hpatch]

/-- A table of 64 bytes with "SOSI" at 40, and an opcode before the place
of the value. Without its checksum, which is 0, it adds up to zero. -/
def sosiTable : Mem := fun i =>
  if i = 4 then 64 else if i = 10 then 116
  else if i < 40 then 0 else (sosi ++ [0x0E]).getD (i - 40) 0

/-- A run over the table that is to be patched. -/
def sosiRun : Invocation :=
  ⟨4, some 0x1122334455667788, true, true, some 64, 64, true, sosiTable,
    fun _ => none⟩

/-- The value is stored behind the opcode, and the output is right. -/
theorem main_right_iff_sosi :
    ∃ output, main sosiRun = .ok output
      ∧ readBytes output 45 8 = bytesOfLongLong 0x1122334455667788
      ∧ Right 64 sosiTable output := by
  have hfirst : ∀ table, (∀ s < 48, readBytes table s 4 = sosi → s = 40) →
      ∀ s, IsFirstSosi table 64 s → s = 40 :=
    fun table hall s hs => hall s hs.1 hs.2.1
  have hcleared : ∀ s, IsFirstSosi (cleared sosiTable) 64 s → s = 40 :=
    hfirst _ (by decide +kernel)
  have hfar : ∀ s, IsFirstSosi (cleared sosiTable) 64 s → 3 ≤ s :=
    fun s hs => (hcleared s hs).symm ▸ by decide
  have hinput : IsFirstSosi sosiTable 64 40 :=
    ⟨by decide, by decide +kernel, by decide +kernel⟩
  have hstored : (patchTable 64 (fun _ => none) 0x1122334455667788#64
      sosiTable).map (fun output => readBytes output 45 8)
      = some (bytesOfLongLong 0x1122334455667788) := by decide +kernel
  obtain ⟨output, hpatch, hread⟩ := Option.map_eq_some_iff.mp hstored
  have hout : main sosiRun = .ok output := by
    unfold main sosiRun
    simp [hpatch]
  have hright := main_right_iff sosiRun 64 0x1122334455667788 output rfl rfl
    (by decide) (by decide) hout
  refine ⟨output, hout, hread, hright.1.2 ⟨?_, ?_⟩⟩
  · intro s hs k hk hnot
    rw [hcleared s hs] at hnot
    exact absurd ⟨40, hinput, by omega, by omega⟩ hnot
  · exact (hright.2 hfar).2 (by decide +kernel)

/-- A table whose bytes add up to zero, with the checksum 220. -/
theorem main_doubles_checksum :
    ¬ ∀ (v : Invocation) (stSize : Nat) (val : BitVec 64) (output : Mem),
      v.fstat = some stSize → v.strtoll = some val →
      headerLen v.input = stSize → 36 ≤ stSize → main v = .ok output →
      Right stSize v.input output := by
  intro h
  have hall : ∀ s < 36 - 16,
      readBytes (cleared (plainTable 220 0)) s 4 ≠ sosi := by decide
  have hfar : ∀ s, IsFirstSosi (cleared (plainTable 220 0)) 36 s → 3 ≤ s :=
    fun s hs => absurd hs.2.1 (hall s hs.1)
  obtain ⟨output, hout⟩ := plainRun_ok (by decide) hfar
  have hright := h (plainRun (plainTable 220 0)) 36 0 output rfl rfl
    (by decide) (by decide) hout
  have hbalanced := ((patchTable_right_iff (by decide) (by decide)
    (main_eq rfl rfl hout)).1 hright).2
  have hdvd := (balanced_iff (by decide) (by decide) hfar).1 hbalanced
  revert hdvd
  decide

end Edk2Exynos.SosiPatcher
