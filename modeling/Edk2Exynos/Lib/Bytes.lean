/-
Byte-addressed memories and little-endian words: the bottom of every
buffer, block device and descriptor in this development.

A memory is a total function from addresses to bytes. `readBytes` and
`writeBytes` are the only two ways the code above touches one, and the
lemmas here are the frame calculus of that pair: a store is invisible
outside its own range, a load sees exactly the last store that covers
it, and storing back what was loaded changes nothing.

The word accessors are the shift-and-or forms C code writes; the two
round trips (`getLword_putLong`, `putLong_getLword` and their 64-bit
twins) are what lets a proof treat a stored word as a value.
-/
import Mathlib.Data.List.GetD
import Mathlib.Tactic

namespace Edk2Exynos.Lib

/-- A byte of memory. -/
abbrev Byte := BitVec 8

/-- A byte-addressed memory. -/
abbrev Mem := Nat → Byte

-- ======================================================== load and store

/-- The `n` bytes from address `a` on. -/
def readBytes (m : Mem) (a n : Nat) : List Byte :=
  (List.range n).map fun i => m (a + i)

/-- Store the bytes `bs` from address `a` on. -/
def writeBytes (m : Mem) (a : Nat) (bs : List Byte) : Mem := fun x =>
  if a ≤ x ∧ x < a + bs.length then bs.getD (x - a) 0 else m x

@[simp] theorem readBytes_length (m : Mem) (a n : Nat) :
    (readBytes m a n).length = n := by
  simp [readBytes]

@[simp] theorem readBytes_zero (m : Mem) (a : Nat) :
    readBytes m a 0 = [] := rfl

@[simp] theorem readBytes_getElem {m : Mem} {a n i : Nat}
    (h : i < (readBytes m a n).length) :
    (readBytes m a n)[i] = m (a + i) := by
  simp [readBytes]

theorem readBytes_getD {m : Mem} {a n i : Nat} (h : i < n) (d : Byte) :
    (readBytes m a n).getD i d = m (a + i) := by
  rw [List.getD_eq_getElem _ _ (by simpa using h), readBytes_getElem]

/-- A load only depends on the range it covers. -/
theorem readBytes_congr {m m' : Mem} {a b n : Nat}
    (h : ∀ i, i < n → m (a + i) = m' (b + i)) :
    readBytes m a n = readBytes m' b n := by
  unfold readBytes
  refine List.map_congr_left fun i hi => ?_
  exact h i (List.mem_range.mp hi)

/-- Equal loads agree byte by byte. -/
theorem eq_of_readBytes_eq {m m' : Mem} {a b n i : Nat}
    (h : readBytes m a n = readBytes m' b n) (hi : i < n) :
    m (a + i) = m' (b + i) := by
  have hm := readBytes_getD (m := m) (a := a) hi 0
  rw [h, readBytes_getD hi] at hm
  exact hm.symm

theorem readBytes_add (m : Mem) (a n k : Nat) :
    readBytes m a (n + k) = readBytes m a n ++ readBytes m (a + n) k := by
  apply List.ext_getElem (by simp)
  intro i hi _
  rw [readBytes_getElem]
  by_cases h : i < n
  · rw [List.getElem_append_left (by simpa using h), readBytes_getElem]
  · rw [List.getElem_append_right (by simpa using h), readBytes_getElem,
      readBytes_length]
    congr 1
    omega

/-- A load, around one of its bytes. -/
theorem readBytes_around (m : Mem) (a : Nat) {n k : Nat} (hk : k < n) :
    readBytes m a n = readBytes m a k
      ++ m (a + k) :: readBytes m (a + k + 1) (n - k - 1) := by
  have hone : readBytes m (a + k) 1 = [m (a + k)] := rfl
  have hn : n = k + (1 + (n - k - 1)) := by omega
  conv_lhs => rw [hn, readBytes_add, readBytes_add, hone]
  rfl

/-- A store is invisible outside its own range. -/
theorem writeBytes_outside {m : Mem} {a x : Nat} {bs : List Byte}
    (h : x < a ∨ a + bs.length ≤ x) : writeBytes m a bs x = m x := by
  unfold writeBytes
  rw [if_neg (by omega)]

/-- Inside its range a store shows its own bytes. -/
theorem writeBytes_inside {m : Mem} {a i : Nat} {bs : List Byte}
    (h : i < bs.length) : writeBytes m a bs (a + i) = bs[i] := by
  unfold writeBytes
  rw [if_pos (by omega), Nat.add_sub_cancel_left,
    List.getD_eq_getElem _ _ h]

/-- A load away from a store does not see it. -/
theorem readBytes_writeBytes_disjoint {m : Mem} {a b n : Nat}
    {bs : List Byte} (h : b + n ≤ a ∨ a + bs.length ≤ b) :
    readBytes (writeBytes m a bs) b n = readBytes m b n :=
  readBytes_congr fun i hi => writeBytes_outside (by omega)

/-- A load of the stored range returns the stored bytes. -/
theorem readBytes_writeBytes_same {m : Mem} {a n : Nat} {bs : List Byte}
    (hn : bs.length = n) : readBytes (writeBytes m a bs) a n = bs := by
  subst hn
  apply List.ext_getElem (by simp)
  intro i hi hi'
  rw [readBytes_getElem, writeBytes_inside hi']

/-- A load that starts with the stored range continues with the memory. -/
theorem readBytes_writeBytes_head {m : Mem} {a n : Nat} {bs : List Byte}
    (h : bs.length ≤ n) : readBytes (writeBytes m a bs) a n
      = bs ++ (readBytes m a n).drop bs.length := by
  obtain ⟨k, rfl⟩ := Nat.exists_eq_add_of_le h
  have hrest : (readBytes m a (bs.length + k)).drop bs.length
      = readBytes m (a + bs.length) k := by
    rw [readBytes_add]
    exact List.drop_left' (readBytes_length m a bs.length)
  rw [hrest, readBytes_add, readBytes_writeBytes_same rfl,
    readBytes_writeBytes_disjoint (Or.inr (Nat.le_refl _))]

/-- A load inside the stored range returns that part of the bytes. -/
theorem readBytes_writeBytes_inside {m : Mem} {a k n : Nat}
    {bs : List Byte} (h : k + n ≤ bs.length) :
    readBytes (writeBytes m a bs) (a + k) n = (bs.drop k).take n := by
  apply List.ext_getElem
  · rw [readBytes_length, List.length_take, List.length_drop]
    omega
  · intro i hi hi'
    rw [readBytes_length] at hi
    rw [readBytes_getElem, Nat.add_assoc, writeBytes_inside (by omega),
      List.getElem_take, List.getElem_drop]

/-- A store of the empty list is no store. -/
@[simp] theorem writeBytes_nil (m : Mem) (a : Nat) :
    writeBytes m a [] = m := by
  funext x
  exact writeBytes_outside (by simp; omega)

/-- The later of two stores to one range wins. -/
theorem writeBytes_writeBytes_same {m : Mem} {a : Nat}
    {bs cs : List Byte} (h : bs.length = cs.length) :
    writeBytes (writeBytes m a bs) a cs = writeBytes m a cs := by
  funext x
  by_cases hx : a ≤ x ∧ x < a + cs.length
  · obtain ⟨i, rfl⟩ := Nat.exists_eq_add_of_le hx.1
    have hi : i < cs.length := by omega
    rw [writeBytes_inside hi, writeBytes_inside hi]
  · rw [writeBytes_outside (by omega), writeBytes_outside (by omega),
      writeBytes_outside (by omega)]

/-- A store behind another makes one store of both. -/
theorem writeBytes_append (m : Mem) (a : Nat) (bs cs : List Byte) :
    writeBytes (writeBytes m a bs) (a + bs.length) cs
      = writeBytes m a (bs ++ cs) := by
  funext x
  by_cases hcs : a + bs.length ≤ x ∧ x < a + bs.length + cs.length
  · obtain ⟨i, rfl⟩ := Nat.exists_eq_add_of_le hcs.1
    rw [writeBytes_inside (by omega), Nat.add_assoc,
      writeBytes_inside (by rw [List.length_append]; omega),
      List.getElem_append_right (by omega)]
    simp
  · rw [writeBytes_outside (by omega)]
    by_cases hbs : a ≤ x ∧ x < a + bs.length
    · obtain ⟨i, rfl⟩ := Nat.exists_eq_add_of_le hbs.1
      rw [writeBytes_inside (by omega),
        writeBytes_inside (by rw [List.length_append]; omega),
        List.getElem_append_left (by omega)]
    · rw [writeBytes_outside (by omega), writeBytes_outside]
      rw [List.length_append]
      omega

/-- A store looks the same in a memory and in a shifted view of it. -/
theorem writeBytes_shift {m m' : Mem} {a b n i : Nat} (k : Nat)
    (bs : List Byte) (h : ∀ i, i < n → m (a + i) = m' (b + i))
    (hi : i < n) :
    writeBytes m (a + k) bs (a + i) = writeBytes m' (b + k) bs (b + i) := by
  unfold writeBytes
  by_cases hk : k ≤ i ∧ i < k + bs.length
  · rw [if_pos (by omega), if_pos (by omega),
      show a + i - (a + k) = b + i - (b + k) by omega]
  · rw [if_neg (by omega), if_neg (by omega)]
    exact h i hi

-- ============================================================= the frame

/-- The two memories differ at addresses of `P` only. -/
def AgreeOutside (P : Nat → Prop) (m m' : Mem) : Prop :=
  ∀ x, ¬ P x → m' x = m x

theorem AgreeOutside.refl (P : Nat → Prop) (m : Mem) :
    AgreeOutside P m m := fun _ _ => rfl

theorem AgreeOutside.trans {P : Nat → Prop} {m m' m'' : Mem}
    (h : AgreeOutside P m m') (h' : AgreeOutside P m' m'') :
    AgreeOutside P m m'' := fun x hx => (h' x hx).trans (h x hx)

theorem AgreeOutside.mono {P Q : Nat → Prop} {m m' : Mem}
    (h : AgreeOutside P m m') (hPQ : ∀ x, P x → Q x) :
    AgreeOutside Q m m' := fun x hx => h x fun hp => hx (hPQ x hp)

/-- A store inside `P` is invisible outside it. -/
theorem AgreeOutside.write {P : Nat → Prop} {m m' : Mem} {a : Nat}
    {bs : List Byte} (h : AgreeOutside P m m')
    (hP : ∀ x, a ≤ x → x < a + bs.length → P x) :
    AgreeOutside P m (writeBytes m' a bs) := by
  intro x hx
  rw [writeBytes_outside, h x hx]
  by_contra hcon
  exact hx (hP x (by omega) (by omega))

/-- A store keeps to `P`, whatever the memory, exactly when every address
it covers is in `P`. -/
theorem agreeOutside_write_iff {P : Nat → Prop} {a : Nat}
    {bs : List Byte} :
    (∀ m, AgreeOutside P m (writeBytes m a bs))
      ↔ ∀ k < bs.length, P (a + k) := by
  constructor
  · intro h k hk
    by_contra hcon
    -- a memory that does not hold the byte that is stored there
    have hkeep := h (fun _ => bs[k] + 1) (a + k) hcon
    rw [writeBytes_inside hk] at hkeep
    have hnat : bs[k].toNat = (bs[k].toNat + 1) % 2 ^ 8 :=
      (congrArg BitVec.toNat hkeep).trans (BitVec.toNat_add _ _)
    omega
  · intro h m
    apply (AgreeOutside.refl P m).write
    intro x hle hlt
    have hx := h (x - a) (by omega)
    rwa [Nat.add_sub_cancel' hle] at hx

/-- A load of a range without an address of `P` is framed. -/
theorem AgreeOutside.readBytes {P : Nat → Prop} {m m' : Mem} {a n : Nat}
    (h : AgreeOutside P m m') (hP : ∀ i, i < n → ¬ P (a + i)) :
    readBytes m' a n = readBytes m a n :=
  readBytes_congr fun i hi => h (a + i) (hP i hi)

-- =================================================== little-endian words

/-- Four bytes as a little-endian 32-bit word. -/
def lword (b0 b1 b2 b3 : Byte) : BitVec 32 :=
  b0.setWidth 32 ||| (b1.setWidth 32 <<< 8) ||| (b2.setWidth 32 <<< 16)
    ||| (b3.setWidth 32 <<< 24)

/-- Eight bytes as a little-endian 64-bit word. -/
def llword (b0 b1 b2 b3 b4 b5 b6 b7 : Byte) : BitVec 64 :=
  b0.setWidth 64 ||| (b1.setWidth 64 <<< 8) ||| (b2.setWidth 64 <<< 16)
    ||| (b3.setWidth 64 <<< 24) ||| (b4.setWidth 64 <<< 32)
    ||| (b5.setWidth 64 <<< 40) ||| (b6.setWidth 64 <<< 48)
    ||| (b7.setWidth 64 <<< 56)

/-- The `k`-th byte of a word. -/
def byteOf {w : Nat} (y : BitVec w) (k : Nat) : Byte :=
  (y >>> (8 * k)).setWidth 8

/-- The four bytes of a 32-bit word, lowest first. -/
def bytesOfLong (y : BitVec 32) : List Byte :=
  [byteOf y 0, byteOf y 1, byteOf y 2, byteOf y 3]

/-- The eight bytes of a 64-bit word, lowest first. -/
def bytesOfLongLong (y : BitVec 64) : List Byte :=
  [byteOf y 0, byteOf y 1, byteOf y 2, byteOf y 3,
    byteOf y 4, byteOf y 5, byteOf y 6, byteOf y 7]

@[simp] theorem bytesOfLong_length (y : BitVec 32) :
    (bytesOfLong y).length = 4 := rfl

@[simp] theorem bytesOfLongLong_length (y : BitVec 64) :
    (bytesOfLongLong y).length = 8 := rfl

/-- The test `x & 1`. -/
theorem and_one_ne_zero_iff (x : BitVec 32) :
    x &&& 1 ≠ 0 ↔ x.getLsbD 0 = true := by
  have hand := BitVec.and_one_eq_setWidth_ofBool_getLsbD (x := x)
  constructor
  · intro hne
    by_contra hclear
    rw [Bool.not_eq_true] at hclear
    rw [hclear] at hand
    exact hne hand
  · intro hset hzero
    rw [hset] at hand
    exact absurd (hzero.symm.trans hand) (by decide)

theorem byteOf_getLsbD {w : Nat} (y : BitVec w) (k i : Nat) :
    (byteOf y k).getLsbD i = (decide (i < 8) && y.getLsbD (8 * k + i)) := by
  unfold byteOf
  rw [BitVec.getLsbD_setWidth, BitVec.getLsbD_ushiftRight]

/-- The bytes of a word make up the word. -/
theorem eq_of_byteOf {w : Nat} {x y : BitVec w}
    (h : ∀ k, 8 * k < w → byteOf x k = byteOf y k) : x = y := by
  apply BitVec.eq_of_getLsbD_eq
  intro i hi
  have hlt : i % 8 < 8 := Nat.mod_lt i (by decide)
  have hbit := congrArg (fun b => b.getLsbD (i % 8)) (h (i / 8) (by omega))
  simp only [byteOf_getLsbD] at hbit
  rwa [decide_eq_true hlt, Bool.true_and, Bool.true_and,
    Nat.div_add_mod] at hbit

theorem byteOf_or {w : Nat} (x y : BitVec w) (k : Nat) :
    byteOf (x ||| y) k = byteOf x k ||| byteOf y k := by
  unfold byteOf
  rw [BitVec.ushiftRight_or_distrib, BitVec.setWidth_or]

/-- A byte placed in a word is one of its bytes, and the others are
zero. -/
theorem byteOf_shiftLeft {w n k : Nat} (b : Byte) (hn : 8 ∣ n)
    (hk : 8 * k + 8 ≤ w) :
    byteOf (b.setWidth w <<< n) k = if n = 8 * k then b else 0 := by
  apply BitVec.eq_of_getLsbD_eq
  intro i hi
  have hw : 8 * k + i < w := by omega
  rw [byteOf_getLsbD, BitVec.getLsbD_shiftLeft, BitVec.getLsbD_setWidth,
    decide_eq_true hi, decide_eq_true hw]
  split
  next heq =>
    have hle : ¬ 8 * k + i < 8 * k := by omega
    have hbit : i < w := by omega
    rw [heq, Nat.add_sub_cancel_left, decide_eq_false hle,
      decide_eq_true hbit]
    rfl
  next hne =>
    -- the bit lies below the byte or above it
    by_cases hlt : 8 * k + i < n
    · rw [decide_eq_true hlt]
      simp
    · rw [BitVec.getLsbD_of_ge b (8 * k + i - n) (by omega)]
      simp

theorem byteOf_setWidth {w k : Nat} (b : Byte) (hk : 8 * k + 8 ≤ w) :
    byteOf (b.setWidth w) k = if 0 = 8 * k then b else 0 := by
  rw [← byteOf_shiftLeft b (Nat.dvd_zero 8) hk, BitVec.shiftLeft_zero]

theorem bytesOfLong_lword (a b c d : Byte) :
    bytesOfLong (lword a b c d) = [a, b, c, d] := by
  simp (disch := decide) [bytesOfLong, lword, byteOf_or, byteOf_shiftLeft,
    byteOf_setWidth]

theorem bytesOfLongLong_llword (a b c d e f g h : Byte) :
    bytesOfLongLong (llword a b c d e f g h) = [a, b, c, d, e, f, g, h] := by
  simp (disch := decide) [bytesOfLongLong, llword, byteOf_or,
    byteOf_shiftLeft, byteOf_setWidth]

/-- A word is told by its bytes. -/
theorem bytesOfLong_inj {x y : BitVec 32}
    (h : bytesOfLong x = bytesOfLong y) : x = y := by
  simp only [bytesOfLong, List.cons.injEq, and_true] at h
  obtain ⟨h0, h1, h2, h3⟩ := h
  refine eq_of_byteOf fun k hk => ?_
  have hlt : k < 4 := by omega
  interval_cases k <;> assumption

theorem bytesOfLongLong_inj {x y : BitVec 64}
    (h : bytesOfLongLong x = bytesOfLongLong y) : x = y := by
  simp only [bytesOfLongLong, List.cons.injEq, and_true] at h
  obtain ⟨h0, h1, h2, h3, h4, h5, h6, h7⟩ := h
  refine eq_of_byteOf fun k hk => ?_
  have hlt : k < 8 := by omega
  interval_cases k <;> assumption

theorem lword_byteOf (y : BitVec 32) :
    lword (byteOf y 0) (byteOf y 1) (byteOf y 2) (byteOf y 3) = y :=
  bytesOfLong_inj (bytesOfLong_lword _ _ _ _)

theorem llword_byteOf (y : BitVec 64) :
    llword (byteOf y 0) (byteOf y 1) (byteOf y 2) (byteOf y 3)
      (byteOf y 4) (byteOf y 5) (byteOf y 6) (byteOf y 7) = y :=
  bytesOfLongLong_inj (bytesOfLongLong_llword _ _ _ _ _ _ _ _)

/-- The 32-bit word stored at `a`. -/
def getLword (m : Mem) (a : Nat) : BitVec 32 :=
  lword (m a) (m (a + 1)) (m (a + 2)) (m (a + 3))

/-- The 64-bit word stored at `a`. -/
def getLlword (m : Mem) (a : Nat) : BitVec 64 :=
  llword (m a) (m (a + 1)) (m (a + 2)) (m (a + 3))
    (m (a + 4)) (m (a + 5)) (m (a + 6)) (m (a + 7))

/-- Store a 32-bit word at `a`. -/
def putLong (m : Mem) (a : Nat) (y : BitVec 32) : Mem :=
  writeBytes m a (bytesOfLong y)

/-- Store a 64-bit word at `a`. -/
def putLongLong (m : Mem) (a : Nat) (y : BitVec 64) : Mem :=
  writeBytes m a (bytesOfLongLong y)

theorem readBytes_four (m : Mem) (a : Nat) :
    readBytes m a 4 = [m a, m (a + 1), m (a + 2), m (a + 3)] := rfl

theorem readBytes_eight (m : Mem) (a : Nat) :
    readBytes m a 8 = [m a, m (a + 1), m (a + 2), m (a + 3),
      m (a + 4), m (a + 5), m (a + 6), m (a + 7)] := rfl

/-- The stored word read back as bytes. -/
theorem bytesOfLong_getLword (m : Mem) (a : Nat) :
    bytesOfLong (getLword m a) = readBytes m a 4 := by
  rw [getLword, bytesOfLong_lword, readBytes_four]

/-- The stored word read back as bytes. -/
theorem bytesOfLongLong_getLlword (m : Mem) (a : Nat) :
    bytesOfLongLong (getLlword m a) = readBytes m a 8 := by
  rw [getLlword, bytesOfLongLong_llword, readBytes_eight]

/-- A word load only depends on the four bytes it covers. -/
theorem getLword_congr {m m' : Mem} {a b : Nat}
    (h : readBytes m a 4 = readBytes m' b 4) :
    getLword m a = getLword m' b := by
  simp only [readBytes_four, List.cons.injEq, and_true] at h
  obtain ⟨h0, h1, h2, h3⟩ := h
  rw [getLword, getLword, h0, h1, h2, h3]

theorem getLlword_congr {m m' : Mem} {a b : Nat}
    (h : readBytes m a 8 = readBytes m' b 8) :
    getLlword m a = getLlword m' b := by
  simp only [readBytes_eight, List.cons.injEq, and_true] at h
  obtain ⟨h0, h1, h2, h3, h4, h5, h6, h7⟩ := h
  rw [getLlword, getLlword, h0, h1, h2, h3, h4, h5, h6, h7]

theorem getLword_of_readBytes {m : Mem} {a : Nat} {y : BitVec 32}
    (h : readBytes m a 4 = bytesOfLong y) : getLword m a = y := by
  simp only [readBytes_four, bytesOfLong, List.cons.injEq, and_true] at h
  obtain ⟨h0, h1, h2, h3⟩ := h
  rw [getLword, h0, h1, h2, h3, lword_byteOf]

theorem getLlword_of_readBytes {m : Mem} {a : Nat} {y : BitVec 64}
    (h : readBytes m a 8 = bytesOfLongLong y) : getLlword m a = y := by
  simp only [readBytes_eight, bytesOfLongLong, List.cons.injEq,
    and_true] at h
  obtain ⟨h0, h1, h2, h3, h4, h5, h6, h7⟩ := h
  rw [getLlword, h0, h1, h2, h3, h4, h5, h6, h7, llword_byteOf]

theorem getLword_putLong (m : Mem) (a : Nat) (y : BitVec 32) :
    getLword (putLong m a y) a = y :=
  getLword_of_readBytes (readBytes_writeBytes_same rfl)

theorem getLlword_putLongLong (m : Mem) (a : Nat) (y : BitVec 64) :
    getLlword (putLongLong m a y) a = y :=
  getLlword_of_readBytes (readBytes_writeBytes_same rfl)

theorem putLong_putLong_same (m : Mem) (a : Nat) (y z : BitVec 32) :
    putLong (putLong m a y) a z = putLong m a z :=
  writeBytes_writeBytes_same rfl

theorem readBytes_putLong_disjoint {m : Mem} {a b n : Nat}
    {y : BitVec 32} (h : b + n ≤ a ∨ a + 4 ≤ b) :
    readBytes (putLong m a y) b n = readBytes m b n :=
  readBytes_writeBytes_disjoint (by simpa using h)

theorem getLword_putLong_disjoint {m : Mem} {a b : Nat} {y : BitVec 32}
    (h : b + 4 ≤ a ∨ a + 4 ≤ b) :
    getLword (putLong m a y) b = getLword m b :=
  getLword_congr (readBytes_putLong_disjoint h)

theorem putLongLong_outside {m : Mem} {a x : Nat} {y : BitVec 64}
    (h : x < a ∨ a + 8 ≤ x) : putLongLong m a y x = m x :=
  writeBytes_outside (by simpa using h)

end Edk2Exynos.Lib
