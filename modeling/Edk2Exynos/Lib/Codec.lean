/-
Fixed-width records: writing a value as bytes and reading it back.

A `Codec` carries the law of its own round trip: what it writes for a
valid value it reads back, in front of any bytes, and leaves those bytes
over. Little-endian words, byte strings padded with zeros and raw fields
are the leaves; pairs, arrays and a change of representation keep the
law, so that the codec of a header is put together from its fields and
needs no proof of its own.

A value that does not fit its field is not valid; `field` is what a
writer that cuts and pads stores for it.
-/
import Edk2Exynos.Lib.Bytes

namespace Edk2Exynos.Lib

-- =================================================== little-endian words

/-- The `n` low bytes of `v`, lowest first. -/
def leBytes : Nat → Nat → List Byte
  | 0, _ => []
  | n + 1, v => BitVec.ofNat 8 v :: leBytes n (v / 256)

/-- The number that bytes spell, lowest first. -/
def leNat : List Byte → Nat
  | [] => 0
  | b :: bs => b.toNat + 256 * leNat bs

@[simp] theorem leBytes_length (n v : Nat) : (leBytes n v).length = n := by
  induction n generalizing v with
  | zero => rfl
  | succ n ih => rw [leBytes, List.length_cons, ih]

/-- A number that fits is read back from its bytes. -/
theorem leNat_leBytes {n v : Nat} (h : v < 256 ^ n) :
    leNat (leBytes n v) = v := by
  induction n generalizing v with
  | zero =>
    rw [pow_zero] at h
    exact (Nat.lt_one_iff.mp h).symm
  | succ n ih =>
    have hrest : v / 256 < 256 ^ n :=
      Nat.div_lt_of_lt_mul (by rwa [pow_succ, Nat.mul_comm] at h)
    rw [leBytes, leNat, ih hrest, BitVec.toNat_ofNat]
    exact Nat.mod_add_div v 256

-- ========================================================= padded strings

/-- `s` cut or filled with zeros to `n` bytes. -/
def field (n : Nat) (s : List Byte) : List Byte :=
  s.take n ++ List.replicate (n - s.length) 0

/-- The string before the first zero. -/
def cString (bs : List Byte) : List Byte :=
  bs.takeWhile (· ≠ 0)

@[simp] theorem field_length (n : Nat) (s : List Byte) :
    (field n s).length = n := by
  rw [field, List.length_append, List.length_take, List.length_replicate]
  omega

/-- The zeros a string ends in make no difference to its field. -/
theorem field_append_zeros (n k : Nat) (s : List Byte) :
    field n (s ++ List.replicate k 0) = field n s := by
  apply List.ext_getElem (by rw [field_length, field_length])
  intro i hi _
  rw [field_length] at hi
  simp only [field, List.getElem_append, List.getElem_take,
    List.getElem_replicate, List.length_take, List.length_append,
    List.length_replicate]
  split
  next h =>
    split
    next h' => rw [dif_pos (by omega)]
    next h' => rw [dif_neg (by omega)]
  next h => rw [dif_neg (by omega)]

/-- Zeros behind a string end it. -/
theorem cString_append_zeros {s : List Byte} (h : 0 ∉ s) (k : Nat) :
    cString (s ++ List.replicate k 0) = s := by
  have hall : ∀ b ∈ s, decide (b ≠ 0) = true := fun b hb =>
    decide_eq_true fun hzero => h (hzero ▸ hb)
  rw [cString, List.takeWhile_append_of_pos hall]
  cases k with
  | zero => exact List.append_nil s
  | succ k =>
    rw [List.replicate_succ, List.takeWhile_cons_of_neg (by decide)]
    exact List.append_nil s

/-- A text without a zero byte is read back from its field. -/
theorem cString_field {n : Nat} {s : List Byte} (hs : 0 ∉ s)
    (hn : s.length ≤ n) : cString (field n s) = s := by
  rw [field, List.take_of_length_le hn]
  exact cString_append_zeros hs _

-- ============================================================== the codec

/-- A writer and a prefix reader that agree on the values that fit. -/
structure Codec (α : Type) where
  width : Nat
  Valid : α → Prop
  write : α → List Byte
  read : List Byte → Option (α × List Byte)
  length_write : ∀ {a}, Valid a → (write a).length = width
  read_write : ∀ {a} (rest : List Byte), Valid a →
    read (write a ++ rest) = some (a, rest)

namespace Codec

variable {α β : Type}

/-- A little-endian word of `n` bytes. -/
def word (n : Nat) : Codec Nat where
  width := n
  Valid v := v < 256 ^ n
  write v := leBytes n v
  read bs := if n ≤ bs.length then some (leNat (bs.take n), bs.drop n)
    else none
  length_write _ := leBytes_length n _
  read_write := by
    intro v rest hv
    rw [if_pos (by simp), List.take_left' (leBytes_length n v),
      List.drop_left' (leBytes_length n v), leNat_leBytes hv]

/-- A string in a field of `n` bytes, filled with zeros. -/
def text (n : Nat) : Codec (List Byte) where
  width := n
  Valid s := 0 ∉ s ∧ s.length ≤ n
  write s := field n s
  read bs := if n ≤ bs.length then some (cString (bs.take n), bs.drop n)
    else none
  length_write _ := field_length n _
  read_write := by
    intro s rest hs
    rw [if_pos (by simp), List.take_left' (field_length n s),
      List.drop_left' (field_length n s), cString_field hs.1 hs.2]

/-- `n` bytes as they are. -/
def raw (n : Nat) : Codec (List Byte) where
  width := n
  Valid s := s.length = n
  write s := s
  read bs := if n ≤ bs.length then some (bs.take n, bs.drop n) else none
  length_write h := h
  read_write := by
    intro s rest hs
    rw [if_pos (by simp [hs]), List.take_left' hs, List.drop_left' hs]

/-- One record behind another. -/
def pair (c : Codec α) (d : Codec β) : Codec (α × β) where
  width := c.width + d.width
  Valid p := c.Valid p.1 ∧ d.Valid p.2
  write p := c.write p.1 ++ d.write p.2
  read bs := do
    let (a, bs) ← c.read bs
    let (b, bs) ← d.read bs
    return ((a, b), bs)
  length_write := by
    intro p hp
    rw [List.length_append, c.length_write hp.1, d.length_write hp.2]
  read_write := by
    intro p rest hp
    rw [List.append_assoc, c.read_write _ hp.1]
    simp only [Option.bind_eq_bind, Option.bind_some, d.read_write _ hp.2]
    rfl

/-- The same bytes for another type. -/
def imap (c : Codec α) (f : α → β) (g : β → α) (hfg : ∀ b, f (g b) = b) :
    Codec β where
  width := c.width
  Valid b := c.Valid (g b)
  write b := c.write (g b)
  read bs := (c.read bs).map fun p => (f p.1, p.2)
  length_write h := c.length_write h
  read_write := by
    intro b rest hb
    rw [c.read_write _ hb, Option.map_some, hfg]

/-- Read `n` records. -/
def readArray (c : Codec α) : Nat → List Byte → Option (List α × List Byte)
  | 0, bs => some ([], bs)
  | n + 1, bs => do
      let (a, bs) ← c.read bs
      let (as, bs) ← c.readArray n bs
      return (a :: as, bs)

/-- Records take their width each. -/
theorem length_flatMap_write (c : Codec α) {as : List α}
    (h : ∀ a ∈ as, c.Valid a) :
    (as.flatMap c.write).length = as.length * c.width := by
  induction as with
  | nil => simp
  | cons a as ih =>
    rw [List.flatMap_cons, List.length_append,
      c.length_write (h a List.mem_cons_self),
      ih fun b hb => h b (List.mem_cons_of_mem a hb), List.length_cons]
    ring

/-- Records written in a row are read back, and what follows is left. -/
theorem readArray_flatMap_write (c : Codec α) {as : List α}
    (h : ∀ a ∈ as, c.Valid a) (rest : List Byte) :
    c.readArray as.length (as.flatMap c.write ++ rest)
      = some (as, rest) := by
  induction as with
  | nil => rfl
  | cons a as ih =>
    rw [List.flatMap_cons, List.append_assoc, List.length_cons, readArray,
      c.read_write _ (h a List.mem_cons_self)]
    simp only [Option.bind_eq_bind, Option.bind_some,
      ih fun b hb => h b (List.mem_cons_of_mem a hb)]
    rfl

/-- `n` records in a row. -/
def array (n : Nat) (c : Codec α) : Codec (List α) where
  width := n * c.width
  Valid as := as.length = n ∧ ∀ a ∈ as, c.Valid a
  write as := as.flatMap c.write
  read bs := c.readArray n bs
  length_write := by
    intro as has
    rw [c.length_flatMap_write has.2, has.1]
  read_write := by
    intro as rest has
    rw [← has.1]
    exact c.readArray_flatMap_write has.2 rest

@[simp] theorem word_write (n v : Nat) : (word n).write v = leBytes n v :=
  rfl

@[simp] theorem text_write (n : Nat) (s : List Byte) :
    (text n).write s = field n s := rfl

@[simp] theorem raw_write (n : Nat) (s : List Byte) :
    (raw n).write s = s := rfl

@[simp] theorem pair_write (c : Codec α) (d : Codec β) (p : α × β) :
    (c.pair d).write p = c.write p.1 ++ d.write p.2 := rfl

@[simp] theorem imap_write (c : Codec α) (f : α → β) (g : β → α)
    (hfg : ∀ b, f (g b) = b) (b : β) :
    (c.imap f g hfg).write b = c.write (g b) := rfl

@[simp] theorem array_write (n : Nat) (c : Codec α) (as : List α) :
    (array n c).write as = as.flatMap c.write := rfl

end Codec

end Edk2Exynos.Lib
