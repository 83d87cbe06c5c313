/-
Crash consistency of a write sequence over several devices that each
keep two copies of one structure.

A run of a program that updates such devices is, seen from the media,
the list of block writes it issued (`Write`). Losing power anywhere in
the run leaves one of the media states of `CrashState`: the replay of a
prefix of the list, or that replay with the next write torn, its range
holding arbitrary bytes.

# The two-copy rule

`SafeJournal` is the discipline that survives every such cut: before
each write both copies of every device are valid, the write stays inside
the region of a single copy, and after the last write both are valid
again. `crash_valid` is the rule the development above uses: under that
discipline no cut loses both copies of a device. The torn write can
destroy only the copy whose region it lies in, and the other copy's
validity does not read that region (`Copies.frame`).

The rule is generic in the device index, the copies and what validity
means; the discipline is closed under concatenation
(`SafeJournal.append`), so a loop proves it one iteration at a time.
-/
import Edk2Exynos.Lib.Bytes

namespace Edk2Exynos.Lib

variable {ι : Type} [DecidableEq ι]

-- ====================================================== media and writes

/-- One write call: the device, the byte address and the bytes. -/
structure Write (ι : Type) where
  dev : ι
  addr : Nat
  data : List Byte

/-- The media after one write. -/
def applyWrite (m : ι → Mem) (w : Write ι) : ι → Mem := fun d =>
  if d = w.dev then writeBytes (m d) w.addr w.data else m d

/-- The media after a list of writes. -/
def replay (m : ι → Mem) (ws : List (Write ι)) : ι → Mem :=
  ws.foldl applyWrite m

theorem replay_append (m : ι → Mem) (ws vs : List (Write ι)) :
    replay m (ws ++ vs) = replay (replay m ws) vs :=
  List.foldl_append

theorem applyWrite_same (m : ι → Mem) (w : Write ι) :
    applyWrite m w w.dev = writeBytes (m w.dev) w.addr w.data :=
  if_pos rfl

theorem applyWrite_other {m : ι → Mem} {w : Write ι} {d : ι}
    (h : d ≠ w.dev) : applyWrite m w d = m d :=
  if_neg h

/-- The media a power cut during the write sequence `ws` can leave. -/
inductive CrashState (m : ι → Mem) (ws : List (Write ι)) :
    (ι → Mem) → Prop
  /-- Between two write calls, before the first or after the last. -/
  | between {pre post : List (Write ι)} :
      ws = pre ++ post → CrashState m ws (replay m pre)
  /-- Inside a write call: its range holds arbitrary bytes. -/
  | torn {pre post : List (Write ι)} {w : Write ι} {junk : List Byte} :
      ws = pre ++ w :: post → junk.length = w.data.length →
      CrashState m ws
        (applyWrite (replay m pre) { w with data := junk })

-- ======================================================== the two copies

/-- Two copies of a structure on every device: where each copy lives and
when it is valid. Validity of a copy reads its own region only, and the
two regions share no address. -/
structure Copies (ι : Type) where
  region : ι → Bool → Nat → Prop
  valid : ι → Bool → Mem → Prop
  frame : ∀ {d : ι} {c : Bool} {m m' : Mem},
    (∀ x, region d c x → m' x = m x) → valid d c m → valid d c m'
  disjoint : ∀ {d : ι} {c : Bool} {x : Nat},
    region d c x → ¬ region d (!c) x

variable (C : Copies ι)

/-- Both copies of every device of `live` are valid. -/
def Copies.BothValid (live : ι → Prop) (m : ι → Mem) : Prop :=
  ∀ d, live d → ∀ c, C.valid d c (m d)

/-- The write stays inside the region of one copy of its device. -/
def Copies.InCopy (w : Write ι) (c : Bool) : Prop :=
  ∀ x, w.addr ≤ x → x < w.addr + w.data.length → C.region w.dev c x

/-- The two-copy discipline of a write sequence. -/
def SafeJournal (live : ι → Prop) : (ι → Mem) → List (Write ι) → Prop
  | m, [] => C.BothValid live m
  | m, w :: ws => C.BothValid live m ∧ (∃ c, C.InCopy w c)
      ∧ SafeJournal live (applyWrite m w) ws

variable {C} {live : ι → Prop}

/-- A safe journal starts from media with both copies valid. -/
theorem SafeJournal.start {m : ι → Mem} {ws : List (Write ι)}
    (h : SafeJournal C live m ws) : C.BothValid live m := by
  cases ws with
  | nil => exact h
  | cons w ws => exact h.1

/-- A safe journal ends in media with both copies valid. -/
theorem SafeJournal.final {m : ι → Mem} {ws : List (Write ι)}
    (h : SafeJournal C live m ws) : C.BothValid live (replay m ws) := by
  induction ws generalizing m with
  | nil => exact h
  | cons w ws ih => exact ih h.2.2

/-- The discipline is closed under concatenation: a loop proves it one
iteration at a time. -/
theorem SafeJournal.append {m : ι → Mem} {ws vs : List (Write ι)}
    (hw : SafeJournal C live m ws)
    (hv : SafeJournal C live (replay m ws) vs) :
    SafeJournal C live m (ws ++ vs) := by
  induction ws generalizing m with
  | nil => exact hv
  | cons w ws ih => exact ⟨hw.1, hw.2.1, ih hw.2.2 hv⟩

/-- One write inside one copy, valid before and after. -/
theorem SafeJournal.single {m : ι → Mem} {w : Write ι} {c : Bool}
    (h : C.BothValid live m) (hin : C.InCopy w c)
    (h' : C.BothValid live (applyWrite m w)) :
    SafeJournal C live m [w] :=
  ⟨h, ⟨c, hin⟩, h'⟩

/-- A write inside one copy of its device, whatever it stores, leaves
the other copy valid, and every other device alone. -/
theorem Copies.valid_of_inCopy {m : ι → Mem} {w : Write ι} {c : Bool}
    (hin : C.InCopy w c) {d : ι} {c' : Bool}
    (hne : d ≠ w.dev ∨ c' = !c) (h : C.valid d c' (m d)) :
    C.valid d c' (applyWrite m w d) := by
  by_cases hd : d = w.dev
  · subst hd
    have hc : c' = !c := hne.resolve_left fun hcon => hcon rfl
    subst hc
    refine C.frame ?_ h
    intro x hx
    rw [applyWrite_same]
    refine writeBytes_outside ?_
    by_contra hcon
    have hreg := hin x (by omega) (by omega)
    exact C.disjoint hreg hx
  · rw [applyWrite_other hd]
    exact h

/-- The two-copy rule: a power cut anywhere in a safe journal leaves at
least one valid copy on every device. -/
theorem crash_valid {m m' : ι → Mem} {ws : List (Write ι)}
    (hs : SafeJournal C live m ws) (hc : CrashState m ws m') {d : ι}
    (hd : live d) : ∃ c, C.valid d c (m' d) := by
  -- both copies are valid at every boundary between two writes
  have hboundary : ∀ (pre post : List (Write ι)) (m : ι → Mem),
      SafeJournal C live m (pre ++ post) →
      SafeJournal C live (replay m pre) post := by
    intro pre
    induction pre with
    | nil => intro post m h; exact h
    | cons w pre ih => intro post m h; exact ih post _ h.2.2
  cases hc with
  | @between pre post hws =>
      subst hws
      exact ⟨true, (hboundary pre post m hs).start d hd true⟩
  | @torn pre post w junk hws hlen =>
      subst hws
      obtain ⟨hboth, ⟨c, hin⟩, -⟩ := hboundary pre (w :: post) m hs
      refine ⟨!c, ?_⟩
      have hin' : C.InCopy { w with data := junk } c := by
        intro x hx hx'
        refine hin x hx ?_
        rw [← hlen]
        exact hx'
      exact Copies.valid_of_inCopy hin' (Or.inr rfl) (hboth d hd (!c))

end Edk2Exynos.Lib
