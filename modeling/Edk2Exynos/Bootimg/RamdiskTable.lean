/-
The vendor ramdisk table while it is built (mkbootimg.py,
`VendorRamdiskTableBuilder`): what every accepted sequence of ramdisk
groups leaves in it.

`VendorRamdiskTableBuilder.Wf` is the invariant: the entries lie one
behind the other without a gap, the total is the sum of their sizes, and
their names, without trailing zeros, are pairwise different and not
reserved. `addEntry_wf` is the step; a run of groups is the fold of
`parse_vendor_ramdisk_args` (`parseVendorRamdiskArgs_wf`).
-/
import Edk2Exynos.Bootimg.VendorBoot

namespace Edk2Exynos.Bootimg

open Lib

-- ============================================================= the layout

/-- The entries lie one behind the other from `o` on. -/
def Laid : Nat → List VendorRamdiskTableEntry → Prop
  | _, [] => True
  | o, e :: es =>
      e.ramdiskOffset = o ∧ e.ramdiskSize = e.ramdisk.length
        ∧ Laid (o + e.ramdisk.length) es

/-- All ramdisks of a table, one behind the other. -/
def ramdiskSection (es : List VendorRamdiskTableEntry) : List Byte :=
  es.flatMap fun e => e.ramdisk

/-- An entry behind a table begins where the table ends. -/
theorem Laid.concat {o : Nat} {es : List VendorRamdiskTableEntry}
    {e : VendorRamdiskTableEntry} (h : Laid o es)
    (hoffset : e.ramdiskOffset = (o + (ramdiskSection es).length : Nat))
    (hsize : e.ramdiskSize = e.ramdisk.length) : Laid o (es ++ [e]) := by
  induction es generalizing o with
  | nil => exact ⟨hoffset, hsize, trivial⟩
  | cons e' es ih =>
    refine ⟨h.1, h.2.1, ih h.2.2 ?_⟩
    rw [hoffset, ramdiskSection, List.flatMap_cons, List.length_append,
      Nat.add_assoc]
    rfl

/-- One entry more puts its ramdisk at the end of the section. -/
theorem ramdiskSection_concat (es : List VendorRamdiskTableEntry)
    (e : VendorRamdiskTableEntry) :
    ramdiskSection (es ++ [e]) = ramdiskSection es ++ e.ramdisk := by
  simp [ramdiskSection]

-- ================================================================== names

/-- A ramdisk name as it is stored: a string with zeros behind it. -/
def NameText (name : List Byte) : Prop :=
  (Codec.text 32).Valid (stripName name)
    ∧ field 32 name = field 32 (stripName name)

/-- The zeros behind a name are stripped. -/
theorem stripName_append_zeros {s : List Byte} (hs : 0 ∉ s) (k : Nat) :
    stripName (s ++ List.replicate k 0) = s := by
  unfold stripName
  induction k with
  | zero =>
    rw [List.replicate_zero, List.append_nil]
    refine List.rdropWhile_eq_self_iff.mpr fun hne hzero => ?_
    have hlast : s.getLast hne = 0 := of_decide_eq_true hzero
    exact hs (hlast ▸ List.getLast_mem hne)
  | succ k ih =>
    rw [List.replicate_succ', ← List.append_assoc,
      List.rdropWhile_concat_pos _ _ _ rfl, ih]

/-- A name of at most 32 bytes is a name's text with its zeros. -/
theorem nameText_append_zeros {s : List Byte} (hs : 0 ∉ s)
    (hlen : s.length ≤ 32) (k : Nat) :
    NameText (s ++ List.replicate k 0) := by
  unfold NameText
  rw [stripName_append_zeros hs]
  exact ⟨⟨hs, hlen⟩, field_append_zeros 32 k s⟩

-- ============================================================ the builder

/-- What holds of the table however it was built. -/
structure VendorRamdiskTableBuilder.Wf
    (b : VendorRamdiskTableBuilder) : Prop where
  laid : Laid 0 b.entries
  total : b.ramdiskTotalSize = (ramdiskSection b.entries).length
  names : b.ramdiskNames
    = (b.entries.map fun e => stripName e.ramdiskName).reverse
  nodup : b.ramdiskNames.Nodup
  allowed : ∀ n ∈ b.ramdiskNames, n ∉ vendorRamdiskNameBlocklist
  text : ∀ e ∈ b.entries, NameText e.ramdiskName
  boardId : ∀ e ∈ b.entries, (Codec.array 16 word32).Valid e.boardId

/-- The builder starts well formed. -/
theorem VendorRamdiskTableBuilder.init_wf :
    VendorRamdiskTableBuilder.init.Wf where
  laid := trivial
  total := rfl
  names := rfl
  nodup := List.nodup_nil
  allowed := fun _ hn => absurd hn List.not_mem_nil
  text := fun _ he => absurd he List.not_mem_nil
  boardId := fun _ he => absurd he List.not_mem_nil

/-- The board id is taken when each number fits in a word. -/
theorem arrayI_eq_ok {xs : List Int} {ys : List Nat} :
    arrayI xs = .ok ys ↔ (∀ x ∈ xs, Fits 4 x) ∧ ys = xs.map Int.toNat := by
  unfold arrayI
  split
  next h =>
    constructor
    · intro heq
      cases heq
      exact ⟨h, rfl⟩
    · rintro ⟨-, rfl⟩
      rfl
  next h =>
    constructor
    · intro heq
      cases heq
    · rintro ⟨hcon, -⟩
      exact absurd hcon h

/-- An entry that was added: the checks it passed, and what it added. -/
theorem addEntry_eq_ok {b b' : VendorRamdiskTableBuilder}
    {path name : List Byte} {type : Int} {boardId : Option (List Int)}
    (h : b.addEntry path type name boardId = .ok b') :
    ∃ ids, stripName name ∉ vendorRamdiskNameBlocklist
      ∧ stripName name ∉ b.ramdiskNames
      ∧ (∀ x ∈ boardId.getD (List.replicate 16 0), Fits 4 x)
      ∧ ids = (boardId.getD (List.replicate 16 0)).map Int.toNat
      ∧ ids.length = 16
      ∧ b' =
        { entries := b.entries ++
            [{ ramdisk := path
               ramdiskSize := path.length
               ramdiskOffset := b.ramdiskTotalSize
               ramdiskType := type
               ramdiskName := name
               boardId := ids }]
          ramdiskTotalSize := b.ramdiskTotalSize + path.length
          ramdiskNames := stripName name :: b.ramdiskNames } := by
  unfold VendorRamdiskTableBuilder.addEntry at h
  dsimp only at h
  split at h
  case isTrue => cases h
  case isFalse hbanned =>
    split at h
    case isTrue => cases h
    case isFalse hfresh =>
      obtain ⟨ids, hids, h⟩ := bind_eq_ok.mp h
      obtain ⟨hfit, hids⟩ := arrayI_eq_ok.mp hids
      split at h
      case isTrue => cases h
      case isFalse hlen =>
        cases h
        exact ⟨ids, hbanned, hfresh, hfit, hids, not_not.mp hlen, rfl⟩

/-- An entry added keeps the builder well formed. -/
theorem addEntry_wf {b b' : VendorRamdiskTableBuilder}
    {path name : List Byte} {type : Int} {boardId : Option (List Int)}
    (hb : b.Wf) (hname : NameText name)
    (h : b.addEntry path type name boardId = .ok b') : b'.Wf := by
  obtain ⟨ids, hbanned, hfresh, hfit, hids, hlen, rfl⟩ := addEntry_eq_ok h
  refine ⟨hb.laid.concat ?_ rfl, ?_, ?_, List.nodup_cons.mpr
    ⟨hfresh, hb.nodup⟩, ?_, ?_, ?_⟩
  · rw [hb.total, Nat.zero_add]
  · rw [ramdiskSection_concat, List.length_append, hb.total]
    push_cast
    rfl
  · rw [List.map_append, List.reverse_append, hb.names]
    rfl
  · intro n hn
    rcases List.mem_cons.mp hn with rfl | hn
    · exact hbanned
    · exact hb.allowed n hn
  · intro e he
    rcases List.mem_append.mp he with he | he
    · exact hb.text e he
    · rw [List.mem_singleton.mp he]
      exact hname
  · intro e he
    rcases List.mem_append.mp he with he | he
    · exact hb.boardId e he
    · rw [List.mem_singleton.mp he]
      refine ⟨hlen, fun v hv => ?_⟩
      rw [hids] at hv
      obtain ⟨x, hx, rfl⟩ := List.mem_map.mp hv
      exact (hfit x hx).toNat_lt

-- =============================================================== the runs

/-- An entry as a bootloader sees it. -/
def VendorRamdiskTableEntry.view (e : VendorRamdiskTableEntry) :
    VendorRamdisk where
  ramdisk := e.ramdisk
  ramdiskType := e.ramdiskType.toNat
  name := stripName e.ramdiskName
  boardId := e.boardId

/-- A group of options as a bootloader sees it. -/
def Fragment.view (g : Fragment) : VendorRamdisk where
  ramdisk := g.vendorRamdiskFragment
  ramdiskType := g.ramdiskType.toNat
  name := g.ramdiskName.val
  boardId := (List.ofFn g.boardId).map Int.toNat

/-- `--vendor_ramdisk` as a bootloader of v4 images sees it. -/
def vendorRamdiskView (vendorRamdisk : Option (List Byte)) :
    List VendorRamdisk :=
  match vendorRamdisk with
  | none => []
  | some f =>
      [{ ramdisk := f
         ramdiskType := 1
         name := []
         boardId := List.replicate 16 0 }]

/-- A fragment adds its own entry behind the others. -/
theorem addFragment_spec {b b' : VendorRamdiskTableBuilder} {g : Fragment}
    (hb : b.Wf) (h : addFragment b g = .ok b') :
    b'.Wf ∧ b'.entries.map (·.view) = b.entries.map (·.view) ++ [g.view] := by
  obtain ⟨name, hname, h⟩ := bind_eq_ok.mp h
  obtain ⟨hlen, rfl⟩ := asciizBytes_eq_ok.mp hname
  have hlen' : g.ramdiskName.val.length ≤ 32 := by
    unfold vendorRamdiskNameSize at hlen
    omega
  refine ⟨addEntry_wf hb
    (nameText_append_zeros g.ramdiskName.property hlen' 1) h, ?_⟩
  obtain ⟨ids, -, -, -, rfl, -, rfl⟩ := addEntry_eq_ok h
  have hstrip : stripName (g.ramdiskName.val ++ [0]) = g.ramdiskName.val :=
    stripName_append_zeros g.ramdiskName.property 1
  simp only [List.map_append, List.map_cons, List.map_nil,
    VendorRamdiskTableEntry.view, Fragment.view, hstrip, Option.getD_some]

/-- Fragments added in turn are the entries, in their order. -/
theorem foldlM_addFragment_spec {gs : List Fragment}
    {b b' : VendorRamdiskTableBuilder} (hb : b.Wf)
    (h : gs.foldlM addFragment b = .ok b') :
    b'.Wf ∧ b'.entries.map (·.view)
      = b.entries.map (·.view) ++ gs.map (·.view) := by
  induction gs generalizing b with
  | nil =>
    cases h
    exact ⟨hb, (List.append_nil _).symm⟩
  | cons g gs ih =>
    rw [List.foldlM_cons] at h
    obtain ⟨b1, hb1, h⟩ := bind_eq_ok.mp h
    obtain ⟨hwf, hview⟩ := addFragment_spec hb hb1
    obtain ⟨hwf', hview'⟩ := ih hwf h
    refine ⟨hwf', ?_⟩
    rw [hview', hview, List.append_assoc]
    rfl

/-- Every accepted list of groups: the invariant holds of the table, and
its entries are the groups in order. -/
theorem parseVendorRamdiskArgs_wf {vendorRamdisk : Option (List Byte)}
    {gs : List Fragment} {b : VendorRamdiskTableBuilder}
    (h : parseVendorRamdiskArgs vendorRamdisk gs = .ok b) :
    b.Wf ∧ b.entries.map (·.view)
      = vendorRamdiskView vendorRamdisk ++ gs.map (·.view) := by
  cases vendorRamdisk with
  | none => exact foldlM_addFragment_spec VendorRamdiskTableBuilder.init_wf h
  | some f =>
    obtain ⟨b0, hb0, h⟩ := bind_eq_ok.mp h
    have hnil : NameText [] := nameText_append_zeros (s := [])
      List.not_mem_nil (by decide) 0
    have hwf := addEntry_wf VendorRamdiskTableBuilder.init_wf hnil hb0
    obtain ⟨ids, -, -, -, rfl, -, rfl⟩ := addEntry_eq_ok hb0
    exact foldlM_addFragment_spec hwf h

end Edk2Exynos.Bootimg
