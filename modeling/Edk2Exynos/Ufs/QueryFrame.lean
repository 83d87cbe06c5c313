/-
What a query response writes (ufs.c, `__utp_query_get_data` and
`__utp_query_read_info`), byte by byte.

# The host as memory

`memcpy` does not know of caches, so the host is a memory here and
`HostLayout` says where its pieces lie; the structure is declared in a
missing header. The two functions appear again over that memory, with the
destinations and lengths of the source. `Holds` relates the memory to the
host of the other modules: while a response stays within the pieces, both
descriptions of a query agree (`Holds.utpQueryGetData`).

# The frame

A query is confined when whatever memory it meets changes in the piece
asked for and nowhere else. All lengths are clamped, so nothing can go
wrong with them as long as a configuration descriptor takes the 0x90 bytes
that the clamp allows. The place of a unit descriptor is the device's
choice, however: it is the index in the response and not that of the query.
-/
import Edk2Exynos.Ufs.TransferResult

namespace Edk2Exynos.Ufs

open Lib

variable {c : DevUfs}

-- ============================================================ the layout

/-- The pieces of the host that queries read into. -/
inductive HostPart where
  | unitDesc (lun : U8)
  | deviceDesc
  | configDesc
  | geometryDesc
  | attr (idn : AttrId)
  | flag (idn : FlagId)
  deriving DecidableEq

/-- Where `struct ufs_host` holds them; `unit_desc`, `attributes` and
`flags` are arrays. -/
structure HostLayout (c : DevUfs) where
  unitDesc : Nat
  deviceDesc : Nat
  configDesc : Nat
  geometryDesc : Nat
  attributes : Nat
  flags : Nat
  sizeConfigDesc : Nat
  attrId : AttrId → Nat
  flagId : FlagId → Nat

namespace HostLayout

variable (L : HostLayout c)

/-- Where a part of the host's structure lies. -/
def addr : HostPart → Nat
  | .unitDesc lun => L.unitDesc + lun.toNat * c.sizeUnitDesc
  | .deviceDesc => L.deviceDesc
  | .configDesc => L.configDesc
  | .geometryDesc => L.geometryDesc
  | .attr idn => L.attributes + L.attrId idn * 4
  | .flag idn => L.flags + L.flagId idn * 4

/-- How many bytes a part of the host's structure has. -/
def size : HostPart → Nat
  | .unitDesc _ => c.sizeUnitDesc
  | .deviceDesc => c.sizeDeviceDesc
  | .configDesc => L.sizeConfigDesc
  | .geometryDesc => c.sizeGeometryDesc
  | .attr _ | .flag _ => 4

/-- The addresses of a piece. -/
def Covers (p : HostPart) (x : Nat) : Prop :=
  L.addr p ≤ x ∧ x < L.addr p + L.size p

-- ========================================================== the processing

/-- `__utp_query_read_info` -/
def utpQueryReadInfo (data : Mem) (idn : DescId) (m : Mem) : Mem :=
  let len := (data 0).toNat
  match idn with
  | .unit => writeBytes m (L.addr (.unitDesc (data 2)))
      (readBytes data 0 (min len c.sizeUnitDesc))
  | .device => writeBytes m (L.addr .deviceDesc)
      (readBytes data 0 (min len c.sizeDeviceDesc))
  | .configuration => writeBytes m (L.addr .configDesc)
      (readBytes data 0 (min len 0x90))
  | .geometry => writeBytes m (L.addr .geometryDesc)
      (readBytes data 0 (min len c.sizeGeometryDesc))

/-- `__utp_query_get_data` -/
def utpQueryGetData (rsp : Response) (qry : QueryIndex) (m : Mem) : Mem :=
  match (ufsQueryParams qry).2 with
  | .readDesc idn => L.utpQueryReadInfo rsp.data idn m
  | .readAttr idn =>
      let val := c.upiuHeaderDword (rsp.tsf 8) (rsp.tsf 9) (rsp.tsf 10)
        (rsp.tsf 11)
      putLong m (L.addr (.attr idn)) val
  | .readFlag idn =>
      putLong m (L.addr (.flag idn)) ((rsp.tsf 11).setWidth 32)
  | .setFlag _ | .writeDesc _ | .writeAttr _ => m

-- ============================================================= the frame

/-- The piece a query asks for, a unit descriptor for unit `lun`. -/
def asked (lun : U8) : QueryOpcode → Option HostPart
  | .readDesc .unit => some (.unitDesc lun)
  | .readDesc .device => some .deviceDesc
  | .readDesc .configuration => some .configDesc
  | .readDesc .geometry => some .geometryDesc
  | .readAttr idn => some (.attr idn)
  | .readFlag idn => some (.flag idn)
  | .setFlag _ | .writeDesc _ | .writeAttr _ => none

/-- Whatever the host holds, the response changes nothing but the piece
that was asked for. -/
def Confined (rsp : Response) (qry : QueryIndex) (lun : U8) : Prop :=
  ∀ m, AgreeOutside
    (fun x => ∃ p ∈ asked lun (ufsQueryParams qry).2, L.Covers p x) m
    (L.utpQueryGetData rsp qry m)

/-- A unit descriptor is for the unit that was asked for, or is empty; a
configuration descriptor is no longer than the structure. -/
def AnswersFor (rsp : Response) (lun : U8) : QueryOpcode → Prop
  | .readDesc .unit =>
      rsp.data 2 = lun ∨ min (rsp.data 0).toNat c.sizeUnitDesc = 0
  | .readDesc .configuration =>
      min (rsp.data 0).toNat 0x90 ≤ L.sizeConfigDesc
  | _ => True

/-- A store to the start of a piece. -/
theorem covers_start {p : HostPart} {k : Nat} :
    L.Covers p (L.addr p + k) ↔ k < L.size p := by
  unfold Covers
  omega

/-- No store of a clamped length leaves its piece. -/
theorem covers_clamped {p : HostPart} {n k : Nat}
    (hk : k < min n (L.size p)) : L.Covers p (L.addr p + k) :=
  L.covers_start.mpr (Nat.lt_of_lt_of_le hk (Nat.min_le_right _ _))

theorem unitDesc_le {i j : U8} {x : Nat} (hi : L.Covers (.unitDesc i) x)
    (hj : L.Covers (.unitDesc j) x) : i.toNat ≤ j.toNat := by
  obtain ⟨hi, -⟩ := hi
  obtain ⟨-, hj⟩ := hj
  simp only [addr, size] at hi hj
  by_contra hlt
  have hmul := Nat.mul_le_mul_right c.sizeUnitDesc
    (Nat.succ_le_of_lt (Nat.lt_of_not_le hlt))
  rw [Nat.succ_mul] at hmul
  omega

/-- Two unit descriptors share no address. -/
theorem unitDesc_apart {i j : U8} {x : Nat} (hi : L.Covers (.unitDesc i) x)
    (hj : L.Covers (.unitDesc j) x) : i = j := by
  apply BitVec.eq_of_toNat_eq
  exact Nat.le_antisymm (L.unitDesc_le hi hj) (L.unitDesc_le hj hi)

/-- A store of `bs` to the start of piece `q` keeps to the piece `p`. -/
theorem confined_write_iff {p q : HostPart} {bs : List Byte} :
    (∀ m, AgreeOutside (fun x => ∃ r ∈ some p, L.Covers r x) m
        (writeBytes m (L.addr q) bs))
      ↔ ∀ k < bs.length, L.Covers p (L.addr q + k) := by
  rw [agreeOutside_write_iff]
  simp only [Option.mem_some_iff, exists_eq_left']

/-- For every response: a query changes nothing but what it asked for
exactly when the response answers for that. -/
theorem confined_iff (rsp : Response) (qry : QueryIndex) (lun : U8) :
    L.Confined rsp qry lun ↔ L.AnswersFor rsp lun (ufsQueryParams qry).2 := by
  unfold Confined utpQueryGetData
  cases (ufsQueryParams qry).2 with
  | readDesc idn =>
      cases idn with
      | unit =>
          simp only [asked, utpQueryReadInfo, AnswersFor]
          rw [confined_write_iff, readBytes_length]
          constructor
          · intro h
            by_contra hcon
            rw [not_or] at hcon
            have hpos := Nat.pos_of_ne_zero hcon.2
            apply hcon.1
            apply L.unitDesc_apart (x := L.addr (.unitDesc (rsp.data 2)) + 0)
            · exact L.covers_clamped hpos
            · exact h 0 hpos
          · rintro (hlun | hzero) k hk
            · rw [hlun]
              exact L.covers_clamped hk
            · rw [hzero] at hk
              exact absurd hk (Nat.not_lt_zero k)
      | configuration =>
          simp only [asked, utpQueryReadInfo, AnswersFor]
          rw [confined_write_iff, readBytes_length]
          simp only [covers_start, size]
          constructor
          · intro h
            by_contra hcon
            exact absurd (h _ (Nat.lt_of_not_le hcon)) (Nat.lt_irrefl _)
          · intro h k hk
            exact Nat.lt_of_lt_of_le hk h
      | device =>
          simp only [asked, utpQueryReadInfo, AnswersFor, iff_true]
          rw [confined_write_iff, readBytes_length]
          intro k hk
          exact L.covers_clamped hk
      | geometry =>
          simp only [asked, utpQueryReadInfo, AnswersFor, iff_true]
          rw [confined_write_iff, readBytes_length]
          intro k hk
          exact L.covers_clamped hk
  | readAttr idn =>
      simp only [asked, AnswersFor, iff_true]
      apply L.confined_write_iff.mpr
      intro k hk
      exact L.covers_start.mpr hk
  | readFlag idn =>
      simp only [asked, AnswersFor, iff_true]
      apply L.confined_write_iff.mpr
      intro k hk
      exact L.covers_start.mpr hk
  | setFlag | writeDesc | writeAttr =>
      simp only [AnswersFor, iff_true]
      exact fun m => AgreeOutside.refl _ m

-- ====================================================== the other host

/-- How the bytes of a configuration and of a geometry descriptor make up
the structures: copying over the first bytes is what `DevUfs` says. -/
structure Decoding (L : HostLayout c) where
  configOf : List U8 → UfsConfigDesc
  geometryOf : List U8 → UfsGeometryDesc
  config_copy : ∀ n data old, n ≤ old.length →
    configOf (readBytes data 0 n ++ old.drop n)
      = c.copyConfigDesc n data (configOf old)
  geometry_copy : ∀ n data old, n ≤ old.length →
    geometryOf (readBytes data 0 n ++ old.drop n)
      = c.copyGeometryDesc n data (geometryOf old)

variable {L} (D : Decoding L)

/-- There are eight unit descriptors. -/
def Exists : HostPart → Prop
  | .unitDesc lun => lun.toNat < 8
  | _ => True

/-- A piece of the host with the bytes `bs`. -/
def Decoding.Shows (bs : List U8) (h : UfsHost) : HostPart → Prop
  | .unitDesc lun => readBytes (h.unitDesc lun) 0 c.sizeUnitDesc = bs
  | .deviceDesc => readBytes h.deviceDesc 0 c.sizeDeviceDesc = bs
  | .configDesc => h.configDesc = D.configOf bs
  | .geometryDesc => h.geometryDesc = D.geometryOf bs
  | .attr idn => bytesOfLong (h.attributes idn) = bs
  | .flag idn => bytesOfLong (h.flags idn) = bs

/-- The memory holds the host, piece by piece. -/
def Decoding.Holds (m : Mem) (h : UfsHost) : Prop :=
  ∀ p, Exists p → D.Shows (readBytes m (L.addr p) (L.size p)) h p

/-- No two pieces share an address. -/
def Apart (L : HostLayout c) : Prop :=
  ∀ p q, Exists p → Exists q → p ≠ q → ∀ x, L.Covers p x → ¬ L.Covers q x

/-- The piece a response is written to, and the bytes. -/
def stored (c : DevUfs) (rsp : Response) :
    QueryOpcode → Option (HostPart × List U8)
  | .readDesc .unit => some (.unitDesc (rsp.data 2), readBytes rsp.data 0
      (min (rsp.data 0).toNat c.sizeUnitDesc))
  | .readDesc .device => some (.deviceDesc, readBytes rsp.data 0
      (min (rsp.data 0).toNat c.sizeDeviceDesc))
  | .readDesc .configuration => some (.configDesc, readBytes rsp.data 0
      (min (rsp.data 0).toNat 0x90))
  | .readDesc .geometry => some (.geometryDesc, readBytes rsp.data 0
      (min (rsp.data 0).toNat c.sizeGeometryDesc))
  | .readAttr idn => some (.attr idn, bytesOfLong
      (c.upiuHeaderDword (rsp.tsf 8) (rsp.tsf 9) (rsp.tsf 10) (rsp.tsf 11)))
  | .readFlag idn => some (.flag idn, bytesOfLong
      ((rsp.tsf 11).setWidth 32))
  | .setFlag _ | .writeDesc _ | .writeAttr _ => none

/-- Processing a response is one store. -/
theorem utpQueryGetData_eq (rsp : Response) (qry : QueryIndex) (m : Mem) :
    L.utpQueryGetData rsp qry m
      = match stored c rsp (ufsQueryParams qry).2 with
        | some (p, bs) => writeBytes m (L.addr p) bs
        | none => m := by
  unfold utpQueryGetData
  cases (ufsQueryParams qry).2 with
  | readDesc idn => cases idn <;> rfl
  | readAttr | readFlag | setFlag | writeDesc | writeAttr => rfl

/-- Of the host, too, only that piece changes. -/
theorem shows_frame {rsp : Response} {qry : QueryIndex} {h : UfsHost}
    {bs : List U8} {p : HostPart}
    (hp : ∀ q ∈ stored c rsp (ufsQueryParams qry).2, p ≠ q.1) :
    D.Shows bs (Ufs.utpQueryGetData c rsp qry h) p ↔ D.Shows bs h p := by
  unfold Ufs.utpQueryGetData
  revert hp
  cases (ufsQueryParams qry).2 with
  | readDesc idn =>
      intro hp
      cases idn with
      | unit =>
          cases p with
          | unitDesc lun =>
              have hne : lun ≠ rsp.data 2 :=
                fun heq => hp _ rfl (congrArg _ heq)
              simp only [Decoding.Shows, Ufs.utpQueryReadInfo,
                Function.update_of_ne hne]
          | deviceDesc | configDesc | geometryDesc | attr | flag =>
              exact Iff.rfl
      | device =>
          cases p with
          | deviceDesc => exact absurd rfl (hp _ rfl)
          | unitDesc | configDesc | geometryDesc | attr | flag =>
              exact Iff.rfl
      | configuration =>
          cases p with
          | configDesc => exact absurd rfl (hp _ rfl)
          | unitDesc | deviceDesc | geometryDesc | attr | flag =>
              exact Iff.rfl
      | geometry =>
          cases p with
          | geometryDesc => exact absurd rfl (hp _ rfl)
          | unitDesc | deviceDesc | configDesc | attr | flag =>
              exact Iff.rfl
  | readAttr idn =>
      intro hp
      cases p with
      | attr idn' =>
          have hne : idn' ≠ idn := fun heq => hp _ rfl (congrArg _ heq)
          simp only [Decoding.Shows, Function.update_of_ne hne]
      | unitDesc | deviceDesc | configDesc | geometryDesc | flag =>
          exact Iff.rfl
  | readFlag idn =>
      intro hp
      cases p with
      | flag idn' =>
          have hne : idn' ≠ idn := fun heq => hp _ rfl (congrArg _ heq)
          simp only [Decoding.Shows, Function.update_of_ne hne]
      | unitDesc | deviceDesc | configDesc | geometryDesc | attr =>
          exact Iff.rfl
  | setFlag | writeDesc | writeAttr =>
      intro hp
      exact Iff.rfl

/-- In that piece the new bytes lie over the old ones. -/
theorem shows_stored {rsp : Response} {qry : QueryIndex} {h : UfsHost}
    {old bs : List U8} {p : HostPart}
    (hstored : stored c rsp (ufsQueryParams qry).2 = some (p, bs))
    (hlen : bs.length ≤ L.size p) (hold : old.length = L.size p)
    (hshows : D.Shows old h p) :
    D.Shows (bs ++ old.drop bs.length) (Ufs.utpQueryGetData c rsp qry h) p
    := by
  unfold Ufs.utpQueryGetData
  revert hstored
  cases (ufsQueryParams qry).2 with
  | readDesc idn =>
      intro hstored
      cases idn with
      | unit =>
          cases hstored
          simp only [Decoding.Shows, size] at hshows hlen ⊢
          simp only [Ufs.utpQueryReadInfo, Function.update_self]
          rw [readBytes_writeBytes_head hlen, hshows]
      | device =>
          cases hstored
          simp only [Decoding.Shows, size] at hshows hlen ⊢
          simp only [Ufs.utpQueryReadInfo]
          rw [readBytes_writeBytes_head hlen, hshows]
      | configuration =>
          cases hstored
          simp only [Decoding.Shows] at hshows ⊢
          simp only [Ufs.utpQueryReadInfo]
          rw [readBytes_length] at hlen ⊢
          rw [hshows, D.config_copy _ _ _ (hlen.trans_eq hold.symm)]
      | geometry =>
          cases hstored
          simp only [Decoding.Shows] at hshows ⊢
          simp only [Ufs.utpQueryReadInfo]
          rw [readBytes_length] at hlen ⊢
          rw [hshows, D.geometry_copy _ _ _ (hlen.trans_eq hold.symm)]
  | readAttr idn | readFlag idn =>
      intro hstored
      cases hstored
      have hnil : old.drop 4 = [] := List.drop_eq_nil_of_le hold.le
      simp only [Decoding.Shows, Function.update_self, bytesOfLong_length,
        hnil, List.append_nil]
  | setFlag | writeDesc | writeAttr =>
      intro hstored
      cases hstored

/-- While a response stays within the pieces, the memory goes on holding
the host. -/
theorem Decoding.Holds.utpQueryGetData {D : Decoding L} {m : Mem}
    {h : UfsHost} (hholds : D.Holds m h) (hapart : Apart L)
    (rsp : Response) (qry : QueryIndex)
    (hin : ∀ p ∈ stored c rsp (ufsQueryParams qry).2,
      Exists p.1 ∧ p.2.length ≤ L.size p.1) :
    D.Holds (L.utpQueryGetData rsp qry m)
      (Ufs.utpQueryGetData c rsp qry h) := by
  intro p hp
  rw [utpQueryGetData_eq]
  cases hs : stored c rsp (ufsQueryParams qry).2 with
  | none =>
      apply (shows_frame D _).mpr (hholds p hp)
      intro q hq
      rw [hs] at hq
      cases hq
  | some qbs =>
      obtain ⟨q, bs⟩ := qbs
      obtain ⟨hq, hlen⟩ := hin _ hs
      by_cases heq : p = q
      · subst heq
        dsimp only
        rw [readBytes_writeBytes_head hlen]
        exact shows_stored D hs hlen (readBytes_length _ _ _) (hholds p hp)
      · have hkeep : readBytes (writeBytes m (L.addr q) bs) (L.addr p)
            (L.size p) = readBytes m (L.addr p) (L.size p) := by
          apply readBytes_congr
          intro i hi
          have hx := hapart p q hp hq heq _ (L.covers_start.mpr hi)
          unfold Covers at hx
          dsimp only at hlen
          apply writeBytes_outside
          omega
        dsimp only
        rw [hkeep]
        apply (shows_frame D _).mpr (hholds p hp)
        intro r hr
        rw [hs] at hr
        cases hr
        exact heq

end HostLayout

-- =================================================== a ninth unit answers

/-- The device descriptor behind the eight unit descriptors, and so on. -/
def sampleLayout : HostLayout sampleDevUfs where
  unitDesc := 0
  deviceDesc := 280
  configDesc := 344
  geometryDesc := 488
  attributes := 560
  flags := 568
  sizeConfigDesc := 0x90
  attrId
    | .bootlunen => 0
    | .refclkfreq => 1
  flagId
    | .deviceinit => 0

/-- A unit descriptor of the usual length, for unit 8. -/
def ninthUnit : Response where
  type := 0x36
  response := 0
  status := 0
  tsf := fun _ => 0
  data := fun k => if k = 0 then 0x23 else if k = 2 then 8 else 0

/-- Asked for unit 0, the device answers for unit 8, and the response goes
over the device descriptor. -/
theorem ninthUnit_not_confined :
    sampleLayout.Covers .deviceDesc 280
      ∧ sampleLayout.utpQueryGetData ninthUnit .descRUnitDesc (fun _ => 0)
        280 = 0x23
      ∧ ¬ sampleLayout.Confined ninthUnit .descRUnitDesc 0 := by
  refine ⟨?_, ?_, ?_⟩
  · have hsize : 0 < sampleLayout.size .deviceDesc := by decide
    exact sampleLayout.covers_start.mpr hsize
  · rfl
  · intro h
    have hkeep := h (fun _ => 0) 280
      (by
        rintro ⟨p, hp, hle, hlt⟩
        cases hp
        exact absurd hlt (by decide))
    exact absurd hkeep (by decide)

end Edk2Exynos.Ufs
