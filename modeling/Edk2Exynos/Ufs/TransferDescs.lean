/-
How far the three descriptions of a SCSI command agree: the command UPIU,
the PRD table and the transfer request descriptor.

# Four encodings

The length of the transfer goes into the UPIU as four big-endian bytes,
into the PRD table as a number of segments, and into the descriptor as
the size of that table. Each has its own limit: the UPIU has none, the
table is right until rounding up the length overflows 32 bits, and the
size until it overflows the 16-bit field.

# The direction

`__utp_write_utrd` fills the direction bits of the descriptor from
`__utp_cmd_get_flags`, whose result is the flag byte of a UPIU header:
none of its values has a direction bit. `__utp_cmd_get_dir`, which has
the values for those bits, is never called. So the descriptor says "no
data transfer" of every command, and `utpWriteCmdAllDescs_agree_iff`
leaves only the commands for which that is true.
-/
import Edk2Exynos.Ufs.TransferResult

namespace Edk2Exynos.Ufs

open Lib

-- =========================================================== the standard

/-- The data direction bits of the first word of a transfer request
descriptor. -/
def utrdDirectionMask : U32 := 0x06000000

/-- The constants of the missing header as the UFS standards give them. -/
structure Ufshci (c : DevUfs) : Prop where
  sgBlockSize : c.ufsSgBlockSize ≠ 0
  prdt : c.sizeUfsPrdt = 16
  noDataTransfer : c.utpNoDataTransfer = 0
  hostToDevice : c.utpHostToDevice = 0x02000000
  deviceToHost : c.utpDeviceToHost = 0x04000000
  flagsNone : c.upiuCmdFlagsNone = 0
  flagsRead : c.upiuCmdFlagsRead = 0x40
  flagsWrite : c.upiuCmdFlagsWrite = 0x20
  scsiCommand : c.utpScsiCommand &&& utrdDirectionMask = 0
  intCmd : c.utpReqDescIntCmd &&& utrdDirectionMask = 0

/-- Segments a transfer needs: its length over the size of one, rounded
up. -/
def segmentsNeeded (c : DevUfs) (len : U32) : Nat :=
  (len.toNat + (c.ufsSgBlockSize.toNat - 1)) / c.ufsSgBlockSize.toNat

/-- The address an entry of the PRD table holds. -/
def UfsPrdt.addr (p : UfsPrdt) : Nat :=
  2 ^ 32 * p.upperAddr.toNat + p.baseAddr.toNat

-- ============================================================== agreement

/-- The UPIU's expected data transfer length is the command's. -/
def LengthAgrees (pscm : ScsiCmd) (r : Request) : Prop :=
  beNat (r.upiu.tsf.take 4) = pscm.datalen.toNat

/-- The PRD table has one entry a segment, each with the address of its
segment. -/
def TableAgrees (c : DevUfs) (pscm : ScsiCmd) (r : Request) : Prop :=
  r.prdTable.length = segmentsNeeded c pscm.datalen
    ∧ ∀ i p, r.prdTable[i]? = some p →
      p.addr = (pscm.buf.toNat + i * c.ufsSgBlockSize.toNat) % 2 ^ 64

/-- The descriptor has the size of that table. -/
def SizeAgrees (c : DevUfs) (pscm : ScsiCmd) (r : Request) : Prop :=
  r.utrd.prdtLen.toNat
    = segmentsNeeded c pscm.datalen * c.sizeUfsPrdt.toNat

/-- The descriptor has the direction of the command. -/
def DirectionAgrees (c : DevUfs) (pscm : ScsiCmd) (r : Request) : Prop :=
  r.utrd.dw0 &&& utrdDirectionMask = utpCmdGetDir c pscm

-- ======================================================= the UPIU's length

theorem toNat_byteOf (x : BitVec 32) (k : Nat) :
    (byteOf x k).toNat = x.toNat / 2 ^ (8 * k) % 256 := by
  unfold byteOf
  rw [BitVec.toNat_setWidth, BitVec.toNat_ushiftRight,
    Nat.shiftRight_eq_div_pow]

/-- A swapped word, stored by a little-endian machine, is the big-endian
number. -/
theorem beNat_cpuToBe32 (x : U32) :
    beNat (bytesOfLong (cpuToBe32 x)) = x.toNat := by
  obtain ⟨a, b, d, e, h⟩ := exists_isBytes x
  have hx := h.eq
  have ha := h.a_lt
  have hb := h.b_lt
  have hd := h.c_lt
  have he := h.d_lt
  have hs := h.byteSwap.eq
  have h0 : (byteOf (byteSwap x) 0).toNat = e := by
    rw [toNat_byteOf, Nat.mul_zero, Nat.pow_zero, Nat.div_one]
    omega
  have h1 : (byteOf (byteSwap x) 1).toNat = d := by
    rw [toNat_byteOf]
    show (byteSwap x).toNat / 256 % 256 = d
    have hq : (byteSwap x).toNat / 256 = d + 256 * (b + 256 * a) := by omega
    omega
  have h2 : (byteOf (byteSwap x) 2).toNat = b := by
    rw [toNat_byteOf]
    show (byteSwap x).toNat / 65536 % 256 = b
    have hq : (byteSwap x).toNat / 65536 = b + 256 * a := by omega
    omega
  have h3 : (byteOf (byteSwap x) 3).toNat = a := by
    rw [toNat_byteOf]
    show (byteSwap x).toNat / 16777216 % 256 = a
    have hq : (byteSwap x).toNat / 16777216 = a := by omega
    omega
  unfold cpuToBe32 beNat bytesOfLong
  simp only [List.foldl, h0, h1, h2, h3]
  omega

-- =========================================================== the PRD table

section Segments

variable {c : DevUfs}

/-- The number of segments is computed right, or the rounding up wraps
around and there are none. -/
theorem sgSegments_toNat (h : c.ufsSgBlockSize ≠ 0) (len : U32) :
    (sgSegments c len).toNat
      = if len.toNat + (c.ufsSgBlockSize.toNat - 1) < 2 ^ 32 then
          segmentsNeeded c len
        else 0 := by
  have hpos : 0 < c.ufsSgBlockSize.toNat :=
    Nat.pos_of_ne_zero fun h0 => h (BitVec.eq_of_toNat_eq h0)
  have hl := len.isLt
  have hsum : (len + c.ufsSgBlockSize - 1).toNat
      = (len.toNat + (c.ufsSgBlockSize.toNat - 1)) % 2 ^ 32 := by
    have hsg := c.ufsSgBlockSize.isLt
    rw [BitVec.toNat_sub, BitVec.toNat_add, show (1 : U32).toNat = 1 from rfl]
    omega
  unfold sgSegments segmentsNeeded
  rw [BitVec.toNat_udiv, hsum]
  split
  next hlt => rw [Nat.mod_eq_of_lt hlt]
  next hge =>
    have hsg := c.ufsSgBlockSize.isLt
    exact Nat.div_eq_of_lt (by omega)

theorem segmentsNeeded_pos (h : c.ufsSgBlockSize ≠ 0) {len : U32}
    (hlen : len ≠ 0) : 0 < segmentsNeeded c len := by
  have hpos : 0 < c.ufsSgBlockSize.toNat :=
    Nat.pos_of_ne_zero fun h0 => h (BitVec.eq_of_toNat_eq h0)
  have hl : 0 < len.toNat :=
    Nat.pos_of_ne_zero fun h0 => hlen (BitVec.eq_of_toNat_eq h0)
  unfold segmentsNeeded
  exact Nat.div_pos (by omega) hpos

theorem segmentsNeeded_zero (h : c.ufsSgBlockSize ≠ 0) :
    segmentsNeeded c 0 = 0 := by
  have hpos : 0 < c.ufsSgBlockSize.toNat :=
    Nat.pos_of_ne_zero fun h0 => h (BitVec.eq_of_toNat_eq h0)
  unfold segmentsNeeded
  rw [show (0 : U32).toNat = 0 from rfl]
  exact Nat.div_eq_of_lt (by omega)

/-- Where an entry of the table points. -/
theorem utpMapSg_addr {pscm : ScsiCmd} {i : Nat} {p : UfsPrdt}
    (hp : (utpMapSg c pscm)[i]? = some p) :
    p.addr = (pscm.buf.toNat + i * c.ufsSgBlockSize.toNat) % 2 ^ 64 := by
  unfold utpMapSg at hp
  split at hp
  next hdata =>
    rw [List.getElem?_map] at hp
    obtain ⟨j, hj, rfl⟩ := Option.map_eq_some_iff.mp hp
    obtain ⟨hi, rfl⟩ := List.getElem?_eq_some_iff.mp hj
    rw [List.length_range] at hi
    -- an entry lies before the end of the transfer, so its offset fits
    have hoff : i * c.ufsSgBlockSize.toNat < 2 ^ 32 := by
      have hle : i * c.ufsSgBlockSize.toNat
          ≤ (sgSegments c pscm.datalen).toNat * c.ufsSgBlockSize.toNat :=
        Nat.mul_le_mul_right _ (Nat.le_of_lt hi)
      have hseg : (sgSegments c pscm.datalen).toNat * c.ufsSgBlockSize.toNat
          ≤ (pscm.datalen + c.ufsSgBlockSize - 1).toNat := by
        unfold sgSegments
        rw [BitVec.toNat_udiv]
        exact Nat.div_mul_le_self _ _
      have hlt := (pscm.datalen + c.ufsSgBlockSize - 1).isLt
      omega
    have hilt : i < 2 ^ 32 :=
      Nat.lt_trans hi (sgSegments c pscm.datalen).isLt
    have ha : (pscm.buf + (BitVec.ofNat 32 i
          * c.ufsSgBlockSize).setWidth 64).toNat
        = (pscm.buf.toNat + i * c.ufsSgBlockSize.toNat) % 2 ^ 64 := by
      rw [BitVec.toNat_add, BitVec.toNat_setWidth, BitVec.toNat_mul,
        BitVec.toNat_ofNat, Nat.mod_eq_of_lt hilt, Nat.mod_eq_of_lt hoff]
      exact congrArg (fun x => (pscm.buf.toNat + x) % 2 ^ 64)
        (Nat.mod_eq_of_lt (Nat.lt_trans hoff (by decide)))
    rw [List.getElem_range, ← ha]
    unfold UfsPrdt.addr
    generalize pscm.buf + _ = a
    have hlt := a.isLt
    rw [BitVec.toNat_setWidth, BitVec.toNat_setWidth,
      BitVec.toNat_ushiftRight, Nat.shiftRight_eq_div_pow]
    omega
  next =>
    cases hp

end Segments

-- ======================================================= the three parts

section Parts

variable {c : DevUfs}

theorem lengthAgrees (pscm : ScsiCmd) (h : UfsHost) :
    LengthAgrees pscm (utpWriteCmdAllDescs c pscm h) :=
  beNat_cpuToBe32 pscm.datalen

/-- The table is right as long as the length can be rounded up. -/
theorem tableAgrees_iff (hc : Ufshci c) (pscm : ScsiCmd) (h : UfsHost) :
    TableAgrees c pscm (utpWriteCmdAllDescs c pscm h)
      ↔ pscm.datalen.toNat + (c.ufsSgBlockSize.toNat - 1) < 2 ^ 32 := by
  have hsg := c.ufsSgBlockSize.isLt
  have hlen : (utpMapSg c pscm).length
      = if pscm.datalen ≠ 0 then (sgSegments c pscm.datalen).toNat
        else 0 := by
    unfold utpMapSg
    split <;> simp
  unfold TableAgrees utpWriteCmdAllDescs
  dsimp only
  rw [and_iff_left fun i p hp => utpMapSg_addr hp, hlen]
  by_cases hdata : pscm.datalen = 0
  · rw [if_neg (not_not.mpr hdata), hdata, segmentsNeeded_zero hc.sgBlockSize]
    exact ⟨fun _ => by
      rw [show (0 : U32).toNat = 0 from rfl]
      omega, fun _ => rfl⟩
  · have hpos := segmentsNeeded_pos hc.sgBlockSize hdata
    rw [if_pos hdata, sgSegments_toNat hc.sgBlockSize]
    split
    next hlt => exact ⟨fun _ => hlt, fun _ => rfl⟩
    next hge => exact ⟨fun h0 => by omega, fun hlt => absurd hlt hge⟩

/-- The size is right as long as it fits its field, too. -/
theorem sizeAgrees_iff (hc : Ufshci c) (pscm : ScsiCmd) (h : UfsHost) :
    SizeAgrees c pscm (utpWriteCmdAllDescs c pscm h)
      ↔ pscm.datalen.toNat + (c.ufsSgBlockSize.toNat - 1) < 2 ^ 32
        ∧ segmentsNeeded c pscm.datalen * 16 < 2 ^ 16 := by
  have hsg := c.ufsSgBlockSize.isLt
  unfold SizeAgrees utpWriteCmdAllDescs utpWriteUtrd
  dsimp only
  rw [hc.prdt, show (16 : U32).toNat = 16 from rfl]
  by_cases hdata : pscm.datalen = 0
  · rw [if_neg (not_not.mpr hdata), hdata, segmentsNeeded_zero hc.sgBlockSize]
    refine ⟨fun _ => ⟨?_, by decide⟩, fun _ => rfl⟩
    rw [show (0 : U32).toNat = 0 from rfl]
    omega
  · have hpos := segmentsNeeded_pos hc.sgBlockSize hdata
    have hsize : ((((sgSegments c pscm.datalen).setWidth 16).setWidth 32
        * 16).setWidth 16).toNat
        = (sgSegments c pscm.datalen).toNat * 16 % 2 ^ 16 := by
      rw [BitVec.toNat_setWidth, BitVec.toNat_mul, BitVec.toNat_setWidth,
        BitVec.toNat_setWidth, show (16 : U32).toNat = 16 from rfl]
      omega
    rw [if_pos hdata, hsize, sgSegments_toNat hc.sgBlockSize]
    split
    next hlt =>
      rw [and_iff_right hlt]
      constructor
      · intro heq
        rw [← heq]
        exact Nat.mod_lt _ (by decide)
      · exact fun hfit => Nat.mod_eq_of_lt hfit
    next hge =>
      refine ⟨fun heq => ?_, fun hfit => absurd hfit.1 hge⟩
      rw [Nat.zero_mul, Nat.zero_mod] at heq
      omega

/-- The flags of a UPIU have no direction bit. -/
theorem utpCmdGetFlags_direction (hc : Ufshci c) (pscm : ScsiCmd) :
    utpCmdGetFlags c pscm &&& utrdDirectionMask = 0 := by
  unfold utpCmdGetFlags
  rw [hc.flagsNone, hc.flagsRead, hc.flagsWrite]
  split
  · split <;> rfl
  · rfl

/-- The direction is right for a command without data. -/
theorem directionAgrees_iff (hc : Ufshci c) (pscm : ScsiCmd)
    (h : UfsHost) :
    DirectionAgrees c pscm (utpWriteCmdAllDescs c pscm h)
      ↔ pscm.datalen = 0 := by
  have hdw0 : (utpCmdGetFlags c pscm ||| c.utpScsiCommand
      ||| c.utpReqDescIntCmd) &&& utrdDirectionMask = 0 := by
    rw [BitVec.and_or_distrib_right, BitVec.and_or_distrib_right,
      utpCmdGetFlags_direction hc, hc.scsiCommand, hc.intCmd]
    rfl
  unfold DirectionAgrees
  show (utpCmdGetFlags c pscm ||| c.utpScsiCommand
      ||| c.utpReqDescIntCmd) &&& utrdDirectionMask = _ ↔ _
  rw [hdw0]
  unfold utpCmdGetDir
  by_cases hdata : pscm.datalen = 0
  · rw [if_neg (not_not.mpr hdata), hc.noDataTransfer]
    exact ⟨fun _ => hdata, fun _ => rfl⟩
  · rw [if_pos hdata, hc.hostToDevice, hc.deviceToHost]
    refine ⟨fun heq => ?_, fun h0 => absurd h0 hdata⟩
    split at heq
    all_goals exact absurd heq (by decide)

end Parts

/-- The UPIU's length is always the command's; table and size are right
as far as 32 and 16 bits go; the direction, and so the whole, is right
exactly for a command without data. -/
theorem utpWriteCmdAllDescs_agree_iff (c : DevUfs) (hc : Ufshci c)
    (pscm : ScsiCmd) (h : UfsHost) :
    let r := utpWriteCmdAllDescs c pscm h
    let fits := pscm.datalen.toNat + (c.ufsSgBlockSize.toNat - 1) < 2 ^ 32
    LengthAgrees pscm r
      ∧ (TableAgrees c pscm r ↔ fits)
      ∧ (SizeAgrees c pscm r
        ↔ fits ∧ segmentsNeeded c pscm.datalen * 16 < 2 ^ 16)
      ∧ (DirectionAgrees c pscm r ↔ pscm.datalen = 0)
      ∧ (LengthAgrees pscm r ∧ TableAgrees c pscm r ∧ SizeAgrees c pscm r
          ∧ DirectionAgrees c pscm r
        ↔ pscm.datalen = 0) := by
  intro r fits
  have hlen := lengthAgrees (c := c) pscm h
  have htab := tableAgrees_iff hc pscm h
  have hsize := sizeAgrees_iff hc pscm h
  have hdir := directionAgrees_iff hc pscm h
  refine ⟨hlen, htab, hsize, hdir, fun hall => hdir.mp hall.2.2.2,
    fun h0 => ?_⟩
  have hsg := c.ufsSgBlockSize.isLt
  have hfits : fits := by
    show pscm.datalen.toNat + (c.ufsSgBlockSize.toNat - 1) < 2 ^ 32
    rw [h0, show (0 : U32).toNat = 0 from rfl]
    omega
  refine ⟨hlen, htab.mpr hfits, hsize.mpr ⟨hfits, ?_⟩, hdir.mpr h0⟩
  rw [h0, segmentsNeeded_zero hc.sgBlockSize]
  decide

theorem sampleDevUfs_ufshci : Ufshci sampleDevUfs :=
  ⟨by decide, rfl, rfl, rfl, rfl, rfl, rfl, rfl, by decide, by decide⟩

/-- READ(10) of one segment. -/
def readOne : ScsiCmd where
  cdb := 0x28 :: List.replicate 15 0
  datalen := 0x1000
  buf := 0x80000000
  lun := 0
  status := 0
  senseBuf := []

theorem utpWriteCmdAllDescs_agree_iff_readOne :
    let r := utpWriteCmdAllDescs sampleDevUfs readOne blankHost
    TableAgrees sampleDevUfs readOne r ∧ SizeAgrees sampleDevUfs readOne r := by
  obtain ⟨-, htab, hsize, -, -⟩ := utpWriteCmdAllDescs_agree_iff
    sampleDevUfs sampleDevUfs_ufshci readOne blankHost
  exact ⟨htab.mpr (by decide), hsize.mpr (by decide)⟩

/-- Its descriptor says that no data is transferred. -/
theorem utpWriteCmdAllDescs_no_direction :
    ¬ ∀ (c : DevUfs), Ufshci c → ∀ (pscm : ScsiCmd) (h : UfsHost),
      let r := utpWriteCmdAllDescs c pscm h
      LengthAgrees pscm r ∧ TableAgrees c pscm r ∧ SizeAgrees c pscm r
        ∧ DirectionAgrees c pscm r := by
  intro hall
  have hdir := (hall sampleDevUfs sampleDevUfs_ufshci readOne
    blankHost).2.2.2
  unfold DirectionAgrees at hdir
  exact absurd hdir (by decide)

end Edk2Exynos.Ufs
