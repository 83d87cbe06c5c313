/-
What a call of `ufs_init` enumerates, and when that is the units that are
enabled.

The loop of `scsi_scan` probes from unit 0 on up to the first unit that
breaks (`ScansFrom`). Over a run of calls `ufs_number_of_lus` is the
number of calls times that of the enabled units, so `ufsInit_scans_iff`
follows from one scan with that count.
-/
import Edk2Exynos.Ufs.ScsiScan

namespace Edk2Exynos.Ufs

open Lib

section Scan

variable {c : DevUfs} (d : DevScsi c) (exec : ScsiExec) {errNotFound : Int}
  (s : ScsiState)

-- ======================================================= one unit's turn

/-- How a unit's turn ends, from the replies to its own commands. -/
theorem probeLu_outcome (hneg : errNotFound < 0) (lun : Nat)
    (s : ScsiState) :
    match (probeLu d exec errNotFound 0 "" lun s).1 with
    | .absent => ¬ (luReplies d exec lun s).Succeed
        ∧ ¬ (luReplies d exec lun s).Breaks errNotFound
    | .broken _ => (luReplies d exec lun s).Breaks errNotFound
    | .present _ _ _ => (luReplies d exec lun s).Succeed := by
  unfold probeLu scsiScanCommon LuReplies.Succeed LuReplies.Breaks luReplies
  generalize scsiInquiry d exec (scanBdev lun) d.gBuf s = inquiry
  obtain ⟨q, s1⟩ := inquiry
  dsimp only
  by_cases hq : q < 0
  · rw [if_pos hq]
    dsimp only
    rw [if_pos rfl]
    dsimp only
    omega
  · rw [if_neg hq]
    generalize scsiModeSense d exec (scanBdev lun) s1 = sense
    obtain ⟨m, s2⟩ := sense
    dsimp only
    by_cases hnf : m = errNotFound
    · rw [if_pos hnf]
      dsimp only
      omega
    · rw [if_neg hnf]
      by_cases hm : m < 0
      · rw [if_pos hm]
        dsimp only
        omega
      · rw [if_neg hm, if_pos rfl]
        generalize scsiReadCapacity10 d exec (scanBdev lun) d.gBuf s2 = cap
        obtain ⟨r, s3⟩ := cap
        dsimp only
        by_cases hr : r < 0
        · rw [if_pos hr]
          dsimp only
          omega
        · rw [if_neg hr]
          dsimp only
          omega

theorem LuReplies.Succeed.not_breaks {r : LuReplies} (h : r.Succeed) :
    ¬ r.Breaks errNotFound := by
  unfold LuReplies.Succeed at h
  unfold LuReplies.Breaks
  omega

theorem lunState_succ (lun : Nat) :
    lunState d exec errNotFound s (lun + 1)
      = (probeLu d exec errNotFound 0 "" lun
          (lunState d exec errNotFound s lun)).2 := by
  unfold lunState
  rw [List.range_succ, List.foldl_append, List.foldl_cons, List.foldl_nil]

-- ============================================================== the loop

/-- What the loop does from unit `lun` on, with `n` units to go: it probes
up to the first unit that breaks, each in a slot that has moved on no
further than the units have, and registers what succeeds. -/
structure ScansFrom (errNotFound : Int) (replies : Nat → LuReplies)
    (lun n slot : Nat) (r : ScsiScan) : Prop where
  probes : ∀ j, (∃ p ∈ r.probes, p.lun = j)
    ↔ lun ≤ j ∧ j < lun + n
      ∧ ∀ i, lun ≤ i → i < j → ¬ (replies i).Breaks errNotFound
  slots : ∀ p ∈ r.probes, p.slot + lun ≤ slot + p.lun
  devices : ∀ j, (∃ p ∈ r.probes, p.lun = j) →
    ((∃ v ∈ r.devices, v.lun = j) ↔ (replies j).Succeed)
  probed : ∀ v ∈ r.devices, ∃ p ∈ r.probes, p.lun = v.lun

section Step

variable {replies : Nat → LuReplies} {lun n slot : Nat} {rest : ScsiScan}

theorem ScansFrom.nil (ret : Int) (s : ScsiState) :
    ScansFrom errNotFound replies lun 0 slot ⟨ret, [], [], s⟩ := by
  constructor
  case probes =>
    intro j
    simp only [List.not_mem_nil, false_and, exists_false, false_iff]
    omega
  all_goals simp

/-- A unit that breaks is the last one. -/
theorem ScansFrom.breaks (hb : (replies lun).Breaks errNotFound)
    (ret : Int) (s : ScsiState) :
    ScansFrom errNotFound replies lun (n + 1) slot
      ⟨ret, [⟨lun, slot⟩], [], s⟩ := by
  constructor
  case probes =>
    intro j
    rw [List.exists_mem_cons_iff]
    constructor
    · rintro (heq | ⟨p, hp, -⟩)
      · dsimp only at heq
        exact ⟨by omega, by omega, fun i h1 h2 => by omega⟩
      · cases hp
    · rintro ⟨hle, -, hall⟩
      rcases Nat.eq_or_lt_of_le hle with rfl | hlt
      · exact Or.inl rfl
      · exact absurd hb (hall lun (Nat.le_refl _) hlt)
  case slots =>
    intro p hp
    rw [List.mem_singleton.1 hp]
  case devices =>
    rintro j ⟨p, hp, hj⟩
    rw [List.mem_singleton.1 hp] at hj
    dsimp only at hj
    subst hj
    refine iff_of_false (fun h => ?_) fun hsucc => hsucc.not_breaks hb
    obtain ⟨v, hv, -⟩ := h
    cases hv
  case probed =>
    intro v hv
    cases hv

/-- A unit that does not break, before the rest of the loop. -/
theorem ScansFrom.cons {slot' : Nat}
    (h : ScansFrom errNotFound replies (lun + 1) n slot' rest)
    (devices : List ScsiDevice)
    (hslot : slot' ≤ slot + 1)
    (hgoes : ¬ (replies lun).Breaks errNotFound)
    (hdev : ∀ v ∈ devices, v.lun = lun)
    (hsucc : devices ≠ [] ↔ (replies lun).Succeed) :
    ScansFrom errNotFound replies lun (n + 1) slot
      { rest with
        probes := ⟨lun, slot⟩ :: rest.probes
        devices := devices ++ rest.devices } := by
  have hlater : ∀ v ∈ rest.devices, lun < v.lun := by
    intro v hv
    exact ((h.probes v.lun).1 (h.probed v hv)).1
  constructor
  case probes =>
    intro j
    rw [List.exists_mem_cons_iff, h.probes]
    constructor
    · rintro (heq | ⟨hle, hlt, hall⟩)
      · dsimp only at heq
        exact ⟨by omega, by omega, fun i h1 h2 => by omega⟩
      · refine ⟨by omega, by omega, fun i h1 h2 => ?_⟩
        rcases Nat.eq_or_lt_of_le h1 with rfl | h1
        · exact hgoes
        · exact hall i h1 h2
    · rintro ⟨hle, hlt, hall⟩
      rcases Nat.eq_or_lt_of_le hle with rfl | hle
      · exact Or.inl rfl
      · exact Or.inr ⟨hle, by omega, fun i h1 h2 => hall i (by omega) h2⟩
  case slots =>
    intro p hp
    cases hp with
    | head => exact Nat.le_refl _
    | tail _ hp =>
        have hs := h.slots p hp
        omega
  case devices =>
    intro j hj
    simp only [List.mem_append, or_and_right, exists_or]
    rw [List.exists_mem_cons_iff] at hj
    by_cases hjl : lun = j
    · rw [← hjl, ← hsucc]
      constructor
      · rintro (⟨v, hv, -⟩ | ⟨v, hv, heq⟩)
        · exact List.ne_nil_of_mem hv
        · exact absurd heq (Nat.ne_of_gt (hlater v hv))
      · intro hne
        obtain ⟨v, hv⟩ := List.exists_mem_of_ne_nil _ hne
        exact Or.inl ⟨v, hv, hdev v hv⟩
    · rw [← h.devices j (hj.resolve_left hjl)]
      constructor
      · rintro (⟨v, hv, heq⟩ | hv)
        · exact absurd ((hdev v hv).symm.trans heq) hjl
        · exact hv
      · exact Or.inr
  case probed =>
    intro v hv
    rcases List.mem_append.1 hv with hv | hv
    · exact ⟨_, List.mem_cons_self, (hdev v hv).symm⟩
    · obtain ⟨p, hp, heq⟩ := h.probed v hv
      exact ⟨p, List.mem_cons_of_mem _ hp, heq⟩

end Step

/-- The loop, by the number of units to go. -/
theorem scanLus_scans (hneg : errNotFound < 0) (n lun slot : Nat)
    (ret : Int) :
    ScansFrom errNotFound (scanReplies d exec errNotFound s) lun n slot
      (scanLus d exec errNotFound 0 "" n lun slot ret
        (lunState d exec errNotFound s lun)) := by
  induction n generalizing lun slot ret with
  | zero => exact ScansFrom.nil ret _
  | succ n ih =>
      have hstep := @lunState_succ c d exec errNotFound s lun
      have hout := probeLu_outcome d exec hneg lun
        (lunState d exec errNotFound s lun)
      unfold scanLus
      generalize hp : probeLu d exec errNotFound 0 "" lun
        (lunState d exec errNotFound s lun) = p at hout hstep
      obtain ⟨outcome, s'⟩ := p
      dsimp only at hout hstep
      subst hstep
      cases outcome with
      | absent =>
          exact (ih (lun + 1) slot errNotFound).cons []
            (Nat.le_succ slot) hout.2 nofun
            (iff_of_false (fun h => h rfl) hout.1)
      | broken ret => exact ScansFrom.breaks hout ret _
      | present ret blockSize blockCount =>
          have hout : (scanReplies d exec errNotFound s lun).Succeed := hout
          refine (ih (lun + 1) (slot + 1) ret).cons [_] (Nat.le_refl _)
            hout.not_breaks ?_ ?_
          · intro v hv
            rw [List.mem_singleton.1 hv]
          · exact iff_of_true (List.cons_ne_nil _ _) hout

end Scan

-- ============================================================== one scan

/-- What a scan is for: exactly the enabled units are probed, in slots
that exist, and those whose own commands succeed are registered. -/
structure ScanRight (conf : LuConf) (replies : Nat → LuReplies)
    (r : ScsiScan) : Prop where
  probes : ∀ i, (∃ p ∈ r.probes, p.lun = i) ↔ i < scsiMaxDevice ∧ conf i ≠ 0
  slots : ∀ p ∈ r.probes, p.slot < scsiMaxDevice
  registers : ∀ i, i < scsiMaxDevice → conf i ≠ 0 → (replies i).Succeed →
    ∃ v ∈ r.devices, v.lun = i

/-- A scan of `n` units is right: the enabled units are the first ones,
none of them but the last breaks, and the scan ends after the last, by its
number or because that one breaks. -/
structure ScanCovers (errNotFound : Int) (conf : LuConf)
    (replies : Nat → LuReplies) (n : Nat) : Prop where
  first : ∀ i, i < scsiMaxDevice → (conf i ≠ 0 ↔ i < enabledLus conf)
  enough : enabledLus conf ≤ n
  goes : ∀ i, i + 1 < enabledLus conf → ¬ (replies i).Breaks errNotFound
  ends : n = enabledLus conf
    ∨ ∃ i, i + 1 = enabledLus conf ∧ (replies i).Breaks errNotFound

/-- What holds of a number below `m` whenever it holds of a greater one
holds of the first numbers. -/
theorem lt_countP_range {p : Nat → Bool} (m : Nat)
    (h : ∀ i j, i ≤ j → j < m → p j = true → p i = true) :
    ∀ i, i < m → (p i = true ↔ i < (List.range m).countP p) := by
  induction m with
  | zero => exact fun i hi => absurd hi (Nat.not_lt_zero i)
  | succ m ih =>
      intro i hi
      have hle : (List.range m).countP p ≤ m := by
        have hlen := List.countP_le_length (p := p) (l := List.range m)
        rwa [List.length_range] at hlen
      rw [List.range_succ, List.countP_append, List.countP_singleton]
      by_cases hm : p m = true
      · have hall : (List.range m).countP p = m := by
          have hcount := List.countP_eq_length (p := p) (l := List.range m)
          rw [List.length_range] at hcount
          apply hcount.2
          intro j hj
          exact h j m (Nat.le_of_lt (List.mem_range.1 hj))
            (Nat.lt_succ_self m) hm
        rw [if_pos hm, hall]
        exact iff_of_true (h i m (by omega) (Nat.lt_succ_self m) hm) hi
      · rw [if_neg hm, Nat.add_zero]
        rcases Nat.lt_or_ge i m with hlt | hge
        · exact ih (fun i j hij hj => h i j hij (by omega)) i hlt
        · have him : i = m := by omega
          rw [him]
          exact iff_of_false hm (by omega)

theorem enabledLus_le (conf : LuConf) : enabledLus conf ≤ scsiMaxDevice := by
  unfold enabledLus
  have hlen := List.countP_le_length (p := fun i => conf i != 0)
    (l := List.range scsiMaxDevice)
  rwa [List.length_range] at hlen

section Right

variable {errNotFound : Int} {conf : LuConf} {replies : Nat → LuReplies}
  {n : Nat} {r : ScsiScan}

theorem ScanRight.covers (h : ScansFrom errNotFound replies 0 n 0 r)
    (hr : ScanRight conf replies r) :
    ScanCovers errNotFound conf replies n := by
  -- what is probed, and so what is enabled, is closed downwards
  have hprobed : ∀ i, i < scsiMaxDevice ∧ conf i ≠ 0
      ↔ i < n ∧ ∀ l, l < i → ¬ (replies l).Breaks errNotFound := by
    intro i
    rw [← hr.probes, h.probes, Nat.zero_add]
    simp
  have hfirst : ∀ i, i < scsiMaxDevice →
      (conf i ≠ 0 ↔ i < enabledLus conf) := by
    intro i hi
    rw [← bne_iff_ne]
    refine lt_countP_range (p := fun i => conf i != 0) scsiMaxDevice ?_ i hi
    intro i j hij hj hp
    have hjp := (hprobed j).1 ⟨hj, bne_iff_ne.1 hp⟩
    exact bne_iff_ne.2 ((hprobed i).2 ⟨by omega, fun l hl =>
      hjp.2 l (by omega)⟩).2
  have hle := enabledLus_le conf
  have hin : ∀ i, i < enabledLus conf →
      i < n ∧ ∀ l, l < i → ¬ (replies l).Breaks errNotFound := by
    intro i hi
    exact (hprobed i).1 ⟨by omega, (hfirst i (by omega)).2 hi⟩
  have hgoes : ∀ i, i + 1 < enabledLus conf →
      ¬ (replies i).Breaks errNotFound := fun i hi =>
    (hin (i + 1) hi).2 i (Nat.lt_succ_self i)
  have henough : enabledLus conf ≤ n := by
    rcases Nat.eq_zero_or_pos (enabledLus conf) with hz | hpos
    · omega
    · have hlast := (hin (enabledLus conf - 1) (by omega)).1
      omega
  refine ⟨hfirst, henough, hgoes, ?_⟩
  by_contra hcon
  rw [not_or] at hcon
  -- otherwise the scan goes on to a unit that is not enabled
  have hmore := (hprobed (enabledLus conf)).2 ⟨by omega, fun l hl => by
    rcases Nat.lt_or_ge (l + 1) (enabledLus conf) with hlt | hge
    · exact hgoes l hlt
    · exact fun hb => hcon.2 ⟨l, by omega, hb⟩⟩
  exact Nat.lt_irrefl _ ((hfirst _ hmore.1).1 hmore.2)

theorem ScanCovers.right (h : ScansFrom errNotFound replies 0 n 0 r)
    (hc : ScanCovers errNotFound conf replies n) :
    ScanRight conf replies r := by
  have hle := enabledLus_le conf
  have hprobes : ∀ i, (∃ p ∈ r.probes, p.lun = i) ↔ i < enabledLus conf := by
    intro i
    rw [h.probes]
    constructor
    · rintro ⟨-, hlt, hall⟩
      rcases hc.ends with heq | ⟨l, hl, hb⟩
      · omega
      · by_contra hge
        exact hall l (Nat.zero_le l) (by omega) hb
    · intro hi
      have hn := hc.enough
      exact ⟨Nat.zero_le i, by omega, fun l _ hl => hc.goes l (by omega)⟩
  constructor
  case probes =>
    intro i
    rw [hprobes]
    constructor
    · intro hi
      exact ⟨by omega, (hc.first i (by omega)).2 hi⟩
    · rintro ⟨hi, hen⟩
      exact (hc.first i hi).1 hen
  case slots =>
    intro p hp
    have hs := h.slots p hp
    have hi := (hprobes p.lun).1 ⟨p, hp, rfl⟩
    omega
  case registers =>
    intro i hi hen hsucc
    exact (h.devices i ((hprobes i).2 ((hc.first i hi).1 hen))).2 hsucc

end Right

-- ======================================================= runs of ufs_init

section Runs

variable {c : DevUfs} (d : DevScsi c) (errNotFound : Int) (conf : LuConf)

/-- The call comes to the scans. -/
def InitCall.Reaches (call : InitCall) : Prop :=
  call.initHost = 0 ∧ retryInterface call 2 0 = 0 ∧ call.identifyBootlun = 0

/-- The scan of the units by a call is right, if the call comes to it. -/
def InitRight (call : InitCall) (st : InitState) : Prop :=
  ∀ lus rpmb ssu,
    (ufsInit d errNotFound conf call st).1.scans = some (lus, rpmb, ssu) →
    ScanRight conf (scanReplies d call.exec errNotFound st.scsi) lus

/-- The statics after these calls, from the first one on. -/
def initState (s : ScsiState) (calls : List InitCall) : InitState :=
  run (fun call st => (ufsInit d errNotFound conf call st).2) calls
    { ufsNumberOfLus := 0, scsi := s }

theorem ufsInit_scans (call : InitCall) (st : InitState) :
    (ufsInit d errNotFound conf call st).1.scans.map Prod.fst
      = if call.initHost = 0 ∧ retryInterface call 2 0 = 0
          ∧ call.identifyBootlun = 0 then
          some (scsiScan d call.exec errNotFound 0
            (countLus conf st.ufsNumberOfLus).toNat "" st.scsi)
        else none := by
  unfold ufsInit
  dsimp only
  by_cases h1 : call.initHost = 0
  · by_cases h2 : retryInterface call 2 0 = 0
    · by_cases h3 : call.identifyBootlun = 0 <;> simp [h1, h2, h3]
    · simp [h1, h2]
  · simp [h1]

/-- Every call counts the enabled units again, however far it comes. -/
theorem ufsInit_count (call : InitCall) (st : InitState) :
    (ufsInit d errNotFound conf call st).2.ufsNumberOfLus
      = countLus conf st.ufsNumberOfLus := by
  unfold ufsInit
  dsimp only
  repeat' split
  all_goals rfl

theorem initState_count (s : ScsiState) (calls : List InitCall) :
    (initState d errNotFound conf s calls).ufsNumberOfLus
      = BitVec.ofNat 32 (calls.length * enabledLus conf) := by
  have hrun : ∀ (calls : List InitCall) (st : InitState),
      (run (fun call st => (ufsInit d errNotFound conf call st).2) calls
        st).ufsNumberOfLus
        = st.ufsNumberOfLus
          + BitVec.ofNat 32 (calls.length * enabledLus conf) := by
    intro calls
    induction calls with
    | nil =>
        intro st
        simp [run]
    | cons call calls ih =>
        intro st
        unfold run
        rw [ih, ufsInit_count, countLus, List.length_cons, Nat.succ_mul,
          BitVec.add_assoc, ← BitVec.ofNat_add, Nat.add_comm]
  unfold initState
  rw [hrun]
  exact BitVec.zero_add _

/-- One call: it is right exactly when its scan, if it comes to it, covers
the enabled units with the count it has by then. -/
theorem initRight_iff (hneg : errNotFound < 0) (call : InitCall)
    (st : InitState) :
    InitRight d errNotFound conf call st
      ↔ (call.Reaches → ScanCovers errNotFound conf
        (scanReplies d call.exec errNotFound st.scsi)
        (countLus conf st.ufsNumberOfLus).toNat) := by
  have hscans := ufsInit_scans d errNotFound conf call st
  have hfrom := scanLus_scans d call.exec st.scsi hneg
    (countLus conf st.ufsNumberOfLus).toNat 0 0 0
  unfold InitRight InitCall.Reaches
  constructor
  · intro h hreach
    rw [if_pos hreach] at hscans
    obtain ⟨⟨lus, rpmb, ssu⟩, hsome, hlus⟩ := Option.map_eq_some_iff.1 hscans
    have hr := h lus rpmb ssu hsome
    dsimp only at hlus
    rw [hlus] at hr
    exact hr.covers hfrom
  · intro h lus rpmb ssu hsome
    rw [hsome] at hscans
    split at hscans
    next hreach =>
      have hlus : lus = _ := Option.some.inj hscans
      rw [hlus]
      exact (h hreach).right hfrom
    next => cases hscans

/-- In a run of calls every scan of the units is right exactly when in
every call that comes to it the enabled units are the first ones, none of
them but the last breaks, and the scan ends after the last: by the count,
which is that of the units times that of the calls, or because the last
unit breaks. -/
theorem ufsInit_scans_iff (hneg : errNotFound < 0) (s : ScsiState)
    (calls : List InitCall) :
    (∀ j call, calls[j]? = some call →
        InitRight d errNotFound conf call
          (initState d errNotFound conf s (calls.take j)))
      ↔ ∀ j call, calls[j]? = some call → call.Reaches →
        ScanCovers errNotFound conf
          (scanReplies d call.exec errNotFound
            (initState d errNotFound conf s (calls.take j)).scsi)
          ((j + 1) * enabledLus conf % 2 ^ 32) := by
  apply forall_congr'
  intro j
  apply forall_congr'
  intro call
  apply forall_congr'
  intro hcall
  have hj : j < calls.length := (List.getElem?_eq_some_iff.1 hcall).1
  have hcount : (countLus conf (initState d errNotFound conf s
      (calls.take j)).ufsNumberOfLus).toNat
        = (j + 1) * enabledLus conf % 2 ^ 32 := by
    rw [initState_count, countLus, ← BitVec.ofNat_add, BitVec.toNat_ofNat,
      List.length_take, Nat.min_eq_left (Nat.le_of_lt hj), Nat.succ_mul]
  rw [initRight_iff d errNotFound conf hneg, hcount]

end Runs

/-- A call in which every command succeeds. -/
def workingCall : InitCall where
  initHost := 0
  initInterface := fun _ => 0
  identifyBootlun := 0
  exec := fun _ _ => ⟨0, 0, [], []⟩

/-- These units enabled. -/
def luConf (units : List Nat) : LuConf := fun i =>
  if i ∈ units then 1 else 0

/-- A call in which these commands of these units fail and all others
succeed. -/
def failingCall (fails : List (U32 × ScsiOpcode)) : InitCall where
  __ := workingCall
  exec := fun _ i =>
    ⟨if fails.any fun f => f.1 == i.scm.lun
      && i.scm.cdb.head? == some (sampleDevScsi.opcode f.2) then -1 else 0,
      0, [], []⟩

instance (errNotFound : Int) (r : LuReplies) :
    Decidable (r.Breaks errNotFound) :=
  inferInstanceAs (Decidable (_ ∧ _))

/-- INQUIRY of unit 1 fails. -/
def firstCall : InitCall := failingCall [(1, .inquiry)]

/-- READ CAPACITY of the last unit fails too, which ends the scan. -/
def secondCall : InitCall := failingCall [(1, .inquiry), (2, .readCapacity10)]

/-- The scans of the three units are right in both calls. -/
theorem ufsInit_scans_iff_two :
    InitRight sampleDevScsi (-2) (luConf [0, 1, 2]) firstCall
        (initState sampleDevScsi (-2) (luConf [0, 1, 2])
          (scsiStart sampleDevScsi fun _ => 0) [])
      ∧ InitRight sampleDevScsi (-2) (luConf [0, 1, 2]) secondCall
        (initState sampleDevScsi (-2) (luConf [0, 1, 2])
          (scsiStart sampleDevScsi fun _ => 0) [firstCall]) := by
  have hall := (ufsInit_scans_iff sampleDevScsi (-2) (luConf [0, 1, 2])
    (by decide) (scsiStart sampleDevScsi fun _ => 0)
    [firstCall, secondCall]).2 ?_
  · exact ⟨hall 0 firstCall rfl, hall 1 secondCall rfl⟩
  · intro j call hcall _
    have hfirst : ∀ i, i < scsiMaxDevice →
        (luConf [0, 1, 2] i ≠ 0 ↔ i < enabledLus (luConf [0, 1, 2])) := by
      decide
    have hcount : enabledLus (luConf [0, 1, 2]) = 3 := by decide
    cases j with
    | zero =>
        obtain rfl := Option.some.inj hcall
        refine ⟨hfirst, by decide, fun i hi => ?_, Or.inl rfl⟩
        have hi' : i < 2 := by omega
        clear hi
        revert i
        decide +kernel
    | succ j =>
        cases j with
        | zero =>
            obtain rfl := Option.some.inj hcall
            refine ⟨hfirst, by decide, fun i hi => ?_,
              Or.inr ⟨2, hcount.symm, by decide +kernel⟩⟩
            have hi' : i < 2 := by omega
            clear hi
            revert i
            decide +kernel
        | succ j => cases hcall

/-- Units 0 and 2 enabled: unit 1 is probed, and unit 2 is not. -/
theorem ufsInit_gap :
    ((ufsInit sampleDevScsi (-2) (luConf [0, 2]) workingCall
        ⟨0, scsiStart sampleDevScsi fun _ => 0⟩).1.scans.map
          fun r => r.1.probes) = some [⟨0, 0⟩, ⟨1, 1⟩]
      ∧ ¬ ∀ (conf : LuConf) (s : ScsiState) (calls : List InitCall),
        ∀ j call, calls[j]? = some call →
          InitRight sampleDevScsi (-2) conf call
            (initState sampleDevScsi (-2) conf s (calls.take j)) := by
  refine ⟨by decide +kernel, fun hall => ?_⟩
  have hright := (initRight_iff sampleDevScsi (-2) (luConf [0, 2])
    (by decide) workingCall ⟨0, scsiStart sampleDevScsi fun _ => 0⟩).1
      (hall (luConf [0, 2]) _ [workingCall] 0 workingCall rfl)
      ⟨rfl, rfl, rfl⟩
  have hk : enabledLus (luConf [0, 2]) = 2 := by decide
  have hfirst := hright.first 2 (by decide)
  rw [hk] at hfirst
  exact Nat.lt_irrefl 2 (hfirst.1 (by decide))

end Edk2Exynos.Ufs
