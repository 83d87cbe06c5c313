/-
The boot LU under `SetActiveSlot`: which `GetBootLU` and `SetBootLU`
calls one call of it makes, for every outcome of the card-info protocol.

# What goes wrong

`UfsGetSetBootLun` reports success whenever it found the protocol, and
leaves the caller's variable at 0 when it did not; `SwitchPtnSlots` looks
at neither the status nor the value before it passes the variable on to
`SetBootLU`. So a failing `GetBootLU` is followed by `SetBootLU` of 0, or
of whatever the failing call stored. `BootLunSafe` is the condition on
the replies and the state before the call under which this cannot be.
-/
import Edk2Exynos.BootSlot.SlotInvariants

namespace Edk2Exynos.BootSlot

open Lib

variable {env : Env}

-- ===================================================== one protocol call

/-- The three lookups of `UfsGetSetBootLun` find the protocol. -/
def CardInfoReply.available (r : CardInfoReply) : Bool :=
  !efiError r.blkIoHandles && r.handleProtocol == efiSuccess && r.revisionOk

/-- The LU number in a variable set to 0 before a get. -/
def CardInfoReply.stored (r : CardInfoReply) : UINT32 :=
  if r.available then r.bootLun.getD 0 else 0

/-- What `GetBootLU` was asked, where the protocol is there. -/
def getCall (r : CardInfoReply) : List BootLunCall :=
  if r.available then [.getBootLU r.result r.stored] else []

/-- What `SetBootLU` was asked, where the protocol is there. -/
def setCall (r : CardInfoReply) (lun : UINT32) : List BootLunCall :=
  if r.available then [.setBootLU lun] else []

/-- What has to succeed before the protocol is asked. -/
theorem available_iff (r : CardInfoReply) :
    r.available = true ↔ ¬ efiError r.blkIoHandles = true
      ∧ r.handleProtocol = efiSuccess ∧ r.revisionOk = true := by
  unfold CardInfoReply.available
  rw [Bool.and_eq_true, Bool.and_eq_true, beq_iff_eq, Bool.not_eq_true',
    Bool.not_eq_true, and_assoc]

/-- The counter of card-info calls moves on, also when no call is made. -/
def St.afterCard (s : St) : St := { s with cardTick := s.cardTick + 1 }

/-- Where the protocol is there, it is called and the call is recorded. -/
theorem ufsGetSetBootLun_available {lun : UINT32} {isGet : Bool} {s : St}
    (h : (env.cardInfo s.cardTick).available = true) :
    ufsGetSetBootLun env lun isGet s
      = let r := env.cardInfo s.cardTick
        if isGet then
          (efiSuccess, r.bootLun.getD lun, s.afterCard.logBootLun
            (.getBootLU r.result (r.bootLun.getD lun)))
        else (efiSuccess, lun, s.afterCard.logBootLun (.setBootLU lun)) := by
  obtain ⟨h1, h2, h3⟩ := (available_iff _).mp h
  unfold ufsGetSetBootLun
  dsimp only
  rw [if_neg h1, if_neg (not_not.mpr h2), if_neg (not_not.mpr h3)]
  rfl

/-- Where it is not, nothing is called and the number stays. -/
theorem ufsGetSetBootLun_unavailable {lun : UINT32} {isGet : Bool} {s : St}
    (h : ¬ (env.cardInfo s.cardTick).available = true) :
    (ufsGetSetBootLun env lun isGet s).2 = (lun, s.afterCard) := by
  rw [available_iff, not_and_or, not_and_or, not_not] at h
  unfold ufsGetSetBootLun
  dsimp only
  split
  · rfl
  · split
    · rfl
    · split
      · rfl
      next h1 h2 h3 =>
        rcases h with h | h | h
        · exact absurd h h1
        · exact absurd h h2
        · exact absurd h h3

/-- What a get stores, and which call it makes. -/
theorem ufsGetSetBootLun_get (env : Env) (s : St) :
    let r := env.cardInfo s.cardTick
    let u := ufsGetSetBootLun env 0 true s
    u.2.1 = r.stored ∧ u.2.2.cardTick = s.cardTick + 1
      ∧ u.2.2.bootLunCalls = s.bootLunCalls ++ getCall r := by
  intro r u
  unfold getCall CardInfoReply.stored
  by_cases hav : r.available = true
  · have hu : u = _ := ufsGetSetBootLun_available hav
    rw [hu, if_pos hav, if_pos hav]
    exact ⟨rfl, rfl, rfl⟩
  · have hu : u.2 = _ := ufsGetSetBootLun_unavailable hav
    rw [hu, if_neg hav, if_neg hav, List.append_nil]
    exact ⟨rfl, rfl, rfl⟩

/-- Which call a set makes. -/
theorem ufsGetSetBootLun_set (env : Env) (lun : UINT32) (s : St) :
    (ufsGetSetBootLun env lun false s).2.2.bootLunCalls
      = s.bootLunCalls ++ setCall (env.cardInfo s.cardTick) lun := by
  unfold setCall
  by_cases hav : (env.cardInfo s.cardTick).available = true
  · rw [ufsGetSetBootLun_available hav, if_pos hav]
    rfl
  · rw [ufsGetSetBootLun_unavailable hav, if_neg hav, List.append_nil]
    rfl

-- ====================================================== the two branches

/-- The boot LU of a slot. -/
def Side.bootLun : Side → UINT32
  | .a => 1
  | .b => 2

/-- What `SwitchPtnSlots` makes of the number it got. -/
def Side.adjust (x : Side) (lun : UINT32) : UINT32 :=
  if lun = x.other.bootLun then x.bootLun else lun

/-- The calls of a switch: a get, and a set for the other LUN. -/
theorem switchBootLun_calls (env : Env) (x : Side) (s : St) :
    let get := env.cardInfo s.cardTick
    let set := env.cardInfo (s.cardTick + 1)
    (switchBootLun env x.slot.suffix s).bootLunCalls
      = s.bootLunCalls ++ (getCall get ++ setCall set (x.adjust get.stored))
    := by
  intro get set
  obtain ⟨hlun, htick, hcalls⟩ := ufsGetSetBootLun_get env s
  have hadjust : ∀ lun : UINT32,
      (if lun = 1 ∧ strnCmp x.slot.suffix suffixB (strLen suffixB) = 0
        then 2
      else if lun = 2 ∧ strnCmp x.slot.suffix suffixA (strLen suffixA) = 0
        then 1
      else lun) = x.adjust lun := by
    intro lun
    unfold Side.adjust
    cases x with
    | a =>
        rw [if_neg fun h => absurd h.2 (by decide)]
        refine if_congr ?_ rfl rfl
        exact ⟨fun h => h.1, fun h => ⟨h, by decide⟩⟩
    | b =>
        refine if_congr ?_ rfl (if_neg ?_)
        · exact ⟨fun h => h.1, fun h => ⟨h, by decide⟩⟩
        · exact fun h => absurd h.2 (by decide)
  unfold switchBootLun
  generalize ufsGetSetBootLun env 0 true s = u at hlun htick hcalls
  obtain ⟨status, lun, s'⟩ := u
  dsimp only at hlun htick hcalls ⊢
  rw [ufsGetSetBootLun_set, hcalls, htick, hadjust, hlun,
    List.append_assoc]

/-- The calls of the check: a get, and a set if the LUN is that of the other
slot. -/
theorem checkBootLun_calls (env : Env) (y : Side) (s : St) :
    let get := env.cardInfo s.cardTick
    let set := env.cardInfo (s.cardTick + 1)
    (checkBootLun env y.slot s).bootLunCalls
      = s.bootLunCalls ++ (getCall get
        ++ if get.stored = y.other.bootLun then setCall set y.bootLun
          else []) := by
  intro get set
  obtain ⟨hlun, htick, hcalls⟩ := ufsGetSetBootLun_get env s
  unfold checkBootLun
  generalize ufsGetSetBootLun env 0 true s = u at hlun htick hcalls
  obtain ⟨status, lun, s'⟩ := u
  dsimp only at hlun htick hcalls ⊢
  rw [← hlun]
  cases y with
  | a =>
      rw [if_neg fun h => absurd h.2 (by decide)]
      by_cases h2 : lun = Side.a.other.bootLun
      · rw [if_pos ⟨h2, by decide⟩, if_pos h2, ufsGetSetBootLun_set, hcalls,
          htick, List.append_assoc]
        rfl
      · rw [if_neg fun h => h2 h.1, if_neg h2, hcalls, List.append_nil]
  | b =>
      by_cases h1 : lun = Side.b.other.bootLun
      · rw [if_pos ⟨h1, by decide⟩, if_pos h1, ufsGetSetBootLun_set, hcalls,
          htick, List.append_assoc]
        rfl
      · rw [if_neg fun h => h1 h.1, if_neg fun h => absurd h.2 (by decide),
          if_neg h1, hcalls, List.append_nil]

/-- The calls of an exchange: none if there is no list of pairs. -/
theorem switchPtnSlots_calls (hufs : env.rootDeviceType = .ufs) (x : Side)
    (s : St) :
    let get := env.cardInfo s.cardTick
    let set := env.cardInfo (s.cardTick + 1)
    (switchPtnSlots env x.slot.suffix s).bootLunCalls
      = s.bootLunCalls ++ if (pairList env s).1 ≠ efiSuccess then []
        else getCall get ++ setCall set (x.adjust get.stored) := by
  intro get set
  obtain ⟨nodes, tick, hs⟩ := pairList_frame env s
  rw [switchPtnSlots_list]
  generalize pairList env s = r at hs
  obtain ⟨status, s'⟩ := r
  dsimp only at hs ⊢
  subst hs
  split
  · rw [List.append_nil]
  · rw [(updatePartitionAttributes_frame env .partitionGuid _).bootLunCalls,
      switchBootLun_calls]
    rfl

-- ======================================================= a SetActiveSlot

/-- The card-info calls of a `SetActiveSlot` for `x` in state `s`. -/
def bootLunTrace (env : Env) (x : Side) (s : St) : List BootLunCall :=
  let get := env.cardInfo s.cardTick
  let set := env.cardInfo (s.cardTick + 1)
  let (status, currentSlot, _) := getActiveSlot env Slot.zero s
  if status ≠ efiSuccess then []
  else if currentSlot = x.slot then
    getCall get ++ if get.stored = x.other.bootLun then setCall set x.bootLun
      else []
  else if (pairList env s).1 ≠ efiSuccess then []
  else getCall get ++ setCall set (x.adjust get.stored)

/-- The calls of an activation. -/
theorem activate_bootLunCalls (hufs : env.rootDeviceType = .ufs)
    (c : Activation) (s : St) :
    (activate env c s).bootLunCalls
      = s.bootLunCalls ++ bootLunTrace env c.slot s := by
  have hkept := getActiveSlot_service env Slot.zero s
  by_cases hok : (getActiveSlot env Slot.zero s).1 = efiSuccess
  · obtain ⟨ix, h⟩ := getActiveSlot_table (Prod.ext hok rfl :
      getActiveSlot env Slot.zero s = (efiSuccess, _, _))
    rcases getActiveSlot_cases env h with ⟨y, s0, hf⟩ | hnone
    · have h0 := h.of_names hf.names
      have hst := storedState_service env ix c.slot c.resetSuccessBit
        c.setSuccessBit s0
      rw [hf.eq] at hkept
      have hall := hkept.trans hst
      have hn := hf.names.trans (storedState_words env h0 c.slot
        c.resetSuccessBit c.setSuccessBit).1
      have hpairs := (pairList_names env hall hn).1
      unfold activate bootLunTrace
      rw [setActiveSlot_eq hf.eq h0, hf.eq]
      dsimp only
      rw [if_neg (not_not.mpr rfl)]
      unfold finishActivation
      generalize storedState env ix c.slot c.resetSuccessBit c.setSuccessBit
        s0 = s1 at hall hpairs
      by_cases hxy : c.slot = y
      · rw [if_pos hxy, if_pos hufs, if_pos (Side.slot_inj.mpr hxy.symm),
          ← hxy, checkBootLun_calls, hall.bootLunCalls, hall.cardTick]
      · rw [if_neg hxy, if_neg fun h => hxy (Side.slot_inj.mp h).symm,
          (markPtnActive_service env _ _).bootLunCalls,
          switchPtnSlots_calls hufs, hall.bootLunCalls, hall.cardTick,
          hpairs]
    · rw [hnone.1] at hok
      exact absurd hok efiNotFound_ne_efiSuccess
  · have hfail : (activate env c s).bootLunCalls
        = (getActiveSlot env Slot.zero s).2.2.bootLunCalls := by
      unfold activate setActiveSlot
      dsimp only
      rw [if_pos hok]
    have htrace : bootLunTrace env c.slot s = [] := if_pos hok
    rw [hfail, htrace, hkept.bootLunCalls, List.append_nil]

-- ========================================================= what is sent

/-- Every `SetBootLU` is of the boot LU of `x`, after a `GetBootLU` that
succeeded and returned 1 or 2. -/
def SetsKnown (x : Side) (calls : List BootLunCall) : Prop :=
  ∀ pre lun post, calls = pre ++ .setBootLU lun :: post →
    lun = x.bootLun
      ∧ ∃ got, .getBootLU efiSuccess got ∈ pre ∧ (got = 1 ∨ got = 2)

/-- `SetsKnown` of what one `SetActiveSlot` adds to the log. -/
def ActivationSetsKnown (env : Env) (c : Activation) (s : St) : Prop :=
  SetsKnown c.slot
    ((activate env c s).bootLunCalls.drop s.bootLunCalls.length)

/-- The replies do not lead the call astray. If the slot is the active
one, a `GetBootLU` that reports the other slot's LU has succeeded; if it
is not, and the list of pairs can be had, `GetBootLU` was reached,
succeeded and stored 1 or 2. Either may fail if `SetBootLU` is out of
reach. -/
def BootLunSafe (env : Env) (c : Activation) (s : St) : Prop :=
  let get := env.cardInfo s.cardTick
  let set := env.cardInfo (s.cardTick + 1)
  ∀ (y : Side) (s0 : St),
    getActiveSlot env Slot.zero s = (efiSuccess, y.slot, s0) →
    set.available = true →
    if y = c.slot then
      get.stored = c.slot.other.bootLun → get.result = efiSuccess
    else (pairList env s).1 = efiSuccess →
      get.available = true ∧ get.result = efiSuccess
        ∧ (get.stored = 1 ∨ get.stored = 2)

/-- Where nothing is set, nothing wrong is. -/
theorem setsKnown_nil (x : Side) : SetsKnown x [] := by
  intro pre lun post h
  exact absurd h.symm (List.append_ne_nil_of_right_ne_nil _ (by simp))

/-- A get on its own sets nothing. -/
theorem setsKnown_getCall (x : Side) (get : CardInfoReply) :
    SetsKnown x (getCall get) := by
  intro pre lun post h
  have hmem : BootLunCall.setBootLU lun ∈ getCall get := by
    rw [h]
    exact List.mem_append_right _ List.mem_cons_self
  unfold getCall at hmem
  split at hmem
  · rw [List.mem_singleton] at hmem
    cases hmem
  · exact absurd hmem List.not_mem_nil

/-- A get and then a set of `lun`. -/
theorem setsKnown_getSet (x : Side) (get set : CardInfoReply)
    (lun : UINT32) :
    SetsKnown x (getCall get ++ setCall set lun)
      ↔ (set.available = true → lun = x.bootLun
        ∧ get.available = true ∧ get.result = efiSuccess
        ∧ (get.stored = 1 ∨ get.stored = 2)) := by
  by_cases hset : set.available = true
  · have hcalls : setCall set lun = [.setBootLU lun] := if_pos hset
    rw [hcalls]
    constructor
    · intro h _
      obtain ⟨hlun, got, hmem, hgot⟩ := h (getCall get) lun [] rfl
      unfold getCall at hmem
      split at hmem
      next hget =>
        rw [List.mem_singleton, BootLunCall.getBootLU.injEq] at hmem
        rw [hmem.2] at hgot
        exact ⟨hlun, hget, hmem.1.symm, hgot⟩
      · exact absurd hmem List.not_mem_nil
    · intro h pre lun' post heq
      obtain ⟨hlun, hget, hres, hgot⟩ := h hset
      have hg : getCall get = [.getBootLU efiSuccess get.stored] := by
        unfold getCall
        rw [if_pos hget, hres]
      rw [hg] at heq
      -- the set is the second call
      cases pre with
      | nil => cases heq
      | cons c pre =>
          rw [List.cons_append, List.cons_append, List.cons.injEq] at heq
          obtain ⟨rfl, heq⟩ := heq
          cases pre with
          | nil =>
              rw [List.nil_append, List.nil_append, List.cons.injEq,
                BootLunCall.setBootLU.injEq] at heq
              rw [← heq.1]
              exact ⟨hlun, _, List.mem_cons_self, hgot⟩
          | cons c' pre =>
              rw [List.nil_append, List.cons_append, List.cons.injEq] at heq
              exact absurd heq.2 (by simp)
  · have hcalls : setCall set lun = [] := if_neg hset
    rw [hcalls, List.append_nil]
    exact ⟨fun _ h => absurd h hset, fun _ => setsKnown_getCall x get⟩

/-- The adjusted number is the slot's own if the number was 1 or 2. -/
theorem Side.adjust_eq (x : Side) {lun : UINT32} (h : lun = 1 ∨ lun = 2) :
    x.adjust lun = x.bootLun := by
  rcases h with rfl | rfl
  · cases x <;> rfl
  · cases x <;> rfl

/-- Both boot LUNs are real ones. -/
theorem Side.bootLun_known (x : Side) : x.bootLun = 1 ∨ x.bootLun = 2 := by
  cases x with
  | a => exact Or.inl rfl
  | b => exact Or.inr rfl

/-- A number other than 0 was stored by a call that took place. -/
theorem available_of_stored {r : CardInfoReply} (h : r.stored ≠ 0) :
    r.available = true := by
  by_contra hav
  exact h (if_neg hav)

/-- The calls when the slot is active already. -/
theorem setsKnown_check (x : Side) (get set : CardInfoReply) :
    SetsKnown x (getCall get ++ if get.stored = x.other.bootLun then
        setCall set x.bootLun else [])
      ↔ (set.available = true → get.stored = x.other.bootLun →
        get.result = efiSuccess) := by
  by_cases hlun : get.stored = x.other.bootLun
  · have hknown := x.other.bootLun_known
    rw [← hlun] at hknown
    have hne : get.stored ≠ 0 := by
      intro h0
      rw [h0] at hknown
      exact absurd hknown (by decide)
    rw [if_pos hlun, setsKnown_getSet]
    refine ⟨fun h hset _ => (h hset).2.2.1, fun h hset => ?_⟩
    exact ⟨rfl, available_of_stored hne, h hset hlun, hknown⟩
  · rw [if_neg hlun, List.append_nil]
    exact ⟨fun _ _ h => absurd h hlun, fun _ => setsKnown_getCall x get⟩

/-- The calls when the slots are switched. -/
theorem setsKnown_switch (x : Side) (get set : CardInfoReply) :
    SetsKnown x (getCall get ++ setCall set (x.adjust get.stored))
      ↔ (set.available = true → get.available = true
        ∧ get.result = efiSuccess ∧ (get.stored = 1 ∨ get.stored = 2)) := by
  rw [setsKnown_getSet]
  refine ⟨fun h hset => (h hset).2, fun h hset => ?_⟩
  exact ⟨x.adjust_eq (h hset).2.2, h hset⟩

/-- An activation sets the right LUN exactly when the outcomes are safe. -/
theorem activationSetsKnown_iff (hufs : env.rootDeviceType = .ufs)
    (c : Activation) (s : St) :
    ActivationSetsKnown env c s ↔ BootLunSafe env c s := by
  have htrace : ActivationSetsKnown env c s
      ↔ SetsKnown c.slot (bootLunTrace env c.slot s) := by
    unfold ActivationSetsKnown
    rw [activate_bootLunCalls hufs, List.drop_left]
  rw [htrace]
  by_cases hok : (getActiveSlot env Slot.zero s).1 = efiSuccess
  · obtain ⟨ix, h⟩ := getActiveSlot_table (Prod.ext hok rfl :
      getActiveSlot env Slot.zero s = (efiSuccess, _, _))
    rcases getActiveSlot_cases env h with ⟨y, s0, hf⟩ | hnone
    · -- the active slot is `y`, and no other
      have hy : ∀ (y' : Side) (s' : St),
          getActiveSlot env Slot.zero s = (efiSuccess, y'.slot, s') →
          y' = y := by
        intro y' s' hget
        rw [hf.eq, Prod.mk.injEq, Prod.mk.injEq] at hget
        exact Side.slot_inj.mp hget.2.1.symm
      unfold bootLunTrace
      rw [hf.eq]
      dsimp only
      rw [if_neg (not_not.mpr rfl)]
      by_cases hyx : y = c.slot
      · rw [if_pos (Side.slot_inj.mpr hyx), setsKnown_check]
        constructor
        · intro hcalls y' s' hget hset
          rw [if_pos ((hy y' s' hget).trans hyx)]
          exact hcalls hset
        · intro hsafe hset
          have hget := hsafe y s0 hf.eq hset
          rw [if_pos hyx] at hget
          exact hget
      · rw [if_neg fun heq => hyx (Side.slot_inj.mp heq)]
        by_cases hlist : (pairList env s).1 = efiSuccess
        · rw [if_neg (not_not.mpr hlist), setsKnown_switch]
          constructor
          · intro hcalls y' s' hget hset
            rw [if_neg fun heq => hyx ((hy y' s' hget).symm.trans heq)]
            exact fun _ => hcalls hset
          · intro hsafe hset
            have hget := hsafe y s0 hf.eq hset
            rw [if_neg hyx] at hget
            exact hget hlist
        · rw [if_pos hlist]
          refine ⟨fun _ y' s' hget hset => ?_, fun _ => setsKnown_nil _⟩
          rw [if_neg fun heq => hyx ((hy y' s' hget).symm.trans heq)]
          exact fun hcon => absurd hcon hlist
    · rw [hnone.1] at hok
      exact absurd hok efiNotFound_ne_efiSuccess
  · have hnil : bootLunTrace env c.slot s = [] := if_pos hok
    rw [hnil]
    refine ⟨fun _ y s0 hget => ?_, fun _ => setsKnown_nil _⟩
    exact absurd (congrArg Prod.fst hget) hok

/-- In a run of `SetActiveSlot` calls on UFS, `SetBootLU` is only ever
called with the slot's LU and after a `GetBootLU` of 1 or 2, exactly when
no call's replies lead it astray. -/
theorem setActiveSlot_bootLun_iff (env : Env)
    (hufs : env.rootDeviceType = .ufs) (calls : List Activation) (s : St) :
    EveryStep (activate env) (ActivationSetsKnown env) calls s
      ↔ EveryStep (activate env) (BootLunSafe env) calls s :=
  everyStep_congr (activationSetsKnown_iff hufs) calls s

/-- Two switches of the sample set the LUNs of their slots. -/
theorem setActiveSlot_bootLun_iff_sample :
    EveryStep (activate sampleEnv) (ActivationSetsKnown sampleEnv)
      [⟨.b, false, true⟩, ⟨.a, true, false⟩] sampleSlots :=
  (setActiveSlot_bootLun_iff sampleEnv rfl _ _).mpr
    ⟨fun y _ _ _ => by
        split
        · exact fun _ => rfl
        · exact fun _ => ⟨rfl, rfl, Or.inl rfl⟩,
      fun y _ _ _ => by
        split
        · exact fun _ => rfl
        · exact fun _ => ⟨rfl, rfl, Or.inl rfl⟩,
      trivial⟩

/-- A device whose `GetBootLU` fails and stores nothing. -/
def silentEnv : Env :=
  { sampleEnv with
    cardInfo := fun _ =>
      { blkIoHandles := efiSuccess
        handleProtocol := efiSuccess
        revisionOk := true
        result := efiNotFound
        bootLun := none } }

/-- Switching to slot `_b` there sets the boot LU to 0. -/
theorem setActiveSlot_sets_zero :
    silentEnv.rootDeviceType = .ufs
      ∧ (activate silentEnv ⟨.b, false, true⟩ sampleSlots).bootLunCalls
        = [.getBootLU efiNotFound 0, .setBootLU 0]
      ∧ ¬ EveryStep (activate silentEnv) (ActivationSetsKnown silentEnv)
        [⟨.b, false, true⟩] sampleSlots := by
  have hcalls : (activate silentEnv ⟨.b, false, true⟩
      sampleSlots).bootLunCalls
        = [.getBootLU efiNotFound 0, .setBootLU 0] := by
    rw [activate_bootLunCalls rfl]
    decide +kernel
  refine ⟨rfl, hcalls, fun h => ?_⟩
  have hsets := h.1
  unfold ActivationSetsKnown at hsets
  rw [hcalls] at hsets
  obtain ⟨hlun, -⟩ := hsets [.getBootLU efiNotFound 0] 0 [] rfl
  exact absurd hlun (by decide)

end Edk2Exynos.BootSlot
