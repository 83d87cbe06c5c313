/-
The queries of provisioning as transactions on a bus.

# The bus

A `Bus` answers requests and changes as it does. It never takes a query
for a SCSI command, so `ufs_utp_query_process` has a result, and
`busQuery` is the query function of this driver on that bus: every theorem
about all queries is one about it.

# What a RET_SUCCESS is worth

On an `Honest` bus, where a failed transaction is reported in its response
and OCS_SUCCESS means a completed transfer, the check of the configuration
returns RET_SUCCESS only if its four transactions succeeded
(`ufsCheckConfigDesc_transactions`).

# A device with a memory

`memoryBus` is the device that provisioning hopes for, and the query
function over it is `Verbatim` (`memoryBus_verbatim`).
-/
import Edk2Exynos.Ufs.ProvisionUnits
import Edk2Exynos.Ufs.TransferResult

namespace Edk2Exynos.Ufs

open Lib

variable {E : Type} {c : DevUfs}

-- =============================================================== the bus

/-- The device on the bus; a reply of another type than a response is no
answer to a command. -/
structure Bus (c : DevUfs) (E : Type) where
  answer : Request → E → Reply × E
  notResponse : ∀ req e,
    (answer req e).1.rsp.type ≠ c.upiuTransactionResponse

/-- The controller as the driver meets it in a state of the bus. -/
def Bus.controller (bus : Bus c E) (e : E) : Controller :=
  fun req => (bus.answer req e).1

theorem utpCheckResult_isSome {rsp : Response} (h : UfsHost)
    (htype : rsp.type ≠ c.upiuTransactionResponse) :
    (utpCheckResult c rsp h).isSome = true := by
  unfold utpCheckResult
  dsimp only
  rw [if_neg htype]
  split
  · rfl
  · rfl

theorem Bus.query_isSome (bus : Bus c E) (qry : QueryIndex) (lun : U32)
    (h : UfsHost) (e : E) :
    (ufsUtpQueryProcess c (bus.controller e) qry lun h).isSome = true := by
  have hsome := utpCheckResult_isSome
    (queryHost c (bus.controller e) qry lun h)
    (bus.notResponse (utpWriteQueryAllDescs c qry (utpInit lun h)) e)
  obtain ⟨⟨r, h'⟩, hres⟩ := Option.isSome_iff_exists.mp hsome
  have hres' : utpCheckResult c
      (queryReply c (bus.controller e) qry lun h).rsp
      (queryHost c (bus.controller e) qry lun h) = some (r, h') := hres
  rw [ufsUtpQueryProcess_eq, hres']
  dsimp only
  split
  · rfl
  · rfl

/-- `ufs_utp_query_process` on the bus. -/
def busQuery (bus : Bus c E) : Query E := fun qry lun w =>
  let res := (ufsUtpQueryProcess c (bus.controller w.env) qry lun
    w.ufs).get (bus.query_isSome qry lun w.ufs w.env)
  let req := utpWriteQueryAllDescs c qry (utpInit lun w.ufs)
  (res.1, ⟨res.2, (bus.answer req w.env).2⟩)

theorem busQuery_eq (bus : Bus c E) (qry : QueryIndex) (lun : U32)
    (w : World E) :
    ufsUtpQueryProcess c (bus.controller w.env) qry lun w.ufs
      = some ((busQuery bus qry lun w).1, (busQuery bus qry lun w).2.ufs) :=
  (Option.some_get _).symm

-- ========================================================== honest buses

/-- A transaction that fails says so, and one that succeeds has been
completed. -/
def Honest (bus : Bus c E) (timeout : Nat) : Prop :=
  ∀ req e, if (bus.answer req e).1.ocs = c.ocsSuccess then
      Completes c (bus.answer req e).1.polls timeout
    else (bus.answer req e).1.rsp.response ≠ 0

/-- The transaction of a query succeeded. -/
def QuerySucceeded (bus : Bus c E) (qry : QueryIndex) (lun : U32)
    (w : World E) : Prop :=
  Succeeded c (utpInit lun w.ufs) .queryReq
    (queryReply c (bus.controller w.env) qry lun w.ufs)

theorem Honest.succeeded {bus : Bus c E} {qry : QueryIndex} {lun : U32}
    {w : World E} (hb : Honest bus w.ufs.ufsCmdTimeout.toNat)
    (hzero : (busQuery bus qry lun w).1 = 0) :
    QuerySucceeded bus qry lun w := by
  have hsound : QuerySound c (bus.controller w.env) qry lun w.ufs := by
    rw [querySound_iff]
    have hreq := hb (utpWriteQueryAllDescs c qry (utpInit lun w.ufs)) w.env
    unfold queryReply Bus.controller
    split
    · next hocs =>
        rw [if_pos hocs] at hreq
        exact hreq
    · next hocs =>
        rw [if_neg hocs] at hreq
        exact Or.inl hreq
  have heq := busQuery_eq bus qry lun w
  rw [hzero] at heq
  exact hsound.1 _ heq

/-- No query changes the timeout. -/
theorem busQuery_timeout (bus : Bus c E) (qry : QueryIndex) (lun : U32)
    (w : World E) :
    (busQuery bus qry lun w).2.ufs.ufsCmdTimeout = w.ufs.ufsCmdTimeout := by
  have heq := busQuery_eq bus qry lun w
  rw [ufsUtpQueryProcess_eq] at heq
  cases hres : utpCheckResult c
      (queryReply c (bus.controller w.env) qry lun w.ufs).rsp
      (queryHost c (bus.controller w.env) qry lun w.ufs) with
  | none =>
      rw [hres] at heq
      cases heq
  | some res =>
      obtain ⟨r, h₂⟩ := res
      have htime : h₂.ufsCmdTimeout = w.ufs.ufsCmdTimeout :=
        (utpCheckResult_timeout hres).trans rfl
      rw [hres] at heq
      dsimp only at heq
      split at heq
      · have hh : h₂ = (busQuery bus qry lun w).2.ufs :=
          congrArg Prod.snd (Option.some.inj heq)
        rw [← hh]
        exact htime
      · have hh : utpQueryGetData c _ qry h₂
            = (busQuery bus qry lun w).2.ufs :=
          congrArg Prod.snd (Option.some.inj heq)
        rw [← hh]
        exact (utpQueryGetData_timeout _ _ _).trans htime

/-- On an honest bus a RET_SUCCESS that is not the 0 of a failed query
comes from four transactions that succeeded. -/
theorem ufsCheckConfigDesc_transactions {bus : Bus c E} {w : World E}
    {codes : ProvisionCodes} {luConf : UfsConfigDesc}
    (hb : Honest bus w.ufs.ufsCmdTimeout.toNat)
    (hcode : codes.retSuccess ≠ 0)
    (hret : (ufsCheckConfigDesc codes (busQuery bus) luConf w).1
      = codes.retSuccess) :
    QuerySucceeded bus .descRDeviceDesc 0 (w.setLun 0)
      ∧ QuerySucceeded bus .descRGeometryDesc 0
        (readDevice (busQuery bus) w).2
      ∧ QuerySucceeded bus .descRConfigDesc 0
        (readGeometry (busQuery bus) w).2
      ∧ QuerySucceeded bus .attrRBootlunen 0
        (readConfig (busQuery bus) w).2 := by
  have hqueries : QueriesSucceed (busQuery bus) w := by
    by_contra hfail
    rw [ufsCheckConfigDesc_fst, if_neg hfail] at hret
    exact hcode hret.symm
  have h1 : (readDevice (busQuery bus) w).2.ufs.ufsCmdTimeout
      = w.ufs.ufsCmdTimeout := busQuery_timeout bus _ _ _
  have h2 : (readGeometry (busQuery bus) w).2.ufs.ufsCmdTimeout
      = w.ufs.ufsCmdTimeout := (busQuery_timeout bus _ _ _).trans h1
  have h3 : (readConfig (busQuery bus) w).2.ufs.ufsCmdTimeout
      = w.ufs.ufsCmdTimeout := (busQuery_timeout bus _ _ _).trans h2
  refine ⟨?_, ?_, ?_, ?_⟩
  · exact Honest.succeeded hb hqueries.device
  · exact Honest.succeeded (h1 ▸ hb) hqueries.geometry
  · exact Honest.succeeded (h2 ▸ hb) hqueries.config
  · exact Honest.succeeded (h3 ▸ hb) hqueries.bootLunEn

-- ================================================ a device with a memory

/-- How descriptors and attributes lie in a response. Copying a
configuration over itself changes nothing, whatever its length field
says. -/
structure Encoding (c : DevUfs) where
  configBytes : UfsConfigDesc → Mem
  geometryBytes : UfsGeometryDesc → Mem
  attributeBytes : U32 → Mem
  copy_config : ∀ n desc, c.copyConfigDesc n (configBytes desc) desc = desc
  copy_geometry : ∀ desc desc', c.copyGeometryDesc
    (min (geometryBytes desc 0).toNat c.sizeGeometryDesc)
    (geometryBytes desc) desc' = desc
  header_dword : ∀ v, c.upiuHeaderDword (attributeBytes v 8)
    (attributeBytes v 9) (attributeBytes v 10) (attributeBytes v 11) = v
  queryRsp_ne : c.upiuTransactionQueryRsp ≠ c.upiuTransactionResponse

/-- An answer that completes at once. -/
def completedReply (c : DevUfs) (tsf data : Mem) : Reply where
  polls := fun _ => ⟨c.utpTransferReqCompl, 0⟩
  ocs := c.ocsSuccess
  rsp := ⟨c.upiuTransactionQueryRsp, 0, 0, tsf, data⟩

/-- What it answers to a request, and the configuration it then stores. -/
def memoryAnswer (enc : Encoding c) (geometry : UfsGeometryDesc)
    (req : Request) (stored : UfsConfigDesc) : Reply × UfsConfigDesc :=
  let none : Mem := fun _ => 0
  match req.upiu with
  | .query _ (.readDesc .geometry) _ _ =>
      (completedReply c none (enc.geometryBytes geometry), stored)
  | .query _ (.readDesc .configuration) _ _ =>
      (completedReply c none (enc.configBytes stored), stored)
  | .query _ (.writeDesc .configuration) _ (some desc) =>
      (completedReply c none none, desc)
  | .query _ (.readAttr .bootlunen) _ _ =>
      (completedReply c (enc.attributeBytes 1) none, stored)
  | _ => (completedReply c none none, stored)

/-- A device that keeps its configuration in memory. -/
def memoryBus (enc : Encoding c) (geometry : UfsGeometryDesc) :
    Bus c UfsConfigDesc where
  answer := memoryAnswer enc geometry
  notResponse := by
    intro req e
    unfold memoryAnswer
    dsimp only
    split <;> exact enc.queryRsp_ne

/-- What a query does that the device completes. -/
theorem busQuery_completed (bus : Bus c E) (qry : QueryIndex) (lun : U32)
    (w : World E) (hocs : (queryReply c (bus.controller w.env) qry lun
      w.ufs).ocs = c.ocsSuccess) :
    let req := utpWriteQueryAllDescs c qry (utpInit lun w.ufs)
    let reply := (bus.answer req w.env).1
    let h := setScsiStatus reply.rsp
      ((utpInit lun w.ufs).completed req.utrd reply)
    busQuery bus qry lun w = (0,
      ⟨utpQueryGetData c reply.rsp qry h, (bus.answer req w.env).2⟩) := by
  intro req reply h
  have hcheck : utpCheckResult c
      (queryReply c (bus.controller w.env) qry lun w.ufs).rsp
      (queryHost c (bus.controller w.env) qry lun w.ufs) = some (0, h) :=
    if_pos hocs
  have hprocess : ufsUtpQueryProcess c (bus.controller w.env) qry lun
      w.ufs = some (0, utpQueryGetData c reply.rsp qry h) := by
    rw [ufsUtpQueryProcess_eq, hcheck]
    rfl
  have heq := busQuery_eq bus qry lun w
  rw [hprocess] at heq
  have hret : 0 = (busQuery bus qry lun w).1 :=
    congrArg Prod.fst (Option.some.inj heq)
  have hufs : utpQueryGetData c reply.rsp qry h
      = (busQuery bus qry lun w).2.ufs :=
    congrArg Prod.snd (Option.some.inj heq)
  have hparts : busQuery bus qry lun w = ((busQuery bus qry lun w).1,
      ⟨(busQuery bus qry lun w).2.ufs, (bus.answer req w.env).2⟩) := rfl
  rw [hparts, ← hret, ← hufs]

/-- The query function over the device is one that provisioning can rely
on. -/
theorem memoryBus_verbatim (enc : Encoding c) (geometry : UfsGeometryDesc) :
    Verbatim (busQuery (memoryBus enc geometry)) geometry id := by
  have hquery := fun qry lun (w : World UfsConfigDesc) =>
    busQuery_completed (memoryBus enc geometry) qry lun w
      (by cases qry <;> rfl)
  dsimp only at hquery
  refine ⟨?_, ?_, ?_, ?_, ?_, ?_, ?_, ?_⟩
  · intro qry lun w
    rw [hquery]
  · intro lun w
    rw [hquery]
    exact enc.copy_geometry _ _
  · intro qry lun w hne
    rw [hquery]
    cases qry <;> first | rfl | exact absurd rfl hne
  · intro lun w hsame
    rw [hquery]
    have hcopy := enc.copy_config (min (enc.configBytes w.env 0).toNat 0x90)
      w.env
    have hread : c.copyConfigDesc (min (enc.configBytes w.env 0).toNat 0x90)
        (enc.configBytes w.env) w.ufs.configDesc = w.env := by
      rw [hsame]
      exact hcopy
    exact hread
  · intro qry lun w hne
    rw [hquery]
    cases qry <;> first | rfl | exact absurd rfl hne
  · intro lun w
    rw [hquery]
    rfl
  · intro qry lun w hne
    rw [hquery]
    cases qry <;> first | rfl | exact absurd rfl hne
  · intro lun w
    rw [hquery]
    have hval : Function.update w.ufs.attributes .bootlunen
        (c.upiuHeaderDword (enc.attributeBytes 1 8) (enc.attributeBytes 1 9)
          (enc.attributeBytes 1 10) (enc.attributeBytes 1 11)) .bootlunen
        = 1 := by
      rw [Function.update_self, enc.header_dword]
    intro hzero
    exact absurd (hval.symm.trans hzero) (by decide)

end Edk2Exynos.Ufs
