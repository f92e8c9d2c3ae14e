import Mathlib
import Lustre.Basic
import Lustre.Fid
import Lustre.Lib.CArith
import Lustre.Lib.Run

/-! # Object precreation on an OSP device

`lustre/osp/osp_precreate.c`, `osp_internal.h` and the reservation release
of `osp_object.c`. The MDT's OSP device for one OST keeps a pool of objects
the OST has already created: the FIDs after `opd_pre_used_fid` up to
`opd_pre_last_created_fid`. The precreate thread grows the pool by an
`OST_CREATE` RPC (`osp_precreate_send`), the OST answering with the last id
it created; a creation first reserves an object of the pool
(`osp_precreate_reserve`), and then takes the next FID
(`osp_precreate_get_fid`), which also records the largest FID handed out and
any gap before it (`osp_update_last_fid`). When both FIDs reach the end of
their sequence the thread moves to a new one
(`osp_precreate_rollover_new_seq`).

`osp_fid_diff` compares two FIDs of one sequence, or two IDIF FIDs of one
OST, by the difference of their ids stored in an `int`: the low 32 bits, in
two's complement (`CArith.narrowInt`). Its `LASSERTF`s, and the others, are
failures of the model (`none`).

Each operation below is one section of the code under `opd_pre_lock`, and
they interleave in any order (`PrecreateEvent`). The RPC of a precreate
round, the status that `osp_pre_update_msfs` derives from the cached statfs,
the new sequence of a rollover and the status of writing it are inputs. A
pass of the wait loop of `osp_precreate_reserve` that does not reserve ends
the call: a blocking caller that is woken up and reserves is a later call.
`opd_pre_reserved` is a natural number, decremented only after a
reservation. The fault injection points are left out.
-/

namespace Lustre.Osp

open Lustre.Fid CArith StepRun

/-- `OST_MIN_PRECREATE`. -/
def ostMinPrecreate : Int := 32

/-- `LUSTRE_DATA_SEQ_MAX_WIDTH`, the last `f_oid` of a sequence. -/
def lustreDataSeqMaxWidth : UInt64 := 0xFFFFFFFF

/-- The precreation state of `struct osp_device` and its `osp_precreate`. -/
structure OspDevice where
  opdPreUsedFid : LuFid
  opdPreLastCreatedFid : LuFid
  opdPreReserved : Nat
  opdPreCreateCount : Int
  opdPreMaxCreateCount : Int
  opdPreCreateSlow : Bool
  opdPreStatus : Int
  opdPreRecovering : Bool
  opdLastUsedFid : LuFid
  opdLastId : UInt64
  opdGapStartFid : LuFid
  opdGapCount : Int
  /-- `opd_index`, as the `__u32` that `ostid_to_fid` takes -/
  opdIndex : UInt32
  /-- `osp_is_fid_client(d)`: `OBD_CONNECT_FID` in the import's connect data -/
  opdFidClient : Bool
  deriving DecidableEq, Repr

/-! ## Comparing FIDs -/

/-- `osp_fid_diff(fid1, fid2)`: IDIF FIDs by their ids, where the OST
indices agree or one is 0 (an IDIF FID of Lustre 2.4 and 2.5 carries none),
other FIDs of one sequence by `f_oid`. -/
def ospFidDiff (fid1 fid2 : LuFid) : Option Int :=
  if fidIsIdif fid1 && fidIsIdif fid2 then
    let ostIdx1 := fidIdifOstIdx fid1
    let ostIdx2 := fidIdifOstIdx fid2
    if ostIdx1 = 0 ∨ ostIdx2 = 0 ∨ ostIdx1 = ostIdx2 then
      some (narrowInt (fidIdifId fid1.fSeq fid1.fOid 0 - fidIdifId fid2.fSeq fid2.fOid 0).toNat)
    else none
  else if fid1.fSeq = fid2.fSeq then some (narrowInt (fid1.fOid - fid2.fOid).toNat)
  else none

/-- `osp_objs_precreated(env, osp)`: the objects left in the pool. -/
def ospObjsPrecreated (d : OspDevice) : Option Int :=
  ospFidDiff d.opdPreLastCreatedFid d.opdPreUsedFid

/-- The `ost_id` that `fid_to_ostid(fid, oi)` leaves in `osi_oi`. The model
takes the buffer as zeroed before; on an error the code ignores, it holds no
id then. -/
def ospFidToOstid (fid : LuFid) : OstId :=
  match fidToOstid fid OstId.zero with
  | .ok oi => oi
  | .error _ => OstId.zero

/-- `osp_fid_end_seq(env, fid)`: no id is left in the sequence of `fid`. -/
def ospFidEndSeq (fid : LuFid) : Bool :=
  if fidIsIdif fid then ostidId (ospFidToOstid fid) == idifMaxOid
  else fid.fOid.toUInt64 == lustreDataSeqMaxWidth

/-- `osp_fid_to_obdid(last_fid, osi_id)`. -/
def ospFidToObdid (fid : LuFid) : UInt64 :=
  if fidIsIdif fid then fidIdifId fid.fSeq fid.fOid fid.fVer else fid.fOid.toUInt64

/-! ## Handing out FIDs -/

/-- Where `osp_update_last_fid` starts a gap after `fid`: in the next
sequence when `fid` is the last of its own, `fid_is_idif` being tested on the
moved sequence. -/
def ospGapStart (fid : LuFid) : LuFid :=
  if fid.fOid.toUInt64 = lustreDataSeqMaxWidth then
    let fid := { fid with fSeq := fid.fSeq + 1 }
    { fid with fOid := if fidIsIdif fid then 0 else 1 }
  else { fid with fOid := fid.fOid + 1 }

/-- `osp_update_last_fid(d, fid)`: a FID past `opd_last_used_fid` becomes
it, and the ids skipped on the way are recorded as the gap. -/
def ospUpdateLastFid (d : OspDevice) (fid : LuFid) : Option OspDevice :=
  match ospFidDiff fid d.opdLastUsedFid with
  | none => none
  | some diff =>
    if diff > 0 then
      let d :=
        if diff > 1 then { d with opdGapStartFid := ospGapStart d.opdLastUsedFid, opdGapCount := diff - 1 }
        else d
      some { d with opdLastUsedFid := fid, opdLastId := ospFidToObdid fid }
    else some d

/-- The FID after `fid` in `osp_precreate_get_fid`: an IDIF FID at the last
`f_oid` moves to the next sequence, and its `f_oid` wraps to 0. -/
def ospNextUsedFid (fid : LuFid) : LuFid :=
  let fid :=
    if fidIsIdif fid && fid.fOid.toUInt64 == lustreDataSeqMaxWidth then { fid with fSeq := fid.fSeq + 1 }
    else fid
  { fid with fOid := fid.fOid + 1 }

/-- `osp_precreate_get_fid(env, d, fid)`: the next FID of the pool, for a
caller that holds a reservation. -/
def ospPrecreateGetFid (d : OspDevice) : Option (LuFid × OspDevice) :=
  match ospFidDiff d.opdPreUsedFid d.opdPreLastCreatedFid with
  | none => none
  | some diff =>
    -- LASSERTF: the pool is not empty, and the sequence is not used up
    if ¬ diff < 0 then none
    else if ospFidEndSeq d.opdPreUsedFid then none
    else
      let fid := ospNextUsedFid d.opdPreUsedFid
      let d := { d with opdPreUsedFid := fid, opdPreReserved := d.opdPreReserved - 1 }
      (ospUpdateLastFid d fid).map fun d => (fid, d)

/-- The reservation part of `osp_object_release`: an object declared but not
created gives its reservation back. -/
def ospObjectRelease (d : OspDevice) : Option OspDevice :=
  if d.opdPreReserved > 0 then some { d with opdPreReserved := d.opdPreReserved - 1 } else none

/-! ## Reservations -/

/-- The statuses under which `osp_precreate_reserve` keeps trying. -/
def ospPreStatusWaits (rc : Int) : Bool :=
  rc == 0 || rc == -enospc || rc == -enodev || rc == -eagain || rc == -enotconn

/-- `osp_precreate_reserve(env, d, can_block)`, one pass of its loop.
`syncIdle` is `opd_sync_changes + opd_sync_rpcs_in_progress == 0`: no
destroy is pending that could free space. `int precreated` is compared with
the `__u64` counter, as C converts it. -/
def ospPrecreateReserve (d : OspDevice) (canBlock syncIdle : Bool) : Option (Int × OspDevice) :=
  match ospObjsPrecreated d with
  | none => none
  | some precreated =>
    if ¬ 0 ≤ precreated then none
    else if d.opdPreMaxCreateCount = 0 then some (-enobufs, d)
    else
      let rc := d.opdPreStatus
      if ospPreStatusWaits rc = false then some (rc, d)
      else
        -- the pool runs low: ask for twice as many next time
        let d :=
          if d.opdPreCreateCount < d.opdPreMaxCreateCount ∧ d.opdPreCreateSlow = false ∧
              precreated ≤ d.opdPreCreateCount.tdiv 4 + 1 then
            { d with opdPreCreateSlow := true, opdPreCreateCount := d.opdPreCreateCount * 2 }
          else d
        if (precreated % 2 ^ 64).toNat > d.opdPreReserved ∧ d.opdPreRecovering = false then
          some (0, { d with opdPreReserved := d.opdPreReserved + 1 })
        else if rc = -enospc ∧ syncIdle then some (rc, d)
        else if canBlock then some (-etimedout, d)
        else some (-enobufs, d)

/-- `osp_precreate_near_empty_nolock(env, d)`: the pool less the
reservations, computed in `__u64`, is below half a precreate round. -/
def ospPrecreateNearEmpty (d : OspDevice) : Option Bool :=
  (ospObjsPrecreated d).map fun window =>
    decide ((window - d.opdPreReserved) % 2 ^ 64 < d.opdPreCreateCount.tdiv 2 % 2 ^ 64) &&
      d.opdPreStatus == 0

/-! ## Precreate rounds -/

/-- `osp_precreate_fids(env, osp, fid, grow)`: the flag (1 when the
sequence is used up), the FID the round ends at, and the number of ids
`grow` that leaves it, cut at the end of the sequence. For an IDIF sequence
`fid` is left as it was when `ostid_to_fid` rejects the new id. -/
def ospPrecreateFids (osp : OspDevice) (fid : LuFid) (grow : Int) : Int × LuFid × Int :=
  if fidIsIdif fid then
    let oi := ospFidToOstid osp.opdPreLastCreatedFid
    let e := min (ostidId oi + UInt64.ofInt grow) idifMaxOid
    let grow := narrowInt (e - ostidId oi).toNat
    match ostidSetId oi (ostidId oi + UInt64.ofInt grow) with
    | .error _ => (1, fid, grow)
    | .ok oi =>
      if grow = 0 then (1, fid, grow)
      else
        match ostidToFid fid oi osp.opdIndex with
        | .ok fid => (0, fid, grow)
        | .error _ => (0, fid, grow)
  else
    let fid := osp.opdPreLastCreatedFid
    let e := min (fid.fOid.toUInt64 + UInt64.ofInt grow) lustreDataSeqMaxWidth
    let grow := narrowInt (e - fid.fOid.toUInt64).toNat
    (if grow > 0 then 0 else 1, { fid with fOid := fid.fOid + (e - fid.fOid.toUInt64).toUInt32 }, grow)

/-- How the `OST_CREATE` RPC of a round ended. -/
inductive PrecreateReply
  /-- `ptlrpc_queue_wait` failed with this status; `netErr` is `rq_net_err` -/
  | failed (rc : Int) (netErr : Bool)
  /-- the reply holds no `ost_body` -/
  | noBody
  /-- the reply's `oa.o_oi` -/
  | body (oi : OstId)
  deriving DecidableEq, Repr

/-- The FID a round reads from the reply `oi`: `ostid_to_fid` leaves the
FID it asked for where it rejects the reply. -/
def ospReplyFid (fid : LuFid) (oi : OstId) (ostIdx : UInt32) : LuFid :=
  match ostidToFid fid oi ostIdx with
  | .ok f => f
  | .error _ => fid

/-- From the `ready:` label of `osp_precreate_send`: the FID of the reply
must be past the used one, and becomes the last created one; a round that
got fewer objects than it asked for slows the next one down. -/
def ospPrecreateReady (d : OspDevice) (fid : LuFid) (grow : Int) : Option (Int × OspDevice) :=
  match ospFidDiff fid d.opdPreUsedFid with
  | none => none
  | some diffUsed =>
    if diffUsed ≤ 0 then some (-estale, d)
    else
      match ospFidDiff fid d.opdPreLastCreatedFid with
      | none => none
      | some diff =>
        let d :=
          if diff < grow then
            { d with opdPreCreateCount := max diff ostMinPrecreate, opdPreCreateSlow := true }
          else { d with opdPreCreateSlow := false }
        some (0, { d with opdPreLastCreatedFid := fid })

/-- `osp_pre_update_status(d, rc)`: a failure is the status, success the
status `osp_pre_update_msfs` derives from the statfs data. -/
def ospPreUpdateStatus (d : OspDevice) (rc msfsStatus : Int) : OspDevice :=
  { d with opdPreStatus := if rc ≠ 0 then rc else msfsStatus }

/-- The request of a round, from `osp_precreate_send` under `opd_pre_lock`:
the create count cut to half the largest, and what `osp_precreate_fids`
finds from the last created FID: `none` in the second place when the
sequence is used up, else the FID asked for, as the wire carries it, and the
number of ids. The whole is `none` where the `LASSERTF` for a client without
FIDs fails: such a client precreates IDIF objects only. -/
def ospPrecreateRequest (d : OspDevice) : Option (OspDevice × Option (LuFid × Int)) :=
  let d :=
    if d.opdPreCreateCount > d.opdPreMaxCreateCount.tdiv 2 then
      { d with opdPreCreateCount := d.opdPreMaxCreateCount.tdiv 2 }
    else d
  match ospPrecreateFids d d.opdPreLastCreatedFid d.opdPreCreateCount with
  | (flag, fid, grow) =>
    if flag = 1 then some (d, none)
    else if d.opdFidClient = false ∧ fidIsIdif fid = false then none
    -- a client without FIDs asks in group 0
    else some (d, some (if d.opdFidClient then fid else { fid with fSeq := 0 }, grow))

/-- `osp_precreate_send(env, d)`. `reqRc` is the status of allocating and
packing the request, `reply` how its RPC ended. -/
def ospPrecreateSend (d : OspDevice) (reqRc : Int) (reply : PrecreateReply) (msfsStatus : Int) :
    Option (Int × OspDevice) :=
  if d.opdPreStatus ≠ 0 then some (0, d)
  else if reqRc ≠ 0 then some (reqRc, d)
  else
    -- every exit through `out_req` updates the status
    let out : Int × OspDevice → Int × OspDevice := fun (rc, d) => (rc, ospPreUpdateStatus d rc msfsStatus)
    match ospPrecreateRequest d with
    | none => none
    | some (d, none) => some (out (-enospc, d))
    | some (d, some (fid, grow)) =>
      match reply with
      | .failed rc netErr => some (out (if netErr then -enotconn else rc, d))
      | .noBody => some (out (-eproto, d))
      | .body oi => (ospPrecreateReady d (ospReplyFid fid oi d.opdIndex) grow).map out

/-! ## Sequence rollover -/

/-- `osp_precreate_rollover_new_seq(env, osp)`: `seq` is what
`seq_client_get_seq` returned, `writeRc` the status of
`osp_write_last_oid_seq_files`. -/
def ospPrecreateRolloverNewSeq (osp : OspDevice) (seq : Except Int UInt64) (writeRc : Int) :
    Option (Int × OspDevice) :=
  match seq with
  | .error rc => some (rc, osp)
  | .ok seq =>
    let fid : LuFid := ⟨seq, 1, 0⟩
    -- LASSERTF: the sequence is a new one
    if fid.fSeq = osp.opdLastUsedFid.fSeq then none
    else if writeRc ≠ 0 then some (writeRc, osp)
    else
      some (0, { osp with opdLastUsedFid := fid, opdLastId := ospFidToObdid fid, opdGapStartFid := fid,
                          opdPreUsedFid := fid, opdPreLastCreatedFid := fid })

/-- The step of `osp_precreate_thread` that moves to a new sequence once the
precreated and the used FIDs are both at the end of theirs. -/
def ospPrecreateThreadSeq (d : OspDevice) (seq : Except Int UInt64) (writeRc : Int) :
    Option (Int × OspDevice) :=
  if ospFidEndSeq d.opdPreLastCreatedFid && ospFidEndSeq d.opdPreUsedFid then
    ospPrecreateRolloverNewSeq d seq writeRc
  else some (0, d)

/-! ## The device as a state machine -/

/-- The operations on one device. -/
inductive PrecreateEvent
  /-- a precreate round of the thread -/
  | send (reqRc : Int) (reply : PrecreateReply) (msfsStatus : Int)
  | reserve (canBlock syncIdle : Bool)
  | getFid
  | release
  /-- the thread's check for a used-up sequence -/
  | rollover (seq : Except Int UInt64) (writeRc : Int)

/-- What an operation returns: a status, or the FID handed out. -/
inductive PrecreateOutput
  | rc (r : Int)
  | fid (f : LuFid)
  deriving DecidableEq, Repr

/-- One operation on the device. -/
def ospPrecreateStep (d : OspDevice) : PrecreateEvent → Option (PrecreateOutput × OspDevice)
  | .send reqRc reply msfsStatus =>
    (ospPrecreateSend d reqRc reply msfsStatus).map fun (rc, d) => (.rc rc, d)
  | .reserve canBlock syncIdle => (ospPrecreateReserve d canBlock syncIdle).map fun (rc, d) => (.rc rc, d)
  | .getFid => (ospPrecreateGetFid d).map fun (fid, d) => (.fid fid, d)
  | .release => (ospObjectRelease d).map fun d => (.rc 0, d)
  | .rollover seq writeRc => (ospPrecreateThreadSeq d seq writeRc).map fun (rc, d) => (.rc rc, d)

/-- The interleavings the code allows: the thread starts a round when the
pool is nearly empty, and a FID is taken, or a reservation given back, only
by a caller that holds a reservation. -/
def PrecreateAllowed (d : OspDevice) : PrecreateEvent → Prop
  | .send .. => ospPrecreateNearEmpty d = some true
  | .getFid => 0 < d.opdPreReserved
  | .release => 0 < d.opdPreReserved
  | _ => True

instance precreateAllowedDecidable (d : OspDevice) : (e : PrecreateEvent) → Decidable (PrecreateAllowed d e)
  | .send .. => inferInstanceAs (Decidable (ospPrecreateNearEmpty d = some true))
  | .reserve .. => inferInstanceAs (Decidable True)
  | .getFid => inferInstanceAs (Decidable (0 < d.opdPreReserved))
  | .release => inferInstanceAs (Decidable (0 < d.opdPreReserved))
  | .rollover .. => inferInstanceAs (Decidable True)

end Lustre.Osp
