import Mathlib
import Lustre.Lib.Run
import Lustre.Lib.SortedInsert

/-! # Request xids and the unreplied list of an import

`lustre/ptlrpc/client.c`, `import.c`, `recover.c` and `niobuf.c`. Every
request gets its `rq_xid` from the global counter `ptlrpc_last_xid`, which
`ptlrpc_next_xid` advances by `PTLRPC_BULK_OPS_COUNT`. The requests of an import
still waiting for a reply are on `imp_unreplied_list`, in increasing order of
xid, and `imp_known_replied_xid` is an xid below all of them. A
request packs the xid below the first one on the list as its `last_xid`, from
which the server drops the reply data it keeps for resends, and
`ptl_send_rpc` LBUGs on a request off the list or with an xid at or below
`imp_known_replied_xid`. Replay adds requests with old xids back to the
list, and sets `imp_known_replied_xid` back under them.

Each operation below is one section of the code under `imp_lock`, and the
operations interleave in any order (`XidEvent`). Requests are numbered;
`rq_xid` is 0 until one is assigned, as a request is allocated zeroed. The
counter starts at the time in seconds shifted by 20 and would take far longer
than any run to wrap its 64 bits, so xids are natural numbers here.
Transnos are left out: where `ptlrpc_retain_replayable_request` puts a
request in the replay list, and which request `ptlrpc_replay_next` picks,
are inputs. The in-place move of `rq_xid` to the last bulk matchbits in
`ptlrpc_set_mbits`, for servers without `OBD_CONNECT_BULK_MBITS`, is left
out; its resend branch is `ptlrpc_reassign_next_xid` under another name.
-/

namespace Lustre.Ptlrpc

/-- `PTLRPC_BULK_OPS_COUNT`. -/
def ptlrpcBulkOpsCount : Nat := 64

/-- An import, its requests, and the xid counter. -/
structure ObdImport where
  /-- `rq_xid` of each request -/
  rqXid : Nat → Nat
  /-- `imp_unreplied_list`, in list order -/
  impUnrepliedList : List Nat
  impKnownRepliedXid : Nat
  impCommittedList : List Nat
  impReplayList : List Nat
  /-- `ptlrpc_last_xid`, shared with the other imports -/
  ptlrpcLastXid : Nat

/-- A new import (`class_new_import`), with the counter at `lastXid`. -/
def ObdImport.init (lastXid : Nat) : ObdImport := ⟨fun _ => 0, [], 0, [], [], lastXid⟩

/-! ## Assigning xids -/

/-- `ptlrpc_next_xid()`. -/
def ptlrpcNextXid (imp : ObdImport) : Nat × ObdImport :=
  let xid := imp.ptlrpcLastXid + ptlrpcBulkOpsCount
  (xid, { imp with ptlrpcLastXid := xid })

/-- `ptlrpc_add_unreplied(req)`: the walk from the tail of the list, failing
on `LASSERT(list_empty(&req->rq_unreplied_list))` and on
`LASSERT(req->rq_xid != iter->rq_xid)`. -/
def ptlrpcAddUnreplied (imp : ObdImport) (req : Nat) : Option ObdImport :=
  if req ∈ imp.impUnrepliedList then none
  else (SortedInsert.insertSorted imp.rqXid req imp.impUnrepliedList).map
    fun l => { imp with impUnrepliedList := l }

/-- `ptlrpc_assign_next_xid_nolock(req)`, and `ptlrpc_assign_next_xid`, the
same under `imp_lock`. -/
def ptlrpcAssignNextXidNolock (imp : ObdImport) (req : Nat) : Option ObdImport :=
  let (xid, imp) := ptlrpcNextXid imp
  ptlrpcAddUnreplied { imp with rqXid := Function.update imp.rqXid req xid } req

/-- `list_del_init(&req->rq_unreplied_list)`. -/
def delUnreplied (imp : ObdImport) (req : Nat) : ObdImport :=
  { imp with impUnrepliedList := imp.impUnrepliedList.erase req }

/-- `ptlrpc_reassign_next_xid(req)`. -/
def ptlrpcReassignNextXid (imp : ObdImport) (req : Nat) : Option ObdImport :=
  ptlrpcAssignNextXidNolock (delUnreplied imp req) req

/-! ## The known replied xid -/

/-- `ptlrpc_known_replied_xid(imp)`: the xid below the first request on the
list, to which `imp_known_replied_xid` is raised; fails on
`LASSERTF(req->rq_xid >= 1)`. -/
def ptlrpcKnownRepliedXid (imp : ObdImport) : Option (Nat × ObdImport) :=
  match imp.impUnrepliedList with
  | [] => some (0, imp)
  | req :: _ =>
    if 1 ≤ imp.rqXid req then
      let xid := imp.rqXid req - 1
      some (xid, if imp.impKnownRepliedXid < xid then { imp with impKnownRepliedXid := xid } else imp)
    else none

/-- `imp->imp_known_replied_xid = ptlrpc_known_replied_xid(imp)`, which may
lower it. -/
def setKnownRepliedXid (imp : ObdImport) : Option ObdImport :=
  (ptlrpcKnownRepliedXid imp).map fun (xid, imp) => { imp with impKnownRepliedXid := xid }

/-! ## Replay -/

/-- The walk of `ptlrpc_prepare_replay` over one replay list: each request
not on the unreplied list is added to it. -/
def addReplayRequests (imp : ObdImport) : List Nat → Option ObdImport
  | [] => some imp
  | req :: reqs =>
    if req ∈ imp.impUnrepliedList then addReplayRequests imp reqs
    else (ptlrpcAddUnreplied imp req).bind fun imp => addReplayRequests imp reqs

/-- `ptlrpc_prepare_replay(imp)`; `inReplay` is `imp_state ==
LUSTRE_IMP_REPLAY && !imp_resend_replay`. -/
def ptlrpcPrepareReplay (imp : ObdImport) (inReplay : Bool) : Option ObdImport :=
  if inReplay then
    (addReplayRequests imp imp.impCommittedList).bind fun imp =>
      (addReplayRequests imp imp.impReplayList).bind setKnownRepliedXid
  else some imp

/-- What `ptlrpc_replay_next(imp)` does to the unreplied list, for the
request at position `k` of the committed list followed by the replay list,
the one the transnos select (none past their end): it is added back if it is
off the list, and must be on it when `ptlrpc_replay_req` sends it. -/
def ptlrpcReplayNext (imp : ObdImport) (k : Nat) : Option ObdImport :=
  match (imp.impCommittedList ++ imp.impReplayList)[k]? with
  | none => some imp
  | some req =>
    let r := if req ∈ imp.impUnrepliedList then some imp
      else (ptlrpcAddUnreplied imp req).bind setKnownRepliedXid
    r.bind fun imp => if req ∈ imp.impUnrepliedList then some imp else none

/-- `ptlrpc_retain_replayable_request(req, imp)`, at the place `pos` of the
replay list that its transno gives: a request already on one of the replay
lists is not added again. -/
def ptlrpcRetainReplayableRequest (imp : ObdImport) (req pos : Nat) : ObdImport :=
  if req ∈ imp.impCommittedList ∨ req ∈ imp.impReplayList then imp
  else { imp with impReplayList := imp.impReplayList.insertIdx pos req }

/-- `ptlrpc_free_committed` keeping a committed request for replay:
`list_move_tail(&req->rq_replay_list, &imp->imp_committed_list)`. The walk
only meets requests of the replay list. -/
def ptlrpcKeepCommitted (imp : ObdImport) (req : Nat) : ObdImport :=
  if req ∈ imp.impReplayList then
    { imp with impReplayList := imp.impReplayList.erase req, impCommittedList := imp.impCommittedList ++ [req] }
  else imp

/-- `__ptlrpc_free_req(request)` taking it off the lists of its import. -/
def ptlrpcFreeReq (imp : ObdImport) (req : Nat) : ObdImport :=
  { imp with
    impCommittedList := imp.impCommittedList.erase req
    impReplayList := imp.impReplayList.erase req
    impUnrepliedList := imp.impUnrepliedList.erase req }

/-! ## Sending -/

/-- The part of `ptlrpc_send_new_req(req)` under `imp_lock`: the request has
an xid and is on the list, and the `last_xid` it packs is the known replied
xid, or 0 for CONNECT and DISCONNECT. -/
def ptlrpcSendNewReq (imp : ObdImport) (req : Nat) (connect : Bool) : Option (Nat × ObdImport) :=
  if imp.rqXid req = 0 ∨ req ∉ imp.impUnrepliedList then none
  else if connect then some (0, imp)
  else ptlrpcKnownRepliedXid imp

/-- The part of `ptl_send_rpc(request)` on xids: a resend after
`-EINPROGRESS` (`rq_nr_resend != 0`, and off the list where `after_reply`
took it) gets a new xid and packs the known replied xid as its `last_xid`;
then the LBUG on a request off the list or at or below
`imp_known_replied_xid`. -/
def ptlSendRpc (imp : ObdImport) (req : Nat) (nrResend : Bool) : Option (Option Nat × ObdImport) :=
  let r := if nrResend = true ∧ req ∉ imp.impUnrepliedList then
      (ptlrpcAssignNextXidNolock imp req).bind fun imp =>
        (ptlrpcKnownRepliedXid imp).map fun (xid, imp) => (some xid, imp)
    else some (none, imp)
  r.bind fun (lastXid, imp) =>
    if req ∉ imp.impUnrepliedList ∨ imp.rqXid req ≤ imp.impKnownRepliedXid then none
    else some (lastXid, imp)

/-! ## The operations on one import -/

/-- What happens to the xids of one import. -/
inductive XidEvent where
  /-- a new request gets its xid (`ptlrpc_request_bufs_pack`) -/
  | assign (req : Nat)
  /-- `ptlrpc_reassign_next_xid(req)` -/
  | reassign (req : Nat)
  /-- a reply, an abort, or `-EINPROGRESS`: the request leaves the list -/
  | replied (req : Nat)
  | retain (req pos : Nat)
  | keepCommitted (req : Nat)
  | free (req : Nat)
  | prepareReplay (inReplay : Bool)
  | replayNext (k : Nat)
  | sendNewReq (req : Nat) (connect : Bool)
  | sendRpc (req : Nat) (nrResend : Bool)
  /-- `ptlrpc_next_xid()` for another import, or for bulk matchbits -/
  | nextXid
  deriving DecidableEq, Repr

/-- One operation; the return value is the `last_xid` it packs, if any. -/
def ptlrpcXidStep (imp : ObdImport) : XidEvent → Option (Option Nat × ObdImport)
  | .assign req => (ptlrpcAssignNextXidNolock imp req).map (none, ·)
  | .reassign req => (ptlrpcReassignNextXid imp req).map (none, ·)
  | .replied req => some (none, delUnreplied imp req)
  | .retain req pos => some (none, ptlrpcRetainReplayableRequest imp req pos)
  | .keepCommitted req => some (none, ptlrpcKeepCommitted imp req)
  | .free req => some (none, ptlrpcFreeReq imp req)
  | .prepareReplay inReplay => (ptlrpcPrepareReplay imp inReplay).map (none, ·)
  | .replayNext k => (ptlrpcReplayNext imp k).map (none, ·)
  | .sendNewReq req connect => (ptlrpcSendNewReq imp req connect).map fun (xid, imp) => (some xid, imp)
  | .sendRpc req nrResend => ptlSendRpc imp req nrResend
  | .nextXid => some (none, (ptlrpcNextXid imp).2)

/-- What the callers guarantee: a request getting its first xid is new and on
no list, a request kept for replay has been sent, and a request is sent
while on the list, or as a resend after `-EINPROGRESS`. -/
def XidAllowed (imp : ObdImport) : XidEvent → Prop
  | .assign req => req ∉ imp.impUnrepliedList
  | .retain req _ => imp.rqXid req ≠ 0
  | .sendNewReq req _ => req ∈ imp.impUnrepliedList
  | .sendRpc req nrResend => req ∈ imp.impUnrepliedList ∨ nrResend = true
  | _ => True

instance xidAllowedDecidable (imp : ObdImport) : (e : XidEvent) → Decidable (XidAllowed imp e)
  | .assign req => inferInstanceAs (Decidable (req ∉ imp.impUnrepliedList))
  | .reassign _ => isTrue trivial
  | .replied _ => isTrue trivial
  | .retain req _ => inferInstanceAs (Decidable (imp.rqXid req ≠ 0))
  | .keepCommitted _ => isTrue trivial
  | .free _ => isTrue trivial
  | .prepareReplay _ => isTrue trivial
  | .replayNext _ => isTrue trivial
  | .sendNewReq req _ => inferInstanceAs (Decidable (req ∈ imp.impUnrepliedList))
  | .sendRpc req nrResend => inferInstanceAs (Decidable (req ∈ imp.impUnrepliedList ∨ nrResend = true))
  | .nextXid => isTrue trivial

end Lustre.Ptlrpc
