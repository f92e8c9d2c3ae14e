import Mathlib
import Lustre.Basic
import Lustre.Ldlm.Mode

/-! # POSIX record locks on the lock server

`lustre/ldlm/ldlm_flock.c`. A flock resource keeps its granted locks in
`lr_granted` and its blocked requests in `lr_waiting`. In `lr_granted` the
locks of one owner (`owner` and export) sit next to each other, sorted by
start. `ldlm_process_flock_lock(req, flags, intention, err, work_list)` takes
a request (mode `LCK_PR`, `LCK_PW`, or `LCK_NL` to unlock) and does the
following:

* it scans the granted locks of other owners for a conflict (not on the
  client's `LDLM_FL_WAIT_NOREPROC` path, and not for an unlock). It then
  waits, fails with `-EAGAIN` or `-EDEADLK`, or answers an `F_GETLK`;
* it walks the requester's own locks from the first. A lock of the same mode
  that overlaps or adjoins is merged into the request, a lock of the other
  mode is trimmed, destroyed or split in two, and the request is inserted
  where the walk stopped;
* a split needs a second lock. The first time, the resource lock is dropped
  to allocate it and processing starts again (`goto reprocess`), with the
  locals `new`, `added`, `overlaps` and `ownlocks` as they were;
* an unlock that removed something reprocesses the waiting queue
  (`ldlm_reprocess_queue` with `LDLM_PROCESS_RESCAN`), which calls
  `ldlm_process_flock_lock` again on each waiting lock.

Pointers are positions: `new` is the request until it is merged into a
granted lock, then the position of that lock in the list. While the
resource lock is dropped, the model lets nothing else run. The export hash
walk of `ldlm_flock_deadlock`, the export's `OBD_CONNECT_FLOCK_DEAD` flag and
the allocation of the split lock are parameters (`FlockEnv`).
-/

namespace Lustre.Ldlm

/-! ## Locks and resources -/

/-- A flock lock: `l_policy_data.l_flock` (owner, pid, start, end),
`l_export`, and one mode, `l_granted_mode` for a granted lock and
`l_req_mode` for a request. -/
structure FlockLock where
  owner : Nat
  lExport : Nat
  pid : Nat
  mode : LdlmMode
  flStart : UInt64
  flEnd : UInt64
  deriving DecidableEq, Repr

/-- `ldlm_same_flock_owner(lock, new)`. -/
def ldlmSameFlockOwner (lock new : FlockLock) : Bool :=
  new.owner == lock.owner && new.lExport == lock.lExport

/-- `ldlm_flocks_overlap(lock, new)`. -/
def ldlmFlocksOverlap (lock new : FlockLock) : Bool :=
  new.flStart ≤ lock.flEnd && new.flEnd ≥ lock.flStart

/-- The two queues of a flock resource. -/
structure FlockRes where
  lrGranted : List FlockLock
  lrWaiting : List FlockLock
  deriving DecidableEq, Repr

/-- `LDLM_FL_WAIT_NOREPROC`, bit 35. -/
def ldlmFlWaitNoreproc : UInt64 := 0x0000000800000000

/-- `LDLM_FL_BLOCK_NOWAIT`, bit 18: `F_SETLK`, do not wait. -/
def ldlmFlBlockNowait : UInt64 := 0x0000000000040000

/-- `LDLM_FL_TEST_LOCK`, bit 19: `F_GETLK`. -/
def ldlmFlTestLock : UInt64 := 0x0000000000080000

/-- `enum ldlm_process_intention`. -/
inductive LdlmProcessIntention where
  | enqueue
  | rescan
  | recovery
  deriving DecidableEq, Repr

/-- What the lock server cannot see from the resource. -/
structure FlockEnv where
  /-- `ldlm_flock_deadlock(req, lock)`: the wait-for chain from the owner of
  `lock` leads back to the owner of `req` -/
  deadlock : FlockLock → FlockLock → Bool
  /-- the export of the lock supports `OBD_CONNECT_FLOCK_DEAD` -/
  flockDead : FlockLock → Bool
  /-- `ldlm_lock_create` of the split lock for this request succeeds -/
  allocOk : FlockLock → Bool

/-- How `ldlm_process_flock_lock` ends for the request. -/
inductive FlockOutcome where
  /-- granted: inserted, merged into a granted lock, or an unlock done -/
  | granted
  /-- put on `lr_waiting` with `LDLM_FL_BLOCK_GRANTED` -/
  | blocked
  | eagain
  | edeadlk
  /-- `F_GETLK`: the conflicting lock, `none` for `LCK_NL` -/
  | tested (conflict : Option FlockLock)
  /-- a rescan found a conflict: the lock stays waiting -/
  | notGranted
  /-- a rescan found a deadlock: `ldlm_flock_cancel_on_deadlock` -/
  | cancelled
  /-- the split lock could not be allocated -/
  | allocFailed
  deriving DecidableEq, Repr

/-! ## The walk over the requester's locks -/

/-- The locals of the walk: the locks before the cursor (`done`), the value
of `*new`, where `new` points in `done` once it is a granted lock, the value
of `*req`, `added` and `overlaps`. -/
structure FlockMerge where
  done : List FlockLock
  new : FlockLock
  newAt : Option Nat
  req : FlockLock
  added : Bool
  overlaps : Nat
  deriving DecidableEq, Repr

/-- Write `*new`: the request, or the granted lock it points to. -/
def FlockMerge.setNew (st : FlockMerge) (v : FlockLock) : FlockMerge :=
  match st.newAt with
  | none => { st with new := v, req := v }
  | some k => { st with new := v, done := st.done.set k v }

/-- How the walk ends: at the cursor, or at a split before the second lock
exists. -/
inductive FlockMergeEnd where
  | finished (st : FlockMerge) (cursor : List FlockLock)
  | needNew2 (st : FlockMerge) (cursor : List FlockLock)
  deriving DecidableEq, Repr

/-- The `list_for_remaining_safe` loop over the requester's locks, for a
request of mode `mode`; `hasNew2` is whether the split lock `new2` has been
allocated. -/
def flockMergeLoop (hasNew2 : Bool) (mode : LdlmMode) : FlockMerge → List FlockLock → FlockMergeEnd
  | st, [] => .finished st []
  | st, lock :: rest =>
    if ¬ ldlmSameFlockOwner lock st.new then .finished st (lock :: rest)
    else if lock.mode = mode then
      -- the same mode: a lock that overlaps or adjoins is merged
      if st.new.flStart > lock.flEnd + 1 ∧ lock.flEnd ≠ obdObjectEof then
        flockMergeLoop hasNew2 mode { st with done := st.done ++ [lock] } rest
      else if st.new.flEnd < lock.flStart - 1 ∧ lock.flStart ≠ 0 then .finished st (lock :: rest)
      else
        let lock1 := if st.new.flStart < lock.flStart then { lock with flStart := st.new.flStart } else lock
        let new1 := if st.new.flStart < lock.flStart then st.new else { st.new with flStart := lock.flStart }
        let lock2 := if new1.flEnd > lock1.flEnd then { lock1 with flEnd := new1.flEnd } else lock1
        let new2 := if new1.flEnd > lock1.flEnd then new1 else { new1 with flEnd := lock1.flEnd }
        let st := st.setNew new2
        if st.added then flockMergeLoop hasNew2 mode st rest
        else
          -- `new = lock`: from here on `new` is the granted lock
          flockMergeLoop hasNew2 mode
            { st with done := st.done ++ [lock2], new := lock2, newAt := some st.done.length, added := true } rest
    else if st.new.flStart > lock.flEnd then
      flockMergeLoop hasNew2 mode { st with done := st.done ++ [lock] } rest
    else if st.new.flEnd < lock.flStart then .finished st (lock :: rest)
    else
      -- the other mode and overlapping: trim, destroy or split the lock
      let st := { st with overlaps := st.overlaps + 1 }
      if st.new.flStart ≤ lock.flStart then
        if st.new.flEnd < lock.flEnd then
          .finished st ({ lock with flStart := st.new.flEnd + 1 } :: rest)
        else flockMergeLoop hasNew2 mode st rest
      else if st.new.flEnd ≥ lock.flEnd then
        flockMergeLoop hasNew2 mode { st with done := st.done ++ [{ lock with flEnd := st.new.flStart - 1 }] } rest
      else if ¬ hasNew2 then .needNew2 st (lock :: rest)
      else
        let new2 : FlockLock :=
          { owner := st.new.owner, lExport := lock.lExport, pid := st.new.pid, mode := lock.mode,
            flStart := lock.flStart, flEnd := st.new.flStart - 1 }
        .finished { st with done := st.done ++ [new2] } ({ lock with flStart := st.new.flEnd + 1 } :: rest)

/-! ## `ldlm_process_flock_lock` -/

/-- The first granted lock of another owner that `req` conflicts with: the
loop of the server path. -/
def flockConflict (req : FlockLock) (granted : List FlockLock) : Option FlockLock :=
  granted.find? fun lock =>
    !ldlmSameFlockOwner lock req && !lockmodeCompat lock.mode req.mode && ldlmFlocksOverlap lock req

/-- Where the requester's locks start (`ownlocks`): the first of them, or
the end of the list. -/
def flockOwnStart (req : FlockLock) (granted : List FlockLock) : Nat :=
  (granted.findIdx? fun lock => ldlmSameFlockOwner lock req).getD granted.length

/-- Drop a request from `lr_waiting`: on a rescan it is the pending lock. -/
def flockUnlinkReq (intention : LdlmProcessIntention) (req : FlockLock) (waiting : List FlockLock) :
    List FlockLock :=
  if intention = .enqueue then waiting else waiting.erase req

/-- The server path's handling of a conflict with `lock`. The request is
`req` as it entered, by which it is found in `lr_waiting`, and `cur` as the
walk has left it. -/
def flockOnConflict (env : FlockEnv) (req cur : FlockLock) (flags : UInt64) (intention : LdlmProcessIntention)
    (res : FlockRes) (lock : FlockLock) : FlockOutcome × FlockRes :=
  if intention ≠ .enqueue then
    if env.deadlock cur lock then
      -- `ldlm_flock_cancel_on_deadlock`: without `OBD_CONNECT_FLOCK_DEAD` it only complains
      (.cancelled, if env.flockDead cur then { res with lrWaiting := res.lrWaiting.erase req } else res)
    else (.notGranted, res)
  else if flags &&& ldlmFlBlockNowait ≠ 0 then (.eagain, res)
  else if flags &&& ldlmFlTestLock ≠ 0 then (.tested (some lock), res)
  else if env.deadlock cur lock then (.edeadlk, res)
  else (.blocked, { res with lrWaiting := res.lrWaiting ++ [cur] })

/-- The scan before the walk, on both passes: a conflict ends the call;
otherwise an `F_GETLK` is answered with `LCK_NL`. `none` means the walk goes
on. -/
def flockScan (env : FlockEnv) (req cur : FlockLock) (flags : UInt64) (intention : LdlmProcessIntention)
    (res : FlockRes) : Option (FlockOutcome × FlockRes) :=
  let conflict := if flags = ldlmFlWaitNoreproc ∨ req.mode = .nl then none else flockConflict cur res.lrGranted
  match conflict with
  | some lock => some (flockOnConflict env req cur flags intention res lock)
  | none =>
    if flags &&& ldlmFlTestLock ≠ 0 then
      some (.tested none, { res with lrWaiting := flockUnlinkReq intention req res.lrWaiting })
    else none

/-- The end of `ldlm_process_flock_lock` after the walk: insert the request
where the walk stopped unless it was merged or is an unlock, and drop it
from `lr_waiting`. Also whether the waiting queue is to be reprocessed. -/
def flockGrant (req : FlockLock) (flags : UInt64) (intention : LdlmProcessIntention) (res : FlockRes)
    (st : FlockMerge) (cursor : List FlockLock) : (FlockOutcome × FlockRes) × Bool :=
  let granted := st.done ++ (if st.added then [] else [st.req]) ++ cursor
  ((.granted, { lrGranted := granted, lrWaiting := flockUnlinkReq intention req res.lrWaiting }),
    flags ≠ ldlmFlWaitNoreproc ∧ intention = .enqueue ∧ req.mode = .nl ∧ st.overlaps ≠ 0)

/-- `goto reprocess`, on the resource as the first pass left it. The client
path and an unlock look for the first of the requester's locks again and
walk from there, keeping the cursor if there is none; the server path
rescans for conflicts and goes on from the cursor. -/
def flockReprocess (env : FlockEnv) (req : FlockLock) (flags : UInt64) (intention : LdlmProcessIntention)
    (res : FlockRes) (st : FlockMerge) (cursor : List FlockLock) : (FlockOutcome × FlockRes) × Bool :=
  let res1 := { res with lrGranted := st.done ++ cursor }
  match flockScan env req st.req flags intention res1 with
  | some r => (r, false)
  | none =>
    let (st1, cursor1) :=
      if flags = ldlmFlWaitNoreproc ∨ req.mode = .nl then
        match res1.lrGranted.findIdx? (fun lock => ldlmSameFlockOwner lock st.req) with
        | some own1 => ({ st with done := res1.lrGranted.take own1 }, res1.lrGranted.drop own1)
        | none => (st, cursor)
      else (st, cursor)
    match flockMergeLoop true req.mode st1 cursor1 with
    | .finished st2 cursor2 => flockGrant req flags intention res1 st2 cursor2
    -- not taken: with the split lock allocated the walk does not stop for it
    | .needNew2 st2 cursor2 => flockGrant req flags intention res1 st2 cursor2

/-- `ldlm_process_flock_lock(req, flags, intention)` up to the reprocessing
of the waiting queue: the outcome, the resource after it, and whether the
waiting queue is to be reprocessed. -/
def flockProcess (env : FlockEnv) (req : FlockLock) (flags : UInt64) (intention : LdlmProcessIntention)
    (res : FlockRes) : (FlockOutcome × FlockRes) × Bool :=
  match flockScan env req req flags intention res with
  | some r => (r, false)
  | none =>
    let own := flockOwnStart req res.lrGranted
    let st0 : FlockMerge :=
      { done := res.lrGranted.take own, new := req, newAt := none, req := req,
        added := req.mode = .nl, overlaps := 0 }
    match flockMergeLoop false req.mode st0 (res.lrGranted.drop own) with
    | .finished st cursor => flockGrant req flags intention res st cursor
    | .needNew2 st cursor =>
      if env.allocOk req then flockReprocess env req flags intention res st cursor
      else ((.allocFailed, { res with lrWaiting := flockUnlinkReq intention req res.lrWaiting }), false)

/-- The return value of the policy: `LDLM_ITER_CONTINUE` for a grant and
for a rescan that leaves the lock waiting or cancels it. -/
def FlockOutcome.iterContinue : FlockOutcome → Bool
  | .granted | .notGranted | .cancelled => true
  | _ => false

/-- `ldlm_reprocess_queue(res, &res->lr_waiting, LDLM_PROCESS_RESCAN)`: the
policy on each lock waiting when it starts, in order, with `flags = 0`,
until one returns `LDLM_ITER_STOP`. -/
def ldlmReprocessQueue (env : FlockEnv) : List FlockLock → FlockRes → FlockRes
  | [], res => res
  | pending :: queue, res =>
    let (outcome, res1) := (flockProcess env pending 0 .rescan res).1
    if outcome.iterContinue then ldlmReprocessQueue env queue res1 else res1

/-- `ldlm_process_flock_lock`, with the reprocessing of the waiting queue
after an unlock. -/
def ldlmProcessFlockLock (env : FlockEnv) (req : FlockLock) (flags : UInt64) (intention : LdlmProcessIntention)
    (res : FlockRes) : FlockOutcome × FlockRes :=
  let ((outcome, res), reprocess) := flockProcess env req flags intention res
  (outcome, if reprocess then ldlmReprocessQueue env res.lrWaiting res else res)

end Lustre.Ldlm
