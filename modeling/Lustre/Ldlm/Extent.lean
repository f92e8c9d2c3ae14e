import Mathlib
import Lustre.IntervalTree
import Lustre.Ldlm.Mode

/-! # Extent locks: the grant policy and the known minimum size

`lustre/ldlm/ldlm_extent.c`. A resource keeps its granted extent locks in
one interval tree per mode (`lr_itree[LCK_MODE_NUM]`, tree `idx` for the mode
`1 << idx`); a node of a tree is a `struct ldlm_interval`, whose data is the
group of locks with that extent (`li_group`).

* `ldlm_extent_policy` grows the extent of a lock about to be granted: as
  far as the conflicting granted locks allow (`_policy_granted`, through
  `interval_expand`), then clear of the conflicting waiting locks
  (`_policy_waiting`), and each time rounds it to the request's alignment
  (`_policy_fixup`). `PAGE_SIZE`, the server's page size, is a parameter.
* `ldlm_extent_shift_kms` finds the known minimum size a cancelled lock
  leaves: the highest end, plus one, of the other locks.

`LASSERT`s and `LASSERTF`s that fail make the function return `none`.
-/

namespace Lustre.Ldlm

open BinTree Lustre.IntervalTree

/-- `OBD_OBJECT_EOF`. -/
def ldlmObdObjectEof : UInt64 := 0xFFFFFFFFFFFFFFFF

/-- `LDLM_FL_LOCK_CHANGED`. -/
def ldlmFlLockChanged : UInt64 := 0x0000000000000001

/-- `LDLM_FL_NO_EXPANSION`. -/
def ldlmFlNoExpansion : UInt64 := 0x0000000020000000

/-- `LDLM_FL_KMS_IGNORE`. -/
def ldlmFlKmsIgnore : UInt64 := 0x0000040000000000

/-- `LDLM_MAX_GROWN_EXTENT`. -/
def ldlmMaxGrownExtent : UInt64 := 32 * 1024 * 1024 - 1

/-- `struct ldlm_extent`, without the group id. -/
structure LdlmExtent where
  start : UInt64
  end_ : UInt64
  deriving DecidableEq, Repr

/-- The fields of `struct ldlm_lock` the extent policy and the KMS shift
read; `lHandle` is the lock itself, which `req == lock` compares and
`ldlm_set_kms_ignore` finds in its group, and `lExport` is `l_export`, `none`
for a lock the server takes for itself. -/
structure LdlmLock where
  lHandle : Nat
  lReqMode : LdlmMode
  lGrantedMode : LdlmMode
  lReqExtent : LdlmExtent
  lPolicyExtent : LdlmExtent
  lExport : Option Nat
  lFlags : UInt64
  deriving DecidableEq, Repr

/-- `struct ldlm_interval_tree`. -/
structure LdlmIntervalTree where
  litSize : Nat
  litMode : LdlmMode
  litRoot : BinTree.Tree (IntervalNode (List LdlmLock))
  deriving DecidableEq, Repr

/-- The parts of `struct ldlm_resource` the extent policy reads: the trees
of granted locks, `lr_itree`, and the waiting queue, `lr_waiting`. -/
structure LdlmResource where
  lrItree : List LdlmIntervalTree
  lrWaiting : List LdlmLock
  deriving DecidableEq, Repr

/-- `ldlm_is_kms_ignore(lock)`. -/
def ldlmIsKmsIgnore (lock : LdlmLock) : Bool := lock.lFlags &&& ldlmFlKmsIgnore ≠ 0

/-- `ldlm_extent_overlap(ex1, ex2)`. -/
def ldlmExtentOverlap (ex1 ex2 : LdlmExtent) : Bool := ex1.start ≤ ex2.end_ && ex2.start ≤ ex1.end_

/-! ## The grant policy -/

/-- `while ((req_align & mask) == 0) mask <<= 1;`, for at most `fuel`
passes. -/
def growMask (reqAlign : UInt64) : UInt64 → Nat → UInt64
  | mask, 0 => mask
  | mask, fuel + 1 => if reqAlign &&& mask = 0 then growMask reqAlign (mask <<< 1) fuel else mask

/-- `ldlm_extent_internal_policy_fixup(req, new_ex, conflicting)`: under
contention a write lock grows at most `LDLM_MAX_GROWN_EXTENT` past its start;
then, unless it is the whole file, the extent shrinks to the alignment of the
request, at least `PAGE_SIZE`. `none` when one of its two `LASSERTF`s
fails. -/
def ldlmExtentInternalPolicyFixup (pageSize : UInt64) (req : LdlmLock) (newEx : LdlmExtent) (conflicting : Nat) :
    Option LdlmExtent :=
  let reqMode := req.lReqMode
  let reqStart := req.lReqExtent.start
  let reqEnd := req.lReqExtent.end_
  let newEx :=
    if conflicting > 32 ∧ (reqMode = .pw ∨ reqMode = .cw) ∧ reqEnd < reqStart + ldlmMaxGrownExtent then
      { newEx with end_ := min (reqStart + ldlmMaxGrownExtent) newEx.end_ }
    else newEx
  if newEx.start = 0 ∧ newEx.end_ = ldlmObdObjectEof then some newEx
  else
    let reqAlign := (reqEnd + 1) ||| reqStart
    let mask :=
      if reqAlign ≠ 0 ∧ reqAlign &&& (pageSize - 1) = 0 then growMask reqAlign pageSize 64 else pageSize
    let mask := mask - 1
    -- shrink only: round the start up and the end down
    let start := ((newEx.start - 1) ||| mask) + 1
    let end_ := ((newEx.end_ + 1) &&& ~~~mask) - 1
    if start ≤ reqStart ∧ end_ ≥ reqEnd then some ⟨start, end_⟩ else none

/-- The loop of `ldlm_extent_internal_policy_granted` over the trees, with
the limiter and the number of conflicting locks so far; it stops once the
limiter is down to the request. `none` when `interval_expand` asserts. -/
def policyGrantedLoop (req : LdlmLock) :
    List LdlmIntervalTree → IntervalNodeExtent → Nat → Option (IntervalNodeExtent × Nat)
  | [], limiter, conflicting => some (limiter, conflicting)
  | tree :: rest, limiter, conflicting =>
    if lockmodeCompat tree.litMode req.lReqMode then policyGrantedLoop req rest limiter conflicting
    else
      let conflicting := conflicting + tree.litSize
      let limiter := if conflicting > 4 then { limiter with start := req.lReqExtent.start } else limiter
      match intervalExpand tree.litRoot ⟨req.lReqExtent.start, req.lReqExtent.end_⟩ (some limiter) with
      | none => none
      | some ext =>
        let limiter : IntervalNodeExtent := ⟨max limiter.start ext.start, min limiter.end_ ext.end_⟩
        if limiter.start = req.lReqExtent.start ∧ limiter.end_ = req.lReqExtent.end_ then some (limiter, conflicting)
        else policyGrantedLoop req rest limiter conflicting

/-- `ldlm_extent_internal_policy_granted(req, new_ex)`. -/
def ldlmExtentInternalPolicyGranted (pageSize : UInt64) (res : LdlmResource) (req : LdlmLock) (newEx : LdlmExtent) :
    Option LdlmExtent :=
  match policyGrantedLoop req res.lrItree ⟨newEx.start, newEx.end_⟩ 0 with
  | none => none
  | some (limiter, conflicting) =>
    if limiter.start ≤ req.lReqExtent.start ∧ limiter.end_ ≥ req.lReqExtent.end_ then
      ldlmExtentInternalPolicyFixup pageSize req ⟨limiter.start, limiter.end_⟩ conflicting
    else none

/-- The loop of `ldlm_extent_internal_policy_waiting` over the waiting
queue, with the extent and the number of conflicting locks so far; `none` in
the second place when it returns at once because the extent is down to the
request, which skips the fixup. -/
def policyWaitingLoop (req : LdlmLock) : List LdlmLock → LdlmExtent → Nat → LdlmExtent × Option Nat
  | [], newEx, conflicting => (newEx, some conflicting)
  | lock :: rest, newEx, conflicting =>
    let reqStart := req.lReqExtent.start
    let reqEnd := req.lReqExtent.end_
    let lExtent := lock.lPolicyExtent
    if newEx.start = reqStart ∧ newEx.end_ = reqEnd then (newEx, none)
    else if req.lHandle = lock.lHandle then policyWaitingLoop req rest newEx conflicting
    else if lockmodeCompat lock.lReqMode req.lReqMode ∧ lock.lExport ≠ req.lExport then
      policyWaitingLoop req rest newEx conflicting
    else
      let conflicting := conflicting + 1
      let newEx := if conflicting > 4 then { newEx with start := reqStart } else newEx
      if !ldlmExtentOverlap lExtent newEx then policyWaitingLoop req rest newEx conflicting
      else if ldlmExtentOverlap lock.lReqExtent req.lReqExtent then policyWaitingLoop req rest newEx conflicting
      else
        -- grow down only as far as the other lock, and up to its start or its request
        let newEx :=
          if lExtent.start < reqStart ∧ newEx.start ≠ reqStart then
            { newEx with start := if lExtent.end_ ≥ reqStart then reqStart else min (lExtent.end_ + 1) reqStart }
          else newEx
        let newEx :=
          if lExtent.end_ > reqEnd then
            { newEx with
              end_ := if lExtent.start ≤ reqEnd then max (lock.lReqExtent.start - 1) reqEnd
                else max (lExtent.start - 1) reqEnd }
          else newEx
        policyWaitingLoop req rest newEx conflicting

/-- `ldlm_extent_internal_policy_waiting(req, new_ex)`. -/
def ldlmExtentInternalPolicyWaiting (pageSize : UInt64) (res : LdlmResource) (req : LdlmLock) (newEx : LdlmExtent) :
    Option LdlmExtent :=
  match policyWaitingLoop req res.lrWaiting newEx 0 with
  | (newEx, none) => some newEx
  | (newEx, some conflicting) => ldlmExtentInternalPolicyFixup pageSize req newEx conflicting

/-- `ldlm_extent_policy(res, lock, flags)`: the lock with the extent it is
granted, and the flags with `LDLM_FL_LOCK_CHANGED` if that extent is not the
one it asked for. -/
def ldlmExtentPolicy (pageSize : UInt64) (res : LdlmResource) (lock : LdlmLock) (flags : UInt64) :
    Option (LdlmLock × UInt64) :=
  if lock.lExport = none then some (lock, flags)
  else if lock.lPolicyExtent.start = 0 ∧ lock.lPolicyExtent.end_ = ldlmObdObjectEof then some (lock, flags)
  else
    let newEx :=
      if lock.lFlags &&& ldlmFlNoExpansion = 0 then
        (ldlmExtentInternalPolicyGranted pageSize res lock ⟨0, ldlmObdObjectEof⟩).bind
          (ldlmExtentInternalPolicyWaiting pageSize res lock)
      else ldlmExtentInternalPolicyFixup pageSize lock lock.lPolicyExtent 0
    match newEx with
    | none => none
    | some newEx =>
      if newEx = lock.lPolicyExtent then some (lock, flags)
      else some ({ lock with lPolicyExtent := newEx }, flags ||| ldlmFlLockChanged)

/-! ### An unaligned request

A lock that may not grow and asks for one 4 KiB page, on a server with 64 KiB
pages: the fixup rounds the start up to 64 KiB, past the request, and its
`LASSERTF` fails. -/

/-- The locks granted in a resource's trees. -/
def grantedLocks (trees : List LdlmIntervalTree) : List LdlmLock :=
  trees.flatMap fun tree => tree.litRoot.toList.flatMap (·.data)

/-- A lock of a client, granted in the mode it asked for, on `[s, e]`. -/
def clientLock (h : Nat) (mode : LdlmMode) (s e : UInt64) (flags : UInt64) : LdlmLock :=
  { lHandle := h, lReqMode := mode, lGrantedMode := mode, lReqExtent := ⟨s, e⟩, lPolicyExtent := ⟨s, e⟩,
    lExport := some h, lFlags := flags }

/-- A tree of one mode that holds one lock. -/
def oneLockTree (mode : LdlmMode) (lock : LdlmLock) : LdlmIntervalTree :=
  { litSize := 1, litMode := mode,
    litRoot := .node .nil ⟨lock.lPolicyExtent.end_, ⟨lock.lPolicyExtent.start, lock.lPolicyExtent.end_⟩, [lock]⟩ .nil }

/-- An empty tree of one mode. -/
def emptyTree (mode : LdlmMode) : LdlmIntervalTree := { litSize := 0, litMode := mode, litRoot := .nil }

/-- A `PW` lock on the 4 KiB page `[4096, 8191]` that may not grow, as a
client with 4 KiB pages asks for it. -/
def pageLock : LdlmLock := clientLock 1 .pw 4096 8191 ldlmFlNoExpansion

/-- On a server with 64 KiB pages, the fixup of a request for one 4 KiB page
rounds the start up to 65536, past the request's start, and its `LASSERTF`
fails; so does `ldlm_extent_policy` of that request on an empty resource. -/
theorem ldlm_extent_policy_fixup_unaligned_lbug :
    pageLock.lReqExtent.start ≤ pageLock.lReqExtent.end_ ∧
      ldlmExtentInternalPolicyFixup 65536 pageLock ⟨4096, 8191⟩ 0 = none ∧
      ldlmExtentPolicy 65536 ⟨[], []⟩ pageLock 0 = none := by
  decide

/-! ## The known minimum size -/

/-- `struct ldlm_kms_shift_args`. -/
structure LdlmKmsShiftArgs where
  oldKms : UInt64
  kms : UInt64
  complete : Bool
  deriving DecidableEq, Repr

/-- `ldlm_kms_shift_cb(n, args)`: the first lock of the node's group without
`LDLM_FL_KMS_IGNORE` ends the search with the old KMS if it reaches it, and
otherwise raises the KMS to its end plus one; a `PW` lock ends the walk of
its tree. -/
def ldlmKmsShiftCb (arg : LdlmKmsShiftArgs) (n : IntervalNode (List LdlmLock)) : LdlmKmsShiftArgs × IntervalIter :=
  match n.data.find? fun l => !ldlmIsKmsIgnore l with
  | none => (arg, .cont)
  | some lock =>
    if lock.lPolicyExtent.end_ = ldlmObdObjectEof ∨ lock.lPolicyExtent.end_ + 1 ≥ arg.oldKms then
      ({ arg with kms := arg.oldKms, complete := true }, .stop)
    else
      let arg := if lock.lPolicyExtent.end_ + 1 > arg.kms then { arg with kms := lock.lPolicyExtent.end_ + 1 } else arg
      if lock.lGrantedMode = .pw then (arg, .stop) else (arg, .cont)

/-- `ldlm_set_kms_ignore(lock)` on the lock in the group that holds it. -/
def ldlmSetKmsIgnore (lock : LdlmLock) (trees : List LdlmIntervalTree) : List LdlmIntervalTree :=
  trees.map fun tree =>
    { tree with
      litRoot := tree.litRoot.map fun n =>
        { n with data := n.data.map fun l => if l.lHandle = lock.lHandle then { l with lFlags := l.lFlags ||| ldlmFlKmsIgnore } else l } }

/-- The loop of `ldlm_extent_shift_kms` over the trees: a tree whose highest
end is at most the KMS found so far is skipped, and a complete search stops. -/
def shiftKmsLoop : List LdlmIntervalTree → LdlmKmsShiftArgs → LdlmKmsShiftArgs
  | [], args => args
  | tree :: rest, args =>
    match tree.litRoot with
    | .nil => shiftKmsLoop rest args
    | .node _ root _ =>
      if args.kms ≥ root.inMaxHigh then shiftKmsLoop rest args
      else
        let args := (intervalIterateReverse tree.litRoot ldlmKmsShiftCb args).1
        if args.complete then args else shiftKmsLoop rest args

/-- `ldlm_extent_shift_kms(lock, old_kms)` on the lock's resource, with the
trees the lock is marked in. -/
def ldlmExtentShiftKms (trees : List LdlmIntervalTree) (lock : LdlmLock) (oldKms : UInt64) :
    Option (UInt64 × List LdlmIntervalTree) :=
  let trees := ldlmSetKmsIgnore lock trees
  let args := shiftKmsLoop trees ⟨oldKms, 0, false⟩
  if args.kms ≤ args.oldKms then some (args.kms, trees) else none

/-! ### A tree skipped at an equal end

When a `PR` lock is cancelled, the `EX` tree gives a KMS of 50, and the `PW`
tree, whose highest end is exactly 50, is skipped, though its lock on
`[50, 50]` protects 51 bytes. -/

/-- An `EX` lock on `[0, 49]`. -/
def exLock : LdlmLock := clientLock 1 .ex 0 49 0

/-- A `PW` lock on `[50, 50]`. -/
def pwLock : LdlmLock := clientLock 2 .pw 50 50 0

/-- The `PR` lock on `[60, 99]` that is cancelled. -/
def prLock : LdlmLock := clientLock 3 .pr 60 99 0

/-- The trees of a resource with the three locks, in `lr_itree` order. -/
def kmsTrees : List LdlmIntervalTree :=
  [oneLockTree .ex exLock, oneLockTree .pw pwLock, oneLockTree .pr prLock, emptyTree .cw, emptyTree .cr,
    emptyTree .nl, emptyTree .group, emptyTree .cos]

/-- Cancelling the `PR` lock with a KMS of 100 gives 50: the `PW` tree is
skipped because its highest end, 50, is not above the KMS 50 found in the
`EX` tree, though its granted lock on `[50, 50]`, without
`LDLM_FL_KMS_IGNORE`, protects 51 bytes. -/
theorem ldlm_extent_shift_kms_skips_equal_end :
    (ldlmExtentShiftKms kmsTrees prLock 100).map Prod.fst = some 50 ∧
      pwLock ∈ grantedLocks kmsTrees ∧ pwLock.lHandle ≠ prLock.lHandle ∧ ldlmIsKmsIgnore pwLock = false ∧
      pwLock.lPolicyExtent.end_ ≠ ldlmObdObjectEof ∧ pwLock.lPolicyExtent.end_ + 1 = 51 := by
  decide

end Lustre.Ldlm
