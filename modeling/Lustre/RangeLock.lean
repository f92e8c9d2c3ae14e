import Mathlib
import Lustre.Basic

/-! # Range locks

`lustre/obdclass/range_lock.c`. A range lock tree serialises the writers of
overlapping page ranges of one file. `range_lock` counts the locks of the
tree that overlap the new lock, inserts it with the next sequence number and
sleeps until that count, `rl_blocking_ranges`, is zero; `range_unlock` takes
a lock out and takes one off the count of each later lock that overlaps it,
waking those that reach zero.

The interval tree of `INTERVAL_TREE_DEFINE` is the list of its nodes in the
order of their starts; `range_lock_iter_first` and `range_lock_iter_next`
over `[start, last]` visit, in that order, exactly the nodes with
`START(node) <= last && start <= LAST(node)`. A lock is a value whose id
stands for its address; its task is the process in `rl_task`, `none` for
`NULL`. The spin lock `rlt_lock` makes each block of code between taking and
dropping it one step, and the tasks' steps interleave at `schedule()`; which
locks' tasks have returned 0 from `range_lock` and not unlocked yet is kept
beside the tree. `rl_blocking_ranges` (an `unsigned int`) and the sequence
numbers (`__u64`) are `Nat`: the count is at most the number of locks in the
tree and the sequence the number of `range_lock` calls, both far below the
wrap.
-/

namespace Lustre.Obdclass

/-- `struct range_lock`, without its tree links. -/
structure RangeLock where
  rlId : Nat
  rlStart : Nat
  rlEnd : Nat
  rlTask : Option Nat
  rlBlockingRanges : Nat
  rlSequence : Nat
  deriving DecidableEq, Repr

/-- `struct range_lock_tree`: its nodes in order, and the last sequence
number given. -/
structure RangeLockTree where
  rltRoot : List RangeLock
  rltSequence : Nat
  deriving DecidableEq, Repr

/-- `range_lock_tree_init(tree)`. -/
def rangeLockTreeInit : RangeLockTree := ⟨[], 0⟩

/-- `range_lock_init(lock, start, end)` of the node at `id`: byte offsets
become page indices, and `LUSTRE_EOF` stays as it is. -/
def rangeLockInit (id start last : Nat) : RangeLock :=
  let start := start >>> pageShift
  let last := if last ≠ lustreEof then last >>> pageShift else last
  { rlId := id, rlStart := start, rlEnd := last, rlTask := none, rlBlockingRanges := 0, rlSequence := 0 }

/-- `START(node) <= last && start <= LAST(node)`: the node meets
`[start, last]`. -/
def rangeOverlaps (node : RangeLock) (start last : Nat) : Bool :=
  decide (node.rlStart ≤ last) && decide (start ≤ node.rlEnd)

/-- The nodes that `range_lock_iter_first(root, start, last)` and then
`range_lock_iter_next` visit. -/
def rangeLockIter (root : List RangeLock) (start last : Nat) : List RangeLock :=
  root.filter fun node => rangeOverlaps node start last

/-- `range_lock_insert(lock, root)`: the descent goes left of a node of a
greater start and right otherwise. -/
def rangeLockInsert (lock : RangeLock) : List RangeLock → List RangeLock
  | [] => [lock]
  | node :: rest => if lock.rlStart < node.rlStart then lock :: node :: rest else node :: rangeLockInsert lock rest

/-- `range_lock_remove(lock, root)`. -/
def rangeLockRemove (lock : RangeLock) (root : List RangeLock) : List RangeLock :=
  root.filter (·.rlId ≠ lock.rlId)

/-- The overlaps of `lock` that the loop of `range_unlock` takes one off:
those queued after it. -/
def unlockDrops (lock node : RangeLock) : Bool :=
  rangeOverlaps node lock.rlStart lock.rlEnd && decide (node.rlSequence > lock.rlSequence)

/-- `--overlap->rl_blocking_ranges` on an overlap the loop takes one off. -/
def unlockVisit (lock node : RangeLock) : RangeLock :=
  if unlockDrops lock node then { node with rlBlockingRanges := node.rlBlockingRanges - 1 } else node

/-- `range_unlock(tree, lock)`: the tasks given to `wake_up_process`, in
order, and the tree. -/
def rangeUnlock (tree : RangeLockTree) (lock : RangeLock) : List (Option Nat) × RangeLockTree :=
  let root := rangeLockRemove lock tree.rltRoot
  -- an overlap that reaches zero has its task woken
  let woken := (root.filter fun node => unlockDrops lock node && decide (node.rlBlockingRanges - 1 = 0)).map (·.rlTask)
  (woken, { tree with rltRoot := root.map (unlockVisit lock) })

/-- The first block of `range_lock(tree, lock)` by the task `current`, under
the spin lock: count the overlaps in the tree, insert the lock, give it the
next sequence number, and, if it is blocked, record the task that will
sleep. The node in the tree is the lock itself, so it is inserted with what
the block writes to it. -/
def rangeLockEnqueue (tree : RangeLockTree) (current : Nat) (lock : RangeLock) : RangeLock × RangeLockTree :=
  let lock := { lock with
    rlBlockingRanges := lock.rlBlockingRanges + (rangeLockIter tree.rltRoot lock.rlStart lock.rlEnd).length }
  let seq := tree.rltSequence + 1
  let lock := { lock with rlSequence := seq }
  let lock := if lock.rlBlockingRanges > 0 then { lock with rlTask := some current } else lock
  (lock, { rltRoot := rangeLockInsert lock tree.rltRoot, rltSequence := seq })

/-! ## The tasks around one tree -/

/-- A range lock tree and the locks whose tasks hold them: `range_lock`
returned 0 for them and they are not unlocked yet. The other locks of the
tree have their tasks in the loop of `range_lock`. -/
structure RangeLockSys where
  rlsTree : RangeLockTree
  rlsHolding : List Nat
  deriving DecidableEq, Repr

/-- The lock at an address, if it is in the tree. -/
def lookupLock (s : RangeLockSys) (id : Nat) : Option RangeLock :=
  s.rlsTree.rltRoot.find? (·.rlId = id)

/-- What a task does. -/
inductive RangeLockOp where
  /-- `range_lock_init(lock, start, last)` and `range_lock(tree, lock)` by
  `task`, up to its first `schedule()` or its return -/
  | lock (task id start last : Nat)
  /-- the task of a waiting lock back from `schedule()`, with a signal
  pending or not -/
  | wake (id : Nat) (signal : Bool)
  /-- `range_unlock(tree, lock)` by the task that holds the lock -/
  | unlock (id : Nat)
  deriving DecidableEq, Repr

/-- What a step returns. -/
inductive RangeLockRet where
  /-- `range_lock` returns `rc`, after its `range_unlock` woke `woken` -/
  | returned (rc : Int) (woken : List (Option Nat))
  /-- the task sleeps in `schedule()` -/
  | sleeping
  /-- `range_unlock` returns, having woken `woken` -/
  | unlocked (woken : List (Option Nat))
  deriving DecidableEq, Repr

/-- One step of a task. A node inserted while in the tree, or unlocked while
not in it, corrupts the tree: `none`. -/
def rangeLockStep (s : RangeLockSys) : RangeLockOp → Option (RangeLockRet × RangeLockSys)
  | .lock task id start last =>
    if (lookupLock s id).isSome then none
    else
      let (lock, tree) := rangeLockEnqueue s.rlsTree task (rangeLockInit id start last)
      -- while (lock->rl_blocking_ranges > 0)
      if lock.rlBlockingRanges > 0 then some (.sleeping, { s with rlsTree := tree })
      else some (.returned 0 [], { rlsTree := tree, rlsHolding := id :: s.rlsHolding })
  | .wake id signal =>
    match lookupLock s id with
    | none => none
    | some lock =>
      if signal then
        let (woken, tree) := rangeUnlock s.rlsTree lock
        some (.returned (-erestartsys) woken, { s with rlsTree := tree })
      else if lock.rlBlockingRanges > 0 then some (.sleeping, s)
      else some (.returned 0 [], { s with rlsHolding := id :: s.rlsHolding })
  | .unlock id =>
    match lookupLock s id with
    | none => none
    | some lock =>
      let (woken, tree) := rangeUnlock s.rlsTree lock
      some (.unlocked woken, { rlsTree := tree, rlsHolding := s.rlsHolding.erase id })

end Lustre.Obdclass
