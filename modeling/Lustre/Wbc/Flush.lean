import Mathlib
import Lustre.Wbc.Reservation

/-! # Flushing a cached directory

`lustre/llite/wbc.c`. `wbc_flush_dir` writes a directory back to the MDT:
under the directory's `d_lock` it pins each live child (`dget_dlock`) and
queues it on `dirty_children_list`; every `wbcc_max_qlen` children (when
that is not 0) and once at the end, `wbc_flush_dir_children` sends the queue
in one batch, taking each child off the queue and unpinning it as it is
flushed. `wbc_make_inode_deroot` and `wbc_make_inode_decomplete` flush a
directory and then change its flags.

What the MDT and the RPC machinery answer is given by `FlushOutcomes`: the
result of each child's flush, of each attempt to set up the flush context,
of each commit, and of the final steps. The flush context of
`wbcfs_context_init` is `inited` and the number of attempts and commits so
far; a context set up lazily (`lazy_init`) cannot fail. A child dentry is
its number, with whether it is live (positive and hashed) and whether its
inode is protected; the pins are the references `dget_dlock` took and
`dput` has not dropped.
-/

namespace Lustre.Wbc

/-- What the MDT and the RPC machinery answer during one flush. -/
structure FlushOutcomes where
  /-- `wbc_inode_update_metadata` of the directory -/
  updateRc : Int
  /-- the `n`-th `wbcfs_context_init` that is not lazy -/
  initRc : Nat → Int
  /-- `wbcfs_flush_dir_child` of each child -/
  childRc : Nat → Int
  /-- the `n`-th `wbcfs_context_commit` -/
  commitRc : Nat → Int
  /-- `wbc_reopen_file_handler` of the directory -/
  reopenRc : Int
  /-- `wbcfs_context_fini` of a context that was set up -/
  finiRc : Int

/-- A child dentry in `d_subdirs`. -/
structure WbcChild where
  dentry : Nat
  /-- `d_inode` is set and the dentry is hashed -/
  live : Bool
  /-- `wbc_inode_has_protected` of its inode, and it has WBC dentry data -/
  hasProtected : Bool
  deriving DecidableEq, Repr

/-- The state of one flush: the pins taken, `dirty_children_list`, the
children flushed in order, and the flush context. -/
structure FlushState where
  pins : List Nat
  dirty : List Nat
  flushed : List Nat
  inited : Bool
  inits : Nat
  commits : Nat
  deriving DecidableEq, Repr

/-- A flush before anything is pinned, with a context set up lazily. -/
def FlushState.init : FlushState :=
  { pins := [], dirty := [], flushed := [], inited := false, inits := 0, commits := 0 }

/-- `wbcfs_context_prepare(sb, ctx)`: set the context up unless it is. -/
def wbcfsContextPrepare (o : FlushOutcomes) (st : FlushState) : Int × FlushState :=
  if st.inited then (0, st)
  else
    let rc := o.initRc st.inits
    (rc, { st with inited := rc = 0, inits := st.inits + 1 })

/-- `wbcfs_context_commit(sb, ctx)`. -/
def wbcfsContextCommit (o : FlushOutcomes) (st : FlushState) : Int × FlushState :=
  (o.commitRc st.commits, { st with commits := st.commits + 1 })

/-- `wbcfs_context_fini(sb, ctx)`: nothing to wait for unless set up. -/
def wbcfsContextFini (o : FlushOutcomes) (st : FlushState) : Int :=
  if st.inited then o.finiRc else 0

/-- The loop of `wbc_flush_dir_children` over `childlist`: each child is
taken off the list, flushed and unpinned; the first failure returns with
the rest of the list still queued and pinned. -/
def flushChildrenLoop (o : FlushOutcomes) : List Nat → FlushState → Int × FlushState
  | [], st => (0, st)
  | c :: rest, st =>
    let st := { st with dirty := rest, flushed := st.flushed ++ [c], pins := st.pins.erase c }
    if o.childRc c ≠ 0 then (o.childRc c, st) else flushChildrenLoop o rest st

/-- `wbc_flush_dir_children(ctx, dir, childlist, lock, wbcx)`. -/
def wbcFlushDirChildren (o : FlushOutcomes) (st : FlushState) : Int × FlushState :=
  let (rc, st) := wbcfsContextPrepare o st
  if rc ≠ 0 then (rc, st)
  else
    let (rc, st) := flushChildrenLoop o st.dirty st
    if rc ≠ 0 then (rc, st) else wbcfsContextCommit o st

/-- `wbc_dirty_queue_need_unplug(conf, count)`. -/
def wbcDirtyQueueNeedUnplug (maxQlen count : UInt32) : Bool := maxQlen > 0 && count > maxQlen

/-- The loop of `wbc_flush_dir` over `d_subdirs`: each live child is pinned
and queued, and a full queue is sent; `none` when the `LASSERT` on a child,
or the one that the queue is empty after a batch, fails. The result of a
batch is kept in `rc` until the next assignment. -/
def flushDirLoop (o : FlushOutcomes) (maxQlen : UInt32) :
    List WbcChild → UInt32 → Int × FlushState → Option (Int × FlushState)
  | [], _, r => some r
  | child :: children, count, (rc, st) =>
    if ¬ child.live then flushDirLoop o maxQlen children count (rc, st)
    else if ¬ child.hasProtected then none
    else
      let st := { st with pins := st.pins ++ [child.dentry], dirty := st.dirty ++ [child.dentry] }
      let count := count + 1
      if wbcDirtyQueueNeedUnplug maxQlen count then
        let (rc, st) := wbcFlushDirChildren o st
        if st.dirty ≠ [] then none
        else flushDirLoop o maxQlen children 0 (rc, st)
      else flushDirLoop o maxQlen children count (rc, st)

/-- `wbc_flush_dir(dir, lock, wbcx)` of a directory whose dentry has the
children `children` (none when `d_find_any_alias` finds no dentry);
`decompleteKeep` is `wbcx->for_decomplete && wbc_mode_lock_keep(dir)`.
The result is the return code and the flush's state; `none` when an
`LASSERT` fails. -/
def wbcFlushDir (o : FlushOutcomes) (maxQlen : UInt32) (decompleteKeep : Bool)
    (children : Option (List WbcChild)) : Option (Int × FlushState) :=
  if o.updateRc ≠ 0 then some (o.updateRc, .init)
  else match children with
  | none => some (0, .init)
  | some children => do
    let (_, st) ← flushDirLoop o maxQlen children 0 (0, .init)
    -- the last batch, whose result replaces that of every earlier one
    let (rc, st) := wbcFlushDirChildren o st
    if st.dirty ≠ [] then none
    let rc := if rc = 0 ∧ ¬ decompleteKeep then o.reopenRc else rc
    let rc2 := wbcfsContextFini o st
    let rc := if rc2 ≠ 0 ∧ rc = 0 then rc2 else rc
    return (rc, st)

/-- `wbc_make_inode_deroot(inode, lock, wbcx)` of the directory `ino`:
`LASSERT` that it is a root, the flush, then `wbc_mark_inode_deroot`
whatever the flush returned. -/
def wbcMakeInodeDerootFlush (s : WbcSuper) (ino : Nat) (o : FlushOutcomes) (maxQlen : UInt32)
    (decompleteKeep : Bool) (children : Option (List WbcChild)) : Option (Int × FlushState × WbcSuper) := do
  let i ← s.inode ino
  if ¬ i.flRoot then none
  let (rc, fs) ← wbcFlushDir o maxQlen decompleteKeep children
  let s ← wbcMarkInodeDeroot s ino
  return (rc, fs, s)

/-- `wbc_make_inode_decomplete(inode, unrsv_children)` of the directory
`dir` with its flush: nothing to do for a directory without its root lock
in lock-drop mode (`LASSERTF` that it is not protected) or one that is not
complete; otherwise the flush for decompletion, then, whatever it returned,
the directory is derooted in lock-drop mode and loses `COMPLETE` otherwise,
as `wbcMakeInodeDecomplete` of the reservation model does. -/
def wbcMakeInodeDecompleteFlush (s : WbcSuper) (dir : Nat) (o : FlushOutcomes) (maxQlen : UInt32)
    (children : Option (List WbcChild)) : Option (Int × Option FlushState × WbcSuper) := do
  let d ← s.inode dir
  if d.lockDrop ∧ ¬ d.flRoot then
    if d.flProtected then none else return (0, none, s)
  if ¬ (d.flProtected ∨ d.flComplete ∨ d.flInodeReserved ∨ d.flRoot) ∨ ¬ d.flComplete then
    return (0, none, s)
  let (rc, fs) ← wbcFlushDir o maxQlen (¬ d.lockDrop) children
  let s ← wbcMakeInodeDecomplete s dir
  return (rc, some fs, s)

end Lustre.Wbc
