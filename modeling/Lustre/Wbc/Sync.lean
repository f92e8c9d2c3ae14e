import Mathlib

/-! # Writing a cached tree out to the MDT

`lustre/llite/wbc.c`. A tree created in MemFS exists only on the client
until its inodes are written out to the MDT, and an inode can only be
created there once its parent has been. Two paths write inodes out:

* `wbc_make_inode_sync(dentry)`, behind `fsync`: it walks up from the dentry
  to the first ancestor that is written out (`wbc_inode_written_out`: `SYNC`
  set, or no flag at all), marking each inode on the way `WRITEBACK` and
  putting it at the head of a list, then `wbc_flush_ancestors_topdown` syncs
  the list from its head, the topmost ancestor first;
* `wbc_writeback_sb_inodes`, the background flusher: it takes inodes off the
  `b_io` list and writes each one out, stopping at the first whose parent
  `wbc_inode_check_parent` does not report written out.

Writing out one inode (`sync_inode`, `write_inode`, then `wbc_write_inode`
and the MDT request) is one step here, `writeInode`. The MDT's reply is a
parameter, and success sets `SYNC`. The waits of `wbc_make_inode_sync` for
other threads are parameters too (`SyncEnv`): the flags an inode has once
another flusher, or the writeback thread, lets go of it. Theorems about them
hold for every such environment.

`SyncState.writes` is a record the code does not keep: each inode written
out, with its own flags and its parent's at that moment. The order of
writes is stated over it.
-/

namespace Lustre.Wbc

/-! ## Flags -/

/-- `enum lu_wbc_state_flags`: the bits of `wbci_flags`. -/
structure WbcFlags where
  flProtected : Bool
  flSync : Bool
  flComplete : Bool
  flRoot : Bool
  flInodeReserved : Bool
  flDataCommitted : Bool
  flWriteback : Bool
  flFreeing : Bool
  deriving DecidableEq, Repr

/-- `WBC_STATE_FL_NONE`: no bit set, the inode is not cached. -/
def WbcFlags.flNone : WbcFlags := ⟨false, false, false, false, false, false, false, false⟩

/-- `wbc_inode_was_flushed`. -/
def wbcInodeWasFlushed (f : WbcFlags) : Bool := f.flSync

/-- `wbc_inode_written_out`: the metadata is on the MDT. -/
def wbcInodeWrittenOut (f : WbcFlags) : Bool := f.flSync || f == WbcFlags.flNone

/-! ## State -/

/-- An in-core inode and its dentry as the flush paths see them: the flags,
the `I_SYNC`, `I_DIRTY`, `I_NEW`, `I_FREEING` and `I_WILL_FREE` bits of
`i_state`, whether the flush mode drops the root lock
(`wbc_mode_lock_drop`), the inode of `d_parent`, whether
`d_find_any_alias` finds a dentry, and the super block. -/
structure SyncInode where
  wbciFlags : WbcFlags
  iSync : Bool
  iDirty : Bool
  iNew : Bool
  iFreeing : Bool
  iWillFree : Bool
  lockDrop : Bool
  dParent : Nat
  hasAlias : Bool
  iSb : Nat
  deriving DecidableEq, Repr

/-- One write of an inode to the MDT: the inode, its flags and its parent's
flags when it was written. -/
structure WbcWrite where
  ino : Nat
  flags : WbcFlags
  parentFlags : WbcFlags
  deriving DecidableEq, Repr

/-- The in-core inodes by number, and the record of writes to the MDT. -/
structure SyncState where
  inode : Nat → SyncInode
  writes : List WbcWrite

namespace SyncState

/-- Change the flags of an inode. -/
def setFlags (s : SyncState) (ino : Nat) (f : WbcFlags) : SyncState :=
  { s with inode := Function.update s.inode ino { s.inode ino with wbciFlags := f } }

/-- Change the `i_state` bits `I_SYNC` and `I_DIRTY` of an inode. -/
def setState (s : SyncState) (ino : Nat) (iSync iDirty : Bool) : SyncState :=
  { s with inode := Function.update s.inode ino { s.inode ino with iSync := iSync, iDirty := iDirty } }

/-- The flags of an inode's parent. -/
def parentFlags (s : SyncState) (ino : Nat) : WbcFlags := (s.inode (s.inode ino).dParent).wbciFlags

variable (s : SyncState) (ino : Nat)

@[simp] theorem setFlags_writes (f : WbcFlags) : (s.setFlags ino f).writes = s.writes := rfl

@[simp] theorem setState_writes (a b : Bool) : (s.setState ino a b).writes = s.writes := rfl

@[simp] theorem setFlags_inode_self (f : WbcFlags) :
    (s.setFlags ino f).inode ino = { s.inode ino with wbciFlags := f } := by
  simp [setFlags]

theorem setFlags_inode_ne (f : WbcFlags) {j : Nat} (h : j ≠ ino) : (s.setFlags ino f).inode j = s.inode j := by
  simp [setFlags, Function.update_of_ne h]

@[simp] theorem setFlags_dParent (f : WbcFlags) (j : Nat) :
    ((s.setFlags ino f).inode j).dParent = (s.inode j).dParent := by
  by_cases h : j = ino
  · subst h
    simp
  · rw [setFlags_inode_ne s ino f h]

@[simp] theorem setState_dParent (a b : Bool) (j : Nat) :
    ((s.setState ino a b).inode j).dParent = (s.inode j).dParent := by
  by_cases h : j = ino
  · subst h
    simp [setState]
  · simp [setState, Function.update_of_ne h]

end SyncState

/-- One inode written out to the MDT (`write_inode`, through
`wbc_write_inode`); `rc` is the MDT's answer for each inode, and success
marks it `SYNC`. -/
def writeInode (rc : Nat → Int) (s : SyncState) (ino : Nat) : Int × SyncState :=
  let s' := { s with writes := s.writes ++ [⟨ino, (s.inode ino).wbciFlags, s.parentFlags ino⟩] }
  if rc ino = 0 then (0, s'.setFlags ino { (s.inode ino).wbciFlags with flSync := true })
  else (rc ino, s')

/-! ## `wbc_make_inode_sync` -/

/-- What other threads do while `wbc_make_inode_sync` waits on an inode, and
what the MDT answers. -/
structure SyncEnv where
  /-- the flags once the flusher holding `WRITEBACK` lets go
  (`__wbc_inode_wait_for_writeback`) -/
  afterFlush : Nat → WbcFlags
  /-- the flags once the writeback thread clears `I_SYNC`
  (`__inode_wait_for_writeback`) -/
  afterISync : Nat → WbcFlags
  rc : Nat → Int

/-- How `wbc_make_inode_sync` can fail to return: an `LASSERT`, or a walk
longer than the fuel allows. -/
inductive SyncFault where
  | lbug
  | noFuel
  deriving DecidableEq, Repr

/-- `wbc_sync_addroot_lockdrop`: a root in lock-drop mode where the walk
stops is synced too, first. -/
def wbcSyncAddrootLockdrop (s : SyncState) (d : Nat) (fsync : List Nat) :
    Except SyncFault (SyncState × List Nat) :=
  let f := (s.inode d).wbciFlags
  if (s.inode d).lockDrop ∧ f.flRoot then
    if ¬ f.flProtected then .error .lbug
    else .ok (s.setFlags d { f with flWriteback := true }, d :: fsync)
  else .ok (s, fsync)

/-- The `for (;;)` loop of `wbc_make_inode_sync`, from dentry `d`, with the
list `fsync_list` built so far. -/
def wbcMakeSyncLoop (env : SyncEnv) : Nat → SyncState → Nat → List Nat →
    Except SyncFault (SyncState × List Nat)
  | 0, _, _, _ => .error .noFuel
  | fuel + 1, s, d, fsync =>
    if wbcInodeWrittenOut (s.inode d).wbciFlags then wbcSyncAddrootLockdrop s d fsync
    else
      -- another flusher holds the inode: once it lets go, the inode must be flushed
      let waited := (s.inode d).wbciFlags.flWriteback
      let s := if waited then s.setFlags d (env.afterFlush d) else s
      if waited ∧ ¬ wbcInodeWasFlushed (s.inode d).wbciFlags then .error .lbug
      else if wbcInodeWrittenOut (s.inode d).wbciFlags then wbcSyncAddrootLockdrop s d fsync
      else
        -- the writeback thread holds the inode: wait for `I_SYNC` to clear
        let s := if (s.inode d).iSync then
          (s.setFlags d (env.afterISync d)).setState d false (s.inode d).iDirty else s
        if wbcInodeWrittenOut (s.inode d).wbciFlags then wbcSyncAddrootLockdrop s d fsync
        else
          let s' := s.setFlags d { (s.inode d).wbciFlags with flWriteback := true }
          wbcMakeSyncLoop env fuel s' (s.inode d).dParent (d :: fsync)

/-- `wbc_flush_ancestors_topdown`: sync the list from its head while no sync
has failed, clearing `WRITEBACK` on every inode of it. -/
def wbcFlushAncestorsTopdown (env : SyncEnv) : SyncState → List Nat → Int → SyncState × Int
  | s, [], rc => (s, rc)
  | s, d :: fsync, rc =>
    let (rc, s) := if rc = 0 then writeInode env.rc s d else (rc, s)
    let s := s.setFlags d { (s.inode d).wbciFlags with flWriteback := false }
    wbcFlushAncestorsTopdown env s fsync rc

/-- `wbc_make_inode_sync(dentry)`; `fuel` bounds the walk up. -/
def wbcMakeInodeSync (env : SyncEnv) (fuel : Nat) (s : SyncState) (d : Nat) :
    Except SyncFault (SyncState × Int) := do
  let (s, fsync) ← wbcMakeSyncLoop env fuel s d []
  return wbcFlushAncestorsTopdown env s fsync 0

/-! ## The background flusher -/

/-- `wbc_inode_check_parent(inode)`. When the parent is cached and not yet
synced, neither branch assigns `result`, and the function returns the
indeterminate value of the uninitialised local: `garbage`. -/
def wbcInodeCheckParent (garbage : Bool) (s : SyncState) (ino : Nat) : Bool :=
  if ¬ (s.inode ino).hasAlias then false
  else
    let f := s.parentFlags ino
    if f = WbcFlags.flNone then true
    else if f.flSync then true
    else garbage

/-- `__writeback_single_inode`: clear `I_DIRTY`, and write the inode out if
its metadata was dirty. -/
def writebackSingleInode (rc : Nat → Int) (s : SyncState) (ino : Nat) : SyncState :=
  let dirty := (s.inode ino).iDirty
  let s := s.setState ino (s.inode ino).iSync false
  if dirty then (writeInode rc s ino).2 else s

/-- The loop of `wbc_writeback_sb_inodes(sb, wb, work, wbc)` over `b_io`, in
the order it takes inodes (`b_io.prev` first); `workSb` is whether
`work->sb` is set, `b_dirty` is where `redirty_tail` moves inodes, and
`fuel` bounds the iterations. Returns the state and the two lists. -/
def wbcWritebackSbInodes (garbage : Bool) (rc : Nat → Int) (sb : Nat) (workSb : Bool) :
    Nat → SyncState → List Nat → List Nat → SyncState × List Nat × List Nat
  | 0, s, bIo, bDirty => (s, bIo, bDirty)
  | _ + 1, s, [], bDirty => (s, [], bDirty)
  | fuel + 1, s, ino :: bIo, bDirty =>
    let i := s.inode ino
    if i.iSb ≠ sb then
      if workSb then wbcWritebackSbInodes garbage rc sb workSb fuel s bIo (bDirty ++ [ino])
      else (s, ino :: bIo, bDirty)
    else if ¬ wbcInodeCheckParent garbage s ino then (s, ino :: bIo, bDirty)
    else if i.iNew ∨ i.iFreeing ∨ i.iWillFree then
      wbcWritebackSbInodes garbage rc sb workSb fuel s bIo (bDirty ++ [ino])
    else if i.iSync ∨ i.wbciFlags.flWriteback then (s, ino :: bIo, bDirty)
    else
      let s := writebackSingleInode rc (s.setState ino true i.iDirty) ino
      -- `requeue_inode`, then `inode_sync_complete` clears `I_SYNC`
      let j := s.inode ino
      let s' := s.setState ino false j.iDirty
      if j.iFreeing then wbcWritebackSbInodes garbage rc sb workSb fuel s' (ino :: bIo) bDirty
      else if j.iDirty then wbcWritebackSbInodes garbage rc sb workSb fuel s' bIo (bDirty ++ [ino])
      else wbcWritebackSbInodes garbage rc sb workSb fuel s' bIo bDirty

end Lustre.Wbc
