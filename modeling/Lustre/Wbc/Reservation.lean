import Mathlib
import Lustre.Basic
import Lustre.Lib.Run

/-! # MemFS inode reservations

`lustre/llite/wbc.c`, `memfs.c` and `llite_lib.c`. A client caching a
directory tree in MemFS may be given a limit on the inodes it creates
locally, `wbcc_max_inodes`; `wbcc_free_inodes` counts what is left of it. A
reservation lives in two places: the counter, and the
`WBC_STATE_FL_INODE_RESERVED` flag of the inode that holds it.

* `wbc_cache_enter` takes a reservation (`wbc_reserve_inode`) before a create,
  and `wbc_new_node` creates the inode with the flag set (`wbc_get_inode`);
* a reservation is given back by `wbc_unreserve_inode`, which clears the
  flag and, under a limit, raises the counter. It is reached from removal
  (`memfs_remove_from_dcache`), from decompletion of the parent directory
  (`wbc_inode_unreserve_dput`), from derooting (`wbc_mark_inode_deroot`) and
  from eviction (`ll_delete_inode` → `wbc_free_inode`), each only while the
  flag is set;
* on its error path `wbc_new_node` raises the counter with
  `wbc_reserved_inode_lru_del`, which leaves the flag set.

The faithful layer is the state the reservation code reads and writes, one
function for each C function, and `wbcStep`, the operations of the file
system as one step function for `StepRun.run`. Flushing to the MDT, the
dentry cache and the VFS reference counts are not modelled: the operations
that follow from them (decompleting children, evicting an unpinned inode,
derooting) are steps of their own, taken in any order.

Over it, `Accounted` is what the limit is meant to keep: under a limit, what
has been taken from it is the number of inodes flagged reserved.
`wbcStep_accounted` shows that every step keeps it except two: a create that
fails after `wbc_get_inode`, and setting a limit while flagged inodes exist.
-/

namespace Lustre.Wbc

/-! ## State -/

/-- The two counters of `struct wbc_conf` for the inode limit, `unsigned
long`s. -/
structure WbcConf where
  wbccMaxInodes : UInt64
  wbccFreeInodes : UInt64
  deriving DecidableEq, Repr

/-- An in-core inode as the reservation code sees it: four bits of
`wbci_flags`, whether its flush mode drops the root lock
(`wbc_mode_lock_drop`), the directory its dentry is in, whether the dentry
is instantiated (`d_find_any_alias` finds it) and pinned by the extra
`dget` of `wbc_new_node`, `i_size` (for a directory, the sum of the
`DIRENT64_SIZE`s of its entries), the `wbcd_dirent_num` of its dentry and
the length of its dentry's name. -/
structure WbcInode where
  flProtected : Bool
  flComplete : Bool
  flInodeReserved : Bool
  flRoot : Bool
  lockDrop : Bool
  parent : Nat
  hasAlias : Bool
  pinned : Bool
  iSize : Int
  wbcdDirentNum : UInt32
  dNameLen : Nat
  deriving DecidableEq, Repr

/-- `struct wbc_super`: the limit, `wbcs_rsvd_inode_lru`, and the in-core
inodes by number (`none` once evicted). -/
structure WbcSuper where
  wbcsConf : WbcConf
  wbcsRsvdInodeLru : List Nat
  inodes : List (Option WbcInode)
  deriving DecidableEq, Repr

namespace WbcSuper

/-- The in-core inode `ino`. -/
def inode (s : WbcSuper) (ino : Nat) : Option WbcInode := s.inodes.getD ino none

/-- Change the in-core inode `ino`. -/
def modifyInode (s : WbcSuper) (ino : Nat) (f : WbcInode → WbcInode) : WbcSuper :=
  { s with inodes := s.inodes.set ino ((s.inode ino).map f) }

/-- Change the limit's counters. -/
def setConf (s : WbcSuper) (conf : WbcConf) : WbcSuper := { s with wbcsConf := conf }

variable (s : WbcSuper) (ino : Nat) (f : WbcInode → WbcInode)

@[simp] theorem modifyInode_wbcsConf : (s.modifyInode ino f).wbcsConf = s.wbcsConf := rfl

@[simp] theorem modifyInode_wbcsRsvdInodeLru :
    (s.modifyInode ino f).wbcsRsvdInodeLru = s.wbcsRsvdInodeLru := rfl

@[simp] theorem setConf_wbcsConf (conf : WbcConf) : (s.setConf conf).wbcsConf = conf := rfl

@[simp] theorem setConf_inodes (conf : WbcConf) : (s.setConf conf).inodes = s.inodes := rfl

/-- Past the end of the table there is no inode. -/
theorem inode_of_length_le {s : WbcSuper} {ino : Nat} (h : s.inodes.length ≤ ino) :
    s.inode ino = none := by
  unfold inode
  rw [List.getD_eq_getElem?_getD, List.getElem?_eq_none h]
  rfl

@[simp] theorem inode_modifyInode_self : (s.modifyInode ino f).inode ino = (s.inode ino).map f := by
  rcases Nat.lt_or_ge ino s.inodes.length with h | h
  · simp [modifyInode, inode, List.getD_eq_getElem?_getD, List.getElem?_set_self h]
  · rw [inode_of_length_le h]
    exact inode_of_length_le (by simpa [modifyInode] using h)

end WbcSuper

/-- Whether an inode is flagged reserved: `wbc_inode_reserved`. -/
def reservedOf (i : Option WbcInode) : Bool := i.any (·.flInodeReserved)

/-- The number of in-core inodes flagged reserved. -/
def reservedCount (s : WbcSuper) : Nat := s.inodes.countP reservedOf

/-! ## The counter -/

/-- `wbc_reserve_inode`: under a limit, take one inode from it; `none` for
`-ENOSPC`. -/
def wbcReserveInode (s : WbcSuper) : Option WbcSuper :=
  if s.wbcsConf.wbccMaxInodes ≠ 0 then
    if s.wbcsConf.wbccFreeInodes = 0 then none
    else some (s.setConf { s.wbcsConf with wbccFreeInodes := s.wbcsConf.wbccFreeInodes - 1 })
  else some s

/-- `wbc_unreserve_inode`: clear the flag; under a limit, take the inode off
the reserved LRU and give one back. -/
def wbcUnreserveInode (s : WbcSuper) (ino : Nat) : WbcSuper :=
  let s := s.modifyInode ino fun i => { i with flInodeReserved := false }
  if s.wbcsConf.wbccMaxInodes ≠ 0 then
    { s with wbcsRsvdInodeLru := s.wbcsRsvdInodeLru.erase ino,
             wbcsConf := { s.wbcsConf with wbccFreeInodes := s.wbcsConf.wbccFreeInodes + 1 } }
  else s

/-- `wbc_reserved_inode_lru_add`: under a limit, append the inode to the
reserved LRU. -/
def wbcReservedInodeLruAdd (s : WbcSuper) (ino : Nat) : WbcSuper :=
  if s.wbcsConf.wbccMaxInodes ≠ 0 then { s with wbcsRsvdInodeLru := s.wbcsRsvdInodeLru ++ [ino] }
  else s

/-- `wbc_reserved_inode_lru_del`: under a limit, take the inode off the
reserved LRU and give one back; the flag is left as it is. -/
def wbcReservedInodeLruDel (s : WbcSuper) (ino : Nat) : WbcSuper :=
  if s.wbcsConf.wbccMaxInodes ≠ 0 then
    { s with wbcsRsvdInodeLru := s.wbcsRsvdInodeLru.erase ino,
             wbcsConf := { s.wbcsConf with wbccFreeInodes := s.wbcsConf.wbccFreeInodes + 1 } }
  else s

/-! ## Releasing a reservation -/

/-- `wbc_super_root_del`: `LASSERT` that the inode is a root; the list of
roots is not modelled. -/
def wbcSuperRootDel (s : WbcSuper) (ino : Nat) : Option WbcSuper :=
  if (s.inode ino).any (·.flRoot) then some s else none

/-- `wbc_free_inode`, from `ll_delete_inode`. -/
def wbcFreeInode (s : WbcSuper) (ino : Nat) : Option WbcSuper := do
  let i ← s.inode ino
  let s ← if i.flRoot then wbcSuperRootDel s ino else some s
  return if i.flInodeReserved then wbcUnreserveInode s ino else s

/-- `wbc_inode_unreserve_dput`: give back the reservation and drop the
extra reference on the dentry. -/
def wbcInodeUnreserveDput (s : WbcSuper) (ino : Nat) : WbcSuper :=
  if reservedOf (s.inode ino) then
    let s := s.modifyInode ino fun i => { i with flInodeReserved := false }
    (wbcUnreserveInode s ino).modifyInode ino fun i => { i with pinned := false }
  else s

/-- `wbc_mark_inode_deroot`: the inode leaves the roots, gives back its
reservation and loses every flag. -/
def wbcMarkInodeDeroot (s : WbcSuper) (ino : Nat) : Option WbcSuper := do
  let s ← wbcSuperRootDel s ino
  let s := if reservedOf (s.inode ino) then wbcUnreserveInode s ino else s
  return s.modifyInode ino fun i =>
    { i with flProtected := false, flComplete := false, flInodeReserved := false, flRoot := false }

/-- `wbc_make_inode_decomplete` after the flush, which is not modelled: a
directory without the root lock in lock-drop mode has nothing to do
(`LASSERTF` that it is not protected); otherwise a complete directory is
derooted in lock-drop mode and loses `COMPLETE` in lock-keep mode. -/
def wbcMakeInodeDecomplete (s : WbcSuper) (dir : Nat) : Option WbcSuper := do
  let d ← s.inode dir
  if d.lockDrop ∧ ¬ d.flRoot then
    if d.flProtected then none else some s
  else if ¬ (d.flProtected ∨ d.flComplete ∨ d.flInodeReserved ∨ d.flRoot) ∨ ¬ d.flComplete then
    some s
  else if d.lockDrop then wbcMarkInodeDeroot s dir
  else some (s.modifyInode dir fun d => { d with flComplete := false })

/-! ## Creating -/

/-- `DIRENT64_SIZE(len)`: a `struct linux_dirent64` for a name of `len`
characters, aligned to 8 bytes. -/
def dirent64Size (len : Nat) : Int := ((19 + len + 1 + 7) / 8 * 8 : Nat)

/-- `wbc_dirent_account_inc`. -/
def wbcDirentAccountInc (s : WbcSuper) (dir nameLen : Nat) : WbcSuper :=
  s.modifyInode dir fun d =>
    { d with iSize := d.iSize + dirent64Size nameLen, wbcdDirentNum := d.wbcdDirentNum + 1 }

/-- `wbc_dirent_account_dec`, with its `LASSERT(dir->i_size >= 0)`. -/
def wbcDirentAccountDec (s : WbcSuper) (dir nameLen : Nat) : Option WbcSuper := do
  let d ← s.inode dir
  if d.iSize - dirent64Size nameLen < 0 then none
  else some (s.modifyInode dir fun d =>
    { d with iSize := d.iSize - dirent64Size nameLen, wbcdDirentNum := d.wbcdDirentNum - 1 })

/-- The creates of MemFS, by their `md_op_code`. -/
inductive CreateOpc where
  | mkdir
  | mknod
  | create
  | symlink
  deriving DecidableEq, Repr

/-- How a create through `wbc_new_node` goes: every allocation succeeds, or
the first one to fail. -/
inductive NewNodeOutcome where
  | ok
  /-- `new_inode` fails and `wbc_get_inode` returns `NULL`. -/
  | getInodeNull
  /-- `obd_fid_alloc` fails with `rc` and `wbc_get_inode` returns `ERR_PTR(rc)`. -/
  | getInodeError (rc : Int)
  /-- `wbcfs_d_init` cannot allocate the dentry data. -/
  | dInitFails
  /-- the copy of a symlink's target cannot be allocated. -/
  | symlinkNameFails
  deriving DecidableEq, Repr

/-- The inode `wbc_get_inode` creates in `dir`: protected, complete and
reserved, with the directory's flush mode; a directory starts with the
size of `.` and `..`. The dentry's name is the one being created. -/
def wbcGetInode (d : WbcInode) (dir nameLen : Nat) (opc : CreateOpc) : WbcInode :=
  { flProtected := true, flComplete := true, flInodeReserved := true, flRoot := false,
    lockDrop := d.lockDrop, parent := dir, hasAlias := false, pinned := false,
    iSize := if opc = .mkdir then dirent64Size 1 + dirent64Size 2 else 0, wbcdDirentNum := 0,
    dNameLen := nameLen }

/-- The error path `out_iput` of `wbc_new_node`. -/
def wbcNewNodeOutIput (s : WbcSuper) (dir nameLen ino : Nat) : Option WbcSuper := do
  let s ← wbcDirentAccountDec s dir nameLen
  return wbcReservedInodeLruDel s ino

/-- `wbc_new_node(dir, dchild, tgt, mode, rdev, opc)`; the new inode is
number `s.inodes.length`. A `NULL` from `wbc_get_inode` passes the
`IS_ERR` test and is dereferenced. -/
def wbcNewNode (s : WbcSuper) (dir nameLen : Nat) (opc : CreateOpc) (outcome : NewNodeOutcome) :
    Option (Int × WbcSuper) := do
  let d ← s.inode dir
  if ¬ d.flProtected then none
  match outcome with
  | .getInodeNull => none
  | .getInodeError rc => return (rc, s)
  | .dInitFails =>
    let ino := s.inodes.length
    let s := { s with inodes := s.inodes ++ [some (wbcGetInode d dir nameLen opc)] }
    -- `iput` of an inode no dentry refers to: it stays in core, flagged
    let s ← wbcNewNodeOutIput s dir nameLen ino
    return (-enomem, s)
  | outcome =>
    let ino := s.inodes.length
    let s := { s with inodes := s.inodes ++ [some (wbcGetInode d dir nameLen opc)] }
    let s := wbcReservedInodeLruAdd (wbcDirentAccountInc s dir nameLen) ino
    -- `d_instantiate` and the extra `dget`
    let s := s.modifyInode ino fun i => { i with hasAlias := true, pinned := true }
    if opc = .symlink ∧ outcome = .symlinkNameFails then
      let s ← wbcNewNodeOutIput s dir nameLen ino
      return (-enomem, s)
    else return (0, s)

/-- `wbc_cache_enter(dir, dchild)`: 0 when the directory is not cached
(protected and complete), 1 with a reservation taken; when the limit is
used up the directory is decompleted (`wbc_make_dir_decomplete(dir, parent,
0)`) and the create goes to the MDT. -/
def wbcCacheEnter (s : WbcSuper) (dir : Nat) : Option (Int × WbcSuper) := do
  let d ← s.inode dir
  if ¬ (d.flProtected ∧ d.flComplete) then return (0, s)
  match wbcReserveInode s with
  | some s => return (1, s)
  | none =>
    let s ← wbcMakeInodeDecomplete s dir
    return (0, s)

/-- `memfs_mkdir`, `memfs_mknod`, `memfs_create_nd` and `memfs_symlink`:
`wbc_cache_enter`, then `wbc_new_node` when it reserved an inode. A create
the cache refuses goes to the MDT, which the model does not follow. -/
def memfsCreate (s : WbcSuper) (opc : CreateOpc) (dir nameLen : Nat) (outcome : NewNodeOutcome) :
    Option (Int × WbcSuper) := do
  let (rc, s) ← wbcCacheEnter s dir
  if rc > 0 then wbcNewNode s dir nameLen opc outcome else return (rc, s)

/-! ## Removing -/

/-- `memfs_remove_from_dcache(dir, dchild)`, for `memfs_unlink` and
`memfs_rmdir` in a complete directory: `LASSERT` that the child is
reserved, give the reservation back, undo the dirent accounting. The dentry
is then deleted. In a directory that is not complete the removal goes to the
MDT and `simple_unlink` drops the pin of a reserved child. -/
def memfsRemove (s : WbcSuper) (dir ino : Nat) : Option WbcSuper := do
  let d ← s.inode dir
  if d.flComplete then
    if ¬ reservedOf (s.inode ino) then none
    let s := wbcInodeUnreserveDput s ino
    let s ← wbcDirentAccountDec s dir ((s.inode ino).elim 0 (·.dNameLen))
    return s.modifyInode ino fun i => { i with hasAlias := false }
  else if reservedOf (s.inode ino) then
    return s.modifyInode ino fun i => { i with hasAlias := false, pinned := false }
  else return s

/-! ## Reclaim -/

/-- The loop of `wbc_reclaim_inodes_below(super, low)`: while fewer than
`low` inodes are free, take the oldest inode off the reserved LRU and, when
it has a dentry, decomplete its parent. `fuel` bounds the iterations; each
takes an inode off the list. -/
def reclaimLoop (low : UInt64) : Nat → WbcSuper → Option WbcSuper
  | 0, s => some s
  | fuel + 1, s =>
    if s.wbcsConf.wbccFreeInodes < low then
      match s.wbcsRsvdInodeLru with
      | [] => some s
      | ino :: lru =>
        let s := { s with wbcsRsvdInodeLru := lru }
        match s.inode ino with
        | some i =>
          if i.hasAlias then (wbcMakeInodeDecomplete s i.parent).bind (reclaimLoop low fuel)
          else reclaimLoop low fuel s
        | none => reclaimLoop low fuel s
    else some s

/-- `wbc_reclaim_inodes`: reclaim down to half the limit, the bound taken as
a `__u32`. -/
def wbcReclaimInodes (s : WbcSuper) : Option WbcSuper :=
  reclaimLoop (s.wbcsConf.wbccMaxInodes >>> 1).toUInt32.toUInt64 s.wbcsRsvdInodeLru.length s

/-! ## Configuration -/

/-- The part of `wbc_super_conf_update(super, conf, cmd)` on the inode
limit: `inodesLimit` is the new limit when `WBC_CMD_OP_INODES_LIMIT` is set,
and `pagesRefused` whether the page limit check refuses the command. A limit
may not go below what is in use; the free count moves with the limit. -/
def wbcSuperConfUpdate (s : WbcSuper) (inodesLimit : Option UInt64) (pagesRefused : Bool) :
    Int × WbcSuper :=
  let conf := s.wbcsConf
  match inodesLimit with
  | some maxInodes =>
    if conf.wbccMaxInodes - conf.wbccFreeInodes > maxInodes then (-einval, s)
    else if pagesRefused then (-einval, s)
    else (0, s.setConf ⟨maxInodes, conf.wbccFreeInodes + (maxInodes - conf.wbccMaxInodes)⟩)
  | none => if pagesRefused then (-einval, s) else (0, s)

/-- `wbc_super_disable_cache`, after `wbc_super_shrink_roots`: the
`LASSERTF(max_inodes == free_inodes)`, then both counters are reset. -/
def wbcSuperDisableCache (s : WbcSuper) : Option WbcSuper :=
  if s.wbcsConf.wbccMaxInodes = s.wbcsConf.wbccFreeInodes then some (s.setConf ⟨0, 0⟩) else none

/-! ## Operations -/

/-- The operations on one super block that touch reservations. -/
inductive WbcOp where
  /-- a create in `dir` of a name of `nameLen` characters -/
  | create (opc : CreateOpc) (dir nameLen : Nat) (outcome : NewNodeOutcome)
  /-- unlink or rmdir of `ino` in `dir` -/
  | remove (dir ino : Nat)
  /-- `wbc_inode_unreserve_dput`, as the flush of a decompleted directory
  calls it on a child -/
  | unreserveDput (ino : Nat)
  /-- a pass of the reclaim thread -/
  | reclaim
  /-- `wbc_mark_inode_deroot` of a root -/
  | deroot (ino : Nat)
  /-- `ll_delete_inode` of an inode nothing pins -/
  | evict (ino : Nat)
  /-- `WBC_CMD_CONFIG` or `WBC_CMD_CHANGE` -/
  | confUpdate (inodesLimit : Option UInt64) (pagesRefused : Bool)
  /-- `WBC_CMD_DISABLE` -/
  | disable
  deriving DecidableEq, Repr

/-- One operation: its return code and the state after it; `none` for a
failed assertion or a `NULL` dereference. Eviction of a pinned or absent
inode does not happen and leaves the state alone. -/
def wbcStep (s : WbcSuper) : WbcOp → Option (Int × WbcSuper)
  | .create opc dir nameLen outcome => memfsCreate s opc dir nameLen outcome
  | .remove dir ino => (memfsRemove s dir ino).map (0, ·)
  | .unreserveDput ino => some (0, wbcInodeUnreserveDput s ino)
  | .reclaim => (wbcReclaimInodes s).map (0, ·)
  | .deroot ino => (wbcMarkInodeDeroot s ino).map (0, ·)
  | .evict ino =>
    match s.inode ino with
    | some i =>
      if i.pinned then some (0, s)
      else (wbcFreeInode s ino).map fun s => (0, { s with inodes := s.inodes.set ino none })
    | none => some (0, s)
  | .confUpdate inodesLimit pagesRefused => some (wbcSuperConfUpdate s inodesLimit pagesRefused)
  | .disable => (wbcSuperDisableCache s).map (0, ·)

end Lustre.Wbc
