import Mathlib
import Lustre.Basic
import Lustre.Wbc.Reservation

/-! # MemFS page accounting

`lustre/llite/memfs.c`, `llite_wbc.c`, `llite_lib.c` and `wbc.c`. Under a
page limit `wbcc_max_pages`, the pages MemFS caches are counted in the
percpu counter `wbcc_used_pages`. `wbc_inode_acct_page` charges a page
before `memfs_write_getpage` allocates it, and `wbc_inode_unacct_pages`
refunds it on each failure of the allocation; `memfs_setattr` refunds the
pages a shrinking truncate drops; the data commit (`wbc_commit_data_lustre`,
`wbc_commit_data_pcc`) and the final release of an inode
(`wbc_free_inode_pages_final`) refund what the mapping holds then.
`wbc_inode_acct_page` also refuses a page past `wbcc_max_nrpages_per_file`.

The operations on one inode are serialized by its `i_rwsem` and each is one
step here, but for the allocation: `wbc_inode_acct_page` compares the counter
with the limit and adds to it with no lock held between, so
`memfs_write_getpage` is two steps, the lookup with the checks
(`memfsGetpageCheck`) and the charge with the rest (`memfsGetpageAlloc`),
and other inodes' operations come in between.

The state is the part of `struct wbc_conf` for pages and, for each inode,
the indices of the pages of its mapping, `i_size`, two bits of
`wbci_flags`, `wbci_cache_mode` and `i_nlink`; an inode with neither bit is
`WBC_STATE_FL_NONE`. Whether the allocator, `add_to_page_cache_lru` and the
data commit succeed are inputs, and so are the pages the Lustre commit
discards when it fails. `ll_data_in_lustre` is taken with `lli_clob` set,
and a failing `setattr_prepare`, which leaves everything as it was, is left
out.
-/

namespace Lustre.Wbc

/-- `PAGE_SIZE`. -/
def memfsPageSize : Nat := 4096

/-! ## State -/

/-- `wbci_cache_mode`. -/
inductive WbcCacheMode where
  | none
  | memfs
  | dataPcc
  deriving DecidableEq, Repr

/-- An in-core inode as the page accounting sees it: the indices of the
pages of `i_mapping` (`nrpages` is their number), `i_size`,
`WBC_STATE_FL_PROTECTED` and `WBC_STATE_FL_DATA_COMMITTED`, the cache mode
and `i_nlink`. -/
structure MemfsInode where
  pages : List Nat
  iSize : Nat
  flProtected : Bool
  flDataCommitted : Bool
  wbciCacheMode : WbcCacheMode
  iNlink : Nat
  deriving DecidableEq, Repr

/-- A `memfs_write_getpage` of page `index` of inode `ino` past its checks,
and whether `wbcc_max_pages` was set when they were made, so that it is to
be charged. -/
structure GetpageCall where
  ino : Nat
  index : Nat
  charge : Bool
  deriving DecidableEq, Repr

/-- The page limits and the counter of `struct wbc_conf` (`wbcc_used_pages`
is an `s64`), the in-core inodes by number (`none` once evicted), and the
allocations in flight. -/
structure MemfsSuper where
  wbccMaxPages : Nat
  wbccMaxNrpagesPerFile : Nat
  wbccUsedPages : Int
  inodes : List (Option MemfsInode)
  getpages : List GetpageCall
  deriving DecidableEq, Repr

/-- `mapping->nrpages`. -/
def MemfsInode.nrpages (inode : MemfsInode) : Nat := inode.pages.length

/-- `wbc_inode_none(wbci)`. -/
def MemfsInode.wbcInodeNone (inode : MemfsInode) : Bool := !inode.flProtected && !inode.flDataCommitted

/-- `wbc_inode_data_caching(wbci)`: the data is in MemFS. -/
def MemfsInode.wbcInodeDataCaching (inode : MemfsInode) : Bool := inode.flProtected && !inode.flDataCommitted

/-- `ll_data_in_lustre(inode)`. -/
def MemfsInode.llDataInLustre (inode : MemfsInode) : Bool := inode.wbcInodeNone || inode.flDataCommitted

/-- The inode numbered `ino`, if it is in core. -/
def MemfsSuper.inodeAt (sb : MemfsSuper) (ino : Nat) : Option MemfsInode := (sb.inodes[ino]?).join

/-- Write back the inode numbered `ino`. -/
def MemfsSuper.setInode (sb : MemfsSuper) (ino : Nat) (inode : MemfsInode) : MemfsSuper :=
  { sb with inodes := sb.inodes.set ino (some inode) }

/-! ## The counter -/

/-- The checks of `wbc_inode_acct_page(inode, nr_pages)`: the file's limit,
then, under a page limit, `percpu_counter_compare(&wbcc_used_pages,
wbcc_max_pages - nr_pages) > 0`. -/
def wbcInodeAcctPageCheck (sb : MemfsSuper) (inode : MemfsInode) (nrPages : Nat) : Bool :=
  if inode.nrpages + nrPages > sb.wbccMaxNrpagesPerFile then false
  else if sb.wbccMaxPages ≠ 0 then !decide (sb.wbccUsedPages > (sb.wbccMaxPages : Int) - nrPages)
  else true

/-- `percpu_counter_add(&wbcc_used_pages, nr_pages)`, the rest of
`wbc_inode_acct_page` under a page limit. -/
def wbcUsedPagesAdd (sb : MemfsSuper) (nrPages : Nat) : MemfsSuper :=
  { sb with wbccUsedPages := sb.wbccUsedPages + nrPages }

/-- `wbc_inode_unacct_pages(inode, nr_pages)`. -/
def wbcInodeUnacctPages (sb : MemfsSuper) (nrPages : Nat) : MemfsSuper :=
  if sb.wbccMaxPages ≠ 0 then { sb with wbccUsedPages := sb.wbccUsedPages - nrPages } else sb

/-! ## Allocation -/

/-- `memfs_write_getpage(inode, index)` up to the charge: a page that
`find_lock_page` finds is returned (0); otherwise `wbc_inode_acct_page`
refuses with `-ENOSPC`, or the call goes on (nothing returned yet). -/
def memfsGetpageCheck (sb : MemfsSuper) (ino index : Nat) : Option (Option Int × MemfsSuper) :=
  (sb.inodeAt ino).map fun inode =>
    if index ∈ inode.pages then (some 0, sb)
    else if wbcInodeAcctPageCheck sb inode 1 then
      (none, { sb with getpages := sb.getpages ++ [⟨ino, index, sb.wbccMaxPages ≠ 0⟩] })
    else (some (-enospc), sb)

/-- The rest of `memfs_write_getpage` for the call in flight at `k`: the
charge, `__page_cache_alloc` (`allocOk`), and `add_to_page_cache_lru`, which
fails with `-EEXIST` on a page already there and otherwise as `addOk` says,
each failure refunding the page; after `-EEXIST` the lookup is made again and
finds the page. -/
def memfsGetpageAlloc (sb : MemfsSuper) (k : Nat) (allocOk addOk : Bool) : Option (Option Int × MemfsSuper) :=
  match sb.getpages[k]? with
  | none => none
  | some call =>
    let sb := { sb with getpages := sb.getpages.eraseIdx k }
    let sb := if call.charge then wbcUsedPagesAdd sb 1 else sb
    (sb.inodeAt call.ino).map fun inode =>
      if !allocOk then (some (-enomem), wbcInodeUnacctPages sb 1)
      else if call.index ∈ inode.pages then (some 0, wbcInodeUnacctPages sb 1)
      else if !addOk then (some (-enomem), wbcInodeUnacctPages sb 1)
      else (some 0, sb.setInode call.ino { inode with pages := call.index :: inode.pages })

/-- `memfs_write_end`: a copy past `i_size` extends it. -/
def memfsWriteEnd (sb : MemfsSuper) (ino pos copied : Nat) : Option MemfsSuper :=
  (sb.inodeAt ino).map fun inode =>
    if pos + copied > inode.iSize then sb.setInode ino { inode with iSize := pos + copied } else sb

/-! ## Truncation, commit and release -/

/-- `truncate_setsize(inode, size)`: the pages from `size` on are dropped. -/
def truncateSetsize (inode : MemfsInode) (size : Nat) : MemfsInode :=
  { inode with iSize := size, pages := inode.pages.filter fun i => decide (i * memfsPageSize < size) }

/-- The size change of `memfs_setattr`: a file whose data is in MemFS is
truncated, and what a shrinking truncate drops is refunded. -/
def memfsSetattr (sb : MemfsSuper) (ino size : Nat) : Option MemfsSuper :=
  (sb.inodeAt ino).map fun inode =>
    -- the data of an inode that is not protected, or committed, is in Lustre
    if inode.flProtected && !inode.flDataCommitted then
      let sb' := sb.setInode ino (truncateSetsize inode size)
      if size < inode.iSize then
        wbcInodeUnacctPages sb' (inode.nrpages - (truncateSetsize inode size).nrpages)
      else sb'
    else sb

/-- The common tail of `wbc_commit_data_lustre` and `wbc_commit_data_pcc`:
`WBC_STATE_FL_DATA_COMMITTED` is set and what the mapping holds is refunded. -/
def wbcCommitDataDone (sb : MemfsSuper) (ino : Nat) (inode : MemfsInode) : MemfsSuper :=
  wbcInodeUnacctPages (sb.setInode ino { inode with flDataCommitted := true }) inode.nrpages

/-- `wbcfs_commit_cache_pages(inode)`: nothing for data already in Lustre;
for PCC, a failing `pcc_wbc_commit_data` keeps the data in MemFS; the
Lustre commit, failing, discards the pages in `discarded` and commits all
the same. -/
def wbcfsCommitCachePages (sb : MemfsSuper) (ino : Nat) (ok : Bool) (discarded : List Nat) :
    Option (Int × MemfsSuper) :=
  (sb.inodeAt ino).map fun inode =>
    if inode.flDataCommitted || inode.wbcInodeNone then (0, sb)
    else match inode.wbciCacheMode with
      | .memfs =>
        let inode := if ok then inode else { inode with pages := inode.pages.filter (· ∉ discarded) }
        (if ok then inode.nrpages else - eio, wbcCommitDataDone sb ino inode)
      | .dataPcc => if ok then (inode.nrpages, wbcCommitDataDone sb ino inode) else (- eio, sb)
      | .none => (-eopnotsupp, sb)

/-- `wbc_free_inode_pages_final(inode, mapping)`. -/
def wbcFreeInodePagesFinal (sb : MemfsSuper) (ino : Nat) (ok : Bool) (discarded : List Nat) :
    Option MemfsSuper :=
  (sb.inodeAt ino).bind fun inode =>
    if inode.flProtected then
      -- LASSERT(wbc_cache_mode_dop(wbci)) for committed data
      if inode.flDataCommitted && inode.wbciCacheMode ≠ .dataPcc then none
      else if inode.iNlink ≠ 0 then (wbcfsCommitCachePages sb ino ok discarded).map (·.2)
      else some (wbcInodeUnacctPages sb inode.nrpages)
    else some sb

/-- The eviction of an inode (`ll_clear_inode`): data not in Lustre goes
through `wbc_free_inode_pages_final`, then the mapping is emptied and the
inode is gone. -/
def memfsEvictInode (sb : MemfsSuper) (ino : Nat) (ok : Bool) (discarded : List Nat) :
    Option MemfsSuper :=
  (sb.inodeAt ino).bind fun inode =>
    let sb' := if inode.llDataInLustre then some sb else wbcFreeInodePagesFinal sb ino ok discarded
    sb'.map fun sb => { sb with inodes := sb.inodes.set ino none }

/-- `drop_nlink` by an unlink in MemFS. -/
def memfsDropNlink (sb : MemfsSuper) (ino : Nat) : Option MemfsSuper :=
  (sb.inodeAt ino).map fun inode => sb.setInode ino { inode with iNlink := inode.iNlink - 1 }

/-- The page part of `wbc_super_conf_update`: `WBC_CMD_OP_PAGES_LIMIT`,
refused below the pages in use, and `WBC_CMD_OP_MAX_NRPAGES_PER_FILE`. -/
def wbcSuperConfUpdatePages (sb : MemfsSuper) (maxPages maxNrpagesPerFile : Option Nat) : Int × MemfsSuper :=
  match maxPages with
  | some m =>
    if sb.wbccUsedPages > m then (-einval, sb)
    else (0, { sb with wbccMaxPages := m, wbccMaxNrpagesPerFile := maxNrpagesPerFile.getD sb.wbccMaxNrpagesPerFile })
  | none => (0, { sb with wbccMaxNrpagesPerFile := maxNrpagesPerFile.getD sb.wbccMaxNrpagesPerFile })

/-! ## Operations -/

/-- The MemFS data operations on one super block. -/
inductive MemfsPageOp where
  /-- `memfs_write_getpage` of page `index`, up to the charge -/
  | getpageCheck (ino index : Nat)
  /-- the rest of the allocation in flight at `k` -/
  | getpageAlloc (k : Nat) (allocOk addOk : Bool)
  | writeEnd (ino pos copied : Nat)
  | setattr (ino size : Nat)
  | commit (ino : Nat) (ok : Bool) (discarded : List Nat)
  | evict (ino : Nat) (ok : Bool) (discarded : List Nat)
  | unlink (ino : Nat)
  | confUpdate (maxPages maxNrpagesPerFile : Option Nat)
  deriving DecidableEq, Repr

/-- One operation; the return value is the error code, if any. -/
def memfsPageStep (sb : MemfsSuper) : MemfsPageOp → Option (Option Int × MemfsSuper)
  | .getpageCheck ino index => memfsGetpageCheck sb ino index
  | .getpageAlloc k allocOk addOk => memfsGetpageAlloc sb k allocOk addOk
  | .writeEnd ino pos copied => (memfsWriteEnd sb ino pos copied).map (none, ·)
  | .setattr ino size => (memfsSetattr sb ino size).map (none, ·)
  | .commit ino ok discarded => (wbcfsCommitCachePages sb ino ok discarded).map fun (rc, sb) => (some rc, sb)
  | .evict ino ok discarded => (memfsEvictInode sb ino ok discarded).map (none, ·)
  | .unlink ino => (memfsDropNlink sb ino).map (none, ·)
  | .confUpdate maxPages maxNrpagesPerFile =>
    let (rc, sb) := wbcSuperConfUpdatePages sb maxPages maxNrpagesPerFile
    some (some rc, sb)

/-- No allocation is in flight on inode `ino`: its `i_rwsem` is free. -/
def MemfsSuper.idle (sb : MemfsSuper) (ino : Nat) : Prop := ∀ call ∈ sb.getpages, call.ino ≠ ino

instance (sb : MemfsSuper) (ino : Nat) : Decidable (sb.idle ino) :=
  inferInstanceAs (Decidable (∀ call ∈ sb.getpages, call.ino ≠ ino))

/-- What the callers guarantee: an operation on an inode holds its
`i_rwsem`, so it waits for an allocation in flight on it;
`memfs_write_begin` is only called on an inode whose data is in MemFS
(`LASSERT(wbc_inode_data_caching(wbci))`); and the page limit stays set. -/
def MemfsPageAllowed (sb : MemfsSuper) : MemfsPageOp → Prop
  | .getpageCheck ino _ => sb.idle ino ∧ (sb.inodeAt ino).any MemfsInode.wbcInodeDataCaching = true
  | .getpageAlloc _ _ _ => True
  | .writeEnd ino _ _ => sb.idle ino
  | .setattr ino _ => sb.idle ino
  | .commit ino _ _ => sb.idle ino
  | .evict ino _ _ => sb.idle ino
  | .unlink ino => sb.idle ino
  | .confUpdate maxPages _ => maxPages ≠ some 0

instance memfsPageAllowedDecidable (sb : MemfsSuper) : (op : MemfsPageOp) → Decidable (MemfsPageAllowed sb op)
  | .getpageCheck ino _ =>
    inferInstanceAs (Decidable (sb.idle ino ∧ (sb.inodeAt ino).any MemfsInode.wbcInodeDataCaching = true))
  | .getpageAlloc _ _ _ => isTrue trivial
  | .writeEnd ino _ _ => inferInstanceAs (Decidable (sb.idle ino))
  | .setattr ino _ => inferInstanceAs (Decidable (sb.idle ino))
  | .commit ino _ _ => inferInstanceAs (Decidable (sb.idle ino))
  | .evict ino _ _ => inferInstanceAs (Decidable (sb.idle ino))
  | .unlink ino => inferInstanceAs (Decidable (sb.idle ino))
  | .confUpdate maxPages _ => inferInstanceAs (Decidable (maxPages ≠ some 0))

end Lustre.Wbc
