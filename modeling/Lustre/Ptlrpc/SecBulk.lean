import Mathlib
import Lustre.Basic
import Lustre.Lib.PagedArray

/-! # The bulk encryption page pool

`lustre/ptlrpc/sec_bulk.c`. The pool keeps `epp_total_pages` pages in pool
arrays of `PAGES_PER_POOL` slots each, hung off the table `epp_pools` of
`epp_max_pools` entries. The free pages are a stack: slot `k` (slot
`k % PAGES_PER_POOL` of array `k / PAGES_PER_POOL`) holds a page exactly
when `k < epp_free_pages`. `sptlrpc_enc_pool_get_pages` pops a
descriptor's worth of pages into its `bd_enc_vec`, and
`sptlrpc_enc_pool_put_pages` pushes them back; `enc_pools_add_pages` fills
new arrays with fresh pages and `enc_pools_insert` merges them in, and
`enc_pools_shrink_scan` frees free pages from the top of the stack through
`enc_pools_release_free_pages`.

The table is `PagedArray.Table`: a read or write past the table or through
a missing array is a fault, as is a failed `LASSERT`, and both are `none`.
`PAGES_PER_POOL` is `P` and `PTLRPC_MAX_BRW_PAGES` is `maxBrw`. The lock is
held throughout each function here: where `get_pages` drops it to grow the
pools or to sleep, it ends with `again`, and the growth is a call of
`enc_pools_add_pages` of its own. The allocator is an argument: the pages
`alloc_page` hands out, in order, running out where an allocation fails.
The idle index, the wait queue, `epp_pages_short`, `epp_growing` and the
statistics are left out; the debug messages too.
-/

namespace Lustre.Ptlrpc

open PagedArray

/-- `struct ptlrpc_enc_page_pool`: the limits, the counts and the table of
pool arrays. -/
structure PtlrpcEncPagePool (Page : Type) where
  eppMaxPages : Nat
  eppMaxPools : Nat
  eppTotalPages : Nat
  eppFreePages : Nat
  eppPools : Table Page

/-- The part of `struct ptlrpc_bulk_desc` the pool reads and writes:
`bd_enc_vec` holds `bd_iov_count` pages while it is there. -/
structure PtlrpcBulkDesc (Page : Type) where
  bdIovCount : Nat
  bdEncVec : Option (List Page)

variable {Page : Type}

/-- `npages_to_npools`. -/
def npagesToNpools (P npages : Nat) : Nat := (npages + P - 1) / P

/-! ## The slot loops -/

/-- The loop `sptlrpc_enc_pool_get_pages` and
`enc_pools_release_free_pages` share: `n` pages taken from the slots from
the cursor on, each slot cleared. -/
def takeSlots (P M : Nat) : Nat → Table Page → Nat × Nat → List Page → Option (Table Page × List Page)
  | 0, t, _, taken => some (t, taken)
  | n + 1, t, (p, g), taken =>
    -- LASSERT(page_pools.epp_pools[p_idx][g_idx] != NULL)
    match read M t p g with
    | some (some pg) => takeSlots P M n (setSlot t p g none) (advance P (p, g)) (taken ++ [pg])
    | _ => none

/-- The loop of `sptlrpc_enc_pool_put_pages`: the pages put in the slots
from the cursor on, each of which must be empty. -/
def putSlots (P M : Nat) : List Page → Table Page → Nat × Nat → Option (Table Page)
  | [], t, _ => some t
  | pg :: vec, t, (p, g) =>
    -- LASSERT(page_pools.epp_pools[p_idx][g_idx] == NULL)
    match read M t p g with
    | some none => putSlots P M vec (setSlot t p g (some pg)) (advance P (p, g))
    | _ => none

/-- The second loop of `enc_pools_release_free_pages`: `n` pool arrays
freed, from `p_idx_max2` down. -/
def freePools (M : Nat) : Nat → Table Page → Nat → Option (Table Page)
  | 0, t, _ => some t
  | n + 1, t, i =>
    -- LASSERT(page_pools.epp_pools[p_idx_max2])
    if i < M ∧ (t i).isSome then freePools M n (Function.update t i none) (i - 1) else none

/-- Step (1) of `enc_pools_insert`: the free slots from the cursor on
filled with new pages taken from the end of the new arrays `nt`, until the
free slots or the new pages run out. -/
def insertFill (P M npools : Nat) :
    Nat → Table Page → Table Page → Nat × Nat → Nat × Nat → Option (Table Page × Table Page)
  | 0, t, nt, _, _ => some (t, nt)
  | freeslot + 1, t, nt, (op, og), (np, ng) =>
    -- LASSERT(page_pools.epp_pools[op_idx][og_idx] == NULL);
    -- LASSERT(pools[np_idx][ng_idx] != NULL)
    match read M t op og, read npools nt np ng with
    | some none, some (some pg) =>
      let t := setSlot t op og (some pg)
      let nt := setSlot nt np ng none
      if ng = 0 then
        if np = 0 then some (t, nt)
        else insertFill P M npools freeslot t nt (advance P (op, og)) (np - 1, P - 1)
      else insertFill P M npools freeslot t nt (advance P (op, og)) (np, ng - 1)
    | _, _ => none

/-- Step (2) of `enc_pools_insert`: `n` new arrays, from `np_idx` on, hung
off the table from `cur_npools` on. -/
def insertAppend (M npools : Nat) : Nat → Table Page → Table Page → Nat → Nat → Option (Table Page × Table Page)
  | 0, t, nt, _, _ => some (t, nt)
  | n + 1, t, nt, cur, np =>
    -- LASSERT(page_pools.epp_pools[cur_npools] == NULL); LASSERT(np_idx < npools);
    -- LASSERT(pools[np_idx] != NULL)
    if cur < M ∧ (t cur).isNone ∧ np < npools ∧ (nt np).isSome then
      insertAppend M npools n (Function.update t cur (nt np)) (Function.update nt np none) (cur + 1) (np + 1)
    else none

/-! ## The pool functions -/

section Pool

variable (P : Nat)

/-- `enc_pools_release_free_pages(npages)`: the pool after, and the pages
freed. -/
def encPoolsReleaseFreePages (pp : PtlrpcEncPagePool Page) (npages : Nat) :
    Option (PtlrpcEncPagePool Page × List Page) :=
  -- LASSERT(npages > 0); LASSERT(npages <= epp_free_pages); LASSERT(epp_free_pages <= epp_total_pages)
  if ¬ (0 < npages ∧ npages ≤ pp.eppFreePages ∧ pp.eppFreePages ≤ pp.eppTotalPages) then none
  else
    -- max pool index before the release
    let pIdxMax2 : Int := ((pp.eppTotalPages - 1) / P : Nat)
    let free := pp.eppFreePages - npages
    let total := pp.eppTotalPages - npages
    -- max pool index after the release
    let pIdxMax1 : Int := if total = 0 then -1 else ((total - 1) / P : Nat)
    -- LASSERT(page_pools.epp_pools[p_idx])
    if ¬ (free / P < pp.eppMaxPools ∧ (pp.eppPools (free / P)).isSome) then none
    else
      match takeSlots P pp.eppMaxPools npages pp.eppPools (free / P, free % P) [] with
      | none => none
      | some (t, freed) =>
        -- free unused pools
        (freePools pp.eppMaxPools (pIdxMax2 - pIdxMax1).toNat t pIdxMax2.toNat).map fun t =>
          ({ pp with eppFreePages := free, eppTotalPages := total, eppPools := t }, freed)

/-- `enc_pools_shrink_scan` asked to scan `nrToScan`: the pool after, the
number released, and the pages freed. At least `PTLRPC_MAX_BRW_PAGES` free
pages stay. -/
def encPoolsShrinkScan (maxBrw : Nat) (pp : PtlrpcEncPagePool Page) (nrToScan : Nat) :
    Option (PtlrpcEncPagePool Page × Nat × List Page) :=
  let nrToScan := if pp.eppFreePages ≤ maxBrw then 0 else min nrToScan (pp.eppFreePages - maxBrw)
  if 0 < nrToScan then
    (encPoolsReleaseFreePages P pp nrToScan).map fun r => (r.1, nrToScan, r.2)
  else some (pp, nrToScan, [])

/-- `enc_pools_insert(pools, npools, npages)`: the pool after, and the new
arrays as left. -/
def encPoolsInsert (pp : PtlrpcEncPagePool Page) (nt : Table Page) (npools npages : Nat) :
    Option (PtlrpcEncPagePool Page × Table Page) :=
  -- LASSERT(npages > 0); LASSERT(epp_total_pages + npages <= epp_max_pages);
  -- LASSERT(npages_to_npools(npages) == npools)
  if ¬ (0 < npages ∧ pp.eppTotalPages + npages ≤ pp.eppMaxPages ∧ npagesToNpools P npages = npools) then none
  else
    -- free slots are those left by rent pages, and the extra ones with
    -- index >= total_pages, locate at the tail of last pool
    let freeslot := (if pp.eppTotalPages % P ≠ 0 then P - pp.eppTotalPages % P else 0) +
      (pp.eppTotalPages - pp.eppFreePages)
    match insertFill P pp.eppMaxPools npools freeslot pp.eppPools nt
        (pp.eppFreePages / P, pp.eppFreePages % P) (npools - 1, (npages - 1) % P) with
    | none => none
    | some (t, nt) =>
      let curNpools := (pp.eppTotalPages + P - 1) / P
      let endNpools := (pp.eppTotalPages + npages + P - 1) / P
      -- LASSERT(end_npools <= page_pools.epp_max_pools)
      if endNpools ≤ pp.eppMaxPools then
        (insertAppend pp.eppMaxPools npools (endNpools - curNpools) t nt curNpools 0).map fun r =>
          ({ pp with
              eppPools := r.1
              eppTotalPages := pp.eppTotalPages + npages
              eppFreePages := pp.eppFreePages + npages }, r.2)
      else none

/-- The arrays `enc_pools_add_pages` allocates: `npools` of them, page `j`
of `pages` in slot `j % P` of array `j / P`. -/
def newPools (npools : Nat) (pages : List Page) : Table Page :=
  fun i => if i < npools then some fun j => if j < P then pages[i * P + j]? else none else none

/-- `enc_pools_cleanup(pools, npools)`: the pages left in the arrays, freed. -/
def encPoolsCleanup (t : Table Page) (npools : Nat) : List Page :=
  (List.range npools).flatMap fun i =>
    match t i with
    | some a => (List.range P).filterMap a
    | none => []

/-- `enc_pools_add_pages(npages)` with the pages `alloc_page` hands out:
`0` or `-ENOMEM`, the pool after, and the pages allocated and freed again. -/
def encPoolsAddPages (maxBrw : Nat) (pp : PtlrpcEncPagePool Page) (npages : Nat) (supply : List Page) :
    Option (Int × PtlrpcEncPagePool Page × List Page × List Page) :=
  let npages := max npages maxBrw
  let npages := if npages + pp.eppTotalPages > pp.eppMaxPages then pp.eppMaxPages - pp.eppTotalPages else npages
  -- LASSERT(npages > 0)
  if npages = 0 then none
  else
    let npools := npagesToNpools P npages
    if supply.length < npages then
      -- an allocation failed: what was allocated is freed again
      some (-enomem, pp, supply, supply)
    else
      let pages := supply.take npages
      (encPoolsInsert P pp (newPools P npools pages) npools npages).map fun r =>
        (0, r.1, pages, encPoolsCleanup P r.2 npools)

/-- `enc_pools_should_grow`, with whether another thread is growing the pools. -/
def encPoolsShouldGrow (pp : PtlrpcEncPagePool Page) (growing : Bool) (pageNeeded : Nat) : Bool :=
  -- don't grow if someone else is growing the pools right now,
  -- or the pools has reached its full capacity
  if growing ∨ pp.eppTotalPages = pp.eppMaxPages then false
  -- if total pages is not enough, we need to grow
  else if pp.eppTotalPages < pageNeeded then true
  -- grow the pools in any other cases
  else true

/-- How `sptlrpc_enc_pool_get_pages` ends: it returns `rc`, or it found too
few free pages and grows the pools or sleeps until they grew, to try
again. -/
inductive EncGet
  | done (rc : Int)
  | again
  deriving DecidableEq, Repr

/-- `sptlrpc_enc_pool_get_pages(desc)`, with whether allocating
`bd_enc_vec` succeeds and whether another thread is growing the pools. -/
def sptlrpcEncPoolGetPages (pp : PtlrpcEncPagePool Page) (desc : PtlrpcBulkDesc Page) (allocOk growing : Bool) :
    Option (EncGet × PtlrpcEncPagePool Page × PtlrpcBulkDesc Page) :=
  -- LASSERT(desc->bd_iov_count > 0); LASSERT(desc->bd_iov_count <= page_pools.epp_max_pages)
  if ¬ (0 < desc.bdIovCount ∧ desc.bdIovCount ≤ pp.eppMaxPages) then none
  -- resent bulk, enc iov might have been allocated previously
  else if desc.bdEncVec.isSome then some (.done 0, pp, desc)
  else if ¬ allocOk then some (.done (-enomem), pp, desc)
  else if pp.eppFreePages < desc.bdIovCount then
    if encPoolsShouldGrow pp growing desc.bdIovCount then some (.again, pp, desc)
    else if growing then some (.again, pp, desc)
    -- ptlrpcd thread should not sleep in that case, or deadlock may occur
    else some (.done (-enomem), pp, desc)
  else
    -- proceed with rest of allocation
    let free := pp.eppFreePages - desc.bdIovCount
    (takeSlots P pp.eppMaxPools desc.bdIovCount pp.eppPools (free / P, free % P) []).map fun r =>
      (.done 0, { pp with eppFreePages := free, eppPools := r.1 }, { desc with bdEncVec := some r.2 })

/-- `sptlrpc_enc_pool_put_pages(desc)`. -/
def sptlrpcEncPoolPutPages (pp : PtlrpcEncPagePool Page) (desc : PtlrpcBulkDesc Page) :
    Option (PtlrpcEncPagePool Page × PtlrpcBulkDesc Page) :=
  match desc.bdEncVec with
  | none => some (pp, desc)
  | some vec =>
    -- LASSERT(desc->bd_iov_count > 0);
    -- LASSERT(page_pools.epp_free_pages + desc->bd_iov_count <= page_pools.epp_total_pages);
    -- LASSERT(page_pools.epp_pools[p_idx])
    let pIdx := pp.eppFreePages / P
    if ¬ (0 < desc.bdIovCount ∧ pp.eppFreePages + desc.bdIovCount ≤ pp.eppTotalPages ∧
        pIdx < pp.eppMaxPools ∧ (pp.eppPools pIdx).isSome) then none
    else
      (putSlots P pp.eppMaxPools vec pp.eppPools (pIdx, pp.eppFreePages % P)).map fun t =>
        ({ pp with eppPools := t, eppFreePages := pp.eppFreePages + desc.bdIovCount }, { desc with bdEncVec := none })

end Pool

end Lustre.Ptlrpc
