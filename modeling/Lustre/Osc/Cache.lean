import Mathlib
import Lustre.Basic

/-! # Extents of the OSC write cache

`lustre/osc/osc_cache.c`. An OSC object keeps its dirty pages in extents,
ranges `[oe_start, oe_end]` of page indices held in an rb-tree keyed by
start. An extent lies under one DLM lock and inside one RPC window, which
ends at `oe_max_end`; it is grown a chunk (`2^cl_chunkbits` bytes) at a
time, and each chunk it spans holds a chunk of grant, plus one
`cl_grant_extent_tax` per extent.

`osc_extent_find` makes the one-chunk extent of a page, then looks among the
extents near it for one of the same lock that contains the page or that it
can be merged onto; if there is none it inserts the new extent.
`osc_extent_expand` grows an extent by the next chunk. `osc_extent_release`
drops a user, and when the last one goes merges the extent with its
neighbours. `__osc_extent_remove` takes an extent out of the tree.

The tree is the list of its extents in order; the descent of
`osc_extent_search` and `osc_extent_insert` is a walk of that list, and
`next_extent` and `prev_extent` are the neighbours in it. An extent is a
value with an id standing for its address. Its lock is the range of pages
the lock's descriptor covers. Page indices and grants are `Nat`: a page
index of a file stays far below `2^64`, and an extent's grant, at most one
RPC of chunks, below `2^32`. `LASSERT`s and the division by a zero
`max_pages_per_rpc` are `none`. Page lists, reference counts, the urgent,
high-priority and sync flags and the per-object lists an extent is moved to
are left out.
-/

namespace Lustre.Osc

/-- `enum osc_extent_state`. -/
inductive OscExtentState where
  | inv
  | active
  | cache
  | locking
  | lockDone
  | rpc
  | trunc
  deriving DecidableEq, Repr

/-- The value of each state, as the comparisons of the source use it. -/
def OscExtentState.val : OscExtentState → Nat
  | .inv => 0
  | .active => 1
  | .cache => 2
  | .locking => 3
  | .lockDone => 4
  | .rpc => 5
  | .trunc => 6

/-- A DLM write lock, with the page range of its `cl_lock_descr`. -/
structure OscLock where
  lockId : Nat
  cldStart : Nat
  cldEnd : Nat
  deriving DecidableEq, Repr

/-- The fields of `struct osc_extent` that the extent functions use; `oeId`
stands for its address. -/
structure OscExtent where
  oeId : Nat
  oeUsers : Nat
  oeState : OscExtentState
  oeTruncPending : Bool
  oeFsyncWait : Bool
  oeGrants : Nat
  oeStart : Nat
  oeEnd : Nat
  oeMaxEnd : Nat
  oeDlmlock : OscLock
  oeMppr : Nat
  deriving DecidableEq, Repr

/-- The fields of `struct client_obd` that the extent functions use. -/
structure ClientObd where
  clChunkbits : Nat
  clGrantExtentTax : Nat
  clMaxExtentPages : Nat
  clMaxPagesPerRpc : Nat
  deriving DecidableEq, Repr

/-- An OSC object: its extent tree in order, and the address the next
`osc_extent_alloc` returns. -/
structure OscObject where
  ooRoot : List OscExtent
  ooNextId : Nat
  deriving DecidableEq, Repr

/-- `ppc_bits`: pages per chunk, as a power of two. -/
def ppcBits (cli : ClientObd) : Nat := cli.clChunkbits - pageShift

/-- `chunksize`, in bytes. -/
def chunksize (cli : ClientObd) : Nat := 2 ^ cli.clChunkbits

/-- `overlapped(ex1, ex2)`. -/
def overlapped (ex1 ex2 : OscExtent) : Bool := !(ex1.oeEnd < ex2.oeStart || ex2.oeEnd < ex1.oeStart)

/-- `osc_extent_sanity_check0(ext)` on the modelled fields: the checks of
the page list (35, 110, 120), of the reference counts (20, 30), of the
high-priority, urgent and sync flags (50, 55, 65, 90), of the lock's mode
(102) and of the page count (105) are left out. The lock's byte extent
`[cld_start << PAGE_SHIFT, (cld_end << PAGE_SHIFT) + PAGE_SIZE - 1]`
covers the pages `[oe_start, oe_max_end]` exactly when its page range
does. -/
def oscExtentSanityCheck (ext : OscExtent) : Nat :=
  if ext.oeState = .inv then 0
  else if ext.oeState = .active ∧ ext.oeUsers = 0 then 40
  else if ext.oeState = .cache ∧ ext.oeGrants = 0 then 60
  else if ext.oeState ≠ .active ∧ 0 < ext.oeUsers then 70
  else if ext.oeMaxEnd < ext.oeEnd ∨ ext.oeEnd < ext.oeStart then 80
  else if ¬ (ext.oeDlmlock.cldStart ≤ ext.oeStart ∧ ext.oeMaxEnd ≤ ext.oeDlmlock.cldEnd) then 100
  else 0

/-! ## The tree -/

/-- The descent of `osc_extent_search(obj, index)`, carrying `p`, the last
extent it went right of. -/
def extentSearchWalk (index : Nat) : List OscExtent → Option OscExtent → Option OscExtent
  | [], p => p
  | tmp :: rest, p =>
    if index < tmp.oeStart then p
    else if index > tmp.oeEnd then extentSearchWalk index rest (some tmp)
    else some tmp

/-- `osc_extent_search(obj, index)`: the extent holding `index`, or else the
greatest extent before it. -/
def oscExtentSearch (obj : OscObject) (index : Nat) : Option OscExtent :=
  extentSearchWalk index obj.ooRoot none

/-- The extents from `ext` on, as `next_extent` walks them. -/
def extentsFrom (obj : OscObject) (ext : OscExtent) : List OscExtent :=
  obj.ooRoot.dropWhile (·.oeId ≠ ext.oeId)

/-- `next_extent(ext)`. -/
def nextExtent (obj : OscObject) (ext : OscExtent) : Option OscExtent :=
  (extentsFrom obj ext).tail.head?

/-- `prev_extent(ext)`. -/
def prevExtent (obj : OscObject) (ext : OscExtent) : Option OscExtent :=
  (obj.ooRoot.takeWhile (·.oeId ≠ ext.oeId)).getLast?

/-- The extent at an address, if it is in the tree. -/
def lookupExtent (obj : OscObject) (id : Nat) : Option OscExtent :=
  obj.ooRoot.find? (·.oeId = id)

/-- Write back the fields of an extent of the tree. -/
def OscObject.setExtent (obj : OscObject) (ext : OscExtent) : OscObject :=
  { obj with ooRoot := obj.ooRoot.map fun x => if x.oeId = ext.oeId then ext else x }

/-- `osc_extent_erase(ext)`: take the node out of the tree, if it is in. -/
def OscObject.eraseExtent (obj : OscObject) (id : Nat) : OscObject :=
  { obj with ooRoot := obj.ooRoot.filter (·.oeId ≠ id) }

/-- The descent of `osc_extent_insert(obj, ext)`: an extent it overlaps on
the way is the `EASSERTF(0, ...)`. -/
def extentInsertWalk (ext : OscExtent) : List OscExtent → Option (List OscExtent)
  | [] => some [ext]
  | tmp :: rest =>
    if ext.oeEnd < tmp.oeStart then some (ext :: tmp :: rest)
    else if ext.oeStart > tmp.oeEnd then (extentInsertWalk ext rest).map (tmp :: ·)
    else none

/-- `osc_extent_insert(obj, ext)`. -/
def oscExtentInsert (obj : OscObject) (ext : OscExtent) : Option OscObject :=
  (extentInsertWalk ext obj.ooRoot).map fun root => { obj with ooRoot := root }

/-- `osc_extent_hold(ext)`. -/
def oscExtentHold (ext : OscExtent) : Option OscExtent :=
  if ext.oeState = .active ∨ ext.oeState = .cache then
    some { ext with oeState := .active, oeUsers := ext.oeUsers + 1 }
  else none

/-! ## Merging -/

/-- `osc_extent_merge(env, cur, victim)`: the return code and `cur` as it
is after the call. -/
def oscExtentMerge (cli : ClientObd) (cur : OscExtent) (victim : Option OscExtent) : Option (Int × OscExtent) :=
  if cur.oeState ≠ .cache then none
  else
    match victim with
    | none => some (-einval, cur)
    | some victim =>
      if victim.oeState ≠ .inv ∧ (victim.oeState ≠ .cache ∨ victim.oeFsyncWait) then some (-ebusy, cur)
      else if cur.oeMaxEnd ≠ victim.oeMaxEnd then some (-erange, cur)
      else if cur.oeMppr ≠ victim.oeMppr then some (-erange, cur)
      else if cur.oeDlmlock ≠ victim.oeDlmlock then none
      else
        let chunkStart := cur.oeStart / 2 ^ ppcBits cli
        let chunkEnd := cur.oeEnd / 2 ^ ppcBits cli
        if chunkStart ≠ victim.oeEnd / 2 ^ ppcBits cli + 1 ∧ chunkEnd + 1 ≠ victim.oeStart / 2 ^ ppcBits cli then
          some (-erange, cur)
        else if cur.oeEnd - cur.oeStart + 1 + victim.oeEnd - victim.oeStart + 1 > cli.clMaxExtentPages then
          some (-erange, cur)
        else
          -- the extent tax of the victim goes back
          some (0, { cur with
            oeStart := min cur.oeStart victim.oeStart
            oeEnd := max cur.oeEnd victim.oeEnd
            oeGrants := cur.oeGrants + victim.oeGrants - cli.clGrantExtentTax })

/-- `osc_extent_merge` on the tree: a merged victim leaves it
(`__osc_extent_remove`), and `cur` is written back. -/
def oscExtentMergeIn (cli : ClientObd) (obj : OscObject) (cur : OscExtent) (victim : Option OscExtent) :
    Option (Int × OscExtent × OscObject) :=
  (oscExtentMerge cli cur victim).map fun (rc, cur') =>
    match victim with
    | some victim => if rc = 0 then (rc, cur', (obj.eraseExtent victim.oeId).setExtent cur') else (rc, cur', obj)
    | none => (rc, cur', obj)

/-! ## Finding the extent of a page -/

/-- How the loop of `osc_extent_find` ends. -/
inductive FindScan where
  /-- the loop ran out or broke off: insert the new extent -/
  | stop
  /-- an extent of the lock holds the page: `found` -/
  | found (ext : OscExtent)
  /-- an extent that holds the page is being written: `conflict` -/
  | conflict (ext : OscExtent)
  /-- the new extent was merged onto `ext`, which is now `ext'` -/
  | merged (ext ext' : OscExtent)
  /-- an assertion failed -/
  | lbug
  deriving DecidableEq, Repr

/-- The loop of `osc_extent_find` over the extents from where the search
stopped, for the new extent `cur` of chunk `chunk`. -/
def findScan (cli : ClientObd) (cur : OscExtent) (chunk : Nat) : List OscExtent → FindScan
  | [] => .stop
  | ext :: rest =>
    let extChkStart := ext.oeStart / 2 ^ ppcBits cli
    let extChkEnd := ext.oeEnd / 2 ^ ppcBits cli
    if oscExtentSanityCheck ext ≠ 0 then .lbug
    else if chunk > extChkEnd + 1 ∨ chunk < extChkStart then .stop
    -- covered by different locks, no chance to match
    else if cur.oeDlmlock ≠ ext.oeDlmlock then
      if overlapped ext cur then .lbug else findScan cli cur chunk rest
    else if chunk + 1 < extChkStart then findScan cli cur chunk rest
    else if overlapped ext cur then
      if ¬ (ext.oeStart ≤ cur.oeStart ∧ ext.oeEnd ≥ cur.oeEnd) then .lbug
      else if ext.oeState.val > OscExtentState.cache.val ∨ ext.oeFsyncWait then .conflict ext
      else .found ext
    else if ext.oeState ≠ .cache ∨ ext.oeFsyncWait then findScan cli cur chunk rest
    else
      match oscExtentMerge cli ext (some cur) with
      | none => .lbug
      | some (rc, ext') => if rc = 0 then .merged ext ext' else findScan cli cur chunk rest

/-- What `osc_extent_find` returns. -/
inductive FindResult where
  /-- the extent now held for the page -/
  | found (id : Nat)
  /-- the extent to wait for before the search restarts -/
  | conflict (id : Nat)
  | err (rc : Int)
  deriving DecidableEq, Repr

/-- The extent `osc_extent_find` sets up at address `id` for the page
`index` under `olck`, before it looks at the tree: the page's chunk, cut by
the lock and by the end of the RPC window. -/
def findNewExtent (cli : ClientObd) (id index : Nat) (olck : OscLock) : OscExtent :=
  let ppc := 2 ^ ppcBits cli
  let maxPages := cli.clMaxPagesPerRpc
  -- align end to RPC edge
  let maxEnd := min (index - index % maxPages + maxPages - 1) olck.cldEnd
  -- index & chunk_mask, and ((index + ~chunk_mask + 1) & chunk_mask) - 1
  let start0 := index / ppc * ppc
  let end0 := (index + ppc) / ppc * ppc - 1
  { oeId := id, oeUsers := 0, oeState := .inv, oeTruncPending := false, oeFsyncWait := false,
    oeGrants := chunksize cli + cli.clGrantExtentTax,
    oeStart := if start0 < olck.cldStart then olck.cldStart else start0,
    oeEnd := if end0 > maxEnd then maxEnd else end0,
    oeMaxEnd := maxEnd, oeDlmlock := olck, oeMppr := maxPages }

/-- Where the loop of `osc_extent_find` starts: at the extent
`osc_extent_search` returns, else at the first one. -/
def findScanFrom (obj : OscObject) (start : Nat) : List OscExtent :=
  match oscExtentSearch obj start with
  | none => obj.ooRoot
  | some ext => extentsFrom obj ext

/-- What `osc_extent_find` does once its loop has ended, with `cur` the new
extent. -/
def findFinish (cli : ClientObd) (obj : OscObject) (grants : Nat) (cur : OscExtent) :
    FindScan → Option (FindResult × Nat × OscObject)
  | .lbug => none
  | .conflict ext => some (.conflict ext.oeId, grants, obj)
  | .found ext => (oscExtentHold ext).map fun ext => (.found ext.oeId, grants, obj.setExtent ext)
  | .merged _ ext =>
    if grants < chunksize cli then none
    else
      let grants := grants - chunksize cli
      let obj := obj.setExtent ext
      -- we might have just filled in a gap: try the next extent too
      match oscExtentMergeIn cli obj ext (nextExtent obj ext) with
      | none => none
      | some (rc, ext, obj) =>
        let grants := if rc = 0 then grants + cli.clGrantExtentTax else grants
        (oscExtentHold ext).map fun ext => (.found ext.oeId, grants, obj.setExtent ext)
  | .stop =>
    -- create a new extent
    match oscExtentHold { cur with oeState := .cache } with
    | none => none
    | some cur =>
      (oscExtentInsert obj cur).map fun obj =>
        (.found cur.oeId, grants - cur.oeGrants, { obj with ooNextId := obj.ooNextId + 1 })

/-- `osc_extent_find(env, obj, index, grants)` under the write lock `olck`:
what it returns, what is left of `*grants`, and the object. `allocOk` is
whether `osc_extent_alloc` succeeds. A conflict returns the extent to wait
for: the wait and the restart after it are the caller's. -/
def oscExtentFind (cli : ClientObd) (obj : OscObject) (index grants : Nat) (olck : OscLock) (allocOk : Bool) :
    Option (FindResult × Nat × OscObject) :=
  if ¬ allocOk then some (.err (-enomem), grants, obj)
  else if cli.clChunkbits < pageShift then none
  -- max_pages & ~chunk_mask
  else if cli.clMaxPagesPerRpc % 2 ^ ppcBits cli ≠ 0 then some (.err (-einval), grants, obj)
  else if cli.clMaxPagesPerRpc = 0 then none
  else
    let cur := findNewExtent cli obj.ooNextId index olck
    if grants < chunksize cli + cli.clGrantExtentTax then none
    -- the unsigned difference wraps when the start is past the end
    else if ¬ (cur.oeStart ≤ cur.oeMaxEnd ∧ cur.oeMaxEnd - cur.oeStart < cli.clMaxPagesPerRpc) then none
    else findFinish cli obj grants cur (findScan cli cur (index / 2 ^ ppcBits cli) (findScanFrom obj cur.oeStart))

/-! ## Growing and releasing an extent -/

/-- `osc_extent_expand(ext, index, grants)` on the extent at `extId`: the
return code, what is left of `*grants`, and the object. -/
def oscExtentExpand (cli : ClientObd) (obj : OscObject) (extId index grants : Nat) :
    Option (Int × Nat × OscObject) :=
  match lookupExtent obj extId with
  | none => none
  | some ext =>
    let ppc := 2 ^ ppcBits cli
    let chunk := index / ppc
    if ¬ (ext.oeMaxEnd ≥ index ∧ ext.oeStart ≤ index) then none
    else if oscExtentSanityCheck ext ≠ 0 then none
    else
      let endChunk := ext.oeEnd / ppc
      if chunk > endChunk + 1 then some (-erange, grants, obj)
      else if endChunk ≥ chunk then some (0, grants, obj)
      else
        let endIndex := min ext.oeMaxEnd ((chunk + 1) * ppc - 1)
        -- don't go over the maximum extent size reported by server
        if endIndex - ext.oeStart + 1 > cli.clMaxExtentPages then some (-erange, grants, obj)
        -- overlapped with the next extent: left to osc_extent_find
        else if (nextExtent obj ext).any (·.oeStart ≤ endIndex) then some (-eagain, grants, obj)
        else if grants < chunksize cli then none
        else
          some (0, grants - chunksize cli,
            obj.setExtent { ext with oeEnd := endIndex, oeGrants := ext.oeGrants + chunksize cli })

/-- `osc_extent_release(env, ext)` on the extent at `extId`: the grant given
back by `osc_unreserve_grant`, and the object. -/
def oscExtentRelease (cli : ClientObd) (obj : OscObject) (extId : Nat) : Option (Nat × OscObject) :=
  match lookupExtent obj extId with
  | none => none
  | some ext =>
    if ext.oeUsers = 0 then none
    else if oscExtentSanityCheck ext ≠ 0 then none
    else if ext.oeGrants = 0 then none
    else
      let ext := { ext with oeUsers := ext.oeUsers - 1 }
      if ext.oeUsers ≠ 0 then some (0, obj.setExtent ext)
      else if ext.oeState ≠ .active then none
      -- a truncate process is waiting for this extent
      else if ext.oeTruncPending then
        some (0, obj.setExtent { ext with oeState := .trunc, oeTruncPending := false })
      else
        let ext := { ext with oeState := .cache }
        let obj := obj.setExtent ext
        -- try to merge the previous and next extent
        match oscExtentMergeIn cli obj ext (prevExtent obj ext) with
        | none => none
        | some (rc, ext, obj) =>
          let grant := if rc = 0 then cli.clGrantExtentTax else 0
          match oscExtentMergeIn cli obj ext (nextExtent obj ext) with
          | none => none
          | some (rc, _, obj) => some (if rc = 0 then grant + cli.clGrantExtentTax else grant, obj)

/-- `__osc_extent_remove(ext)` on the extent at `extId`. -/
def oscExtentRemove (obj : OscObject) (extId : Nat) : Option OscObject :=
  (lookupExtent obj extId).map fun _ => obj.eraseExtent extId

/-! ## Runs -/

/-- The extent calls on one object, each under the object lock. -/
inductive OscOp where
  | find (index grants : Nat) (olck : OscLock) (allocOk : Bool)
  | expand (extId index grants : Nat)
  | release (extId : Nat)
  | remove (extId : Nat)
  deriving DecidableEq, Repr

/-- What a call returns. -/
inductive OscRet where
  | find (r : FindResult) (grants : Nat)
  | expand (rc : Int) (grants : Nat)
  | release (grant : Nat)
  | remove
  deriving DecidableEq, Repr

/-- One call. -/
def oscStep (cli : ClientObd) (obj : OscObject) : OscOp → Option (OscRet × OscObject)
  | .find index grants olck allocOk =>
    (oscExtentFind cli obj index grants olck allocOk).map fun (r, g, obj) => (.find r g, obj)
  | .expand extId index grants => (oscExtentExpand cli obj extId index grants).map fun (rc, g, obj) => (.expand rc g, obj)
  | .release extId => (oscExtentRelease cli obj extId).map fun (g, obj) => (.release g, obj)
  | .remove extId => (oscExtentRemove obj extId).map fun obj => (.remove, obj)

end Lustre.Osc
