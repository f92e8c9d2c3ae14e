import Mathlib
import Lustre.Basic

/-! # The FLD client cache

`lustre/fld/fld_cache.c`. The FLD (FID location database) maps sequence
ranges `[lsr_start, lsr_end)` to the index of the MDT or OST that serves
them, with `lsr_flags` telling MDT (`LU_SEQ_RANGE_MDT`) from OST ranges. A
client keeps the ranges it has looked up in a list sorted by start and
evicts them in LRU order.

`fld_cache_insert_nolock` shrinks the cache, then walks the list for the
first entry of the same flags that the new range overlaps. An entry of the
same index is widened over the new range; otherwise the new range replaces
the entry, cuts a hole into it (`fld_cache_punch_hole`, which splits it in
three) or trims it from the left or the right. Overlaps with the entries
after it are left to `fld_fix_new_list`, which walks adjacent pairs, merges
and trims them, and starts again from the head after each overlap it
resolves.

Entries are values with a node number (`fceId`) standing for the node's
place on the LRU list, which is the order in which nodes were added;
`fci_cache_count` is the length of the list. `LASSERT`s are `none`. The
allocation in `fld_cache_punch_hole` may fail; whether it does is an input.
-/

namespace Lustre.Fld

/-! ## Ranges and entries -/

/-- `struct lu_seq_range`. -/
structure LuSeqRange where
  lsrStart : UInt64
  lsrEnd : UInt64
  lsrIndex : UInt32
  lsrFlags : UInt32
  deriving DecidableEq, Repr

/-- `LU_SEQ_RANGE_MDT`. -/
def luSeqRangeMdt : UInt32 := 0x0
/-- `LU_SEQ_RANGE_OST`. -/
def luSeqRangeOst : UInt32 := 0x1

/-- `lu_seq_range_within(range, seq)`. -/
def luSeqRangeWithin (range : LuSeqRange) (seq : UInt64) : Bool :=
  seq ≥ range.lsrStart && seq < range.lsrEnd

/-- `lu_seq_range_is_sane(range)`. -/
def luSeqRangeIsSane (range : LuSeqRange) : Bool := range.lsrEnd ≥ range.lsrStart

/-- `struct fld_cache_entry`: the range and the node. -/
structure FldCacheEntry where
  fceId : Nat
  fceRange : LuSeqRange
  deriving DecidableEq, Repr

/-- `struct fld_cache`: the entries in list order, the LRU list (node
numbers, most recently added first), the size and threshold, and the next
node number. -/
structure FldCache where
  fciEntries : List FldCacheEntry
  fciLru : List Nat
  fciCacheSize : Nat
  fciThreshold : Nat
  fciNextId : Nat
  deriving DecidableEq, Repr

/-- `fld_cache_init(name, cache_size, cache_threshold)`, with its allocation
granted: an empty cache. -/
def fldCacheInit (cacheSize cacheThreshold : Nat) : Option FldCache :=
  if ¬ cacheThreshold < cacheSize then none
  else some { fciEntries := [], fciLru := [], fciCacheSize := cacheSize, fciThreshold := cacheThreshold, fciNextId := 0 }

/-- `fld_cache_entry_delete(cache, node)`. -/
def FldCache.entryDelete (cache : FldCache) (id : Nat) : FldCache :=
  { cache with fciEntries := cache.fciEntries.filter (·.fceId ≠ id), fciLru := cache.fciLru.erase id }

/-! ## `fld_fix_new_list` -/

/-- How one walk of `fld_fix_new_list` over the list ends. -/
inductive FixPass where
  | done (entries : List FldCacheEntry)
  | restart (entries : List FldCacheEntry)
  | lbug
  deriving DecidableEq, Repr

/-- One walk of `list_for_each_entry_safe` in `fld_fix_new_list`: `acc` are
the entries before `f_curr`, `c` is `f_curr` and the list the entries after
it. A deleted `f_curr` leaves the list; `f_next` is then the next `f_curr`. -/
def fldFixPass (acc : List FldCacheEntry) (c : FldCacheEntry) : List FldCacheEntry → FixPass
  | [] => if luSeqRangeIsSane c.fceRange then .done (acc ++ [c]) else .lbug
  | n :: rest =>
    let cr := c.fceRange
    let nr := n.fceRange
    if ¬ luSeqRangeIsSane cr then .lbug
    else if cr.lsrFlags ≠ nr.lsrFlags then fldFixPass (acc ++ [c]) n rest
    else if ¬ cr.lsrStart ≤ nr.lsrStart then .lbug
    else if cr.lsrEnd = nr.lsrStart then
      -- adjoining: merge into the next entry if the index is the same
      if cr.lsrIndex ≠ nr.lsrIndex then fldFixPass (acc ++ [c]) n rest
      else fldFixPass acc { n with fceRange := { nr with lsrStart := cr.lsrStart } } rest
    else if nr.lsrStart < cr.lsrEnd then
      -- overlapping: the current entry wins, then the walk starts again
      if cr.lsrIndex = nr.lsrIndex then
        .restart (acc ++ { n with fceRange := { nr with lsrStart := cr.lsrStart, lsrEnd := max cr.lsrEnd nr.lsrEnd } } :: rest)
      else if nr.lsrEnd ≤ cr.lsrEnd then .restart (acc ++ { n with fceRange := cr } :: rest)
      else .restart (acc ++ c :: { n with fceRange := { nr with lsrStart := cr.lsrEnd } } :: rest)
    else if cr.lsrStart = nr.lsrStart ∧ cr.lsrEnd = nr.lsrEnd then fldFixPass acc n rest
    else fldFixPass (acc ++ [c]) n rest

/-- A walk over the whole list. -/
def fldFixPassList : List FldCacheEntry → FixPass
  | [] => .done []
  | c :: rest => fldFixPass [] c rest

/-- Why `fld_fix_new_list` did not return. -/
inductive FixStop where
  | lbug
  | noFuel
  deriving DecidableEq, Repr

/-- `fld_fix_new_list` with `goto restart_fixup`, for at most `fuel` walks. -/
def fldFixNewListFuel : Nat → List FldCacheEntry → Except FixStop (List FldCacheEntry)
  | 0, _ => .error .noFuel
  | fuel + 1, entries =>
    match fldFixPassList entries with
    | .done entries => .ok entries
    | .restart entries => fldFixNewListFuel fuel entries
    | .lbug => .error .lbug

/-- The width of a range, `lu_seq_range_space`, with an insane range as
zero. -/
def LuSeqRange.width (range : LuSeqRange) : Nat := range.lsrEnd.toNat - range.lsrStart.toNat

/-- Enough walks for `fld_fix_new_list` to finish: every restart removes an
entry or narrows one. -/
def fixupFuel (entries : List FldCacheEntry) : Nat :=
  entries.length + (entries.map (·.fceRange.width)).sum + 1

/-- `fld_fix_new_list(cache)`: deleted entries also leave the LRU list. -/
def fldFixNewList (cache : FldCache) : Option FldCache :=
  match fldFixNewListFuel (fixupFuel cache.fciEntries) cache.fciEntries with
  | .ok entries => some { cache with fciEntries := entries,
                                     fciLru := cache.fciLru.filter fun id => entries.any (·.fceId = id) }
  | .error _ => none

/-! ## Insertion -/

/-- Insert `e` after the entry at position `pos`, or at the head for
`none`: `list_add(&e->fce_list, pos)`. -/
def insertAfter (entries : List FldCacheEntry) (pos : Option Nat) (e : FldCacheEntry) : List FldCacheEntry :=
  match pos with
  | none => e :: entries
  | some i => entries.take (i + 1) ++ e :: entries.drop (i + 1)

/-- `fld_cache_entry_add(cache, f_new, pos)`. -/
def fldCacheEntryAdd (cache : FldCache) (fNew : FldCacheEntry) (pos : Option Nat) : Option FldCache :=
  fldFixNewList { cache with fciEntries := insertAfter cache.fciEntries pos fNew, fciLru := fNew.fceId :: cache.fciLru }

/-- Rewrite the range of the entry at position `i`. -/
def FldCache.setRange (cache : FldCache) (i : Nat) (range : LuSeqRange) : FldCache :=
  { cache with fciEntries := cache.fciEntries.modify i fun e => { e with fceRange := range } }

/-- `fld_cache_punch_hole(cache, f_curr, f_new)`, with `f_curr` at position
`i`: the entry keeps `[start, new_start)`, the new range follows, and a
third node `fldt` takes `[new_end, end)`. The allocation of `fldt` is
zeroed, and its flags are not set. -/
def fldCachePunchHole (cache : FldCache) (i : Nat) (curr : LuSeqRange) (fNew : FldCacheEntry) (allocOk : Bool) :
    Option FldCache :=
  if ¬ allocOk then some cache
  else
    let fldt : FldCacheEntry :=
      { fceId := cache.fciNextId,
        fceRange := { lsrStart := fNew.fceRange.lsrEnd, lsrEnd := curr.lsrEnd, lsrIndex := curr.lsrIndex, lsrFlags := 0 } }
    let cache := { cache.setRange i { curr with lsrEnd := fNew.fceRange.lsrStart } with fciNextId := cache.fciNextId + 1 }
    (fldCacheEntryAdd cache fNew (some i)).bind fun cache =>
      -- `f_new` follows `f_curr`, unless the fixup has moved it
      let pos := cache.fciEntries.findIdx? (·.fceId = fNew.fceId)
      fldCacheEntryAdd cache fldt pos

/-- `fld_cache_overlap_handle(cache, f_curr, f_new)`, with `f_curr` at
position `i`. -/
def fldCacheOverlapHandle (cache : FldCache) (i : Nat) (curr : LuSeqRange) (fNew : FldCacheEntry) (allocOk : Bool) :
    Option FldCache :=
  let range := fNew.fceRange
  let newStart := range.lsrStart
  let newEnd := range.lsrEnd
  if curr.lsrIndex = range.lsrIndex then
    fldFixNewList (cache.setRange i { curr with lsrStart := min curr.lsrStart newStart, lsrEnd := max curr.lsrEnd newEnd })
  else if newStart ≤ curr.lsrStart ∧ curr.lsrEnd ≤ newEnd then
    -- case 1: the new range covers the entry
    fldFixNewList (cache.setRange i range)
  else if curr.lsrStart < newStart ∧ newEnd < curr.lsrEnd then
    -- case 2: the new range is inside the entry
    fldCachePunchHole cache i curr fNew allocOk
  else if newEnd ≤ curr.lsrEnd then
    -- case 3: `[new_start [c_start new_end) c_end)`
    if ¬ newStart ≤ curr.lsrStart then none
    else fldCacheEntryAdd (cache.setRange i { curr with lsrStart := newEnd }) fNew (if i = 0 then none else some (i - 1))
  else if curr.lsrStart ≤ newStart then
    -- case 4: `[c_start [new_start c_end) new_end)`
    if ¬ curr.lsrEnd ≤ newEnd then none
    else fldCacheEntryAdd (cache.setRange i { curr with lsrEnd := newStart }) fNew (some i)
  else some cache

/-- Where the walk of `fld_cache_insert_nolock` stops. -/
inductive InsertPos where
  /-- `f_curr`, at this position, overlaps the new range -/
  | overlap (i : Nat) (curr : LuSeqRange)
  /-- the new range goes after this position, or at the head -/
  | addAfter (prev : Option Nat)
  deriving DecidableEq, Repr

/-- The walk of `fld_cache_insert_nolock` from position `i`, with `prev` the
last entry passed. -/
def fldCacheInsertPos (range : LuSeqRange) (i : Nat) (prev : Option Nat) : List FldCacheEntry → InsertPos
  | [] => .addAfter prev
  | e :: rest =>
    let er := e.fceRange
    if range.lsrEnd < er.lsrStart ∨ (range.lsrEnd = er.lsrStart ∧ range.lsrFlags ≠ er.lsrFlags) then .addAfter prev
    else if range.lsrStart < er.lsrEnd ∧ range.lsrFlags = er.lsrFlags then .overlap i er
    else fldCacheInsertPos range (i + 1) (some i) rest

/-- The loop of `fld_cache_shrink`: drop the least recently added node while
the cache is above its size less the threshold. -/
def fldCacheShrinkLoop : Nat → FldCache → FldCache
  | 0, cache => cache
  | fuel + 1, cache =>
    match cache.fciLru.getLast? with
    | some id =>
      if cache.fciEntries.length + cache.fciThreshold > cache.fciCacheSize then
        fldCacheShrinkLoop fuel (cache.entryDelete id)
      else cache
    | none => cache

/-- `fld_cache_shrink(cache)`. -/
def fldCacheShrink (cache : FldCache) : FldCache :=
  if cache.fciEntries.length < cache.fciCacheSize then cache
  else fldCacheShrinkLoop cache.fciLru.length cache

/-- `fld_cache_insert_nolock(cache, f_new)`. -/
def fldCacheInsertNolock (cache : FldCache) (fNew : FldCacheEntry) (allocOk : Bool) : Option FldCache :=
  let cache := fldCacheShrink cache
  match fldCacheInsertPos fNew.fceRange 0 none cache.fciEntries with
  | .overlap i curr => fldCacheOverlapHandle cache i curr fNew allocOk
  | .addAfter prev => fldCacheEntryAdd cache fNew prev

/-- `fld_cache_insert(cache, range)`: `createOk` is whether
`fld_cache_entry_create` gets its node, `allocOk` whether a hole punched
gets its third. -/
def fldCacheInsert (cache : FldCache) (range : LuSeqRange) (createOk allocOk : Bool) : Option (Int × FldCache) :=
  if ¬ luSeqRangeIsSane range then none
  else if ¬ createOk then some (-enomem, cache)
  else
    let fNew : FldCacheEntry := ⟨cache.fciNextId, range⟩
    (fldCacheInsertNolock { cache with fciNextId := cache.fciNextId + 1 } fNew allocOk).map (0, ·)

/-! ## Deletion and lookup -/

/-- The walk of `fld_cache_delete_nolock`: the first entry with the same
start, or the same end and flags. -/
def fldCacheDeleteWalk (range : LuSeqRange) : List FldCacheEntry → Option Nat
  | [] => none
  | e :: rest =>
    if range.lsrStart = e.fceRange.lsrStart ∨ (range.lsrEnd = e.fceRange.lsrEnd ∧ range.lsrFlags = e.fceRange.lsrFlags)
    then some e.fceId else fldCacheDeleteWalk range rest

/-- `fld_cache_delete_nolock(cache, range)`. -/
def fldCacheDeleteNolock (cache : FldCache) (range : LuSeqRange) : FldCache :=
  match fldCacheDeleteWalk range cache.fciEntries with
  | some id => cache.entryDelete id
  | none => cache

/-- The walk of `fld_cache_lookup`: `0` and the entry containing `seq`, or
`-ENOENT` once an entry starts after `seq`, with `*range` then set to the
entry before it. -/
def fldCacheLookupWalk (seq : UInt64) (prev : Option LuSeqRange) (range : LuSeqRange) :
    List FldCacheEntry → Int × LuSeqRange
  | [] => (-enoent, range)
  | e :: rest =>
    if e.fceRange.lsrStart > seq then (-enoent, prev.getD range)
    else if luSeqRangeWithin e.fceRange seq then (0, e.fceRange)
    else fldCacheLookupWalk seq (some e.fceRange) range rest

/-- `fld_cache_lookup(cache, seq, range)`: the return code and `*range`. -/
def fldCacheLookup (cache : FldCache) (seq : UInt64) (range : LuSeqRange) : Int × LuSeqRange :=
  fldCacheLookupWalk seq none range cache.fciEntries

end Lustre.Fld
