import Mathlib
import Lustre.Basic
import Lustre.Osc.Cache

/-! # Grant accounting of the OSC write cache

`lustre/osc/osc_cache.c`. A client may write only as much as the OST has
promised it space for, its grant, which `struct client_obd` keeps in four
counters: `cl_avail_grant`, free to use; `cl_reserved_grant`, taken by
writes in flight before they know how much they need; `cl_dirty_grant`,
held by the extents of dirty pages; and `cl_lost_grant`, to be given back
to the OST.

A write of a page (`osc_queue_async_io`) reserves a chunk and an extent tax
with `osc_enter_cache_try`, lets `osc_extent_find` or `osc_extent_expand`
attach to an extent what it needs of that, and gives back what is left with
`osc_unreserve_grant(cli, grants, tmp)`, which moves the part used from the
reserved to the dirty counter. A merge of two extents saves a tax, so more
may come back than was reserved; `__osc_unreserve_grant` then takes the
surplus from the dirty counter into the lost one. `osc_extent_release`
gives back the taxes its merges save the same way, and `osc_free_grant`
drops the grant of an extent whose pages were written or truncated.

The counters are `unsigned long` and are `UInt64`; `cl_reserved_grant` is a
`long` and is an `Int`, which never leaves the range of a `long` when the
client was granted less than `2^63` bytes (`osc_grant_reserved_fits_long`).
The `unsigned int` amounts are `Nat`s, as the
grants of the extent model are. The dirty page counts
(`cl_dirty_pages`, `obd_dirty_pages`) enter only as whether a page still
fits under them, and the waking of cache waiters is left out.

The writes in flight on an object each keep the locals `grants` and `tmp`
of `osc_queue_async_io` and the extent they hold. One step of the client is
one section of a write run under its locks: the reservation, the search or
growth of an extent, the return of the rest, the release of an extent, the
completion of one.
-/

namespace Lustre.Osc

/-- The grant counters of `struct client_obd`. -/
structure ClientGrant where
  clAvailGrant : UInt64
  clReservedGrant : Int
  clDirtyGrant : UInt64
  clLostGrant : UInt64
  deriving DecidableEq, Repr

/-- `osc_reserve_grant(cli, bytes)`. -/
def oscReserveGrant (cli : ClientGrant) (bytes : Nat) : Int × ClientGrant :=
  if cli.clAvailGrant ≥ UInt64.ofNat bytes then
    (0, { cli with
      clAvailGrant := cli.clAvailGrant - UInt64.ofNat bytes
      clReservedGrant := cli.clReservedGrant + bytes })
  else (-edquot, cli)

/-- `__osc_unreserve_grant(cli, reserved, unused)`. -/
def oscUnreserveGrant (cli : ClientGrant) (reserved unused : Nat) : ClientGrant :=
  let cli := { cli with clReservedGrant := cli.clReservedGrant - reserved }
  -- more grant than reserved: a merge saved an extent tax
  if unused > reserved then
    { cli with
      clAvailGrant := cli.clAvailGrant + UInt64.ofNat reserved
      clLostGrant := cli.clLostGrant + UInt64.ofNat (unused - reserved)
      clDirtyGrant := cli.clDirtyGrant - UInt64.ofNat (unused - reserved) }
  else
    { cli with
      clAvailGrant := cli.clAvailGrant + UInt64.ofNat unused
      clDirtyGrant := cli.clDirtyGrant + UInt64.ofNat (reserved - unused) }

/-- `osc_enter_cache_try(cli, oap, bytes)`: 1 when the page takes its grant
from the reservation, which then stays; `dirtyOk` is whether the page fits
under `cl_dirty_max_pages` and `obd_max_dirty_pages`. -/
def oscEnterCacheTry (cli : ClientGrant) (bytes : Nat) (dirtyOk : Bool) : Int × ClientGrant :=
  let (rc, cli) := oscReserveGrant cli bytes
  if rc < 0 then (0, cli)
  else if dirtyOk then (1, cli)
  else (0, oscUnreserveGrant cli bytes bytes)

/-- `osc_free_grant(cli, nr_pages, lost_grant, dirty_grant)` on the grant
counters of a client whose chunks and tax are those of `obd`. -/
def oscFreeGrant (obd : ClientObd) (cli : ClientGrant) (lostGrant dirtyGrant : Nat) : ClientGrant :=
  let grant := UInt64.ofNat (chunksize obd + obd.clGrantExtentTax)
  let cli := { cli with
    clLostGrant := cli.clLostGrant + UInt64.ofNat lostGrant
    clDirtyGrant := cli.clDirtyGrant - UInt64.ofNat dirtyGrant }
  -- borrow some grant from truncate to avoid the case that truncate uses
  -- up all avail grant
  if cli.clAvailGrant < grant ∧ cli.clLostGrant ≥ grant then
    { cli with clLostGrant := cli.clLostGrant - grant, clAvailGrant := cli.clAvailGrant + grant }
  else cli

/-! ## The client and its writes -/

/-- A write in flight, between `osc_enter_cache_try` and
`osc_unreserve_grant`: `grants`, what it reserved; `tmp`, what is left of
it; and the extent it attached grant to, if one took some. -/
structure GrantResv where
  grants : Nat
  tmp : Nat
  ext : Option Nat
  deriving DecidableEq, Repr

/-- An object with the writes in flight on it. -/
structure GrantObject where
  obj : OscObject
  resv : List GrantResv
  deriving DecidableEq, Repr

/-- A client: its grant counters and its objects. -/
structure GrantState where
  cli : ClientGrant
  objs : List GrantObject
  deriving DecidableEq, Repr

/-- The sections of the writes and completions of a client, each on the
object at its index. -/
inductive GrantOp where
  /-- a write reserves its grant: `osc_enter_cache_try` -/
  | enterCache (o bytes : Nat) (dirtyOk : Bool)
  /-- write `k` looks for the extent of its page with what is left of its
  reservation: `osc_extent_find` -/
  | find (o k index : Nat) (olck : OscLock) (allocOk : Bool)
  /-- write `k` grows the extent it holds: `osc_extent_expand` -/
  | expand (o k extId index : Nat)
  /-- write `k` gives back what is left: `osc_unreserve_grant(cli, grants, tmp)` -/
  | unreserve (o k : Nat)
  /-- a user drops an extent: `osc_extent_release`, and the taxes its merges
  save go back with `osc_unreserve_grant(cli, 0, grant)` -/
  | release (o extId : Nat)
  /-- the pages of an extent are written or dropped: `osc_free_grant` of
  its grant, `lostGrant` of which goes to the lost counter, and
  `osc_extent_remove` -/
  | finish (o extId lostGrant : Nat)
  deriving DecidableEq, Repr

/-- What a section returns. -/
inductive GrantRet where
  | enterCache (rc : Int)
  | find (r : FindResult)
  | expand (rc : Int)
  | unreserve
  | release
  | finish
  deriving DecidableEq, Repr

/-- The extent a write holds once `osc_extent_find` returned. -/
def foundExt (r : FindResult) (ext : Option Nat) : Option Nat :=
  match r with
  | .found id => some id
  | _ => ext

/-- One section, on a client whose chunks and tax are those of `obd`. -/
def oscGrantStep (obd : ClientObd) (s : GrantState) : GrantOp → Option (GrantRet × GrantState)
  | .enterCache o bytes dirtyOk => do
    let og ← s.objs[o]?
    let (rc, cli) := oscEnterCacheTry s.cli bytes dirtyOk
    -- a write whose page took grant is in flight with all of it left
    let og := if rc = 1 then { og with resv := og.resv ++ [⟨bytes, bytes, none⟩] } else og
    pure (.enterCache rc, ⟨cli, s.objs.set o og⟩)
  | .find o k index olck allocOk => do
    let og ← s.objs[o]?
    let w ← og.resv[k]?
    let (r, tmp, obj) ← oscExtentFind obd og.obj index w.tmp olck allocOk
    let w := { w with tmp := tmp, ext := foundExt r w.ext }
    pure (.find r, { s with objs := s.objs.set o ⟨obj, og.resv.set k w⟩ })
  | .expand o k extId index => do
    let og ← s.objs[o]?
    let w ← og.resv[k]?
    let (rc, tmp, obj) ← oscExtentExpand obd og.obj extId index w.tmp
    let w := { w with tmp := tmp, ext := if rc = 0 then some extId else w.ext }
    pure (.expand rc, { s with objs := s.objs.set o ⟨obj, og.resv.set k w⟩ })
  | .unreserve o k => do
    let og ← s.objs[o]?
    let w ← og.resv[k]?
    pure (.unreserve, ⟨oscUnreserveGrant s.cli w.grants w.tmp, s.objs.set o { og with resv := og.resv.eraseIdx k }⟩)
  | .release o extId => do
    let og ← s.objs[o]?
    let (grant, obj) ← oscExtentRelease obd og.obj extId
    let cli := if grant > 0 then oscUnreserveGrant s.cli 0 grant else s.cli
    pure (.release, ⟨cli, s.objs.set o { og with obj := obj }⟩)
  | .finish o extId lostGrant => do
    let og ← s.objs[o]?
    let ext ← lookupExtent og.obj extId
    let cli := if ext.oeGrants > 0 then oscFreeGrant obd s.cli lostGrant ext.oeGrants else s.cli
    let obj ← oscExtentRemove og.obj extId
    pure (.finish, ⟨cli, s.objs.set o { og with obj := obj }⟩)

/-- A client as it starts: all of its grant available, nothing reserved,
dirty or lost, and `n` objects without extents. -/
def oscGrantInit (avail : UInt64) (n : Nat) : GrantState :=
  ⟨⟨avail, 0, 0, 0⟩, List.replicate n ⟨⟨[], 0⟩, []⟩⟩

end Lustre.Osc
