import Mathlib
import Lustre.Lib.CArith
import Lustre.Lib.Run

/-! # Grant accounting of a target

`lustre/target/tgt_grant.c`. A client may cache dirty data up to the space
the target granted it. For each export the target keeps `ted_grant`,
`ted_pending` (granted space of writes not yet committed) and `ted_dirty`
(the dirty data the client announced), and in `tg_grants_data` their totals
over all exports, which `tgt_grant_sanity_check` compares with the sums.

Every grant RPC carries the client's view in its `obdo`, which
`tgt_grant_incoming` takes in first: `o_dirty` becomes `ted_dirty`, capped,
and the grant the client dropped, `o_dropped`, is taken back. A client that
does not know the grant parameters counts in 4 KiB pages: on a target with
larger blocks its values are inflated, by a shift, before use. The function
ends with an `LBUG` if a per-export value went negative.

The operations modelled are the grant at connection (`tgt_grant_connect`,
with `tgt_grant_alloc`), the grant part of a read (`tgt_grant_prepare_read`,
with `tgt_grant_shrink`) and the discard of an export (`tgt_grant_discard`).
The remaining free space, which `tgt_grant_space_left` derives from statfs,
is an input. The totals are `u64`, as in the code; the per-export values
are `long`, and wrap as the kernel's signed arithmetic does (`narrowLong`).
-/

namespace Lustre.Target

open CArith StepRun

/-- `COMPAT_BSIZE_SHIFT`. -/
def compatBsizeShift : Nat := 12
/-- `OBD_MAX_GRANT`. -/
def obdMaxGrant : UInt64 := 0x7fffffff
/-- `OST_MAX_PRECREATE`. -/
def ostMaxPrecreate : Nat := 20000

/-- `OBD_MD_FLBLOCKS`. -/
def obdMdFlblocks : UInt64 := 0x20
/-- `OBD_MD_FLFLAGS`. -/
def obdMdFlflags : UInt64 := 0x800
/-- `OBD_MD_FLGRANT`. -/
def obdMdFlgrant : UInt64 := 0x08000000
/-- `OBD_FL_SHRINK_GRANT`. -/
def obdFlShrinkGrant : UInt32 := 0x00020000

/-- The grant fields of an export's `struct tg_export_data`, and what the
export negotiated. -/
structure TgExport where
  tedGrant : Int
  tedPending : Int
  tedDirty : Int
  /-- `exp_grant_param_supp(exp)`: `OBD_CONNECT_GRANT_PARAM` -/
  grantParam : Bool
  /-- `exp_max_brw_size(exp)` -/
  maxBrwSize : Nat
  expFailed : Bool
  deriving DecidableEq, Repr

/-- `struct tg_grants_data`, with the target's data device parameters
(`lut_dt_conf`) and `obd_recovering`. -/
structure TgGrants where
  tgdTotDirty : UInt64
  tgdTotGranted : UInt64
  tgdTotPending : UInt64
  tgdTotGrantedClients : Nat
  tgdBlockbits : Nat
  tgdGrantCompatDisable : Bool
  ddpInodespace : Nat
  ddpMaxExtentBlks : Nat
  ddpExtentTax : Nat
  obdRecovering : Bool
  deriving DecidableEq, Repr

/-- The fields of `struct obdo` the grant code uses: `o_dirty` is `o_blocks`,
`o_undirty` is `o_mode` and `o_dropped` is `o_misc`. -/
structure Obdo where
  oValid : UInt64
  oGrant : UInt64
  oDirty : UInt64
  oUndirty : UInt32
  oDropped : UInt32
  oFlags : UInt32
  deriving DecidableEq, Repr

/-! ## Units -/

/-- `tgt_grant_inflate(tgd, val)`: from 4 KiB pages to the target's blocks. -/
def tgtGrantInflate (tgd : TgGrants) (val : UInt64) : UInt64 :=
  if tgd.tgdBlockbits > compatBsizeShift then val <<< (tgd.tgdBlockbits - compatBsizeShift).toUInt64
  else val

/-- `tgt_grant_deflate(tgd, val)`. -/
def tgtGrantDeflate (tgd : TgGrants) (val : UInt64) : UInt64 :=
  if tgd.tgdBlockbits > compatBsizeShift then val >>> (tgd.tgdBlockbits - compatBsizeShift).toUInt64
  else val

/-- `tgt_grant_chunk(exp, lut, data)`: the unit of grant. `self` tells the
self export; `data` is whether the connect data being handled carries
`GRANT_PARAM`, `none` outside a connection. -/
def tgtGrantChunk (tgd : TgGrants) (self : Bool) (ted : TgExport) (data : Option Bool) : UInt64 :=
  let chunk : UInt64 := ted.maxBrwSize.toUInt64
  if self then (ostMaxPrecreate * tgd.ddpInodespace / 2).toUInt64
  else if (data = none ∧ ted.grantParam = false) ∨ data = some false then
    -- enough for two full RPCs
    tgtGrantInflate tgd chunk <<< 1
  else
    -- two full RPCs and the extent tax of each
    let tax : UInt64 := (1 : UInt64) <<< tgd.tgdBlockbits.toUInt64
    let tax := tax * tgd.ddpMaxExtentBlks.toUInt64
    let tax := (chunk + tax - 1) / tax
    let tax := tax * tgd.ddpExtentTax.toUInt64
    (chunk + tax) * 2

/-- `TGT_GRANT_SHRINK_LIMIT(exp)`. -/
def tgtGrantShrinkLimit (ted : TgExport) : Nat := 2 * 8 * ted.maxBrwSize

/-! ## The client's announcements -/

/-- The clamp of an inflated `o_undirty` or `o_dropped` below
`OBD_MAX_GRANT`. -/
def tgtGrantClampMax (tgd : TgGrants) (tmp : UInt64) : UInt64 :=
  if tmp ≥ obdMaxGrant then obdMaxGrant &&& ~~~((1 : UInt64) <<< tgd.tgdBlockbits.toUInt64) else tmp

/-- The first half of `tgt_grant_incoming`: the client's values, with a
negative `o_dirty` dropped, in the target's units. -/
def tgtGrantIncomingObdo (tgd : TgGrants) (ted : TgExport) (oa : Obdo) : Obdo :=
  let oa := if narrowLong oa.oDirty.toNat < 0 then { oa with oDirty := 0 } else oa
  -- a client without the grant parameters counts in 4 KiB pages
  if ted.grantParam then oa
  else
    { oa with
      oGrant := tgtGrantInflate tgd oa.oGrant
      oDirty := tgtGrantInflate tgd oa.oDirty
      oUndirty := (tgtGrantClampMax tgd (tgtGrantInflate tgd oa.oUndirty.toUInt64)).toUInt32
      oDropped := (tgtGrantClampMax tgd (tgtGrantInflate tgd oa.oDropped.toUInt64)).toUInt32 }

/-- The second half of `tgt_grant_incoming`: the announced dirty data and
the dropped grant taken into the accounting, then the `LBUG` on a negative
per-export value. -/
def tgtGrantIncomingAccount (tgd : TgGrants) (ted : TgExport) (dirty dropped chunk : Int) :
    Option (TgGrants × TgExport) :=
  let cap := narrowLong (ted.tedGrant + 4 * chunk)
  let dirty := if dirty > cap then cap else dirty
  -- the totals are unsigned: a signed operand is taken modulo 2^64
  let tgd := { tgd with tgdTotDirty := tgd.tgdTotDirty + UInt64.ofInt (dirty - ted.tedDirty) }
  let dropped := if ted.tedGrant < dropped then 0 else dropped
  let dropped := if tgd.tgdTotGranted < UInt64.ofInt dropped then 0 else dropped
  let tgd := { tgd with tgdTotGranted := tgd.tgdTotGranted - UInt64.ofInt dropped }
  let ted := { ted with tedGrant := narrowLong (ted.tedGrant - dropped), tedDirty := dirty }
  if ted.tedDirty < 0 ∨ ted.tedGrant < 0 ∨ ted.tedPending < 0 then none
  else some (tgd, ted)

/-- `tgt_grant_incoming(env, exp, oa, chunk)`. -/
def tgtGrantIncoming (tgd : TgGrants) (ted : TgExport) (oa : Obdo) (chunk : Int) :
    Option (TgGrants × TgExport × Obdo) :=
  if oa.oValid &&& (obdMdFlblocks ||| obdMdFlgrant) ≠ obdMdFlblocks ||| obdMdFlgrant then
    some (tgd, ted, { oa with oValid := oa.oValid &&& ~~~obdMdFlgrant })
  else
    let oa := tgtGrantIncomingObdo tgd ted oa
    (tgtGrantIncomingAccount tgd ted (narrowLong oa.oDirty.toNat) oa.oDropped.toNat chunk).map fun (tgd, ted) =>
      (tgd, ted, oa)

/-- `tgt_grant_shrink(exp, oa, left_space)`: the client gives back `o_grant`,
when space runs low. -/
def tgtGrantShrink (tgd : TgGrants) (ted : TgExport) (oa : Obdo) (left : Nat) :
    TgGrants × TgExport × Obdo :=
  if left ≥ tgd.tgdTotGrantedClients * tgtGrantShrinkLimit ted then (tgd, ted, oa)
  else
    let grantShrink := narrowLong oa.oGrant.toNat
    let grantShrink := if ted.tedGrant < grantShrink then ted.tedGrant else grantShrink
    ({ tgd with tgdTotGranted := tgd.tgdTotGranted - UInt64.ofInt grantShrink },
      { ted with tedGrant := narrowLong (ted.tedGrant - grantShrink) }, { oa with oGrant := 0 })

/-- `tgt_grant_prepare_read(env, exp, oa)`. `left` is what
`tgt_grant_space_left` finds for a shrink request. -/
def tgtGrantPrepareRead (tgd : TgGrants) (self : Bool) (ted : TgExport) (oa : Obdo) (left : Nat) :
    Option (TgGrants × TgExport × Obdo) :=
  if oa.oValid &&& obdMdFlgrant = 0 then some (tgd, ted, oa)
  else
    let doShrink := oa.oValid &&& obdMdFlflags ≠ 0 ∧ oa.oFlags &&& obdFlShrinkGrant ≠ 0
    let chunk := narrowLong (tgtGrantChunk tgd self ted none).toNat
    (tgtGrantIncoming tgd ted oa chunk).map fun (tgd, ted, oa) =>
      -- a shrink request may give grant back; no grant is handed out on a read
      let r := if doShrink then tgtGrantShrink tgd ted oa left else (tgd, ted, { oa with oGrant := 0 })
      (r.1, r.2.1, if ted.grantParam then r.2.2 else { r.2.2 with oGrant := tgtGrantDeflate r.1 r.2.2.oGrant })

/-! ## Granting at connection -/

/-- `tgt_grant_alloc(exp, curgrant, want, left, chunk, conservative)`: the
space granted, the arithmetic in `u64` as the code mixes it. -/
def tgtGrantAlloc (tgd : TgGrants) (self : Bool) (ted : TgExport) (curgrant want left : UInt64) (chunk : Int)
    (conservative : Bool) : Option (UInt64 × TgGrants × TgExport) :=
  let grantU : UInt64 := UInt64.ofInt ted.tedGrant
  let chunkU : UInt64 := UInt64.ofInt chunk
  if (self = false ∧ ted.grantParam = false ∧ tgd.tgdGrantCompatDisable) ∨ left = 0 ∨ ted.expFailed then
    some (0, tgd, ted)
  else if want > obdMaxGrant then some (0, tgd, ted)
  else if curgrant ≥ want ∨ curgrant ≥ UInt64.ofInt (ted.tedGrant + chunk) then some (0, tgd, ted)
  else
    let conservative := conservative && !tgd.obdRecovering
    -- at most an eighth of the free space in one go
    let left := if conservative then left >>> 3 else left
    let grant := min (want - curgrant) left
    -- rounded up to the block size
    let grant := (grant + ((1 : UInt64) <<< tgd.tgdBlockbits.toUInt64) - 1) &&&
      ~~~(((1 : UInt64) <<< tgd.tgdBlockbits.toUInt64) - 1)
    if grant = 0 then some (0, tgd, ted)
    else
      let grant := if grant > chunkU ∧ conservative then chunkU else grant
      if want + chunkU ≤ grantU then some (0, tgd, ted)
      else
        let grant := if grantU + grant > want + chunkU then want + chunkU - grantU else grant
        let tgd := { tgd with tgdTotGranted := tgd.tgdTotGranted + grant }
        let ted := { ted with tedGrant := narrowLong (grantU + grant).toNat }
        if ted.tedGrant < 0 then none else some (grant, tgd, ted)

/-- `tgt_grant_connect(env, exp, data, new_conn)`: the connect data's
`RDONLY`, `GRANT` and `ocd_grant`; its `GRANT_PARAM` is the export's. -/
def tgtGrantConnect (tgd : TgGrants) (self : Bool) (ted : TgExport) (rdonly grantFlag : Bool) (ocdGrant : UInt64)
    (left : UInt64) (newConn : Bool) : Option (TgGrants × TgExport) :=
  if rdonly ∨ (ted.grantParam = false ∧ tgd.tgdGrantCompatDisable) then some (tgd, ted)
  else
    let want := if ted.grantParam then ocdGrant else tgtGrantInflate tgd ocdGrant
    let chunk := narrowLong (tgtGrantChunk tgd self ted (some ted.grantParam)).toNat
    (tgtGrantAlloc tgd self ted (UInt64.ofInt ted.tedGrant) want left chunk newConn).map fun (_, tgd, ted) =>
      -- the dirty accounting starts again
      let tgd := { tgd with tgdTotDirty := tgd.tgdTotDirty - UInt64.ofInt ted.tedDirty }
      let ted := { ted with tedDirty := 0 }
      let tgd :=
        if newConn ∧ grantFlag then { tgd with tgdTotGrantedClients := tgd.tgdTotGrantedClients + 1 } else tgd
      (tgd, ted)

/-- `tgt_grant_discard(exp)`: the export's grant and dirty data leave the
totals; its pending grant stays until its writes commit. -/
def tgtGrantDiscard (tgd : TgGrants) (ted : TgExport) : TgGrants × TgExport :=
  ({ tgd with
      tgdTotGranted := tgd.tgdTotGranted - UInt64.ofInt ted.tedGrant
      tgdTotDirty := tgd.tgdTotDirty - UInt64.ofInt ted.tedDirty },
    { ted with tedGrant := 0, tedDirty := 0 })

/-! ## The target as a state machine -/

/-- The target's grant data and its exports: the self export first, then
the live and the unlinked ones. -/
structure TgState where
  tgd : TgGrants
  exports : List TgExport
  deriving DecidableEq, Repr

/-- The grant operations, on the export at an index. -/
inductive GrantEvent
  | connect (i : Nat) (rdonly grantFlag : Bool) (ocdGrant left : UInt64) (newConn : Bool)
  | prepareRead (i : Nat) (oa : Obdo) (left : Nat)
  | discard (i : Nat)
  deriving DecidableEq, Repr

/-- The export an operation is on. -/
def GrantEvent.index : GrantEvent → Nat
  | .connect i .. => i
  | .prepareRead i .. => i
  | .discard i => i

/-- One operation, on the export `e.index`; it fails only at an `LBUG`. -/
def tgtGrantStep (s : TgState) (e : GrantEvent) : Option (Unit × TgState) :=
  match s.exports[e.index]? with
  | none => some ((), s)
  | some ted =>
    let self := e.index == 0
    let res : Option (TgGrants × TgExport) :=
      match e with
      | .connect _ rdonly grantFlag ocdGrant left newConn =>
        tgtGrantConnect s.tgd self ted rdonly grantFlag ocdGrant left newConn
      | .prepareRead _ oa left => (tgtGrantPrepareRead s.tgd self ted oa left).map fun (tgd, ted, _) => (tgd, ted)
      | .discard _ => some (tgtGrantDiscard s.tgd ted)
    res.map fun (tgd, ted) => ((), { tgd := tgd, exports := s.exports.set e.index ted })

end Lustre.Target
