import Mathlib
import Lustre.Basic
import Lustre.Lib.LinearProbe

/-! # The round-robin order of a pool's targets

`lod_qos_calc_rr` in `lustre/lod/lod_qos.c` lays the targets of a pool out
in `lqr_pool.op_array` so that round-robin allocation takes them from the
servers in turn. It starts from an array of `n` empty slots
(`LOV_QOS_EMPTY`), takes the servers of `lq_svr_list` one after another,
and puts the `j`-th target of a server at slot `j * n / lsq_tgt_count`, or,
when that slot is taken, at the next empty slot after it, going round the
array (`LinearProbe.scan`). At the end it counts the targets placed
against `n`.

The target table enters as its bitmap, the server of each target
(`ltq_svr`), each server's `lsq_tgt_count` and the server list. The table
holds indices up to `TGT_PTRS * TGT_PTRS_PER_BLOCK` only (`ltd_add_tgt`
refuses others), so a target is never `LOV_QOS_EMPTY`; `LuTgtDescs`
carries that bound, and that the list holds each server once. Allocations
do not fail, and the lock `lq_rw_sem` is held throughout.

A computation that the code does not finish is `none`: a division by a
server count of 0, a probe outside the array, a probe that goes round an
array with no empty slot (the `while` loop would not stop), or the
`LASSERT` of `lu_tgt_pool_extend` on an empty pool.
-/

namespace Lustre.Lod

/-- `LOV_QOS_EMPTY`. -/
def lovQosEmpty : Nat := 0xFFFFFFFF

/-- `TGT_PTRS * TGT_PTRS_PER_BLOCK` with 4 KiB pages: `ltd_add_tgt`
refuses a target index above it. -/
def tgtTableSize : Nat := 65536

/-- What `lod_qos_calc_rr` reads of `struct lu_tgt_descs` and its QoS
data, over servers `σ`. -/
structure LuTgtDescs (σ : Type) where
  /-- `ltd_tgt_bitmap` -/
  ltdTgtBitmap : Nat → Bool
  /-- `LTD_TGT(ltd, i)->ltd_qos.ltq_svr` -/
  ltqSvr : Nat → σ
  /-- `svr->lsq_tgt_count` -/
  lsqTgtCount : σ → Nat
  /-- `ltd_qos.lq_svr_list` -/
  lqSvrList : List σ
  svr_nodup : lqSvrList.Nodup
  bitmap_le : ∀ t, ltdTgtBitmap t = true → t ≤ tgtTableSize

/-- `struct lu_qos_rr`: the array `lqr_pool.op_array` of `op_count` slots,
and the bit `LQ_DIRTY` of `lqr_flags`. -/
structure LuQosRr where
  lqrPool : List Nat
  lqrDirty : Bool
  deriving DecidableEq, Repr

/-- The `while` loop from slot `next` to an empty slot of `arr`: it stops
after `op_count` slots, when it would go round for ever. -/
def probeEmpty (arr : List Nat) (next : Nat) : Option Nat :=
  LinearProbe.scan (· == lovQosEmpty) arr arr.length next

section Place

variable {σ : Type} [DecidableEq σ] (ltd : LuTgtDescs σ)

/-- The loop over the pool for server `svr`, from the pool's targets
`rest`, with `j` of the server's targets placed in `arr` and `placed` in
all: the array and the count after it. -/
def placeSvrTgts (svr : σ) (n : Nat) : List Nat → Nat → List Nat → Nat → Option (List Nat × Nat)
  | [], _, arr, placed => some (arr, placed)
  | t :: rest, j, arr, placed =>
    if !ltd.ltdTgtBitmap t then placeSvrTgts svr n rest j arr placed
    else if ltd.ltqSvr t ≠ svr then placeSvrTgts svr n rest j arr placed
    else if ltd.lsqTgtCount svr = 0 then none
    else
      -- evenly space the server's targets: `j * op_count` is unsigned
      match probeEmpty arr (j * n % 2 ^ 32 / ltd.lsqTgtCount svr) with
      | none => none
      | some next => placeSvrTgts svr n rest (j + 1) (arr.set next t) (placed + 1)

/-- The loop over the servers `svrs` of `lq_svr_list`. -/
def placeSvrs (srcPool : List Nat) (n : Nat) : List σ → List Nat → Nat → Option (List Nat × Nat)
  | [], arr, placed => some (arr, placed)
  | svr :: rest, arr, placed =>
    match placeSvrTgts ltd svr n srcPool 0 arr placed with
    | none => none
    | some (arr, placed) => placeSvrs srcPool n rest arr placed

/-- `lod_qos_calc_rr(lod, ltd, src_pool, lqr)`: the return code and the
round-robin list after. A list that is not dirty is kept. -/
def lodQosCalcRr (srcPool : List Nat) (lqr : LuQosRr) : Option (Int × LuQosRr) :=
  if !lqr.lqrDirty then some (0, lqr)
  else if srcPool.length = 0 then none
  else
    match placeSvrs ltd srcPool srcPool.length ltd.lqSvrList (List.replicate srcPool.length lovQosEmpty) 0 with
    | none => none
    | some (arr, placed) =>
      -- "This should never happen": the list stays dirty
      if placed ≠ srcPool.length then some (-eagain, ⟨arr, true⟩) else some (0, ⟨arr, false⟩)

end Place

end Lustre.Lod
