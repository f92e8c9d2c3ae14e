import Mathlib
import Lustre.Basic

/-! # Cancelling records of an llog

`lustre/obdclass/llog.c`. An llog starts with a header, `struct
llog_log_hdr`, whose bitmap has one bit per record index (bit 0 is the header
itself) and whose `llh_count` counts the records in use, the header
included. `llog_cancel_arr_rec(env, loghandle, num, index)` clears the bits
of the `num` indices of `index` and lowers `llh_count` by `num`, writes the
header back in a transaction, and destroys a plain llog with
`LLOG_F_ZAP_WHEN_EMPTY` that is left with its header only; it returns
`LLOG_DEL_PLAIN` then. On a failure it sets back the bits it cleared, from
two places: after `out_unlock` for an error in the loop or from the header
write, and after `out_trans` when `dt_trans_stop` fails.

The storage operations (`dt_trans_create`, the declarations,
`dt_trans_start_local`, `llog_write_rec`, `llog_trans_destroy` and
`dt_trans_stop`) are inputs: each gives back the status it returned, and the
model says only what the function does with it. The locks are left out, the
array is the list `index` with `num` its length, and the indices are taken
to be within the bitmap, which is a function from index to bit.
`LLOG_HDR_BITMAP_SIZE(llh)` is a field of the header.
-/

namespace Lustre.Obdclass

/-- `LLOG_F_ZAP_WHEN_EMPTY`. -/
def llogFZapWhenEmpty : UInt32 := 0x1

/-- `LLOG_DEL_PLAIN`: the cancel destroyed the plain llog. -/
def llogDelPlain : Int := 0x0003

/-- The fields of `struct llog_log_hdr` that a cancel reads or writes;
`llhBitmapSize` is `LLOG_HDR_BITMAP_SIZE(llh)`. -/
structure LlogLogHdr where
  llhCount : UInt32
  llhFlags : UInt32
  llhBitmapSize : UInt32
  llhBitmap : Nat → Bool

/-- `struct llog_handle`: the header, `lgh_last_idx`, and whether the llog
is a plain llog of a catalog whose current llog is another one
(`phd_cat_handle != NULL && chd_current_log != loghandle`). -/
structure LlogHandle where
  lghHdr : LlogLogHdr
  lghLastIdx : Int
  catNotCurrent : Bool

/-- The storage under the llog: whether the device is read-only
(`dd_rdonly`), and the status each operation returns, an error being
negative (`PTR_ERR` for `dt_trans_create`). -/
structure LlogCancelEnv where
  ddRdonly : Bool
  transCreate : Int
  declareWriteRec : Int
  declareDestroy : Int
  transStart : Int
  writeRec : Int
  transDestroy : Int
  transStop : Int

/-- `__test_and_clear_bit_le(nr, bitmap)`: the old bit, and the bitmap with
the bit cleared. -/
def testAndClearBitLe (nr : Nat) (bitmap : Nat → Bool) : Bool × (Nat → Bool) :=
  (bitmap nr, Function.update bitmap nr false)

/-- `set_bit_le(nr, bitmap)`. -/
def setBitLe (nr : Nat) (bitmap : Nat → Bool) : Nat → Bool :=
  Function.update bitmap nr true

/-- The loop `for (i = 0; i < num; ++i)` that clears the bits, from the
entry `i` on: where `i` stops, the bitmap, and `rc` (`0` when the loop ends,
which is the `rc` of `dt_trans_start_local` that got it there). -/
def llogClearLoop : List Nat → Nat → (Nat → Bool) → Nat × (Nat → Bool) × Int
  | [], i, bitmap => (i, bitmap, 0)
  | idx :: rest, i, bitmap =>
    -- "Can't cancel index 0 which is header"
    if idx = 0 then (i, bitmap, -einval)
    else
      let (old, bitmap) := testAndClearBitLe idx bitmap
      if ¬ old then (i, bitmap, -enoent)
      else llogClearLoop rest (i + 1) bitmap

/-- The loop `for (i = i - 1; i >= 0; i--) set_bit_le(index[i], ...)` that
sets back the bits of the first `i` entries, the last first. -/
def llogRestoreLoop (index : List Nat) : Nat → (Nat → Bool) → (Nat → Bool)
  | 0, bitmap => bitmap
  | i + 1, bitmap => llogRestoreLoop index i (setBitLe (index.getD i 0) bitmap)

/-- The locals of `llog_cancel_arr_rec` at its labels. -/
structure LlogCancelState where
  hdr : LlogLogHdr
  i : Int
  subtractCount : Bool
  rc : Int

/-- The block after `out_unlock:` for `num` entries. -/
def llogCancelOutUnlock (index : List Nat) (num : UInt32) (st : LlogCancelState) : LlogCancelState :=
  if st.rc < 0 then
    let hdr := if st.subtractCount then { st.hdr with llhCount := st.hdr.llhCount + num } else st.hdr
    { st with
      hdr := { hdr with llhBitmap := llogRestoreLoop index st.i.toNat hdr.llhBitmap }
      -- the loop leaves `i` at `-1`, or below when it starts there
      i := min (st.i - 1) (-1)
      subtractCount := false }
  else st

/-- The block after `out_trans:`, with `rc1` what `dt_trans_stop` returns:
the header and the value returned. -/
def llogCancelOutTrans (rc1 : Int) (index : List Nat) (num : UInt32) (st : LlogCancelState) :
    LlogLogHdr × Int :=
  let rc := if st.rc = 0 then rc1 else st.rc
  if rc1 < 0 then
    let hdr := if st.subtractCount then { st.hdr with llhCount := st.hdr.llhCount + num } else st.hdr
    ({ hdr with llhBitmap := llogRestoreLoop index st.i.toNat hdr.llhBitmap }, rc)
  else (st.hdr, rc)

/-- `llog_cancel_arr_rec(env, loghandle, num, index)`: the handle after the
call, and what it returns. -/
def llogCancelArrRec (env : LlogCancelEnv) (h : LlogHandle) (index : List Nat) : LlogHandle × Int :=
  let num : UInt32 := UInt32.ofNat index.length
  let finish (st : LlogCancelState) : LlogHandle × Int :=
    let r := llogCancelOutTrans env.transStop index num st
    ({ h with lghHdr := r.1 }, r.2)
  let zap := h.lghHdr.llhFlags &&& llogFZapWhenEmpty != 0
  let st : LlogCancelState := ⟨h.lghHdr, 0, false, 0⟩
  if env.ddRdonly then (h, 0)
  else if env.transCreate < 0 then (h, env.transCreate)
  else if env.declareWriteRec < 0 then finish { st with rc := env.declareWriteRec }
  else if zap && env.declareDestroy < 0 then finish { st with rc := env.declareDestroy }
  else if env.transStart < 0 then finish { st with rc := env.transStart }
  else
    let r := llogClearLoop index 0 h.lghHdr.llhBitmap
    let hdr := { h.lghHdr with llhBitmap := r.2.1 }
    if r.2.2 < 0 then finish (llogCancelOutUnlock index num ⟨hdr, r.1, false, r.2.2⟩)
    else
      let hdr := { hdr with llhCount := hdr.llhCount - num }
      if env.writeRec ≠ 0 then finish (llogCancelOutUnlock index num ⟨hdr, r.1, true, env.writeRec⟩)
      else if zap && hdr.llhCount == 1 &&
          (UInt32.ofInt h.lghLastIdx == hdr.llhBitmapSize - 1 || h.catNotCurrent) then
        -- never try to destroy it again
        let hdr := { hdr with llhFlags := hdr.llhFlags &&& ~~~llogFZapWhenEmpty }
        -- a failed destroy returns 0: the records are gone from the bitmap
        let rc := if env.transDestroy < 0 then 0 else llogDelPlain
        finish (llogCancelOutUnlock index num ⟨hdr, r.1, true, rc⟩)
      else finish (llogCancelOutUnlock index num ⟨hdr, r.1, true, 0⟩)

/-- `llog_cancel_rec(env, loghandle, index)`. -/
def llogCancelRec (env : LlogCancelEnv) (h : LlogHandle) (index : Nat) : LlogHandle × Int :=
  llogCancelArrRec env h [index]

end Lustre.Obdclass
