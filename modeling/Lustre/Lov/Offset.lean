import Mathlib
import Lustre.Basic

/-! # Where a file offset lands in a striped component

`lustre/lov/lov_offset.c`. A component of a file layout stripes its extent
RAID0 over `lsme_stripe_count` objects in stripes of `lsme_stripe_size`
bytes; a Data-on-MDT component keeps its data in one object on the MDT, and
its stripe width is the stripe size. The functions here map file offsets and
sizes to object offsets and sizes and back, all through `lov_do_div64`
(quotient and remainder of the `u64` value).

Each function takes the component's entry, `lsm->lsm_entries[index]`, in
place of the layout and the index. Offsets and sizes are the `u64` values the
code divides; `loff_t` results have the same 64 bits.
-/

namespace Lustre.Lov

/-- `struct lu_extent`: the bytes `[e_start, e_end)`. -/
structure LuExtent where
  eStart : UInt64
  eEnd : UInt64
  deriving DecidableEq, Repr

/-- `lu_extent_is_overlapped(e1, e2)`. -/
def luExtentIsOverlapped (e1 e2 : LuExtent) : Bool :=
  e1.eStart < e2.eEnd && e2.eStart < e1.eEnd

/-- The fields of `struct lov_stripe_md_entry` the offset code reads;
`lsmeIsDom` is `lsme_is_dom(entry)`, a pattern of `LOV_PATTERN_MDT`. -/
structure LovStripeMdEntry where
  lsmeExtent : LuExtent
  lsmeStripeSize : UInt32
  lsmeStripeCount : UInt16
  lsmeIsDom : Bool
  deriving DecidableEq, Repr

/-- `stripe_width(lsm, index)`. -/
def stripeWidth (e : LovStripeMdEntry) : UInt64 :=
  if e.lsmeIsDom then e.lsmeStripeSize.toUInt64
  else e.lsmeStripeSize.toUInt64 * e.lsmeStripeCount.toUInt64

/-- `lov_stripe_size(lsm, index, ost_size, stripeno)`: the file size that an
object of stripe `stripeno` with `ost_size` bytes ends at. -/
def lovStripeSize (e : LovStripeMdEntry) (ostSize : UInt64) (stripeno : Nat) : UInt64 :=
  let ssize := e.lsmeStripeSize.toUInt64
  if ostSize = 0 then 0
  else
    let swidth := stripeWidth e
    let stripeSize := ostSize % ssize
    let ostSize := ostSize / ssize
    if stripeSize ≠ 0 then ostSize * swidth + stripeno.toUInt64 * ssize + stripeSize
    else (ostSize - 1) * swidth + (stripeno.toUInt64 + 1) * ssize

/-- `lov_stripe_offset(lsm, index, lov_off, stripeno, &obdoff)`: where the
file offset lands in the object of stripe `stripeno`, with `0`; or, with `-1`,
the start of that stripe further on, or, with `1`, the end of it behind. -/
def lovStripeOffset (e : LovStripeMdEntry) (lovOff : UInt64) (stripeno : Nat) : Int × UInt64 :=
  let ssize := e.lsmeStripeSize.toUInt64
  if lovOff = obdObjectEof then (0, obdObjectEof)
  else
    let swidth := stripeWidth e
    let stripeOff := lovOff % swidth
    let lovOff := lovOff / swidth
    let thisStripe := stripeno.toUInt64 * ssize
    if stripeOff < thisStripe then (-1, lovOff * ssize + 0)
    else if stripeOff - thisStripe ≥ ssize then (1, lovOff * ssize + ssize)
    else (0, lovOff * ssize + (stripeOff - thisStripe))

/-- `lov_size_to_stripe(lsm, index, file_size, stripeno)`: the size of the
object of stripe `stripeno` in a file of `file_size` bytes. -/
def lovSizeToStripe (e : LovStripeMdEntry) (fileSize : UInt64) (stripeno : Nat) : UInt64 :=
  let ssize := e.lsmeStripeSize.toUInt64
  if fileSize = obdObjectEof then obdObjectEof
  else
    let swidth := stripeWidth e
    let stripeOff := fileSize % swidth
    let fileSize := fileSize / swidth
    let thisStripe := stripeno.toUInt64 * ssize
    if stripeOff < thisStripe then
      -- to the end of the previous stripe, or zero
      if fileSize > 0 then (fileSize - 1) * ssize + ssize else fileSize * ssize + 0
    else if stripeOff - thisStripe ≥ ssize then fileSize * ssize + ssize
    else fileSize * ssize + (stripeOff - thisStripe)

/-- `lov_stripe_intersects(lsm, index, stripeno, ext, &obd_start, &obd_end)`:
`none` for `0`, and for `1` the closed range `[*obd_start, *obd_end]` of the
object of stripe `stripeno` that the extent covers. -/
def lovStripeIntersects (e : LovStripeMdEntry) (stripeno : Nat) (ext : LuExtent) : Option (UInt64 × UInt64) :=
  if !luExtentIsOverlapped ext e.lsmeExtent then none
  else
    let start := max ext.eStart e.lsmeExtent.eStart
    let end_ := min ext.eEnd e.lsmeExtent.eEnd
    let end_ := if end_ ≠ obdObjectEof then end_ - 1 else end_
    let s := lovStripeOffset e start stripeno
    let t := lovStripeOffset e end_ stripeno
    -- neither end is in the stripe, and both moved to the same place
    if s.1 ≠ 0 ∧ t.1 ≠ 0 ∧ s.2 = t.2 then none
    -- an end moved forward to the next stripe belongs to the one before
    else some (s.2, if t.1 ≠ 0 then t.2 - 1 else t.2)

/-- `lov_stripe_number(lsm, index, lov_off)`: the stripe a file offset is
written into. -/
def lovStripeNumber (e : LovStripeMdEntry) (lovOff : UInt64) : Nat :=
  let ssize := e.lsmeStripeSize.toUInt64
  let stripeOff := lovOff % stripeWidth e
  (stripeOff / ssize).toNat

end Lustre.Lov
