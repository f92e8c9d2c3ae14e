import Mathlib
import Lustre.Basic
import Lustre.Fid
import Lustre.Lib.CArith
import Lustre.Lib.Footprint

/-! # Reading a layout from its extended attribute

`llapi_layout_get_by_xattr` in `lustre/utils/liblustreapi_layout.c` turns
the `lustre.lov` xattr of a file, as `getxattr` returned it, into a
`struct llapi_layout`: a list of components, each with its pattern, stripe
size and count, pool name and objects. The xattr is the user form of the
LOV EA (`lustre_user.h`):

* a plain layout, `struct lov_user_md_v1` (32 bytes) or `_v3` (48 bytes,
  with a 16-byte pool name), then `struct lov_user_ost_data_v1` objects of
  24 bytes;
* a composite layout, `struct lov_comp_md_v1` (32 bytes) and
  `lcm_entry_count` entries `struct lov_comp_md_entry_v1` of 48 bytes, each
  naming the offset and size of a plain layout blob.

The xattr may come in the other byte order; `llapi_layout_swab_lov_user_md`
then swaps its fields in place. The only check of the size is
`llapi_layout_lum_truncated`, against the header of the magic found.

The buffer is modelled over `Footprint.Probe`, from its first byte on; every
load, and every in-place swap, is recorded. The host is little-endian, so
`LLAPI_LAYOUT_GET_COPY` does not copy and a field is read with `loadLE`.
Allocations do not fail. A field that one C expression reads several times
is loaded once. The source is release 2.14.51, so the option
`LLAPI_LXF_CHECK_OLD` is not compiled in.
-/

namespace Lustre.Llapi

open Footprint Lustre.Fid

/-! ## Constants -/

/-- `LOV_USER_MAGIC_V1`. -/
def lovUserMagicV1 : Nat := 0x0BD10BD0
/-- `LOV_USER_MAGIC_V3`. -/
def lovUserMagicV3 : Nat := 0x0BD30BD0
/-- `LOV_USER_MAGIC_COMP_V1`. -/
def lovUserMagicCompV1 : Nat := 0x0BD60BD0

/-- `LOV_MAX_STRIPE_COUNT`. -/
def lovMaxStripeCount : Nat := 2000

/-- `LLAPI_LAYOUT_DEFAULT`. -/
def llapiLayoutDefault : Nat := 0x1000000000000002
/-- `LLAPI_LAYOUT_WIDE`. -/
def llapiLayoutWide : Nat := 0x1000000000000003
/-- `LLAPI_LAYOUT_RAID0`. -/
def llapiLayoutRaid0 : Nat := 0
/-- `LLAPI_LAYOUT_MDT`. -/
def llapiLayoutMdt : Nat := 2
/-- `LLAPI_LAYOUT_OVERSTRIPING`. -/
def llapiLayoutOverstriping : Nat := 4

/-- `LLAPI_LAYOUT_GET_CHECK`. -/
def llapiLayoutGetCheck : Nat := 0x0004

/-- `__swab32(x)`. -/
def swab32 (x : Nat) : Nat := swabN 4 x

/-- `lov_user_md_size(stripes, lmm_magic)`. -/
def lovUserMdSize (stripes magic : Nat) : Nat :=
  let stripes := if stripes = 0xFFFF then 0 else stripes
  if magic = lovUserMagicV1 then 32 + stripes * 24 else 48 + stripes * 24

/-- The `size_t` an `int` or `ssize_t` converts to. -/
def sizeT (x : Int) : Nat := (x % 2 ^ 64).toNat

/-! ## The result -/

/-- `struct lov_user_ost_data_v1`, as copied into `llc_objects`. -/
structure LovUserOstData where
  lOstOi : OstId
  lOstGen : Nat
  lOstIdx : Nat
  deriving DecidableEq, Repr

/-- `struct llapi_layout_comp`; `llc_list` is the place in the list. -/
structure LlapiLayoutComp where
  llcPattern : Nat
  llcStripeSize : Nat
  llcStripeCount : Nat
  llcStripeOffset : Nat
  llcPoolName : List UInt8
  llcObjects : List LovUserOstData
  llcExtent : Nat × Nat
  llcId : Nat
  llcFlags : Nat
  llcTimestamp : Nat
  llcOndisk : Bool
  deriving DecidableEq, Repr

/-- `struct llapi_layout`; `llot_cur_comp` is the last component, and
`llot_magic` is always `LLAPI_LAYOUT_MAGIC`. -/
structure LlapiLayout where
  llotGen : Nat
  llotFlags : Nat
  llotIsComposite : Bool
  llotMirrorCount : Nat
  llotCompList : List LlapiLayoutComp
  deriving DecidableEq, Repr

/-- The object of 24 bytes `b` of a `memcpy`. -/
def decodeOstData (b : List UInt8) : LovUserOstData :=
  ⟨⟨⟨UInt64.ofNat (ofLE (b.take 8)), UInt32.ofNat (ofLE ((b.drop 8).take 4)),
      UInt32.ofNat (ofLE ((b.drop 12).take 4))⟩⟩,
    ofLE ((b.drop 16).take 4), ofLE ((b.drop 20).take 4)⟩

/-- The `n` objects of a `memcpy` of `n * 24` bytes. -/
def decodeObjects : Nat → List UInt8 → List LovUserOstData
  | 0, _ => []
  | n + 1, b => decodeOstData (b.take 24) :: decodeObjects n (b.drop 24)

/-! ## The helpers -/

/-- `llapi_layout_objects_in_lum(lum, lum_size)`: the objects that fit
after the header of the magic found at `lum`, as an `int`. -/
def llapiLayoutObjectsInLum (lum lumSize : Nat) : Probe Int := do
  if lumSize < lovUserMdSize 0 lovUserMagicV1 then return 0
  let m ← loadLE lum 4
  let magic := if m = swab32 lovUserMagicV1 ∨ m = swab32 lovUserMagicV3 then swab32 m else m
  let baseSize := lovUserMdSize 0 magic
  if lumSize ≤ baseSize then return 0
  return CArith.narrowInt ((lumSize - baseSize) / 24)

/-- `llapi_layout_lum_truncated(lum, lum_size)`: the buffer is shorter
than the header of its magic, in either byte order, or the magic is
unknown. -/
def llapiLayoutLumTruncated (lumSize : Nat) : Probe Bool := do
  if lumSize < 4 then return true
  let m ← loadLE 0 4
  if m = lovUserMagicV1 ∨ m = swab32 lovUserMagicV1 then return lumSize < lovUserMdSize 0 lovUserMagicV1
  if m = lovUserMagicV3 ∨ m = swab32 lovUserMagicV3 then return lumSize < lovUserMdSize 0 lovUserMagicV3
  if m = lovUserMagicCompV1 ∨ m = swab32 lovUserMagicCompV1 then return lumSize < 32
  return true

/-- The loop of `llapi_layout_swab_lov_user_md` over the objects: the
`l_ost_idx` of each of `objCount` objects from `lod`. -/
def swabObjects : Nat → Nat → Probe Unit
  | 0, _ => pure ()
  | n + 1, lod => do
    swabField (lod + 20) 4
    swabObjects n (lod + 24)

/-- One turn of the loop of `llapi_layout_swab_lov_user_md`, on the plain
layout at `lum` of `lumSize` bytes. -/
def swabLum (lum : Nat) (lumSize : Int) : Probe Unit := do
  let objCount ← llapiLayoutObjectsInLum lum (sizeT lumSize)
  swabField lum 4
  swabField (lum + 4) 4
  swabField (lum + 24) 4
  swabField (lum + 28) 2
  swabField (lum + 30) 2
  let magic ← loadLE lum 4
  let lod := if magic ≠ lovUserMagicV1 then lum + 48 else lum + 32
  swabObjects objCount.toNat lod

/-- The entries of a composite layout from entry `i`: each entry is
swapped, then the blob it points to. -/
def swabEntries : Nat → Nat → Probe Unit
  | 0, _ => pure ()
  | n + 1, i => do
    let ent := 32 + 48 * i
    swabField ent 4
    swabField (ent + 4) 4
    swabField (ent + 36) 8
    swabField (ent + 8) 8
    swabField (ent + 16) 8
    swabField (ent + 24) 4
    swabField (ent + 28) 4
    let lum ← loadLE (ent + 24) 4
    let lumSize ← loadLE (ent + 28) 4
    swabLum lum (CArith.narrowInt lumSize)
    swabEntries n (i + 1)

/-- `llapi_layout_swab_lov_user_md(lum, lum_size)`: a layout whose magic
is byte-swapped is swapped in place. -/
def llapiLayoutSwabLovUserMd (lumSize : Int) : Probe Unit := do
  let m ← loadLE 0 4
  if m ≠ swab32 lovUserMagicV1 ∧ m ≠ swab32 lovUserMagicV3 ∧ m ≠ swab32 lovUserMagicCompV1 then return
  if m = swab32 lovUserMagicCompV1 then
    swabField 0 4
    swabField 4 4
    swabField 8 4
    swabField 12 2
    swabField 14 2
    let entCount ← loadLE 14 2
    swabEntries entCount 0
  else swabLum 0 lumSize

/-- The loop of `llapi_layout_lum_valid` over the entries of a composite
layout: an entry that is not instantiated has no objects. -/
def validEntries : Nat → Nat → Probe Bool
  | 0, _ => pure true
  | n + 1, i => do
    let ent := 32 + 48 * i
    let lum ← loadLE (ent + 24) 4
    let lumSize ← loadLE (ent + 28) 4
    let objCount ← llapiLayoutObjectsInLum lum (sizeT (CArith.narrowInt lumSize))
    let flags ← loadLE (ent + 4) 4
    if flags &&& 0x10 = 0 ∧ objCount ≠ 0 then return false
    validEntries n (i + 1)

/-- `llapi_layout_lum_valid(lum, lum_size)`: the objects of a plain layout
are as many as its stripe count. -/
def llapiLayoutLumValid (lumSize : Int) : Probe Bool := do
  let m ← loadLE 0 4
  if m = lovUserMagicCompV1 then
    let entCount ← loadLE 14 2
    validEntries entCount 0
  else if m = lovUserMagicV1 ∨ m = lovUserMagicV3 then
    let objCount ← llapiLayoutObjectsInLum 0 (sizeT lumSize)
    let stripeCount ← loadLE 28 2
    return decide (objCount = stripeCount)
  else return false

/-! ## The components -/

/-- The fields of a component read from the plain layout at `v1`, with
`objCount` objects, into a component of extent `extent`, id `id`, flags
`flags` and timestamp `timestamp`. -/
def readComp (v1 : Nat) (objCount : Nat) (extent : Nat × Nat) (id flags timestamp : Nat) :
    Probe LlapiLayoutComp := do
  let pattern ← loadLE (v1 + 4) 4
  let llcPattern :=
    if pattern = lovPatternRaid0 then llapiLayoutRaid0
    else if pattern = lovPatternRaid0 ||| lovPatternOverstriping then llapiLayoutOverstriping
    else if pattern = lovPatternMdt then llapiLayoutMdt
    else pattern
  let stripeSize ← loadLE (v1 + 24) 4
  let stripeCount ← loadLE (v1 + 28) 2
  let stripeOffset ← loadLE (v1 + 30) 2
  let magic ← loadLE v1 4
  -- `snprintf` of the pool name reads the whole string, as `strlcpy` does
  let (poolName, objects) ← if magic ≠ lovUserMagicV1 then do
      let (name, _) ← strlcpyFrom (v1 + 32) 16
      let objects ← load (v1 + 48) (objCount * 24)
      pure (name, objects)
    else do
      let objects ← load (v1 + 32) (objCount * 24)
      pure ([], objects)
  let llcObjects := decodeObjects objCount objects
  let llcStripeOffset := if stripeOffset = 0xFFFF then llapiLayoutDefault else stripeOffset
  return {
    llcPattern
    llcStripeSize := if stripeSize = 0 then llapiLayoutDefault else stripeSize
    llcStripeCount :=
      if stripeCount = 0xFFFF then llapiLayoutWide else if stripeCount = 0 then llapiLayoutDefault else stripeCount
    llcStripeOffset := match llcObjects with
      | [] => llcStripeOffset
      | o :: _ => o.lOstIdx
    llcPoolName := poolName
    llcObjects
    llcExtent := extent
    llcId := id
    llcFlags := flags
    llcTimestamp := timestamp
    llcOndisk := true }

/-- One turn of the loop of `llapi_layout_get_by_xattr`: component `i` of
a composite layout, or the plain layout of `size` bytes. `__llapi_comp_alloc`
refuses more than `LOV_MAX_STRIPE_COUNT` objects. -/
def getComp (composite : Bool) (size : Int) (i : Nat) : Probe (Except Nat LlapiLayoutComp) := do
  let ent := 32 + 48 * i
  let (v1, size) ← if composite then do
      let off ← loadLE (ent + 24) 4
      let sz ← loadLE (ent + 28) 4
      pure (off, (sz : Int))
    else pure (0, size)
  let objCount ← llapiLayoutObjectsInLum v1 (sizeT size)
  -- the count is passed as an `unsigned int`
  if objCount < 0 ∨ lovMaxStripeCount < objCount then return .error einval.toNat
  if composite then
    let eStart ← loadLE (ent + 8) 8
    let eEnd ← loadLE (ent + 16) 8
    let id ← loadLE ent 4
    let flags ← loadLE (ent + 4) 4
    let timestamp ← if flags &&& lcmeFlNosync ≠ 0 then loadLE (ent + 36) 8 else pure 0
    return .ok (← readComp v1 objCount.toNat (eStart, eEnd) id flags timestamp)
  else return .ok (← readComp v1 objCount.toNat (0, lustreEof) 0 0 0)

/-- The loop of `llapi_layout_get_by_xattr` over the components, from
component `i`. -/
def getComps (composite : Bool) (size : Int) : Nat → Nat → Probe (Except Nat (List LlapiLayoutComp))
  | 0, _ => pure (.ok [])
  | n + 1, i => do
    match ← getComp composite size i with
    | .error e => return .error e
    | .ok comp =>
      match ← getComps composite size n (i + 1) with
      | .error e => return .error e
      | .ok comps => return .ok (comp :: comps)

/-- `llapi_layout_get_by_xattr(lov_xattr, lov_xattr_size, flags)`: the
layout, or the `errno` it sets when it returns `NULL`. -/
def llapiLayoutGetByXattr (lovXattrSize : Int) (flags : Nat) : Probe (Except Nat LlapiLayout) := do
  if lovXattrSize ≤ 0 then return .error einval.toNat
  -- a partial layout
  if ← llapiLayoutLumTruncated lovXattrSize.toNat then return .error erange.toNat
  llapiLayoutSwabLovUserMd (CArith.narrowInt lovXattrSize.toNat)
  if flags &&& llapiLayoutGetCheck ≠ 0 then
    if !(← llapiLayoutLumValid (CArith.narrowInt lovXattrSize.toNat)) then return .error ebadslt.toNat
  let magic ← loadLE 0 4
  let some (entCount, layout) ← (if magic = lovUserMagicCompV1 then do
      let entCount ← loadLE 14 2
      let _ ← loadLE 8 4
      let mirrorCount ← loadLE 16 2
      let gen ← loadLE 8 4
      let lcmFlags ← loadLE 12 2
      pure (some (entCount, (⟨gen, lcmFlags, true, (mirrorCount + 1) % 2 ^ 16, []⟩ : LlapiLayout)))
    else if magic = lovUserMagicV1 ∨ magic = lovUserMagicV3 then
      pure (some (1, (⟨0, 0, false, 1, []⟩ : LlapiLayout)))
    else pure none : Probe (Option (Nat × LlapiLayout)))
    | return .error eopnotsupp.toNat
  if entCount = 0 then return .error einval.toNat
  match ← getComps (magic = lovUserMagicCompV1) lovXattrSize entCount 0 with
  | .error e => return .error e
  | .ok comps => return .ok { layout with llotCompList := comps }

/-- A composite header of 32 bytes, in the host's byte order, that claims
one entry. -/
def oneEntryHeader : List UInt8 :=
  toLE 4 lovUserMagicCompV1 ++ List.replicate 10 0 ++ toLE 2 1 ++ List.replicate 16 0

/-- Handed `oneEntryHeader` and its size, with zeros after it, the function
reads the entry (bytes 32 to 80) and the blob it names past the end of the
buffer, and returns a layout of one component built from them. -/
theorem llapi_layout_get_by_xattr_reads_past_header :
    (llapiLayoutGetByXattr 32 0 (Mem.ofBuffer oneEntryHeader fun _ => 0)).1 =
        .ok ⟨0, 0, true, 1, [⟨0, llapiLayoutDefault, llapiLayoutDefault, 0, [], [], (0, 0), 0, 0, 0, true⟩]⟩ ∧
      ⟨56, 4, false⟩ ∈ (llapiLayoutGetByXattr 32 0 (Mem.ofBuffer oneEntryHeader fun _ => 0)).2.log ∧
      ¬ Within 32 (llapiLayoutGetByXattr 32 0 (Mem.ofBuffer oneEntryHeader fun _ => 0)).2.log := by
  decide +kernel

end Lustre.Llapi
