import Mathlib
import Lustre.Basic
import Lustre.Fid
import Lustre.Lib.CArith
import Lustre.Lib.Footprint
import Lustre.Lov.Offset

/-! # The LOV EA: packing and unpacking a file layout

`lustre/lov/lov_pack.c`, `lustre/lov/lov_ea.c`, `lov_internal.h` and the
on-disk structures of `lustre_idl.h` and `lustre_user.h`. The layout of a
file is kept on the MDT as an extended attribute, the LOV EA, in
little-endian byte order:

* a plain layout, `struct lov_mds_md_v1` (32 bytes) or `_v3` (48 bytes,
  with a 16-byte pool name), followed by one `struct lov_ost_data_v1`
  (24 bytes) per stripe;
* a composite layout, `struct lov_comp_md_v1` (32 bytes) followed by
  `lcm_entry_count` entries `struct lov_comp_md_entry_v1` (48 bytes), each
  naming the offset and size of a plain layout blob, its component;
* a foreign layout, `struct lov_foreign_md` (16 bytes) and `lfm_length`
  bytes of value.

`lov_unpackmd` turns an EA received from the MDS into a `lov_stripe_md`,
`lov_lsm_pack` writes one back. Both are modelled over `Footprint.Probe`:
every load from and store to the buffer is recorded, with the buffer at
offset 0 and whatever lies past it after. The host is little-endian, so a
`le32_to_cpu` of a field is `loadLE`. Allocations do not fail.

The `lov_obd` enters as its target count, what each target slot holds, and
whether a configuration is being processed; the debug mask enters as whether
warnings are printed, which decides whether the dump helpers read the EA.
-/

namespace Lustre.Lov.Ea

open Footprint Lustre.Fid

/-! ## Constants and sizes -/

/-- `LOV_MAGIC_V1`. -/
def lovMagicV1 : Nat := 0x0BD10BD0
/-- `LOV_MAGIC_V3`. -/
def lovMagicV3 : Nat := 0x0BD30BD0
/-- `LOV_MAGIC_COMP_V1`. -/
def lovMagicCompV1 : Nat := 0x0BD60BD0
/-- `LOV_MAGIC_FOREIGN`. -/
def lovMagicForeign : Nat := 0x0BD70BD0

/-- `LOV_PATTERN_FOREIGN`. -/
def lovPatternForeign : Nat := 0x400
/-- `LOV_PATTERN_F_MASK`. -/
def lovPatternFMask : Nat := 0xffff0000
/-- `LOV_PATTERN_F_RELEASED`. -/
def lovPatternFReleased : Nat := 0x80000000

/-- `LCME_FL_INIT`. -/
def lcmeFlInit : Nat := 0x10

/-- `LOV_V1_INSANE_STRIPE_COUNT`. -/
def lovV1InsaneStripeCount : Nat := 65532
/-- `LOV_MIN_STRIPE_SIZE`. -/
def lovMinStripeSize : Nat := 65536
/-- `LOV_MAXPOOLNAME + 1`, the size of a pool name field. -/
def poolNameSize : Nat := 16

/-- `MAX_LFS_FILESIZE` of a 64-bit kernel. -/
def maxLfsFilesize : Int := 0x7fffffffffffffff
/-- `LLONG_MIN`. -/
def llongMin : Int := -0x8000000000000000
/-- `LUSTRE_EXT3_STRIPE_MAXBYTES`. -/
def lustreExt3StripeMaxbytes : Int := 0x1fffffff000

/-- `lov_pattern(pattern)`. -/
def lovPattern (pattern : Nat) : Nat := pattern &&& (0xffffffff - lovPatternFMask)

/-- `lov_pattern_supported(pattern)`. -/
def lovPatternSupported (pattern : Nat) : Bool :=
  let p := pattern &&& (0xffffffff - lovPatternFReleased)
  p == lovPatternRaid0 || p == (lovPatternRaid0 ||| lovPatternOverstriping) || p == lovPatternMdt

/-- `lov_mds_md_size(stripes, lmm_magic)`: a stripe count of `(__u16)-1`
stands for none. -/
def lovMdsMdSize (stripes magic : Nat) : Nat :=
  let stripes := if stripes = 0xFFFF then 0 else stripes
  if magic = lovMagicV3 then 48 + stripes * 24 else 32 + stripes * 24

/-! ## The striping metadata -/

/-- `struct lov_oinfo`: an object of a stripe. -/
structure LovOinfo where
  loiOi : OstId
  loiOstIdx : Nat
  loiOstGen : Nat
  deriving DecidableEq, Repr

/-- `lov_oinfo_is_dummy(loi)`: a hole in the layout. -/
def lovOinfoIsDummy (loi : LovOinfo) : Bool :=
  loi.loiOi.oiFid.fSeq == 0 && loi.loiOi.oiFid.fOid == 0 && loi.loiOi.oiFid.fVer == 0 &&
    loi.loiOstIdx == 0 && loi.loiOstGen == 0

/-- `struct lov_stripe_md_entry`; the pool name is kept without its
terminating zero, and `lsmeOinfo` holds the objects of the stripes. -/
structure LovStripeMdEntry where
  lsmeExtent : LuExtent
  lsmeId : Nat
  lsmeMagic : Nat
  lsmeFlags : Nat
  lsmePattern : Nat
  lsmeTimestamp : Nat
  lsmeStripeSize : Nat
  lsmeStripeCount : Nat
  lsmeLayoutGen : Nat
  lsmePoolName : List UInt8
  lsmeOinfo : List LovOinfo
  deriving DecidableEq, Repr

/-- `lsme_inited(lsme)`. -/
def lsmeInited (e : LovStripeMdEntry) : Bool := e.lsmeFlags &&& lcmeFlInit != 0

/-- `lsme_is_dom(lsme)`. -/
def lsmeIsDom (e : LovStripeMdEntry) : Bool := lovPattern e.lsmePattern == lovPatternMdt

/-- `struct lov_stripe_md`; `lsmForeign` is the foreign EA
(`lsm_foreign(lsm)`, of `lsm_foreign_size` bytes) of a foreign layout. -/
structure LovStripeMd where
  lsmMaxbytes : Int
  lsmOi : OstId
  lsmMagic : Nat
  lsmLayoutGen : Nat
  lsmFlags : Nat
  lsmIsReleased : Bool
  lsmMirrorCount : Nat
  lsmEntries : List LovStripeMdEntry
  lsmForeign : List UInt8
  deriving DecidableEq, Repr

/-- `lov_comp_md_size(lsm)`: the size of the EA of the layout. The size of
a component counts its objects when it is instantiated. -/
def lovCompMdSize (lsm : LovStripeMd) : Nat :=
  if lsm.lsmMagic = lovMagicV1 ∨ lsm.lsmMagic = lovMagicV3 then
    (lsm.lsmEntries.head?.map fun e => lovMdsMdSize e.lsmeStripeCount e.lsmeMagic).getD 0
  else if lsm.lsmMagic = lovMagicForeign then lsm.lsmForeign.length
  else
    -- `LASSERT(lsm->lsm_magic == LOV_MAGIC_COMP_V1)`
    32 + 48 * lsm.lsmEntries.length +
      (lsm.lsmEntries.map fun e => lovMdsMdSize (if lsmeInited e then e.lsmeStripeCount else 0) e.lsmeMagic).sum

/-! ## Packing -/

/-- `strlcpy(dst, src, size)` of a string the model holds, into memory. -/
def strlcpyTo (dst : Nat) (src : List UInt8) (size : Nat) : Probe Unit :=
  store dst (src.take (size - 1) ++ [0])

/-- `ostid_cpu_to_le(src, dst)`: the sixteen bytes of an `ost_id`. -/
def storeOstId (off : Nat) (oi : OstId) : Probe Unit := do
  storeLE off 8 oi.oiFid.fSeq.toNat
  storeLE (off + 8) 4 oi.oiFid.fOid.toNat
  storeLE (off + 12) 4 oi.oiFid.fVer.toNat

/-- The loop writing `lmm_objects[i]`, from `off` on. -/
def packObjects : Nat → List LovOinfo → Probe Unit
  | _, [] => pure ()
  | off, loi :: rest => do
    storeOstId off loi.loiOi
    storeLE (off + 16) 4 loi.loiOstGen
    storeLE (off + 20) 4 loi.loiOstIdx
    packObjects (off + 24) rest

/-- The number of objects the packer writes for a component: those of an
instantiated component whose file is not released. -/
def packStripeCount (e : LovStripeMdEntry) : Nat :=
  if lsmeInited e && e.lsmePattern &&& lovPatternFReleased == 0 then e.lsmeStripeCount else 0

/-- One turn of the loop of `lov_lsm_pack`: the entry `entry` and the blob
at `offset`; it returns the size of the blob. -/
def packEntry (e : LovStripeMdEntry) (entry offset : Nat) : Probe Nat := do
  let lcme := 32 + 48 * entry
  storeLE lcme 4 e.lsmeId
  storeLE (lcme + 4) 4 e.lsmeFlags
  if e.lsmeFlags &&& lcmeFlNosync != 0 then storeLE (lcme + 36) 8 e.lsmeTimestamp
  storeLE (lcme + 8) 8 e.lsmeExtent.eStart.toNat
  storeLE (lcme + 16) 8 e.lsmeExtent.eEnd.toNat
  storeLE (lcme + 24) 4 offset
  storeLE offset 4 e.lsmeMagic
  storeLE (offset + 4) 4 e.lsmePattern
  storeLE (offset + 24) 4 e.lsmeStripeSize
  storeLE (offset + 28) 2 e.lsmeStripeCount
  storeLE (offset + 30) 2 e.lsmeLayoutGen
  let objects ← if e.lsmeMagic = lovMagicV3 then do
      strlcpyTo (offset + 32) e.lsmePoolName poolNameSize
      pure (offset + 48)
    else pure (offset + 32)
  let stripeCount := packStripeCount e
  packObjects objects (e.lsmeOinfo.take stripeCount)
  let size := lovMdsMdSize stripeCount e.lsmeMagic
  storeLE (lcme + 28) 4 size
  return size

/-- The loop of `lov_lsm_pack` over the components, from entry `entry` with
the blob offset `offset` (an `unsigned int`). -/
def packEntries : List LovStripeMdEntry → Nat → Nat → Probe Unit
  | [], _, _ => pure ()
  | e :: rest, entry, offset => do
    let size ← packEntry e entry offset
    packEntries rest (entry + 1) ((offset + size) % 2 ^ 32)

/-- `lov_lsm_pack_v1v3(lsm, buf, buf_size)`. -/
def lovLsmPackV1v3 (lsm : LovStripeMd) (bufSize : Nat) : Probe Int := do
  let e := lsm.lsmEntries.headD ⟨⟨0, 0⟩, 0, 0, 0, 0, 0, 0, 0, 0, [], []⟩
  let lmmSize := lovMdsMdSize e.lsmeStripeCount lsm.lsmMagic
  if bufSize = 0 then return lmmSize
  if bufSize < lmmSize then return -erange
  storeLE 0 4 lsm.lsmMagic
  storeOstId 8 lsm.lsmOi
  storeLE 24 4 e.lsmeStripeSize
  storeLE 28 2 e.lsmeStripeCount
  storeLE 4 4 e.lsmePattern
  storeLE 30 2 lsm.lsmLayoutGen
  let objects ← if lsm.lsmMagic = lovMagicV3 then do
      strlcpyTo 32 e.lsmePoolName poolNameSize
      pure 48
    else pure 32
  if lsm.lsmIsReleased then return lmmSize
  packObjects objects (e.lsmeOinfo.take e.lsmeStripeCount)
  return lmmSize

/-- `lov_lsm_pack_foreign(lsm, buf, buf_size)`. -/
def lovLsmPackForeign (lsm : LovStripeMd) (bufSize : Nat) : Probe Int := do
  let lfmSize := lsm.lsmForeign.length
  if bufSize = 0 then return lfmSize
  if bufSize < lfmSize then
    store 0 (lsm.lsmForeign.take bufSize)
    return -erange
  store 0 lsm.lsmForeign
  return lfmSize

/-- `lov_lsm_pack(lsm, buf, buf_size)`: with `buf_size` zero, the size the
EA needs; with less room than that, `-ERANGE`; otherwise the EA is written
and its size returned. -/
def lovLsmPack (lsm : LovStripeMd) (bufSize : Nat) : Probe Int := do
  if lsm.lsmMagic = lovMagicV1 ∨ lsm.lsmMagic = lovMagicV3 then return ← lovLsmPackV1v3 lsm bufSize
  if lsm.lsmMagic = lovMagicForeign then return ← lovLsmPackForeign lsm bufSize
  let lmmSize := lovCompMdSize lsm
  if bufSize = 0 then return lmmSize
  if bufSize < lmmSize then return -erange
  storeLE 0 4 lsm.lsmMagic
  storeLE 4 4 lmmSize
  storeLE 8 4 lsm.lsmLayoutGen
  storeLE 12 2 lsm.lsmFlags
  storeLE 16 2 lsm.lsmMirrorCount
  storeLE 14 2 lsm.lsmEntries.length
  packEntries lsm.lsmEntries 0 ((32 + 48 * lsm.lsmEntries.length) % 2 ^ 32)
  return lmmSize

/-! ## Unpacking -/

/-- What `lsme_unpack` needs of `struct lov_obd` and of the debug mask. -/
structure LovObd where
  /-- `lov->desc.ld_tgt_count` -/
  ldTgtCount : Nat
  /-- `lov->lov_tgts[i]`: missing, or a target whose objects reach the
  given size (`lov_tgt_maxbytes`) -/
  lovTgts : Nat → Option Int
  /-- `lov2obd(lov)->obd_process_conf` -/
  obdProcessConf : Bool
  /-- whether `D_WARNING` messages are printed, so that the dump helpers
  read the EA -/
  warnings : Bool

/-- `lmm_oi_le_to_cpu` / `ostid_le_to_cpu` of the sixteen bytes at `off`. -/
def loadOstId (off : Nat) : Probe OstId := do
  let fSeq ← loadLE off 8
  let fOid ← loadLE (off + 8) 4
  let fVer ← loadLE (off + 12) 4
  return ⟨⟨UInt64.ofNat fSeq, UInt32.ofNat fOid, UInt32.ofNat fVer⟩⟩

/-- `lov_dump_lmm_common(D_WARNING, lmm)`: the object id is always read,
the fields of the message only when it is printed. -/
def lovDumpLmmCommon (lov : LovObd) (lmm : Nat) : Probe Unit := do
  let _ ← loadOstId (lmm + 8)
  if lov.warnings then
    let _ ← loadLE lmm 4
    let _ ← loadLE (lmm + 4) 4
    let _ ← loadLE (lmm + 24) 4
    let _ ← loadLE (lmm + 28) 2
    let _ ← loadLE (lmm + 30) 2

/-- The loop of `lov_dump_lmm_objects`: each object id is read, its index
only when the message is printed. -/
def dumpObjects (lov : LovObd) : Nat → Nat → Probe Unit
  | 0, _ => pure ()
  | n + 1, lod => do
    let _ ← loadOstId lod
    if lov.warnings then
      let _ ← loadLE (lod + 20) 4
    dumpObjects lov n (lod + 24)

/-- `lov_dump_lmm_v1(D_WARNING, lmm)`. -/
def lovDumpLmmV1 (lov : LovObd) (lmm : Nat) : Probe Unit := do
  lovDumpLmmCommon lov lmm
  let stripeCount ← loadLE (lmm + 28) 2
  if stripeCount ≤ lovV1InsaneStripeCount then dumpObjects lov stripeCount (lmm + 32)

/-- `lsm_lmm_verify_v1v3(lmm, lmm_size, stripe_count)`. -/
def lsmLmmVerifyV1v3 (lov : LovObd) (lmm stripeCount : Nat) : Probe Int := do
  let pattern ← loadLE (lmm + 4) 4
  if stripeCount > lovV1InsaneStripeCount then
    lovDumpLmmCommon lov lmm
    return -einval
  let oiId ← loadLE (lmm + 8) 8
  if oiId = 0 then
    lovDumpLmmCommon lov lmm
    return -einval
  if !lovPatternSupported (lovPattern pattern) then
    lovDumpLmmCommon lov lmm
    return -einval
  let stripeSize ← loadLE (lmm + 24) 4
  if stripeSize = 0 ∨ stripeSize % lovMinStripeSize ≠ 0 then
    lovDumpLmmCommon lov lmm
    return -einval
  return 0

/-- What a component's objects leave of `maxbytes`: the smallest size its
targets reach, from the loop of `lsme_unpack`. -/
def minStripeMaxbytes (cur : Int) (bytes : Int) : Int :=
  if cur = 0 ∨ bytes < cur then bytes else cur

/-- The loop of `lsme_unpack` over the stripes, from stripe `i` of
`stripeCount`, with the objects at `objects`: the objects read, and the
smallest target size so far; an object on a target past the count fails
with `-EINVAL`. -/
def unpackObjects (lov : LovObd) (lmm objects stripeCount : Nat) :
    Nat → Nat → Int → Probe (Except Int (List LovOinfo × Int))
  | 0, _, minb => pure (.ok ([], minb))
  | fuel + 1, i, minb => do
    if i ≥ stripeCount then return .ok ([], minb)
    let oi ← loadOstId (objects + 24 * i)
    let idx ← loadLE (objects + 24 * i + 20) 4
    let gen ← loadLE (objects + 24 * i + 16) 4
    let loi : LovOinfo := ⟨oi, idx, gen⟩
    let rest (minb : Int) : Probe (Except Int (List LovOinfo × Int)) := do
      match ← unpackObjects lov lmm objects stripeCount fuel (i + 1) minb with
      | .ok (lois, m) => return .ok (loi :: lois, m)
      | .error rc => return .error rc
    if lovOinfoIsDummy loi then return ← rest minb
    if loi.loiOstIdx ≥ lov.ldTgtCount ∧ !lov.obdProcessConf then
      lovDumpLmmV1 lov lmm
      return .error (-einval)
    match lov.lovTgts loi.loiOstIdx with
    | none =>
      lovDumpLmmV1 lov lmm
      rest minb
    | some bytes => rest (minStripeMaxbytes minb bytes)

/-- `lsme_unpack(lov, lmm, buf_size, pool_name, inited, objects, maxbytes)`:
the entry, and `*maxbytes` when `wantMaxbytes`; the pool name is read from
memory at `poolName`. -/
def lsmeUnpack (lov : LovObd) (lmm bufSize : Nat) (poolName : Option Nat) (inited : Bool) (objects : Nat)
    (wantMaxbytes : Bool) : Probe (Except Int (LovStripeMdEntry × Int)) := do
  let magic ← loadLE lmm 4
  if magic ≠ lovMagicV1 ∧ magic ≠ lovMagicV3 then return .error (-einval)
  let pattern ← loadLE (lmm + 4) 4
  let stripeCount ← if pattern &&& lovPatternFReleased ≠ 0 ∨ !inited then pure 0 else loadLE (lmm + 28) 2
  if bufSize < lovMdsMdSize stripeCount magic then
    lovDumpLmmCommon lov lmm
    return .error (-einval)
  let rc ← lsmLmmVerifyV1v3 lov lmm stripeCount
  if rc < 0 then return .error rc
  let stripeSize ← loadLE (lmm + 24) 4
  -- the possible -1 stripe count of an uninstantiated component is kept
  let rawCount ← loadLE (lmm + 28) 2
  let layoutGen ← loadLE (lmm + 30) 2
  let name ← match poolName with
    | none => pure (some [])
    | some p => do
      let (copy, len) ← strlcpyFrom p poolNameSize
      pure (if len ≥ poolNameSize then none else some copy)
  let some name := name | return .error (-e2big)
  let lsme : LovStripeMdEntry :=
    ⟨⟨0, 0⟩, 0, magic, 0, pattern, 0, stripeSize, rawCount, layoutGen, name, []⟩
  -- with Data-on-MDT, `maxbytes` is the stripe size
  if lsmeIsDom lsme then
    return .ok (lsme, if wantMaxbytes then min stripeSize maxLfsFilesize else 0)
  match ← unpackObjects lov lmm objects stripeCount stripeCount 0 0 with
  | .error rc => return .error rc
  | .ok (lois, minb) =>
    let lsme := { lsme with lsmeOinfo := lois }
    if !wantMaxbytes then return .ok (lsme, 0)
    let minb := if minb = 0 then lustreExt3StripeMaxbytes else minb
    let count : Int := if stripeCount = 0 then lov.ldTgtCount else stripeCount
    let lovBytes := if minb ≤ (2 ^ 63 - 1) / count then minb * count else maxLfsFilesize
    return .ok (lsme, min lovBytes maxLfsFilesize)

/-- `lsm_unpackmd_v1v3(lov, lmm, buf_size, pool_name, objects)`. -/
def lsmUnpackmdV1v3 (lov : LovObd) (bufSize : Nat) (poolName : Option Nat) (objects : Nat) :
    Probe (Except Int LovStripeMd) := do
  let pattern ← loadLE 4 4
  match ← lsmeUnpack lov 0 bufSize poolName true objects true with
  | .error rc => return .error rc
  | .ok (lsme, maxbytes) =>
    let lsme := { lsme with lsmeFlags := lcmeFlInit, lsmeExtent := ⟨0, UInt64.ofNat lustreEof⟩ }
    let oi ← loadOstId 8
    let magic ← loadLE 0 4
    let layoutGen ← loadLE 30 2
    return .ok ⟨maxbytes, oi, magic, layoutGen, 0, pattern &&& lovPatternFReleased ≠ 0, 0, [lsme], []⟩

/-- `lsm_unpackmd_v1(lov, buf, buf_size)`. -/
def lsmUnpackmdV1 (lov : LovObd) (bufSize : Nat) : Probe (Except Int LovStripeMd) :=
  lsmUnpackmdV1v3 lov bufSize none 32

/-- `lsm_unpackmd_v3(lov, buf, buf_size)`: the pool name at 32. -/
def lsmUnpackmdV3 (lov : LovObd) (bufSize : Nat) : Probe (Except Int LovStripeMd) :=
  lsmUnpackmdV1v3 lov bufSize (some 32) 48

/-- The loop of `lsm_verify_comp_md_v1` over the entries. -/
def verifyEntries (lcmSize : Nat) : Nat → Nat → Probe Int
  | 0, _ => pure 0
  | n + 1, i => do
    let blobOffset ← loadLE (32 + 48 * i + 24) 4
    let blobSize ← loadLE (32 + 48 * i + 28) 4
    if lcmSize < blobOffset ∨ lcmSize < blobSize ∨ lcmSize < blobOffset + blobSize then
      let _ ← loadLE (32 + 48 * i) 4
      return -einval
    verifyEntries lcmSize n (i + 1)

/-- `lsm_verify_comp_md_v1(lcm, lcm_buf_size)`: the EA fits the buffer, and
each blob fits the EA. -/
def lsmVerifyCompMdV1 (lcmBufSize : Nat) : Probe Int := do
  let lcmSize ← loadLE 4 4
  if lcmBufSize < lcmSize then return -einval
  let entryCount ← loadLE 14 2
  verifyEntries lcmSize entryCount 0

/-- `lsme_unpack_foreign(lov, buf, buf_size, inited, maxbytes)`. -/
def lsmeUnpackForeign (blob : Nat) (wantMaxbytes : Bool) : Probe (Except Int (LovStripeMdEntry × Int)) := do
  let magic ← loadLE blob 4
  if magic ≠ lovMagicForeign then return .error (-einval)
  return .ok (⟨⟨0, 0⟩, 0, magic, 0, lovPatternForeign, 0, 0, 0, 0, [], []⟩,
    if wantMaxbytes then maxLfsFilesize else 0)

/-- `lsme_unpack_comp(lov, lmm, lmm_buf_size, inited, maxbytes)`. -/
def lsmeUnpackComp (lov : LovObd) (lmm lmmBufSize : Nat) (inited wantMaxbytes : Bool) :
    Probe (Except Int (LovStripeMdEntry × Int)) := do
  let magic ← loadLE lmm 4
  if magic ≠ lovMagicV1 ∧ magic ≠ lovMagicV3 ∧ magic ≠ lovMagicForeign then return .error (-einval)
  if magic ≠ lovMagicForeign then
    let stripeCount ← loadLE (lmm + 28) 2
    if stripeCount = 0 then
      let pattern ← loadLE (lmm + 4) 4
      if lovPattern pattern ≠ lovPatternMdt then return .error (-einval)
  if magic = lovMagicV1 then lsmeUnpack lov lmm lmmBufSize none inited (lmm + 32) wantMaxbytes
  else if magic = lovMagicV3 then lsmeUnpack lov lmm lmmBufSize (some (lmm + 32)) inited (lmm + 48) wantMaxbytes
  else lsmeUnpackForeign lmm wantMaxbytes

/-- The maximum file size of a layout from its last component: its start
as a `loff_t` plus what its objects reach, in 64-bit arithmetic. -/
def lastMaxbytes (lsme : LovStripeMdEntry) (maxbytes : Int) : Int :=
  let start := CArith.narrowLong lsme.lsmeExtent.eStart.toNat
  let m := CArith.narrowLong (start + maxbytes)
  -- the last component is not defined to the end, or the sum overflowed
  if !lsmeIsDom lsme ∧ (lsme.lsmeExtent.eEnd.toNat ≠ lustreEof ∨ m < start) then maxLfsFilesize
  else m

/-- The loop of `lsm_unpackmd_comp_md_v1` over the entries, from entry `i`
of `entryCount`: the entries, whether all are released, and the maximum
file size set by the last. -/
def unpackEntries (lov : LovObd) (entryCount : Nat) :
    Nat → Nat → Probe (Except Int (List LovStripeMdEntry × Bool × Int))
  | 0, _ => pure (.ok ([], true, llongMin))
  | fuel + 1, i => do
    if i ≥ entryCount then return .ok ([], true, llongMin)
    let lcme := 32 + 48 * i
    let blobOffset ← loadLE (lcme + 24) 4
    let blobSize ← loadLE (lcme + 28) 4
    let flags ← loadLE (lcme + 4) 4
    let last := i = entryCount - 1
    match ← lsmeUnpackComp lov blobOffset blobSize (flags &&& lcmeFlInit ≠ 0) last with
    | .error rc => return .error rc
    | .ok (lsme, maxbytes) =>
      let released := lsme.lsmePattern &&& lovPatternFReleased != 0
      let id ← loadLE lcme 4
      let flags ← loadLE (lcme + 4) 4
      let timestamp ← if flags &&& lcmeFlNosync ≠ 0 then loadLE (lcme + 36) 8 else pure lsme.lsmeTimestamp
      let eStart ← loadLE (lcme + 8) 8
      let eEnd ← loadLE (lcme + 16) 8
      let lsme := { lsme with
        lsmeId := id
        lsmeFlags := flags
        lsmeTimestamp := timestamp
        lsmeExtent := ⟨UInt64.ofNat eStart, UInt64.ofNat eEnd⟩ }
      match ← unpackEntries lov entryCount fuel (i + 1) with
      | .error rc => return .error rc
      | .ok (rest, allReleased, m) =>
        return .ok (lsme :: rest, released && allReleased, if last then lastMaxbytes lsme maxbytes else m)

/-- `lsm_unpackmd_comp_md_v1(lov, buf, buf_size)`. -/
def lsmUnpackmdCompMdV1 (lov : LovObd) (bufSize : Nat) : Probe (Except Int LovStripeMd) := do
  let rc ← lsmVerifyCompMdV1 bufSize
  if rc < 0 then return .error rc
  let entryCount ← loadLE 14 2
  let magic ← loadLE 0 4
  let layoutGen ← loadLE 8 4
  let mirrorCount ← loadLE 16 2
  let flags ← loadLE 12 2
  match ← unpackEntries lov entryCount entryCount 0 with
  | .error rc => return .error rc
  | .ok (entries, released, maxbytes) =>
    return .ok ⟨maxbytes, ⟨⟨0, 0, 0⟩⟩, magic, layoutGen, flags, released, mirrorCount, entries, []⟩

/-- `lsm_unpackmd_foreign(lov, buf, buf_size)`: the whole foreign EA, as
long as its own length field says; `buf_size` is not looked at. -/
def lsmUnpackmdForeign : Probe (Except Int LovStripeMd) := do
  let magic ← loadLE 0 4
  let length ← loadLE 4 4
  let foreign ← load 0 (length + 16)
  return .ok ⟨0, ⟨⟨0, 0, 0⟩⟩, magic, 0, 0, false, 0, [], foreign⟩

/-- `lov_unpackmd(lov, buf, buf_size)`: the layout the EA describes, by its
magic (`lsm_op_find`). -/
def lovUnpackmd (lov : LovObd) (bufSize : Nat) : Probe (Except Int LovStripeMd) := do
  if bufSize < 4 then return .error (-einval)
  let magic ← loadLE 0 4
  if magic = lovMagicV1 then lsmUnpackmdV1 lov bufSize
  else if magic = lovMagicV3 then lsmUnpackmdV3 lov bufSize
  else if magic = lovMagicCompV1 then lsmUnpackmdCompMdV1 lov bufSize
  else if magic = lovMagicForeign then lsmUnpackmdForeign
  else return .error (-einval)

end Lustre.Lov.Ea
