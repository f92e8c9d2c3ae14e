import Mathlib
import Lustre.Basic

/-! # FIDs, OST ids and the names of their DLM resources

`lustre/include/uapi/linux/lustre/lustre_fid.h`, `lustre_ostid.h` and
`lustre/include/lustre_fid.h`. A FID is a 64-bit sequence, a 32-bit object
number and a 32-bit version. OST objects come in three kinds:

* legacy objects of group 0, an object id with `oi_seq = FID_SEQ_OST_MDT0`;
* IDIF FIDs, which fold such an object id and the OST index into a FID:
  sequence `0x1_IIII_HHHH` (OST index `IIII`, bits 32..47 of the id `HHHH`),
  the low 32 bits of the id as `f_oid`;
* ordinary FIDs of a sequence that the OST was given.

A DLM resource name is four 64-bit words. `ost_fid_build_resid` names an
IDIF object as its legacy id, `[id, 0]`, and any other FID as
`[f_seq, f_ver << 32 | f_oid]`; `ost_fid_from_resid` tells the two layouts
apart by whether the second word is `FID_SEQ_OST_MDT0`, that is zero.

`struct ost_id` is a union of `{ oi_id; oi_seq }` and a FID. The model keeps
the FID view: `oi_id` is `f_seq`, and `oi_seq` is `f_oid` and `f_ver` read as
one word on a little-endian host. The code tests `oi_seq` only against zero
and all ones, which read the same in either byte order.
-/

namespace Lustre.Fid

/-! ## FIDs -/

/-- `struct lu_fid`. -/
structure LuFid where
  fSeq : UInt64
  fOid : UInt32
  fVer : UInt32
  deriving DecidableEq, Repr

/-- `FID_SEQ_OST_MDT0`. -/
def fidSeqOstMdt0 : UInt64 := 0
/-- `FID_SEQ_IGIF`. -/
def fidSeqIgif : UInt64 := 12
/-- `FID_SEQ_IGIF_MAX`. -/
def fidSeqIgifMax : UInt64 := 0x0ffffffff
/-- `FID_SEQ_IDIF`. -/
def fidSeqIdif : UInt64 := 0x100000000
/-- `FID_SEQ_IDIF_MAX`. -/
def fidSeqIdifMax : UInt64 := 0x1ffffffff
/-- `FID_SEQ_LOV_DEFAULT`. -/
def fidSeqLovDefault : UInt64 := 0xffffffffffffffff

/-- `IDIF_MAX_OID`, `1ULL << IDIF_OID_MAX_BITS`. -/
def idifMaxOid : UInt64 := (1 : UInt64) <<< 48
/-- `IDIF_OID_MASK`. -/
def idifOidMask : UInt64 := ((1 : UInt64) <<< 48) - 1
/-- `OBIF_MAX_OID`, `1ULL << OBIF_OID_MAX_BITS`. -/
def obifMaxOid : UInt64 := (1 : UInt64) <<< 32
/-- `LUSTRE_FID_INIT_OID`. -/
def lustreFidInitOid : UInt32 := 1

/-- `fid_ver_oid(fid)`. -/
def fidVerOid (fid : LuFid) : UInt64 :=
  fid.fVer.toUInt64 <<< 32 ||| fid.fOid.toUInt64

/-- `fid_seq_is_mdt0(seq)`. -/
def fidSeqIsMdt0 (seq : UInt64) : Bool := seq == fidSeqOstMdt0

/-- `fid_seq_is_default(seq)`. -/
def fidSeqIsDefault (seq : UInt64) : Bool := seq == fidSeqLovDefault

/-- `fid_seq_is_igif(seq)`. -/
def fidSeqIsIgif (seq : UInt64) : Bool := seq ≥ fidSeqIgif && seq ≤ fidSeqIgifMax

/-- `fid_seq_is_idif(seq)`. -/
def fidSeqIsIdif (seq : UInt64) : Bool := seq ≥ fidSeqIdif && seq ≤ fidSeqIdifMax

/-- `fid_is_mdt0(fid)`. -/
def fidIsMdt0 (fid : LuFid) : Bool := fidSeqIsMdt0 fid.fSeq

/-- `fid_is_idif(fid)`. -/
def fidIsIdif (fid : LuFid) : Bool := fidSeqIsIdif fid.fSeq

/-- `fid_idif_seq(id, ost_idx)`: the shift of the `__u32` index is done in 32
bits. -/
def fidIdifSeq (id : UInt64) (ostIdx : UInt32) : UInt64 :=
  fidSeqIdif ||| (ostIdx <<< 16).toUInt64 ||| ((id >>> 32) &&& 0xffff)

/-- `fid_idif_id(seq, oid, ver)`. -/
def fidIdifId (seq : UInt64) (oid ver : UInt32) : UInt64 :=
  ver.toUInt64 <<< 48 ||| ((seq &&& 0xffff) <<< 32) ||| oid.toUInt64

/-- `idif_ost_idx(seq)`. -/
def idifOstIdx (seq : UInt64) : UInt32 := ((seq >>> 16) &&& 0xffff).toUInt32

/-- `fid_idif_ost_idx(fid)`. -/
def fidIdifOstIdx (fid : LuFid) : UInt32 := idifOstIdx fid.fSeq

/-! ## OST ids -/

/-- `struct ost_id`, by its FID view. -/
structure OstId where
  oiFid : LuFid
  deriving DecidableEq, Repr

/-- `oi.oi_id`. -/
def OstId.oiId (oi : OstId) : UInt64 := oi.oiFid.fSeq

/-- `oi.oi_seq`: the words of `f_oid` and `f_ver`. -/
def OstId.oiSeq (oi : OstId) : UInt64 := fidVerOid oi.oiFid

/-- `oi.oi_id = v`. -/
def OstId.setOiId (oi : OstId) (v : UInt64) : OstId := ⟨{ oi.oiFid with fSeq := v }⟩

/-- `oi.oi_seq = v`. -/
def OstId.setOiSeq (oi : OstId) (v : UInt64) : OstId :=
  ⟨{ oi.oiFid with fOid := v.toUInt32, fVer := (v >>> 32).toUInt32 }⟩

/-- An `ost_id` with every byte zero, as `memset` leaves it. -/
def OstId.zero : OstId := ⟨⟨0, 0, 0⟩⟩

/-- `ostid_seq(ostid)`: the group of a wire id/seq pair. -/
def ostidSeq (ostid : OstId) : UInt64 :=
  if fidSeqIsMdt0 ostid.oiSeq then fidSeqOstMdt0
  else if fidSeqIsDefault ostid.oiSeq then fidSeqLovDefault
  else if fidIsIdif ostid.oiFid then fidSeqOstMdt0
  else ostid.oiFid.fSeq

/-- `ostid_id(ostid)`: the object id of a wire id/seq pair. -/
def ostidId (ostid : OstId) : UInt64 :=
  if fidSeqIsMdt0 ostid.oiSeq then ostid.oiId &&& idifOidMask
  else if fidSeqIsDefault ostid.oiSeq then ostid.oiId
  else if fidIsIdif ostid.oiFid then fidIdifId ostid.oiFid.fSeq ostid.oiFid.fOid 0
  else ostid.oiFid.fOid.toUInt64

/-- `ostid_set_seq(oi, seq)`. -/
def ostidSetSeq (oi : OstId) (seq : UInt64) : OstId :=
  if fidSeqIsMdt0 seq || fidSeqIsDefault seq then oi.setOiSeq seq
  else
    let oi : OstId := ⟨{ oi.oiFid with fSeq := seq }⟩
    -- an id of zero would read as a legacy `oi_seq == 0`
    if oi.oiFid.fOid = 0 ∧ oi.oiFid.fVer = 0 then ⟨{ oi.oiFid with fOid := lustreFidInitOid }⟩ else oi

/-- `ostid_set_seq_mdt0(oi)`. -/
def ostidSetSeqMdt0 (oi : OstId) : OstId := ostidSetSeq oi fidSeqOstMdt0

/-- `ostid_set_id(oi, oid)`: `oi` is left as it was on `-E2BIG`. -/
def ostidSetId (oi : OstId) (oid : UInt64) : Except Int OstId :=
  if fidSeqIsMdt0 oi.oiSeq then
    if oid ≥ idifMaxOid then .error (-e2big) else .ok (oi.setOiId oid)
  else if fidIsIdif oi.oiFid then
    if oid ≥ idifMaxOid then .error (-e2big)
    else .ok ⟨{ fSeq := fidIdifSeq oid (fidIdifOstIdx oi.oiFid), fOid := oid.toUInt32,
                fVer := (oid >>> 48).toUInt32 }⟩
  else if oid ≥ obifMaxOid then .error (-e2big)
  else .ok ⟨{ oi.oiFid with fOid := oid.toUInt32 }⟩

/-- `fid_to_ostid(fid, ostid)`: pack an OST FID into an id/seq pair. -/
def fidToOstid (fid : LuFid) (ostid : OstId) : Except Int OstId :=
  if fidSeqIsIgif fid.fSeq then .error (-ebadf)
  else if fidIsIdif fid then
    ostidSetId (ostidSetSeqMdt0 ostid) (fidIdifId fid.fSeq fid.fOid fid.fVer)
  else .ok ⟨fid⟩

/-- `ostid_to_fid(fid, ostid, ost_idx)`: unpack an id/seq pair into a FID;
`fid` is left as it was on an error and for the default sequence. -/
def ostidToFid (fid : LuFid) (ostid : OstId) (ostIdx : UInt32) : Except Int LuFid :=
  let seq := ostidSeq ostid
  if ostIdx > 0xffff then .error (-ebadf)
  else if fidSeqIsMdt0 seq then
    -- a legacy object of group 0, mapped into the IDIF namespace
    let oid := ostidId ostid
    if oid ≥ idifMaxOid then .error (-ebadf)
    else .ok { fSeq := fidIdifSeq oid ostIdx, fOid := oid.toUInt32, fVer := (oid >>> 48).toUInt32 }
  else if ¬ fidSeqIsDefault seq then
    if ostid.oiFid.fVer ≠ 0 then .error (-ebadf) else .ok ostid.oiFid
  else .ok fid

/-! ## Resource names -/

/-- `struct ldlm_res_id`: `name[RES_NAME_SIZE]`. -/
structure LdlmResId where
  name : Vector UInt64 4
  deriving DecidableEq, Repr

/-- A resource name with `name[LUSTRE_RES_ID_SEQ_OFF] = a`,
`name[LUSTRE_RES_ID_VER_OID_OFF] = b` after a `memset` to zero. -/
def LdlmResId.ofWords (a b : UInt64) : LdlmResId :=
  ⟨((Vector.replicate 4 0).set 0 a).set 1 b⟩

@[simp] theorem LdlmResId.ofWords_name0 (a b : UInt64) : (LdlmResId.ofWords a b).name[0] = a := by
  simp [LdlmResId.ofWords]

@[simp] theorem LdlmResId.ofWords_name1 (a b : UInt64) : (LdlmResId.ofWords a b).name[1] = b := by
  simp [LdlmResId.ofWords]

/-- `fid_build_reg_res_name(fid, res)`. -/
def fidBuildRegResName (fid : LuFid) : LdlmResId := LdlmResId.ofWords fid.fSeq (fidVerOid fid)

/-- `fid_res_name_eq(fid, res)`. -/
def fidResNameEq (fid : LuFid) (res : LdlmResId) : Bool :=
  res.name[0] == fid.fSeq && res.name[1] == fidVerOid fid

/-- `fid_extract_from_res_name(fid, res)`; `none` where its `LASSERT` fails. -/
def fidExtractFromResName (res : LdlmResId) : Option LuFid :=
  let fid : LuFid := { fSeq := res.name[0], fOid := res.name[1].toUInt32, fVer := (res.name[1] >>> 32).toUInt32 }
  if fidResNameEq fid res then some fid else none

/-- `ostid_build_res_name(oi, name)`: a legacy id keeps the old order
`[id, seq]`, anything else is named as its FID. -/
def ostidBuildResName (oi : OstId) : LdlmResId :=
  if fidSeqIsMdt0 (ostidSeq oi) then LdlmResId.ofWords (ostidId oi) (ostidSeq oi)
  else fidBuildRegResName oi.oiFid

/-- `ostid_res_name_eq(oi, name)`. -/
def ostidResNameEq (oi : OstId) (name : LdlmResId) : Bool :=
  if fidSeqIsMdt0 (ostidSeq oi) then name.name[0] == ostidId oi && name.name[1] == ostidSeq oi
  else name.name[0] == ostidSeq oi && name.name[1] == ostidId oi

/-- `ost_fid_build_resid(fid, resname)`, the same as `osc_build_res_name`.
`resname` is left as it was when `fid_to_ostid` fails. The half of the
local `oi` that the code leaves unset is overwritten by both branches of
`fid_to_ostid`, so it starts at zero here. -/
def ostFidBuildResid (fid : LuFid) (resname : LdlmResId) : LdlmResId :=
  if fidIsMdt0 fid || fidIsIdif fid then
    match fidToOstid fid OstId.zero with
    | .ok oi => ostidBuildResName oi
    | .error _ => resname
  else fidBuildRegResName fid

/-- `ost_fid_from_resid(fid, name, ost_idx)`, with the `int` index as the
`__u32` it is passed on as. A failed `ostid_set_id` is only reported, and a
failed `ostid_to_fid` leaves `fid` as it was; `none` is the `LASSERT` of
`fid_extract_from_res_name`. -/
def ostFidFromResid (fid : LuFid) (name : LdlmResId) (ostIdx : UInt32) : Option LuFid :=
  if fidSeqIsMdt0 name.name[1] then
    -- an old resid: `[id, seq]`
    let oi := ostidSetSeq OstId.zero name.name[1]
    let oi := match ostidSetId oi name.name[0] with
      | .ok oi => oi
      | .error _ => oi
    some (match ostidToFid fid oi ostIdx with
      | .ok fid => fid
      | .error _ => fid)
  else fidExtractFromResName name

end Lustre.Fid
