import Mathlib
import Lustre.Fid
import Lustre.Lib.CArith

/-! # Resource names of OST objects decode back

`ost_fid_build_resid` and `ost_fid_from_resid` are inverse on the objects of
one OST (`ost_fid_resid_roundtrip`): its IDIF FIDs, whose name is the legacy
id `[id, 0]`, and the FIDs of the other sequences that are not IGIFs, named
`[f_seq, f_oid]`, as long as `f_oid` is not zero. The naming is then
injective on those objects, and `ostid_res_name_eq` agrees with it.

A FID of an ordinary sequence with `f_oid = 0`, the `LAST_ID` object of the
sequence, is named `[f_seq, 0]` as well, and `ost_fid_from_resid` reads it
as a legacy id: it comes back as an IDIF FID, and shares its name with one
(`ost_fid_resid_last_id_misread`).

The field arithmetic is done on `Nat`, through `toNat`.
-/

namespace Lustre.Fid

/-! ## Field arithmetic -/

theorem fidVerOid_toNat (fid : LuFid) : (fidVerOid fid).toNat = fid.fVer.toNat * 2 ^ 32 + fid.fOid.toNat := by
  have hver := UInt32.toNat_lt fid.fVer
  have hoid := UInt32.toNat_lt fid.fOid
  have h32 : (32 : UInt64).toNat % 64 = 32 := rfl
  rw [fidVerOid, UInt64.toNat_or, UInt64.toNat_shiftLeft, UInt32.toNat_toUInt64, UInt32.toNat_toUInt64, h32,
    Nat.mod_eq_of_lt (by rw [Nat.shiftLeft_eq]; omega), CArith.shiftLeft_or_eq_add _ hoid]

theorem fidIdifId_toNat (seq : UInt64) (oid : UInt32) :
    (fidIdifId seq oid 0).toNat = seq.toNat % 2 ^ 16 * 2 ^ 32 + oid.toNat := by
  have hoid := UInt32.toNat_lt oid
  have h32 : (32 : UInt64).toNat % 64 = 32 := rfl
  have hmask : (0xffff : UInt64).toNat = 2 ^ 16 - 1 := rfl
  have hlo : (seq &&& 0xffff).toNat = seq.toNat % 2 ^ 16 := by
    rw [UInt64.toNat_and, hmask, Nat.and_two_pow_sub_one_eq_mod]
  have hhi : ((seq &&& 0xffff) <<< 32).toNat = seq.toNat % 2 ^ 16 * 2 ^ 32 := by
    rw [UInt64.toNat_shiftLeft, hlo, h32, Nat.shiftLeft_eq, Nat.mod_eq_of_lt (by omega)]
  have hver : ((0 : UInt32).toUInt64 <<< 48).toNat = 0 := rfl
  rw [fidIdifId, UInt64.toNat_or, UInt64.toNat_or, hver, Nat.zero_or, hhi, UInt32.toNat_toUInt64,
    ← Nat.shiftLeft_eq, CArith.shiftLeft_or_eq_add _ hoid, Nat.shiftLeft_eq]

theorem idifOstIdx_toNat (seq : UInt64) : (idifOstIdx seq).toNat = seq.toNat / 2 ^ 16 % 2 ^ 16 := by
  have h16 : (16 : UInt64).toNat % 64 = 16 := rfl
  have hmask : (0xffff : UInt64).toNat = 2 ^ 16 - 1 := rfl
  rw [idifOstIdx, UInt64.toNat_toUInt32, UInt64.toNat_and, UInt64.toNat_shiftRight, h16, hmask,
    Nat.and_two_pow_sub_one_eq_mod, Nat.shiftRight_eq_div_pow]
  omega

theorem fidIdifSeq_toNat (id : UInt64) (ostIdx : UInt32) (hidx : ostIdx.toNat < 2 ^ 16) :
    (fidIdifSeq id ostIdx).toNat = 2 ^ 32 + ostIdx.toNat * 2 ^ 16 + id.toNat / 2 ^ 32 % 2 ^ 16 := by
  have h16 : (16 : UInt32).toNat % 32 = 16 := rfl
  have h32 : (32 : UInt64).toNat % 64 = 32 := rfl
  have hmask : (0xffff : UInt64).toNat = 2 ^ 16 - 1 := rfl
  have hidif : fidSeqIdif.toNat = 1 <<< 32 := rfl
  have hsh : (ostIdx <<< 16).toUInt64.toNat = ostIdx.toNat * 2 ^ 16 := by
    rw [UInt32.toNat_toUInt64, UInt32.toNat_shiftLeft, h16, Nat.shiftLeft_eq, Nat.mod_eq_of_lt (by omega)]
  have hlo : ((id >>> 32) &&& 0xffff).toNat = id.toNat / 2 ^ 32 % 2 ^ 16 := by
    rw [UInt64.toNat_and, UInt64.toNat_shiftRight, h32, hmask, Nat.and_two_pow_sub_one_eq_mod,
      Nat.shiftRight_eq_div_pow]
  rw [fidIdifSeq, UInt64.toNat_or, UInt64.toNat_or, hidif, hsh, hlo,
    CArith.shiftLeft_or_eq_add _ (by omega), Nat.one_mul,
    CArith.or_eq_add_of_dvd 16 (by omega) (Nat.mod_lt _ (by omega))]

/-! ## The legacy layout: IDIF objects -/

theorem fidIdifId_lt (seq : UInt64) (oid : UInt32) : fidIdifId seq oid 0 < idifMaxOid := by
  have hoid := UInt32.toNat_lt oid
  have hmax : idifMaxOid.toNat = 2 ^ 48 := rfl
  rw [UInt64.lt_iff_toNat_lt, fidIdifId_toNat, hmax]
  omega

theorem toUInt32_fidIdifId (seq : UInt64) (oid : UInt32) : (fidIdifId seq oid 0).toUInt32 = oid := by
  have hoid := UInt32.toNat_lt oid
  apply UInt32.toNat_inj.mp
  rw [UInt64.toNat_toUInt32, fidIdifId_toNat]
  omega

theorem fidIdifId_shiftRight_48 (seq : UInt64) (oid : UInt32) : (fidIdifId seq oid 0 >>> 48).toUInt32 = 0 := by
  have hoid := UInt32.toNat_lt oid
  have h48 : (48 : UInt64).toNat % 64 = 48 := rfl
  apply UInt32.toNat_inj.mp
  rw [UInt64.toNat_toUInt32, UInt64.toNat_shiftRight, h48, fidIdifId_toNat, Nat.shiftRight_eq_div_pow]
  simp only [UInt32.toNat_zero]
  omega

theorem fidIdifSeq_fidIdifId (f : LuFid) (hf : fidIsIdif f = true) :
    fidIdifSeq (fidIdifId f.fSeq f.fOid 0) (fidIdifOstIdx f) = f.fSeq := by
  have hoid := UInt32.toNat_lt f.fOid
  have hidx : (fidIdifOstIdx f).toNat < 2 ^ 16 := by
    rw [fidIdifOstIdx, idifOstIdx_toNat]
    omega
  have hrange : 2 ^ 32 ≤ f.fSeq.toNat ∧ f.fSeq.toNat < 2 ^ 33 := by
    simp only [fidIsIdif, fidSeqIsIdif, Bool.and_eq_true, decide_eq_true_eq, UInt64.le_iff_toNat_le] at hf
    exact ⟨hf.1, Nat.lt_succ_of_le hf.2⟩
  apply UInt64.toNat_inj.mp
  rw [fidIdifSeq_toNat _ _ hidx, fidIdifId_toNat, fidIdifOstIdx, idifOstIdx_toNat]
  omega

theorem fidVerOid_ver_zero (f : LuFid) (hv : f.fVer = 0) : (fidVerOid f).toNat = f.fOid.toNat := by
  rw [fidVerOid_toNat, hv, UInt32.toNat_zero, Nat.zero_mul, Nat.zero_add]

/-- The legacy id of an IDIF object, as `ost_id`. -/
def legacyOstid (id : UInt64) : OstId := ⟨⟨id, 0, 0⟩⟩

theorem legacyOstid_oiSeq (id : UInt64) : (legacyOstid id).oiSeq = 0 := by
  apply UInt64.toNat_inj.mp
  rw [OstId.oiSeq, fidVerOid_toNat]
  simp [legacyOstid]

theorem and_idifOidMask {id : UInt64} (hid : id < idifMaxOid) : id &&& idifOidMask = id := by
  have hmask : idifOidMask.toNat = 2 ^ 48 - 1 := rfl
  have hmax : idifMaxOid.toNat = 2 ^ 48 := rfl
  rw [UInt64.lt_iff_toNat_lt, hmax] at hid
  apply UInt64.toNat_inj.mp
  rw [UInt64.toNat_and, hmask, Nat.and_two_pow_sub_one_eq_mod, Nat.mod_eq_of_lt hid]

theorem ostidSeq_legacyOstid (id : UInt64) : ostidSeq (legacyOstid id) = fidSeqOstMdt0 := by
  simp [ostidSeq, legacyOstid_oiSeq, fidSeqIsMdt0, fidSeqOstMdt0]

theorem ostidId_legacyOstid {id : UInt64} (hid : id < idifMaxOid) : ostidId (legacyOstid id) = id := by
  simp only [ostidId, legacyOstid_oiSeq, fidSeqIsMdt0, fidSeqOstMdt0, beq_self_eq_true, ↓reduceIte]
  exact and_idifOidMask hid

/-- On a legacy id, `ostid_set_id` puts the id in `oi_id`. -/
theorem ostidSetId_legacy (s : UInt64) {id : UInt64} (hid : id < idifMaxOid) :
    ostidSetId (legacyOstid s) id = .ok (legacyOstid id) := by
  have hnot : ¬ id ≥ idifMaxOid := UInt64.not_le.mpr hid
  simp only [ostidSetId, legacyOstid_oiSeq, fidSeqIsMdt0, fidSeqOstMdt0, beq_self_eq_true, ↓reduceIte, hnot]
  rfl

theorem ostidSetId_zero {id : UInt64} (hid : id < idifMaxOid) : ostidSetId OstId.zero id = .ok (legacyOstid id) :=
  ostidSetId_legacy 0 hid

/-- `ostid_set_seq_mdt0` keeps `oi_id` and zeroes `oi_seq`. -/
theorem ostidSetSeqMdt0_eq (oi : OstId) : ostidSetSeqMdt0 oi = legacyOstid oi.oiFid.fSeq := by
  simp [ostidSetSeqMdt0, ostidSetSeq, fidSeqIsMdt0, OstId.setOiSeq, fidSeqOstMdt0, legacyOstid]

/-- An IDIF FID of version zero is packed as its legacy id, whatever the
`ost_id` held before. -/
theorem fidToOstid_idif {f : LuFid} (hf : fidIsIdif f = true) (hv : f.fVer = 0) (oi : OstId) :
    fidToOstid f oi = .ok (legacyOstid (fidIdifId f.fSeq f.fOid 0)) := by
  have higif : fidSeqIsIgif f.fSeq = false := by
    simp only [fidIsIdif, fidSeqIsIdif, Bool.and_eq_true, decide_eq_true_eq, UInt64.le_iff_toNat_le] at hf
    simp only [fidSeqIsIgif, Bool.and_eq_false_iff, decide_eq_false_iff_not, UInt64.le_iff_toNat_le]
    right
    have : fidSeqIgifMax.toNat = 2 ^ 32 - 1 := rfl
    have : fidSeqIdif.toNat = 2 ^ 32 := rfl
    omega
  rw [fidToOstid, higif, hf, hv, ostidSetSeqMdt0_eq]
  exact ostidSetId_legacy _ (fidIdifId_lt _ _)

theorem ostFidFromResid_legacy (fid0 : LuFid) {id : UInt64} (hid : id < idifMaxOid) {ostIdx : UInt32}
    (hidx : ostIdx ≤ 0xffff) :
    ostFidFromResid fid0 (LdlmResId.ofWords id 0) ostIdx =
      some ⟨fidIdifSeq id ostIdx, id.toUInt32, (id >>> 48).toUInt32⟩ := by
  have hzero : ostidSetSeq OstId.zero 0 = OstId.zero := rfl
  have hnot : ¬ ostIdx > 0xffff := UInt32.not_lt.mpr hidx
  have hnot' : ¬ id ≥ idifMaxOid := UInt64.not_le.mpr hid
  simp only [ostFidFromResid, LdlmResId.ofWords_name1, LdlmResId.ofWords_name0, fidSeqIsMdt0, fidSeqOstMdt0,
    beq_self_eq_true, ↓reduceIte, hzero, ostidSetId_zero hid, ostidToFid, ostidSeq_legacyOstid,
    ostidId_legacyOstid hid, hnot, hnot']

/-! ## The FID layout -/

theorem toUInt32_fidVerOid (f : LuFid) : (fidVerOid f).toUInt32 = f.fOid := by
  have hoid := UInt32.toNat_lt f.fOid
  apply UInt32.toNat_inj.mp
  rw [UInt64.toNat_toUInt32, fidVerOid_toNat]
  omega

theorem fidVerOid_shiftRight_32 (f : LuFid) : (fidVerOid f >>> 32).toUInt32 = f.fVer := by
  have hoid := UInt32.toNat_lt f.fOid
  have hver := UInt32.toNat_lt f.fVer
  have h32 : (32 : UInt64).toNat % 64 = 32 := rfl
  apply UInt32.toNat_inj.mp
  rw [UInt64.toNat_toUInt32, UInt64.toNat_shiftRight, h32, fidVerOid_toNat, Nat.shiftRight_eq_div_pow]
  omega

/-- The `LASSERT` of `fid_extract_from_res_name` holds on every name
`fid_build_reg_res_name` builds, and the FID comes back. -/
theorem fidExtractFromResName_fidBuildRegResName (f : LuFid) :
    fidExtractFromResName (fidBuildRegResName f) = some f := by
  simp [fidExtractFromResName, fidBuildRegResName, fidResNameEq, toUInt32_fidVerOid, fidVerOid_shiftRight_32]

theorem ostFidFromResid_reg (fid0 : LuFid) {f : LuFid} (h : fidVerOid f ≠ 0) (ostIdx : UInt32) :
    ostFidFromResid fid0 (fidBuildRegResName f) ostIdx = some f := by
  have hnot : fidSeqIsMdt0 (fidVerOid f) = false := by simpa [fidSeqIsMdt0, fidSeqOstMdt0] using h
  simp only [ostFidFromResid, fidBuildRegResName, LdlmResId.ofWords_name1, hnot]
  exact fidExtractFromResName_fidBuildRegResName f

/-! ## The two layouts of `ost_fid_build_resid` -/

theorem ostFidBuildResid_idif {f : LuFid} (hf : fidIsIdif f = true) (hv : f.fVer = 0) (resname : LdlmResId) :
    ostFidBuildResid f resname = LdlmResId.ofWords (fidIdifId f.fSeq f.fOid 0) 0 := by
  have hid := fidIdifId_lt f.fSeq f.fOid
  simp only [ostFidBuildResid, hf, Bool.or_true, ↓reduceIte, fidToOstid_idif hf hv, ostidBuildResName,
    ostidSeq_legacyOstid, ostidId_legacyOstid hid, fidSeqIsMdt0, fidSeqOstMdt0, beq_self_eq_true]

theorem ostFidBuildResid_reg {f : LuFid} (hm : fidIsMdt0 f = false) (hf : fidIsIdif f = false) (resname : LdlmResId) :
    ostFidBuildResid f resname = fidBuildRegResName f := by
  simp only [ostFidBuildResid, hm, hf, Bool.or_false, Bool.false_eq_true, ↓reduceIte]

theorem fidToOstid_reg {f : LuFid} (hg : fidSeqIsIgif f.fSeq = false) (hf : fidIsIdif f = false) (oi : OstId) :
    fidToOstid f oi = .ok ⟨f⟩ := by
  simp only [fidToOstid, hg, hf, Bool.false_eq_true, ↓reduceIte]

theorem ostidResNameEq_legacy {id : UInt64} (hid : id < idifMaxOid) :
    ostidResNameEq (legacyOstid id) (LdlmResId.ofWords id 0) = true := by
  simp [ostidResNameEq, ostidSeq_legacyOstid, ostidId_legacyOstid hid, fidSeqIsMdt0, fidSeqOstMdt0]

/-- An `ost_id` holding a FID of an ordinary sequence, version zero and a
nonzero second word, decodes to the FID's sequence and object number. -/
theorem ostidSeq_reg {f : LuFid} (hf : fidIsIdif f = false) (hv : f.fVer = 0) (hne : fidVerOid f ≠ 0) :
    ostidSeq ⟨f⟩ = f.fSeq ∧ ostidId ⟨f⟩ = f.fOid.toUInt64 := by
  have hdef : fidSeqIsDefault (fidVerOid f) = false := by
    have hmax : fidSeqLovDefault.toNat = 2 ^ 64 - 1 := rfl
    have hoid := UInt32.toNat_lt f.fOid
    simp only [fidSeqIsDefault, beq_eq_false_iff_ne, ne_eq]
    intro h
    have := congrArg UInt64.toNat h
    rw [fidVerOid_ver_zero f hv, hmax] at this
    omega
  have hmdt0 : fidSeqIsMdt0 (fidVerOid f) = false := by simpa [fidSeqIsMdt0, fidSeqOstMdt0] using hne
  constructor
  · simp only [ostidSeq, OstId.oiSeq, hmdt0, hdef, hf, Bool.false_eq_true, ↓reduceIte]
  · simp only [ostidId, OstId.oiSeq, hmdt0, hdef, hf, Bool.false_eq_true, ↓reduceIte]

theorem ostidResNameEq_reg {f : LuFid} (hm : fidIsMdt0 f = false) (hf : fidIsIdif f = false) (hv : f.fVer = 0)
    (hne : fidVerOid f ≠ 0) : ostidResNameEq ⟨f⟩ (fidBuildRegResName f) = true := by
  have hlow : fidVerOid f = f.fOid.toUInt64 := by
    apply UInt64.toNat_inj.mp
    rw [fidVerOid_ver_zero f hv, UInt32.toNat_toUInt64]
  obtain ⟨hseq, hid⟩ := ostidSeq_reg hf hv hne
  have hm' : fidSeqIsMdt0 f.fSeq = false := hm
  simp [ostidResNameEq, hseq, hid, hm', fidBuildRegResName, hlow]

/-! ## OST object FIDs -/

/-- An OST object FID: an IDIF FID, or a FID that is neither an IGIF nor of
`FID_SEQ_OST_MDT0`, with version zero. -/
def OstObjectFid (f : LuFid) : Prop :=
  (fidIsIdif f = true ∨ (fidSeqIsIgif f.fSeq = false ∧ fidIsMdt0 f = false)) ∧ f.fVer = 0

/-- The OST object FIDs whose resource names decode back on OST `ostIdx`:
its own IDIF FIDs, and the FIDs of other sequences with a nonzero object
number. -/
def ostObjectsOn (ostIdx : UInt32) : Set LuFid :=
  {f | OstObjectFid f ∧ (fidIsIdif f = true → fidIdifOstIdx f = ostIdx) ∧ (fidIsIdif f = false → f.fOid ≠ 0)}

/-- Each object of an OST is an IDIF FID of that OST, or a FID of an
ordinary sequence whose second name word is not zero. -/
theorem ostObjectsOn_cases {ostIdx : UInt32} {f : LuFid} (hf : f ∈ ostObjectsOn ostIdx) :
    (fidIsIdif f = true ∧ f.fVer = 0 ∧ fidIdifOstIdx f = ostIdx) ∨
      (fidSeqIsIgif f.fSeq = false ∧ fidIsMdt0 f = false ∧ fidIsIdif f = false ∧ f.fVer = 0 ∧
        fidVerOid f ≠ 0) := by
  obtain ⟨⟨hkind, hv⟩, hidx, hoid⟩ := hf
  cases hi : fidIsIdif f with
  | true => exact .inl ⟨rfl, hv, hidx hi⟩
  | false =>
    rcases hkind with h | ⟨hg, hm⟩
    · rw [hi] at h
      cases h
    · refine .inr ⟨hg, hm, rfl, hv, ?_⟩
      intro h0
      have hnat := fidVerOid_ver_zero f hv
      rw [h0, UInt64.toNat_zero] at hnat
      exact hoid hi (UInt32.toNat_inj.mp (by rw [← hnat, UInt32.toNat_zero]))

/-- On an OST, the resource name of each of its objects decodes back to the
object. -/
theorem ostFidFromResid_build {ostIdx : UInt32} {f : LuFid} (hf : f ∈ ostObjectsOn ostIdx) (fid0 : LuFid)
    (resname : LdlmResId) :
    ostFidFromResid fid0 (ostFidBuildResid f resname) ostIdx = some f := by
  rcases ostObjectsOn_cases hf with ⟨hi, hv, hidx⟩ | ⟨-, hm, hi, -, hne⟩
  · have hle : ostIdx ≤ 0xffff := by
      rw [← hidx, UInt32.le_iff_toNat_le, fidIdifOstIdx, idifOstIdx_toNat]
      exact Nat.le_of_lt_succ (Nat.mod_lt _ (by omega))
    rw [ostFidBuildResid_idif hi hv, ostFidFromResid_legacy fid0 (fidIdifId_lt _ _) hle, ← hidx,
      fidIdifSeq_fidIdifId f hi, toUInt32_fidIdifId, fidIdifId_shiftRight_48, ← hv]
  · rw [ostFidBuildResid_reg hm hi, ostFidFromResid_reg fid0 hne]

/-- The `ost_id` of each object of an OST names the same resource. -/
theorem ostidResNameEq_build {ostIdx : UInt32} {f : LuFid} (hf : f ∈ ostObjectsOn ostIdx)
    (resname : LdlmResId) :
    ∃ oi, fidToOstid f OstId.zero = .ok oi ∧ ostidResNameEq oi (ostFidBuildResid f resname) = true := by
  rcases ostObjectsOn_cases hf with ⟨hi, hv, -⟩ | ⟨hg, hm, hi, hv, hne⟩
  · refine ⟨_, fidToOstid_idif hi hv OstId.zero, ?_⟩
    rw [ostFidBuildResid_idif hi hv]
    exact ostidResNameEq_legacy (fidIdifId_lt _ _)
  · refine ⟨_, fidToOstid_reg hg hi OstId.zero, ?_⟩
    rw [ostFidBuildResid_reg hm hi]
    exact ostidResNameEq_reg hm hi hv hne

theorem ost_fid_resid_roundtrip (ostIdx : UInt32) (fid0 : LuFid) (resname : LdlmResId) :
    (∀ f ∈ ostObjectsOn ostIdx, ostFidFromResid fid0 (ostFidBuildResid f resname) ostIdx = some f ∧
      ∃ oi, fidToOstid f OstId.zero = .ok oi ∧ ostidResNameEq oi (ostFidBuildResid f resname) = true) ∧
    Set.InjOn (fun f => ostFidBuildResid f resname) (ostObjectsOn ostIdx) := by
  refine ⟨fun f hf => ⟨ostFidFromResid_build hf fid0 resname, ostidResNameEq_build hf resname⟩, ?_⟩
  -- a left inverse on the objects makes the naming injective on them
  have hinv : Set.LeftInvOn (fun name => (ostFidFromResid fid0 name ostIdx).getD fid0)
      (fun f => ostFidBuildResid f resname) (ostObjectsOn ostIdx) := by
    intro f hf
    simp only [ostFidFromResid_build hf fid0 resname, Option.getD_some]
  exact hinv.injOn

theorem ost_fid_resid_roundtrip_idif : (⟨0x100050002, 0x400, 0⟩ : LuFid) ∈ ostObjectsOn 5 ∧
    ostFidFromResid ⟨0, 0, 0⟩ (ostFidBuildResid ⟨0x100050002, 0x400, 0⟩ (LdlmResId.ofWords 0 0)) 5 =
      some ⟨0x100050002, 0x400, 0⟩ :=
  have hmem : (⟨0x100050002, 0x400, 0⟩ : LuFid) ∈ ostObjectsOn 5 :=
    ⟨⟨.inl (by decide), rfl⟩, fun _ => by decide, fun h => absurd h (by decide)⟩
  ⟨hmem, ((ost_fid_resid_roundtrip 5 ⟨0, 0, 0⟩ (LdlmResId.ofWords 0 0)).1 _ hmem).1⟩

/-- The `LAST_ID` FID `[0x200000400:0x0:0x0]` is an OST object FID of the
claim's kind; its resource name decodes, on OST 0, to the IDIF FID
`[0x100000002:0x400:0x0]`, whose resource name is the same. -/
theorem ost_fid_resid_last_id_misread :
    OstObjectFid ⟨0x200000400, 0, 0⟩ ∧
      ostFidFromResid ⟨0, 0, 0⟩ (ostFidBuildResid ⟨0x200000400, 0, 0⟩ (LdlmResId.ofWords 0 0)) 0 =
        some ⟨0x100000002, 0x400, 0⟩ ∧
      ostFidBuildResid ⟨0x100000002, 0x400, 0⟩ (LdlmResId.ofWords 0 0) =
        ostFidBuildResid ⟨0x200000400, 0, 0⟩ (LdlmResId.ofWords 0 0) :=
  ⟨⟨.inr ⟨by decide, by decide⟩, rfl⟩, by decide, by decide⟩

/-! ## Round trips through `ost_id`

`fid_to_ostid` followed by `ostid_to_fid` gives back the FID for the IDIF
FIDs, unpacked on their own OST, and for the FIDs of the other sequences
with a nonzero object number, unpacked on any OST, but not for those of
`FID_SEQ_LOV_DEFAULT`, which `ostid_to_fid` leaves out. An `ost_id` whose two
words are those of a legacy id is read as one: a FID of `FID_SEQ_OST_MDT0`
or with object number zero comes back as an IDIF FID. -/

theorem ostidToFid_legacy (g : LuFid) {id : UInt64} (hid : id < idifMaxOid) {ostIdx : UInt32}
    (hidx : ostIdx ≤ 0xffff) :
    ostidToFid g (legacyOstid id) ostIdx = .ok ⟨fidIdifSeq id ostIdx, id.toUInt32, (id >>> 48).toUInt32⟩ := by
  have hnot : ¬ ostIdx > 0xffff := UInt32.not_lt.mpr hidx
  have hnot' : ¬ id ≥ idifMaxOid := UInt64.not_le.mpr hid
  simp only [ostidToFid, ostidSeq_legacyOstid, ostidId_legacyOstid hid, fidSeqIsMdt0, fidSeqOstMdt0,
    beq_self_eq_true, ↓reduceIte, hnot, hnot']

theorem ostidToFid_reg (g : LuFid) {f : LuFid} (hm : fidIsMdt0 f = false) (hd : fidSeqIsDefault f.fSeq = false)
    (hf : fidIsIdif f = false) (hv : f.fVer = 0) (hne : fidVerOid f ≠ 0) {ostIdx : UInt32} (hidx : ostIdx ≤ 0xffff) :
    ostidToFid g ⟨f⟩ ostIdx = .ok f := by
  have hnot : ¬ ostIdx > 0xffff := UInt32.not_lt.mpr hidx
  have hm' : fidSeqIsMdt0 f.fSeq = false := hm
  simp [ostidToFid, (ostidSeq_reg hf hv hne).1, hm', hd, hnot, hv]

theorem fidVerOid_ne_zero {f : LuFid} (hv : f.fVer = 0) (ho : f.fOid ≠ 0) : fidVerOid f ≠ 0 := by
  intro h
  have hnat := fidVerOid_ver_zero f hv
  rw [h, UInt64.toNat_zero] at hnat
  exact ho (UInt32.toNat_inj.mp (by rw [← hnat, UInt32.toNat_zero]))

/-- `ostid_set_seq` of an ordinary sequence on an `ost_id` of version zero
stores the sequence, and an object number that is not zero. -/
theorem ostidSetSeq_reg {oi : OstId} {seq : UInt64} (hm : fidSeqIsMdt0 seq = false)
    (hd : fidSeqIsDefault seq = false) (hv : oi.oiFid.fVer = 0) :
    ∃ o : UInt32, o ≠ 0 ∧ ostidSetSeq oi seq = ⟨⟨seq, o, 0⟩⟩ := by
  by_cases ho : oi.oiFid.fOid = 0
  · -- `LUSTRE_FID_INIT_OID` keeps the pair from reading as a legacy id
    refine ⟨lustreFidInitOid, by decide, ?_⟩
    simp [ostidSetSeq, hm, hd, ho, hv]
  · refine ⟨oi.oiFid.fOid, ho, ?_⟩
    simp [ostidSetSeq, hm, hd, ho, hv]

theorem ostidSetId_reg {seq oid : UInt64} {o : UInt32} (hi : fidSeqIsIdif seq = false) (ho : o ≠ 0)
    (hlt : oid < obifMaxOid) : ostidSetId ⟨⟨seq, o, 0⟩⟩ oid = .ok ⟨⟨seq, oid.toUInt32, 0⟩⟩ := by
  have hne : fidSeqIsMdt0 (OstId.oiSeq ⟨⟨seq, o, 0⟩⟩) = false := by
    simpa [fidSeqIsMdt0, fidSeqOstMdt0, OstId.oiSeq] using fidVerOid_ne_zero (f := ⟨seq, o, 0⟩) rfl ho
  have hnot : ¬ oid ≥ obifMaxOid := UInt64.not_le.mpr hlt
  simp only [ostidSetId, hne, fidIsIdif, hi, hnot, Bool.false_eq_true, ↓reduceIte]

theorem ostid_pack_unpack_roundtrip :
    (∀ (ostIdx : UInt32) (f : LuFid), f ∈ ostObjectsOn ostIdx → fidSeqIsDefault f.fSeq = false →
      ostIdx ≤ 0xffff → ∀ oi g, ∃ oi', fidToOstid f oi = .ok oi' ∧ ostidToFid g oi' ostIdx = .ok f) ∧
    (∀ (oi : OstId) (oid : UInt64), oid < idifMaxOid →
      ∃ oi', ostidSetId (ostidSetSeq oi fidSeqOstMdt0) oid = .ok oi' ∧ ostidSeq oi' = fidSeqOstMdt0 ∧
        ostidId oi' = oid) ∧
    (∀ (oi : OstId) (seq oid : UInt64), oi.oiFid.fVer = 0 → fidSeqIsMdt0 seq = false → fidSeqIsIdif seq = false →
      fidSeqIsDefault seq = false → 0 < oid → oid < obifMaxOid →
      ∃ oi', ostidSetId (ostidSetSeq oi seq) oid = .ok oi' ∧ ostidSeq oi' = seq ∧ ostidId oi' = oid) := by
  refine ⟨?_, ?_, ?_⟩
  · intro ostIdx f hf hd hle oi g
    rcases ostObjectsOn_cases hf with ⟨hi, hv, hidx⟩ | ⟨hg, hm, hi, hv, hne⟩
    · -- an IDIF FID goes through its legacy id
      refine ⟨_, fidToOstid_idif hi hv oi, ?_⟩
      rw [ostidToFid_legacy g (fidIdifId_lt _ _) hle, ← hidx, fidIdifSeq_fidIdifId f hi, toUInt32_fidIdifId,
        fidIdifId_shiftRight_48, ← hv]
    · exact ⟨_, fidToOstid_reg hg hi oi, ostidToFid_reg g hm hd hi hv hne hle⟩
  · intro oi oid hid
    have hset : ostidSetSeq oi fidSeqOstMdt0 = legacyOstid oi.oiFid.fSeq := ostidSetSeqMdt0_eq oi
    exact ⟨_, by rw [hset, ostidSetId_legacy _ hid], ostidSeq_legacyOstid oid, ostidId_legacyOstid hid⟩
  · intro oi seq oid hv hm hi hd hpos hlt
    obtain ⟨o, ho, hset⟩ := ostidSetSeq_reg hm hd hv
    -- a nonzero id below `2^32` is its own low word
    have hoid : oid.toUInt32 ≠ 0 ∧ oid.toUInt32.toUInt64 = oid := by
      have hmax : obifMaxOid.toNat = 2 ^ 32 := rfl
      rw [UInt64.lt_iff_toNat_lt, hmax] at hlt
      rw [UInt64.lt_iff_toNat_lt, UInt64.toNat_zero] at hpos
      constructor
      · intro h0
        have := congrArg UInt32.toNat h0
        rw [UInt64.toNat_toUInt32, Nat.mod_eq_of_lt hlt, UInt32.toNat_zero] at this
        omega
      · apply UInt64.toNat_inj.mp
        rw [UInt32.toNat_toUInt64, UInt64.toNat_toUInt32, Nat.mod_eq_of_lt hlt]
    obtain ⟨hseq, hid⟩ := ostidSeq_reg (f := ⟨seq, oid.toUInt32, 0⟩) hi rfl (fidVerOid_ne_zero rfl hoid.1)
    exact ⟨_, by rw [hset, ostidSetId_reg hi ho hlt], hseq, hid.trans hoid.2⟩

/-- Each case once: the IDIF FID `[0x100050002:0x400:0x0]` on OST 5, the
FID `[0x200000400:0x5:0x0]` of an ordinary sequence on OST 3, the legacy pair
`(0, 7)`, and the pair `(0x200000400, 7)`. -/
theorem ostid_pack_unpack_roundtrip_cases :
    (∃ oi', fidToOstid ⟨0x100050002, 0x400, 0⟩ OstId.zero = .ok oi' ∧
      ostidToFid ⟨0, 0, 0⟩ oi' 5 = .ok ⟨0x100050002, 0x400, 0⟩) ∧
    (∃ oi', fidToOstid ⟨0x200000400, 5, 0⟩ OstId.zero = .ok oi' ∧
      ostidToFid ⟨0, 0, 0⟩ oi' 3 = .ok ⟨0x200000400, 5, 0⟩) ∧
    (∃ oi', ostidSetId (ostidSetSeq OstId.zero fidSeqOstMdt0) 7 = .ok oi' ∧ ostidSeq oi' = fidSeqOstMdt0 ∧
      ostidId oi' = 7) ∧
    (∃ oi', ostidSetId (ostidSetSeq OstId.zero 0x200000400) 7 = .ok oi' ∧ ostidSeq oi' = 0x200000400 ∧
      ostidId oi' = 7) := by
  obtain ⟨hfid, hlegacy, hreg⟩ := ostid_pack_unpack_roundtrip
  refine ⟨hfid 5 ⟨0x100050002, 0x400, 0⟩
      ⟨⟨.inl (by decide), rfl⟩, fun _ => by decide, fun h => absurd h (by decide)⟩ (by decide) (by decide)
      OstId.zero ⟨0, 0, 0⟩, ?_, hlegacy OstId.zero 7 (by decide), ?_⟩
  · exact hfid 3 ⟨0x200000400, 5, 0⟩
      ⟨⟨.inr ⟨by decide, by decide⟩, rfl⟩, fun h => absurd h (by decide), fun _ => by decide⟩ (by decide) (by decide)
      OstId.zero ⟨0, 0, 0⟩
  · exact hreg OstId.zero 0x200000400 7 rfl (by decide) (by decide) (by decide) (by decide) (by decide)

/-- Three FIDs that `fid_to_ostid` packs but `ostid_to_fid` does not give
back: the `LAST_ID` FID `[0x200000400:0x0:0x0]` and the FID
`[0x0:0x5:0x0]` of `FID_SEQ_OST_MDT0` come back as IDIF FIDs, and a FID of
`FID_SEQ_LOV_DEFAULT` leaves the output as it was. And `ostid_set_seq` of
`FID_SEQ_LOV_DEFAULT` then `ostid_set_id` of 5 on a zeroed `ost_id` decodes
to the pair `(0, 5)`. -/
theorem ostid_pack_unpack_misses :
    fidToOstid ⟨0x200000400, 0, 0⟩ OstId.zero = .ok ⟨⟨0x200000400, 0, 0⟩⟩ ∧
      ostidToFid ⟨0, 0, 0⟩ ⟨⟨0x200000400, 0, 0⟩⟩ 0 = .ok ⟨0x100000002, 0x400, 0⟩ ∧
      fidToOstid ⟨0, 5, 0⟩ OstId.zero = .ok ⟨⟨0, 5, 0⟩⟩ ∧
      ostidToFid ⟨0, 0, 0⟩ ⟨⟨0, 5, 0⟩⟩ 0 = .ok ⟨0x100000000, 5, 0⟩ ∧
      fidToOstid ⟨0xffffffffffffffff, 5, 0⟩ OstId.zero = .ok ⟨⟨0xffffffffffffffff, 5, 0⟩⟩ ∧
      ostidToFid ⟨0, 0, 0⟩ ⟨⟨0xffffffffffffffff, 5, 0⟩⟩ 0 = .ok ⟨0, 0, 0⟩ ∧
      ostidSetId (ostidSetSeq OstId.zero fidSeqLovDefault) 5 = .ok ⟨⟨0, 5, 0xffffffff⟩⟩ ∧
      ostidSeq ⟨⟨0, 5, 0xffffffff⟩⟩ = 0 ∧ ostidId ⟨⟨0, 5, 0xffffffff⟩⟩ = 5 := by
  decide

end Lustre.Fid
