import Mathlib
import Lustre.Osp.Precreate
import Lustre.Fid.Spec

/-! # The precreated pool and the reservations on it

A reservation (`osp_precreate_reserve`) is taken only while the pool holds
more objects than are reserved, and `osp_precreate_get_fid` then takes the
next FID of the pool and one reservation. Whether the pool always covers
the reservations rests on the OST: a precreate round stores the FID the OST
replied with as the last created one, checking only that it is past the used
FID, not that it is at or past the last created one.

With an OST whose replies are never below the last created FID, nor `2^31`
ids or more past the used one (`SaneReply`), every run keeps the invariant
`PoolInv`: the pool, counted in object ids, is below `2^31` and covers the
reservations, and the last used FID trails the used one. No operation then
asserts, each FID handed out is the next one of the pool
(`ospPrecreateGetFid_spec`), and a gap before it is recorded with its exact
start and length (`ospUpdateLastFid_spec`). `osp_precreate_run_covered` is
the run lemma.

An OST that replies with fewer objects than it had reported
(`osp_precreate_short_reply_overcommits`) leaves more reservations than
objects: the holders of the last ones call `osp_precreate_get_fid` on an
empty pool and trip its `LASSERTF`.

IDIF FIDs never reach the end of their sequence for `osp_fid_end_seq`
(`ospFidEndSeq_idif`): the id it reads back is masked below
`IDIF_MAX_OID`.
-/

namespace Lustre.Osp

open Lustre.Fid CArith StepRun

/-! ## Object ids -/

/-- The id by which `osp_fid_diff` orders FIDs: the 48-bit object id for an
IDIF FID, `f_oid` for the others. -/
def fidObjId (f : LuFid) : Nat :=
  if fidIsIdif f then (fidIdifId f.fSeq f.fOid 0).toNat else f.fOid.toNat

/-- The ids a sequence has room for. -/
def seqWidth (f : LuFid) : Nat := if fidIsIdif f then 2 ^ 48 else 2 ^ 32

/-- `osp_fid_diff` can compare the two FIDs without asserting. -/
def Comparable (f g : LuFid) : Prop := (ospFidDiff f g).isSome = true

instance (f g : LuFid) : Decidable (Comparable f g) := inferInstanceAs (Decidable (_ = true))

theorem fidIsIdif_iff (f : LuFid) : fidIsIdif f = true ↔ 2 ^ 32 ≤ f.fSeq.toNat ∧ f.fSeq.toNat < 2 ^ 33 := by
  simp only [fidIsIdif, fidSeqIsIdif, Bool.and_eq_true, decide_eq_true_eq, UInt64.le_iff_toNat_le]
  constructor
  · rintro ⟨hlo, hhi⟩
    exact ⟨hlo, Nat.lt_succ_of_le hhi⟩
  · rintro ⟨hlo, hhi⟩
    exact ⟨hlo, Nat.le_of_lt_succ hhi⟩

theorem fidObjId_idif {f : LuFid} (h : fidIsIdif f = true) :
    fidObjId f = f.fSeq.toNat % 2 ^ 16 * 2 ^ 32 + f.fOid.toNat := by
  rw [fidObjId, if_pos h, fidIdifId_toNat]

theorem fidObjId_reg {f : LuFid} (h : fidIsIdif f = false) : fidObjId f = f.fOid.toNat := by
  rw [fidObjId, if_neg (by rw [h]; decide)]

theorem fidObjId_lt (f : LuFid) : fidObjId f < seqWidth f := by
  have hoid := UInt32.toNat_lt f.fOid
  cases hi : fidIsIdif f
  · rw [fidObjId_reg hi, seqWidth, if_neg (by rw [hi]; decide)]
    exact hoid
  · rw [fidObjId_idif hi, seqWidth, if_pos hi]
    have := Nat.mod_lt f.fSeq.toNat (show 0 < 2 ^ 16 by decide)
    omega

/-! ## Comparing FIDs -/

theorem comparable_iff (f g : LuFid) :
    Comparable f g ↔
      (fidIsIdif f = true ∧ fidIsIdif g = true ∧
        (fidIdifOstIdx f = 0 ∨ fidIdifOstIdx g = 0 ∨ fidIdifOstIdx f = fidIdifOstIdx g)) ∨
      (¬ (fidIsIdif f = true ∧ fidIsIdif g = true) ∧ f.fSeq = g.fSeq) := by
  unfold Comparable ospFidDiff
  by_cases hb : (fidIsIdif f && fidIsIdif g) = true
  · rw [Bool.and_eq_true] at hb
    rw [if_pos (by rw [hb.1, hb.2]; rfl)]
    by_cases hx : fidIdifOstIdx f = 0 ∨ fidIdifOstIdx g = 0 ∨ fidIdifOstIdx f = fidIdifOstIdx g
    · simp only [if_pos hx, Option.isSome_some, true_iff]
      exact .inl ⟨hb.1, hb.2, hx⟩
    · simp only [if_neg hx, Option.isSome_none, Bool.false_eq_true, false_iff]
      rintro (⟨-, -, hx'⟩ | ⟨hn, -⟩)
      · exact hx hx'
      · exact hn hb
  · rw [if_neg hb]
    have hn : ¬ (fidIsIdif f = true ∧ fidIsIdif g = true) := by
      rw [← Bool.and_eq_true]
      exact hb
    by_cases hs : f.fSeq = g.fSeq
    · simp only [if_pos hs, Option.isSome_some, true_iff]
      exact .inr ⟨hn, hs⟩
    · simp only [if_neg hs, Option.isSome_none, Bool.false_eq_true, false_iff]
      rintro (⟨h1, h2, -⟩ | ⟨-, hs'⟩)
      · exact hn ⟨h1, h2⟩
      · exact hs hs'

theorem comparable_of_seq_eq {f g : LuFid} (h : f.fSeq = g.fSeq) : Comparable f g := by
  rw [comparable_iff]
  by_cases hb : fidIsIdif f = true ∧ fidIsIdif g = true
  · -- the OST index is read from the sequence
    exact .inl ⟨hb.1, hb.2, .inr (.inr (by rw [fidIdifOstIdx, fidIdifOstIdx, h]))⟩
  · exact .inr ⟨hb, h⟩

theorem Comparable.refl (f : LuFid) : Comparable f f := comparable_of_seq_eq rfl

/-- Comparable FIDs are both IDIF or both not. -/
theorem Comparable.idif_eq {f g : LuFid} (h : Comparable f g) : fidIsIdif f = fidIsIdif g := by
  rcases (comparable_iff f g).mp h with ⟨h1, h2, -⟩ | ⟨-, hs⟩
  · rw [h1, h2]
  · rw [fidIsIdif, fidIsIdif, hs]

theorem Comparable.seqWidth_eq {f g : LuFid} (h : Comparable f g) : seqWidth f = seqWidth g := by
  rw [seqWidth, seqWidth, h.idif_eq]

/-- Two FIDs that `osp_fid_diff` cannot tell apart when it decides whether to
assert: the IDIF class, the OST index and, outside IDIF, the sequence. -/
structure SameClass (f g : LuFid) : Prop where
  idif : fidIsIdif f = fidIsIdif g
  ost_idx : fidIdifOstIdx f = fidIdifOstIdx g
  seq : fidIsIdif g = false → f.fSeq = g.fSeq

theorem SameClass.of_seq_eq {f g : LuFid} (h : f.fSeq = g.fSeq) : SameClass f g where
  idif := by rw [fidIsIdif, fidIsIdif, h]
  ost_idx := by rw [fidIdifOstIdx, fidIdifOstIdx, h]
  seq := fun _ => h

theorem Comparable.congr_left {f f' g : LuFid} (h : Comparable f g) (hc : SameClass f' f) :
    Comparable f' g := by
  rw [comparable_iff] at h ⊢
  rw [hc.idif, hc.ost_idx]
  rcases h with h | ⟨hn, hseq⟩
  · exact .inl h
  · cases hf : fidIsIdif f
    · exact .inr ⟨by simp, (hc.seq hf).trans hseq⟩
    · -- an IDIF FID shares its sequence with no other kind
      have hg : fidIsIdif g = true := by rw [← hf, fidIsIdif, fidIsIdif, hseq]
      exact absurd ⟨hf, hg⟩ hn

theorem Comparable.symm {f g : LuFid} (h : Comparable f g) : Comparable g f := by
  rw [comparable_iff] at h ⊢
  rcases h with ⟨h1, h2, hx | hx | hx⟩ | ⟨hn, hs⟩
  · exact .inl ⟨h2, h1, .inr (.inl hx)⟩
  · exact .inl ⟨h2, h1, .inl hx⟩
  · exact .inl ⟨h2, h1, .inr (.inr hx.symm)⟩
  · exact .inr ⟨fun ⟨h2, h1⟩ => hn ⟨h1, h2⟩, hs.symm⟩

theorem Comparable.congr_right {f g g' : LuFid} (h : Comparable f g) (hc : SameClass g' g) :
    Comparable f g' :=
  (h.symm.congr_left hc).symm

/-- `osp_fid_diff` of comparable FIDs: the difference of their ids, taken
modulo `2^64` and narrowed to `int`. -/
theorem ospFidDiff_eq {f g : LuFid} (h : Comparable f g) :
    ospFidDiff f g = some (narrowInt (fidObjId f + 2 ^ 64 - fidObjId g)) := by
  have hi := h.idif_eq
  have hlt := fidObjId_lt g
  unfold Comparable ospFidDiff at h
  unfold ospFidDiff
  by_cases hf : fidIsIdif f = true
  · -- IDIF, the 48-bit ids in 64 bits
    have hg : fidIsIdif g = true := by rw [← hi, hf]
    have hb : (fidIsIdif f && fidIsIdif g) = true := by rw [hf, hg]; rfl
    rw [if_pos hb] at h ⊢
    have hx : fidIdifOstIdx f = 0 ∨ fidIdifOstIdx g = 0 ∨ fidIdifOstIdx f = fidIdifOstIdx g := by
      by_contra hx
      rw [if_neg hx] at h
      exact absurd h (by decide)
    rw [if_pos hx, UInt64.toNat_sub, fidIdifId_toNat, fidIdifId_toNat, ← fidObjId_idif hf, ← fidObjId_idif hg]
    congr 1
    apply narrowInt_congr
    rw [seqWidth, if_pos hg] at hlt
    omega
  · -- outside IDIF, `f_oid` in 32 bits
    have hf : fidIsIdif f = false := by simpa using hf
    have hg : fidIsIdif g = false := by rw [← hi, hf]
    have hb : ¬ (fidIsIdif f && fidIsIdif g) = true := by simp [hf]
    rw [if_neg hb] at h ⊢
    have hs : f.fSeq = g.fSeq := by
      by_contra hs
      rw [if_neg hs] at h
      exact absurd h (by decide)
    rw [if_pos hs, fidObjId_reg hf, fidObjId_reg hg, UInt32.toNat_sub]
    congr 1
    apply narrowInt_congr
    have := UInt32.toNat_lt f.fOid
    have := UInt32.toNat_lt g.fOid
    omega

/-- Ordered comparable FIDs less than `2^31` ids apart: `osp_fid_diff` is
the distance. -/
theorem ospFidDiff_of_le {f g : LuFid} (h : Comparable f g) (hle : fidObjId g ≤ fidObjId f)
    (hlt : fidObjId f - fidObjId g < 2 ^ 31) : ospFidDiff f g = some ((fidObjId f - fidObjId g : Nat) : Int) := by
  have hw := fidObjId_lt g
  have hw' : seqWidth g ≤ 2 ^ 64 := by
    unfold seqWidth
    split <;> decide
  rw [ospFidDiff_eq h, narrowInt_add_sub_of_le (Nat.pow_dvd_pow 2 (by decide)) (by omega) hle hlt]

/-- The other way round, `osp_fid_diff` is negative. -/
theorem ospFidDiff_neg {f g : LuFid} (h : Comparable f g) (hlt : fidObjId f < fidObjId g)
    (hd : fidObjId g - fidObjId f ≤ 2 ^ 31) : ∃ v, ospFidDiff f g = some v ∧ v < 0 := by
  have hw := fidObjId_lt g
  have hw' : seqWidth g ≤ 2 ^ 64 := by
    unfold seqWidth
    split <;> decide
  exact ⟨_, ospFidDiff_eq h, narrowInt_add_sub_neg (Nat.pow_dvd_pow 2 (by decide)) (by omega) hlt hd⟩

/-! ## The next FID -/

theorem toNat_lustreDataSeqMaxWidth : lustreDataSeqMaxWidth.toNat = 2 ^ 32 - 1 := rfl

/-- An id short of the end of its sequence has a next one, of the same
class: for IDIF, `f_oid` wraps into the sequence within the OST index. -/
theorem ospNextUsedFid_spec {f : LuFid} (h : fidObjId f + 1 < seqWidth f) :
    fidObjId (ospNextUsedFid f) = fidObjId f + 1 ∧ SameClass (ospNextUsedFid f) f := by
  have hoid := UInt32.toNat_lt f.fOid
  by_cases hi : fidIsIdif f = true
  · have hs := (fidIsIdif_iff f).mp hi
    rw [fidObjId_idif hi, seqWidth, if_pos hi] at h
    rw [fidObjId_idif hi]
    by_cases hm : f.fOid.toUInt64 = lustreDataSeqMaxWidth
    · -- the last `f_oid`: the sequence moves on and `f_oid` wraps to 0
      have hm' : f.fOid.toNat = 2 ^ 32 - 1 := by
        rw [← toNat_lustreDataSeqMaxWidth, ← hm, UInt32.toNat_toUInt64]
      have hseq : (f.fSeq + 1).toNat = f.fSeq.toNat + 1 := by
        rw [UInt64.toNat_add, UInt64.toNat_one]
        omega
      have hoid' : (f.fOid + 1).toNat = 0 := by
        rw [UInt32.toNat_add, UInt32.toNat_one, hm']
        rfl
      have hnext : ospNextUsedFid f = ⟨f.fSeq + 1, f.fOid + 1, f.fVer⟩ := by
        rw [ospNextUsedFid, if_pos (by rw [hi, hm]; decide)]
      have hi' : fidIsIdif (ospNextUsedFid f) = true := by
        rw [fidIsIdif_iff, hnext, hseq]
        omega
      rw [hnext] at hi' ⊢
      refine ⟨?_, ⟨by rw [hi, hi'], ?_, fun hf => absurd hi (by rw [hf]; decide)⟩⟩
      · rw [fidObjId_idif hi', hseq, hoid']
        omega
      · apply UInt32.toNat_inj.mp
        rw [fidIdifOstIdx, fidIdifOstIdx, idifOstIdx_toNat, idifOstIdx_toNat, hseq]
        omega
    · -- `f_oid` moves on within the sequence
      have hm' : f.fOid.toNat < 2 ^ 32 - 1 := by
        have hne : f.fOid.toUInt64.toNat ≠ lustreDataSeqMaxWidth.toNat := fun he => hm (UInt64.toNat_inj.mp he)
        rw [UInt32.toNat_toUInt64, toNat_lustreDataSeqMaxWidth] at hne
        omega
      have hnext : ospNextUsedFid f = { f with fOid := f.fOid + 1 } := by
        rw [ospNextUsedFid, if_neg (by simp [hm])]
      have hc : SameClass (ospNextUsedFid f) f := by
        rw [hnext]
        exact SameClass.of_seq_eq rfl
      refine ⟨?_, hc⟩
      rw [fidObjId_idif (hc.idif.trans hi), hnext, UInt32.toNat_add, UInt32.toNat_one]
      dsimp only
      omega
  · have hi : fidIsIdif f = false := by simpa using hi
    rw [fidObjId_reg hi, seqWidth, if_neg (by rw [hi]; decide)] at h
    have hnext : ospNextUsedFid f = { f with fOid := f.fOid + 1 } := by
      rw [ospNextUsedFid, if_neg (by simp [hi])]
    have hc : SameClass (ospNextUsedFid f) f := by
      rw [hnext]
      exact SameClass.of_seq_eq rfl
    refine ⟨?_, hc⟩
    rw [fidObjId_reg (hc.idif.trans hi), fidObjId_reg hi, hnext, UInt32.toNat_add, UInt32.toNat_one]
    omega

/-- The gap after an id short of the end of its sequence starts at the next
id. -/
theorem ospGapStart_eq {f : LuFid} (h : fidObjId f + 1 < seqWidth f) : ospGapStart f = ospNextUsedFid f := by
  by_cases hm : f.fOid.toUInt64 = lustreDataSeqMaxWidth
  · have hm' : f.fOid.toNat = 2 ^ 32 - 1 := by
      rw [← toNat_lustreDataSeqMaxWidth, ← hm, UInt32.toNat_toUInt64]
    -- only an IDIF FID has room after its last `f_oid`
    have hi : fidIsIdif f = true := by
      by_contra hi
      have hi : fidIsIdif f = false := by simpa using hi
      rw [fidObjId_reg hi, seqWidth, if_neg (by rw [hi]; decide)] at h
      omega
    obtain ⟨-, hc⟩ := ospNextUsedFid_spec h
    have hnext : ospNextUsedFid f = ⟨f.fSeq + 1, f.fOid + 1, f.fVer⟩ := by
      rw [ospNextUsedFid, if_pos (by rw [hi, hm]; decide)]
    have hi' : fidIsIdif ⟨f.fSeq + 1, f.fOid + 1, f.fVer⟩ = true := by
      rw [← hnext, hc.idif, hi]
    have hoid : f.fOid + 1 = 0 := by
      apply UInt32.toNat_inj.mp
      rw [UInt32.toNat_add, UInt32.toNat_one, hm']
      rfl
    rw [hnext, ospGapStart, if_pos hm]
    dsimp only
    rw [← hoid, if_pos (by rw [← hi']; rfl)]
  · rw [ospGapStart, if_neg hm, ospNextUsedFid, if_neg (by simp [hm])]

/-- `osp_fid_end_seq` reads an IDIF FID back as a group 0 id, which is
masked below `IDIF_MAX_OID`: it never holds. -/
theorem ospFidEndSeq_idif {f : LuFid} (h : fidIsIdif f = true) : ospFidEndSeq f = false := by
  have higif : fidSeqIsIgif f.fSeq = false := by
    have hs := (fidIsIdif_iff f).mp h
    have : fidSeqIgifMax.toNat = 2 ^ 32 - 1 := rfl
    simp only [fidSeqIsIgif, Bool.and_eq_false_iff, decide_eq_false_iff_not, UInt64.le_iff_toNat_le]
    right
    omega
  have hmdt0 : ostidSetSeqMdt0 OstId.zero = OstId.zero := rfl
  have hlt : ostidId (ospFidToOstid f) < idifMaxOid := by
    rw [ospFidToOstid, fidToOstid, higif, h, hmdt0]
    simp only [Bool.false_eq_true, ↓reduceIte]
    by_cases hid : fidIdifId f.fSeq f.fOid f.fVer < idifMaxOid
    · rw [ostidSetId_zero hid, ostidId_legacyOstid hid]
      exact hid
    · -- `ostid_set_id` refuses the id and leaves the buffer without one
      have hseq : OstId.zero.oiSeq = 0 := rfl
      have herr : ostidSetId OstId.zero (fidIdifId f.fSeq f.fOid f.fVer) = .error (-e2big) := by
        simp only [ostidSetId, hseq, fidSeqIsMdt0, fidSeqOstMdt0, beq_self_eq_true, ↓reduceIte,
          UInt64.not_lt.mp hid]
      rw [herr]
      decide
  rw [ospFidEndSeq, if_pos h]
  exact beq_false_of_ne fun he => UInt64.lt_irrefl _ (he ▸ hlt)

/-- Short of the end of its sequence, a FID is not at the end for
`osp_fid_end_seq`. -/
theorem ospFidEndSeq_of_lt {f : LuFid} (h : fidObjId f + 1 < seqWidth f) : ospFidEndSeq f = false := by
  by_cases hi : fidIsIdif f = true
  · exact ospFidEndSeq_idif hi
  · have hi : fidIsIdif f = false := by simpa using hi
    rw [fidObjId_reg hi, seqWidth, if_neg (by rw [hi]; decide)] at h
    rw [ospFidEndSeq, if_neg (by rw [hi]; decide)]
    apply beq_false_of_ne
    intro he
    have := congrArg UInt64.toNat he
    rw [UInt32.toNat_toUInt64, toNat_lustreDataSeqMaxWidth] at this
    omega

/-- At the end of its sequence for `osp_fid_end_seq`, a FID is outside IDIF
and at the last `f_oid`. -/
theorem ospFidEndSeq_eq_true {f : LuFid} (h : ospFidEndSeq f = true) :
    fidIsIdif f = false ∧ fidObjId f = 2 ^ 32 - 1 := by
  have hi : fidIsIdif f = false := by
    by_contra hi
    have hi : fidIsIdif f = true := by simpa using hi
    rw [ospFidEndSeq_idif hi] at h
    exact absurd h (by decide)
  rw [ospFidEndSeq, if_neg (by rw [hi]; decide), beq_iff_eq] at h
  refine ⟨hi, ?_⟩
  rw [fidObjId_reg hi, ← toNat_lustreDataSeqMaxWidth, ← h, UInt32.toNat_toUInt64]

/-! ## The pool invariant -/

/-- The pool of a device that speaks FIDs to its OST: the last created FID
is comparable with the used one, at most `2^31 - 1` ids past it, and covers
the reservations; the last used FID is comparable with the used one and
trails it. -/
structure PoolInv (d : OspDevice) : Prop where
  fid_client : d.opdFidClient = true
  comparable : Comparable d.opdPreLastCreatedFid d.opdPreUsedFid
  used_le : fidObjId d.opdPreUsedFid ≤ fidObjId d.opdPreLastCreatedFid
  window_lt : fidObjId d.opdPreLastCreatedFid - fidObjId d.opdPreUsedFid < 2 ^ 31
  reserved_le : d.opdPreReserved ≤ fidObjId d.opdPreLastCreatedFid - fidObjId d.opdPreUsedFid
  last_used_comparable : Comparable d.opdPreUsedFid d.opdLastUsedFid
  last_used_le : fidObjId d.opdLastUsedFid ≤ fidObjId d.opdPreUsedFid
  last_used_lt : fidObjId d.opdPreUsedFid - fidObjId d.opdLastUsedFid < 2 ^ 31 - 1

/-- The invariant reads the FIDs, the reservations and the client kind
only. -/
theorem PoolInv.of_fields {d d' : OspDevice} (h : PoolInv d) (hc : d'.opdFidClient = d.opdFidClient)
    (hu : d'.opdPreUsedFid = d.opdPreUsedFid) (hl : d'.opdPreLastCreatedFid = d.opdPreLastCreatedFid)
    (hlu : d'.opdLastUsedFid = d.opdLastUsedFid) (hr : d'.opdPreReserved ≤ d.opdPreReserved) :
    PoolInv d' where
  fid_client := hc.trans h.fid_client
  comparable := by rw [hl, hu]; exact h.comparable
  used_le := by rw [hl, hu]; exact h.used_le
  window_lt := by rw [hl, hu]; exact h.window_lt
  reserved_le := by rw [hl, hu]; exact hr.trans h.reserved_le
  last_used_comparable := by rw [hu, hlu]; exact h.last_used_comparable
  last_used_le := by rw [hu, hlu]; exact h.last_used_le
  last_used_lt := by rw [hu, hlu]; exact h.last_used_lt

/-- `osp_objs_precreated` is the size of the pool in ids. -/
theorem PoolInv.precreated {d : OspDevice} (h : PoolInv d) :
    ospObjsPrecreated d = some ((fidObjId d.opdPreLastCreatedFid - fidObjId d.opdPreUsedFid : Nat) : Int) :=
  ospFidDiff_of_le h.comparable h.used_le h.window_lt

/-- A device as `osp_init_precreate` and `osp_init_pre_fid` leave it, for a
FID client on the sequence `seq` of the OST `ostIdx`, once statfs has
cleared the status. -/
def initDevice (seq : UInt64) (ostIdx : UInt32) : OspDevice where
  opdPreUsedFid := ⟨seq, 1, 0⟩
  opdPreLastCreatedFid := ⟨seq, 1, 0⟩
  opdPreReserved := 0
  opdPreCreateCount := ostMinPrecreate
  opdPreMaxCreateCount := 20000
  opdPreCreateSlow := false
  opdPreStatus := 0
  opdPreRecovering := false
  opdLastUsedFid := ⟨seq, 1, 0⟩
  opdLastId := 0
  opdGapStartFid := ⟨0, 0, 0⟩
  opdGapCount := 0
  opdIndex := ostIdx
  opdFidClient := true

theorem PoolInv.init (seq : UInt64) (ostIdx : UInt32) : PoolInv (initDevice seq ostIdx) where
  fid_client := rfl
  comparable := Comparable.refl _
  used_le := le_rfl
  window_lt := by simp [initDevice]
  reserved_le := Nat.zero_le _
  last_used_comparable := Comparable.refl _
  last_used_le := le_rfl
  last_used_lt := by simp [initDevice]

/-! ## Handing out FIDs -/

/-- A FID past the last used one and comparable with it becomes the last
used one; when ids were skipped, the gap recorded starts at the id after the
last used one and counts the ids up to the new one. -/
theorem ospUpdateLastFid_spec {d : OspDevice} {fid : LuFid} (hc : Comparable fid d.opdLastUsedFid)
    (hlt : fidObjId d.opdLastUsedFid < fidObjId fid) (hd : fidObjId fid - fidObjId d.opdLastUsedFid < 2 ^ 31) :
    ∃ g c, ospUpdateLastFid d fid =
        some { d with opdLastUsedFid := fid, opdLastId := ospFidToObdid fid, opdGapStartFid := g,
                      opdGapCount := c } ∧
      (fidObjId d.opdLastUsedFid + 1 < fidObjId fid →
        fidObjId g = fidObjId d.opdLastUsedFid + 1 ∧
          c = ((fidObjId fid - fidObjId d.opdLastUsedFid - 1 : Nat) : Int)) := by
  rw [ospUpdateLastFid, ospFidDiff_of_le hc (Nat.le_of_lt hlt) hd]
  dsimp only
  rw [if_pos (by omega)]
  by_cases hgap : fidObjId d.opdLastUsedFid + 1 < fidObjId fid
  · -- the gap starts after the last used FID, in its sequence or the next
    have hw : fidObjId d.opdLastUsedFid + 1 < seqWidth d.opdLastUsedFid := by
      have := fidObjId_lt fid
      rw [hc.seqWidth_eq] at this
      omega
    refine ⟨ospGapStart d.opdLastUsedFid, ((fidObjId fid - fidObjId d.opdLastUsedFid : Nat) : Int) - 1,
      by rw [if_pos (by omega)], fun _ => ⟨?_, by omega⟩⟩
    rw [ospGapStart_eq hw]
    exact (ospNextUsedFid_spec hw).1
  · refine ⟨d.opdGapStartFid, d.opdGapCount, by rw [if_neg (by omega)], fun h => absurd h hgap⟩

/-- From a pool that covers a reservation, `osp_precreate_get_fid` hands out
the FID after the used one, which the pool holds, and keeps the
invariant. -/
theorem ospPrecreateGetFid_spec {d : OspDevice} (h : PoolInv d) (hr : 0 < d.opdPreReserved) :
    ∃ d', ospPrecreateGetFid d = some (ospNextUsedFid d.opdPreUsedFid, d') ∧ PoolInv d' ∧
      d'.opdPreUsedFid = ospNextUsedFid d.opdPreUsedFid ∧ d'.opdPreReserved = d.opdPreReserved - 1 ∧
      fidObjId (ospNextUsedFid d.opdPreUsedFid) = fidObjId d.opdPreUsedFid + 1 ∧
      fidObjId (ospNextUsedFid d.opdPreUsedFid) ≤ fidObjId d.opdPreLastCreatedFid := by
  have hres := h.reserved_le
  have hlast := h.window_lt
  -- the pool holds at least one id, short of the end of the sequence
  have hw : fidObjId d.opdPreUsedFid + 1 < seqWidth d.opdPreUsedFid := by
    have := fidObjId_lt d.opdPreLastCreatedFid
    rw [h.comparable.seqWidth_eq] at this
    omega
  obtain ⟨v, hv, hneg⟩ := ospFidDiff_neg h.comparable.symm (by omega) (by omega)
  obtain ⟨hnext, hclass⟩ := ospNextUsedFid_spec hw
  obtain ⟨g, c, hupd, -⟩ := ospUpdateLastFid_spec
    (d := { d with opdPreUsedFid := ospNextUsedFid d.opdPreUsedFid, opdPreReserved := d.opdPreReserved - 1 })
    (h.last_used_comparable.congr_left hclass) (by have := h.last_used_le; dsimp only; omega)
    (by have := h.last_used_lt; have := h.last_used_le; dsimp only; omega)
  -- the state after the call is the one the equation computes
  refine ⟨?_, ?_, ?_, ?_, ?_, hnext, by omega⟩
  rotate_left
  · rw [ospPrecreateGetFid, hv]
    dsimp only
    rw [if_neg (by omega), if_neg (by rw [ospFidEndSeq_of_lt hw]; decide), hupd, Option.map_some]
  rotate_left
  · rfl
  · rfl
  · exact {
      fid_client := h.fid_client
      comparable := h.comparable.congr_right hclass
      used_le := by dsimp only; omega
      window_lt := by dsimp only; omega
      reserved_le := by dsimp only; omega
      last_used_comparable := Comparable.refl _
      last_used_le := le_rfl
      last_used_lt := by simp }

theorem ospObjectRelease_spec {d : OspDevice} (h : PoolInv d) (hr : 0 < d.opdPreReserved) :
    ∃ d', ospObjectRelease d = some d' ∧ PoolInv d' :=
  ⟨{ d with opdPreReserved := d.opdPreReserved - 1 }, by rw [ospObjectRelease, if_pos hr],
    h.of_fields rfl rfl rfl rfl (Nat.sub_le _ _)⟩

/-! ## Reservations -/

/-- One more reservation on a pool that holds more objects than are
reserved. -/
theorem PoolInv.reserve {d : OspDevice} (h : PoolInv d)
    (hlt : d.opdPreReserved < fidObjId d.opdPreLastCreatedFid - fidObjId d.opdPreUsedFid) :
    PoolInv { d with opdPreReserved := d.opdPreReserved + 1 } :=
  { h with reserved_le := hlt }

/-- A pass of `osp_precreate_reserve` over a pool that covers the
reservations reserves only an object the pool holds beyond them. -/
theorem ospPrecreateReserve_spec {d : OspDevice} (h : PoolInv d) (canBlock syncIdle : Bool) :
    ∃ rc d', ospPrecreateReserve d canBlock syncIdle = some (rc, d') ∧ PoolInv d' := by
  have hres := h.reserved_le
  have hlast := h.window_lt
  rw [ospPrecreateReserve, h.precreated]
  dsimp only
  rw [if_neg (not_not.mpr (Int.natCast_nonneg _))]
  by_cases hmax : d.opdPreMaxCreateCount = 0
  · exact ⟨_, _, by rw [if_pos hmax], h⟩
  rw [if_neg hmax]
  by_cases hwait : ospPreStatusWaits d.opdPreStatus = false
  · exact ⟨_, _, by rw [if_pos hwait], h⟩
  rw [if_neg hwait]
  -- the doubling of the create count leaves the pool alone
  generalize hd1 : (if d.opdPreCreateCount < d.opdPreMaxCreateCount ∧ d.opdPreCreateSlow = false ∧
      ((fidObjId d.opdPreLastCreatedFid - fidObjId d.opdPreUsedFid : Nat) : Int) ≤ d.opdPreCreateCount.tdiv 4 + 1 then
      { d with opdPreCreateSlow := true, opdPreCreateCount := d.opdPreCreateCount * 2 } else d) = d1
  have h1 : PoolInv d1 := by
    rw [← hd1]
    split
    · exact h.of_fields rfl rfl rfl rfl le_rfl
    · exact h
  have hfields : d1.opdPreUsedFid = d.opdPreUsedFid ∧ d1.opdPreLastCreatedFid = d.opdPreLastCreatedFid ∧
      d1.opdPreReserved = d.opdPreReserved := by
    rw [← hd1]
    split <;> exact ⟨rfl, rfl, rfl⟩
  by_cases htake : ((((fidObjId d.opdPreLastCreatedFid - fidObjId d.opdPreUsedFid : Nat) : Int) % 2 ^ 64).toNat >
      d1.opdPreReserved ∧ d1.opdPreRecovering = false)
  · -- `int` to `__u64` keeps the pool size, which is small
    have hsize : (((fidObjId d.opdPreLastCreatedFid - fidObjId d.opdPreUsedFid : Nat) : Int) % 2 ^ 64).toNat =
        fidObjId d.opdPreLastCreatedFid - fidObjId d.opdPreUsedFid := by
      omega
    have hlt := htake.1
    rw [hsize, ← hfields.1, ← hfields.2.1] at hlt
    exact ⟨_, _, by rw [if_pos htake], h1.reserve hlt⟩
  · rw [if_neg htake]
    split
    · exact ⟨_, _, rfl, h1⟩
    · split
      · exact ⟨_, _, rfl, h1⟩
      · exact ⟨_, _, rfl, h1⟩

/-! ## Precreate rounds -/

/-- A FID the OST can sanely report as its last created one: comparable
with the used and the last created FIDs, not below the last created one, and
less than `2^31` ids past the used one. -/
def SaneLastFid (d : OspDevice) (f : LuFid) : Prop :=
  Comparable f d.opdPreUsedFid ∧ Comparable f d.opdPreLastCreatedFid ∧
    fidObjId d.opdPreLastCreatedFid ≤ fidObjId f ∧ fidObjId f - fidObjId d.opdPreUsedFid < 2 ^ 31

instance (d : OspDevice) (f : LuFid) : Decidable (SaneLastFid d f) :=
  inferInstanceAs (Decidable (_ ∧ _ ∧ _ ∧ _))

/-- The reply of a round from `d` is sane: the FID the round reads from it,
when the round gets that far, is `SaneLastFid`. -/
def saneReply (d : OspDevice) : PrecreateReply → Bool
  | .body oi =>
    match ospPrecreateRequest d with
    | some (d', some (fid, _)) => decide (SaneLastFid d (ospReplyFid fid oi d'.opdIndex))
    | _ => true
  | _ => true

/-- The request of a round of a FID client: the create count may be cut,
and nothing asserts. -/
theorem ospPrecreateRequest_spec {d : OspDevice} (hc : d.opdFidClient = true) :
    ∃ c x, ospPrecreateRequest d = some ({ d with opdPreCreateCount := c }, x) := by
  generalize hd1 : (if d.opdPreCreateCount > d.opdPreMaxCreateCount.tdiv 2 then
      { d with opdPreCreateCount := d.opdPreMaxCreateCount.tdiv 2 } else d) = d1
  have hd1' : d1 = { d with opdPreCreateCount := d1.opdPreCreateCount } := by
    rw [← hd1]
    split <;> rfl
  have hc1 : d1.opdFidClient = true := by rw [hd1']; exact hc
  rw [ospPrecreateRequest]
  dsimp only
  rw [hd1]
  obtain ⟨flag, fid, grow⟩ := ospPrecreateFids d1 d1.opdPreLastCreatedFid d1.opdPreCreateCount
  dsimp only
  refine ⟨d1.opdPreCreateCount, ?_⟩
  rw [← hd1']
  split
  · exact ⟨_, rfl⟩
  · rw [if_neg (by rw [hc1]; simp)]
    exact ⟨_, rfl⟩

/-- The pool with a new last created FID, which the OST sanely reported. -/
theorem PoolInv.withLast {d : OspDevice} {f : LuFid} (h : PoolInv d) (hs : SaneLastFid d f) :
    PoolInv { d with opdPreLastCreatedFid := f } := by
  obtain ⟨hcu, -, hle, hlt⟩ := hs
  have := h.used_le
  have := h.reserved_le
  exact { h with
    comparable := hcu
    used_le := by dsimp only; omega
    window_lt := hlt
    reserved_le := by dsimp only; omega }

/-- The `ready:` step with a sane FID: refused as stale, or stored. -/
theorem ospPrecreateReady_spec {d : OspDevice} {f : LuFid} (h : PoolInv d) (hs : SaneLastFid d f) (grow : Int) :
    ∃ rc d', ospPrecreateReady d f grow = some (rc, d') ∧ PoolInv d' := by
  obtain ⟨hcu, hcl, hle, hlt⟩ := hs
  have hu : fidObjId d.opdPreUsedFid ≤ fidObjId f := h.used_le.trans hle
  rw [ospPrecreateReady, ospFidDiff_of_le hcu hu hlt]
  dsimp only
  by_cases hz : ((fidObjId f - fidObjId d.opdPreUsedFid : Nat) : Int) ≤ 0
  · exact ⟨_, _, by rw [if_pos hz], h⟩
  rw [if_neg hz, ospFidDiff_eq hcl]
  dsimp only
  have hl := h.withLast ⟨hcu, hcl, hle, hlt⟩
  -- the create count and the slow flag change besides
  split
  · exact ⟨_, _, rfl, hl.of_fields rfl rfl rfl rfl le_rfl⟩
  · exact ⟨_, _, rfl, hl.of_fields rfl rfl rfl rfl le_rfl⟩

/-- A round of the precreate thread with a sane reply keeps the
invariant. -/
theorem ospPrecreateSend_spec {d : OspDevice} {reply : PrecreateReply} (h : PoolInv d)
    (hs : saneReply d reply = true) (reqRc msfsStatus : Int) :
    ∃ rc d', ospPrecreateSend d reqRc reply msfsStatus = some (rc, d') ∧ PoolInv d' := by
  rw [ospPrecreateSend]
  by_cases hst : d.opdPreStatus ≠ 0
  · exact ⟨_, _, by rw [if_pos hst], h⟩
  rw [if_neg hst]
  by_cases hreq : reqRc ≠ 0
  · exact ⟨_, _, by rw [if_pos hreq], h⟩
  rw [if_neg hreq]
  obtain ⟨c, x, hrq⟩ := ospPrecreateRequest_spec h.fid_client
  have h1 : PoolInv { d with opdPreCreateCount := c } := h.of_fields rfl rfl rfl rfl le_rfl
  rw [hrq]
  dsimp only
  -- every exit updates the status only
  rcases x with _ | ⟨fid, grow⟩
  · exact ⟨_, _, rfl, h1.of_fields rfl rfl rfl rfl le_rfl⟩
  · cases reply with
    | failed rc netErr => exact ⟨_, _, rfl, h1.of_fields rfl rfl rfl rfl le_rfl⟩
    | noBody => exact ⟨_, _, rfl, h1.of_fields rfl rfl rfl rfl le_rfl⟩
    | body oi =>
      rw [saneReply, hrq] at hs
      dsimp only at hs
      obtain ⟨rc, d', hready, h'⟩ := ospPrecreateReady_spec h1 (of_decide_eq_true hs) grow
      exact ⟨rc, ospPreUpdateStatus d' rc msfsStatus, by dsimp only; rw [hready, Option.map_some],
        h'.of_fields rfl rfl rfl rfl le_rfl⟩

/-! ## Sequence rollover -/

/-- The thread moves to a new sequence only with both FIDs at the end of
theirs, the pool then empty and nothing reserved; with a new sequence from
the controller it keeps the invariant. -/
theorem ospPrecreateThreadSeq_spec {d : OspDevice} (h : PoolInv d) {seq : Except Int UInt64}
    (hseq : ∀ s, seq = .ok s → s ≠ d.opdLastUsedFid.fSeq) (writeRc : Int) :
    ∃ rc d', ospPrecreateThreadSeq d seq writeRc = some (rc, d') ∧ PoolInv d' := by
  rw [ospPrecreateThreadSeq]
  by_cases hend : (ospFidEndSeq d.opdPreLastCreatedFid && ospFidEndSeq d.opdPreUsedFid) = true
  · rw [if_pos hend]
    rw [Bool.and_eq_true] at hend
    have hl := (ospFidEndSeq_eq_true hend.1).2
    have hu := (ospFidEndSeq_eq_true hend.2).2
    have hres := h.reserved_le
    rw [hl, hu, Nat.sub_self] at hres
    cases seq with
    | error rc => exact ⟨_, _, rfl, h⟩
    | ok s =>
      rw [ospPrecreateRolloverNewSeq]
      dsimp only
      rw [if_neg (hseq s rfl)]
      by_cases hw : writeRc ≠ 0
      · exact ⟨_, _, by rw [if_pos hw], h⟩
      · refine ⟨_, _, by rw [if_neg hw], ?_⟩
        exact {
          fid_client := h.fid_client
          comparable := Comparable.refl _
          used_le := le_rfl
          window_lt := by simp
          reserved_le := by dsimp only; omega
          last_used_comparable := Comparable.refl _
          last_used_le := le_rfl
          last_used_lt := by simp }
  · exact ⟨_, _, by rw [if_neg hend], h⟩

/-! ## Runs -/

/-- The interleavings of `PrecreateAllowed` with a sane OST, and a sequence
controller that hands out a sequence other than the last used one. -/
def SaneAllowed (d : OspDevice) (e : PrecreateEvent) : Prop :=
  PrecreateAllowed d e ∧
    match e with
    | .send _ reply _ => saneReply d reply = true
    | .rollover (.ok s) _ => s ≠ d.opdLastUsedFid.fSeq
    | _ => True

instance saneAllowedDecidable (d : OspDevice) : (e : PrecreateEvent) → Decidable (SaneAllowed d e)
  | .send reqRc reply msfsStatus =>
    inferInstanceAs (Decidable (PrecreateAllowed d (.send reqRc reply msfsStatus) ∧ saneReply d reply = true))
  | .reserve canBlock syncIdle => inferInstanceAs (Decidable (PrecreateAllowed d (.reserve canBlock syncIdle) ∧ True))
  | .getFid => inferInstanceAs (Decidable (PrecreateAllowed d .getFid ∧ True))
  | .release => inferInstanceAs (Decidable (PrecreateAllowed d .release ∧ True))
  | .rollover (.ok s) writeRc =>
    inferInstanceAs (Decidable (PrecreateAllowed d (.rollover (.ok s) writeRc) ∧ s ≠ d.opdLastUsedFid.fSeq))
  | .rollover (.error rc) writeRc => inferInstanceAs (Decidable (PrecreateAllowed d (.rollover (.error rc) writeRc) ∧ True))

/-- Every admitted operation on a device with the invariant returns, and
keeps it. -/
theorem ospPrecreateStep_spec {d : OspDevice} {e : PrecreateEvent} (h : PoolInv d) (ha : SaneAllowed d e) :
    ∃ r d', ospPrecreateStep d e = some (r, d') ∧ PoolInv d' := by
  obtain ⟨hallowed, hsane⟩ := ha
  cases e with
  | send reqRc reply msfsStatus =>
    obtain ⟨rc, d', hs, h'⟩ := ospPrecreateSend_spec h hsane reqRc msfsStatus
    exact ⟨_, _, by rw [ospPrecreateStep, hs, Option.map_some], h'⟩
  | reserve canBlock syncIdle =>
    obtain ⟨rc, d', hs, h'⟩ := ospPrecreateReserve_spec h canBlock syncIdle
    exact ⟨_, _, by rw [ospPrecreateStep, hs, Option.map_some], h'⟩
  | getFid =>
    obtain ⟨d', hs, h', -⟩ := ospPrecreateGetFid_spec h hallowed
    exact ⟨_, _, by rw [ospPrecreateStep, hs, Option.map_some], h'⟩
  | release =>
    obtain ⟨d', hs, h'⟩ := ospObjectRelease_spec h hallowed
    exact ⟨_, _, by rw [ospPrecreateStep, hs, Option.map_some], h'⟩
  | rollover seq writeRc =>
    have hseq : ∀ s, seq = .ok s → s ≠ d.opdLastUsedFid.fSeq := by
      rintro s rfl
      exact hsane
    obtain ⟨rc, d', hs, h'⟩ := ospPrecreateThreadSeq_spec h hseq writeRc
    exact ⟨_, _, by rw [ospPrecreateStep, hs, Option.map_some], h'⟩

/-- With a sane OST, every run from a device with the invariant returns,
without an assertion, with a pool that covers the reservations. -/
theorem osp_precreate_run_covered (d : OspDevice) (evs : List PrecreateEvent) (h : PoolInv d)
    (hrun : AllowedRun ospPrecreateStep SaneAllowed d evs) :
    ∃ rs d', run ospPrecreateStep d evs = some (rs, d') ∧ PoolInv d' ∧
      ∃ p, ospObjsPrecreated d' = some p ∧ (d'.opdPreReserved : Int) ≤ p := by
  obtain ⟨rs, d', hr, -, h'⟩ := run_total ospPrecreateStep SaneAllowed PoolInv (fun _ => True)
    (fun _ _ ha hd => (ospPrecreateStep_spec hd ha).imp fun _ ⟨d', hs, h'⟩ => ⟨d', hs, trivial, h'⟩) evs d hrun h
  refine ⟨rs, d', hr, h', _, h'.precreated, ?_⟩
  exact_mod_cast h'.reserved_le

/-- A fresh device, a round of 32 objects that the OST grants in full, one
reservation and the FID it is handed. -/
theorem osp_precreate_run_covered_one_round :
    ∃ rs d', run ospPrecreateStep (initDevice 0x200000400 0)
        [.send 0 (.body ⟨⟨0x200000400, 33, 0⟩⟩) 0, .reserve true false, .getFid] = some (rs, d') ∧ PoolInv d' ∧
      ∃ p, ospObjsPrecreated d' = some p ∧ (d'.opdPreReserved : Int) ≤ p :=
  osp_precreate_run_covered _ _ (PoolInv.init _ _) (allowedRun_of_allowedRunB _ _ _ _ (by decide))

/-! ## A short reply -/

/-- A fresh device on a sequence of FIDs: a round whose reply is complete,
17 reservations, which leave less than half a round in the pool, and a
second round to which the OST replies with an id below the last created
one. The pool is then 2 objects for 17 reservations, and the third FID
assignment trips the `LASSERTF` of `osp_precreate_get_fid`. -/
theorem osp_precreate_short_reply_overcommits :
    PoolInv (initDevice 0x200000400 0) ∧
    AllowedRun ospPrecreateStep PrecreateAllowed (initDevice 0x200000400 0)
      (.send 0 (.body ⟨⟨0x200000400, 33, 0⟩⟩) 0 :: List.replicate 17 (.reserve true false) ++
        [.send 0 (.body ⟨⟨0x200000400, 3, 0⟩⟩) 0, .getFid, .getFid, .getFid]) ∧
    (∃ rs d, run ospPrecreateStep (initDevice 0x200000400 0)
        (.send 0 (.body ⟨⟨0x200000400, 33, 0⟩⟩) 0 :: List.replicate 17 (.reserve true false) ++
          [.send 0 (.body ⟨⟨0x200000400, 3, 0⟩⟩) 0]) = some (rs, d) ∧
      ospObjsPrecreated d = some 2 ∧ d.opdPreReserved = 17) ∧
    run ospPrecreateStep (initDevice 0x200000400 0)
      (.send 0 (.body ⟨⟨0x200000400, 33, 0⟩⟩) 0 :: List.replicate 17 (.reserve true false) ++
        [.send 0 (.body ⟨⟨0x200000400, 3, 0⟩⟩) 0, .getFid, .getFid, .getFid]) = none := by
  refine ⟨PoolInv.init _ _, allowedRun_of_allowedRunB _ _ _ _ (by decide), ⟨_, _, rfl, ?_⟩, by decide⟩
  exact ⟨by decide, rfl⟩

end Lustre.Osp
