import Mathlib
import Lustre.Lov.Ea

/-! # The LOV EA: what is read, and what is written

Two directions of `Lustre.Lov.Ea`.

* Unpacking trusts the buffer. `lov_unpackmd` checks only that the magic
  fits; a plain layout then has its pattern and stripe count read, and its
  object id read for the error message, before `lsme_unpack` compares the
  buffer with the size the header needs. A buffer holding nothing but the
  magic of a plain layout is read past its end, then refused.

* Packing a composite layout. `lov_lsm_pack` sizes the EA with
  `lov_comp_md_size`, which counts the objects of every instantiated
  component, and lays the blobs out after the entry array with the sizes
  `lov_mds_md_size` gives for what it writes, which leaves out the objects
  of a released component. The blob sizes written are therefore at most
  the sizes counted (`packBlobSize_le`), and the blobs lie one after another
  inside the EA (`lovLsmPack_extents`), so that the EA passes
  `lsm_verify_comp_md_v1`. That holds while the size fits the 32-bit fields
  `lcm_size`, `lcme_offset` and `lcme_size`; a larger layout has its size
  written modulo `2 ^ 32`.

One turn of the packing loop is cut into the stores into the entry
(`packLcme`), the blob's header (`packBlobHeader`) and its objects
(`packEntry_eq`); each piece has its region (`Touches`) and the fields it
leaves set (`SetsLE`), and the loop is by induction on the components.
-/

namespace Lustre.Lov.Ea

open Footprint

/-! ## Reading past a short buffer -/

/-- The `lov_obd` of the run below: no targets, warnings off. -/
def quietLov : LovObd := ⟨0, fun _ => none, false, false⟩

/-- Four bytes holding only `LOV_MAGIC_V1`: `lsm_unpackmd_v1v3` loads the
pattern from bytes 4 to 8, `lsme_unpack` the stripe count from bytes 28 to
30 and, for its message, the object id from bytes 8 to 24, and only then is
the buffer refused. -/
theorem lov_unpackmd_reads_past_short_buffer :
    (lovUnpackmd quietLov 4 (Mem.ofBuffer (toLE 4 lovMagicV1) fun _ => 0)).1 = .error (-einval) ∧
      ⟨4, 4, false⟩ ∈ (lovUnpackmd quietLov 4 (Mem.ofBuffer (toLE 4 lovMagicV1) fun _ => 0)).2.log ∧
      ¬ Within 4 (lovUnpackmd quietLov 4 (Mem.ofBuffer (toLE 4 lovMagicV1) fun _ => 0)).2.log := by
  decide

/-! ## One turn of the packing loop -/

/-- The size of the blob the packer writes for a component. -/
def packBlobSize (e : LovStripeMdEntry) : Nat := lovMdsMdSize (packStripeCount e) e.lsmeMagic

/-- Where a blob's objects start: after the pool name of a V3 blob. -/
def objectsAt (e : LovStripeMdEntry) (offset : Nat) : Nat :=
  if e.lsmeMagic = lovMagicV3 then offset + 48 else offset + 32

/-- The stores of one turn into the entry, up to its offset field. -/
def packLcme (e : LovStripeMdEntry) (entry offset : Nat) : Probe Unit := do
  storeLE (32 + 48 * entry) 4 e.lsmeId
  storeLE (32 + 48 * entry + 4) 4 e.lsmeFlags
  (if e.lsmeFlags &&& lcmeFlNosync != 0 then storeLE (32 + 48 * entry + 36) 8 e.lsmeTimestamp else pure ())
  storeLE (32 + 48 * entry + 8) 8 e.lsmeExtent.eStart.toNat
  storeLE (32 + 48 * entry + 16) 8 e.lsmeExtent.eEnd.toNat
  storeLE (32 + 48 * entry + 24) 4 offset

/-- The stores of one turn into the header of the blob. -/
def packBlobHeader (e : LovStripeMdEntry) (offset : Nat) : Probe Unit := do
  storeLE offset 4 e.lsmeMagic
  storeLE (offset + 4) 4 e.lsmePattern
  storeLE (offset + 24) 4 e.lsmeStripeSize
  storeLE (offset + 28) 2 e.lsmeStripeCount
  storeLE (offset + 30) 2 e.lsmeLayoutGen
  if e.lsmeMagic = lovMagicV3 then strlcpyTo (offset + 32) e.lsmePoolName poolNameSize else pure ()

theorem packEntry_eq (e : LovStripeMdEntry) (entry offset : Nat) :
    packEntry e entry offset = (do
      packLcme e entry offset
      packBlobHeader e offset
      packObjects (objectsAt e offset) (e.lsmeOinfo.take (packStripeCount e))
      storeLE (32 + 48 * entry + 28) 4 (packBlobSize e)
      return packBlobSize e) := by
  simp only [packEntry, packLcme, packBlobHeader, objectsAt, packBlobSize]
  split_ifs <;> simp only [bind_assoc, pure_bind]

theorem packEntry_returns (e : LovStripeMdEntry) (entry offset : Nat) :
    Returns (packBlobSize e) (packEntry e entry offset) := by
  intro m
  rw [packEntry_eq]
  rfl

theorem storeOstId_touches (off : Nat) (oi : Fid.OstId) :
    Touches (fun i => off ≤ i ∧ i < off + 16) (storeOstId off oi) :=
  (Touches.storeLE fun _ h₁ h₂ => ⟨h₁, by omega⟩).bind fun _ =>
    (Touches.storeLE fun _ h₁ h₂ => ⟨by omega, by omega⟩).bind fun _ =>
      Touches.storeLE fun _ h₁ h₂ => ⟨by omega, by omega⟩

/-- The objects lie one after another, 24 bytes each. -/
theorem packObjects_touches (off : Nat) (l : List LovOinfo) :
    Touches (fun i => off ≤ i ∧ i < off + 24 * l.length) (packObjects off l) := by
  induction l generalizing off with
  | nil => exact .pure ()
  | cons loi rest ih =>
    simp only [packObjects, List.length_cons]
    refine ((storeOstId_touches off _).mono fun i ⟨h₁, h₂⟩ => ⟨h₁, by omega⟩).bind fun _ => ?_
    refine (Touches.storeLE fun _ h₁ h₂ => ⟨by omega, by omega⟩).bind fun _ => ?_
    refine (Touches.storeLE fun _ h₁ h₂ => ⟨by omega, by omega⟩).bind fun _ => ?_
    exact (ih (off + 24)).mono fun i ⟨h₁, h₂⟩ => ⟨by omega, by omega⟩

theorem packLcme_touches (e : LovStripeMdEntry) (entry offset : Nat) :
    Touches (fun i => 32 + 48 * entry ≤ i ∧ i < 32 + 48 * entry + 48) (packLcme e entry offset) := by
  unfold packLcme
  refine (Touches.storeLE fun _ h₁ h₂ => ⟨h₁, by omega⟩).bind fun _ => ?_
  refine (Touches.storeLE fun _ h₁ h₂ => ⟨by omega, by omega⟩).bind fun _ => ?_
  refine (Touches.ite (Touches.storeLE fun _ h₁ h₂ => ⟨by omega, by omega⟩) (.pure ())).bind fun _ => ?_
  refine (Touches.storeLE fun _ h₁ h₂ => ⟨by omega, by omega⟩).bind fun _ => ?_
  refine (Touches.storeLE fun _ h₁ h₂ => ⟨by omega, by omega⟩).bind fun _ => ?_
  exact Touches.storeLE fun _ h₁ h₂ => ⟨by omega, by omega⟩

/-- The last store of `packLcme` is the offset field. -/
theorem packLcme_sets_offset (e : LovStripeMdEntry) (entry offset : Nat) :
    SetsLE (32 + 48 * entry + 24) 4 (offset % 2 ^ 32) (packLcme e entry offset) := by
  unfold packLcme
  refine .bind_right fun _ => .bind_right fun _ => .bind_right fun _ => .bind_right fun _ => .bind_right fun _ => ?_
  exact SetsLE.storeLE _ 4 offset

theorem packBlobHeader_touches (e : LovStripeMdEntry) (offset : Nat) :
    Touches (fun i => offset ≤ i ∧ i < objectsAt e offset) (packBlobHeader e offset) := by
  have hobj : offset + 32 ≤ objectsAt e offset := by
    unfold objectsAt
    split <;> omega
  unfold packBlobHeader
  refine (Touches.storeLE fun _ h₁ h₂ => ⟨h₁, by omega⟩).bind fun _ => ?_
  refine (Touches.storeLE fun _ h₁ h₂ => ⟨by omega, by omega⟩).bind fun _ => ?_
  refine (Touches.storeLE fun _ h₁ h₂ => ⟨by omega, by omega⟩).bind fun _ => ?_
  refine (Touches.storeLE fun _ h₁ h₂ => ⟨by omega, by omega⟩).bind fun _ => ?_
  refine (Touches.storeLE fun _ h₁ h₂ => ⟨by omega, by omega⟩).bind fun _ => ?_
  by_cases hv3 : e.lsmeMagic = lovMagicV3
  · -- the pool name and its terminating zero: at most sixteen bytes
    have hat : objectsAt e offset = offset + 48 := if_pos hv3
    rw [if_pos hv3]
    refine Touches.store fun i h₁ h₂ => ⟨by omega, ?_⟩
    have : (e.lsmePoolName.take (poolNameSize - 1) ++ [0]).length ≤ 16 := by
      simp [poolNameSize]
    omega
  · rw [if_neg hv3]
    exact .pure ()

/-- The rest of a turn after the entry's offset field: the blob, and the
entry's size field. -/
theorem packEntry_tail_touches (e : LovStripeMdEntry) (entry offset : Nat) :
    Touches (fun i => offset ≤ i ∨ 32 + 48 * entry + 28 ≤ i ∧ i < 32 + 48 * entry + 32)
      (do
        packBlobHeader e offset
        packObjects (objectsAt e offset) (e.lsmeOinfo.take (packStripeCount e))
        storeLE (32 + 48 * entry + 28) 4 (packBlobSize e)
        return packBlobSize e) := by
  have hobj : offset ≤ objectsAt e offset := by
    unfold objectsAt
    split <;> omega
  refine ((packBlobHeader_touches e offset).mono fun i h => .inl h.1).bind fun _ => ?_
  refine ((packObjects_touches _ _).mono fun i h => .inl (by omega)).bind fun _ => ?_
  exact (Touches.storeLE fun _ h₁ h₂ => .inr ⟨h₁, h₂⟩).bind fun _ => .pure _

/-- A turn touches its entry and memory from its blob on. -/
theorem packEntry_touches (e : LovStripeMdEntry) (entry offset : Nat) :
    Touches (fun i => 32 + 48 * entry ≤ i ∧ i < 32 + 48 * entry + 48 ∨ offset ≤ i) (packEntry e entry offset) := by
  rw [packEntry_eq]
  refine ((packLcme_touches e entry offset).mono fun i h => .inl h).bind fun _ => ?_
  exact (packEntry_tail_touches e entry offset).mono fun i h => by omega

/-- A turn whose blob lies after its entry leaves the entry's offset and
size fields holding them. -/
theorem packEntry_sets (e : LovStripeMdEntry) (entry offset : Nat) (harr : 32 + 48 * entry + 48 ≤ offset) :
    SetsLE (32 + 48 * entry + 24) 4 (offset % 2 ^ 32) (packEntry e entry offset) ∧
      SetsLE (32 + 48 * entry + 28) 4 (packBlobSize e % 2 ^ 32) (packEntry e entry offset) := by
  rw [packEntry_eq]
  constructor
  · exact (packLcme_sets_offset e entry offset).bind_left (fun _ => (packEntry_tail_touches e entry offset).writes)
      fun i h₁ h₂ => by omega
  · refine .bind_right fun _ => .bind_right fun _ => .bind_right fun _ => ?_
    exact (SetsLE.storeLE _ 4 _).bind_left (R := fun _ => False) (fun _ => .pure _) fun _ _ _ h => h

/-! ## The packing loop -/

/-- The total size of the blobs the packer writes. -/
def blobsSize (es : List LovStripeMdEntry) : Nat := (es.map packBlobSize).sum

/-- The extents `(offset, size)` of the blobs the packer lays out from
`offset`. -/
def packExtents : List LovStripeMdEntry → Nat → List (Nat × Nat)
  | [], _ => []
  | e :: rest, offset => (offset, packBlobSize e) :: packExtents rest (offset + packBlobSize e)

/-- The extents `n` entries of an EA record from entry `entry` on:
`lcme_offset` and `lcme_size`. -/
def lcmeExtents (bytes : Nat → UInt8) : Nat → Nat → List (Nat × Nat)
  | 0, _ => []
  | n + 1, entry =>
    (readLE bytes (32 + 48 * entry + 24) 4, readLE bytes (32 + 48 * entry + 28) 4) :: lcmeExtents bytes n (entry + 1)

/-- The first `k` of `n` recorded extents. -/
theorem lcmeExtents_take (bytes : Nat → UInt8) {k n : Nat} (hk : k ≤ n) (entry : Nat) :
    lcmeExtents bytes k entry = (lcmeExtents bytes n entry).take k := by
  induction k generalizing n entry with
  | zero => rfl
  | succ k ih =>
    obtain ⟨n, rfl⟩ : ∃ n', n = n' + 1 := ⟨n - 1, by omega⟩
    simp only [lcmeExtents, List.take_succ_cons]
    rw [ih (n := n) (by omega)]

/-- The blobs lie one after another from `offset`. -/
theorem packExtents_laid (es : List LovStripeMdEntry) (offset : Nat) :
    Laid offset (offset + blobsSize es) (packExtents es offset) := by
  induction es generalizing offset with
  | nil => exact Nat.le_refl _
  | cons e rest ih =>
    refine ⟨Nat.le_refl _, ?_⟩
    have hsum : offset + blobsSize (e :: rest) = offset + packBlobSize e + blobsSize rest := by
      simp only [blobsSize, List.map_cons, List.sum_cons]
      omega
    rw [hsum]
    exact ih _

/-- The loop touches the entries it fills and memory from its first blob
on, as long as the offsets do not wrap. -/
theorem packEntries_touches (es : List LovStripeMdEntry) (entry offset : Nat)
    (hwrap : offset + blobsSize es < 2 ^ 32) :
    Touches (fun i => 32 + 48 * entry ≤ i ∧ i < 32 + 48 * (entry + es.length) ∨ offset ≤ i)
      (packEntries es entry offset) := by
  induction es generalizing entry offset with
  | nil => exact .pure ()
  | cons e rest ih =>
    have hsum : blobsSize (e :: rest) = packBlobSize e + blobsSize rest := by simp [blobsSize]
    have hmod : (offset + packBlobSize e) % 2 ^ 32 = offset + packBlobSize e := Nat.mod_eq_of_lt (by omega)
    simp only [packEntries]
    rw [(packEntry_returns e entry offset).bind_eq, hmod]
    refine ((packEntry_touches e entry offset).mono fun i h => ?_).bind fun _ => ?_
    · simp only [List.length_cons]
      omega
    · refine (ih (entry + 1) (offset + packBlobSize e) (by omega)).mono fun i h => ?_
      simp only [List.length_cons]
      omega

/-- The loop records the extents it lays out, when the blobs start after
the entries it fills and the offsets do not wrap. -/
theorem packEntries_extents (es : List LovStripeMdEntry) (entry offset : Nat)
    (harr : 32 + 48 * (entry + es.length) ≤ offset) (hwrap : offset + blobsSize es < 2 ^ 32) (m : Mem) :
    lcmeExtents (packEntries es entry offset m).2.bytes es.length entry = packExtents es offset := by
  induction es generalizing entry offset m with
  | nil => rfl
  | cons e rest ih =>
    have hsum : blobsSize (e :: rest) = packBlobSize e + blobsSize rest := by simp [blobsSize]
    simp only [List.length_cons] at harr
    have hmod : (offset + packBlobSize e) % 2 ^ 32 = offset + packBlobSize e := Nat.mod_eq_of_lt (by omega)
    have hrun : packEntries (e :: rest) entry offset =
        packEntry e entry offset >>= fun _ => packEntries rest (entry + 1) (offset + packBlobSize e) := by
      simp only [packEntries]
      rw [(packEntry_returns e entry offset).bind_eq, hmod]
    -- the later turns leave this entry's fields as the turn wrote them
    obtain ⟨hoff, hsize⟩ := packEntry_sets e entry offset (by omega)
    have hkeep := (packEntries_touches rest (entry + 1) (offset + packBlobSize e) (by omega)).writes
    rw [hrun]
    show lcmeExtents (packEntries rest (entry + 1) (offset + packBlobSize e) (packEntry e entry offset m).2).2.bytes
      (rest.length + 1) entry = _
    simp only [lcmeExtents, packExtents]
    rw [hkeep.readLE (fun i h₁ h₂ => by omega), hkeep.readLE (fun i h₁ h₂ => by omega), hoff, hsize,
      ih (entry + 1) (offset + packBlobSize e) (by omega) (by omega), Nat.mod_eq_of_lt (by omega),
      Nat.mod_eq_of_lt (by omega)]

/-! ## Verifying a composite EA -/

/-- The loop of `lsm_verify_comp_md_v1` accepts exactly entries whose blobs
end inside the EA. -/
theorem verifyEntries_eq_zero_iff (lcmSize k entry : Nat) (m : Mem) :
    (verifyEntries lcmSize k entry m).1 = 0 ↔ ∀ x ∈ lcmeExtents m.bytes k entry, x.1 + x.2 ≤ lcmSize := by
  induction k generalizing entry m with
  | zero => simp [verifyEntries, lcmeExtents]
  | succ k ih =>
    simp only [verifyEntries, loadLE_bind, lcmeExtents, List.forall_mem_cons]
    by_cases hbad : lcmSize < readLE m.bytes (32 + 48 * entry + 24) 4 ∨ lcmSize < readLE m.bytes (32 + 48 * entry + 28) 4 ∨
        lcmSize < readLE m.bytes (32 + 48 * entry + 24) 4 + readLE m.bytes (32 + 48 * entry + 28) 4
    · -- the blob sticks out: the entry's id is read for the message
      rw [if_pos hbad]
      simp only [loadLE_bind]
      constructor
      · intro h
        simp [einval] at h
      · intro h
        omega
    · rw [if_neg hbad, ih]
      constructor
      · intro h
        exact ⟨by omega, h⟩
      · exact fun h => h.2

/-- `lsm_verify_comp_md_v1` accepts exactly an EA that fits the buffer and
whose blobs end inside it. -/
theorem lsmVerifyCompMdV1_eq_zero_iff (bufSize : Nat) (m : Mem) :
    (lsmVerifyCompMdV1 bufSize m).1 = 0 ↔ readLE m.bytes 4 4 ≤ bufSize ∧
      ∀ x ∈ lcmeExtents m.bytes (readLE m.bytes 14 2) 0, x.1 + x.2 ≤ readLE m.bytes 4 4 := by
  simp only [lsmVerifyCompMdV1, loadLE_bind]
  by_cases hfit : bufSize < readLE m.bytes 4 4
  · rw [if_pos hfit]
    constructor
    · intro h
      simp [einval] at h
    · intro h
      omega
  · rw [if_neg hfit]
    simp only [loadLE_bind]
    rw [verifyEntries_eq_zero_iff]
    constructor
    · intro h
      exact ⟨by omega, h⟩
    · exact fun h => h.2

/-! ## The size of a composite EA -/

/-- The size `lov_comp_md_size` counts for a component: its objects when
it is instantiated. -/
def compMdSize (e : LovStripeMdEntry) : Nat :=
  lovMdsMdSize (if lsmeInited e then e.lsmeStripeCount else 0) e.lsmeMagic

theorem lovCompMdSize_comp {lsm : LovStripeMd} (hmagic : lsm.lsmMagic = lovMagicCompV1) :
    lovCompMdSize lsm = 32 + 48 * lsm.lsmEntries.length + (lsm.lsmEntries.map compMdSize).sum := by
  unfold lovCompMdSize
  rw [if_neg (by rw [hmagic]; decide), if_neg (by rw [hmagic]; decide)]
  rfl

theorem lovMdsMdSize_zero_le (stripes magic : Nat) : lovMdsMdSize 0 magic ≤ lovMdsMdSize stripes magic := by
  simp only [lovMdsMdSize]
  split_ifs <;> omega

/-- A blob is at most what the size counts for it: the two differ by the
objects of a released component, which the size counts and the packer
leaves out. -/
theorem packBlobSize_le (e : LovStripeMdEntry) : packBlobSize e ≤ compMdSize e := by
  unfold packBlobSize compMdSize packStripeCount
  by_cases hpack : (lsmeInited e && e.lsmePattern &&& lovPatternFReleased == 0) = true
  · have hinit : lsmeInited e = true := (Bool.and_eq_true _ _).mp hpack |>.1
    rw [if_pos hpack, if_pos hinit]
  · rw [if_neg hpack]
    exact lovMdsMdSize_zero_le _ _

theorem blobsSize_le (es : List LovStripeMdEntry) : blobsSize es ≤ (es.map compMdSize).sum :=
  List.sum_le_sum fun e _ => packBlobSize_le e

/-! ## Packing a composite layout -/

/-- The stores of `lov_lsm_pack` into the header of a composite EA. -/
def packCompHeader (lsm : LovStripeMd) : Probe Unit := do
  storeLE 0 4 lsm.lsmMagic
  storeLE 4 4 (lovCompMdSize lsm)
  storeLE 8 4 lsm.lsmLayoutGen
  storeLE 12 2 lsm.lsmFlags
  storeLE 16 2 lsm.lsmMirrorCount
  storeLE 14 2 lsm.lsmEntries.length

section Composite

variable {lsm : LovStripeMd} (hmagic : lsm.lsmMagic = lovMagicCompV1)
include hmagic

/-- Asked for the size, the packer returns it and writes nothing. -/
theorem lovLsmPack_zero (m : Mem) : lovLsmPack lsm 0 m = ((lovCompMdSize lsm : Int), m) := by
  unfold lovLsmPack
  rw [if_neg (by rw [hmagic]; decide), if_neg (by rw [hmagic]; decide), if_pos rfl]
  rfl

theorem lovLsmPack_comp_eq {bufSize : Nat} (hbuf : lovCompMdSize lsm ≤ bufSize) :
    lovLsmPack lsm bufSize = (do
      packCompHeader lsm
      packEntries lsm.lsmEntries 0 ((32 + 48 * lsm.lsmEntries.length) % 2 ^ 32)
      return (lovCompMdSize lsm : Int)) := by
  have hpos : 32 ≤ lovCompMdSize lsm := by
    rw [lovCompMdSize_comp hmagic]
    omega
  unfold lovLsmPack
  rw [if_neg (by rw [hmagic]; decide), if_neg (by rw [hmagic]; decide), if_neg (by omega), if_neg (by omega)]
  simp only [packCompHeader, bind_assoc]

theorem lovLsmPack_returns {bufSize : Nat} (hbuf : lovCompMdSize lsm ≤ bufSize) (m : Mem) :
    (lovLsmPack lsm bufSize m).1 = lovCompMdSize lsm := by
  rw [lovLsmPack_comp_eq hmagic hbuf]
  rfl

variable (hwrap : 32 + 48 * lsm.lsmEntries.length + blobsSize lsm.lsmEntries < 2 ^ 32)
include hwrap

/-- What follows the header touches only the entries and the blobs. -/
theorem lovLsmPack_comp_split {bufSize : Nat} (hbuf : lovCompMdSize lsm ≤ bufSize) :
    lovLsmPack lsm bufSize = (packCompHeader lsm >>= fun _ =>
      packEntries lsm.lsmEntries 0 (32 + 48 * lsm.lsmEntries.length) >>= fun _ => pure (lovCompMdSize lsm : Int)) ∧
    WritesIn (fun i => 32 ≤ i)
      (packEntries lsm.lsmEntries 0 (32 + 48 * lsm.lsmEntries.length) >>= fun _ => pure (lovCompMdSize lsm : Int)) := by
  have hA : (32 + 48 * lsm.lsmEntries.length) % 2 ^ 32 = 32 + 48 * lsm.lsmEntries.length :=
    Nat.mod_eq_of_lt (by omega)
  refine ⟨by rw [lovLsmPack_comp_eq hmagic hbuf, hA], ?_⟩
  refine WritesIn.bind ?_ fun _ => .pure _
  exact ((packEntries_touches _ 0 _ hwrap).mono fun i h => by omega).writes

/-- The packer writes `lcm_size` modulo `2 ^ 32`. -/
theorem lovLsmPack_lcm_size {bufSize : Nat} (hbuf : lovCompMdSize lsm ≤ bufSize) (m : Mem) :
    readLE (lovLsmPack lsm bufSize m).2.bytes 4 4 = lovCompMdSize lsm % 2 ^ 32 := by
  obtain ⟨heq, htail⟩ := lovLsmPack_comp_split hmagic hwrap hbuf
  rw [heq]
  refine SetsLE.bind_left ?_ (fun _ => htail) (fun i _ h => by omega) m
  unfold packCompHeader
  refine .bind_right fun _ => (SetsLE.storeLE 4 4 _).bind_left (R := fun i => 8 ≤ i ∧ i < 18) (fun _ => ?_)
    fun i _ h => by omega
  refine ((Touches.storeLE fun _ h₁ h₂ => ⟨h₁, by omega⟩).bind fun _ => ?_).writes
  refine (Touches.storeLE fun _ h₁ h₂ => ⟨by omega, by omega⟩).bind fun _ => ?_
  refine (Touches.storeLE fun _ h₁ h₂ => ⟨by omega, by omega⟩).bind fun _ => ?_
  exact Touches.storeLE fun _ h₁ h₂ => ⟨by omega, by omega⟩

/-- The packer writes `lcm_entry_count` modulo `2 ^ 16`. -/
theorem lovLsmPack_entry_count {bufSize : Nat} (hbuf : lovCompMdSize lsm ≤ bufSize) (m : Mem) :
    readLE (lovLsmPack lsm bufSize m).2.bytes 14 2 = lsm.lsmEntries.length % 2 ^ 16 := by
  obtain ⟨heq, htail⟩ := lovLsmPack_comp_split hmagic hwrap hbuf
  rw [heq]
  refine SetsLE.bind_left ?_ (fun _ => htail) (fun i _ h => by omega) m
  unfold packCompHeader
  refine .bind_right fun _ => .bind_right fun _ => .bind_right fun _ => .bind_right fun _ => .bind_right fun _ => ?_
  exact SetsLE.storeLE 14 2 _

/-- The entries of the EA record the blobs the loop lays out. -/
theorem lovLsmPack_extents {bufSize : Nat} (hbuf : lovCompMdSize lsm ≤ bufSize) (m : Mem) :
    lcmeExtents (lovLsmPack lsm bufSize m).2.bytes lsm.lsmEntries.length 0 =
      packExtents lsm.lsmEntries (32 + 48 * lsm.lsmEntries.length) := by
  obtain ⟨heq, -⟩ := lovLsmPack_comp_split hmagic hwrap hbuf
  rw [heq]
  exact packEntries_extents _ 0 _ (by omega) (by omega) _

end Composite

/-- For a composite layout whose size fits 32 bits: asked for the size,
`lov_lsm_pack` returns it and writes nothing; given room for it, it returns
it, writes it into `lcm_size`, lays the blobs out in entry order after the
entry array and inside the EA, and the EA passes `lsm_verify_comp_md_v1`. -/
theorem lov_lsm_pack_comp_md_consistent {lsm : LovStripeMd} (hmagic : lsm.lsmMagic = lovMagicCompV1)
    (hsize : lovCompMdSize lsm < 2 ^ 32) (m : Mem) :
    lovLsmPack lsm 0 m = ((lovCompMdSize lsm : Int), m) ∧
      ∀ bufSize, lovCompMdSize lsm ≤ bufSize →
        (lovLsmPack lsm bufSize m).1 = lovCompMdSize lsm ∧
        readLE (lovLsmPack lsm bufSize m).2.bytes 4 4 = lovCompMdSize lsm ∧
        Laid (32 + 48 * lsm.lsmEntries.length) (lovCompMdSize lsm)
          (lcmeExtents (lovLsmPack lsm bufSize m).2.bytes lsm.lsmEntries.length 0) ∧
        (lsmVerifyCompMdV1 bufSize (lovLsmPack lsm bufSize m).2).1 = 0 := by
  have hsum := lovCompMdSize_comp hmagic
  have hblobs := blobsSize_le lsm.lsmEntries
  have hwrap : 32 + 48 * lsm.lsmEntries.length + blobsSize lsm.lsmEntries < 2 ^ 32 := by omega
  refine ⟨lovLsmPack_zero hmagic m, fun bufSize hbuf => ?_⟩
  have hlcm : readLE (lovLsmPack lsm bufSize m).2.bytes 4 4 = lovCompMdSize lsm := by
    rw [lovLsmPack_lcm_size hmagic hwrap hbuf, Nat.mod_eq_of_lt hsize]
  -- the blobs the loop lays out end by the sum of their sizes, at most the size
  have hlaid : Laid (32 + 48 * lsm.lsmEntries.length) (lovCompMdSize lsm)
      (lcmeExtents (lovLsmPack lsm bufSize m).2.bytes lsm.lsmEntries.length 0) := by
    rw [lovLsmPack_extents hmagic hwrap hbuf]
    exact (packExtents_laid _ _).mono (Nat.le_refl _) (by omega)
  refine ⟨lovLsmPack_returns hmagic hbuf m, hlcm, hlaid, ?_⟩
  rw [lsmVerifyCompMdV1_eq_zero_iff, hlcm, lovLsmPack_entry_count hmagic hwrap hbuf]
  refine ⟨hbuf, fun x hx => ?_⟩
  -- the entry count read back is at most the number of entries
  rw [lcmeExtents_take _ (Nat.mod_le _ _)] at hx
  exact (hlaid.le_of_mem (List.mem_of_mem_take hx)).2

/-- A layout of two components: the first instantiated, with one object;
the second not yet instantiated, in pool `flash`. -/
def twoComponents : LovStripeMd :=
  ⟨0, ⟨⟨0, 0, 0⟩⟩, lovMagicCompV1, 3, 0, false, 0,
    [⟨⟨0, 1048576⟩, 1, lovMagicV1, lcmeFlInit, lovPatternRaid0, 0, 1048576, 1, 0, [],
        [⟨⟨⟨0x100000000, 1, 0⟩⟩, 1, 0⟩]⟩,
      ⟨⟨1048576, UInt64.ofNat lustreEof⟩, 2, lovMagicV3, 0, lovPatternRaid0, 0, 1048576, 4, 0,
        [0x66, 0x6c, 0x61, 0x73, 0x68], []⟩], []⟩

theorem lov_lsm_pack_two_components :
    twoComponents.lsmMagic = lovMagicCompV1 ∧ lovCompMdSize twoComponents < 2 ^ 32 ∧
      (lovLsmPack twoComponents 0 (Mem.ofBuffer [] fun _ => 0) =
          ((lovCompMdSize twoComponents : Int), Mem.ofBuffer [] fun _ => 0) ∧
        ∀ bufSize, lovCompMdSize twoComponents ≤ bufSize →
          (lovLsmPack twoComponents bufSize (Mem.ofBuffer [] fun _ => 0)).1 = lovCompMdSize twoComponents ∧
          readLE (lovLsmPack twoComponents bufSize (Mem.ofBuffer [] fun _ => 0)).2.bytes 4 4 =
            lovCompMdSize twoComponents ∧
          Laid (32 + 48 * twoComponents.lsmEntries.length) (lovCompMdSize twoComponents)
            (lcmeExtents (lovLsmPack twoComponents bufSize (Mem.ofBuffer [] fun _ => 0)).2.bytes
              twoComponents.lsmEntries.length 0) ∧
          (lsmVerifyCompMdV1 bufSize (lovLsmPack twoComponents bufSize (Mem.ofBuffer [] fun _ => 0)).2).1 = 0) :=
  ⟨rfl, by decide, lov_lsm_pack_comp_md_consistent rfl (by decide) _⟩

/-- An instantiated, released component of 65532 stripes: the size counts
its objects, the packer writes none. -/
def releasedEntry : LovStripeMdEntry :=
  ⟨⟨0, UInt64.ofNat lustreEof⟩, 1, lovMagicV1, lcmeFlInit, lovPatternRaid0 ||| lovPatternFReleased, 0, 1048576,
    65532, 0, [], []⟩

/-- 2731 such components. -/
def releasedLayout : LovStripeMd :=
  ⟨0, ⟨⟨0, 0, 0⟩⟩, lovMagicCompV1, 1, 0, true, 0, List.replicate 2731 releasedEntry, []⟩

/-- The EA of `releasedLayout` counts 4295447920 bytes, past `2 ^ 32`:
`lov_lsm_pack` into a zeroed buffer returns that size and writes 480624 into
`lcm_size`. -/
theorem lov_lsm_pack_lcm_size_wraps :
    lovCompMdSize releasedLayout = 4295447920 ∧
      (lovLsmPack releasedLayout 4295447920 ⟨fun _ => 0, []⟩).1 = 4295447920 ∧
      readLE (lovLsmPack releasedLayout 4295447920 ⟨fun _ => 0, []⟩).2.bytes 4 4 = 480624 := by
  have hmagic : releasedLayout.lsmMagic = lovMagicCompV1 := rfl
  have hcomp : compMdSize releasedEntry = 1572800 := by decide
  have hblob : packBlobSize releasedEntry = 32 := by decide
  have hsize : lovCompMdSize releasedLayout = 4295447920 := by
    rw [lovCompMdSize_comp hmagic]
    simp only [releasedLayout, List.map_replicate, List.sum_replicate, List.length_replicate, hcomp, nsmul_eq_mul, Nat.cast_id]
    omega
  have hwrap : 32 + 48 * releasedLayout.lsmEntries.length + blobsSize releasedLayout.lsmEntries < 2 ^ 32 := by
    simp only [releasedLayout, blobsSize, List.map_replicate, List.sum_replicate, List.length_replicate, hblob,
      nsmul_eq_mul, Nat.cast_id]
    omega
  have hbuf : lovCompMdSize releasedLayout ≤ 4295447920 := hsize.le
  refine ⟨hsize, ?_, ?_⟩
  · rw [lovLsmPack_returns hmagic hbuf, hsize]
    rfl
  · rw [lovLsmPack_lcm_size hmagic hwrap hbuf, hsize]
    decide

end Lustre.Lov.Ea
