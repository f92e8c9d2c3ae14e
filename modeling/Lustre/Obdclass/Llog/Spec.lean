import Mathlib
import Lustre.Obdclass.Llog

/-! # What a cancel does to the header

Two outcomes are meant: the header is kept (`LlogKept`: bitmap and
`llh_count` as before), or the records are cancelled (`LlogCancelled`: every
index was in use, no index twice, their bits cleared and the others kept,
`llh_count` lowered by `num`). `llogCancelArrRec_cases` says which one each
exit of `llog_cancel_arr_rec` leaves, for every status the storage returns.

From it, with statuses that are `0` or negative the call returns `0`,
`LLOG_DEL_PLAIN` or an error (`llog_cancel_arr_rec_exits`). Two exits return a non-negative value with the header kept: a read-only device
returns `0` at once, and a `dt_trans_stop` that fails after the llog was
destroyed sets the bits back but still returns `LLOG_DEL_PLAIN`
(`llog_cancel_arr_rec_del_plain_restored`).

The loops are taken apart first: the clearing loop stops after a prefix of
the indices, all in use and distinct, whose bits it cleared
(`llogClearLoop_spec`), and setting back the bits of that prefix gives the
bitmap before the loop (`llogRestoreLoop_clear`).
-/

namespace Lustre.Obdclass

/-! ## The two loops -/

section Loops

variable {index : List Nat} {bitmap bitmap' : Nat → Bool}

/-- The restore loop over the first `i` entries sets their bits and keeps
the others. -/
theorem llogRestoreLoop_apply (bitmap : Nat → Bool) {i : Nat} (hi : i ≤ index.length) (k : Nat) :
    llogRestoreLoop index i bitmap k = (bitmap k || decide (k ∈ index.take i)) := by
  induction i generalizing bitmap with
  | zero => simp [llogRestoreLoop]
  | succ i ih =>
    have hlt : i < index.length := hi
    rw [llogRestoreLoop, ih _ (Nat.le_of_lt hlt), List.take_add_one, List.getD_eq_getElem?_getD,
      List.getElem?_eq_getElem hlt, Option.getD_some, Option.toList_some, setBitLe]
    by_cases hk : k = index[i]
    · rw [hk, Function.update_self]
      simp only [Bool.true_or, List.mem_append, List.mem_singleton, or_true, decide_true, Bool.or_true]
    · rw [Function.update_of_ne hk]
      simp only [List.mem_append, List.mem_singleton, hk, or_false]

/-- The clearing loop from entry `i` stops after `n` more entries: they were
in use and distinct, their bits are cleared, and the loop ended (`rc = 0`)
or failed on the next entry (`rc < 0`). -/
theorem llogClearLoop_spec (l : List Nat) (i : Nat) (bitmap : Nat → Bool) :
    ∃ n ≤ l.length, (llogClearLoop l i bitmap).1 = i + n ∧ (∀ k ∈ l.take n, bitmap k = true) ∧
      (l.take n).Nodup ∧
      (∀ k, (llogClearLoop l i bitmap).2.1 k = (bitmap k && !decide (k ∈ l.take n))) ∧
      ((llogClearLoop l i bitmap).2.2 = 0 ∧ n = l.length ∨ (llogClearLoop l i bitmap).2.2 < 0 ∧ n < l.length) := by
  induction l generalizing i bitmap with
  | nil => exact ⟨0, Nat.le_refl 0, rfl, by simp, by simp, by simp [llogClearLoop], .inl ⟨rfl, rfl⟩⟩
  | cons idx rest ih =>
    by_cases h0 : idx = 0
    · -- index 0 is the header: nothing cleared
      refine ⟨0, Nat.zero_le _, ?_, by simp, by simp, ?_, .inr ⟨?_, by simp⟩⟩
      · simp [llogClearLoop, h0]
      · simp [llogClearLoop, h0]
      · simp [llogClearLoop, h0, einval]
    · by_cases hb : bitmap idx = true
      · -- the bit was set: cleared, and the loop goes on
        obtain ⟨n, hn, hi, hset, hnd, hbm, hrc⟩ := ih (i + 1) (Function.update bitmap idx false)
        have hloop : llogClearLoop (idx :: rest) i bitmap =
            llogClearLoop rest (i + 1) (Function.update bitmap idx false) := by
          simp [llogClearLoop, h0, testAndClearBitLe, hb]
        -- every entry after `idx` in the prefix is still set, so it is not `idx`
        have hne : ∀ k ∈ rest.take n, k ≠ idx := by
          intro k hk hkeq
          have := hset k hk
          rw [hkeq, Function.update_self] at this
          exact Bool.false_ne_true this
        refine ⟨n + 1, Nat.succ_le_succ hn, ?_, ?_, ?_, ?_, ?_⟩
        · rw [hloop, hi]
          omega
        · intro k hk
          rw [List.take_succ_cons, List.mem_cons] at hk
          rcases hk with rfl | hk
          · exact hb
          · have := hset k hk
            rwa [Function.update_of_ne (hne k hk)] at this
        · rw [List.take_succ_cons, List.nodup_cons]
          exact ⟨fun h => hne idx h rfl, hnd⟩
        · intro k
          rw [hloop, hbm, List.take_succ_cons]
          by_cases hk : k = idx
          · simp [hk]
          · simp [hk]
        · rw [hloop]
          rcases hrc with ⟨h, rfl⟩ | ⟨h, hlt⟩
          · exact .inl ⟨h, rfl⟩
          · exact .inr ⟨h, by simp; omega⟩
      · -- the bit was already clear: -ENOENT, and clearing it changed nothing
        have hb' : bitmap idx = false := by simpa using hb
        have hloop : llogClearLoop (idx :: rest) i bitmap = (i, Function.update bitmap idx false, -enoent) := by
          simp [llogClearLoop, h0, testAndClearBitLe, hb']
        refine ⟨0, Nat.zero_le _, ?_, by simp, by simp, ?_, .inr ⟨?_, by simp⟩⟩
        · rw [hloop]
          rfl
        · intro k
          rw [hloop, List.take_zero]
          dsimp only
          by_cases hk : k = idx
          · rw [hk, Function.update_self, hb']
            rfl
          · rw [Function.update_of_ne hk]
            simp
        · rw [hloop]
          simp [enoent]

/-- Setting back the bits of a prefix of set entries after clearing them
gives the bitmap before. -/
theorem llogRestoreLoop_clear {n : Nat} (hn : n ≤ index.length) (hset : ∀ k ∈ index.take n, bitmap k = true)
    (hbm : ∀ k, bitmap' k = (bitmap k && !decide (k ∈ index.take n))) : llogRestoreLoop index n bitmap' = bitmap := by
  funext k
  rw [llogRestoreLoop_apply _ hn, hbm]
  by_cases hk : k ∈ index.take n
  · simp [hk, hset k hk]
  · simp [hk]

end Loops

/-! ## The exits of a cancel -/

section Cancel

variable {index : List Nat} {num : UInt32} {hdr : LlogLogHdr} {st : LlogCancelState} {rc1 : Int}

/-- The bitmap and the count of `hdr'` are those of `hdr`. -/
def LlogKept (hdr hdr' : LlogLogHdr) : Prop :=
  hdr'.llhBitmap = hdr.llhBitmap ∧ hdr'.llhCount = hdr.llhCount

/-- `hdr'` is `hdr` with the records of `index` cancelled: each was in use
and is named once, its bit is cleared and the others kept, and the count is
lower by `num`. -/
def LlogCancelled (index : List Nat) (hdr hdr' : LlogLogHdr) : Prop :=
  (∀ k ∈ index, hdr.llhBitmap k = true) ∧ index.Nodup ∧
    (∀ k, hdr'.llhBitmap k = (hdr.llhBitmap k && !decide (k ∈ index))) ∧
    hdr'.llhCount = hdr.llhCount - UInt32.ofNat index.length

/-- The bits of the first `n` entries of `index`, all set in `hdr`, are the
ones cleared in `hdr'`. -/
def LlogClearedPrefix (index : List Nat) (n : Nat) (hdr hdr' : LlogLogHdr) : Prop :=
  n ≤ index.length ∧ (∀ k ∈ index.take n, hdr.llhBitmap k = true) ∧
    ∀ k, hdr'.llhBitmap k = (hdr.llhBitmap k && !decide (k ∈ index.take n))

theorem llogCancelOutTrans_snd : (llogCancelOutTrans rc1 index num st).2 = if st.rc = 0 then rc1 else st.rc := by
  unfold llogCancelOutTrans
  split_ifs <;> rfl

/-- With nothing subtracted and no entry cleared, `out_trans` keeps the
header as it is. -/
theorem llogCancelOutTrans_fst_of_clean (hi : st.i ≤ 0) (hs : st.subtractCount = false) :
    (llogCancelOutTrans rc1 index num st).1 = st.hdr := by
  have h0 : st.i.toNat = 0 := Int.toNat_of_nonpos hi
  unfold llogCancelOutTrans
  simp only [hs, h0, llogRestoreLoop, Bool.false_eq_true, if_false]
  split_ifs <;> rfl

theorem llogCancelOutTrans_fst_of_nonneg (h : 0 ≤ rc1) : (llogCancelOutTrans rc1 index num st).1 = st.hdr := by
  unfold llogCancelOutTrans
  rw [if_neg (Int.not_lt.mpr h)]

theorem llogCancelOutUnlock_of_nonneg (h : 0 ≤ st.rc) : llogCancelOutUnlock index num st = st := by
  unfold llogCancelOutUnlock
  rw [if_neg (Int.not_lt.mpr h)]

/-- What both blocks do when they set things back: the count is raised
again if it was lowered, and the bits of the cleared prefix are set. -/
theorem llogKept_of_undo {hdr' : LlogLogHdr} {n : Nat} {subtracted : Bool} (hp : LlogClearedPrefix index n hdr hdr')
    (hcount : hdr'.llhCount = if subtracted then hdr.llhCount - num else hdr.llhCount) :
    LlogKept hdr { (if subtracted then { hdr' with llhCount := hdr'.llhCount + num } else hdr') with
      llhBitmap := llogRestoreLoop index n hdr'.llhBitmap } := by
  obtain ⟨hn, hset, hbm⟩ := hp
  refine ⟨llogRestoreLoop_clear hn hset hbm, ?_⟩
  cases subtracted with
  | false => simpa using hcount
  | true =>
    simp only [if_true] at hcount ⊢
    rw [hcount, UInt32.sub_add_cancel]

/-- `out_unlock` after an error sets back what was done, and leaves nothing
for `out_trans` to set back. -/
theorem llogCancelOutUnlock_undo (hrc : st.rc < 0) (hp : LlogClearedPrefix index st.i.toNat hdr st.hdr)
    (hcount : st.hdr.llhCount = if st.subtractCount then hdr.llhCount - num else hdr.llhCount) :
    LlogKept hdr (llogCancelOutUnlock index num st).hdr ∧ (llogCancelOutUnlock index num st).i ≤ 0 ∧
      (llogCancelOutUnlock index num st).subtractCount = false ∧ (llogCancelOutUnlock index num st).rc = st.rc := by
  unfold llogCancelOutUnlock
  rw [if_pos hrc]
  refine ⟨?_, by dsimp only; omega, rfl, rfl⟩
  have hk := llogKept_of_undo hp hcount
  cases hs : st.subtractCount with
  | false => simpa [hs] using hk
  | true => simpa [hs] using hk

/-- `out_trans` after a failed `dt_trans_stop` sets back what is left to
set back. -/
theorem llogCancelOutTrans_undo (hneg : rc1 < 0) (hp : LlogClearedPrefix index st.i.toNat hdr st.hdr)
    (hcount : st.hdr.llhCount = if st.subtractCount then hdr.llhCount - num else hdr.llhCount) :
    LlogKept hdr (llogCancelOutTrans rc1 index num st).1 := by
  unfold llogCancelOutTrans
  rw [if_pos hneg]
  have hk := llogKept_of_undo hp hcount
  cases hs : st.subtractCount with
  | false => simpa [hs] using hk
  | true => simpa [hs] using hk

/-- The exits after the bits are all cleared and the count lowered, with
`rc0 ≥ 0` the value at `out_unlock`: `out_unlock` does nothing, and a
failed `dt_trans_stop` sets everything back. -/
theorem llogCancelTail (rc1 : Int) {hdr' : LlogLogHdr} {rc0 : Int} (hp : LlogClearedPrefix index index.length hdr hdr')
    (hcount : hdr'.llhCount = hdr.llhCount - num) (hrc0 : 0 ≤ rc0) :
    (rc1 < 0 → LlogKept hdr (llogCancelOutTrans rc1 index num
        (llogCancelOutUnlock index num ⟨hdr', index.length, true, rc0⟩)).1) ∧
      (0 ≤ rc1 → (llogCancelOutTrans rc1 index num (llogCancelOutUnlock index num ⟨hdr', index.length, true, rc0⟩)).1 = hdr') ∧
      (llogCancelOutTrans rc1 index num (llogCancelOutUnlock index num ⟨hdr', index.length, true, rc0⟩)).2 =
        if rc0 = 0 then rc1 else rc0 := by
  rw [llogCancelOutUnlock_of_nonneg hrc0]
  refine ⟨fun hneg => llogCancelOutTrans_undo hneg (by simpa using hp) (by simpa using hcount),
    fun hnn => llogCancelOutTrans_fst_of_nonneg hnn, llogCancelOutTrans_snd⟩

/-- The whole array cleared is the cancel of its records. -/
theorem llogCancelled_of_prefix {hdr' : LlogLogHdr} (hp : LlogClearedPrefix index index.length hdr hdr')
    (hnd : index.Nodup) (hcount : hdr'.llhCount = hdr.llhCount - UInt32.ofNat index.length) :
    LlogCancelled index hdr hdr' := by
  obtain ⟨-, hset, hbm⟩ := hp
  rw [List.take_length] at hset hbm
  exact ⟨hset, hnd, hbm, hcount⟩

end Cancel

/-! ## Every exit -/

section Exits

variable (env : LlogCancelEnv) (index : List Nat)

/-- What a cancel may leave, with `hdr` the header before and `hdr'` after
it and `rc` the value returned. The header is kept on an error, on a
read-only device, and after a failed `dt_trans_stop` whatever is returned;
otherwise the records are cancelled, and the value returned is that of
`dt_trans_stop`, `LLOG_DEL_PLAIN`, or a positive status of the header
write. -/
def LlogCancelOutcome (hdr hdr' : LlogLogHdr) (rc : Int) : Prop :=
  LlogKept hdr hdr' ∧
      (rc < 0 ∨ env.ddRdonly = true ∧ rc = 0 ∨
        env.transStop < 0 ∧ (rc = llogDelPlain ∨ 0 < env.writeRec ∧ rc = env.writeRec)) ∨
    LlogCancelled index hdr hdr' ∧ 0 ≤ env.transStop ∧ env.ddRdonly = false ∧
      (env.writeRec = 0 ∧ (rc = env.transStop ∨ rc = llogDelPlain) ∨ 0 < env.writeRec ∧ rc = env.writeRec)

variable {env index} {hdr hdr' : LlogLogHdr}

/-- An exit that keeps the header with an error. -/
theorem LlogCancelOutcome.of_error {rc : Int} (hk : LlogKept hdr hdr') (hrc : rc < 0) :
    LlogCancelOutcome env index hdr hdr' rc :=
  .inl ⟨hk, .inl hrc⟩

/-- The exits after the bits are all cleared, the count lowered and the
header written, with `rc0` being `0` or `LLOG_DEL_PLAIN` at `out_unlock`. -/
theorem llogCancelOutcome_written {rc0 : Int} (hro : env.ddRdonly = false) (hwr : env.writeRec = 0)
    (hp : LlogClearedPrefix index index.length hdr hdr') (hnd : index.Nodup)
    (hcount : hdr'.llhCount = hdr.llhCount - UInt32.ofNat index.length) (hrc0 : rc0 = 0 ∨ rc0 = llogDelPlain) :
    LlogCancelOutcome env index hdr
      (llogCancelOutTrans env.transStop index (UInt32.ofNat index.length)
        (llogCancelOutUnlock index (UInt32.ofNat index.length) ⟨hdr', index.length, true, rc0⟩)).1
      (llogCancelOutTrans env.transStop index (UInt32.ofNat index.length)
        (llogCancelOutUnlock index (UInt32.ofNat index.length) ⟨hdr', index.length, true, rc0⟩)).2 := by
  have hnn : 0 ≤ rc0 := by
    rcases hrc0 with rfl | rfl
    · exact Int.le_refl 0
    · decide
  obtain ⟨hkept, hfst, hsnd⟩ := llogCancelTail env.transStop hp hcount hnn
  rw [hsnd]
  by_cases hstop : env.transStop < 0
  · -- `dt_trans_stop` failed: everything is set back
    rcases hrc0 with rfl | rfl
    · exact .of_error (hkept hstop) (by rw [if_pos rfl]; exact hstop)
    · exact .inl ⟨hkept hstop, .inr (.inr ⟨hstop, .inl (if_neg (by decide))⟩)⟩
  · have hstop' : 0 ≤ env.transStop := Int.not_lt.mp hstop
    refine .inr ⟨by rw [hfst hstop']; exact llogCancelled_of_prefix hp hnd hcount, hstop', hro, .inl ⟨hwr, ?_⟩⟩
    rcases hrc0 with rfl | rfl
    · exact .inl (if_pos rfl)
    · exact .inr (if_neg (by decide))

/-- After a positive status of the header write nothing is set back at
`out_unlock`, and the status is returned. -/
theorem llogCancelOutcome_write_pos (hro : env.ddRdonly = false) (hpos : 0 < env.writeRec)
    (hp : LlogClearedPrefix index index.length hdr hdr') (hnd : index.Nodup)
    (hcount : hdr'.llhCount = hdr.llhCount - UInt32.ofNat index.length) :
    LlogCancelOutcome env index hdr
      (llogCancelOutTrans env.transStop index (UInt32.ofNat index.length)
        (llogCancelOutUnlock index (UInt32.ofNat index.length) ⟨hdr', index.length, true, env.writeRec⟩)).1
      (llogCancelOutTrans env.transStop index (UInt32.ofNat index.length)
        (llogCancelOutUnlock index (UInt32.ofNat index.length) ⟨hdr', index.length, true, env.writeRec⟩)).2 := by
  obtain ⟨hkept, hfst, hsnd⟩ := llogCancelTail env.transStop hp hcount (Int.le_of_lt hpos)
  rw [hsnd, if_neg (Int.ne_of_gt hpos)]
  by_cases hstop : env.transStop < 0
  · exact .inl ⟨hkept hstop, .inr (.inr ⟨hstop, .inr ⟨hpos, rfl⟩⟩)⟩
  · have hstop' : 0 ≤ env.transStop := Int.not_lt.mp hstop
    refine .inr ⟨?_, hstop', hro, .inr ⟨hpos, rfl⟩⟩
    rw [hfst hstop']
    exact llogCancelled_of_prefix hp hnd hcount

variable (env index) (h : LlogHandle)

/-- Which outcome each exit of `llog_cancel_arr_rec` leaves, for every
status of the storage. -/
theorem llogCancelArrRec_cases :
    LlogCancelOutcome env index h.lghHdr (llogCancelArrRec env h index).1.lghHdr (llogCancelArrRec env h index).2 := by
  obtain ⟨n, hn, hi, hset, hnd, hbm, hrc⟩ := llogClearLoop_spec index 0 h.lghHdr.llhBitmap
  unfold llogCancelArrRec
  dsimp only
  generalize llogClearLoop index 0 h.lghHdr.llhBitmap = r at hi hbm hrc ⊢
  rw [Nat.zero_add] at hi
  -- the exits before the loop leave the header as it was
  have hclean : ∀ e < 0, LlogCancelOutcome env index h.lghHdr
      (llogCancelOutTrans env.transStop index (UInt32.ofNat index.length) ⟨h.lghHdr, 0, false, e⟩).1
      (llogCancelOutTrans env.transStop index (UInt32.ofNat index.length) ⟨h.lghHdr, 0, false, e⟩).2 := by
    intro e he
    rw [llogCancelOutTrans_fst_of_clean (Int.le_refl 0) rfl, llogCancelOutTrans_snd, if_neg (Int.ne_of_lt he)]
    exact .of_error ⟨rfl, rfl⟩ he
  -- the exits one after another, in the order of the source
  by_cases hro : env.ddRdonly = true
  · rw [if_pos hro]
    exact .inl ⟨⟨rfl, rfl⟩, .inr (.inl ⟨hro, rfl⟩)⟩
  rw [if_neg hro]
  by_cases hcr : env.transCreate < 0
  · rw [if_pos hcr]
    exact .of_error ⟨rfl, rfl⟩ hcr
  rw [if_neg hcr]
  by_cases hdw : env.declareWriteRec < 0
  · rw [if_pos hdw]
    exact hclean _ hdw
  rw [if_neg hdw]
  split
  · next hdd => exact hclean _ (by simpa using (Bool.and_eq_true_iff.mp hdd).2)
  by_cases hts : env.transStart < 0
  · rw [if_pos hts]
    exact hclean _ hts
  rw [if_neg hts]
  by_cases hlp : r.2.2 < 0
  · -- an error in the loop: `out_unlock` sets back the prefix it cleared
    rw [if_pos hlp]
    obtain ⟨hkept, hi', hs', hrc'⟩ := @llogCancelOutUnlock_undo index (UInt32.ofNat index.length) h.lghHdr
      ⟨{ h.lghHdr with llhBitmap := r.2.1 }, r.1, false, r.2.2⟩ hlp
      ⟨by simp [hi]; omega, by simpa [hi] using hset, by simpa [hi] using hbm⟩ (by simp)
    rw [llogCancelOutTrans_fst_of_clean hi' hs', llogCancelOutTrans_snd, hrc', if_neg (Int.ne_of_lt hlp)]
    exact .of_error hkept hlp
  rw [if_neg hlp]
  -- the loop went through: every entry was in use and is cleared
  have hlen : n = index.length := by
    rcases hrc with ⟨-, hlen⟩ | ⟨hlt, -⟩
    · exact hlen
    · exact absurd hlt hlp
  subst hlen
  have hpre : ∀ hdr' : LlogLogHdr, hdr'.llhBitmap = r.2.1 → LlogClearedPrefix index index.length h.lghHdr hdr' :=
    fun hdr' hb => ⟨Nat.le_refl _, hset, fun k => hb ▸ hbm k⟩
  have hnd' : index.Nodup := by simpa using hnd
  have hro' : env.ddRdonly = false := by simpa using hro
  rw [hi]
  by_cases hwr : env.writeRec ≠ 0
  · -- the header write failed
    rw [if_pos hwr]
    rcases Int.lt_or_gt_of_ne hwr with hneg | hpos
    · obtain ⟨hkept, hi', hs', hrc'⟩ := @llogCancelOutUnlock_undo index (UInt32.ofNat index.length) h.lghHdr
        ⟨⟨h.lghHdr.llhCount - UInt32.ofNat index.length, h.lghHdr.llhFlags, h.lghHdr.llhBitmapSize, r.2.1⟩,
          index.length, true, env.writeRec⟩ hneg (by simpa using hpre _ rfl) (by simp)
      rw [llogCancelOutTrans_fst_of_clean hi' hs', llogCancelOutTrans_snd, hrc', if_neg (Int.ne_of_lt hneg)]
      exact .of_error hkept hneg
    · exact llogCancelOutcome_write_pos hro' hpos (hpre _ rfl) hnd' rfl
  rw [if_neg hwr]
  have hwr0 : env.writeRec = 0 := not_not.mp hwr
  split
  · -- the llog is left with its header only and is destroyed; a failed
    -- destroy returns 0
    have hrc0 : (if env.transDestroy < 0 then 0 else llogDelPlain) = 0 ∨
        (if env.transDestroy < 0 then 0 else llogDelPlain) = llogDelPlain := by
      by_cases hdes : env.transDestroy < 0
      · exact .inl (if_pos hdes)
      · exact .inr (if_neg hdes)
    exact llogCancelOutcome_written hro' hwr0 (hpre _ rfl) hnd' rfl hrc0
  · exact llogCancelOutcome_written hro' hwr0 (hpre _ rfl) hnd' rfl (.inl rfl)

/-- With storage that returns `0` or an error, a cancel returns an error
with the header kept, or `0` or `LLOG_DEL_PLAIN` with the records
cancelled, but for two exits that keep the header: `0` on a read-only
device, and `LLOG_DEL_PLAIN` after a failed `dt_trans_stop`. -/
theorem llog_cancel_arr_rec_exits (hwr : env.writeRec ≤ 0) (hstop : env.transStop ≤ 0) :
    (llogCancelArrRec env h index).2 < 0 ∧ LlogKept h.lghHdr (llogCancelArrRec env h index).1.lghHdr ∨
      (llogCancelArrRec env h index).2 = 0 ∧
        (LlogCancelled index h.lghHdr (llogCancelArrRec env h index).1.lghHdr ∨
          env.ddRdonly = true ∧ LlogKept h.lghHdr (llogCancelArrRec env h index).1.lghHdr) ∨
      (llogCancelArrRec env h index).2 = llogDelPlain ∧
        (LlogCancelled index h.lghHdr (llogCancelArrRec env h index).1.lghHdr ∨
          env.transStop < 0 ∧ LlogKept h.lghHdr (llogCancelArrRec env h index).1.lghHdr) := by
  rcases llogCancelArrRec_cases env index h with ⟨hk, hr | ⟨hro, hr⟩ | ⟨hneg, hr | ⟨hpos, -⟩⟩⟩ | ⟨hc, hstop', -, hr⟩
  · exact .inl ⟨hr, hk⟩
  · exact .inr (.inl ⟨hr, .inr ⟨hro, hk⟩⟩)
  · exact .inr (.inr ⟨hr, .inr ⟨hneg, hk⟩⟩)
  · exact absurd hwr (by omega)
  · -- the records are cancelled, and `dt_trans_stop` returned `0`
    have h0 : env.transStop = 0 := by omega
    rcases hr with ⟨-, hr | hr⟩ | ⟨hpos, -⟩
    · exact .inr (.inl ⟨hr.trans h0, .inl hc⟩)
    · exact .inr (.inr ⟨hr, .inl hc⟩)
    · exact absurd hwr (by omega)

end Exits

/-- A plain llog with `LLOG_F_ZAP_WHEN_EMPTY` whose last index is the last of
a 64-bit bitmap, with record 5 left besides the header: `llh_count` is 2. -/
def llogLastPlain : LlogHandle :=
  ⟨⟨2, llogFZapWhenEmpty, 64, fun k => k == 0 || k == 5⟩, 63, false⟩

/-- Storage on which every operation succeeds but `dt_trans_stop`, which
fails with `-EIO`. -/
def llogStopFails : LlogCancelEnv :=
  ⟨false, 0, 0, 0, 0, 0, 0, -eio⟩

theorem llog_cancel_arr_rec_del_plain_restored :
    (llogCancelArrRec llogStopFails llogLastPlain [5]).2 = llogDelPlain ∧
      (llogCancelArrRec llogStopFails llogLastPlain [5]).1.lghHdr.llhBitmap 5 = true ∧
      (llogCancelArrRec llogStopFails llogLastPlain [5]).1.lghHdr.llhCount = 2 ∧
      (llogCancelArrRec { llogStopFails with ddRdonly := true } llogLastPlain [5]).2 = 0 ∧
      (llogCancelArrRec { llogStopFails with ddRdonly := true } llogLastPlain [5]).1.lghHdr.llhBitmap 5 = true := by
  decide

/-- On that storage, the cancel of record 5 is one of the exits
`llog_cancel_arr_rec_exits` allows. -/
theorem llog_cancel_arr_rec_exits_stop_fails :
    llogStopFails.writeRec ≤ 0 ∧ llogStopFails.transStop ≤ 0 ∧
      ((llogCancelArrRec llogStopFails llogLastPlain [5]).2 < 0 ∧
          LlogKept llogLastPlain.lghHdr (llogCancelArrRec llogStopFails llogLastPlain [5]).1.lghHdr ∨
        (llogCancelArrRec llogStopFails llogLastPlain [5]).2 = 0 ∧
          (LlogCancelled [5] llogLastPlain.lghHdr (llogCancelArrRec llogStopFails llogLastPlain [5]).1.lghHdr ∨
            llogStopFails.ddRdonly = true ∧
              LlogKept llogLastPlain.lghHdr (llogCancelArrRec llogStopFails llogLastPlain [5]).1.lghHdr) ∨
        (llogCancelArrRec llogStopFails llogLastPlain [5]).2 = llogDelPlain ∧
          (LlogCancelled [5] llogLastPlain.lghHdr (llogCancelArrRec llogStopFails llogLastPlain [5]).1.lghHdr ∨
            llogStopFails.transStop < 0 ∧
              LlogKept llogLastPlain.lghHdr (llogCancelArrRec llogStopFails llogLastPlain [5]).1.lghHdr)) :=
  ⟨by decide, by decide, llog_cancel_arr_rec_exits llogStopFails [5] llogLastPlain (by decide) (by decide)⟩

end Lustre.Obdclass
