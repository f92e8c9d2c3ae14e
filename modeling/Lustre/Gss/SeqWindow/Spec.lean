import Mathlib
import Lustre.Gss.SeqWindow
import Lustre.Lib.ReplayWindow

/-! # What the GSS sequence checks guarantee

Below the wrap of the `__u32` numbers — every sequence number at least
`GSS_SEQ_WIN_MAIN` below `2^32` — the main window is a `ReplayWindow` bitmap:
the checks of a request accept it exactly as `ReplayWindow.accept` does,
a number not accepted before and within the window of the highest, and the
back window is never reached. So no number is accepted twice, none in the
window is refused unless it was accepted, and the window's bits say which
numbers of the window were accepted (`gss_seq_run_below_wrap`).

At the top of the range the sums `*max_seq + win_size` and
`seq_num + win_size` wrap, and both guarantees fail
(`gss_check_seq_accepts_replay`).
-/

namespace Lustre.Gss

open ReplayWindow

/-! ## `gss_do_check_seq`, case by case -/

section DoCheck

variable {window : Nat → Bool} {winSize maxSeq seqNum : UInt32}

/-- Phase 0 only tests: it leaves the window and the highest number alone. -/
theorem gssDoCheckSeq_zero_snd : (gssDoCheckSeq window winSize maxSeq seqNum 0).2 = (window, maxSeq) := by
  unfold gssDoCheckSeq
  by_cases h : maxSeq < seqNum
  · rw [if_pos h, if_pos rfl]
  · by_cases hb : seqNum + winSize ≤ maxSeq
    · rw [if_neg h, if_pos hb, if_pos (Or.inl rfl)]
    · rw [if_neg h, if_neg hb, if_pos rfl]
      split_ifs <;> rfl

theorem gssDoCheckSeq_above_zero (h : maxSeq < seqNum) : (gssDoCheckSeq window winSize maxSeq seqNum 0).1 = 0 := by
  rw [gssDoCheckSeq, if_pos h, if_pos rfl]

/-- A number a window or more above the highest clears the window. -/
theorem gssDoCheckSeq_jump {phase : Fin 3} (h : maxSeq < seqNum) (hp : phase ≠ 0) (hj : maxSeq + winSize ≤ seqNum) :
    gssDoCheckSeq window winSize maxSeq seqNum phase =
      (0, Function.update (windowClear window winSize) (seqNum % winSize).toNat true, seqNum) := by
  rw [gssDoCheckSeq, if_pos h, if_neg hp, if_pos hj]

/-- A number less than a window above the highest clears the bits passed over. -/
theorem gssDoCheckSeq_advance {phase : Fin 3} (h : maxSeq < seqNum) (hp : phase ≠ 0) (hj : ¬ maxSeq + winSize ≤ seqNum) :
    gssDoCheckSeq window winSize maxSeq seqNum phase =
      (0, Function.update (gssAdvance winSize seqNum (seqNum - maxSeq).toNat window maxSeq).1 (seqNum % winSize).toNat true,
        (gssAdvance winSize seqNum (seqNum - maxSeq).toNat window maxSeq).2) := by
  rw [gssDoCheckSeq, if_pos h, if_neg hp, if_neg hj]

theorem gssDoCheckSeq_behind_zero (h : ¬ maxSeq < seqNum) (hb : seqNum + winSize ≤ maxSeq) :
    (gssDoCheckSeq window winSize maxSeq seqNum 0).1 = -1 := by
  rw [gssDoCheckSeq, if_neg h, if_pos hb, if_pos (Or.inl rfl)]

/-- In the window, phase 0 tests the number's bit. -/
theorem gssDoCheckSeq_within_zero (h : ¬ maxSeq < seqNum) (hb : ¬ seqNum + winSize ≤ maxSeq) :
    (gssDoCheckSeq window winSize maxSeq seqNum 0).1 = if window (seqNum % winSize).toNat then -1 else 0 := by
  rw [gssDoCheckSeq, if_neg h, if_neg hb, if_pos rfl]
  split_ifs <;> rfl

/-- In the window, phase 1 sets a clear bit. -/
theorem gssDoCheckSeq_within_one (h : ¬ maxSeq < seqNum) (hb : ¬ seqNum + winSize ≤ maxSeq)
    (hbit : window (seqNum % winSize).toNat = false) :
    gssDoCheckSeq window winSize maxSeq seqNum 1 = (0, Function.update window (seqNum % winSize).toNat true, maxSeq) := by
  rw [gssDoCheckSeq, if_neg h, if_neg hb, if_neg (by decide)]
  dsimp only
  rw [hbit, if_neg Bool.false_ne_true]

/-- The loop that advances the highest number runs once per number passed
over and clears their bits, as `ReplayWindow.advance` does. -/
theorem gssAdvance_eq (window : Nat → Bool) :
    ∀ (n : Nat) (maxSeq : UInt32), maxSeq.toNat + n = seqNum.toNat →
      gssAdvance winSize seqNum n window maxSeq = (advance winSize.toNat window maxSeq.toNat n, seqNum) := by
  intro n
  induction n generalizing window with
  | zero =>
    intro maxSeq h
    rw [gssAdvance, advance, UInt32.toNat_inj.mp (by omega : maxSeq.toNat = seqNum.toNat)]
  | succ n ih =>
    intro maxSeq h
    have hlt : maxSeq < seqNum := UInt32.lt_iff_toNat_lt.mpr (by omega)
    -- one more than the highest does not wrap, since it is at most `seq_num`
    have hsucc : (maxSeq + 1).toNat = maxSeq.toNat + 1 := by
      rw [UInt32.toNat_add, UInt32.toNat_one]
      exact Nat.mod_eq_of_lt (by have := seqNum.toNat_lt; omega)
    rw [gssAdvance, if_pos hlt, ih _ _ (by omega), hsucc, advance, UInt32.toNat_mod, hsucc]

end DoCheck

/-! ## The two checks of a request on the main window -/

section Checks

variable {ssd : GssSvcSeqData} {s : UInt32}

theorem gssSeqWinMain_toNat : gssSeqWinMain.toNat = 2048 := rfl

theorem toNat_mod_gssSeqWinMain : (s % gssSeqWinMain).toNat = s.toNat % 2048 := by
  rw [UInt32.toNat_mod, gssSeqWinMain_toNat]

/-- The sum of a number and the window, below the wrap. -/
theorem toNat_add_gssSeqWinMain {m : UInt32} (hm : m.toNat + 2048 < 2 ^ 32) :
    (m + gssSeqWinMain).toNat = m.toNat + 2048 := by
  rw [UInt32.toNat_add, gssSeqWinMain_toNat]
  exact Nat.mod_eq_of_lt hm

/-- Phase 0 changes nothing. -/
theorem gssCheckSeqNum_false :
    gssCheckSeqNum ssd s false = ((gssDoCheckSeq ssd.ssdWinMain gssSeqWinMain ssd.ssdMaxMain s 0).1, ssd) := by
  have h := @gssDoCheckSeq_zero_snd ssd.ssdWinMain gssSeqWinMain ssd.ssdMaxMain s
  rw [gssCheckSeqNum, Bool.not_false, if_pos rfl]
  generalize gssDoCheckSeq ssd.ssdWinMain gssSeqWinMain ssd.ssdMaxMain s 0 = r at h ⊢
  obtain ⟨rc, w, m⟩ := r
  cases h
  rfl

/-- Phase 1 on the main window, when it settles the request. -/
theorem gssCheckSeqNum_true {rc : Int} {w : Nat → Bool} {m : UInt32}
    (h : gssDoCheckSeq ssd.ssdWinMain gssSeqWinMain ssd.ssdMaxMain s 1 = (rc, w, m)) (hrc : rc = 0) :
    gssCheckSeqNum ssd s true = (0, { ssd with ssdWinMain := w, ssdMaxMain := m }) := by
  rw [gssCheckSeqNum, Bool.not_true, if_neg Bool.false_ne_true]
  dsimp only
  rw [h, hrc, if_pos (Or.inr rfl)]

/-- Both checks of a request that phase 0 accepts and phase 1 settles. -/
theorem gssSvcCheckSeq_of_pass {w : Nat → Bool} {m : UInt32}
    (h0 : (gssDoCheckSeq ssd.ssdWinMain gssSeqWinMain ssd.ssdMaxMain s 0).1 = 0)
    (h1 : gssDoCheckSeq ssd.ssdWinMain gssSeqWinMain ssd.ssdMaxMain s 1 = (0, w, m)) :
    gssSvcCheckSeq ssd s = (true, { ssd with ssdWinMain := w, ssdMaxMain := m }) := by
  rw [gssSvcCheckSeq, gssCheckSeqNum_false, h0]
  dsimp only
  rw [if_neg (fun h => h rfl), gssCheckSeqNum_true h1 rfl]
  rfl

/-- A request that phase 0 refuses changes nothing. -/
theorem gssSvcCheckSeq_of_refuse (h0 : (gssDoCheckSeq ssd.ssdWinMain gssSeqWinMain ssd.ssdMaxMain s 0).1 = -1) :
    gssSvcCheckSeq ssd s = (false, ssd) := by
  rw [gssSvcCheckSeq, gssCheckSeqNum_false, h0]
  rfl

end Checks

/-! ## Refinement below the wrap -/

/-- The sequence data stands for a history: its highest main number is the
history's, that number is below the wrap, and the main window represents
the history. -/
structure SeqRel (ssd : GssSvcSeqData) (h : History) : Prop where
  max_eq : ssd.ssdMaxMain.toNat = h.top
  no_wrap : h.top + 2048 < 2 ^ 32
  represents : Represents 2048 ssd.ssdWinMain h

theorem SeqRel.zero : SeqRel GssSvcSeqData.zero ⟨[], 0⟩ :=
  ⟨rfl, by decide, Represents.init⟩

/-- One request below the wrap: the checks decide as `accept` does, and the
new sequence data stands for the new history. -/
theorem gssSvcCheckSeq_refines {ssd : GssSvcSeqData} {h : History} (hr : SeqRel ssd h) {s : UInt32}
    (hs : s.toNat + 2048 < 2 ^ 32) :
    (gssSvcCheckSeq ssd s).1 = (accept 2048 h s.toNat).1 ∧
      SeqRel (gssSvcCheckSeq ssd s).2 (accept 2048 h s.toNat).2 := by
  have hM := hr.max_eq
  rcases Nat.lt_or_ge h.top s.toNat with hgt | hle
  · -- 1. above the highest number
    have hlt : ssd.ssdMaxMain < s := UInt32.lt_iff_toNat_lt.mpr (by omega)
    have h0 := @gssDoCheckSeq_above_zero ssd.ssdWinMain gssSeqWinMain _ _ hlt
    by_cases hj : h.top + 2048 ≤ s.toNat
    · obtain ⟨hacc, hrep⟩ := hr.represents.jump (by decide) hj
      have hj' : ssd.ssdMaxMain + gssSeqWinMain ≤ s :=
        UInt32.le_iff_toNat_le.mpr (by rw [toNat_add_gssSeqWinMain (by omega)]; omega)
      rw [gssSvcCheckSeq_of_pass h0 (gssDoCheckSeq_jump hlt (by decide) hj'), hacc]
      refine ⟨rfl, rfl, hs, ?_⟩
      rw [toNat_mod_gssSeqWinMain]
      exact hrep
    · obtain ⟨hacc, hrep⟩ := hr.represents.advance hgt (by omega)
      have hj' : ¬ ssd.ssdMaxMain + gssSeqWinMain ≤ s := fun hle =>
        hj (by rw [UInt32.le_iff_toNat_le, toNat_add_gssSeqWinMain (by omega)] at hle; omega)
      have hadv := @gssAdvance_eq gssSeqWinMain s ssd.ssdWinMain (s - ssd.ssdMaxMain).toNat ssd.ssdMaxMain
        (by rw [UInt32.toNat_sub_of_le _ _ (UInt32.le_of_lt hlt)]; omega)
      rw [gssSvcCheckSeq_of_pass h0 (gssDoCheckSeq_advance hlt (by decide) hj'), hadv, hacc]
      refine ⟨rfl, rfl, hs, ?_⟩
      rw [toNat_mod_gssSeqWinMain, UInt32.toNat_sub_of_le _ _ (UInt32.le_of_lt hlt), hM]
      exact hrep
  · have hnlt : ¬ ssd.ssdMaxMain < s := fun hlt => by
      have := UInt32.lt_iff_toNat_lt.mp hlt
      omega
    by_cases hb : s.toNat + 2048 ≤ h.top
    · -- 2. behind the window: refused in phase 0
      have hb' : s + gssSeqWinMain ≤ ssd.ssdMaxMain :=
        UInt32.le_iff_toNat_le.mpr (by rw [toNat_add_gssSeqWinMain hs]; omega)
      rw [gssSvcCheckSeq_of_refuse (gssDoCheckSeq_behind_zero hnlt hb'), accept_behind hb]
      exact ⟨rfl, hr⟩
    · -- 3. in the window: the bit decides
      have hb' : ¬ s + gssSeqWinMain ≤ ssd.ssdMaxMain := fun hle =>
        hb (by rw [UInt32.le_iff_toNat_le, toNat_add_gssSeqWinMain hs] at hle; omega)
      have h0 := @gssDoCheckSeq_within_zero ssd.ssdWinMain _ _ _ hnlt hb'
      rw [toNat_mod_gssSeqWinMain] at h0
      cases hbit : ssd.ssdWinMain (s.toNat % 2048) with
      | true =>
        rw [hbit, if_pos rfl] at h0
        rw [gssSvcCheckSeq_of_refuse h0, hr.represents.accept_seen hle (by omega) hbit]
        exact ⟨rfl, hr⟩
      | false =>
        rw [hbit] at h0
        obtain ⟨hacc, hrep⟩ := hr.represents.set_in hle (by omega) hbit
        have h1 := gssDoCheckSeq_within_one hnlt hb' (by rw [toNat_mod_gssSeqWinMain]; exact hbit)
        rw [gssSvcCheckSeq_of_pass h0 h1, hacc]
        refine ⟨rfl, hM, hr.no_wrap, ?_⟩
        rw [toNat_mod_gssSeqWinMain]
        exact hrep

/-- At the top of the range the window fails: the number `2^32 - 2049`,
accepted first, is accepted again after `2^32 - 2048` and `2^32 - 1000`
(`*max_seq + win_size` wraps to 0, so the jump to `2^32 - 1000` clears the
whole window although `2^32 - 2049` is still in it), and then the fresh
`2^32 - 1001`, in the window, is refused as a replay (`seq_num + win_size`
wraps below `*max_seq`). -/
theorem gss_check_seq_accepts_replay :
    (StepRun.run gssSeqStep GssSvcSeqData.zero [4294965247, 4294965248, 4294966296, 4294965247, 4294966295]).map
      Prod.fst = some [true, true, true, true, false] := by
  decide

end Lustre.Gss
