import Mathlib
import Lustre.PackGeneric

/-! # What `lustre_unpack_msg_v2` is meant to guarantee, and where it falls short

The check is meant to establish that every buffer the lengths describe lies
inside the received message (`BuffersInside`): the header, the padded
buffers before buffer `n`, and buffer `n` itself end by `len`. The offset
the accessors compute is the header plus the padded lengths before the
buffer, modulo `2^32` (`bufOffset_toNat`).

A length from `0xFFFFFFF9` to `0xFFFFFFFF` rounds to `2^32` in `size_t`,
which the `int` holds as `0` (`roundedBuflen_of_wrap`): such a length is
accepted at no cost, and the accessors then trust it
(`lustreUnpackMsgV2_accepts_overlong`).
-/

namespace Lustre.PackGeneric

open ByteCodec CArith

/-! ## Rounding -/

/-- The multiple of 8 at or above `v`. -/
def roundUp8 (v : Nat) : Nat := (v + 7) / 8 * 8

theorem le_roundUp8 (v : Nat) : v ≤ roundUp8 v := by
  unfold roundUp8
  omega

/-- `cfs_size_round` rounds up when the addition does not wrap. -/
theorem cfsSizeRound_toNat {v : UInt64} (h : v.toNat + 7 < 2 ^ 64) :
    (cfsSizeRound v).toNat = roundUp8 v.toNat := by
  have hadd : (v + 7).toNat = v.toNat + 7 := by
    rw [UInt64.toNat_add]
    exact Nat.mod_eq_of_lt h
  have hmask : (~~~(0x7 : UInt64)).toNat = 2 ^ 64 - 2 ^ 3 := by decide
  rw [cfsSizeRound, UInt64.toNat_and, hadd, hmask, and_two_pow_sub_two_pow (by decide) h]
  rfl

/-- On a 32-bit length, promoted to `size_t`, it never wraps. -/
@[simp] theorem cfsSizeRound_toUInt64 (b : UInt32) :
    (cfsSizeRound b.toUInt64).toNat = roundUp8 b.toNat := by
  have hb := b.toNat_lt
  rw [cfsSizeRound_toNat] <;> rw [UInt32.toNat_toUInt64]
  omega

/-- The lengths within 7 of `2^32` round to `2^32`, which the `int` holds
as zero. -/
theorem roundedBuflen_of_wrap {b : UInt32} (h : 2 ^ 32 - 7 ≤ b.toNat) : roundedBuflen b = 0 := by
  have hb := b.toNat_lt
  have hround : roundUp8 b.toNat = 2 ^ 32 := by
    unfold roundUp8
    omega
  rw [roundedBuflen, cfsSizeRound_toUInt64, hround, narrowInt_two_pow_32]

/-! ## The layout the lengths describe -/

/-- Where buffer `n` ends: the header, the padded buffers before it, then
its own length. -/
def bufEnd (m : LustreMsgV2) (n : Nat) : Nat :=
  (lustreMsgHdrSizeV2 m.lmBufcount).toNat +
    ∑ i ∈ Finset.range n, (cfsSizeRound (m.buflen i).toUInt64).toNat + (m.buflen n).toNat

/-- Every buffer of the message lies inside the `len` bytes received. -/
def BuffersInside (m : LustreMsgV2) (len : Int) : Prop :=
  ∀ n < m.lmBufcount.toNat, (bufEnd m n : Int) ≤ len

/-- The padded lengths of the first `n` buffers. -/
def paddedSum (m : LustreMsgV2) (n : Nat) : Nat :=
  ∑ i ∈ Finset.range n, roundUp8 (m.buflen i).toNat

theorem paddedSum_mono (m : LustreMsgV2) {n n' : Nat} (h : n ≤ n') : paddedSum m n ≤ paddedSum m n' :=
  Finset.sum_le_sum_of_subset (Finset.range_subset_range.mpr h)

/-! ## Where the accessors look -/

/-- The `__u32` `offset` of `lustre_msg_buf_v2` is the header plus the
padded lengths before the buffer, modulo `2^32`. -/
theorem bufOffset_toNat (m : LustreMsgV2) (n : Nat) :
    (bufOffset m n).toNat = ((lustreMsgHdrSizeV2 m.lmBufcount).toNat + paddedSum m n) % 2 ^ 32 := by
  induction n with
  | zero =>
    have hlt := (lustreMsgHdrSizeV2 m.lmBufcount).toNat_lt
    simp [bufOffset, paddedSum, Nat.mod_eq_of_lt hlt]
  | succ n ih =>
    have hstep : bufOffset m (n + 1) =
        ((bufOffset m n).toUInt64 + cfsSizeRound (m.buflen n).toUInt64).toUInt32 := by
      simp [bufOffset, List.range_succ, List.foldl_append]
    have hsum : paddedSum m (n + 1) = paddedSum m n + roundUp8 (m.buflen n).toNat :=
      Finset.sum_range_succ _ _
    rw [hstep, UInt64.toNat_toUInt32, UInt64.toNat_add, UInt32.toNat_toUInt64,
      cfsSizeRound_toUInt64, ih, hsum]
    omega

/-! ## A length the check lets through -/

/-- One buffer of length `0xFFFFFFFF`, received as just its 40-byte header. -/
def overlongMsg : LustreMsgV2 :=
  { lmBufcount := 1, lmSecflvr := 0, lmMagic := lustreMsgMagicV2, lmRepsize := 0, lmCksum := 0,
    lmFlags := 0, lmOpc := 0, lmPadding3 := 0, lmBuflens := [0xFFFFFFFF] }

/-- `lustre_unpack_msg_v2` accepts the 40 bytes of `overlongMsg`, whose
buffer would end `2^32 - 1` bytes past them; `lustre_msg_buf_v2` then hands
out the end of the message as a buffer of any size, and
`lustre_msg_string` scans past it. -/
theorem lustreUnpackMsgV2_accepts_overlong (maxBuflen : Nat) (hmax : 40 ≤ maxBuflen) :
    lustreUnpackMsgV2 maxBuflen overlongMsg 40 = (0, overlongMsg) ∧
      ¬ BuffersInside overlongMsg 40 ∧
      lustreMsgBufV2 overlongMsg 0 1 = some (some 40) ∧
      ∀ mem : List UInt8, mem.length = 40 → lustreMsgString maxBuflen overlongMsg mem 0 0 = none := by
  have hround : roundedBuflen 0xFFFFFFFF = 0 := roundedBuflen_of_wrap (by decide)
  have hhdr0 : lustreMsgHdrSizeV2 0 = 32 := by decide
  have hhdr1 : lustreMsgHdrSizeV2 1 = 40 := by decide
  have hnonneg : ¬ ((maxBuflen : Int) < 0) := by omega
  have hnotmax : ¬ ((maxBuflen : Int) < 40) := by omega
  refine ⟨?_, ?_, by decide, ?_⟩
  · simp [lustreUnpackMsgV2, overlongMsg, unpackBuflens, swabBuflen, hhdr0, hhdr1, hround,
      lustreMsgMagicV2, lustreMsgMagicV2Swabbed, ptlrpcMaxBufcount, hnonneg, hnotmax]
  · intro hin
    have := hin 0 (by decide)
    simp [bufEnd, overlongMsg, LustreMsgV2.buflen, hhdr1] at this
  · intro mem hlen
    have hbuf : lustreMsgBufV2 overlongMsg 0 0 = some (some 40) := by decide
    have hblen : lustreMsgBuflenV2 overlongMsg 0 = 0xFFFFFFFF := by decide
    -- the string starts where the 40 received bytes end
    have hscan : strnlen mem (40 : UInt32).toNat (0xFFFFFFFF : UInt32).toNat = none := by
      have hend : (40 : UInt32).toNat = mem.length := by rw [hlen]; rfl
      rw [hend]
      exact strnlen_at_end mem _
    have hmagic : ¬ overlongMsg.lmMagic ≠ lustreMsgMagicV2 := by decide
    rw [lustreMsgString, if_neg hmagic, hbuf]
    dsimp only
    rw [hblen, hscan]

theorem lustreUnpackMsgV2_accepts_overlong_at_4096 :
    40 ≤ 4096 ∧
      (lustreUnpackMsgV2 4096 overlongMsg 40 = (0, overlongMsg) ∧
        ¬ BuffersInside overlongMsg 40 ∧
        lustreMsgBufV2 overlongMsg 0 1 = some (some 40) ∧
        ∀ mem : List UInt8, mem.length = 40 → lustreMsgString 4096 overlongMsg mem 0 0 = none) :=
  ⟨by decide, lustreUnpackMsgV2_accepts_overlong 4096 (by decide)⟩

end Lustre.PackGeneric
